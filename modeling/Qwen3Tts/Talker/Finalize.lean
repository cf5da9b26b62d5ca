import Qwen3Tts.Talker.Checkpoint

/-!
# Talker — `finalize` is all or nothing

* `finalize_atomic` — in runs where no inserted tensor loses its map node and no `finalize` fails
  behind the first talker layer: a success leaves every layer once, a failure leaves the weights
  as they were;
* `finalize_succeeds` — a model with all the tensors is finalized;
* `finalize_not_atomic` — an upload whose insertion fails is counted, so that the total is wrong
  after the retry.
-/

namespace Qwen3Tts.Talker

open Qwen3Tts.Lib

namespace TalkerModel

/-! ## The property -/

/-- Everything but the members, which a `finalize` only writes. -/
def weights (m : TalkerModel) : TalkerModel := { m with members := .null }

end TalkerModel

/-- The addresses of a layer, in the order of its lookups. -/
def DecoderWeights.addresses (w : DecoderWeights) : List Address :=
  [w.inputNorm, w.qProjection, w.kProjection, w.vProjection, w.outputProjection, w.qNorm, w.kNorm,
    w.postAttentionNorm, w.gateProjection, w.upProjection, w.downProjection]

namespace TalkerModel

/-- The layer refers to the tensors with its names. -/
def LayerAt (m : TalkerModel) (stem : String) (dimensions : ModelDimensions) (w : DecoderWeights) :
    Prop :=
  List.Forall₂ (fun required address => m.found required = .ok address)
    (layerTensors stem dimensions) w.addresses

/-- Entry `i` of a layer list is layer `i`. -/
def LayersAt (m : TalkerModel) (stem : Nat → String) (dimensions : ModelDimensions) (layers : Nat)
    (ws : List DecoderWeights) : Prop :=
  List.Forall₂ (fun layer w => m.LayerAt (stem layer) dimensions w) (List.range layers) ws

/-- The INT8 image of a layer. -/
def imageOf (dimensions : ModelDimensions) (layer : DecoderWeights) : DecoderWeightsInt8 :=
  let image (weight : Address) (inFeatures outFeatures : Nat) : QuantizedTensor :=
    { weight := weight, inFeatures := inFeatures, outFeatures := outFeatures }
  let gate := image layer.gateProjection dimensions.hidden dimensions.intermediate
  let up := image layer.upProjection dimensions.hidden dimensions.intermediate
  { qProjection := image layer.qProjection dimensions.hidden dimensions.queryWidth
    kProjection := image layer.kProjection dimensions.hidden dimensions.keyValueWidth
    vProjection := image layer.vProjection dimensions.hidden dimensions.keyValueWidth
    outputProjection := image layer.outputProjection dimensions.queryWidth dimensions.hidden
    gateProjection := gate, upProjection := up
    downProjection := image layer.downProjection dimensions.intermediate dimensions.hidden
    gateUpFused := (gate, up) }

/-- A model that can be used: one entry for each layer, and in the INT8 mode its image at the same
place of the other list. -/
structure Whole (m : TalkerModel) (int8 : Bool) : Prop where
  talker : m.LayersAt talkerStem kTalkerDimensions kTalkerLayers m.talkerLayers
  predictor : m.LayersAt predictorStem kPredictorDimensions kPredictorLayers m.predictorLayers
  talkerInt8 : m.talkerLayersInt8 =
    if int8 then m.talkerLayers.map (imageOf kTalkerDimensions) else []
  predictorInt8 : m.predictorLayersInt8 =
    if int8 then m.predictorLayers.map (imageOf kPredictorDimensions) else []

/-- The answer of a call and the weights behind it. -/
def seen (r : ModelAnswer × TalkerModel) : ModelAnswer × TalkerModel := (r.1, r.2.weights)

/-- The bytes of the tensors. -/
def totalBytes (m : TalkerModel) : Nat := (m.tensors.map fun t => t.2.bytes.toNat).sum

/-- What a call can do. -/
structure Atomic (m : TalkerModel) (call : ModelCall) (answer : ModelAnswer) (m' : TalkerModel) :
    Prop where
  whole : ∀ memory, answer = .finalized memory → ∃ int8 fault, call = .finalize int8 fault ∧
    m'.Whole int8 ∧ memory.sharedWeightBytes.toNat = m'.totalBytes
  kept : ∀ message, answer = .failed message → m'.weights = m.weights
  /-- A retry, and whatever is called behind it, gives the answers of a first call. -/
  retry : ∀ message, answer = .failed message → ∀ calls call,
    ((run step m' calls).bind fun n => (n.call call).map seen) =
      (run step m calls).bind fun n => (n.call call).map seen

/-! ## The condition -/

/-- The fault is at this point. -/
def Hits (fault : Option (FinalizePoint × String)) (point : FinalizePoint) : Prop :=
  ∃ message, fault = some (point, message)

/-- What is looked up until the first talker layer is complete. -/
def firstTensors : List Required :=
  talkerMembers.map Prod.fst ++ layerTensors (talkerStem 0) kTalkerDimensions

/-- The first talker layer is appended. -/
structure Entered (m : TalkerModel) (fault : Option (FinalizePoint × String)) : Prop where
  present : ∀ required ∈ firstTensors, m.Present required
  lookups : ∀ required ∈ firstTensors, ¬ Hits fault (.lookup required.1)
  reserve : ¬ Hits fault .reserveTalker

/-- Nothing is missing and nothing fails. -/
structure Sound (m : TalkerModel) (fault : Option (FinalizePoint × String)) : Prop where
  present : ∀ required ∈ requiredTensors, m.Present required
  calls : fault = none

/-- An accepted tensor gets its map node, and a `finalize` that appends the first layer succeeds
to its end. -/
def Steady (m : TalkerModel) : ModelCall → Prop
  | .upload upload outcome => ∀ accepted message, m.uploadChecks upload = .ok accepted →
      outcome ≠ .insertFailed message
  | .finalize _ fault => m.finalized = false → m.tensors.length = 404 → m.Entered fault →
      m.Sound fault

/-! ## Lookups -/

/-- Models that agree but for their members have the same tensors -/
theorem tensors_of_weights {m n : TalkerModel} (h : m.weights = n.weights) :
    m.tensors = n.tensors := by
  have heq := congrArg TalkerModel.tensors h
  exact heq

/-- and the same layers. -/
theorem talkerLayers_of_weights {m n : TalkerModel} (h : m.weights = n.weights) :
    m.talkerLayers = n.talkerLayers := by
  have heq := congrArg TalkerModel.talkerLayers h
  exact heq

theorem predictorLayers_of_weights {m n : TalkerModel} (h : m.weights = n.weights) :
    m.predictorLayers = n.predictorLayers := by
  have heq := congrArg TalkerModel.predictorLayers h
  exact heq

section
variable {fault : Option (FinalizePoint × String)} {P : TalkerModel → Prop} {m₀ : TalkerModel}

/-- A point is passed when the fault is at another one. -/
theorem reach_spec (point : FinalizePoint) :
    Triple P (reach fault point) (fun _ m => P m ∧ ¬ Hits fault point)
      (fun _ m => P m ∧ fault ≠ none) := by
  unfold reach
  cases fault with
  | none => exact Triple.pure fun m hm => ⟨hm, nofun⟩
  | some f =>
    obtain ⟨failing, message⟩ := f
    refine Triple.throwIf (fun m hm _ => ⟨hm, nofun⟩) fun m hm hne => ⟨hm, ?_⟩
    rintro ⟨message', heq⟩
    exact hne (Prod.mk.inj (Option.some.inj heq)).1

/-- What a lookup establishes, and why it can fail. -/
def Holds (m₀ : TalkerModel) (fault : Option (FinalizePoint × String)) (required : Required) :
    Prop :=
  m₀.Present required ∧ ¬ Hits fault (.lookup required.1)

/-- The lookup of this tensor fails, or some call does. -/
def Fails (m₀ : TalkerModel) (fault : Option (FinalizePoint × String)) (required : Required) :
    Prop :=
  ¬ (m₀.Present required ∧ fault = none)

/-- The states of the stage have the tensors of `m₀`. -/
def SameTensors (P : TalkerModel → Prop) (m₀ : TalkerModel) : Prop :=
  ∀ m, P m → m.tensors = m₀.tensors

/-- A lookup looks at the tensors only. -/
theorem found_congr {m m' : TalkerModel} (h : m.tensors = m'.tensors) (required : Required) :
    m.found required = m'.found required := by
  rw [found, found, h]

/-- A required tensor is found, or the load fails at it. -/
theorem require_spec (hP : SameTensors P m₀) (required : Required) :
    Triple P (require fault required)
      (fun a m => P m ∧ m₀.found required = .ok a ∧ ¬ Hits fault (.lookup required.1))
      (fun _ m => P m ∧ Fails m₀ fault required) := by
  refine Triple.bind (Triple.weaken (reach_spec _) (fun _ hm => hm) (fun _ _ hm => hm)
    fun _ m hm => ⟨hm.1, fun h => hm.2 h.2⟩) fun _ => ?_
  refine Triple.bind (Triple.get (Q := fun s m => s = m ∧ P m ∧ ¬ Hits fault (.lookup required.1))
    fun m hm => ⟨rfl, hm⟩) fun s => ?_
  cases hfound : s.found required with
  | error message =>
    refine Triple.throw ?_
    rintro m ⟨rfl, hm, -⟩
    refine ⟨hm, fun h => ?_⟩
    obtain ⟨⟨address, haddress⟩, -⟩ := h
    rw [← found_congr (hP s hm), hfound] at haddress
    cases haddress
  | ok address =>
    refine Triple.pure ?_
    rintro m ⟨rfl, hm, havoids⟩
    exact ⟨hm, by rw [← found_congr (hP s hm), hfound], havoids⟩

/-- A table of lookups, for a stage that does not depend on the members. -/
theorem loadMembers_spec (hP : SameTensors P m₀) (hmembers : ∀ f m, P m → P (onMembers f m))
    (members : List (Required × (Address → Members → Members))) :
    Triple P (loadMembers fault members)
      (fun _ m => P m ∧ ∀ required ∈ members.map Prod.fst, Holds m₀ fault required)
      (fun _ m => P m ∧ ∃ required ∈ members.map Prod.fst, Fails m₀ fault required) := by
  refine Triple.weaken (Triple.forM (I := fun done m => P m ∧
    ∀ required ∈ done.map Prod.fst, Holds m₀ fault required) fun done member rest hsplit => ?_)
    (fun m hm => ⟨hm, nofun⟩) (fun _ _ hm => hm) fun _ _ hm => hm
  refine Triple.fact fun hdone => Triple.bind (Triple.weaken (require_spec hP member.1)
    (fun _ hm => hm) (fun _ _ hm => hm) fun _ m hm => ⟨hm.1, member.1, ?_, hm.2⟩) fun address => ?_
  · rw [hsplit]
    simp
  · refine Triple.modify fun m hm => ⟨hmembers _ m hm.1, fun required hrequired => ?_⟩
    rw [List.map_append, List.mem_append] at hrequired
    rcases hrequired with hrequired | hrequired
    · exact hdone required hrequired
    · obtain rfl := List.mem_singleton.mp hrequired
      exact ⟨⟨address, hm.2.1⟩, hm.2.2⟩

/-- One layer; a lookup changes nothing. -/
theorem loadLayer_spec (hP : SameTensors P m₀) (stem : String) (dimensions : ModelDimensions) :
    Triple P (loadLayer fault stem dimensions)
      (fun w m => P m ∧ (∃ weights, w = some weights ∧ m₀.LayerAt stem dimensions weights) ∧
        ∀ required ∈ layerTensors stem dimensions, Holds m₀ fault required)
      (fun _ m => P m ∧ ∃ required ∈ layerTensors stem dimensions, Fails m₀ fault required) := by
  refine Triple.bind (Q := fun addresses m => P m ∧ List.Forall₂ (fun required a =>
      m₀.found required = .ok a) (layerTensors stem dimensions) addresses ∧
        ∀ required ∈ layerTensors stem dimensions, Holds m₀ fault required) ?_ fun addresses => ?_
  · refine Triple.weaken (Triple.mapM (I := fun done addresses m => P m ∧
      List.Forall₂ (fun required a => m₀.found required = .ok a) done addresses ∧
        ∀ required ∈ done, Holds m₀ fault required) fun done required rest addresses hsplit => ?_)
      (fun m hm => ⟨hm, .nil, nofun⟩) (fun _ _ hm => hm) fun _ _ hm => hm
    refine Triple.fact fun hdone => Triple.weaken (require_spec hP required) (fun _ hm => hm)
      (fun a m hm => ⟨hm.1, ?_, ?_⟩) fun _ m hm => ⟨hm.1, required, by simp [hsplit], hm.2⟩
    · exact List.rel_append hdone.1 (.cons hm.2.1 .nil)
    · intro r hr
      rcases List.mem_append.mp hr with hr | hr
      · exact hdone.2 r hr
      · obtain rfl := List.mem_singleton.mp hr
        exact ⟨⟨a, hm.2.1⟩, hm.2.2⟩
  · refine Triple.pure fun m hm => ⟨hm.1, ?_, hm.2.2⟩
    have hlength := hm.2.1.length_eq
    match addresses, hlength with
    | [_, _, _, _, _, _, _, _, _, _, _], _ => exact ⟨_, rfl, hm.2.1⟩

/-! ## Layer lists

`target ws` is the model with the layers `ws` appended; both lists are filled by the same loop. -/

/-- A loop of lookups and `push_back`s; an error leaves the layers before it in the list. -/
theorem pushLayers_spec {stem : Nat → String} {dimensions : ModelDimensions} {layers : Nat}
    {target : List DecoderWeights → TalkerModel} (hsame : ∀ ws, (target ws).tensors = m₀.tensors)
    {push : List DecoderWeights → TalkerModel → TalkerModel}
    (hpush : ∀ ws w m, m.weights = (target ws).weights →
      (push [w] m).weights = (target (ws ++ [w])).weights) :
    Triple (fun m => m.weights = (target []).weights)
      ((List.range layers).forM fun layer => do
        let w ← loadLayer fault (stem layer) dimensions
        modify (push w.toList))
      (fun _ m => ∃ ws, m.weights = (target ws).weights ∧ m₀.LayersAt stem dimensions layers ws ∧
        ∀ layer < layers, ∀ required ∈ layerTensors (stem layer) dimensions,
          Holds m₀ fault required)
      (fun _ m => (m.weights = (target []).weights ∨
          ∀ required ∈ layerTensors (stem 0) dimensions, Holds m₀ fault required) ∧
        ∃ layer < layers, ∃ required ∈ layerTensors (stem layer) dimensions,
          Fails m₀ fault required) := by
  refine Triple.weaken (Triple.forM (I := fun done m => ∃ ws, m.weights = (target ws).weights ∧
    (List.Forall₂ (fun layer w => m₀.LayerAt (stem layer) dimensions w) done ws ∧
      ∀ layer ∈ done, ∀ required ∈ layerTensors (stem layer) dimensions,
        Holds m₀ fault required)) fun done layer rest hsplit => ?_)
    (fun m hm => ⟨[], hm, .nil, nofun⟩)
    (fun _ m ⟨ws, hm, hlayers, hholds⟩ =>
      ⟨ws, hm, hlayers, fun layer hlayer => hholds layer (List.mem_range.mpr hlayer)⟩)
    fun _ _ hm => hm
  refine Triple.any fun ws => Triple.fact fun hdone => ?_
  have hstate : SameTensors (fun m => m.weights = (target ws).weights) m₀ := fun m hm =>
    (tensors_of_weights hm).trans (hsame ws)
  refine Triple.bind (Triple.weaken (loadLayer_spec hstate (stem layer) dimensions)
    (fun _ hm => hm) (fun _ _ hm => hm) ?_) fun w => ?_
  · -- the first iteration has appended nothing; a later one comes behind layer 0
    rintro _ m ⟨hm, required, hrequired, hfails⟩
    have hlayer : layer < layers := List.mem_range.mp (hsplit ▸ by simp)
    refine ⟨?_, layer, hlayer, required, hrequired, hfails⟩
    cases hdone.1 with
    | nil => exact .inl hm
    | @cons first _ _ _ _ _ =>
      have hfirst : first = 0 := by
        have hhead := congrArg List.head? hsplit
        rw [List.head?_range, if_neg (by omega)] at hhead
        exact (Option.some.inj hhead).symm
      exact .inr fun r hr => hdone.2 0 (hfirst ▸ List.mem_cons_self) r hr
  · refine Triple.modify ?_
    rintro m ⟨hm, ⟨weights, rfl, hweights⟩, hholds⟩
    refine ⟨ws ++ [weights], hpush ws weights m hm,
      List.rel_append hdone.1 (.cons hweights .nil), fun l hl => ?_⟩
    rcases List.mem_append.mp hl with hl | hl
    · exact hdone.2 l hl
    · obtain rfl := List.mem_singleton.mp hl
      exact hholds

/-! ## INT8 images -/

/-- The states of the stage do not depend on the stored images. -/
def FreeStorage (P : TalkerModel → Prop) : Prop :=
  ∀ m stored, P m → P { m with int8Storage := stored }

/-- An image is stored, or the allocation fails. -/
theorem storeInt8_spec (hP : FreeStorage P) (bytes : Nat) :
    Triple P (storeInt8 fault bytes) (fun _ => P) (fun _ _ => fault ≠ none) := by
  refine Triple.bind (Triple.get (Q := fun _ => P) fun m hm => hm) fun s => ?_
  refine Triple.bind (Triple.weaken (reach_spec _) (fun _ hm => hm) (fun _ _ hm => hm.1)
    fun _ m hm => hm.2) fun _ => ?_
  exact Triple.modify fun m hm => hP m _ hm

/-- One matrix: its image has its address and its sizes. -/
theorem quantize_spec (hP : FreeStorage P) (weight : Address) (inFeatures outFeatures : Nat) :
    Triple P (quantize fault weight inFeatures outFeatures)
      (fun image m => P m ∧
        image = { weight := weight, inFeatures := inFeatures, outFeatures := outFeatures })
      (fun _ _ => fault ≠ none) :=
  Triple.bind (storeInt8_spec hP _) fun _ => Triple.bind (storeInt8_spec hP _) fun _ =>
    Triple.pure fun _ hm => ⟨hm, rfl⟩

/-- One layer, -/
theorem quantizeLayer_spec (hP : FreeStorage P) (dimensions : ModelDimensions)
    (layer : DecoderWeights) :
    Triple P (quantizeLayer fault dimensions layer)
      (fun image m => P m ∧ image = imageOf dimensions layer) (fun _ _ => fault ≠ none) := by
  refine Triple.bind (storeInt8_spec hP _) fun _ => Triple.bind (storeInt8_spec hP _) fun _ => ?_
  refine Triple.bind (quantize_spec hP _ _ _) fun q => Triple.fact fun hq => ?_
  refine Triple.bind (quantize_spec hP _ _ _) fun k => Triple.fact fun hk => ?_
  refine Triple.bind (quantize_spec hP _ _ _) fun v => Triple.fact fun hv => ?_
  refine Triple.bind (quantize_spec hP _ _ _) fun o => Triple.fact fun ho => ?_
  refine Triple.bind (quantize_spec hP _ _ _) fun down => Triple.fact fun hdown => ?_
  refine Triple.pure fun m hm => ⟨hm, ?_⟩
  rw [hq, hk, hv, ho, hdown]
  rfl

/-- the layers in their order, -/
theorem quantizeLayers_spec (hP : FreeStorage P) (layers : List DecoderWeights)
    (dimensions : ModelDimensions) :
    Triple P (quantizeLayers fault layers dimensions)
      (fun images m => P m ∧ images = layers.map (imageOf dimensions))
      (fun _ _ => fault ≠ none) := by
  refine Triple.weaken (Triple.mapM (I := fun done images m => P m ∧
    images = done.map (imageOf dimensions)) fun done layer rest images _ => ?_)
    (fun m hm => ⟨hm, rfl⟩) (fun _ _ hm => hm) fun _ _ hm => hm
  refine Triple.fact fun hdone => Triple.weaken (quantizeLayer_spec hP dimensions layer)
    (fun _ hm => hm) (fun image m hm => ⟨hm.1, ?_⟩) fun _ _ hm => hm
  rw [hdone, hm.2, List.map_append, List.map_singleton]

/-- and the matrices among the members. -/
theorem quantizeMembers_spec (hP : FreeStorage P) (hmembers : ∀ f m, P m → P (onMembers f m)) :
    Triple P (quantizeMembers fault) (fun _ => P) (fun _ _ => fault ≠ none) := by
  -- every image goes into the members
  have hstep : ∀ (weight : Address) (inFeatures outFeatures : Nat)
      (f : QuantizedTensor → Members → Members),
      Triple P (do
          let image ← quantize fault weight inFeatures outFeatures
          modify (onMembers (f image)))
        (fun _ => P) (fun _ _ => fault ≠ none) := fun weight inFeatures outFeatures f =>
    Triple.bind (quantize_spec hP weight inFeatures outFeatures) fun image =>
      Triple.modify fun m hm => hmembers _ m hm.1
  have hbind : ∀ (weight : Address) (inFeatures outFeatures : Nat)
      (f : QuantizedTensor → Members → Members) (rest : Load Unit),
      Triple P rest (fun _ => P) (fun _ _ => fault ≠ none) →
      Triple P (do
          let image ← quantize fault weight inFeatures outFeatures
          modify (onMembers (f image))
          rest)
        (fun _ => P) (fun _ _ => fault ≠ none) := fun weight inFeatures outFeatures f rest hrest =>
    Triple.bind (quantize_spec hP weight inFeatures outFeatures) fun image =>
      Triple.bind (Triple.modify fun m hm => hmembers _ m hm.1) fun _ => hrest
  refine Triple.bind (Triple.get (Q := fun _ => P) fun m hm => hm) fun s => ?_
  refine hbind _ _ _ _ _ (hbind _ _ _ _ _ (hbind _ _ _ _ _ (hbind _ _ _ _ _ ?_)))
  exact Triple.forM (I := fun _ => P) fun _ group _ _ => hstep _ _ _ _

/-- The weights of `m`, whatever images are stored. -/
def WeightsOf (base m : TalkerModel) : Prop :=
  ∃ stored, m.weights = { base with int8Storage := stored }.weights

/-- `WeightsOf` allows for any stored images. -/
theorem freeStorage_weightsOf (base : TalkerModel) : FreeStorage (WeightsOf base) := by
  rintro m stored ⟨_, hm⟩
  exact ⟨stored, congrArg (fun m : TalkerModel => { m with int8Storage := stored }) hm⟩

/-- The two INT8 lists are the images of the two lists of layers. -/
theorem quantizeModel_spec (base : TalkerModel) :
    Triple (WeightsOf base) (quantizeModel fault)
      (fun _ => WeightsOf { base with
        talkerLayersInt8 := base.talkerLayers.map (imageOf kTalkerDimensions)
        predictorLayersInt8 := base.predictorLayers.map (imageOf kPredictorDimensions) })
      (fun _ _ => fault ≠ none) := by
  refine Triple.bind (quantizeMembers_spec (freeStorage_weightsOf base) fun _ _ hm => hm)
    fun _ => ?_
  refine Triple.bind (Triple.get (Q := fun s m => WeightsOf base m ∧
    s.talkerLayers = base.talkerLayers) ?_) fun s => Triple.fact fun htalker => ?_
  · rintro m ⟨stored, hm⟩
    exact ⟨⟨stored, hm⟩, (talkerLayers_of_weights hm :)⟩
  -- the layers of the talker
  refine Triple.bind (quantizeLayers_spec (freeStorage_weightsOf base) _ _) fun images =>
    Triple.fact fun himages => ?_
  rw [htalker] at himages
  subst himages
  refine Triple.bind (Q := fun _ => WeightsOf { base with
    talkerLayersInt8 := base.talkerLayers.map (imageOf kTalkerDimensions) }) (Triple.modify ?_)
    fun _ => ?_
  · rintro m ⟨stored, hm⟩
    exact ⟨stored, congrArg (fun m : TalkerModel => { m with
      talkerLayersInt8 := base.talkerLayers.map (imageOf kTalkerDimensions) }) hm⟩
  refine Triple.bind (Triple.get (Q := fun s m => WeightsOf { base with
    talkerLayersInt8 := base.talkerLayers.map (imageOf kTalkerDimensions) } m ∧
      s.predictorLayers = base.predictorLayers) ?_) fun s => Triple.fact fun hpredictor => ?_
  · rintro m ⟨stored, hm⟩
    exact ⟨⟨stored, hm⟩, (predictorLayers_of_weights hm :)⟩
  -- and those of the predictor
  refine Triple.bind (quantizeLayers_spec (freeStorage_weightsOf _) _ _) fun images =>
    Triple.fact fun himages => ?_
  rw [hpredictor] at himages
  subst himages
  refine Triple.modify ?_
  rintro m ⟨stored, hm⟩
  exact ⟨stored, congrArg (fun m : TalkerModel => { m with
    predictorLayersInt8 := base.predictorLayers.map (imageOf kPredictorDimensions) }) hm⟩

/-! ## `finalize` -/

/-- The model behind a `finalize` that succeeds. -/
def loaded (m : TalkerModel) (int8 : Bool) (talker predictor : List DecoderWeights) : TalkerModel :=
  { m with
    finalized := true
    talkerLayers := talker
    predictorLayers := predictor
    talkerLayersInt8 :=
      if int8 then talker.map (imageOf kTalkerDimensions) else m.talkerLayersInt8
    predictorLayersInt8 :=
      if int8 then predictor.map (imageOf kPredictorDimensions) else m.predictorLayersInt8 }

/-- A required tensor that is missing is what makes a model unsound. -/
theorem not_sound_of_fails {required : Required} (hmem : required ∈ requiredTensors)
    (h : Fails m₀ fault required) : ¬ m₀.Sound fault :=
  fun hsound => h ⟨hsound.present required hmem, hsound.calls⟩

/-- An error of the lookups: something is missing or fails, and weights have changed only behind
the first layer. -/
def Broken (m₀ : TalkerModel) (fault : Option (FinalizePoint × String)) (m : TalkerModel) : Prop :=
  (m.weights = m₀.weights ∨ m₀.Entered fault) ∧ ¬ m₀.Sound fault

/-- The lookups of the talker: an error before the first layer is complete changes no weights. -/
theorem loadTalker_spec :
    Triple (fun m => m.weights = m₀.weights) (loadTalker fault)
      (fun _ m => m₀.Entered fault ∧ ∃ ws,
        m.weights = { m₀ with talkerLayers := m₀.talkerLayers ++ ws }.weights ∧
          m₀.LayersAt talkerStem kTalkerDimensions kTalkerLayers ws)
      (fun _ => Broken m₀ fault) := by
  have hstate : SameTensors (fun m => m.weights = m₀.weights) m₀ := fun m hm =>
    tensors_of_weights hm
  refine Triple.bind (Triple.weaken (loadMembers_spec hstate (fun _ _ hm => hm) _)
    (fun _ hm => hm) (fun _ _ hm => hm) ?_) fun _ => Triple.fact fun hmembers => ?_
  · rintro _ m ⟨hm, required, hrequired, hfails⟩
    refine ⟨.inl hm, not_sound_of_fails ?_ hfails⟩
    unfold requiredTensors
    simp only [List.mem_append]
    exact .inl (.inl (.inl (.inl hrequired)))
  refine Triple.bind (Triple.weaken (reach_spec _) (fun _ hm => hm) (fun _ _ hm => hm)
    fun _ m hm => ⟨.inl hm.1, fun hsound => hm.2 hsound.calls⟩) fun _ =>
      Triple.fact fun hreserve => ?_
  -- from here on the first layer decides
  have hentered : (∀ required ∈ layerTensors (talkerStem 0) kTalkerDimensions,
      Holds m₀ fault required) → m₀.Entered fault := by
    intro hlayer
    have hfirst : ∀ required ∈ firstTensors, Holds m₀ fault required := by
      intro required hrequired
      rcases List.mem_append.mp hrequired with hrequired | hrequired
      · exact hmembers required hrequired
      · exact hlayer required hrequired
    exact ⟨fun r hr => (hfirst r hr).1, fun r hr => (hfirst r hr).2, hreserve⟩
  have htarget : ({ m₀ with talkerLayers := m₀.talkerLayers ++ [] } : TalkerModel) = m₀ := by
    rw [List.append_nil]
  have hloop := @pushLayers_spec fault m₀ talkerStem kTalkerDimensions kTalkerLayers
    (fun ws => { m₀ with talkerLayers := m₀.talkerLayers ++ ws }) (fun _ => rfl)
    (fun ws m => { m with talkerLayers := m.talkerLayers ++ ws }) fun ws w m hm => by
      have hlayers : m.talkerLayers = m₀.talkerLayers ++ ws := talkerLayers_of_weights hm
      have hstep := congrArg (fun n : TalkerModel =>
        { n with talkerLayers := n.talkerLayers ++ [w] }) hm
      rw [← List.append_assoc]
      exact hstep
  refine Triple.weaken hloop (fun m hm => by rwa [htarget]) ?_ ?_
  · rintro _ m ⟨ws, hm, hlayers, hholds⟩
    exact ⟨hentered (hholds 0 (by decide)), ws, hm, hlayers⟩
  · rintro _ m ⟨hchanged, layer, hlayer, required, hrequired, hfails⟩
    refine ⟨?_, not_sound_of_fails ?_ hfails⟩
    · rcases hchanged with hm | hfirst
      · exact .inl (htarget ▸ hm)
      · exact .inr (hentered hfirst)
    · unfold requiredTensors
      simp only [List.mem_append, List.mem_flatMap]
      exact .inl (.inl (.inl (.inr ⟨layer, List.mem_range.mpr hlayer, hrequired⟩)))

/-- The lookups of the predictor; its layers follow those of the talker. -/
theorem loadPredictor_spec {base : TalkerModel} (hbase : base.tensors = m₀.tensors) :
    Triple (fun m => m.weights = base.weights) (loadPredictor fault)
      (fun _ m => ∃ ps, m.weights = { base with predictorLayers := base.predictorLayers ++ ps }.weights ∧
        m₀.LayersAt predictorStem kPredictorDimensions kPredictorLayers ps)
      (fun _ _ => ¬ m₀.Sound fault) := by
  have hstate : SameTensors (fun m => m.weights = base.weights) m₀ := fun m hm =>
    (tensors_of_weights hm).trans hbase
  refine Triple.bind (Triple.weaken (loadMembers_spec hstate (fun _ _ hm => hm) _)
    (fun _ hm => hm) (fun _ _ hm => hm.1) ?_) fun _ => ?_
  · rintro _ m ⟨-, required, hrequired, hfails⟩
    refine not_sound_of_fails ?_ hfails
    unfold requiredTensors
    simp only [List.mem_append]
    exact .inl (.inl (.inr hrequired))
  refine Triple.bind (Triple.weaken (reach_spec _) (fun _ hm => hm) (fun _ _ hm => hm.1)
    fun _ m hm hsound => hm.2 hsound.calls) fun _ => ?_
  have hloop := @pushLayers_spec fault m₀ predictorStem kPredictorDimensions kPredictorLayers
    (fun ws => { base with predictorLayers := base.predictorLayers ++ ws }) (fun _ => hbase)
    (fun ws m => { m with predictorLayers := m.predictorLayers ++ ws }) fun ws w m hm => by
      have hstep := congrArg (fun n : TalkerModel =>
        { n with predictorLayers := n.predictorLayers ++ [w] }) hm
      rw [← List.append_assoc]
      exact hstep
  refine Triple.bind (Triple.weaken hloop (fun m hm => by rwa [List.append_nil])
    (fun _ m ⟨ps, hm, hps, _⟩ => (⟨ps, hm, hps⟩ : ∃ ps,
      m.weights = { base with predictorLayers := base.predictorLayers ++ ps }.weights ∧
        m₀.LayersAt predictorStem kPredictorDimensions kPredictorLayers ps)) ?_) fun _ => ?_
  · rintro _ m ⟨-, layer, hlayer, required, hrequired, hfails⟩
    refine not_sound_of_fails ?_ hfails
    unfold requiredTensors
    simp only [List.mem_append, List.mem_flatMap]
    exact .inl (.inr ⟨layer, List.mem_range.mpr hlayer, hrequired⟩)
  -- the codebooks only set members
  refine Triple.forM (I := fun _ (m : TalkerModel) => ∃ ps,
    m.weights = { base with predictorLayers := base.predictorLayers ++ ps }.weights ∧
      m₀.LayersAt predictorStem kPredictorDimensions kPredictorLayers ps)
    fun done group rest hsplit => ?_
  refine Triple.weaken (loadMembers_spec (fun m ⟨_, hm, _⟩ =>
    (tensors_of_weights hm).trans hbase) (fun _ _ hm => hm) _)
    (fun _ hm => hm) (fun _ _ hm => hm.1) ?_
  rintro _ m ⟨-, required, hrequired, hfails⟩
  refine not_sound_of_fails ?_ hfails
  unfold requiredTensors
  simp only [List.mem_append, List.mem_flatMap]
  exact .inr ⟨group, hsplit ▸ by simp, hrequired⟩

/-- **`finalize`**: the model with every layer appended once, or an error, for which there is a
reason and which changes no weights unless the first layer had been appended. -/
theorem finalize_spec (int8 : Bool) :
    Triple (fun m => m = m₀) (finalize fault int8)
      (fun memory m => m₀.finalized = false ∧ memory.sharedWeightBytes = m₀.weightBytes ∧
        ∃ ws ps, WeightsOf (loaded m₀ int8 (m₀.talkerLayers ++ ws) (m₀.predictorLayers ++ ps)) m ∧
          m₀.LayersAt talkerStem kTalkerDimensions kTalkerLayers ws ∧
          m₀.LayersAt predictorStem kPredictorDimensions kPredictorLayers ps)
      (fun _ m => (m.weights = m₀.weights ∨ m₀.finalized = false ∧ m₀.tensors.length = 404 ∧
        m₀.Entered fault) ∧ (m₀.finalized = false → m₀.tensors.length = 404 →
          ¬ m₀.Sound fault)) := by
  refine Triple.bind (Triple.get (Q := fun s m => m = m₀ ∧ s = m₀) fun m hm => ⟨hm, hm⟩)
    fun s => Triple.fact fun hs => ?_
  subst hs
  refine Triple.bind (Triple.throwIf (Q := fun _ m => m = s ∧ s.finalized = false)
    (fun m hm hfinal => ⟨.inl (congrArg weights hm), fun hnot => by simp [hfinal] at hnot⟩)
    fun m hm hfinal => ⟨hm, by simpa using hfinal⟩)
    fun _ => Triple.fact fun hfinal => ?_
  refine Triple.bind (Triple.throwIf (Q := fun _ m => m = s ∧ s.tensors.length = 404)
    (fun m hm hne => ⟨.inl (congrArg weights hm), fun _ hcount => absurd hcount hne⟩)
    fun m hm hcount => ⟨hm, not_not.mp hcount⟩)
    fun _ => Triple.fact fun hcount => ?_
  refine Triple.bind (Triple.weaken (@loadTalker_spec fault s)
    (fun m hm => congrArg weights hm) (fun _ _ hm => And.symm hm) ?_)
    fun _ => Triple.fact fun hentered => ?_
  · rintro _ m ⟨hm | hm, hsound⟩
    · exact ⟨.inl hm, fun _ _ => hsound⟩
    · exact ⟨.inr ⟨hfinal, hcount, hm⟩, fun _ _ => hsound⟩
  -- an error from here on leaves the first layer behind
  have hbroken : ∀ m : TalkerModel, ¬ s.Sound fault → (m.weights = s.weights ∨
      s.finalized = false ∧ s.tensors.length = 404 ∧ s.Entered fault) ∧
        (s.finalized = false → s.tensors.length = 404 → ¬ s.Sound fault) :=
    fun m hsound => ⟨.inr ⟨hfinal, hcount, hentered⟩, fun _ _ => hsound⟩
  refine Triple.any fun ws => Triple.fact fun hws => ?_
  refine Triple.bind (Triple.weaken (@loadPredictor_spec fault s
    { s with talkerLayers := s.talkerLayers ++ ws } rfl)
    (fun _ hm => hm) (fun _ _ hm => hm) fun _ m hm => hbroken m hm) fun _ => ?_
  refine Triple.any fun ps => Triple.fact fun hps => ?_
  refine Triple.bind (Q := fun _ => WeightsOf { s with
    talkerLayers := s.talkerLayers ++ ws, predictorLayers := s.predictorLayers ++ ps })
    (Triple.modify fun m hm => ⟨s.int8Storage, hm⟩) fun _ => ?_
  -- the images of the mode
  refine Triple.bind (Q := fun _ => WeightsOf { loaded s int8 (s.talkerLayers ++ ws)
    (s.predictorLayers ++ ps) with finalized := s.finalized }) ?_ fun _ => ?_
  · cases int8 with
    | false => exact Triple.pure fun m hm => hm
    | true =>
      exact Triple.weaken (quantizeModel_spec _) (fun _ hm => hm) (fun _ _ hm => hm)
        fun _ m hm => hbroken m fun hsound => hm hsound.calls
  refine Triple.bind (Triple.weaken (reach_spec _) (fun _ hm => hm) (fun _ _ hm => hm.1)
    fun _ m hm => hbroken m fun hsound => hm.2 hsound.calls) fun _ => ?_
  refine Triple.bind (Q := fun _ => WeightsOf (loaded s int8 (s.talkerLayers ++ ws)
    (s.predictorLayers ++ ps))) (Triple.modify ?_) fun _ => ?_
  · rintro m ⟨stored, hm⟩
    exact ⟨stored, congrArg (fun n : TalkerModel => { n with finalized := true }) hm⟩
  refine Triple.bind (Triple.get (Q := fun n m => n = m ∧ WeightsOf (loaded s int8
    (s.talkerLayers ++ ws) (s.predictorLayers ++ ps)) m) fun m hm => ⟨rfl, hm⟩) fun n => ?_
  refine Triple.pure ?_
  rintro m ⟨rfl, stored, hm⟩
  have hbytes := congrArg TalkerModel.weightBytes hm
  exact ⟨hfinal, hbytes, ws, ps, ⟨stored, hm⟩, hws, hps⟩

end

/-! ## Models with the same weights

No call reads the members that another call has left. -/

/-- The two models differ in their members at most. -/
def SameWeights (m n : TalkerModel) : Prop := m.weights = n.weights

/-- A change whose weights do not depend on the members. -/
theorem SameWeights.congr {m n : TalkerModel} (h : SameWeights m n) (f : TalkerModel → TalkerModel)
    (hf : ∀ m : TalkerModel, (f m).weights = (f m.weights).weights) : SameWeights (f m) (f n) := by
  unfold SameWeights
  rw [hf m, hf n, h]

section
variable {fault : Option (FinalizePoint × String)}

/-- Both reach the point or neither does. -/
theorem related_reach (point : FinalizePoint) :
    Related SameWeights Eq (reach fault point) (reach fault point) := by
  unfold reach
  cases fault with
  | none => exact Related.pure rfl
  | some f => exact Related.throwIf Iff.rfl

/-- A lookup finds the same in both. -/
theorem related_require (required : Required) :
    Related SameWeights Eq (require fault required) (require fault required) := by
  refine Related.bind (related_reach _) fun _ _ _ => Related.bind Related.get fun m n hmn => ?_
  rw [found_congr (tensors_of_weights hmn)]
  cases n.found required with
  | error message => exact Related.throw
  | ok address => exact Related.pure rfl

/-- The members may be written differently. -/
theorem related_onMembers (f g : Members → Members) :
    @Related String _ _ _ SameWeights Eq (modify (onMembers f)) (modify (onMembers g)) :=
  Related.modify fun _ _ h => h

/-- Loads of members, -/
theorem related_loadMembers (members : List (Required × (Address → Members → Members))) :
    Related SameWeights Eq (loadMembers fault members) (loadMembers fault members) := by
  refine Related.forM fun member => Related.bind (related_require _) fun a b hab => ?_
  exact related_onMembers _ _

/-- of a layer, -/
theorem related_loadLayer (stem : String) (dimensions : ModelDimensions) :
    Related SameWeights Eq (loadLayer fault stem dimensions) (loadLayer fault stem dimensions) := by
  refine Related.bind (Related.mapM fun required => related_require required) fun a b hab => ?_
  rw [hab]
  exact Related.pure rfl

/-- of the talker -/
theorem related_loadTalker : Related SameWeights Eq (loadTalker fault) (loadTalker fault) := by
  refine Related.bind (related_loadMembers _) fun _ _ _ => ?_
  refine Related.bind (related_reach _) fun _ _ _ => Related.forM fun layer => ?_
  refine Related.bind (related_loadLayer _ _) fun w w' hw => Related.modify fun m n h => ?_
  rw [hw]
  exact h.congr (fun m => { m with talkerLayers := m.talkerLayers ++ w'.toList }) fun _ => rfl

/-- and of the predictor go the same way. -/
theorem related_loadPredictor :
    Related SameWeights Eq (loadPredictor fault) (loadPredictor fault) := by
  refine Related.bind (related_loadMembers _) fun _ _ _ => ?_
  refine Related.bind (related_reach _) fun _ _ _ => Related.bind (Related.forM fun layer => ?_)
    fun _ _ _ => Related.forM fun group => related_loadMembers _
  refine Related.bind (related_loadLayer _ _) fun w w' hw => Related.modify fun m n h => ?_
  rw [hw]
  exact h.congr (fun m => { m with predictorLayers := m.predictorLayers ++ w'.toList }) fun _ => rfl

theorem related_storeInt8 (bytes : Nat) :
    Related SameWeights Eq (storeInt8 fault bytes) (storeInt8 fault bytes) := by
  refine Related.bind Related.get fun m n hmn => ?_
  have hstored : m.int8Storage = n.int8Storage := by
    have heq := congrArg TalkerModel.int8Storage hmn
    exact heq
  rw [hstored]
  refine Related.bind (related_reach _) fun _ _ _ => Related.modify fun m n h => ?_
  exact h.congr (fun m => { m with int8Storage := m.int8Storage ++ [bytes] }) fun _ => rfl

/-- Images of two weights: the control flow is the same. -/
theorem related_quantize (weight weight' : Address) (inFeatures outFeatures : Nat) :
    Related SameWeights (fun a b => weight = weight' → a = b)
      (quantize fault weight inFeatures outFeatures)
      (quantize fault weight' inFeatures outFeatures) := by
  refine Related.bind (related_storeInt8 _) fun _ _ _ => ?_
  refine Related.bind (related_storeInt8 _) fun _ _ _ => Related.pure fun h => ?_
  rw [h]

theorem related_quantizeLayer (dimensions : ModelDimensions) (layer : DecoderWeights) :
    Related SameWeights Eq (quantizeLayer fault dimensions layer)
      (quantizeLayer fault dimensions layer) := by
  refine Related.bind (related_storeInt8 _) fun _ _ _ => ?_
  refine Related.bind (related_storeInt8 _) fun _ _ _ => ?_
  refine Related.bind (related_quantize _ _ _ _) fun q q' hq => ?_
  refine Related.bind (related_quantize _ _ _ _) fun k k' hk => ?_
  refine Related.bind (related_quantize _ _ _ _) fun v v' hv => ?_
  refine Related.bind (related_quantize _ _ _ _) fun o o' ho => ?_
  refine Related.bind (related_quantize _ _ _ _) fun down down' hdown => ?_
  rw [hq rfl, hk rfl, hv rfl, ho rfl, hdown rfl]
  exact Related.pure rfl

theorem related_quantizeModel :
    Related SameWeights Eq (quantizeModel fault) (quantizeModel fault) := by
  refine Related.bind (V := Eq) ?_ fun _ _ _ => ?_
  · -- the images of the members are members themselves
    refine Related.bind Related.get fun m n _ => ?_
    refine Related.bind (related_quantize _ _ _ _) fun _ _ _ => ?_
    refine Related.bind (related_onMembers _ _) fun _ _ _ => ?_
    refine Related.bind (related_quantize _ _ _ _) fun _ _ _ => ?_
    refine Related.bind (related_onMembers _ _) fun _ _ _ => ?_
    refine Related.bind (related_quantize _ _ _ _) fun _ _ _ => ?_
    refine Related.bind (related_onMembers _ _) fun _ _ _ => ?_
    refine Related.bind (related_quantize _ _ _ _) fun _ _ _ => ?_
    refine Related.bind (related_onMembers _ _) fun _ _ _ => Related.forM fun group => ?_
    exact Related.bind (related_quantize _ _ _ _) fun _ _ _ => related_onMembers _ _
  refine Related.bind Related.get fun m n hmn => ?_
  rw [talkerLayers_of_weights hmn]
  refine Related.bind (Related.mapM fun layer => related_quantizeLayer _ layer) fun a b hab => ?_
  subst hab
  refine Related.bind (Related.modify fun m n h =>
    h.congr (fun m => { m with talkerLayersInt8 := a }) fun _ => rfl) fun _ _ _ => ?_
  refine Related.bind Related.get fun m n hmn => ?_
  rw [predictorLayers_of_weights hmn]
  refine Related.bind (Related.mapM fun layer => related_quantizeLayer _ layer) fun a b hab => ?_
  subst hab
  exact Related.modify fun m n h =>
    h.congr (fun m => { m with predictorLayersInt8 := a }) fun _ => rfl

theorem related_finalize (int8 : Bool) :
    Related SameWeights Eq (finalize fault int8) (finalize fault int8) := by
  refine Related.bind Related.get fun m n hmn => ?_
  have hfinal : m.finalized = n.finalized := by
    have heq := congrArg TalkerModel.finalized hmn
    exact heq
  rw [tensors_of_weights hmn, hfinal]
  refine Related.bind (Related.throwIf Iff.rfl) fun _ _ _ => ?_
  refine Related.bind (Related.throwIf Iff.rfl) fun _ _ _ => ?_
  refine Related.bind related_loadTalker fun _ _ _ => ?_
  refine Related.bind related_loadPredictor fun _ _ _ => ?_
  refine Related.bind (related_onMembers _ _) fun _ _ _ => ?_
  refine Related.bind (V := Eq) ?_ fun _ _ _ => ?_
  · cases int8 with
    | false => exact Related.pure rfl
    | true => exact related_quantizeModel
  refine Related.bind (related_reach _) fun _ _ _ => ?_
  refine Related.bind (Related.modify fun m n h =>
    h.congr (fun m => { m with finalized := true }) fun _ => rfl) fun _ _ _ => ?_
  refine Related.bind Related.get fun m n hmn => Related.pure ?_
  have hbytes : m.weightBytes = n.weightBytes := by
    have heq := congrArg TalkerModel.weightBytes hmn
    exact heq
  have hdevice : m.deviceIndex = n.deviceIndex := by
    have heq := congrArg TalkerModel.deviceIndex hmn
    exact heq
  rw [tensors_of_weights hmn, hbytes, hdevice]

theorem related_uploadTensor (upload : Upload) (outcome : UploadOutcome) :
    Related SameWeights Eq (uploadTensor upload outcome) (uploadTensor upload outcome) := by
  refine Related.bind Related.get fun m n hmn => ?_
  have hchecks : m.uploadChecks upload = n.uploadChecks upload := by
    have hfinal := congrArg TalkerModel.finalized hmn
    have htensors := tensors_of_weights hmn
    unfold uploadChecks
    rw [htensors, show m.finalized = n.finalized from hfinal]
  rw [hchecks]
  have hcount : @Related String _ _ _ SameWeights Eq
      (modify fun m => { m with weightBytes := m.weightBytes + upload.byteSize })
      (modify fun m => { m with weightBytes := m.weightBytes + upload.byteSize }) :=
    Related.modify fun m n h =>
      h.congr (fun m => { m with weightBytes := m.weightBytes + upload.byteSize }) fun _ => rfl
  cases n.uploadChecks upload with
  | error message => exact Related.throw
  | ok accepted =>
    obtain ⟨name, shape⟩ := accepted
    cases outcome with
    | hostFailed message => exact Related.throw
    | mallocFailed message => exact Related.throw
    | copyFailed message => exact Related.throw
    | insertFailed message => exact Related.bind hcount fun _ _ _ => Related.throw
    | uploaded address =>
      refine Related.bind hcount fun _ _ _ => Related.modify fun m n h => ?_
      exact h.congr (fun m => { m with tensors :=
        (name, { address := address, bytes := upload.byteSize, shape := shape }) :: m.tensors })
        fun _ => rfl

end

theorem seen_call {m n : TalkerModel} (h : SameWeights m n) (call : ModelCall) :
    (m.call call).map seen = (n.call call).map seen := by
  cases call with
  | upload upload outcome =>
    -- the allocator sees the same ranges in both models
    have hreturn : m.CanReturn upload.byteSize outcome ↔ n.CanReturn upload.byteSize outcome := by
      unfold CanReturn ranges
      rw [tensors_of_weights h]
    have hpost := related_uploadTensor upload outcome m n h
    simp only [TalkerModel.call]
    by_cases hcan : m.CanReturn upload.byteSize outcome
    · rw [if_pos hcan, if_pos (hreturn.mp hcan)]
      cases hm : uploadTensor upload outcome m with
      | ok a m' =>
        cases hn : uploadTensor upload outcome n with
        | ok b n' =>
          rw [hm, hn] at hpost
          exact congrArg (fun w => some (ModelAnswer.uploaded, w)) hpost.2
        | error e n' =>
          rw [hm, hn] at hpost
          exact hpost.elim
      | error e m' =>
        cases hn : uploadTensor upload outcome n with
        | ok b n' =>
          rw [hm, hn] at hpost
          exact hpost.elim
        | error e' n' =>
          rw [hm, hn] at hpost
          obtain ⟨rfl, hw⟩ := hpost
          exact congrArg (fun w => some (ModelAnswer.failed e, w)) hw
    · rw [if_neg hcan, if_neg fun hn => hcan (hreturn.mpr hn)]
  | finalize int8 fault =>
    have hpost := @related_finalize fault int8 m n h
    simp only [TalkerModel.call]
    cases hm : finalize fault int8 m with
    | ok a m' =>
      cases hn : finalize fault int8 n with
      | ok b n' =>
        rw [hm, hn] at hpost
        obtain ⟨rfl, hw⟩ := hpost
        exact congrArg (fun w => some (ModelAnswer.finalized a, w)) hw
      | error e n' =>
        rw [hm, hn] at hpost
        exact hpost.elim
    | error e m' =>
      cases hn : finalize fault int8 n with
      | ok b n' =>
        rw [hm, hn] at hpost
        exact hpost.elim
      | error e' n' =>
        rw [hm, hn] at hpost
        obtain ⟨rfl, hw⟩ := hpost
        exact congrArg (fun w => some (ModelAnswer.failed e, w)) hw

/-- Every continuation looks the same from two models with the same weights. -/
theorem seen_run {m n : TalkerModel} (h : SameWeights m n) (calls : List ModelCall)
    (call : ModelCall) :
    ((run step m calls).bind fun k => (k.call call).map seen) =
      (run step n calls).bind fun k => (k.call call).map seen := by
  induction calls generalizing m n with
  | nil => exact seen_call h call
  | cons c calls ih =>
    have hc := seen_call h c
    cases hm : m.call c with
    | none =>
      rw [hm] at hc
      have hn := Option.map_eq_none_iff.mp hc.symm
      simp [run, step, hm, hn]
    | some r =>
      rw [hm] at hc
      obtain ⟨r', hn, hr⟩ := Option.map_eq_some_iff.mp hc.symm
      have hw : SameWeights r.2 r'.2 := (congrArg Prod.snd hr).symm
      simp only [run, step, hm, hn, Option.map_some, Option.bind_some]
      exact ih hw

/-! ## Runs -/

/-- What holds of a model as long as the calls are steady. -/
structure ModelInv (m : TalkerModel) : Prop where
  bytes : m.weightBytes.toNat = m.totalBytes
  apart : m.ranges.Pairwise Apart
  space : ∀ held ∈ m.ranges, 1 ≤ held.1 ∧ held.1 + held.2 ≤ 2 ^ 64
  empty : m.finalized = false → m.talkerLayers = [] ∧ m.predictorLayers = [] ∧
    m.talkerLayersInt8 = [] ∧ m.predictorLayersInt8 = []

theorem modelInv_new (deviceIndex : Int32) : ModelInv (new deviceIndex) where
  bytes := rfl
  apart := List.Pairwise.nil
  space := nofun
  empty _ := ⟨rfl, rfl, rfl, rfl⟩

/-- The invariant speaks of the weights. -/
theorem ModelInv.congr {m n : TalkerModel} (h : ModelInv n) (hw : m.weights = n.weights) :
    ModelInv m := by
  have hn : ModelInv n.weights := ⟨h.bytes, h.apart, h.space, h.empty⟩
  rw [← hw] at hn
  exact ⟨hn.bytes, hn.apart, hn.space, hn.empty⟩

/-- The tensors fit into the address space, and so does their total into 64 bits. -/
theorem totalBytes_lt {m : TalkerModel} (hapart : m.ranges.Pairwise Apart)
    (hspace : ∀ held ∈ m.ranges, 1 ≤ held.1 ∧ held.1 + held.2 ≤ 2 ^ 64) :
    m.totalBytes < 2 ^ 64 := by
  have hsum := sum_le_of_apart hapart hspace
  have htotal : (m.ranges.map Prod.snd).sum = m.totalBytes := by
    unfold ranges totalBytes
    rw [List.map_map]
    rfl
  omega

/-- `upload_tensor` adds one tensor, or fails and changes nothing unless the insertion failed. -/
theorem uploadTensor_spec {m : TalkerModel} {upload : Upload} {outcome : UploadOutcome} :
    Triple (fun n => n = m) (uploadTensor upload outcome)
      (fun _ n => ∃ name shape address, m.uploadChecks upload = .ok (name, shape) ∧
        outcome = .uploaded address ∧ n = { m with
          weightBytes := m.weightBytes + upload.byteSize
          tensors := (name, { address := address, bytes := upload.byteSize, shape := shape })
            :: m.tensors })
      (fun _ n => n = m ∨ ∃ accepted message, m.uploadChecks upload = .ok accepted ∧
        outcome = .insertFailed message) := by
  refine Triple.bind (Triple.get (Q := fun s n => n = m ∧ s = m) fun n hn => ⟨hn, hn⟩)
    fun s => Triple.fact fun hs => ?_
  subst hs
  cases hchecks : s.uploadChecks upload with
  | error message => exact Triple.throw fun n hn => .inl hn
  | ok accepted =>
    obtain ⟨name, shape⟩ := accepted
    cases outcome with
    | hostFailed message => exact Triple.throw fun n hn => .inl hn
    | mallocFailed message => exact Triple.throw fun n hn => .inl hn
    | copyFailed message => exact Triple.throw fun n hn => .inl hn
    | insertFailed message =>
      exact Triple.bind (Q := fun _ _ => True) (Triple.modify fun _ _ => trivial) fun _ =>
        Triple.throw fun _ _ => .inr ⟨(name, shape), message, rfl, rfl⟩
    | uploaded address =>
      refine Triple.bind (Q := fun _ n =>
        n = { s with weightBytes := s.weightBytes + upload.byteSize }) (Triple.modify ?_)
        fun _ => Triple.modify ?_
      · rintro n rfl
        rfl
      · rintro n rfl
        exact ⟨name, shape, address, rfl, rfl, rfl⟩

theorem modelInv_uploaded {m : TalkerModel} (hm : ModelInv m) {bytes : UInt64} {address : Address}
    (hcan : m.CanReturn bytes (.uploaded address)) {name : String} {shape : List UInt64} :
    ModelInv { m with
      weightBytes := m.weightBytes + bytes
      tensors := (name, { address := address, bytes := bytes, shape := shape }) :: m.tensors } := by
  obtain ⟨hpos, hend, happart⟩ := hcan
  have hpairs : (range address bytes :: m.ranges).Pairwise Apart :=
    List.pairwise_cons.mpr ⟨happart, hm.apart⟩
  have hinside : ∀ held ∈ range address bytes :: m.ranges, 1 ≤ held.1 ∧ held.1 + held.2 ≤ 2 ^ 64 :=
    List.forall_mem_cons.mpr ⟨⟨hpos, hend⟩, hm.space⟩
  have hlt : bytes.toNat + m.totalBytes < 2 ^ 64 := @totalBytes_lt { m with
    tensors := (name, { address := address, bytes := bytes, shape := shape }) :: m.tensors }
    hpairs hinside
  exact {
    bytes := by
      show (m.weightBytes + bytes).toNat = bytes.toNat + m.totalBytes
      rw [UInt64.toNat_add, hm.bytes, Nat.mod_eq_of_lt (by omega), Nat.add_comm]
    apart := hpairs
    space := hinside
    empty := hm.empty }

theorem loaded_whole {m m' : TalkerModel} (hm : ModelInv m) {int8 : Bool}
    (hfinal : m.finalized = false) {ws ps : List DecoderWeights}
    (hloaded : WeightsOf (loaded m int8 (m.talkerLayers ++ ws) (m.predictorLayers ++ ps)) m')
    (hws : m.LayersAt talkerStem kTalkerDimensions kTalkerLayers ws)
    (hps : m.LayersAt predictorStem kPredictorDimensions kPredictorLayers ps) :
    m'.Whole int8 ∧ ModelInv m' := by
  obtain ⟨htalker, hpredictor, htalker8, hpredictor8⟩ := hm.empty hfinal
  obtain ⟨stored, hw⟩ := hloaded
  rw [htalker, hpredictor, List.nil_append, List.nil_append] at hw
  have htensors : m'.tensors = m.tensors := (tensors_of_weights hw :)
  have hlist : m'.talkerLayers = ws := (talkerLayers_of_weights hw :)
  have hlist' : m'.predictorLayers = ps := (predictorLayers_of_weights hw :)
  have himages : m'.talkerLayersInt8 = if int8 then ws.map (imageOf kTalkerDimensions) else [] := by
    have heq := congrArg TalkerModel.talkerLayersInt8 hw
    rw [← htalker8]
    exact heq
  have himages' : m'.predictorLayersInt8 =
      if int8 then ps.map (imageOf kPredictorDimensions) else [] := by
    have heq := congrArg TalkerModel.predictorLayersInt8 hw
    rw [← hpredictor8]
    exact heq
  have hmove : ∀ {stem dimensions layers ws}, m.LayersAt stem dimensions layers ws →
      m'.LayersAt stem dimensions layers ws := fun h => h.imp fun _ _ hlayer =>
    hlayer.imp fun required _ hfound => (found_congr htensors required).trans hfound
  refine ⟨⟨hlist ▸ hmove hws, hlist' ▸ hmove hps, ?_, ?_⟩, ?_⟩
  · rw [himages, hlist]
  · rw [himages', hlist']
  · refine ModelInv.congr ?_ hw
    exact ⟨hm.bytes, hm.apart, hm.space, nofun⟩

/-- **One steady call**: it keeps the invariant, and it is all or nothing. -/
theorem atomic_call {m m' : TalkerModel} (hm : ModelInv m) {call : ModelCall}
    (hsteady : m.Steady call) {answer : ModelAnswer} (h : m.call call = some (answer, m')) :
    ModelInv m' ∧ (∀ memory, answer = .finalized memory → ∃ int8 fault,
      call = .finalize int8 fault ∧ m'.Whole int8 ∧
        memory.sharedWeightBytes.toNat = m'.totalBytes) ∧
      ∀ message, answer = .failed message → m'.weights = m.weights := by
  cases call with
  | upload upload outcome =>
    simp only [TalkerModel.call] at h
    split at h
    · rename_i hcan
      split at h
      · rename_i u n hupload
        cases h
        obtain ⟨name, shape, address, hchecks, rfl, rfl⟩ := uploadTensor_spec.ok rfl hupload
        refine ⟨modelInv_uploaded hm hcan, ?_, ?_⟩ <;> intro _ heq <;> cases heq
      · rename_i message n hupload
        cases h
        -- a failed upload changes nothing, unless its insertion failed, which a steady call
        -- excludes
        rcases uploadTensor_spec.error rfl hupload with rfl | ⟨accepted, text, hchecks, heq⟩
        · refine ⟨hm, fun _ heq => ?_, fun _ _ => rfl⟩
          cases heq
        · exact absurd heq (hsteady accepted text hchecks)
    · cases h
  | finalize int8 fault =>
    simp only [TalkerModel.call] at h
    split at h
    · rename_i memory n hfinalize
      cases h
      obtain ⟨hfinal, hbytes, ws, ps, hloaded, hws, hps⟩ := (finalize_spec int8).ok rfl hfinalize
      obtain ⟨hwhole, hm'⟩ := loaded_whole hm hfinal hloaded hws hps
      obtain ⟨stored, hw⟩ := hloaded
      have htotal : m'.totalBytes = m.totalBytes := by
        have htensors : m'.tensors = m.tensors := (tensors_of_weights hw :)
        rw [totalBytes, totalBytes, htensors]
      refine ⟨hm', fun memory' heq => ?_, fun _ heq => ?_⟩
      · cases heq
        refine ⟨int8, fault, rfl, hwhole, ?_⟩
        rw [hbytes, htotal, hm.bytes]
      · cases heq
    · rename_i message n hfinalize
      cases h
      -- a failed finalize changes nothing, unless it failed behind the first layer
      obtain ⟨hw | ⟨hfinal, hcount, hentered⟩, hbroken⟩ := (finalize_spec int8).error rfl hfinalize
      · refine ⟨hm.congr hw, fun _ heq => ?_, fun _ _ => hw⟩
        cases heq
      · exact absurd (hsteady hfinal hcount hentered) (hbroken hfinal hcount)

/-- **`finalize` is atomic** in every run of steady calls, and for every further such call. -/
theorem finalize_atomic {deviceIndex : Int32} {calls : List ModelCall} {m : TalkerModel}
    (hsteady : Along step Steady (new deviceIndex) calls)
    (hrun : run step (new deviceIndex) calls = some m) {call : ModelCall} (hcall : m.Steady call)
    {answer : ModelAnswer} {m' : TalkerModel} (h : m.call call = some (answer, m')) :
    Atomic m call answer m' := by
  have hm : ModelInv m := by
    refine invariant_of_step (fun m call m' hm hcall hstep => ?_) (modelInv_new deviceIndex)
      hsteady hrun
    obtain ⟨⟨answer, m''⟩, h, rfl⟩ := Option.map_eq_some_iff.mp hstep
    exact (atomic_call hm hcall h).1
  obtain ⟨-, hwhole, hkept⟩ := atomic_call hm hcall h
  exact ⟨hwhole, hkept, fun message heq calls call => seen_run (hkept message heq) calls call⟩

/-- A model whose tensors are all there is finalized. -/
theorem finalize_succeeds {m : TalkerModel} {fault : Option (FinalizePoint × String)}
    (hfinal : m.finalized = false) (hcount : m.tensors.length = 404) (hsound : m.Sound fault)
    (int8 : Bool) : ∃ memory m', m.call (.finalize int8 fault) = some (.finalized memory, m') := by
  cases h : finalize fault int8 m with
  | ok memory m' => exact ⟨memory, m', by simp only [TalkerModel.call, h]⟩
  | error message m' =>
    exact absurd hsound (((finalize_spec int8).error rfl h).2 hfinal hcount)

/-! ## Small models and a whole one -/

/-- A tensor of one element. -/
def oneElement : Upload where
  name := some "talker.model.norm.weight"
  data := some 64
  byteSize := 2
  shape := some [1]

/-- The tensor is not inserted, its bytes are counted: a retry counts them again. -/
theorem finalize_not_atomic : ∃ m m' memory,
    (new 0).call (.upload oneElement (.insertFailed "std::bad_alloc")) =
      some (.failed "std::bad_alloc", m) ∧
    m.weights ≠ (new 0).weights ∧ m.tensors = [] ∧
    m.call (.upload oneElement (.uploaded 4096)) = some (.uploaded, m') ∧
    m'.weightBytes = memory ∧ memory.toNat ≠ m'.totalBytes :=
  ⟨_, _, 4, rfl, by decide, rfl, rfl, rfl, by decide⟩

/-- Behind the upload of one tensor a `finalize` finds the others missing and keeps the weights;
behind the uploads of all of them it has every layer and every image. -/
theorem finalize_atomic_checkpoint :
    (∃ m m', run step (new 0) [.upload oneElement (.uploaded 4096)] = some m ∧
      m.call (.finalize true none) =
        some (.failed "expected exactly 404 VoiceDesign tensors, found 1", m') ∧
      m'.weights = m.weights) ∧
    ∃ m memory m', run step (new 0) (uploadsFrom 4096 requiredTensors) = some m ∧
      m.call (.finalize true none) = some (.finalized memory, m') ∧ m'.Whole true ∧
      memory.sharedWeightBytes.toNat = m'.totalBytes := by
  -- an upload that succeeds is steady
  have huploads : ∀ address rest, ∀ call ∈ uploadsFrom address rest, ∀ m : TalkerModel,
      m.Steady call := by
    intro address rest
    induction rest generalizing address with
    | nil => exact nofun
    | cons required rest ih => exact List.forall_mem_cons.mpr ⟨fun _ _ _ _ => nofun, ih _⟩
  constructor
  · have hsteady : Along step Steady (new 0) [.upload oneElement (.uploaded 4096)] :=
      ⟨fun _ _ _ => nofun, fun _ _ => trivial⟩
    have hcall : ∀ m : TalkerModel, m.tensors.length = 1 → m.Steady (.finalize true none) := by
      intro m hone _ hcount
      omega
    exact ⟨_, _, rfl, rfl, (finalize_atomic hsteady rfl (hcall _ rfl) rfl).kept _ rfl⟩
  · obtain ⟨m, hrun, hfinal, hcount, -, hfound⟩ :=
      @run_uploadsFrom requiredTensors uploadable_requiredTensors nodup_names (new 0) 4096 rfl
        (fun _ _ => rfl) (by decide) sum_requiredTensors (fun _ h => absurd h List.not_mem_nil)
    have hsound : m.Sound none := ⟨hfound, rfl⟩
    have hcall : m.Steady (.finalize true none) := fun _ _ _ => hsound
    rw [length_requiredTensors] at hcount
    obtain ⟨memory, m', h⟩ := finalize_succeeds hfinal hcount hsound true
    have hsteady : Along step Steady (new 0) (uploadsFrom 4096 requiredTensors) :=
      along_of_forall (huploads 4096 requiredTensors) (new 0)
    obtain ⟨int8, fault, heq, hwhole, hbytes⟩ :=
      (finalize_atomic hsteady hrun hcall h).whole memory rfl
    cases heq
    exact ⟨m, memory, m', hrun, h, hwhole, hbytes⟩

/-- The tensors up to the first layer. -/
def firstLayerOnly : TalkerModel :=
  { new 0 with tensors := firstTensors.map fun required =>
      (required.1, { address := 4096, bytes := 2, shape := required.2.map Nat.toUInt64 }) }

set_option maxRecDepth 100000 in
/-- An error in the second layer leaves the first one in the list. -/
example : (match loadTalker none firstLayerOnly with
    | .error _ m => m.talkerLayers.length
    | .ok _ _ => 0) = 1 := by
  decide

end TalkerModel

end Qwen3Tts.Talker
