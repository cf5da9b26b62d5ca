import Qwen3Tts.Lib.Machine
import Qwen3Tts.Talker.Model

/-!
# Talker — the tensors of a checkpoint

The tensors that `finalize` looks up. No two of them have one name (`nodup_names`), so that they can
all be uploaded, and in memory that is free they are all found behind that (`run_uploadsFrom`).
-/

namespace Qwen3Tts.Talker.TalkerModel

open Qwen3Tts.Lib

/-- The tensor is there, in its shape. -/
def Present (m : TalkerModel) (required : Required) : Prop :=
  ∃ address, m.found required = .ok address

/-- Everything that is looked up. -/
def requiredTensors : List Required :=
  talkerMembers.map Prod.fst
    ++ (List.range kTalkerLayers).flatMap (fun i => layerTensors (talkerStem i) kTalkerDimensions)
    ++ predictorMembers.map Prod.fst
    ++ (List.range kPredictorLayers).flatMap (fun i =>
      layerTensors (predictorStem i) kPredictorDimensions)
    ++ (List.range kResidualCodebooks).flatMap fun i => (groupMembers i).map Prod.fst

/-! ## Names -/

/-- The names of a numbered block. -/
def numbered (base : String) (i : Nat) (suffix : String) : String := base ++ toString i ++ suffix

/-- A suffix as the code writes them: the number ends at its dot. -/
def Dotted (suffix : String) : Prop := ∃ rest, suffix.toList = '.' :: rest

/-- The number of a layer has no dot and is its own. -/
theorem digits_ok : ∀ i < 28, '.' ∉ (toString i).toList ∧
    ∀ j < 28, toString i = toString j → i = j := by
  decide

/-- A numbered name gives its number and its suffix back. -/
theorem numbered_inj {base suffix suffix' : String} {i j : Nat} (hi : i < 28) (hj : j < 28)
    (hs : Dotted suffix) (hs' : Dotted suffix')
    (h : numbered base i suffix = numbered base j suffix') : i = j ∧ suffix = suffix' := by
  obtain ⟨rest, hrest⟩ := hs
  obtain ⟨rest', hrest'⟩ := hs'
  have htext := congrArg String.toList h
  simp only [numbered, String.toList_append, List.append_assoc, List.append_cancel_left_eq] at htext
  have hfront : ∀ {n : Nat} {back : List Char}, n < 28 →
      ((toString n).toList ++ '.' :: back).takeWhile (· ≠ '.') = (toString n).toList := by
    intro n back hn
    have hdigit : ∀ c ∈ (toString n).toList, decide (c ≠ '.') = true := fun c hc =>
      decide_eq_true (ne_of_mem_of_not_mem hc (digits_ok n hn).1)
    rw [List.takeWhile_append_of_pos hdigit, List.takeWhile_cons_of_neg (by simp),
      List.append_nil]
  have hdigits := congrArg (List.takeWhile (· ≠ '.')) htext
  rw [hrest, hrest', hfront hi, hfront hj] at hdigits
  have hij := (digits_ok i hi).2 j hj (String.toList_inj.mp hdigits)
  subst hij
  exact ⟨rfl, String.toList_inj.mp (List.append_cancel_left htext)⟩

/-- Names of different numbers or suffixes differ. -/
theorem nodup_numbered {base : String} {n : Nat} (hn : n ≤ 28) {suffixes : List String}
    (hdotted : ∀ suffix ∈ suffixes, Dotted suffix) (hsuffixes : suffixes.Nodup) :
    ((List.range n).flatMap fun i => suffixes.map (numbered base i)).Nodup := by
  rw [List.nodup_flatMap]
  constructor
  · intro i hi
    have hi := Nat.lt_of_lt_of_le (List.mem_range.mp hi) hn
    exact hsuffixes.map_on fun s hs t ht heq =>
      (numbered_inj hi hi (hdotted s hs) (hdotted t ht) heq).2
  · refine List.nodup_range.imp_of_mem fun {i j} hi hj hne => ?_
    have hi := Nat.lt_of_lt_of_le (List.mem_range.mp hi) hn
    have hj := Nat.lt_of_lt_of_le (List.mem_range.mp hj) hn
    intro name hname hname'
    obtain ⟨s, hs, rfl⟩ := List.mem_map.mp hname
    obtain ⟨t, ht, heq⟩ := List.mem_map.mp hname'
    exact hne (numbered_inj hj hi (hdotted t ht) (hdotted s hs) heq).1.symm

/-- Neither text begins with the other. -/
def Forked (base base' : String) : Prop :=
  ¬ base.toList <+: base'.toList ∧ ¬ base'.toList <+: base.toList

instance (base base' : String) : Decidable (Forked base base') :=
  inferInstanceAs (Decidable (_ ∧ _))

/-- No name starts with both. -/
theorem Forked.not_both {base base' name : String} (h : Forked base base')
    (hbase : base.toList <+: name.toList) : ¬ base'.toList <+: name.toList := fun hbase' =>
  (List.prefix_or_prefix_of_prefix hbase hbase').elim h.1 h.2

/-- A numbered name starts with its base, -/
theorem prefix_numbered (base : String) (i : Nat) (suffix : String) :
    base.toList <+: (numbered base i suffix).toList := by
  simp only [numbered, String.toList_append, List.append_assoc]
  exact List.prefix_append _ _

/-- so that bases that part ways give different names. -/
theorem numbered_ne {base base' : String} (h : Forked base base') (i j : Nat)
    (suffix suffix' : String) : numbered base i suffix ≠ numbered base' j suffix' := by
  intro heq
  have hprefix := prefix_numbered base i suffix
  rw [heq] at hprefix
  exact h.not_both hprefix (prefix_numbered base' j suffix')

/-- The bases of the checkpoint's numbered names. -/
def talkerBase : String := "talker.model.layers."
def predictorBase : String := "talker.code_predictor.model.layers."
def embeddingBase : String := "talker.code_predictor.model.codec_embedding."
def headBase : String := "talker.code_predictor.lm_head."

/-- The names without a number. -/
def memberNames : List String :=
  (talkerMembers.map Prod.fst).map Prod.fst ++ (predictorMembers.map Prod.fst).map Prod.fst

/-- The other names are all different and start with none of the bases. -/
theorem memberNames_ok : memberNames.Nodup ∧ ∀ name ∈ memberNames,
    ∀ base ∈ [talkerBase, predictorBase, embeddingBase, headBase],
      ¬ base.toList <+: name.toList := by
  decide

/-- The names of one layer. -/
theorem names_layer (base : String) (i : Nat) (dimensions : ModelDimensions) :
    (layerTensors (base ++ toString i) dimensions).map Prod.fst
      = ((layerTensors "" dimensions).map Prod.fst).map (numbered base i) := by
  simp only [layerTensors, numbered, String.empty_append, List.map_cons, List.map_nil]

/-- The tensors of one layer have different names. -/
theorem suffixes_ok (dimensions : ModelDimensions) :
    (∀ suffix ∈ (layerTensors "" dimensions).map Prod.fst, Dotted suffix) ∧
      ((layerTensors "" dimensions).map Prod.fst).Nodup := by
  constructor
  · simp only [layerTensors, String.empty_append, List.map_cons, List.map_nil, List.forall_mem_cons]
    exact ⟨⟨_, rfl⟩, ⟨_, rfl⟩, ⟨_, rfl⟩, ⟨_, rfl⟩, ⟨_, rfl⟩, ⟨_, rfl⟩, ⟨_, rfl⟩, ⟨_, rfl⟩, ⟨_, rfl⟩,
      ⟨_, rfl⟩, ⟨_, rfl⟩, nofun⟩
  · simp only [layerTensors, String.empty_append, List.map_cons, List.map_nil]
    decide

/-- The layers of a decoder. -/
theorem nodup_layers {base : String} {layers : Nat} (hlayers : layers ≤ 28)
    (dimensions : ModelDimensions) :
    (((List.range layers).flatMap fun i => layerTensors (base ++ toString i) dimensions).map
      Prod.fst).Nodup := by
  simp only [List.map_flatMap, names_layer]
  exact nodup_numbered hlayers (suffixes_ok dimensions).1 (suffixes_ok dimensions).2

/-- Every tensor of a layer starts with the base. -/
theorem prefix_layers {base : String} {layers : Nat} {dimensions : ModelDimensions} {name : String}
    (h : name ∈ ((List.range layers).flatMap fun i =>
      layerTensors (base ++ toString i) dimensions).map Prod.fst) :
    base.toList <+: name.toList := by
  simp only [List.map_flatMap, names_layer, List.mem_flatMap] at h
  obtain ⟨i, -, hname⟩ := h
  obtain ⟨suffix, -, rfl⟩ := List.mem_map.mp hname
  exact prefix_numbered base i suffix

/-- The two tensors of a group of the predictor. -/
def groupNames (group : Nat) : List String :=
  [numbered embeddingBase group ".weight", numbered headBase group ".weight"]

/-- The groups have different names. -/
theorem nodup_groups {groups : Nat} (h : groups ≤ 28) :
    ((List.range groups).flatMap groupNames).Nodup := by
  have hforked : Forked embeddingBase headBase := by decide
  have hdotted : Dotted ".weight" := ⟨_, rfl⟩
  rw [List.nodup_flatMap]
  constructor
  · intro group hgroup
    simpa [groupNames] using numbered_ne hforked _ _ _ _
  · refine List.nodup_range.imp_of_mem fun {i j} hi hj hne name hname hname' => ?_
    have hi := Nat.lt_of_lt_of_le (List.mem_range.mp hi) h
    have hj := Nat.lt_of_lt_of_le (List.mem_range.mp hj) h
    rcases List.mem_pair.mp hname with rfl | rfl <;> rcases List.mem_pair.mp hname' with heq | heq
    · exact hne (numbered_inj hi hj hdotted hdotted heq).1
    · exact numbered_ne hforked _ _ _ _ heq
    · exact numbered_ne hforked _ _ _ _ heq.symm
    · exact hne (numbered_inj hi hj hdotted hdotted heq).1

/-- These are the names of the groups. -/
theorem names_groups (groups : Nat) :
    ((List.range groups).flatMap fun i => (groupMembers i).map Prod.fst).map Prod.fst
      = (List.range groups).flatMap groupNames := by
  rw [List.map_flatMap]
  rfl

/-- Each starts with one of the two bases. -/
theorem prefix_groups {groups : Nat} {name : String}
    (h : name ∈ (List.range groups).flatMap groupNames) :
    embeddingBase.toList <+: name.toList ∨ headBase.toList <+: name.toList := by
  obtain ⟨group, -, hname⟩ := List.mem_flatMap.mp h
  rcases List.mem_pair.mp hname with rfl | rfl
  · exact .inl (prefix_numbered _ _ _)
  · exact .inr (prefix_numbered _ _ _)

/-- The names of the required tensors, those that are not numbered first. -/
theorem names_perm : (requiredTensors.map Prod.fst).Perm (memberNames
    ++ (((List.range kTalkerLayers).flatMap fun i =>
      layerTensors (talkerBase ++ toString i) kTalkerDimensions).map Prod.fst
    ++ (((List.range kPredictorLayers).flatMap fun i =>
      layerTensors (predictorBase ++ toString i) kPredictorDimensions).map Prod.fst
    ++ (List.range kResidualCodebooks).flatMap groupNames))) := by
  rw [requiredTensors, List.map_append, List.map_append, List.map_append, List.map_append,
    names_groups, memberNames]
  simp only [List.append_assoc]
  exact List.Perm.append_left _ (List.perm_append_comm_assoc _ _ _)

/-- **No two required tensors have one name.** -/
theorem nodup_names : (requiredTensors.map Prod.fst).Nodup := by
  have hgroup : ∀ {base : String}, Forked base embeddingBase → Forked base headBase →
      ∀ name, base.toList <+: name.toList →
        name ∉ (List.range kResidualCodebooks).flatMap groupNames := by
    intro base hembedding hhead name h hname
    exact (prefix_groups hname).elim (hembedding.not_both h) (hhead.not_both h)
  have hmember : ∀ {base : String}, base ∈ [talkerBase, predictorBase, embeddingBase, headBase] →
      ∀ name ∈ memberNames, ¬ base.toList <+: name.toList :=
    fun hbase name hname => memberNames_ok.2 name hname _ hbase
  rw [names_perm.nodup_iff, List.nodup_append', List.nodup_append', List.nodup_append']
  refine ⟨memberNames_ok.1, ⟨nodup_layers (by decide) _, ⟨nodup_layers (by decide) _,
    nodup_groups (by decide), ?_⟩, ?_⟩, ?_⟩
  · intro name hname hname'
    exact hgroup (by decide) (by decide) name (prefix_layers hname) hname'
  · intro name hname hname'
    rcases List.mem_append.mp hname' with hname' | hname'
    · have hforked : Forked talkerBase predictorBase := by decide
      exact hforked.not_both (prefix_layers hname) (prefix_layers hname')
    · exact hgroup (by decide) (by decide) name (prefix_layers hname) hname'
  · intro name hname hname'
    rcases List.mem_append.mp hname' with hname' | hname'
    · exact hmember (by decide) name hname (prefix_layers hname')
    · rcases List.mem_append.mp hname' with hname' | hname'
      · exact hmember (by decide) name hname (prefix_layers hname')
      · rcases prefix_groups hname' with h | h
        · exact hmember (by decide) name hname h
        · exact hmember (by decide) name hname h

/-! ## Uploads -/

/-- A tensor that `upload_tensor` accepts. -/
structure Uploadable (required : Required) : Prop where
  named : required.1 ≠ ""
  rank : required.2.length ≠ 0 ∧ required.2.length ≤ 4
  dimension_pos : ∀ dimension ∈ required.2, 0 < dimension
  fits : 2 * required.2.prod < 2 ^ 64

instance (required : Required) : Decidable (Uploadable required) :=
  decidable_of_iff (required.1 ≠ "" ∧ (required.2.length ≠ 0 ∧ required.2.length ≤ 4) ∧
    (∀ dimension ∈ required.2, 0 < dimension) ∧ 2 * required.2.prod < 2 ^ 64)
    ⟨fun ⟨hnamed, hrank, hpos, hfits⟩ => ⟨hnamed, hrank, hpos, hfits⟩,
      fun h => ⟨h.named, h.rank, h.dimension_pos, h.fits⟩⟩

/-- A complete tensor, as the loader sends it. -/
def uploadOf (required : Required) : Upload where
  name := some required.1
  data := some 64
  byteSize := UInt64.ofNat (2 * required.2.prod)
  shape := some (required.2.map UInt64.ofNat)

/-- Uploads one behind the other, and so their memory. -/
def uploadsFrom : Nat → List Required → List ModelCall
  | _, [] => []
  | address, required :: rest =>
    .upload (uploadOf required) (.uploaded (UInt64.ofNat address))
      :: uploadsFrom (address + 2 * required.2.prod) rest

/-- The product of a shape that fits does not overflow. -/
theorem elements_ofNat {shape : List Nat} (hpos : ∀ dimension ∈ shape, 0 < dimension)
    {count : Nat} (hcount : 0 < count) (hfits : count * shape.prod < 2 ^ 64) :
    (shape.map UInt64.ofNat).foldlM (fun elements dimension => do
      failIf (dimension = 0 ∨ (2 ^ 64 - 1) / dimension.toNat < elements)
        "tensor shape is empty or overflows"
      pure (elements * dimension.toNat)) count
        = (.ok (count * shape.prod) : Except String Nat) := by
  induction shape generalizing count with
  | nil => simp [pure, Except.pure]
  | cons dimension shape ih =>
    obtain ⟨hdimension, hshape⟩ := List.forall_mem_cons.mp hpos
    rw [List.prod_cons, ← Nat.mul_assoc] at hfits
    have hprod : 0 < shape.prod := List.prod_pos_iff_forall_pos_nat.mpr hshape
    have hle : count * dimension < 2 ^ 64 :=
      Nat.lt_of_le_of_lt (Nat.le_mul_of_pos_right _ hprod) hfits
    have hsmall : dimension < 2 ^ 64 := Nat.lt_of_le_of_lt (Nat.le_mul_of_pos_left _ hcount) hle
    have htoNat : (UInt64.ofNat dimension).toNat = dimension := UInt64.toNat_ofNat_of_lt' hsmall
    have hcheck : ¬ (UInt64.ofNat dimension = 0 ∨
        (2 ^ 64 - 1) / (UInt64.ofNat dimension).toNat < count) := by
      rintro (hzero | hover)
      · rw [hzero] at htoNat
        exact Nat.ne_of_lt hdimension htoNat
      · rw [htoNat, Nat.div_lt_iff_lt_mul hdimension] at hover
        omega
    rw [List.map_cons, List.foldlM_cons, (failIf_eq_ok (u := ())).mpr hcheck, ok_bind, htoNat,
      List.prod_cons, ← Nat.mul_assoc]
    exact ih hshape (Nat.mul_pos hcount hdimension) hfits

/-- A model behind the upload of a tensor. -/
def withTensor (m : TalkerModel) (required : Required) (address : Nat) : TalkerModel :=
  { m with
    weightBytes := m.weightBytes + UInt64.ofNat (2 * required.2.prod)
    tensors := (required.1, {
      address := UInt64.ofNat address
      bytes := UInt64.ofNat (2 * required.2.prod)
      shape := required.2.map UInt64.ofNat }) :: m.tensors }

section
variable {m : TalkerModel} {required : Required} {address : Nat}

/-- The checks of an upload let it through. -/
theorem uploadChecks_uploadOf (h : Uploadable required) (hfinal : m.finalized = false)
    (hfree : assoc m.tensors required.1 = none) :
    m.uploadChecks (uploadOf required) = .ok (required.1, required.2.map UInt64.ofNat) := by
  have hprod : 0 < required.2.prod := List.prod_pos_iff_forall_pos_nat.mpr h.dimension_pos
  have hfits := h.fits
  have hbytes : (UInt64.ofNat (2 * required.2.prod)).toNat = 2 * required.2.prod :=
    UInt64.toNat_ofNat_of_lt' hfits
  have hsome : UInt64.ofNat (2 * required.2.prod) ≠ 0 := by
    intro hzero
    rw [hzero] at hbytes
    have hnil : (0 : UInt64).toNat = 0 := rfl
    omega
  have hrank : ¬ ((required.2.map UInt64.ofNat).length = 0 ∨
      4 < (required.2.map UInt64.ofNat).length ∨ UInt64.ofNat (2 * required.2.prod) = 0) := by
    rw [List.length_map]
    rintro (hlength | hlength | hzero)
    · exact h.rank.1 hlength
    · exact absurd h.rank.2 (Nat.not_le.mpr hlength)
    · exact hsome hzero
  have helements : elements (required.2.map UInt64.ofNat) = .ok required.2.prod := by
    have hfold := @elements_ofNat _ h.dimension_pos 1 Nat.one_pos (by omega)
    rw [Nat.one_mul] at hfold
    exact hfold
  -- the byte count is that of the shape in BF16
  have hsize : ¬ ((2 ^ 64 - 1) / 2 < required.2.prod ∨
      required.2.prod * 2 ≠ (UInt64.ofNat (2 * required.2.prod)).toNat) := by
    rw [hbytes]
    omega
  -- the name is new and the model not final
  have hnew : ¬ (assoc m.tensors required.1).isSome := by
    rw [hfree]
    exact Bool.false_ne_true
  have hopen : ¬ m.finalized = true := by
    rw [hfinal]
    exact Bool.false_ne_true
  unfold uploadChecks uploadOf
  rw [(failIf_eq_ok (u := ())).mpr hopen, ok_bind]
  dsimp only
  rw [(failIf_eq_ok (u := ())).mpr h.named, ok_bind, (failIf_eq_ok (u := ())).mpr hrank, ok_bind,
    helements, ok_bind, (failIf_eq_ok (u := ())).mpr hsize, ok_bind,
    (failIf_eq_ok (u := ())).mpr hnew, ok_bind]
  rfl

/-- One upload into free memory. -/
theorem step_uploadOf (h : Uploadable required) (hfinal : m.finalized = false)
    (hfree : assoc m.tensors required.1 = none) (hpos : 0 < address)
    (hend : address + 2 * required.2.prod < 2 ^ 64)
    (hheld : ∀ held ∈ m.ranges, held.1 + held.2 ≤ address) :
    step m (.upload (uploadOf required) (.uploaded (UInt64.ofNat address)))
      = some (m.withTensor required address) := by
  have hsmall : address < 2 ^ 64 := by omega
  have haddress : (UInt64.ofNat address).toNat = address := UInt64.toNat_ofNat_of_lt' hsmall
  have hbytes : (UInt64.ofNat (2 * required.2.prod)).toNat = 2 * required.2.prod :=
    UInt64.toNat_ofNat_of_lt' h.fits
  have hcan : m.CanReturn (uploadOf required).byteSize (.uploaded (UInt64.ofNat address)) := by
    refine ⟨by rw [haddress]; exact hpos, ?_, fun held hmem => .inr ?_⟩
    · show (UInt64.ofNat address).toNat + (UInt64.ofNat (2 * required.2.prod)).toNat ≤ 2 ^ 64
      rw [haddress, hbytes]
      omega
    · show held.1 + held.2 ≤ (UInt64.ofNat address).toNat
      rw [haddress]
      exact hheld held hmem
  have hchecks := uploadChecks_uploadOf h hfinal hfree
  have hupload : uploadTensor (uploadOf required) (.uploaded (UInt64.ofNat address)) m
      = .ok () (m.withTensor required address) := by
    rw [uploadTensor, get_bind, hchecks]
    rfl
  simp only [step, TalkerModel.call, if_pos hcan, hupload, Option.map_some]

/-- The tensor is there afterwards, -/
theorem present_withTensor (h : Uploadable required) : (m.withTensor required address).Present
    required := by
  have hshape : ∀ dimension ∈ required.2, (UInt64.ofNat dimension).toNat = dimension := by
    intro dimension hmem
    have hle := Nat.le_of_dvd (List.prod_pos_iff_forall_pos_nat.mpr h.dimension_pos)
      (List.dvd_prod hmem)
    have hfits := h.fits
    have hsmall : dimension < 2 ^ 64 := by omega
    exact UInt64.toNat_ofNat_of_lt' hsmall
  refine ⟨UInt64.ofNat address, ?_⟩
  have hlookup : assoc (m.withTensor required address).tensors required.1 = some {
      address := UInt64.ofNat address
      bytes := UInt64.ofNat (2 * required.2.prod)
      shape := required.2.map UInt64.ofNat } := by
    rw [withTensor, assoc_cons, Function.update_self]
  have hsame : (required.2.map UInt64.ofNat).map UInt64.toNat = required.2 := by
    rw [List.map_map]
    exact (List.map_congr_left hshape).trans (List.map_id _)
  rw [found, hlookup]
  exact if_neg (not_not_intro hsame)

/-- and so is every other one. -/
theorem Present.withTensor {other : Required} (h : m.Present other)
    (hfree : assoc m.tensors required.1 = none) : (m.withTensor required address).Present other := by
  obtain ⟨found, hfound⟩ := h
  have hne : other.1 ≠ required.1 := by
    intro heq
    rw [TalkerModel.found, heq, hfree] at hfound
    cases hfound
  refine ⟨found, ?_⟩
  rw [← hfound, TalkerModel.found, TalkerModel.found, TalkerModel.withTensor, assoc_cons,
    Function.update_of_ne hne]

end

/-- **A list of tensors is uploaded**, and all of them are found behind that. -/
theorem run_uploadsFrom {rest : List Required} (hrest : ∀ required ∈ rest, Uploadable required)
    (hnames : (rest.map Prod.fst).Nodup) {m : TalkerModel} {address : Nat}
    (hfinal : m.finalized = false) (hfree : ∀ required ∈ rest, assoc m.tensors required.1 = none)
    (hpos : 0 < address)
    (hend : address + (rest.map fun required => 2 * required.2.prod).sum < 2 ^ 64)
    (hheld : ∀ held ∈ m.ranges, held.1 + held.2 ≤ address) :
    ∃ m', run step m (uploadsFrom address rest) = some m' ∧ m'.finalized = false ∧
      m'.tensors.length = m.tensors.length + rest.length ∧
      (∀ required, m.Present required → m'.Present required) ∧
      ∀ required ∈ rest, m'.Present required := by
  induction rest generalizing m address with
  | nil => exact ⟨m, rfl, hfinal, rfl, fun _ h => h, nofun⟩
  | cons required rest ih =>
    obtain ⟨hrequired, hrest⟩ := List.forall_mem_cons.mp hrest
    obtain ⟨hfirst, hfree⟩ := List.forall_mem_cons.mp hfree
    obtain ⟨hnew, hnames⟩ := List.nodup_cons.mp hnames
    rw [List.map_cons, List.sum_cons] at hend
    have hsmall : address < 2 ^ 64 := by omega
    have hstep := step_uploadOf hrequired hfinal hfirst hpos (by omega) hheld
    -- no later tensor has its name
    have hfree' : ∀ other ∈ rest,
        assoc (m.withTensor required address).tensors other.1 = none := by
      intro other hother
      have hne : other.1 ≠ required.1 := fun heq => hnew (heq ▸ List.mem_map_of_mem hother)
      rw [withTensor, assoc_cons, Function.update_of_ne hne]
      exact hfree other hother
    -- and all that is held lies below the next address
    have hheld' : ∀ held ∈ (m.withTensor required address).ranges,
        held.1 + held.2 ≤ address + 2 * required.2.prod := by
      have hrange : (m.withTensor required address).ranges
          = (address, 2 * required.2.prod) :: m.ranges := by
        show range _ _ :: m.ranges = _
        rw [range, UInt64.toNat_ofNat_of_lt' hsmall, UInt64.toNat_ofNat_of_lt' hrequired.fits]
      rw [hrange]
      refine List.forall_mem_cons.mpr ⟨Nat.le_refl _, fun held hmem => ?_⟩
      exact Nat.le_trans (hheld held hmem) (Nat.le_add_right _ _)
    obtain ⟨m', hrun, hopen, hcount, hkept, hfound⟩ :=
      @ih hrest hnames (m.withTensor required address) (address + 2 * required.2.prod) hfinal hfree'
        (Nat.lt_of_lt_of_le hpos (Nat.le_add_right _ _)) (by omega) hheld'
    refine ⟨m', run_cons.mpr ⟨_, hstep, hrun⟩, hopen, ?_, ?_, ?_⟩
    · rw [hcount, withTensor, List.length_cons, List.length_cons]
      omega
    · exact fun other hother => hkept other (hother.withTensor hfirst)
    · exact List.forall_mem_cons.mpr ⟨hkept required (present_withTensor hrequired), hfound⟩

/-! ## The checkpoint -/

/-- The numbers of the real checkpoint. -/
theorem length_requiredTensors : requiredTensors.length = 404 := by decide +kernel

theorem uploadable_requiredTensors : ∀ required ∈ requiredTensors, Uploadable required := by
  decide +kernel

theorem sum_requiredTensors :
    4096 + (requiredTensors.map fun required => 2 * required.2.prod).sum < 2 ^ 64 := by
  decide +kernel

end Qwen3Tts.Talker.TalkerModel
