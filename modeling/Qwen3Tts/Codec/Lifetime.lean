import Qwen3Tts.Codec.Lifecycle

/-!
# Codec — lifetimes of shared models

* `lifecycle` — in every run of the calls, whatever failed: the reference count of a model is its
  handle plus the contexts bound to it, the model is there as long as one of them is, its weights
  are freed once, when the last of them goes, and sessions only exist of loaded and warm models.

Each call is first reduced to its net effect: a temporary context that was created, bound and
released leaves nothing but a used number.
-/

namespace Qwen3Tts.Codec.Lifecycle

open Qwen3Tts.Lib

/-! ## The property -/

/-- The contexts bound to a model. -/
def bound (s : State) (a : Nat) : Nat := (s.contexts.filter fun c => c.2.model = a).length

/-- The live sessions of a model. -/
def liveSessions (s : State) (a : Nat) : Nat :=
  (s.sessions.filter fun c => (assoc s.contexts c).map Context.model = some a).length

/-- The buffers the models hold between them. -/
def held (models : List (Nat × Model)) : List Nat := models.flatMap fun p => buffers p.2

/-- What holds between two calls. -/
structure Ok (s : State) : Prop where
  references : ∀ a m, assoc s.models a = some m →
    m.referenceCount = (if a ∈ s.handles then 1 else 0) + bound s a
  active : ∀ a m, assoc s.models a = some m → m.activeSessionCount = liveSessions s a
  /-- A model is deleted when its last reference goes, and not before. -/
  alive : ∀ a, (assoc s.models a).isSome ↔ a ∈ s.handles ∨ 0 < bound s a
  /-- Every buffer that was allocated is held by one model or was freed once. -/
  freedOnce : (held s.models ++ s.freed).Perm (List.range s.nextBuffer)
  ready : ∀ c ∈ s.sessions, ∃ a m, assoc s.contexts c = some ⟨a, true⟩ ∧
    assoc s.models a = some m ∧ m.modelInfo.loaded = true ∧ m.warmupCompleted = true

/-- What a call can do. -/
structure Sound (s : State) (c : Call) (answer : Answer) (s' : State) : Prop where
  /-- A loaded model keeps its weights until it is deleted, and then they are freed. -/
  weights : ∀ a m, assoc s.models a = some m → m.modelInfo.loaded = true →
    (∃ m', assoc s'.models a = some m' ∧ m'.weights = m.weights ∧ m'.modelInfo = m.modelInfo) ∨
      assoc s'.models a = none ∧ ∀ b ∈ buffers m, b ∈ s'.freed
  /-- Only a load that succeeds sets the info of a model, only a warmup its flag. -/
  loads : ∀ a m', assoc s'.models a = some m' → m'.modelInfo.loaded = true →
    (∃ m, assoc s.models a = some m ∧ m.modelInfo.loaded = true) ∨
      ∃ provider createFault fault, c = .modelLoad a provider createFault fault ∧
        answer = .loaded m'.modelInfo
  warms : ∀ a m', assoc s'.models a = some m' → m'.warmupCompleted = true →
    (∃ m, assoc s.models a = some m ∧ m.warmupCompleted = true) ∨
      ∃ createFault fault, c = .modelWarmup a createFault fault ∧ answer = .done
  /-- A load that fails leaves the model as it was: without weights, or loaded before. -/
  failed : ∀ a provider createFault fault message, c = .modelLoad a provider createFault fault →
    answer = .failed message → assoc s'.models a = assoc s.models a ∧
      ∀ m, assoc s.models a = some m → m.modelInfo.loaded = true ∨
        m.weights = [] ∧ m.modelInfo = .empty ∧ m.warmupCompleted = false

/-! ## Releases -/

/-- The last reference deletes the model and frees its weights. -/
theorem releaseModelReference_last {s : State} {a : Nat} {m : Model}
    (h : assoc s.models a = some m) (hone : m.referenceCount = 1) :
    releaseModelReference a s =
      { s with models := eraseAt a s.models, freed := s.freed ++ buffers m } := by
  have hassoc : assoc (modifyAt a Model.release s.models) a = some m.release := by
    rw [assoc_modifyAt, if_pos rfl, h]
    rfl
  unfold releaseModelReference clearModelWeights
  simp only [h, hone, ne_eq, not_true_eq_false, if_false, hassoc, eraseAt_modifyAt]
  rfl

/-- Any other one only counts down. -/
theorem releaseModelReference_shared {s : State} {a : Nat} {m : Model}
    (h : assoc s.models a = some m) (hmore : m.referenceCount ≠ 1) :
    releaseModelReference a s = { s with models := modifyAt a Model.release s.models } := by
  unfold releaseModelReference
  simp only [h, ne_eq, hmore, not_false_eq_true, if_true]

/-- A release does not look at the contexts. -/
theorem releaseModelReference_contexts (s : State) (a : Nat)
    (f : List (Nat × Context) → List (Nat × Context)) :
    { releaseModelReference a s with contexts := f (releaseModelReference a s).contexts } =
      releaseModelReference a { s with contexts := f s.contexts } := by
  cases h : assoc s.models a with
  | none =>
    unfold releaseModelReference
    simp only [h]
  | some m =>
    by_cases hone : m.referenceCount = 1
    · rw [releaseModelReference_last h hone, @releaseModelReference_last { s with
        contexts := f s.contexts } a m h hone]
    · rw [releaseModelReference_shared h hone, @releaseModelReference_shared { s with
        contexts := f s.contexts } a m h hone]

/-- A context gives its reference back; a shared one is counted out first. -/
theorem releaseContext_eq {s : State} {c : Nat} {context : Context}
    (h : assoc s.contexts c = some context) :
    releaseContext c s = releaseModelReference context.model { s with
      models := if context.countsAsSharedSession then
          modifyAt context.model Model.leave s.models
        else s.models
      contexts := eraseAt c s.contexts } := by
  unfold releaseContext
  rw [h]
  cases hcounts : context.countsAsSharedSession with
  | false =>
    simp only [hcounts, Bool.false_eq_true, if_false]
    exact releaseModelReference_contexts s context.model (eraseAt c)
  | true =>
    simp only [hcounts, if_true]
    exact releaseModelReference_contexts { s with
      models := modifyAt context.model Model.leave s.models } context.model (eraseAt c)

/-! ## Temporary contexts -/

/-- A context that is new, so that its number names nothing. -/
structure Numbered (s : State) : Prop where
  models : s.nextModel ∉ keys s.models
  contexts : s.nextContext ∉ keys s.contexts

/-- A reference more, and a session more if it counts. -/
def attach (counts : Bool) (m : Model) : Model :=
  { m with
    referenceCount := m.referenceCount + 1
    activeSessionCount := m.activeSessionCount + counts.toNat }

/-- A new context's own model, which nobody else refers to, is deleted when the context is bound to
another one. -/
theorem releaseModelReference_own {s : State} {a : Nat} {models : List (Nat × Model)}
    (hs : s.models = (a, .new) :: models) (ha : a ∉ keys models) :
    releaseModelReference a s = { s with models := models } := by
  have hassoc : assoc s.models a = some .new := by
    rw [hs]
    exact if_pos rfl
  rw [releaseModelReference_last hassoc rfl]
  have herase : eraseAt a s.models = models := by
    rw [hs]
    exact (List.filter_cons_of_neg (by simp)).trans (eraseAt_of_notMem ha)
  have hbuffers : s.freed ++ buffers .new = s.freed := List.append_nil _
  rw [herase, hbuffers]

/-- A bound context, and the numbers of a context and of a model that are used up. -/
theorem createBoundContext_ok {s : State} (hs : Numbered s) (a : Nat) (counts : Bool) :
    createBoundContext a counts none s = (.ok s.nextContext, { s with
      models := modifyAt a (attach counts) s.models
      contexts := (s.nextContext, ⟨a, counts⟩) :: s.contexts
      nextModel := s.nextModel + 1
      nextContext := s.nextContext + 1 }) := by
  have hassoc : assoc ((s.nextContext, (⟨s.nextModel, false⟩ : Context)) :: s.contexts)
      s.nextContext = some ⟨s.nextModel, false⟩ := if_pos rfl
  have hmodify : ∀ (f : Context → Context) (context : Context),
      modifyAt s.nextContext f ((s.nextContext, context) :: s.contexts) =
        (s.nextContext, f context) :: s.contexts := by
    intro f context
    have htail := modifyAt_of_notMem (f := f) hs.contexts
    show (if s.nextContext = s.nextContext then _ else _) :: modifyAt s.nextContext f s.contexts = _
    rw [if_pos rfl, htail]
  -- the model the context is created with is let go of when the context is bound
  have hown := @releaseModelReference_own { s with
    models := (s.nextModel, .new) :: s.models
    contexts := (s.nextContext, ⟨s.nextModel, false⟩) :: s.contexts
    nextModel := s.nextModel + 1
    nextContext := s.nextContext + 1 } s.nextModel s.models rfl hs.models
  unfold createBoundContext create allocateModel
  simp only [bind, hassoc, hown, hmodify, retainModel]
  cases counts with
  | false => rfl
  | true =>
    simp only [if_true, modifyAt_modifyAt]
    rfl

/-- A creation that fails uses numbers up. -/
theorem createBoundContext_error {s : State} (hs : Numbered s) (a : Nat) (counts : Bool)
    (fault : CreateFault) : ∃ message nextModel nextContext,
      s.nextModel ≤ nextModel ∧ s.nextContext ≤ nextContext ∧
      createBoundContext a counts (some fault) s = (.error message, { s with
        nextModel := nextModel, nextContext := nextContext }) := by
  cases fault with
  | early message => exact ⟨message, _, _, Nat.le_refl _, Nat.le_refl _, rfl⟩
  | model => exact ⟨_, _, _, Nat.le_refl _, Nat.le_refl _, rfl⟩
  | late message =>
    refine ⟨message, s.nextModel + 1, s.nextContext + 1, Nat.le_succ _, Nat.le_succ _, ?_⟩
    have hassoc : assoc ((s.nextContext, (⟨s.nextModel, false⟩ : Context)) :: s.contexts)
        s.nextContext = some ⟨s.nextModel, false⟩ := if_pos rfl
    have herase : eraseAt s.nextContext
        ((s.nextContext, (⟨s.nextModel, false⟩ : Context)) :: s.contexts) = s.contexts :=
      (List.filter_cons_of_neg (by simp)).trans (eraseAt_of_notMem hs.contexts)
    unfold createBoundContext create allocateModel
    simp only
    rw [releaseContext_eq hassoc, releaseModelReference_own rfl hs.models]
    simp only [herase]

/-- The context at the head of the list, which is not the last reference, goes again. -/
theorem releaseContext_temporary {s : State} {c a : Nat} {contexts : List (Nat × Context)}
    (hs : s.contexts = (c, ⟨a, false⟩) :: contexts) (hc : c ∉ keys contexts) {m : Model}
    (hm : assoc s.models a = some m) (hmore : m.referenceCount ≠ 1) :
    releaseContext c s = { s with
      models := modifyAt a Model.release s.models
      contexts := contexts } := by
  have hassoc : assoc s.contexts c = some ⟨a, false⟩ := by
    rw [hs]
    exact if_pos rfl
  have herase : eraseAt c s.contexts = contexts := by
    rw [hs]
    exact (List.filter_cons_of_neg (by simp)).trans (eraseAt_of_notMem hc)
  rw [releaseContext_eq hassoc, herase]
  simp only [Bool.false_eq_true, if_false]
  exact releaseModelReference_shared hm hmore

/-! ## Loads -/

/-- What a load has allocated is held or freed. -/
def Conserved (freed : List Nat) (first : Nat) (s : Loading) : Prop :=
  ∃ count, s.nextBuffer = first + count ∧
    ((s.weights.map fun t => t.2.buffer) ++ s.freed).Perm (freed ++ List.range' first count)

section
variable {fault : Option (LoadPoint × String)} {freed : List Nat} {first : Nat}

/-- One more allocation, which is at first in nobody's hands. -/
theorem range'_succ_perm {held : List Nat} {count : Nat}
    (h : held.Perm (freed ++ List.range' first count)) :
    (held ++ [first + count]).Perm (freed ++ List.range' first (count + 1)) := by
  rw [List.range'_1_concat, ← List.append_assoc]
  exact h.append_right _

/-- One tensor: its buffer is held, or freed again by the failing copy. -/
theorem upload_spec (index : Nat) (name : String) (view : TensorView) (elements : Nat) :
    Triple (Conserved freed first) (upload fault index name view elements)
      (fun _ => Conserved freed first) (fun _ => Conserved freed first) := by
  unfold upload
  split
  · exact Triple.throw fun _ hs => hs
  · refine Triple.bind (Triple.get (Q := fun t s => t = s ∧ Conserved freed first s)
      fun s hs => ⟨rfl, hs⟩) fun t => ?_
    -- the buffer is allocated: it is neither held nor freed yet
    refine Triple.bind (Q := fun _ s => ∃ count, t.nextBuffer = first + count ∧
      s = { t with nextBuffer := first + (count + 1) } ∧
        ((t.weights.map fun t => t.2.buffer) ++ t.freed).Perm
          (freed ++ List.range' first count)) (Triple.modify ?_) fun _ => ?_
    · rintro s ⟨rfl, count, hnext, hperm⟩
      exact ⟨count, hnext, by rw [hnext, Nat.add_assoc], hperm⟩
    have hfree : ∀ message : String, Triple (fun s => ∃ count, t.nextBuffer = first + count ∧
        s = { t with nextBuffer := first + (count + 1) } ∧
          ((t.weights.map fun t => t.2.buffer) ++ t.freed).Perm
            (freed ++ List.range' first count))
        (do
          modify fun s => { s with freed := s.freed ++ [t.nextBuffer] }
          throw message : Loader Unit)
        (fun _ => Conserved freed first) (fun _ => Conserved freed first) := by
      refine fun message => Triple.bind (Q := fun _ => Conserved freed first) (Triple.modify ?_)
        fun _ => Triple.throw fun _ hs => hs
      rintro s ⟨count, hnext, rfl, hperm⟩
      refine ⟨count + 1, rfl, ?_⟩
      show (_ ++ (t.freed ++ [t.nextBuffer])).Perm _
      rw [← List.append_assoc, hnext]
      exact range'_succ_perm hperm
    split
    · exact hfree _
    · split
      · exact hfree _
      · refine Triple.modify ?_
        rintro s ⟨count, hnext, rfl, hperm⟩
        refine ⟨count + 1, rfl, ?_⟩
        show (t.nextBuffer :: ((t.weights.map fun t => t.2.buffer) ++ t.freed)).Perm _
        rw [hnext]
        exact (List.perm_append_singleton _ _).symm.trans (range'_succ_perm hperm)

/-- One entry of the provider, which is uploaded or ignored. -/
theorem loadTensor_spec (index : Nat) (item : ProviderItem) :
    Triple (Conserved freed first) (loadTensor fault index item)
      (fun _ => Conserved freed first) (fun _ => Conserved freed first) := by
  unfold loadTensor
  split
  · exact Triple.throw fun _ hs => hs
  · exact Triple.pure fun _ hs => hs
  · split
    · split
      · exact Triple.throw fun _ hs => hs
      · exact upload_spec _ _ _ _
    · exact Triple.pure fun _ hs => hs

/-- A load that ends holds some weights; either way no buffer is lost. -/
theorem loadTensors_spec (tensors : List ProviderItem) :
    Triple (Conserved freed first) (loadTensors fault tensors)
      (fun info s => Conserved freed first s ∧ info.loaded = true ∧ s.weights ≠ [])
      (fun _ => Conserved freed first) := by
  refine Triple.bind (Triple.forM (I := fun _ => Conserved freed first)
    fun _ item _ _ => loadTensor_spec item.2 item.1) fun _ => ?_
  refine Triple.bind (Q := fun _ => Conserved freed first)
    (Triple.throwIf (fun _ hs _ => hs) fun _ hs _ => hs) fun _ => ?_
  refine Triple.bind (Triple.get (Q := fun t s => t = s ∧ Conserved freed first s)
    fun s hs => ⟨rfl, hs⟩) fun t => ?_
  refine Triple.bind (Q := fun _ s => t = s ∧ Conserved freed first s)
    (Triple.throwIf (fun _ hs _ => hs.2) fun _ hs _ => hs) fun _ => ?_
  refine Triple.bind (Q := fun _ s => (t = s ∧ Conserved freed first s) ∧ t.weights ≠ [])
    (Triple.throwIf (fun _ hs _ => hs.2) fun s hs hall => ⟨hs, fun hnil => hall ?_⟩) fun _ => ?_
  · refine ⟨_, List.mem_cons_self, ?_⟩
    rw [hnil]
    rfl
  · exact Triple.pure fun s hs => ⟨hs.1.2, rfl, hs.1.1 ▸ hs.2⟩

end

/-! ## The invariant -/

/-- What the reference count of a model counts. -/
def references (s : State) (a : Nat) : Nat := s.handles.count a + bound s a

/-- One reference that no handle and no context stands for: it is about to be released. -/
def pending (a : Nat) (b : Nat) : Nat := if b = a then 1 else 0

/-- The invariant, with the references that are about to be released. -/
structure Inv (extra : Nat → Nat) (s : State) : Prop where
  modelKeys : (keys s.models).Nodup
  contextKeys : (keys s.contexts).Nodup
  handleKeys : s.handles.Nodup
  modelFresh : ∀ a ∈ keys s.models, a < s.nextModel
  contextFresh : ∀ c ∈ keys s.contexts, c < s.nextContext
  live : ∀ a, a ∈ keys s.models ↔ 1 ≤ references s a + extra a
  counted : ∀ a m, assoc s.models a = some m → m.referenceCount = references s a + extra a
  active : ∀ a m, assoc s.models a = some m → m.activeSessionCount = bound s a
  sessions : (keys s.contexts).Perm s.sessions
  flagged : ∀ c ∈ s.contexts, c.2.countsAsSharedSession = true
  ready : ∀ c ∈ s.contexts, ∀ m, assoc s.models c.2.model = some m →
    m.modelInfo.loaded = true ∧ m.warmupCompleted = true
  unloaded : ∀ a m, assoc s.models a = some m → m.modelInfo.loaded = false →
    m.weights = [] ∧ m.modelInfo = .empty ∧ m.warmupCompleted = false
  conserved : (held s.models ++ s.freed).Perm (List.range s.nextBuffer)

/-- There is neither a model nor a context. -/
theorem inv_init : Inv (fun _ => 0) State.init where
  modelKeys := List.nodup_nil
  contextKeys := List.nodup_nil
  handleKeys := List.nodup_nil
  modelFresh := nofun
  contextFresh := nofun
  live _ := ⟨nofun, fun h => absurd h (Nat.not_succ_le_zero 0)⟩
  counted := nofun
  active := nofun
  sessions := List.Perm.refl _
  flagged := nofun
  ready := nofun
  unloaded := nofun
  conserved := List.Perm.refl _

/-- Every number in use was handed out before. -/
theorem Inv.numbered {extra : Nat → Nat} {s : State} (hs : Inv extra s) : Numbered s where
  models h := Nat.lt_irrefl _ (hs.modelFresh _ h)
  contexts h := Nat.lt_irrefl _ (hs.contextFresh _ h)

/-- The buffers of one model, and those of the others. -/
theorem held_perm {models : List (Nat × Model)} (hkeys : (keys models).Nodup) {a : Nat} {m : Model}
    (h : assoc models a = some m) : (held models).Perm (buffers m ++ held (eraseAt a models)) :=
  (perm_eraseAt hkeys h).flatMap_right _

/-- Only the changed model may hold other buffers. -/
theorem held_modifyAt {models : List (Nat × Model)} (hkeys : (keys models).Nodup) {a : Nat}
    {m : Model} (h : assoc models a = some m) (f : Model → Model) :
    (held (modifyAt a f models)).Perm (buffers (f m) ++ held (eraseAt a models)) :=
  (perm_modifyAt hkeys h).flatMap_right _

/-- A change that leaves the weights of a model leaves the buffers. -/
theorem held_same {models : List (Nat × Model)} (a : Nat) {f : Model → Model}
    (hf : ∀ m, (f m).weights = m.weights) : held (modifyAt a f models) = held models := by
  unfold held modifyAt
  rw [List.flatMap_map]
  refine List.flatMap_congr fun p _ => ?_
  by_cases hp : p.1 = a
  · simp only [if_pos hp, buffers, hf]
  · simp only [if_neg hp]

/-- **A release**: the model loses the pending reference, and is deleted with its weights when it
was the last one. -/
theorem inv_release {s : State} {a : Nat} (hs : Inv (pending a) s) :
    Inv (fun _ => 0) (releaseModelReference a s) := by
  have hself : pending a a = 1 := if_pos rfl
  have hother : ∀ b, b ≠ a → pending a b = 0 := fun b hb => if_neg hb
  have hlive : a ∈ keys s.models := (hs.live a).mpr (by omega)
  obtain ⟨m, hm⟩ := Option.isSome_iff_exists.mp (assoc_isSome.mpr hlive)
  have hcount := hs.counted a m hm
  by_cases hone : m.referenceCount = 1
  · have hnone : references s a = 0 := by omega
    -- no context is bound to the model
    have hfree : ∀ c ∈ s.contexts, c.2.model ≠ a := by
      intro c hc heq
      have hbound : bound s a = 0 := by
        unfold references at hnone
        omega
      have hnil := List.length_eq_zero_iff.mp hbound
      exact List.filter_eq_nil_iff.mp hnil c hc (by simpa using heq)
    rw [releaseModelReference_last hm hone]
    have hassoc : ∀ b v, assoc (eraseAt a s.models) b = some v → b ≠ a ∧ assoc s.models b = some v := by
      intro b v hb
      rw [assoc_eraseAt] at hb
      split at hb
      · cases hb
      · exact ⟨‹_›, hb⟩
    exact {
      modelKeys := keys_eraseAt_sublist.nodup hs.modelKeys
      contextKeys := hs.contextKeys
      handleKeys := hs.handleKeys
      modelFresh := fun b hb => hs.modelFresh b (keys_eraseAt_sublist.subset hb)
      contextFresh := hs.contextFresh
      live := fun b => by
        show b ∈ keys (eraseAt a s.models) ↔ 1 ≤ references s b + 0
        rw [← assoc_isSome, assoc_eraseAt]
        by_cases hb : b = a
        · rw [if_pos hb, hb, hnone]
          exact ⟨fun h => (by cases h), fun h => absurd h (Nat.not_succ_le_zero 0)⟩
        · rw [if_neg hb, assoc_isSome, hs.live b, hother b hb]
      counted := fun b v hv => by
        obtain ⟨hb, hv⟩ := hassoc b v hv
        have hcounted := hs.counted b v hv
        rw [hother b hb] at hcounted
        exact hcounted
      active := fun b v hv => hs.active b v (hassoc b v hv).2
      sessions := hs.sessions
      flagged := hs.flagged
      ready := fun c hc v hv => hs.ready c hc v (hassoc _ v hv).2
      unloaded := fun b v hv => hs.unloaded b v (hassoc b v hv).2
      conserved := by
        have hperm := (held_perm hs.modelKeys hm).append_right s.freed
        refine List.Perm.trans ?_ (hperm.symm.trans hs.conserved)
        show (held (eraseAt a s.models) ++ (s.freed ++ buffers m)).Perm _
        rw [← List.append_assoc, List.append_assoc (buffers m)]
        exact List.perm_append_comm }
  · rw [releaseModelReference_shared hm hone]
    have hassoc : ∀ b v, assoc (modifyAt a Model.release s.models) b = some v →
        ∃ w, assoc s.models b = some w ∧ v = if b = a then w.release else w := by
      intro b v hb
      rw [assoc_modifyAt] at hb
      split at hb
      · rename_i heq
        obtain ⟨w, hw, rfl⟩ := Option.map_eq_some_iff.mp hb
        exact ⟨w, hw, (if_pos heq).symm⟩
      · rename_i hne
        exact ⟨v, hb, (if_neg hne).symm⟩
    exact {
      modelKeys := by
        show (keys (modifyAt a Model.release s.models)).Nodup
        rw [keys_modifyAt]
        exact hs.modelKeys
      contextKeys := hs.contextKeys
      handleKeys := hs.handleKeys
      modelFresh := fun b hb => hs.modelFresh b (by
        rw [← @keys_modifyAt _ _ _ a Model.release]
        exact hb)
      contextFresh := hs.contextFresh
      live := fun b => by
        show b ∈ keys (modifyAt a Model.release s.models) ↔ 1 ≤ references s b + 0
        rw [keys_modifyAt, hs.live b]
        by_cases hb : b = a
        · subst hb
          omega
        · rw [hother b hb]
      counted := fun b v hv => by
        obtain ⟨w, hw, rfl⟩ := hassoc b v hv
        have hcounted := hs.counted b w hw
        show (if b = a then w.release else w).referenceCount = references s b + 0
        by_cases hb : b = a
        · rw [hb, hself] at hcounted
          rw [if_pos hb, hb]
          show w.referenceCount - 1 = references s a + 0
          omega
        · rw [if_neg hb, hcounted, hother b hb]
      active := fun b v hv => by
        obtain ⟨w, hw, rfl⟩ := hassoc b v hv
        show (if b = a then w.release else w).activeSessionCount = bound s b
        rw [← hs.active b w hw]
        split <;> rfl
      sessions := hs.sessions
      flagged := hs.flagged
      ready := fun c hc v hv => by
        obtain ⟨w, hw, rfl⟩ := hassoc _ v hv
        have hready := hs.ready c hc w hw
        split <;> exact hready
      unloaded := fun b v hv => by
        obtain ⟨w, hw, rfl⟩ := hassoc b v hv
        have hunloaded := hs.unloaded b w hw
        split <;> exact hunloaded
      conserved := by
        show (held (modifyAt a Model.release s.models) ++ s.freed).Perm _
        rw [@held_same s.models a Model.release fun _ => rfl]
        exact hs.conserved }

/-! ## Net effects -/

/-- What a load or a warmup of `a` leaves: the model changed from `m` to `m'`, used numbers, and
the buffers that were allocated and freed. -/
structure Changed (s : State) (a : Nat) (m m' : Model) (s' : State) : Prop where
  models : ∃ f, s'.models = modifyAt a f s.models ∧ f m = m'
  contexts : s'.contexts = s.contexts
  handles : s'.handles = s.handles
  sessions : s'.sessions = s.sessions
  nextModel : s.nextModel ≤ s'.nextModel
  nextContext : s.nextContext ≤ s'.nextContext
  conserved : (buffers m' ++ held (eraseAt a s.models) ++ s'.freed).Perm (List.range s'.nextBuffer)

/-- What the list of models says after the change. -/
theorem Changed.assoc {s s' : State} {a : Nat} {m m' : Model} (h : Changed s a m m' s')
    (hm : assoc s.models a = some m) (b : Nat) :
    Lib.assoc s'.models b = if b = a then some m' else Lib.assoc s.models b := by
  obtain ⟨f, hmodels, rfl⟩ := h.models
  rw [hmodels, assoc_modifyAt]
  by_cases hb : b = a
  · rw [if_pos hb, if_pos hb, hb, hm]
    rfl
  · rw [if_neg hb, if_neg hb]

theorem inv_changed {s s' : State} {a : Nat} {m m' : Model} (hs : Inv (fun _ => 0) s)
    (hm : assoc s.models a = some m) (h : Changed s a m m' s')
    (hreferences : m'.referenceCount = m.referenceCount)
    (hactive : m'.activeSessionCount = m.activeSessionCount)
    (hready : bound s a = 0 ∨ m'.modelInfo.loaded = true ∧ m'.warmupCompleted = true)
    (hunloaded : m'.modelInfo.loaded = false →
      m'.weights = [] ∧ m'.modelInfo = .empty ∧ m'.warmupCompleted = false) :
    Inv (fun _ => 0) s' := by
  have hassoc := h.assoc hm
  have hkeys : keys s'.models = keys s.models := by
    obtain ⟨f, hmodels, -⟩ := h.models
    rw [hmodels, keys_modifyAt]
  have hbound : ∀ b, bound s' b = bound s b := fun b => by rw [bound, bound, h.contexts]
  have hreferenced : ∀ b, references s' b = references s b := fun b => by
    rw [references, references, hbound, h.handles]
  exact {
    modelKeys := hkeys ▸ hs.modelKeys
    contextKeys := h.contexts ▸ hs.contextKeys
    handleKeys := h.handles ▸ hs.handleKeys
    modelFresh := fun b hb => Nat.lt_of_lt_of_le (hs.modelFresh b (hkeys ▸ hb)) h.nextModel
    contextFresh := fun c hc => by
      rw [h.contexts] at hc
      exact Nat.lt_of_lt_of_le (hs.contextFresh c hc) h.nextContext
    live := fun b => by
      rw [hkeys, hreferenced]
      exact hs.live b
    counted := fun b v hv => by
      rw [hassoc] at hv
      rw [hreferenced]
      split at hv
      · rename_i hb
        cases hv
        rw [hreferences, hb]
        exact hs.counted a m hm
      · exact hs.counted b v hv
    active := fun b v hv => by
      rw [hassoc] at hv
      rw [hbound]
      split at hv
      · rename_i hb
        cases hv
        rw [hactive, hb]
        exact hs.active a m hm
      · exact hs.active b v hv
    sessions := by
      rw [h.contexts, h.sessions]
      exact hs.sessions
    flagged := by
      rw [h.contexts]
      exact hs.flagged
    ready := fun c hc v hv => by
      rw [h.contexts] at hc
      rw [hassoc] at hv
      split at hv
      · rename_i hb
        cases hv
        rcases hready with hzero | hready
        · -- no context is bound to a model that is loaded or warmed
          have hnil := List.length_eq_zero_iff.mp hzero
          exact absurd (by simpa using hb) (List.filter_eq_nil_iff.mp hnil c hc)
        · exact hready
      · exact hs.ready c hc v hv
    unloaded := fun b v hv => by
      rw [hassoc] at hv
      split at hv
      · cases hv
        exact hunloaded
      · exact hs.unloaded b v hv
    conserved := by
      obtain ⟨f, hmodels, hf⟩ := h.models
      rw [hmodels]
      have hperm := held_modifyAt hs.modelKeys hm f
      rw [hf] at hperm
      exact (hperm.append_right _).trans h.conserved }

/-- A load through a context that is bound to an empty model. -/
theorem loadModel_cases {s : State} {c a : Nat} {m : Model} {provider : WeightProvider}
    {fault : Option (LoadPoint × String)} (hc : assoc s.contexts c = some ⟨a, false⟩)
    (hm : assoc s.models a = some m) (hempty : m.weights = [])
    (hconserved : (held (eraseAt a s.models) ++ s.freed).Perm (List.range s.nextBuffer)) :
    (∃ message, loadModel fault c provider s = (.error message, s)) ∨
    (∃ message f nextBuffer freed, loadModel fault c provider s = (.error message, { s with
        models := modifyAt a f s.models, nextBuffer := nextBuffer, freed := freed }) ∧
      f m = cleared m ∧
      (held (eraseAt a s.models) ++ freed).Perm (List.range nextBuffer)) ∨
    ∃ info f weights nextBuffer freed, loadModel fault c provider s = (.ok info, { s with
        models := modifyAt a f s.models, nextBuffer := nextBuffer, freed := freed }) ∧
      f m = { m with weights := weights, modelInfo := info } ∧ info.loaded = true ∧
      weights ≠ [] ∧ ((weights.map fun t => t.2.buffer) ++
        (held (eraseAt a s.models) ++ freed)).Perm (List.range nextBuffer) := by
  have hlookup : ((assoc s.contexts c).bind fun context =>
      (assoc s.models context.model).map fun m => (context.model, m)) = some (a, m) := by
    rw [hc, Option.bind_some, hm, Option.map_some]
  -- the buffers of the load lie behind those that were known
  have hmove : ∀ {held' freed' : List Nat} {count : Nat},
      (held' ++ freed').Perm (s.freed ++ List.range' s.nextBuffer count) →
      (held' ++ (held (eraseAt a s.models) ++ freed')).Perm
        (List.range (s.nextBuffer + count)) := by
    intro held' freed' count hperm
    have hrange : List.range (s.nextBuffer + count) =
        List.range s.nextBuffer ++ List.range' s.nextBuffer count := by
      rw [List.range_eq_range', List.range_eq_range', ← List.range'_append_1, Nat.zero_add]
    rw [hrange]
    calc (held' ++ (held (eraseAt a s.models) ++ freed')).Perm
          (held (eraseAt a s.models) ++ (held' ++ freed')) := by
            rw [← List.append_assoc, ← List.append_assoc]
            exact List.perm_append_comm.append_right _
      _ |>.Perm (held (eraseAt a s.models) ++ (s.freed ++ List.range' s.nextBuffer count)) :=
            hperm.append_left _
      _ |>.Perm (List.range s.nextBuffer ++ List.range' s.nextBuffer count) := by
            rw [← List.append_assoc]
            exact hconserved.append_right _
  unfold loadModel
  rw [hlookup]
  simp only
  split
  · exact .inl ⟨_, rfl⟩
  split
  · exact .inl ⟨_, rfl⟩
  split
  · exact .inl ⟨_, rfl⟩
  split
  · exact .inl ⟨_, rfl⟩
  right
  have hstart : Conserved s.freed s.nextBuffer ⟨m.weights, s.nextBuffer, s.freed, .empty⟩ := by
    refine ⟨0, rfl, ?_⟩
    rw [hempty]
    simp
  cases hload : loadTensors fault provider.tensors
      ⟨m.weights, s.nextBuffer, s.freed, .empty⟩ with
  | ok info loading =>
    obtain ⟨⟨count, hnext, hperm⟩, hloaded, hweights⟩ := (loadTensors_spec _).ok hstart hload
    refine .inr ⟨info, _, loading.weights, loading.nextBuffer, loading.freed, rfl, rfl, hloaded,
      hweights, ?_⟩
    rw [hnext]
    exact hmove hperm
  | error message loading =>
    obtain ⟨count, hnext, hperm⟩ := (loadTensors_spec _).error hstart hload
    refine .inl ⟨message, cleared ∘ fun m => { m with weights := loading.weights },
      loading.nextBuffer, loading.freed ++ loading.weights.map fun t => t.2.buffer, ?_, rfl, ?_⟩
    · have hassoc : assoc (modifyAt a (fun m : Model => { m with weights := loading.weights })
          s.models) a = some { m with weights := loading.weights } := by
        rw [assoc_modifyAt, if_pos rfl, hm]
        rfl
      simp only [clearModelWeights, hassoc, modifyAt_modifyAt]
      rfl
    · rw [hnext]
      refine List.Perm.trans ?_ (hmove hperm)
      rw [← List.append_assoc]
      exact List.perm_append_comm

/-- Numbers are used up, and nothing else. -/
theorem changed_numbers {s : State} (hs : Inv (fun _ => 0) s) {a : Nat} {m : Model}
    (hm : assoc s.models a = some m) {nextModel nextContext : Nat}
    (hmodel : s.nextModel ≤ nextModel) (hcontext : s.nextContext ≤ nextContext) :
    Changed s a m m { s with nextModel := nextModel, nextContext := nextContext } where
  models := ⟨id, by
    show s.models = modifyAt a id s.models
    unfold modifyAt
    conv_lhs => rw [← List.map_id s.models]
    exact List.map_congr_left fun p _ => by simp, rfl⟩
  contexts := rfl
  handles := rfl
  sessions := rfl
  nextModel := hmodel
  nextContext := hcontext
  conserved := ((held_perm hs.modelKeys hm).append_right _).symm.trans hs.conserved

/-- A model in the tables has a reference. -/
theorem Inv.referenced {s : State} (hs : Inv (fun _ => 0) s) {a : Nat} {m : Model}
    (hm : assoc s.models a = some m) : 1 ≤ m.referenceCount := by
  rw [hs.counted a m hm]
  exact (hs.live a).mp (assoc_isSome.mp (by rw [hm]; rfl))

/-- A temporary context of `a` through which the model changes to `f m`, and its release. -/
theorem changed_temporary {s : State} (hs : Inv (fun _ => 0) s) {a : Nat} {m : Model}
    (hm : assoc s.models a = some m) (f : Model → Model)
    (hf : (f (attach false m)).referenceCount = m.referenceCount + 1) {nextBuffer : Nat}
    {freed : List Nat}
    (hconserved : (buffers (f (attach false m)) ++ held (eraseAt a s.models) ++ freed).Perm
      (List.range nextBuffer)) :
    Changed s a m (f (attach false m)).release (releaseContext s.nextContext { s with
      models := modifyAt a f (modifyAt a (attach false) s.models)
      contexts := (s.nextContext, ⟨a, false⟩) :: s.contexts
      nextModel := s.nextModel + 1
      nextContext := s.nextContext + 1
      nextBuffer := nextBuffer
      freed := freed }) := by
  have hassoc : assoc (modifyAt a f (modifyAt a (attach false) s.models)) a =
      some (f (attach false m)) := by
    rw [modifyAt_modifyAt, assoc_modifyAt, if_pos rfl, hm]
    rfl
  -- the model has another reference, so the temporary one does not delete it
  have hmore : (f (attach false m)).referenceCount ≠ 1 := by
    have hreferenced := hs.referenced hm
    omega
  -- only the numbers that were used up remain
  rw [releaseContext_temporary rfl hs.numbered.contexts hassoc hmore]
  exact {
    models := ⟨Model.release ∘ f ∘ attach false, by simp only [modifyAt_modifyAt], rfl⟩
    contexts := rfl
    handles := rfl
    sessions := rfl
    nextModel := Nat.le_succ _
    nextContext := Nat.le_succ _
    conserved := hconserved }

/-- **A load** of a known model: it fails and leaves the model as it was, or fills it. -/
theorem sharedModelLoad_cases {s : State} (hs : Inv (fun _ => 0) s) {a : Nat} {m : Model}
    (hm : assoc s.models a = some m) {provider : WeightProvider}
    {createFault : Option CreateFault} {fault : Option (LoadPoint × String)} {answer : Answer}
    {s' : State} (h : sharedModelLoad a m provider createFault fault s = (answer, s')) :
    (∃ message, answer = .failed message ∧ Changed s a m m s' ∧
      (m.modelInfo.loaded = true ∨
        m.weights = [] ∧ m.modelInfo = .empty ∧ m.warmupCompleted = false)) ∨
    ∃ info weights, answer = .loaded info ∧ m.modelInfo.loaded = false ∧ bound s a = 0 ∧
      info.loaded = true ∧ weights ≠ [] ∧
      Changed s a m { m with weights := weights, modelInfo := info } s' := by
  have hkind : m.modelInfo.loaded = true ∨
      m.weights = [] ∧ m.modelInfo = .empty ∧ m.warmupCompleted = false := by
    cases hloaded : m.modelInfo.loaded with
    | true => exact .inl rfl
    | false => exact .inr (hs.unloaded a m hm hloaded)
  have hself := changed_numbers hs hm (Nat.le_refl _) (Nat.le_refl _)
  unfold sharedModelLoad at h
  split at h
  · cases h
    exact .inl ⟨_, rfl, hself, hkind⟩
  rename_i hactive
  split at h
  · cases h
    exact .inl ⟨_, rfl, hself, hkind⟩
  rename_i hload
  obtain ⟨hloaded, hweights⟩ := not_or.mp hload
  have hloaded : m.modelInfo.loaded = false := by simpa using hloaded
  have hweights : m.weights = [] := not_not.mp hweights
  have hbound : bound s a = 0 := by
    rw [← hs.active a m hm]
    exact not_not.mp hactive
  cases createFault with
  | some createFault =>
    obtain ⟨message, nextModel, nextContext, hmodel, hcontext, hcreate⟩ :=
      createBoundContext_error hs.numbered a false createFault
    rw [hcreate] at h
    cases h
    exact .inl ⟨message, rfl, changed_numbers hs hm hmodel hcontext, hkind⟩
  | none =>
    rw [createBoundContext_ok hs.numbered] at h
    simp only at h
    have hbuffers : buffers m = [] := by rw [buffers, hweights, List.map_nil]
    have hothers : (held (eraseAt a s.models) ++ s.freed).Perm (List.range s.nextBuffer) := by
      have hperm := ((held_perm hs.modelKeys hm).append_right s.freed).symm.trans hs.conserved
      rwa [hbuffers, List.nil_append] at hperm
    have hcases := @loadModel_cases { s with
      models := modifyAt a (attach false) s.models
      contexts := (s.nextContext, ⟨a, false⟩) :: s.contexts
      nextModel := s.nextModel + 1
      nextContext := s.nextContext + 1 } s.nextContext a (attach false m) provider fault
      (if_pos rfl) (by rw [assoc_modifyAt, if_pos rfl, hm]; rfl) hweights
      (by rw [eraseAt_modifyAt]; exact hothers)
    rw [eraseAt_modifyAt] at hcases
    rcases hcases with ⟨message, heq⟩ | ⟨message, f, nextBuffer, freed, heq, hf, hperm⟩ |
      ⟨info, f, weights, nextBuffer, freed, heq, hf, hinfo, hnew, hperm⟩
    · rw [heq] at h
      cases h
      refine .inl ⟨message, rfl, ?_, hkind⟩
      have hid : modifyAt a id (modifyAt a (attach false) s.models) =
          modifyAt a (attach false) s.models := by
        rw [modifyAt_modifyAt]
        rfl
      have hchanged := @changed_temporary s hs a m hm id rfl s.nextBuffer s.freed (by
        show (buffers m ++ _ ++ _).Perm _
        rwa [hbuffers, List.nil_append])
      rw [hid] at hchanged
      exact hchanged
    · rw [heq] at h
      cases h
      refine .inl ⟨message, rfl, ?_, hkind⟩
      have hchanged := @changed_temporary s hs a m hm f (by rw [hf]; rfl) nextBuffer freed (by
        rw [hf]
        exact hperm)
      -- the cleared model is the one that was empty before
      have hsame : (f (attach false m)).release = m := by
        rcases hkind with hkind | ⟨-, hinfo, hwarm⟩
        · rw [hloaded] at hkind
          cases hkind
        · rw [hf]
          show ({ m with weights := [], modelInfo := .empty, warmupCompleted := false } : Model) = m
          rw [← hweights, ← hinfo, ← hwarm]
      rw [hsame] at hchanged
      exact hchanged
    · rw [heq] at h
      cases h
      refine .inr ⟨info, weights, rfl, hloaded, hbound, hinfo, hnew, ?_⟩
      have hchanged := @changed_temporary s hs a m hm f (by rw [hf]; rfl) nextBuffer freed (by
        rw [hf, List.append_assoc]
        exact hperm)
      rw [hf] at hchanged
      exact hchanged

/-- **A warmup** sets the flag of a loaded model, or leaves the model as it was. -/
theorem sharedModelWarmup_cases {s : State} (hs : Inv (fun _ => 0) s) {a : Nat} {m : Model}
    (hm : assoc s.models a = some m) {createFault : Option CreateFault} {fault : Option String}
    {answer : Answer} {s' : State}
    (h : sharedModelWarmup a m createFault fault s = (answer, s')) :
    Changed s a m m s' ∨ answer = .done ∧ m.modelInfo.loaded = true ∧
      Changed s a m { m with warmupCompleted := true } s' := by
  have hself := changed_numbers hs hm (Nat.le_refl _) (Nat.le_refl _)
  unfold sharedModelWarmup at h
  -- the calls that are refused before a context is made
  split at h
  · cases h
    exact .inl hself
  rename_i hloaded
  have hloaded : m.modelInfo.loaded = true := by simpa using hloaded
  split at h
  · cases h
    exact .inl hself
  split at h
  · cases h
    exact .inl hself
  -- the temporary context, which may not come into being
  cases createFault with
  | some createFault =>
    obtain ⟨message, nextModel, nextContext, hmodel, hcontext, hcreate⟩ :=
      createBoundContext_error hs.numbered a false createFault
    rw [hcreate] at h
    cases h
    exact .inl (changed_numbers hs hm hmodel hcontext)
  | none =>
    rw [createBoundContext_ok hs.numbered] at h
    simp only at h
    have hid : modifyAt a id (modifyAt a (attach false) s.models) =
        modifyAt a (attach false) s.models := by
      rw [modifyAt_modifyAt]
      rfl
    have hchanged := @changed_temporary s hs a m hm id rfl s.nextBuffer s.freed
      (((held_perm hs.modelKeys hm).append_right s.freed).symm.trans hs.conserved)
    rw [hid] at hchanged
    -- and the warmup itself: only a success sets the flag
    cases fault with
    | some message =>
      cases h
      exact .inl hchanged
    | none =>
      cases h
      refine .inr ⟨rfl, hloaded, ?_⟩
      obtain ⟨f, hmodels, hf⟩ := hchanged.models
      exact {
        models := ⟨(fun m : Model => { m with warmupCompleted := true }) ∘ f,
          (congrArg (modifyAt a fun m : Model => { m with warmupCompleted := true }) hmodels).trans
            (modifyAt_modifyAt _),
          congrArg (fun m : Model => { m with warmupCompleted := true }) hf⟩
        contexts := hchanged.contexts
        handles := hchanged.handles
        sessions := hchanged.sessions
        nextModel := hchanged.nextModel
        nextContext := hchanged.nextContext
        conserved := hchanged.conserved }

/-! ## Handles and sessions -/

/-- The new handle is the one reference of the new model. -/
theorem inv_modelCreate {s : State} (hs : Inv (fun _ => 0) s) :
    Inv (fun _ => 0) { (allocateModel s).2 with handles := s.nextModel :: s.handles } := by
  have hfresh := hs.numbered.models
  -- the number is new, so nothing refers to it
  have hzero : references s s.nextModel = 0 := by
    have hnot := mt (hs.live s.nextModel).mpr hfresh
    omega
  have hcount : ∀ b, references { (allocateModel s).2 with handles := s.nextModel :: s.handles } b =
      references s b + if b = s.nextModel then 1 else 0 := by
    intro b
    show (s.nextModel :: s.handles).count b + bound s b = s.handles.count b + bound s b + _
    rw [List.count_cons]
    by_cases hb : b = s.nextModel
    · rw [if_pos hb, if_pos (by simp [hb])]
      omega
    · rw [if_neg hb, if_neg (by simpa using Ne.symm hb)]
      omega
  have hassoc : ∀ b v, assoc ((s.nextModel, Model.new) :: s.models) b = some v →
      b = s.nextModel ∧ v = .new ∨ b ≠ s.nextModel ∧ assoc s.models b = some v := by
    intro b v hv
    unfold assoc at hv
    split at hv
    · exact .inl ⟨‹_›, (Option.some.inj hv).symm⟩
    · exact .inr ⟨‹_›, hv⟩
  have hbound : bound s s.nextModel = 0 := by
    unfold references at hzero
    omega
  exact {
    modelKeys := List.nodup_cons.mpr ⟨hfresh, hs.modelKeys⟩
    contextKeys := hs.contextKeys
    handleKeys := by
      refine List.nodup_cons.mpr ⟨fun hmem => ?_, hs.handleKeys⟩
      have hpos := List.count_pos_iff.mpr hmem
      unfold references at hzero
      omega
    modelFresh := by
      intro b hb
      rcases List.mem_cons.mp hb with rfl | hb
      · exact Nat.lt_succ_self _
      · exact Nat.lt_succ_of_lt (hs.modelFresh b hb)
    contextFresh := hs.contextFresh
    live := fun b => by
      rw [hcount]
      show b ∈ s.nextModel :: keys s.models ↔ _
      rw [List.mem_cons, hs.live b]
      by_cases hb : b = s.nextModel
      · simp [hb]
      · simp [hb]
    counted := fun b v hv => by
      rw [hcount]
      rcases hassoc b v hv with ⟨rfl, rfl⟩ | ⟨hb, hv⟩
      · rw [hzero, if_pos rfl]
        rfl
      · rw [if_neg hb]
        exact hs.counted b v hv
    active := fun b v hv => by
      show v.activeSessionCount = bound s b
      rcases hassoc b v hv with ⟨rfl, rfl⟩ | ⟨-, hv⟩
      · rw [hbound]
        rfl
      · exact hs.active b v hv
    sessions := hs.sessions
    flagged := hs.flagged
    -- no context is bound to a model that is only now created
    ready := fun c hc v hv => by
      rcases hassoc _ v hv with ⟨hb, -⟩ | ⟨-, hv⟩
      · have hnil := List.length_eq_zero_iff.mp hbound
        exact absurd (by simpa using hb) (List.filter_eq_nil_iff.mp hnil c hc)
      · exact hs.ready c hc v hv
    unloaded := fun b v hv => by
      rcases hassoc b v hv with ⟨-, rfl⟩ | ⟨-, hv⟩
      · exact fun _ => ⟨rfl, rfl, rfl⟩
      · exact hs.unloaded b v hv
    conserved := hs.conserved }

/-- The session is the one context of its own and one more reference to its model. -/
theorem inv_sessionCreate {s : State} (hs : Inv (fun _ => 0) s) {a : Nat} {m : Model}
    (hm : assoc s.models a = some m) (hready : m.modelInfo.loaded = true ∧
      m.warmupCompleted = true) :
    Inv (fun _ => 0) { s with
      models := modifyAt a (attach true) s.models
      contexts := (s.nextContext, ⟨a, true⟩) :: s.contexts
      sessions := s.nextContext :: s.sessions
      nextModel := s.nextModel + 1
      nextContext := s.nextContext + 1 } := by
  -- one more context is bound to the model, which is counted twice: as a reference and as a session
  have hbound : ∀ b, bound { s with contexts := (s.nextContext, ⟨a, true⟩) :: s.contexts } b =
      bound s b + if b = a then 1 else 0 := by
    intro b
    unfold bound
    by_cases hb : b = a
    · rw [List.filter_cons_of_pos (by simp [hb]), List.length_cons, if_pos hb]
    · rw [List.filter_cons_of_neg (by simpa using Ne.symm hb), if_neg hb, Nat.add_zero]
  have hassoc : ∀ b v, assoc (modifyAt a (attach true) s.models) b = some v →
      b = a ∧ v = attach true m ∨ b ≠ a ∧ assoc s.models b = some v := by
    intro b v hv
    rw [assoc_modifyAt] at hv
    split at hv
    · rename_i hb
      rw [hb, hm] at hv
      exact .inl ⟨hb, (Option.some.inj hv).symm⟩
    · exact .inr ⟨‹_›, hv⟩
  exact {
    modelKeys := by
      show (keys (modifyAt a (attach true) s.models)).Nodup
      rw [keys_modifyAt]
      exact hs.modelKeys
    contextKeys := List.nodup_cons.mpr ⟨hs.numbered.contexts, hs.contextKeys⟩
    handleKeys := hs.handleKeys
    modelFresh := fun b hb => Nat.lt_succ_of_lt (hs.modelFresh b (by
      rw [← @keys_modifyAt _ _ _ a (attach true)]
      exact hb))
    contextFresh := by
      intro c hc
      rcases List.mem_cons.mp hc with rfl | hc
      · exact Nat.lt_succ_self _
      · exact Nat.lt_succ_of_lt (hs.contextFresh c hc)
    live := fun b => by
      show b ∈ keys (modifyAt a (attach true) s.models) ↔ 1 ≤ s.handles.count b +
        bound { s with contexts := (s.nextContext, ⟨a, true⟩) :: s.contexts } b + 0
      rw [keys_modifyAt, hbound, hs.live b]
      unfold references
      by_cases hb : b = a
      · have hlive := (hs.live a).mp (assoc_isSome.mp (by rw [hm]; rfl))
        unfold references at hlive
        rw [hb, if_pos rfl]
        omega
      · rw [if_neg hb]
        omega
    counted := fun b v hv => by
      show v.referenceCount = s.handles.count b +
        bound { s with contexts := (s.nextContext, ⟨a, true⟩) :: s.contexts } b + 0
      rw [hbound]
      rcases hassoc b v hv with ⟨rfl, rfl⟩ | ⟨hb, hv⟩
      · have hcounted := hs.counted b m hm
        unfold references at hcounted
        rw [if_pos rfl]
        show m.referenceCount + 1 = _
        omega
      · have hcounted := hs.counted b v hv
        unfold references at hcounted
        rw [if_neg hb]
        omega
    active := fun b v hv => by
      show v.activeSessionCount =
        bound { s with contexts := (s.nextContext, ⟨a, true⟩) :: s.contexts } b
      rw [hbound]
      rcases hassoc b v hv with ⟨rfl, rfl⟩ | ⟨hb, hv⟩
      · rw [if_pos rfl, ← hs.active b m hm]
        rfl
      · rw [if_neg hb]
        exact hs.active b v hv
    sessions := hs.sessions.cons _
    flagged := List.forall_mem_cons.mpr ⟨rfl, hs.flagged⟩
    ready := fun c hc v hv => by
      rcases List.mem_cons.mp hc with rfl | hc
      · rcases hassoc _ v hv with ⟨-, rfl⟩ | ⟨hb, -⟩
        · exact hready
        · exact absurd rfl hb
      · rcases hassoc _ v hv with ⟨-, rfl⟩ | ⟨-, hv⟩
        · exact hready
        · exact hs.ready c hc v hv
    unloaded := fun b v hv => by
      rcases hassoc b v hv with ⟨-, rfl⟩ | ⟨-, hv⟩
      · exact hs.unloaded a m hm
      · exact hs.unloaded b v hv
    conserved := by
      show (held (modifyAt a (attach true) s.models) ++ s.freed).Perm _
      rw [@held_same s.models a (attach true) fun _ => rfl]
      exact hs.conserved }

/-- A handle that is given up. -/
theorem inv_modelDestroy {s : State} (hs : Inv (fun _ => 0) s) {a : Nat} (ha : a ∈ s.handles) :
    Inv (pending a) { s with handles := s.handles.erase a } := by
  -- the reference leaves the handles and is pending
  have hcount : ∀ b, references { s with handles := s.handles.erase a } b + pending a b =
      references s b + 0 := by
    intro b
    show (s.handles.erase a).count b + bound s b + pending a b = s.handles.count b + bound s b + 0
    unfold pending
    by_cases hb : b = a
    · have hpos := List.count_pos_iff.mpr ha
      rw [hb, List.count_erase_self, if_pos rfl]
      omega
    · rw [List.count_erase_of_ne hb, if_neg hb]
  exact {
    modelKeys := hs.modelKeys
    contextKeys := hs.contextKeys
    handleKeys := hs.handleKeys.erase a
    modelFresh := hs.modelFresh
    contextFresh := hs.contextFresh
    live := fun b => by
      rw [hcount]
      exact hs.live b
    counted := fun b v hv => by
      rw [hcount]
      exact hs.counted b v hv
    active := hs.active
    sessions := hs.sessions
    flagged := hs.flagged
    ready := hs.ready
    unloaded := hs.unloaded
    conserved := hs.conserved }

/-- A session that is given up, before its reference is released. -/
theorem inv_sessionDestroy {s : State} (hs : Inv (fun _ => 0) s) {c a : Nat}
    (hc : assoc s.contexts c = some ⟨a, true⟩) :
    Inv (pending a) { s with
      models := modifyAt a Model.leave s.models
      contexts := eraseAt c s.contexts
      sessions := s.sessions.erase c } := by
  have hperm := perm_eraseAt hs.contextKeys hc
  -- the reference leaves the contexts and is pending
  have hbound : ∀ b, bound { s with contexts := eraseAt c s.contexts } b + pending a b =
      bound s b := by
    intro b
    unfold bound pending
    rw [(hperm.filter _).length_eq]
    by_cases hb : b = a
    · rw [List.filter_cons_of_pos (by simp [hb]), List.length_cons, if_pos hb]
    · rw [List.filter_cons_of_neg (by simpa using Ne.symm hb), if_neg hb, Nat.add_zero]
  have hassoc : ∀ b v, assoc (modifyAt a Model.leave s.models) b = some v →
      ∃ w, assoc s.models b = some w ∧ v = if b = a then w.leave else w := by
    intro b v hv
    rw [assoc_modifyAt] at hv
    split at hv
    · rename_i hb
      obtain ⟨w, hw, rfl⟩ := Option.map_eq_some_iff.mp hv
      exact ⟨w, hw, (if_pos hb).symm⟩
    · rename_i hb
      exact ⟨v, hv, (if_neg hb).symm⟩
  exact {
    modelKeys := by
      show (keys (modifyAt a Model.leave s.models)).Nodup
      rw [keys_modifyAt]
      exact hs.modelKeys
    contextKeys := keys_eraseAt_sublist.nodup hs.contextKeys
    handleKeys := hs.handleKeys
    modelFresh := fun b hb => hs.modelFresh b (by
      rw [← @keys_modifyAt _ _ _ a Model.leave]
      exact hb)
    contextFresh := fun b hb => hs.contextFresh b (keys_eraseAt_sublist.subset hb)
    live := fun b => by
      show b ∈ keys (modifyAt a Model.leave s.models) ↔ 1 ≤ s.handles.count b +
        bound { s with contexts := eraseAt c s.contexts } b + pending a b
      rw [keys_modifyAt, hs.live b, Nat.add_assoc, hbound]
      rfl
    counted := fun b v hv => by
      obtain ⟨w, hw, rfl⟩ := hassoc b v hv
      show _ = s.handles.count b + bound { s with contexts := eraseAt c s.contexts } b +
        pending a b
      rw [Nat.add_assoc, hbound]
      have hcounted : w.referenceCount = s.handles.count b + bound s b := hs.counted b w hw
      split
      · exact hcounted
      · exact hcounted
    -- `leave` counts the session out before the reference goes
    active := fun b v hv => by
      obtain ⟨w, hw, rfl⟩ := hassoc b v hv
      show _ = bound { s with contexts := eraseAt c s.contexts } b
      have hactive := hs.active b w hw
      have hleft := hbound b
      unfold pending at hleft
      split at hleft
      · rename_i hb
        rw [if_pos hb]
        show w.activeSessionCount - 1 = _
        omega
      · rename_i hb
        rw [if_neg hb, hactive]
        exact hleft.symm
    sessions := by
      have hkeys : (keys s.contexts).Perm (c :: keys (eraseAt c s.contexts)) := keys_perm hperm
      have herase := (hkeys.symm.trans hs.sessions).erase c
      rwa [List.erase_cons_head] at herase
    flagged := fun p hp => hs.flagged p (List.mem_of_mem_filter hp)
    ready := fun p hp v hv => by
      obtain ⟨w, hw, rfl⟩ := hassoc _ v hv
      have hready := hs.ready p (List.mem_of_mem_filter hp) w hw
      split
      · exact hready
      · exact hready
    unloaded := fun b v hv => by
      obtain ⟨w, hw, rfl⟩ := hassoc b v hv
      have hunloaded := hs.unloaded b w hw
      split
      · exact hunloaded
      · exact hunloaded
    conserved := by
      show (held (modifyAt a Model.leave s.models) ++ s.freed).Perm _
      rw [@held_same s.models a Model.leave fun _ => rfl]
      exact hs.conserved }

/-! ## Calls and runs -/

/-- What a call keeps of the models it does not load or warm up. -/
structure Kept (s s' : State) : Prop where
  forward : ∀ b m, assoc s.models b = some m →
    (∃ m', assoc s'.models b = some m' ∧ m'.weights = m.weights ∧ m'.modelInfo = m.modelInfo) ∨
      assoc s'.models b = none ∧ ∀ x ∈ buffers m, x ∈ s'.freed
  backward : ∀ b m', assoc s'.models b = some m' →
    (∃ m, assoc s.models b = some m ∧ m'.modelInfo = m.modelInfo ∧
      m'.warmupCompleted = m.warmupCompleted) ∨
      m'.modelInfo.loaded = false ∧ m'.warmupCompleted = false

/-- A call that keeps every model loads none. -/
theorem Kept.sound {s s' : State} (h : Kept s s') {c : Call} {answer : Answer}
    (hload : ∀ a provider createFault fault, c ≠ .modelLoad a provider createFault fault) :
    Sound s c answer s' where
  weights a m hm _ := h.forward a m hm
  loads a m' hm' hloaded := by
    rcases h.backward a m' hm' with ⟨m, hm, hinfo, -⟩ | ⟨hnot, -⟩
    · exact .inl ⟨m, hm, hinfo ▸ hloaded⟩
    · rw [hloaded] at hnot
      cases hnot
  warms a m' hm' hwarm := by
    rcases h.backward a m' hm' with ⟨m, hm, -, hsame⟩ | ⟨-, hnot⟩
    · exact .inl ⟨m, hm, hsame ▸ hwarm⟩
    · rw [hwarm] at hnot
      cases hnot
  failed a provider createFault fault _ heq := absurd heq (hload a provider createFault fault)

/-- A call that is refused. -/
theorem kept_refl (s : State) : Kept s s where
  forward _ m hm := .inl ⟨m, hm, rfl, rfl⟩
  backward _ m hm := .inl ⟨m, hm, rfl, rfl⟩

/-- A release keeps every other model, and frees what its own held when it is the last one. -/
theorem kept_release {s t : State} {a : Nat}
    (hmodels : ∀ b, ∃ f : Model → Model, assoc t.models b = (assoc s.models b).map f ∧
      ∀ m, (f m).weights = m.weights ∧ (f m).modelInfo = m.modelInfo ∧
        (f m).warmupCompleted = m.warmupCompleted) : Kept s (releaseModelReference a t) := by
  cases ht : assoc t.models a with
  | none =>
    have hsame : releaseModelReference a t = t := by
      unfold releaseModelReference
      rw [ht]
    rw [hsame]
    constructor
    · intro b m hm
      obtain ⟨f, hb, hf⟩ := hmodels b
      rw [hm] at hb
      exact .inl ⟨f m, hb, (hf m).1, (hf m).2.1⟩
    · intro b m' hm'
      obtain ⟨f, hb, hf⟩ := hmodels b
      rw [hm'] at hb
      obtain ⟨m, hm, rfl⟩ := Option.map_eq_some_iff.mp hb.symm
      exact .inl ⟨m, hm, (hf m).2⟩
  | some n =>
    -- the last reference deletes the model, any other one counts down
    by_cases hone : n.referenceCount = 1
    · rw [releaseModelReference_last ht hone]
      constructor
      · intro b m hm
        obtain ⟨f, hb, hf⟩ := hmodels b
        rw [hm] at hb
        by_cases hba : b = a
        · -- the deleted model: its weights are among the freed buffers
          refine .inr ⟨by rw [assoc_eraseAt, if_pos hba], fun x hx => ?_⟩
          rw [hba, ht] at hb
          obtain rfl := Option.some.inj hb
          refine List.mem_append_right _ ?_
          rw [buffers, (hf m).1]
          exact hx
        · exact .inl ⟨f m, by rw [assoc_eraseAt, if_neg hba, hb]; rfl, (hf m).1, (hf m).2.1⟩
      · intro b m' hm'
        obtain ⟨f, hb, hf⟩ := hmodels b
        rw [assoc_eraseAt] at hm'
        split at hm'
        · cases hm'
        · rw [hm'] at hb
          obtain ⟨m, hm, rfl⟩ := Option.map_eq_some_iff.mp hb.symm
          exact .inl ⟨m, hm, (hf m).2⟩
    · rw [releaseModelReference_shared ht hone]
      have hassoc : ∀ b, assoc (modifyAt a Model.release t.models) b =
          (assoc t.models b).map fun m => if b = a then m.release else m := by
        intro b
        rw [assoc_modifyAt]
        by_cases hba : b = a
        · simp only [if_pos hba]
        · simp only [if_neg hba]
          exact Option.map_id'.symm
      constructor
      · intro b m hm
        obtain ⟨f, hb, hf⟩ := hmodels b
        rw [hm] at hb
        refine .inl ⟨if b = a then (f m).release else f m, by rw [hassoc, hb]; rfl, ?_⟩
        split
        · exact ⟨(hf m).1, (hf m).2.1⟩
        · exact ⟨(hf m).1, (hf m).2.1⟩
      · intro b m' hm'
        obtain ⟨f, hb, hf⟩ := hmodels b
        rw [hassoc, hb, Option.map_map] at hm'
        obtain ⟨m, hm, rfl⟩ := Option.map_eq_some_iff.mp hm'
        refine .inl ⟨m, hm, ?_⟩
        show (if b = a then (f m).release else f m).modelInfo = _ ∧
          (if b = a then (f m).release else f m).warmupCompleted = _
        split
        · exact (hf m).2
        · exact (hf m).2

/-- **One call keeps the invariant**, and changes of the models only what it is for. -/
theorem inv_call {s s' : State} (hs : Inv (fun _ => 0) s) {c : Call} {answer : Answer}
    (h : call s c = some (answer, s')) : Inv (fun _ => 0) s' ∧ Sound s c answer s' := by
  -- a call on a model that changes it from `m` to `m'`
  have hchange : ∀ {a m m'}, assoc s.models a = some m → Changed s a m m' s' →
      ∀ b, assoc s'.models b = if b = a then some m' else assoc s.models b :=
    fun hm hchanged b => hchanged.assoc hm b
  have hsame : ∀ {a m}, assoc s.models a = some m → Changed s a m m s' →
      ∀ b, assoc s'.models b = assoc s.models b := by
    intro a m hm hchanged b
    rw [hchange hm hchanged]
    split
    · rename_i hb
      rw [hb, hm]
    · rfl
  have hkept : ∀ {a m}, assoc s.models a = some m → Changed s a m m s' → Kept s s' := by
    intro a m hm hchanged
    have hall := hsame hm hchanged
    exact ⟨fun b v hv => .inl ⟨v, by rw [hall, hv], rfl, rfl⟩,
      fun b v hv => .inl ⟨v, by rw [← hall, hv], rfl, rfl⟩⟩
  have hinv : ∀ {a m}, assoc s.models a = some m → Changed s a m m s' → Inv (fun _ => 0) s' := by
    intro a m hm hchanged
    refine inv_changed hs hm hchanged rfl rfl ?_ (hs.unloaded a m hm)
    by_cases hbound : bound s a = 0
    · exact .inl hbound
    · obtain ⟨p, hp⟩ := List.exists_mem_of_length_pos (Nat.pos_of_ne_zero hbound)
      obtain ⟨hmem, heq⟩ := List.mem_filter.mp hp
      have heq : p.2.model = a := by simpa using heq
      exact .inr (hs.ready p hmem m (heq ▸ hm))
  cases c with
  | modelCreate fault =>
    cases fault with
    | some message =>
      cases h
      exact ⟨hs, (kept_refl s).sound fun _ _ _ _ hc => by cases hc⟩
    | none =>
      cases h
      refine ⟨inv_modelCreate hs, Kept.sound ⟨fun b m hm => ?_, fun b v hv => ?_⟩
        fun _ _ _ _ hc => by cases hc⟩
      · refine .inl ⟨m, ?_, rfl, rfl⟩
        have hne : b ≠ s.nextModel := by
          rintro rfl
          exact hs.numbered.models (assoc_isSome.mp (by rw [hm]; rfl))
        exact (if_neg hne).trans hm
      · replace hv : (if b = s.nextModel then some Model.new else assoc s.models b) = some v := hv
        split at hv
        · cases hv
          exact .inr ⟨rfl, rfl⟩
        · exact .inl ⟨v, hv, rfl, rfl⟩
  | modelLoad a provider createFault fault =>
    obtain ⟨-, h⟩ := Option.ite_none_right_eq_some.mp h
    obtain ⟨m, hm, hload⟩ := Option.map_eq_some_iff.mp h
    rcases sharedModelLoad_cases hs hm hload with ⟨message, rfl, hchanged, hkind⟩ |
      ⟨info, weights, rfl, hloaded, hbound, hinfo, hweights, hchanged⟩
    · have hsound := @Kept.sound s s' (hkept hm hchanged) (.modelWarmup a none none)
        (.failed message) fun _ _ _ _ hc => by cases hc
      refine ⟨hinv hm hchanged, hsound.weights, fun b v hv hl => ?_, fun b v hv hw => ?_,
        fun b _ _ _ _ heq _ => ?_⟩
      · rcases hsound.loads b v hv hl with hl | ⟨_, _, _, hc, -⟩
        · exact .inl hl
        · cases hc
      · rcases hsound.warms b v hv hw with hw | ⟨_, _, -, ha⟩
        · exact .inl hw
        · cases ha
      · cases heq
        refine ⟨hsame hm hchanged a, fun n hn => ?_⟩
        rw [hm] at hn
        cases hn
        exact hkind
    · have hall := hchange hm hchanged
      refine ⟨inv_changed hs hm hchanged rfl rfl (.inl hbound) (fun hnot => ?_),
        fun b n hn hl => ?_, fun b n hn hl => ?_, fun b n hn hw => ?_,
        fun _ _ _ _ _ _ hfail => by cases hfail⟩
      · rw [hinfo] at hnot
        cases hnot
      · by_cases hb : b = a
        · rw [hb, hm] at hn
          cases hn
          rw [hloaded] at hl
          cases hl
        · exact .inl ⟨n, by rw [hall, if_neg hb, hn], rfl, rfl⟩
      · rw [hall] at hn
        split at hn
        · rename_i hb
          cases hn
          exact .inr ⟨provider, createFault, fault, by rw [hb], rfl⟩
        · exact .inl ⟨n, hn, hl⟩
      · rw [hall] at hn
        split at hn
        · rename_i hb
          cases hn
          exact .inl ⟨m, by rw [hb, hm], hw⟩
        · exact .inl ⟨n, hn, hw⟩
  | modelWarmup a createFault fault =>
    obtain ⟨-, h⟩ := Option.ite_none_right_eq_some.mp h
    obtain ⟨m, hm, hwarmup⟩ := Option.map_eq_some_iff.mp h
    rcases sharedModelWarmup_cases hs hm hwarmup with hchanged | ⟨rfl, hloaded, hchanged⟩
    · exact ⟨hinv hm hchanged, (hkept hm hchanged).sound fun _ _ _ _ hc => by cases hc⟩
    · have hall := hchange hm hchanged
      refine ⟨inv_changed hs hm hchanged rfl rfl (.inr ⟨hloaded, rfl⟩) (fun hnot => ?_),
        fun b n hn _ => ?_, fun b n hn hl => ?_, fun b n hn hw => ?_,
        fun _ _ _ _ _ hc => by cases hc⟩
      · rw [hloaded] at hnot
        cases hnot
      · by_cases hb : b = a
        · rw [hb, hm] at hn
          cases hn
          exact .inl ⟨{ m with warmupCompleted := true }, by rw [hall, if_pos hb], rfl, rfl⟩
        · exact .inl ⟨n, by rw [hall, if_neg hb, hn], rfl, rfl⟩
      · rw [hall] at hn
        split at hn
        · rename_i hb
          cases hn
          exact .inl ⟨m, by rw [hb, hm], hl⟩
        · exact .inl ⟨n, hn, hl⟩
      · rw [hall] at hn
        split at hn
        · rename_i hb
          exact .inr ⟨createFault, fault, by rw [hb], rfl⟩
        · exact .inl ⟨n, hn, hw⟩
  | modelDestroy a =>
    obtain ⟨ha, h⟩ := Option.ite_none_right_eq_some.mp h
    obtain ⟨m, hm, heq⟩ := Option.map_eq_some_iff.mp h
    cases heq
    have hkeeps : Kept s (releaseModelReference a { s with handles := s.handles.erase a }) :=
      kept_release fun _ => ⟨id, Option.map_id'.symm, fun _ => ⟨rfl, rfl, rfl⟩⟩
    exact ⟨inv_release (inv_modelDestroy hs ha), hkeeps.sound fun _ _ _ _ hc => by cases hc⟩
  | sessionCreate a createFault =>
    obtain ⟨-, h⟩ := Option.ite_none_right_eq_some.mp h
    obtain ⟨m, hm, hcreate⟩ := Option.map_eq_some_iff.mp h
    unfold sessionCreate at hcreate
    split at hcreate
    · cases hcreate
      exact ⟨hs, (kept_refl s).sound fun _ _ _ _ hc => by cases hc⟩
    rename_i hready
    obtain ⟨hloaded, hwarm⟩ := not_or.mp hready
    cases createFault with
    | some createFault =>
      obtain ⟨message, nextModel, nextContext, hmodel, hcontext, heq⟩ :=
        createBoundContext_error hs.numbered a true createFault
      rw [heq] at hcreate
      cases hcreate
      have hchanged := changed_numbers hs hm hmodel hcontext
      exact ⟨hinv hm hchanged, (hkept hm hchanged).sound fun _ _ _ _ hc => by cases hc⟩
    | none =>
      rw [createBoundContext_ok hs.numbered] at hcreate
      cases hcreate
      refine ⟨inv_sessionCreate hs hm ⟨by simpa using hloaded, by simpa using hwarm⟩,
        Kept.sound ⟨fun b n hn => ?_, fun b n hn => ?_⟩
          fun _ _ _ _ hc => by cases hc⟩
      · refine .inl ⟨if b = a then attach true n else n, ?_, ?_⟩
        · show assoc (modifyAt a (attach true) s.models) b = _
          rw [assoc_modifyAt, hn]
          split <;> rfl
        · split
          · exact ⟨rfl, rfl⟩
          · exact ⟨rfl, rfl⟩
      · replace hn : assoc (modifyAt a (attach true) s.models) b = some n := hn
        rw [assoc_modifyAt] at hn
        split at hn
        · obtain ⟨v, hv, rfl⟩ := Option.map_eq_some_iff.mp hn
          exact .inl ⟨v, hv, rfl, rfl⟩
        · exact .inl ⟨n, hn, rfl, rfl⟩
  | sessionDestroy c =>
    obtain ⟨hc, h⟩ := Option.ite_none_right_eq_some.mp h
    cases h
    have hkey : c ∈ keys s.contexts := hs.sessions.mem_iff.mpr hc
    obtain ⟨context, hcontext⟩ := Option.isSome_iff_exists.mp (assoc_isSome.mpr hkey)
    obtain ⟨a, counts⟩ := context
    obtain rfl : counts = true := hs.flagged _ (mem_of_assoc hcontext)
    rw [@releaseContext_eq { s with sessions := s.sessions.erase c } c ⟨a, true⟩ hcontext]
    refine ⟨inv_release (inv_sessionDestroy hs hcontext),
      (kept_release fun b => ?_ : Kept s _).sound fun _ _ _ _ hc => by cases hc⟩
    refine ⟨fun m => if b = a then m.leave else m, ?_, fun m => ?_⟩
    · show assoc (modifyAt a Model.leave s.models) b = _
      rw [assoc_modifyAt]
      by_cases hb : b = a
      · simp only [if_pos hb]
      · simp only [if_neg hb]
        exact Option.map_id'.symm
    · split
      · exact ⟨rfl, rfl, rfl⟩
      · exact ⟨rfl, rfl, rfl⟩

/-- The invariant in the words of the property. -/
theorem Inv.ok {s : State} (hs : Inv (fun _ => 0) s) : Ok s where
  references a m hm := by
    rw [hs.counted a m hm]
    show s.handles.count a + bound s a + 0 = _
    split
    · rename_i ha
      rw [List.count_eq_one_of_mem hs.handleKeys ha, Nat.add_zero]
    · rename_i ha
      rw [List.count_eq_zero_of_not_mem ha, Nat.add_zero]
  active a m hm := by
    rw [hs.active a m hm]
    -- the contexts are the sessions
    have hkeys : ((keys s.contexts).filter fun c =>
        (assoc s.contexts c).map Context.model = some a).length = liveSessions s a :=
      (hs.sessions.filter _).length_eq
    rw [← hkeys]
    unfold bound keys
    rw [List.filter_map, List.length_map]
    refine congrArg List.length (List.filter_congr fun p hp => ?_)
    have hassoc := assoc_of_mem hs.contextKeys (x := p.1) (v := p.2) hp
    simp [hassoc]
  alive a := by
    rw [assoc_isSome, hs.live a]
    show 1 ≤ s.handles.count a + bound s a + 0 ↔ _
    rw [← List.count_pos_iff]
    omega
  freedOnce := hs.conserved
  ready c hc := by
    have hkey : c ∈ keys s.contexts := hs.sessions.mem_iff.mpr hc
    obtain ⟨context, hcontext⟩ := Option.isSome_iff_exists.mp (assoc_isSome.mpr hkey)
    obtain ⟨a, counts⟩ := context
    have hmem := mem_of_assoc hcontext
    obtain rfl : counts = true := hs.flagged _ hmem
    have hbound : 0 < bound s a := List.length_pos_of_mem (List.mem_filter.mpr ⟨hmem, by simp⟩)
    have hlive : a ∈ keys s.models := (hs.live a).mpr (by unfold references; omega)
    obtain ⟨m, hm⟩ := Option.isSome_iff_exists.mp (assoc_isSome.mpr hlive)
    exact ⟨a, m, hcontext, hm, hs.ready _ hmem m hm⟩

/-! ## A complete model -/

/-- **What is complete loads.** A provider of 271 decoder tensors under different names, with views
that pass their checks and with the required ones among them, is accepted when nothing fails. -/
theorem loadTensors_complete {tensors : List (String × TensorView)}
    (hviews : ∀ t ∈ tensors, t.1.startsWith "decoder." = true ∧
      ∃ elements, checkView t.2 = .ok elements)
    (hnames : (keys tensors).Nodup) (hcount : tensors.length = 271)
    (hrequired : ∀ name ∈ requiredNames, name ∈ keys tensors) (nextBuffer : Nat)
    (freed : List Nat) :
    ∃ info loading, loadTensors none (tensors.map fun t => .tensor (some t.1) t.2)
      ⟨[], nextBuffer, freed, .empty⟩ = .ok info loading ∧ info.loaded = true := by
  let items := (tensors.map fun t => ProviderItem.tensor (some t.1) t.2).zipIdx
  let I (done : List (ProviderItem × Nat)) (s : Loading) : Prop :=
    keys s.weights = (keys (tensors.take done.length)).reverse ∧
      s.info.tensorCount = UInt32.ofNat done.length
  have htensors : Triple (I []) (items.forM fun item => loadTensor none item.2 item.1)
      (fun _ => I items) fun _ _ => False := by
    refine Triple.forM fun done x rest hsplit => ?_
    have hlt : done.length < tensors.length := by
      have hlength := congrArg List.length hsplit
      simp only [items, List.length_zipIdx, List.length_map, List.length_append,
        List.length_cons] at hlength
      omega
    obtain ⟨hstarts, elements, hview⟩ := hviews _ (List.getElem_mem hlt)
    have hx : x = (.tensor (some tensors[done.length].1) tensors[done.length].2, done.length) := by
      have hget : items[done.length]? = some x := by
        rw [hsplit, List.getElem?_append_right (Nat.le_refl _), Nat.sub_self]
        rfl
      simpa [items, hlt] using hget.symm
    subst hx
    rintro s ⟨hkeys, hindex⟩
    -- the name is none of those before it
    have hnew : assoc s.weights tensors[done.length].1 = none := by
      rw [assoc_eq_none, hkeys, List.mem_reverse]
      have hsplit := List.take_append_getElem hlt
      have hnodup := (List.take_sublist (done.length + 1) tensors).map Prod.fst |>.nodup hnames
      rw [← hsplit, List.map_append] at hnodup
      exact fun hmem => (List.nodup_append.mp hnodup).2.2 _ hmem _ (List.mem_singleton_self _) rfl
    unfold loadTensor
    simp only [hstarts, if_true, hview]
    have hupload : upload none done.length tensors[done.length].1 tensors[done.length].2 elements
        s = .ok () { s with
          nextBuffer := s.nextBuffer + 1
          weights := (tensors[done.length].1, ⟨s.nextBuffer, (elements * 4).toUInt64,
            tensors[done.length].2.shape⟩) :: s.weights
          info := s.info.count tensors[done.length].2 elements } := by
      show (if (assoc s.weights tensors[done.length].1).isSome = true then _ else _ : Loader Unit)
        _ = _
      rw [hnew]
      rfl
    rw [hupload]
    refine ⟨?_, ?_⟩
    · show _ :: keys s.weights = _
      rw [hkeys, List.length_append, List.length_singleton,
        ← List.take_append_getElem hlt, keys, keys, List.map_append,
        List.reverse_append]
      rfl
    · show s.info.tensorCount + 1 = _
      rw [hindex, List.length_append, List.length_singleton, UInt32.ofNat_add]
      rfl
  have hstart : I [] ⟨[], nextBuffer, freed, .empty⟩ := ⟨rfl, rfl⟩
  have hload : Triple (I []) (loadTensors none (tensors.map fun t => .tensor (some t.1) t.2))
      (fun info _ => info.loaded = true) fun _ _ => False := by
    have hitems : items.length = 271 := by
      simp only [items, List.length_zipIdx, List.length_map, hcount]
    refine Triple.bind htensors fun _ => ?_
    refine Triple.bind (Triple.throwIf (Q := fun _ => I items)
      (fun s _ hfault => by cases hfault) fun s hs _ => hs) fun _ => ?_
    refine Triple.bind (Triple.get (Q := fun s t => I items s ∧ s = t) fun s hs => ⟨hs, rfl⟩)
      fun s => ?_
    by_cases hs : I items s
    · obtain ⟨hkeys, hindex⟩ := hs
      refine Triple.bind (Triple.throwIf (Q := fun _ _ => True) (fun t ht hne => ?_)
        fun _ _ _ => trivial) fun _ => ?_
      · rw [hitems] at hindex
        exact hne hindex
      refine Triple.bind (Triple.throwIf (Q := fun _ _ => True) (fun t ht hmissing => ?_)
        fun _ _ _ => trivial) fun _ => Triple.pure fun _ _ => rfl
      obtain ⟨name, hname, hnone⟩ := hmissing
      rw [Option.isNone_iff_eq_none, assoc_eq_none, hkeys, List.mem_reverse, hitems, ← hcount,
        List.take_length] at hnone
      exact hnone (hrequired name hname)
    · exact fun t ht => absurd ht.1 hs
  have hpost := hload _ hstart
  split at hpost
  · rename_i info loading heq
    exact ⟨info, loading, heq, hpost⟩
  · exact hpost.elim

/-- A decoder: the required tensors and 268 others, all of one element. -/
def decoderTensors : List (String × TensorView) :=
  (requiredNames ++ (List.range 268).map fun i =>
    "decoder." ++ String.ofList (List.replicate i 'a')).map fun name =>
      (name, ⟨true, 4, [1], tensorF32⟩)

/-- A provider with every tensor the decoder asks for. -/
def decoderProvider : WeightProvider :=
  ⟨1, 0, true, decoderTensors.map fun t => .tensor (some t.1) t.2⟩

/-- The required names, and enough others to reach the number of tensors. -/
theorem keys_decoderTensors : keys decoderTensors = requiredNames ++ (List.range 268).map fun i =>
    "decoder." ++ String.ofList (List.replicate i 'a') := by
  rw [decoderTensors, keys, List.map_map]
  exact List.map_id _

/-- No name comes twice. -/
theorem nodup_decoderTensors : (keys decoderTensors).Nodup := by
  rw [keys_decoderTensors, List.nodup_append]
  refine ⟨by decide, List.Nodup.map (fun i j h => ?_) List.nodup_range,
    fun name hname other hother => ?_⟩
  · have hlength := congrArg (fun name => name.toList.length) h
    simpa using hlength
  · obtain ⟨i, -, rfl⟩ := List.mem_map.mp hother
    rintro rfl
    have hletters : (("decoder." ++ String.ofList (List.replicate i 'a')).toList.drop 8).all
        (· == 'a') = true := by simp
    have hothers : ∀ name ∈ requiredNames, (name.toList.drop 8).all (· == 'a') = false := by
      decide
    rw [hothers _ hname] at hletters
    cases hletters

/-- The load accepts all of it. -/
theorem loadTensors_decoder (nextBuffer : Nat) (freed : List Nat) :
    ∃ info loading, loadTensors none decoderProvider.tensors ⟨[], nextBuffer, freed, .empty⟩ =
      .ok info loading ∧ info.loaded = true := by
  refine loadTensors_complete (fun t ht => ?_) nodup_decoderTensors ?_ (fun name hname => ?_) _ _
  · obtain ⟨name, hname, rfl⟩ := List.mem_map.mp ht
    have hview : checkView ⟨true, 4, [1], tensorF32⟩ = .ok 1 := by decide
    refine ⟨?_, 1, hview⟩
    show name.startsWith "decoder." = true
    rw [String.startsWith_string_iff]
    rcases List.mem_append.mp hname with hname | hname
    · have hall : ∀ name ∈ requiredNames, "decoder.".toList <+: name.toList := by decide
      exact hall name hname
    · obtain ⟨i, -, rfl⟩ := List.mem_map.mp hname
      rw [String.toList_append]
      exact List.prefix_append _ _
  · rw [← List.length_map Prod.fst]
    show (keys decoderTensors).length = 271
    rw [keys_decoderTensors, List.length_append, List.length_map, List.length_range]
    rfl
  · rw [keys_decoderTensors]
    exact List.mem_append_left _ hname

/-- The first load of a run, through a temporary context. -/
theorem load_first {tensors : List ProviderItem} {info : ModelInfo} {loading : Loading}
    (hload : loadTensors none tensors ⟨[], 0, [], .empty⟩ = .ok info loading) :
    run step State.init [.modelCreate none, .modelLoad 0 ⟨1, 0, true, tensors⟩ none none] = some
      ⟨[(0, ⟨1, 0, false, loading.weights, info⟩)], [], [0], [], 2, 1, loading.nextBuffer,
        loading.freed⟩ := by
  -- the temporary context finds the model it was bound to
  have hmodel : loadModel none 0 ⟨1, 0, true, tensors⟩
      ⟨[(0, attach false .new)], [(0, ⟨0, false⟩)], [0], [], 2, 1, 0, []⟩ =
      (.ok info, ⟨[(0, ⟨2, 0, false, loading.weights, info⟩)], [(0, ⟨0, false⟩)], [0], [], 2, 1,
        loading.nextBuffer, loading.freed⟩) := by
    have hlookup : ((assoc [(0, (⟨0, false⟩ : Context))] 0).bind fun context =>
        (assoc [(0, attach false .new)] context.model).map fun m => (context.model, m)) =
          some (0, attach false .new) := rfl
    unfold loadModel
    simp only [hlookup]
    rw [show (attach false .new).weights = [] from rfl, hload]
    rfl
  unfold run
  have hload : step (sharedModelCreate none State.init).2
      (.modelLoad 0 ⟨1, 0, true, tensors⟩ none none) = some ⟨[(0, ⟨1, 0, false, loading.weights,
        info⟩)], [], [0], [], 2, 1, loading.nextBuffer, loading.freed⟩ := by
    have hcreate : createBoundContext 0 false none (sharedModelCreate none State.init).2 =
        (.ok 0, ⟨[(0, attach false .new)], [(0, ⟨0, false⟩)], [0], [], 2, 1, 0, []⟩) := rfl
    -- and is gone again when the call returns
    have hcall : sharedModelLoad 0 .new ⟨1, 0, true, tensors⟩ none none
        (sharedModelCreate none State.init).2 = (.loaded info, ⟨[(0, ⟨1, 0, false, loading.weights,
          info⟩)], [], [0], [], 2, 1, loading.nextBuffer, loading.freed⟩) := by
      unfold sharedModelLoad
      rw [hcreate]
      simp only [hmodel]
      rfl
    exact congrArg (fun r => some r.2) hcall
  exact congrArg (·.bind (run step · [])) hload

/-- The model is created and loaded. -/
theorem load_decoder : ∃ info weights nextBuffer freed, info.loaded = true ∧
    run step State.init [.modelCreate none, .modelLoad 0 decoderProvider none none] = some
      ⟨[(0, ⟨1, 0, false, weights, info⟩)], [], [0], [], 2, 1, nextBuffer, freed⟩ := by
  obtain ⟨info, loading, hload, hloaded⟩ := loadTensors_decoder 0 []
  exact ⟨info, loading.weights, loading.nextBuffer, loading.freed, hloaded, load_first hload⟩

/-! ## Every run -/

/-- **The lifecycle of shared models**, in every run of the calls. -/
theorem lifecycle {calls : List Call} {s : State} (hrun : run step State.init calls = some s) :
    Ok s ∧ ∀ c answer s', call s c = some (answer, s') → Sound s c answer s' := by
  have hs : Inv (fun _ => 0) s := by
    refine @invariant_of_step _ _ _ (fun _ _ => True) (Inv fun _ => 0)
      (fun s c s' hs _ hstep => ?_) _ _ _ inv_init (along_trivial (fun _ _ => trivial) _ _) hrun
    obtain ⟨⟨answer, s''⟩, h, rfl⟩ := Option.map_eq_some_iff.mp hstep
    exact (inv_call hs h).1
  exact ⟨hs.ok, fun c answer s' h => (inv_call hs h).2⟩

theorem lifecycle_session : ∃ s, run step State.init ([.modelCreate none,
    .modelLoad 0 decoderProvider none none] ++ [.modelWarmup 0 none none, .sessionCreate 0 none]) =
      some s ∧ s.sessions = [2] ∧ Ok s := by
  obtain ⟨info, weights, nextBuffer, freed, hloaded, hload⟩ := load_decoder
  obtain ⟨s, hrun, hsessions⟩ : ∃ s, run step State.init ([.modelCreate none,
      .modelLoad 0 decoderProvider none none] ++
        [.modelWarmup 0 none none, .sessionCreate 0 none]) = some s ∧ s.sessions = [2] := by
    rw [run_append, hload]
    cases info
    cases hloaded
    exact ⟨_, rfl, rfl⟩
  exact ⟨s, hrun, hsessions, (lifecycle hrun).1⟩

/-- A second load of a model is refused, and the model stays loaded. -/
theorem lifecycle_refused : ¬ ∀ calls s, run step State.init calls = some s →
    ∀ a provider createFault fault message s',
      call s (.modelLoad a provider createFault fault) = some (.failed message, s') →
      ∀ m, assoc s'.models a = some m → m.modelInfo.loaded = false ∧ m.weights = [] := by
  obtain ⟨info, weights, nextBuffer, freed, hloaded, hload⟩ := load_decoder
  cases info
  cases hloaded
  intro hfailed
  obtain ⟨hnot, -⟩ := hfailed _ _ hload 0 decoderProvider none none "model is already loaded" _ rfl
    _ rfl
  cases hnot

end Qwen3Tts.Codec.Lifecycle
