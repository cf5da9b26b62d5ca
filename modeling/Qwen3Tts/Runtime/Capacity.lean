import Qwen3Tts.Lib.Fallible
import Qwen3Tts.Runtime.Invariant

/-!
# Runtime — capacity accounting

A `SlotPermit` is moved from `start` through the channel and the worker's vectors and is dropped
on a dozen paths. `Sys.permitHolders` lists whose permits are alive, read off the containers of
the program. The counter of the pool is the length of that list, and what left the list was
released once: the histories count the releases.
-/

namespace Qwen3Tts.Runtime

open Qwen3Tts.Lib

/-! ## Statement -/

/-- The permits held by local variables of a program point. `retire_pending` and `retire_active`
drop the permit just before they call `mark_retired`. -/
def Control.permitHolders : Control → List Nat
  | .retirePending .markRetired _ k => Sys.heldIdsOfReturn k
  | .retireActive .markRetired _ _ => []
  | control => Sys.heldIds control

/-- The requests whose permits have not been dropped. -/
def Sys.permitHolders (s : Sys) : List Nat :=
  s.starting.map (·.id) ++ ((queuedStarts s.channel).map (·.id) ++
    (s.worker.pending.map (·.id) ++
      (s.worker.control.permitHolders ++ s.worker.active.map (·.id))))

/-- The permit is taken. -/
def Event.isAdmitted : Event → Bool
  | .admitted _ => true
  | _ => false

/-- How often a permit was handed out for the request. -/
def admissions (h : List Event) : Nat := h.countP Event.isAdmitted

/-- How often a permit of the request was dropped. -/
def releases (h : List Event) : Nat := h.count .released

/-! ## The list of permits and the stages -/

/-- The requests whose stage holds a permit. -/
def permitted (l : List (Nat × Stage)) : List Nat := keys (l.filter (·.2.holdsPermit))

section

variable {l l' : List (Nat × Stage)}

/-- The requests with a permit, list by list. -/
@[simp] theorem permitted_nil : permitted [] = [] := rfl

@[simp] theorem permitted_append : permitted (l ++ l') = permitted l ++ permitted l' := by
  simp [permitted]

@[simp] theorem permitted_cons {id : Nat} {v : Stage} :
    permitted ((id, v) :: l) = if v.holdsPermit then id :: permitted l else permitted l := by
  unfold permitted
  rw [List.filter_cons]
  split
  · rfl
  · rfl

/-- Stages that all hold one. -/
theorem permitted_map {α : Type} {xs : List α} {f : α → Nat × Stage}
    (h : ∀ x, (f x).2.holdsPermit = true) : permitted (xs.map f) = xs.map fun x => (f x).1 := by
  rw [permitted, List.filter_eq_self.mpr (by simpa using fun x _ => h x), keys, List.map_map]
  rfl

/-- They are counted, -/
theorem permitted_length : (permitted l).length = l.countP (·.2.holdsPermit) := by
  rw [permitted, keys, List.length_map, List.countP_eq_length_filter]

/-- and are among the requests there are. -/
theorem permitted_sublist : (permitted l).Sublist (keys l) :=
  List.filter_sublist.map _

/-- A request holds as many permits as its stage says. -/
theorem count_permitted (hl : (keys l).Nodup) (id : Nat) :
    (permitted l).count id = ((assoc l id).any Stage.holdsPermit).toNat := by
  induction l with
  | nil => rfl
  | cons entry l ih =>
    obtain ⟨id', v⟩ := entry
    rw [keys_cons, List.nodup_cons] at hl
    have hrest := ih hl.2
    by_cases hid : id = id'
    · subst hid
      have hnone : (permitted l).count id = 0 :=
        List.count_eq_zero.mpr fun hmem => hl.1 (permitted_sublist.subset hmem)
      cases hv : v.holdsPermit <;> simp [assoc, hv, hnone]
    · have hne : ¬ id' = id := fun h => hid h.symm
      rw [assoc, if_neg hid, ← hrest, permitted_cons]
      split
      · rw [List.count_cons_of_ne hne]
      · rfl

end

namespace Control

variable {control : Control}

/-- The requests of a batch in hand, -/
theorem permitted_starts {k : PendingReturn} :
    permitted k.control.starts = Sys.heldIdsOfReturn k := by
  cases k with
  | startCheck todo ready =>
    simp only [PendingReturn.control, starts, permitted_append, Sys.heldIdsOfReturn, List.map_append]
    rw [permitted_map fun _ => rfl, permitted_map fun _ => rfl]
    rfl
  | startResults leftover todo =>
    simp only [PendingReturn.control, starts, Sys.heldIdsOfReturn]
    rw [permitted_map fun _ => rfl]
    rfl
  | _ => rfl

/-- of the program point -/
theorem permitted_held : permitted control.held = control.permitHolders := by
  cases control with
  | retirePending step p k =>
    rw [held, permitted_cons, permitted_starts]
    cases step <;> rfl
  | retireActive step a k => cases step <;> rfl
  | startCheck todo ready =>
    simp only [held, starts, permitted_append, permitHolders, Sys.heldIds, List.map_append]
    rw [permitted_map fun _ => rfl, permitted_map fun _ => rfl]
    rfl
  | startMark prefillStarted marked todo =>
    simp only [held, starts, permitted_append, permitHolders, Sys.heldIds, List.map_append]
    rw [permitted_map fun _ => rfl, permitted_map fun _ => rfl]
    rfl
  | startBatch ready =>
    simp only [held, starts, permitHolders, Sys.heldIds]
    rw [permitted_map fun _ => rfl]
    rfl
  | startResults leftover todo =>
    simp only [held, starts, permitHolders, Sys.heldIds]
    rw [permitted_map fun _ => rfl]
    rfl
  | startSnapshot p leftover todo =>
    simp only [held, starts, permitted_cons, permitHolders, Sys.heldIds]
    rw [permitted_map fun _ => rfl]
    rfl
  | _ => rfl

/-- Every element of `active` owns its permit. -/
theorem tag_holdsPermit {a : ActiveRequest} : (control.tag a).holdsPermit = true := by
  unfold tag
  split
  all_goals try unfold selectedTag
  all_goals try unfold settleTag
  all_goals repeat' split
  all_goals rfl

end Control

/-- and of `active`. -/
theorem permitted_activeStages {control : Control} {active : List ActiveRequest} :
    permitted (activeStages control active) = active.map (·.id) := by
  unfold activeStages
  split
  · rw [permitted_append, tagged, tagged, permitted_map fun _ => rfl, permitted_map fun _ => rfl,
      ← List.map_append, List.take_append_drop]
  · exact permitted_map fun _ => Control.tag_holdsPermit

/-- The two ways to list the holders. -/
theorem Sys.permitHolders_eq (s : Sys) : s.permitHolders = permitted s.stages := by
  simp only [stages, Worker.stages, permitted_append, permitHolders, Control.permitted_held,
    permitted_activeStages]
  rw [permitted_map fun _ => rfl, permitted_map fun _ => rfl, permitted_map fun _ => rfl]
  rfl

/-! ## Invariant of one request -/

section

variable {h h' : List Event} {e : Event}

/-- Admissions and releases, event by event. -/
@[simp] theorem admissions_nil : admissions [] = 0 := rfl
@[simp] theorem releases_nil : releases [] = 0 := rfl

@[simp] theorem admissions_append : admissions (h ++ h') = admissions h + admissions h' :=
  List.countP_append

@[simp] theorem releases_append : releases (h ++ h') = releases h + releases h' :=
  List.count_append

@[simp] theorem admissions_cons :
    admissions (e :: h) = admissions h + if e.isAdmitted then 1 else 0 :=
  List.countP_cons

@[simp] theorem releases_cons :
    releases (e :: h) = releases h + if e = .released then 1 else 0 := by
  rw [releases, List.count_cons]
  simp [releases]

@[simp] theorem admissions_startEvents {result : Except FailureCause BackendStarted} :
    admissions (Sys.startEvents result) = 0 := by
  cases result <;> rfl

@[simp] theorem releases_startEvents {result : Except FailureCause BackendStarted} :
    releases (Sys.startEvents result) = 0 := by
  cases result <;> rfl

end

attribute [local simp] Event.isAdmitted Stage.holdsPermit

/-- A permit is held from the admission to the release. -/
structure Permits (l : Local) : Prop where
  once : admissions l.request.history ≤ 1
  staged : l.stage.isSome = true → admissions l.request.history = 1
  conserved : admissions l.request.history =
    (l.stage.any Stage.holdsPermit).toNat + releases l.request.history
  retired : l.request.state.retired = true →
    l.stage = none ∧ admissions l.request.history = 1

section

variable {env : Env} {calls : Nat} {label : Label} {l l' : Local}

/-- Only `start` admits, and it admits a new request. -/
theorem Permits.step_admissions (h : LocalStep env calls label l l') :
    admissions l'.request.history = admissions l.request.history ∨
      (admissions l'.request.history = 1 ∧ l'.stage.isSome = true) := by
  cases h
  case enter => exact .inr ⟨rfl, rfl⟩
  case unwindSession | cancelBackend | cancelBackendCancelled | cancelBackendFailed | dropSession =>
    refine .inl ?_
    rw [Request.emitSession_history, admissions_append]
    split <;> rfl
  all_goals simp

/-- A step takes the permit, keeps it or gives it back. -/
theorem Permits.step_conserved (hl : Permits l) (h : LocalStep env calls label l l') :
    admissions l'.request.history =
      (l'.stage.any Stage.holdsPermit).toNat + releases l'.request.history := by
  have hconserved := hl.conserved
  cases h
  case enter => rfl
  case unwindSession | cancelBackend | cancelBackendCancelled | cancelBackendFailed | dropSession =>
    rw [Request.emitSession_history]
    split <;> simp_all
  all_goals simp_all
  all_goals omega

/-- A request that is under way was admitted. -/
theorem Permits.step_staged (hl : Permits l) (h : LocalStep env calls label l l') :
    l'.stage.isSome = true → admissions l'.request.history = 1 := by
  have hstaged := hl.staged
  intro hsome
  rcases Permits.step_admissions h with heq | hadmit
  · rw [heq]
    cases h
    all_goals simp_all
  · exact hadmit.1

/-- A retired one is done. -/
theorem Permits.step_retired (hl : Permits l) (h : LocalStep env calls label l l') :
    l'.request.state.retired = true → l'.stage = none ∧ admissions l'.request.history = 1 := by
  have hretired := hl.retired
  have hstaged := hl.staged
  cases h
  all_goals simp_all

/-- So it is along every run. -/
theorem permits_inductive : Inductive anyLabel fun _ l => Permits l where
  unused := fun _ _ => by constructor <;> simp
  later := fun _ h => h
  step := fun _ _ h hl => {
    once := by
      rcases Permits.step_admissions h with heq | hadmit
      · rw [heq]; exact hl.once
      · exact hadmit.1.le
    staged := hl.step_staged h
    conserved := hl.step_conserved h
    retired := hl.step_retired h }

end

/-! ## The contract of the pool -/

/-- The validation does not look at the capacity. -/
theorem validateGeneration_error {generation : GenerationConfig} {error : SchedulerError}
    (h : validateGeneration generation = .error error) : error ≠ .full := by
  rintro rfl
  revert h
  unfold validateGeneration
  -- none of the eleven checks answers `Full`
  iterate 11 apply Lib.ite_error_ne (by intro h; cases h)
  intro h
  cases h

/-- When `start` answers `Full`: the input and the generation parameters are valid and no slot is
free. -/
theorem Sys.start_full {s : Sys} {input : RequestInput} {generation : GenerationConfig} :
    s.start input generation = .error .full ↔ input.validate s.config = .ok () ∧
      validateGeneration generation = .ok () ∧ s.used = s.config.maxConcurrentRequests := by
  unfold start
  cases hinput : input.validate s.config with
  | error error => simp
  | ok =>
    cases hgeneration : validateGeneration generation with
    | error error =>
      have herror : error ≠ .full := validateGeneration_error hgeneration
      simp [herror]
    | ok =>
      by_cases hused : s.used = s.config.maxConcurrentRequests
      · simp [hused]
      · simp [hused]

/-- The accounting of the pool in one state. -/
structure CapacityExact (s : Sys) : Prop where
  used : s.used = s.permitHolders.length
  bounded : s.used ≤ s.config.maxConcurrentRequests
  full : ∀ input generation, s.start input generation = .error .full ↔
    input.validate s.config = .ok () ∧ validateGeneration generation = .ok () ∧
      s.used = s.config.maxConcurrentRequests
  /-- A permit is handed out once, and then it is either held or was dropped once. -/
  once : ∀ id, admissions (s.requests id).history ≤ 1 ∧ admissions (s.requests id).history =
    s.permitHolders.count id + releases (s.requests id).history
  retired : ∀ id, (s.requests id).state.retired = true →
    id ∉ s.permitHolders ∧ releases (s.requests id).history = 1

/-- **Capacity accounting** in every reachable state. -/
theorem capacity_exact {config : EngineConfig} {s : Sys} (h : Reachable config s) :
    CapacityExact s := by
  have hcoherent := h.coherent
  have hpermits : ∀ id, Permits (s.localOf id) := permits_inductive.reachable h
  have hcount : ∀ id, s.permitHolders.count id =
      ((s.localOf id).stage.any Stage.holdsPermit).toNat := by
    intro id
    rw [s.permitHolders_eq, count_permitted hcoherent.distinct]
    rfl
  have hconserved : ∀ id, admissions (s.requests id).history =
      s.permitHolders.count id + releases (s.requests id).history := by
    intro id
    rw [hcount]
    exact (hpermits id).conserved
  refine {
    used := ?_
    bounded := hcoherent.bounded
    full := fun _ _ => Sys.start_full
    once := fun id => ⟨(hpermits id).once, hconserved id⟩
    retired := fun id hretired => ?_ }
  · rw [hcoherent.permits, s.permitHolders_eq, permitted_length]
  · obtain ⟨hstage, hadmitted⟩ := (hpermits id).retired hretired
    have hzero : s.permitHolders.count id = 0 := by rw [hcount, hstage]; rfl
    have hsum := hconserved id
    have hone : admissions (s.requests id).history = 1 := hadmitted
    exact ⟨List.count_eq_zero.mp hzero, by omega⟩

set_option maxRecDepth 20000 in
/-- One request whose prefill is about to start holds the only slot. -/
theorem capacity_exact_small :
    ∃ s, run Sys.step (.init smallConfig) (runToStart 1) = some s ∧ s.used = 1 ∧
      CapacityExact s := by
  have hdone : (run Sys.step (.init smallConfig) (runToStart 1)).map (·.used) = some 1 := by
    decide
  obtain ⟨s, hrun, hused⟩ := Option.map_eq_some_iff.mp hdone
  exact ⟨s, hrun, hused, capacity_exact ⟨by decide, runToStart 1, hrun⟩⟩

set_option maxRecDepth 20000 in
/-- `start` validates its input first: with no slot free, an empty text is answered with
`InvalidInput` and not with `Full`. -/
theorem full_not_exact : ∃ s input generation error, Reachable smallConfig s ∧
    s.used = s.config.maxConcurrentRequests ∧
    s.start input generation = .error (.invalidInput error) := by
  have hdone : (run Sys.step (.init smallConfig) (runToStart 1)).map (fun s =>
      (s.used, s.config.maxConcurrentRequests, (s.start ⟨"", ""⟩ .default).map fun _ => ())) =
        some (1, 1, .error (.invalidInput .emptyText)) := by
    decide
  obtain ⟨s, hrun, hresult⟩ := Option.map_eq_some_iff.mp hdone
  simp only [Prod.mk.injEq] at hresult
  obtain ⟨hused, hmax, hinvalid⟩ := hresult
  cases hstart : s.start ⟨"", ""⟩ .default with
  | ok s' =>
    rw [hstart] at hinvalid
    cases hinvalid
  | error error =>
    rw [hstart] at hinvalid
    cases hinvalid
    exact ⟨s, _, _, _, ⟨by decide, runToStart 1, hrun⟩, hused.trans hmax.symm, hstart⟩

end Qwen3Tts.Runtime
