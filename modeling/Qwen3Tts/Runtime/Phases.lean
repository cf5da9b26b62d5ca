import Mathlib.Logic.Relation
import Qwen3Tts.Runtime.Touch

/-!
# Runtime — the shared phase moves forward

`RequestRecord::transition` guards the worker's private record only; the phase a client sees is
assigned by the `mark_*` functions, by `push_packet` and by `poll`, none of which looks at the
phase it replaces. The assignments still follow the transition table, because each of them is made
in a stage in which the old phase is known. The exception is the cleanup after a panicking
destructor: it fails every request left in `active`, among them requests that completed or were
cancelled before.
-/

namespace Qwen3Tts.Runtime

open Qwen3Tts.Lib

/-! ## Statement -/

/-- A path of transitions that `RequestRecord::transition` allows. -/
def RequestPhase.Path : RequestPhase → RequestPhase → Prop :=
  Relation.ReflTransGen fun phase next => RequestRecord.allowed phase next = true

/-- A phase may become this one: along the table, and not at all once it is terminal. -/
structure RequestPhase.Forward (phase next : RequestPhase) : Prop where
  path : phase.Path next
  final : phase.isTerminal = true → next = phase

/-- The request that the cleanup after a panic is about to fail. -/
def Control.cleaning : Control → Option Nat
  | .retireActive (.mark (.failed _)) a _ => some a.id
  | _ => none

/-- The step is not the cleanup's `mark_failed` on a request that completed or was cancelled. -/
def SparesEnded (s : Sys) (a : Action) : Prop :=
  a.isWorker = true → ∀ id ∈ s.worker.control.cleaning,
    (s.shared id).state.phase ≠ .completed ∧ (s.shared id).state.phase ≠ .cancelled

instance : ∀ s a, Decidable (SparesEnded s a) :=
  fun _ _ => inferInstanceAs (Decidable (_ → _))

/-- Between any two moments of the run, the phase of every request moved forward. -/
def PhasesForward (config : EngineConfig) (actions : List Action) : Prop :=
  ∀ before between after s s', actions = before ++ between ++ after →
    run Sys.step (.init config) before = some s → run Sys.step s between = some s' →
    ∀ id, (s.shared id).state.phase.Forward (s'.shared id).state.phase

namespace RequestPhase.Forward

variable {phase next last : RequestPhase}

/-- A phase that stays. -/
theorem refl (phase : RequestPhase) : phase.Forward phase := ⟨.refl, fun _ => rfl⟩

/-- Two changes in a row. -/
theorem trans (h : phase.Forward next) (h' : next.Forward last) : phase.Forward last where
  path := h.path.trans h'.path
  final := fun hterminal => by
    have hsame := h.final hterminal
    rw [← hsame] at hterminal
    rw [h'.final hterminal, hsame]

/-- What `transition` allows goes forward. -/
theorem of_allowed (h : RequestRecord.allowed phase next = true) : phase.Forward next where
  path := .single h
  final := fun hterminal => by
    cases phase <;> cases next <;> simp_all [RequestPhase.isTerminal, RequestRecord.allowed]

end RequestPhase.Forward

/-! ## The phase at each stage -/

/-- The phases a request can have where the worker holds its `PendingStart`. -/
@[simp] def startPhases : Option Stage → Option (List RequestPhase)
  | some (.waiting _) | some (.ready _) => some [.queued]
  | some (.prefilling _) | some (.outcome _ _) => some [.prefilling]
  | some (.snapshot _) => some [.generating]
  | some (.retiringPending (.mark _) _) => some [.queued, .prefilling]
  | _ => none

/-- The stages of an element of `active`, from its first step to its last mark. -/
@[simp] def isRunning : Option Stage → Bool
  | some (.active _) | some (.eligible _) | some (.poolEmpty _) | some (.selected _ _)
  | some (.stepped _ _ _) | some (.settling _ _) | some (.settled _) | some (.exiting _ _)
  | some (.retiringActive (.cancelBackend _) _) | some (.retiringActive (.mark _) _) => true
  | _ => false

/-- What the phase is at each stage, and what it says of the rest of the state. -/
structure Phased (l : Local) : Prop where
  starting : ∀ phases, startPhases l.stage = some phases → l.request.state.phase ∈ phases
  running : isRunning l.stage = true → l.request.state.producerFinished = false →
    l.request.state.phase = .generating
  finished : l.request.state.producerFinished = true →
    l.request.state.phase = .draining ∨ l.request.state.phase.isTerminal = true
  queued : ∀ packet ∈ l.request.state.packets, packet.descriptor.isFinal ≠ 0 →
    l.request.state.producerFinished = true
  completed : l.request.state.phase = .completed →
    l.request.state.producerFinished = true ∧ l.request.state.cancelRequested = false
  failed : l.request.state.phase = .failed → l.request.state.failure.isSome = true

/-- A failing step does not hit a request that completed or was cancelled. -/
def sparingEnded (label : Label) (l : Local) : Prop :=
  label = .fail → l.request.state.phase ≠ .completed ∧ l.request.state.phase ≠ .cancelled

/-- Where the worker holds a `PendingStart` nothing was produced yet. -/
theorem isFresh_of_startPhases {stage : Option Stage} {phases : List RequestPhase}
    (h : startPhases stage = some phases) : isFresh stage = true := by
  unfold startPhases at h
  split at h <;> simp_all

section

variable {env : Env} {calls : Nat} {label : Label} {l l' : Local}

/-- Up to the start the phase is that of the stage. -/
theorem Phased.step_starting (hl : Phased l) (hlife : Lifecycle l)
    (h : LocalStep env calls label l l') :
    ∀ phases, startPhases l'.stage = some phases → l'.request.state.phase ∈ phases := by
  have hstarting := hl.starting
  have hfresh := fun phases (hphases : startPhases l.stage = some phases) =>
    hlife.fresh (isFresh_of_startPhases hphases)
  cases h
  case pollPacket hpackets =>
    intro phases hphases
    have hnone := (hfresh phases hphases).2.2
    rw [hpackets] at hnone
    cases hnone
  case pollEnd hproducer =>
    intro phases hphases
    have hopen := (hfresh phases hphases).2.1
    rw [hproducer] at hopen
    cases hopen
  all_goals clear hfresh
  all_goals simp_all

/-- A request that runs is generating until its last packet. -/
theorem Phased.step_running (hl : Phased l) (h : LocalStep env calls label l l') :
    isRunning l'.stage = true → l'.request.state.producerFinished = false →
      l'.request.state.phase = .generating := by
  have hstarting := hl.starting
  have hrunning := hl.running
  have hqueued := hl.queued
  cases h
  case pollPacket packet rest hfailure hcancel hpackets =>
    intro hstage hopen
    have hfinal : ¬ (packet.descriptor.isFinal ≠ 0 ∧ rest = []) := by
      rintro ⟨hfinal, -⟩
      have hproducer := hqueued packet (by rw [hpackets]; exact List.mem_cons_self) hfinal
      exact absurd hproducer (Bool.eq_false_iff.mp hopen)
    exact (if_neg hfinal).trans (hrunning hstage hopen)
  all_goals simp_all

/-- Behind the last packet it drains, or has ended. -/
theorem Phased.step_finished (hl : Phased l) (hlife : Lifecycle l)
    (h : LocalStep env calls label l l') :
    l'.request.state.producerFinished = true →
      l'.request.state.phase = .draining ∨ l'.request.state.phase.isTerminal = true := by
  have hfinished := hl.finished
  have hproducing := hlife.producing
  have hfresh := hlife.fresh
  cases h
  case pollPacket packet rest _ _ _ =>
    intro hproducer
    by_cases hfinal : packet.descriptor.isFinal ≠ 0 ∧ rest = []
    · exact .inr (by simp [hfinal, RequestPhase.isTerminal])
    · rw [show (Request.deliver _ packet rest env.now).state.phase = _ from if_neg hfinal]
      exact hfinished hproducer
  case publish packet metrics hcancel _ _ =>
    intro hproducer
    by_cases hfinal : packet.descriptor.isFinal = 0
    · have hflag := (hproducing rfl).2 (by simpa [hfinal] using hproducer)
      rw [hcancel] at hflag
      cases hflag
    · exact .inl (if_pos hfinal)
  all_goals simp_all [RequestPhase.isTerminal]

/-- The final packet is queued when the producer has finished. -/
theorem Phased.step_queued (hl : Phased l) (h : LocalStep env calls label l l') :
    ∀ packet ∈ l'.request.state.packets, packet.descriptor.isFinal ≠ 0 →
      l'.request.state.producerFinished = true := by
  have hqueued := hl.queued
  cases h
  case pollPacket packet rest _ _ hpackets =>
    rw [hpackets] at hqueued
    exact fun next hnext => hqueued next (List.mem_cons_of_mem _ hnext)
  case publish packet metrics _ _ _ =>
    intro next hnext hfinal
    rcases List.mem_append.mp hnext with hold | hnew
    · exact Bool.or_eq_true_iff.mpr (.inr (hqueued next hold hfinal))
    · rw [List.mem_singleton.mp hnew] at hfinal
      exact Bool.or_eq_true_iff.mpr (.inl (decide_eq_true hfinal))
  case dropPacket | unwindSession | cancelBackend | cancelBackendCancelled | cancelBackendFailed |
      dropSession =>
    simpa using hqueued
  all_goals first | exact hqueued | simp_all

/-- A request completes when it was not cancelled. -/
theorem Phased.step_completed (hl : Phased l) (hlife : Lifecycle l)
    (h : LocalStep env calls label l l') :
    l'.request.state.phase = .completed →
      l'.request.state.producerFinished = true ∧ l'.request.state.cancelRequested = false := by
  have hcompleted := hl.completed
  have hqueued := hl.queued
  cases h
  case pollPacket packet rest hfailure hcancel hpackets =>
    intro hphase
    by_cases hfinal : packet.descriptor.isFinal ≠ 0 ∧ rest = []
    · exact ⟨hqueued packet (by rw [hpackets]; exact List.mem_cons_self) hfinal.1, hcancel⟩
    · exact hcompleted ((if_neg hfinal).symm.trans hphase)
  case publish packet metrics hcancel _ _ =>
    intro hphase
    by_cases hfinal : packet.descriptor.isFinal = 0
    · have hdone := hcompleted ((if_neg (not_not.mpr hfinal)).symm.trans hphase)
      exact ⟨Bool.or_eq_true_iff.mpr (.inr hdone.1), hcancel⟩
    · exact absurd ((if_pos hfinal).symm.trans hphase) (by decide)
  case cancelMark hopen =>
    intro hphase
    have hcompleted : RequestPhase.isTerminal .completed = false := hphase ▸ hopen
    cases hcompleted
  all_goals simp_all

/-- A failed request has its failure. -/
theorem Phased.step_failed (hl : Phased l) (hlife : Lifecycle l)
    (h : LocalStep env calls label l l') :
    l'.request.state.phase = .failed → l'.request.state.failure.isSome = true := by
  have hfailed := hl.failed
  have hproducing := hlife.producing
  cases h
  case pollPacket packet rest hfailure hcancel hpackets =>
    intro hphase
    by_cases hfinal : packet.descriptor.isFinal ≠ 0 ∧ rest = []
    · exact absurd ((if_pos hfinal).symm.trans hphase) (by decide)
    · exact hfailed ((if_neg hfinal).symm.trans hphase)
  case publish packet metrics _ hfailure _ =>
    intro hphase
    by_cases hfinal : packet.descriptor.isFinal = 0
    · exact hfailed ((if_neg (not_not.mpr hfinal)).symm.trans hphase)
    · exact absurd ((if_pos hfinal).symm.trans hphase) (by decide)
  all_goals simp_all

/-- The phase follows the stage along every run. -/
theorem phased_inductive : Inductive anyLabel fun _ l => Lifecycle l ∧ Phased l := by
  refine lifecycle_inductive.and (fun _ _ => ?_) (fun _ h => h) fun _ _ h hlife hl => {
    starting := hl.step_starting hlife h
    running := hl.step_running h
    finished := hl.step_finished hlife h
    queued := hl.step_queued h
    completed := hl.step_completed hlife h
    failed := hl.step_failed hlife h }
  constructor <;> simp

/-- A request that the worker may cancel: it did not complete and did not fail. -/
theorem Phased.forward_cancelled (hl : Phased l)
    (hcompleted : l.request.state.phase ≠ .completed) (hfailure : l.request.state.failure = none) :
    l.request.state.phase.Forward .cancelled := by
  have hfailed := hl.failed
  cases hphase : l.request.state.phase with
  | cancelled => exact .refl _
  | completed => exact absurd hphase hcompleted
  | failed => simp_all
  | _ => exact .of_allowed rfl

/-- Every phase may fail but the two other terminal ones. -/
theorem forward_failed {phase : RequestPhase} (hcompleted : phase ≠ .completed)
    (hcancelled : phase ≠ .cancelled) : phase.Forward .failed := by
  cases phase with
  | completed => exact absurd rfl hcompleted
  | cancelled => exact absurd rfl hcancelled
  | failed => exact .refl _
  | _ => exact .of_allowed rfl

/-- A stream that was produced to its end and neither failed nor was cancelled may complete. -/
theorem Phased.forward_completed (hl : Phased l) (hlife : Lifecycle l)
    (hfailure : l.request.state.failure = none) (hcancel : l.request.state.cancelRequested = false)
    (hproducer : l.request.state.producerFinished = true) :
    l.request.state.phase.Forward .completed := by
  have hcancelled := hlife.cancelled
  have hfailed := hl.failed
  rcases hl.finished hproducer with hdraining | hterminal
  · rw [hdraining]
    exact .of_allowed rfl
  · cases hphase : l.request.state.phase with
    | completed => exact .refl _
    | cancelled => simp_all
    | failed => simp_all
    | _ =>
      rw [hphase] at hterminal
      cases hterminal

/-- A request with a requested cancellation did not complete. -/
theorem Phased.not_completed (hl : Phased l)
    (hopen : l.request.state.producerFinished → l.request.state.cancelRequested) :
    l.request.state.phase ≠ .completed := by
  intro hphase
  obtain ⟨hproducer, hcancel⟩ := hl.completed hphase
  rw [hopen hproducer] at hcancel
  cases hcancel

/-- The worker marks a running request. -/
theorem Phased.forward_mark (hl : Phased l) (hlife : Lifecycle l)
    (hstage : isProducing l.stage = true) : l.request.state.phase.Forward .cancelled := by
  obtain ⟨hfailure, hopen⟩ := hlife.producing hstage
  exact hl.forward_cancelled (hl.not_completed hopen) hfailure

/-- The worker marks a request it still holds the `PendingStart` of. -/
theorem Phased.start_forward {mark : Mark} {p : PendingStart} {next : RequestPhase} (hl : Phased l)
    (hstage : l.stage = some (.retiringPending (.mark mark) p))
    (hnext : next = .cancelled ∨ next = .failed) : l.request.state.phase.Forward next := by
  have hphase := hl.starting [.queued, .prefilling] (by rw [hstage]; rfl)
  simp only [List.mem_cons, List.not_mem_nil, or_false] at hphase
  rcases hphase with hphase | hphase <;> rcases hnext with rfl | rfl
  all_goals
    rw [hphase]
    exact .of_allowed rfl

/-- **One step moves the phase forward**, if it does not fail an ended request. -/
theorem LocalStep.forward (hl : Phased l) (hlife : Lifecycle l) (hok : sparingEnded label l)
    (h : LocalStep env calls label l l') :
    l.request.state.phase.Forward l'.request.state.phase := by
  have hstarting := hl.starting
  have hproducing := hlife.producing
  cases h
  -- the client
  case pollPacket r v packet rest hfailure hcancel hpackets =>
    by_cases hfinal : packet.descriptor.isFinal ≠ 0 ∧ rest = []
    · rw [show (Request.deliver r packet rest env.now).state.phase = _ from if_pos hfinal]
      have hproducer := hl.queued packet (by rw [hpackets]; exact List.mem_cons_self) hfinal.1
      exact hl.forward_completed hlife hfailure hcancel hproducer
    · rw [show (Request.deliver r packet rest env.now).state.phase = _ from if_neg hfinal]
      exact .refl _
  case pollEnd hfailure hcancel _ hproducer =>
    exact hl.forward_completed hlife hfailure hcancel hproducer
  -- `start_pending`
  case prefill r p _ =>
    have hphase := hstarting [.queued] rfl
    rw [List.mem_singleton.mp hphase]
    exact .of_allowed rfl
  case startOk r p _ =>
    have hphase := hstarting [.prefilling] rfl
    rw [List.mem_singleton.mp hphase]
    exact .of_allowed rfl
  -- the marks
  case cancelActive | cancelledActive => exact hl.forward_mark hlife rfl
  case cancelledPending => exact hl.start_forward rfl (.inl rfl)
  case failedPending => exact hl.start_forward rfl (.inr rfl)
  case fail | failedActive =>
    obtain ⟨hcompleted, hcancelled⟩ := hok rfl
    exact forward_failed hcompleted hcancelled
  case noSession r a hnone =>
    have hsession := hlife.session a rfl
    rw [hnone] at hsession
    cases hsession
  case failEmpty => exact absurd hlife.nonempty (by simp)
  -- `push_packet`
  case publish r a packet metrics hcancel _ _ =>
    by_cases hfinal : packet.descriptor.isFinal = 0
    · rw [show (r.publish packet metrics).state.phase = _ from if_neg (not_not.mpr hfinal)]
      exact .refl _
    · rw [show (r.publish packet metrics).state.phase = _ from if_pos hfinal]
      have hopen : r.state.producerFinished = false := by
        by_contra hproducer
        have hflag := (hproducing rfl).2 (Bool.not_eq_false _ ▸ hproducer)
        rw [hcancel] at hflag
        cases hflag
      rw [hl.running rfl hopen]
      exact .of_allowed rfl
  all_goals first
    | exact .refl _
    | simpa using RequestPhase.Forward.refl _

end

/-! ## Which requests a step can find cancelled

`mark_cancelled` runs before the selection of the eligible requests and after a step, never in
between: no request in the window of a step is in phase `Cancelled`. -/

/-- The requests a step of the selection or of `step_eligible` refers to. -/
def Control.considered (control : Control) (active : List ActiveRequest) : List Nat :=
  match control with
  | .selectPool index eligible => eligible ++ (active[index]?.map (·.id)).toList
  | control => control.window

/-- The requests a batch call will be made for. -/
def Sys.considered (s : Sys) : List Nat := s.worker.control.considered s.worker.active

/-- None of them is cancelled yet. -/
def WindowOpen (s : Sys) : Prop :=
  ∀ id ∈ s.considered, (s.shared id).state.phase ≠ .cancelled

namespace Sys

variable {s s' : Sys}

/-- A program point that refers to no request. -/
theorem not_considered {id : Nat} (hwindow : ∀ active, s.worker.control.considered active = [])
    {p : Prop} (hid : id ∈ s.considered) : p := by
  rw [considered, hwindow] at hid
  cases hid

/-- A command in hand is no batch. -/
theorem receive_considered {site : Site} (h : s.receive site = some s') {id : Nat} {p : Prop}
    (hid : id ∈ s'.considered) : p := by
  refine not_considered (fun active => ?_) hid
  unfold receive at h
  split at h
  · cases h
  · dsimp only at h
    split at h
    · cases h; cases site <;> rfl
    · cases h; cases site <;> rfl
    · cases h; cases site <;> rfl
    · split at h
      · cases h; rfl
      · cases h; rfl

/-- A request is selected when its state accepts a step, -/
theorem select_considered {index id : Nat} {eligible : List Nat}
    (hid : id ∈ (s.select index eligible).considered) :
    id ∈ eligible ∨ (s.shared id).stateAccepts = true := by
  unfold select at hid
  split at hid
  · split at hid
    · exact not_considered (fun _ => rfl) hid
    · exact .inl (by simpa [considered, Control.considered, Control.window, goto] using hid)
  · rename_i a ha
    split at hid
    · rename_i haccepts
      simp only [considered, goto, Control.considered, ha, List.mem_append, Option.map_some,
        Option.toList_some, List.mem_singleton] at hid
      rcases hid with hold | rfl
      · exact .inl hold
      · exact .inr haccepts
    · exact .inl hid

/-- and its pool has a buffer. -/
theorem selectPool_considered {index id : Nat} {eligible : List Nat}
    (h : s.selectPool index eligible = some s') (hid : id ∈ s'.considered) :
    id ∈ eligible ++ (s.worker.active[index]?.map (·.id)).toList := by
  obtain ⟨a, ha, rfl⟩ := Option.map_eq_some_iff.mp h
  rw [ha]
  split at hid
  · exact hid
  · exact List.mem_append_left _ hid

/-- The sessions are taken for the selected requests, -/
theorem takeSessions_considered {stepStarted id : Nat} {todo : List Nat} {selected : List Selected}
    (h : s.takeSessions stepStarted todo selected = some s') (hid : id ∈ s'.considered) :
    id ∈ todo ++ selected.map (·.id) := by
  unfold takeSessions at h
  split at h
  · cases h
    exact hid
  · obtain ⟨a, ha, rfl⟩ := Option.map_eq_some_iff.mp h
    dsimp only at hid
    split at hid
    · exact List.mem_cons_of_mem _ hid
    · split at hid
      · exact hid
      · simp only [considered, goto, Control.considered, Control.window, List.map_append,
          List.map_cons, List.map_nil, List.mem_append, List.mem_singleton] at hid
        simp only [List.cons_append, List.mem_cons, List.mem_append]
        tauto

/-- their packets are settled, -/
theorem settle_considered {stepMicroseconds : F32} {id : Nat}
    {todo : List (Selected × Except FailureCause BackendPacket)}
    (h : s.settle stepMicroseconds todo = some s') (hid : id ∈ s'.considered) :
    id ∈ todo.map (·.1.id) := by
  unfold settle at h
  split at h
  · cases h
    exact not_considered (fun _ => rfl) hid
  · obtain ⟨a, ha, rfl⟩ := Option.map_eq_some_iff.mp h
    dsimp only at hid
    repeat' split at hid
    all_goals exact hid

/-- one by one, -/
theorem substep_considered {stepMicroseconds : F32} {id key : Nat} {sub : Substep}
    {todo : List (Selected × Except FailureCause BackendPacket)}
    (hid : id ∈ (s.substep key sub stepMicroseconds todo).considered) :
    id ∈ key :: todo.map (·.1.id) := by
  unfold substep at hid
  dsimp only at hid
  repeat' split at hid
  all_goals first
    | exact hid
    | exact List.mem_cons_of_mem _ hid

/-- as the batch call returned them. -/
theorem stepBatch_considered {stepStarted id : Nat} {selected : List Selected}
    {write : Nat → Nat → Int16} {results : Option (List (Except BackendError BackendPacket))}
    (hid : id ∈ (s.stepBatch stepStarted selected write results).considered) :
    id ∈ selected.map (·.id) := by
  have hids : (stepOutcomes (selected.map (Selected.written write)) results).map (·.1.id) =
      selected.map (·.id) := by
    have hfst := congrArg (List.map Selected.id)
      (stepOutcomes_fst (selected.map (Selected.written write)) results)
    rwa [List.map_map, List.map_map] at hfst
  rw [← hids]
  exact hid

/-- What a step refers to, the step before it referred to, or it was just found to accept
packets. -/
theorem considered_step {choice : Choice} (h : s.workerStep choice = some s') {id : Nat}
    (hid : id ∈ s'.considered) : s.worker.control.cancelling = false ∧
      (id ∈ s.considered ∨ (s.shared id).stateAccepts = true) := by
  unfold workerStep at h
  split at h
  all_goals try rename_i hc
  all_goals try simp only [considered, hc]
  -- the selection and the step
  case h_18 => cases h; exact ⟨rfl, select_considered hid⟩
  case h_19 => exact ⟨rfl, .inl (selectPool_considered h hid)⟩
  case h_23 => exact ⟨rfl, .inl (takeSessions_considered h hid)⟩
  case h_24 => cases h; exact ⟨rfl, .inl (List.mem_cons_of_mem _ hid)⟩
  case h_25 => cases h; exact ⟨rfl, .inl (stepBatch_considered hid)⟩
  case h_26 => exact ⟨rfl, .inl (settle_considered h hid)⟩
  case h_27 => cases h; exact ⟨rfl, .inl (substep_considered hid)⟩
  -- every other step leads to a program point that refers to nothing
  case h_2 | h_20 => exact receive_considered h hid
  case h_4 =>
    unfold drain at h
    split at h
    · cases h; exact not_considered (fun _ => rfl) hid
    · exact receive_considered h hid
  case h_6 =>
    unfold coalesce at h
    split at h
    · exact receive_considered h hid
    · cases h; exact not_considered (fun _ => rfl) hid
  case h_3 | h_5 | h_8 | h_22 =>
    split at h
    · cases h; exact not_considered (fun _ => rfl) hid
    · cases h
  case h_7 | h_13 | h_15 | h_16 | h_21 | h_37 | h_39 =>
    cases h
    exact not_considered (fun _ => rfl) hid
  case h_1 | h_9 | h_11 | h_12 | h_14 | h_17 | h_28 | h_32 | h_33 | h_35 | h_36 =>
    cases h
    refine not_considered (fun _ => ?_) hid
    simp only [top, gate, startCheck, startMark, startResults, removeCancelled, removeFinished,
      exitActive, exitPending, unwindActive]
    repeat' split
    all_goals rfl
  case h_10 =>
    cases h
    refine not_considered (fun _ => ?_) hid
    rename_i site _
    cases site <;> rfl
  case h_29 =>
    cases h
    rename_i step p k
    refine not_considered (fun _ => ?_) hid
    cases step <;> cases k <;> rfl
  case h_30 =>
    cases h
    rename_i step a k
    refine not_considered (fun _ => ?_) hid
    cases step with
    | release unwinding => cases unwinding <;> cases k <;> rfl
    | _ => cases k <;> rfl
  case h_31 =>
    cases h
    exact not_considered (fun _ => rfl) hid
  -- draining the channel and `pending` at the end
  case h_34 | h_38 | h_40 =>
    cases h
    refine not_considered (fun _ => ?_) hid
    simp only [exitChannel, unwindPending, discard]
    split
    all_goals first
      | rfl
      | show Control.considered s.worker.control _ = []
        rw [hc]
        rfl
  case h_41 => cases h

end Sys

/-! ## Runs -/

/-- What is known of a state whose history spared every ended request. -/
structure Forwarding (s : Sys) : Prop where
  coherent : Coherent s
  lifecycle : ∀ id, Lifecycle (s.localOf id)
  phased : ∀ id, Phased (s.localOf id)
  window : WindowOpen s

/-- Before the first step. -/
theorem forwarding_init (config : EngineConfig) : Forwarding (.init config) where
  coherent := coherent_init config
  lifecycle := fun id => (phased_inductive.unused (Sys.init config).env id).1
  phased := fun id => (phased_inductive.unused (Sys.init config).env id).2
  window := fun _ hid => by cases hid

section

variable {s s' : Sys} {a : Action}

/-- Only the worker cancels, and not between the selection and the batch. -/
theorem WindowOpen.step (hs : Forwarding s) (h : s.step a = some s') : WindowOpen s' := by
  intro id hid hphase
  by_cases hworker : ∃ choice, a = .worker choice
  · obtain ⟨choice, rfl⟩ := hworker
    obtain ⟨hquiet, hold⟩ := Sys.considered_step h hid
    rcases (Sys.workerStep_touch h id).cancelled hphase with hbefore | hcancelling
    · rcases hold with hold | haccepts
      · exact hs.window id hold hbefore
      · -- a request that accepts packets is not cancelled
        have hflag := (hs.lifecycle id).cancelled hbefore
        simp only [RequestShared.stateAccepts, Bool.and_eq_true, Bool.not_eq_true'] at haccepts
        rw [show (s.shared id).state.cancelRequested = true from hflag] at haccepts
        cases haccepts.1.1
    · rw [hquiet] at hcancelling
      cases hcancelling
  · have hclient : ∀ choice, a ≠ .worker choice := fun choice heq => hworker ⟨choice, heq⟩
    have hsame : s'.considered = s.considered := by
      unfold Sys.considered
      rw [Sys.step_client hclient h]
    rw [hsame] at hid
    exact hs.window id hid ((Sys.step_clientTouch hs.coherent hclient h id).cancelled hphase)

/-- The stage of a request is where the state has it, -/
theorem Coherent.stage_of_mem (hs : Coherent s) {id : Nat} {v : Stage} (h : (id, v) ∈ s.stages) :
    (s.localOf id).stage = some v := assoc_of_mem hs.distinct h

/-- or where the worker holds it. -/
theorem Coherent.stage_of_held (hs : Coherent s) {id : Nat} {v : Stage}
    (h : (id, v) ∈ s.worker.control.held) : (s.localOf id).stage = some v :=
  hs.stage_of_mem (by simp only [Sys.stages, Worker.stages, List.mem_append]; tauto)

/-- The request whose result is being processed is in `active`. -/
theorem Coherent.stage_of_substep (hs : Coherent s) {id : Nat} {sub : Substep} {step : F32}
    {todo : List (Selected × Except FailureCause BackendPacket)}
    (hc : s.worker.control = .substep id sub step todo) :
    ∃ r, (s.localOf id).stage = some (.settling r sub) := by
  have hmem : id ∈ s.worker.active.map (·.id) :=
    hs.window.subset (by rw [hc]; exact List.mem_cons_self)
  obtain ⟨r, hr, rfl⟩ := List.mem_map.mp hmem
  refine ⟨r, hs.stage_of_mem ?_⟩
  have htag : (r.id, Stage.settling r sub) ∈ activeStages s.worker.control s.worker.active := by
    rw [hc]
    refine List.mem_map.mpr ⟨r, hr, ?_⟩
    show (r.id, if r.id = r.id then Stage.settling r sub else _) = _
    rw [if_pos rfl]
  simp only [Sys.stages, Worker.stages, List.mem_append]
  tauto

/-- The step does not fail a request that completed or was cancelled. -/
theorem sparingEnded_of_origin (hs : Forwarding s) (hok : SparesEnded s a) {id : Nat}
    {label : Label} (horigin : Origin s a id label) : sparingEnded label (s.localOf id) := by
  rintro rfl
  obtain ⟨hworker, hfailing⟩ := horigin
  unfold Control.failing at hfailing
  split at hfailing
  · -- a start command that failed
    rename_i cause p k hc
    cases hfailing
    have hstage : (s.localOf p.id).stage = some (.retiringPending (.mark (.failed cause)) p) :=
      hs.coherent.stage_of_held (by rw [hc]; exact List.mem_cons_self)
    have hphase := (hs.phased p.id).starting [.queued, .prefilling] (by rw [hstage]; rfl)
    simp only [List.mem_cons, List.not_mem_nil, or_false] at hphase
    rcases hphase with hphase | hphase
    all_goals
      rw [hphase]
      simp
  · -- the cleanup after a panic
    rename_i cause r k hc
    cases hfailing
    exact hok hworker r.id (by rw [hc]; rfl)
  · -- a failed step
    rename_i key cause step todo hc
    cases hfailing
    obtain ⟨r, hstage⟩ := hs.coherent.stage_of_substep hc
    have hopen := ((hs.lifecycle id).producing (by rw [hstage]; rfl)).2
    refine ⟨(hs.phased id).not_completed hopen, hs.window id ?_⟩
    rw [Sys.considered, hc]
    exact List.mem_cons_self
  · cases hfailing

/-- What a step that spares the ended requests does to the phases. -/
theorem Forwarding.step (hs : Forwarding s) (hok : SparesEnded s a) (h : s.step a = some s') :
    Forwarding s' ∧ ∀ id, (s.shared id).state.phase.Forward (s'.shared id).state.phase := by
  have hsim := step_sim hs.coherent h
  have hboth := phased_inductive.sys_step hsim (fun _ _ _ => trivial)
    fun id => ⟨hs.lifecycle id, hs.phased id⟩
  refine ⟨⟨hsim.coherent, fun id => (hboth id).1, fun id => (hboth id).2, .step hs h⟩, fun id => ?_⟩
  rcases hsim.changes id with heq | ⟨label, horigin, hlocal⟩
  · have hreq : s'.requests id = s.requests id := congrArg Local.request heq
    unfold Sys.shared
    rw [hreq]
    exact .refl _
  · exact hlocal.forward (hs.phased id) (hs.lifecycle id) (sparingEnded_of_origin hs hok horigin)

/-- The cleanup's `mark_failed` on a request that completed or was cancelled moves its phase back. -/
theorem not_forward_of_cleaning (h : s.step a = some s') (hbad : ¬ SparesEnded s a) :
    ∃ id, ¬ (s.shared id).state.phase.Forward (s'.shared id).state.phase := by
  simp only [SparesEnded, Classical.not_imp, not_forall, not_and_or, not_not] at hbad
  obtain ⟨hworker, id, hid, hphase⟩ := hbad
  refine ⟨id, fun hforward => ?_⟩
  have hfailed : (s'.shared id).state.phase = .failed := by
    unfold Control.cleaning at hid
    split at hid
    · rename_i cause r k hc
      cases hid
      cases a with
      | worker choice =>
        cases choice with
        | run =>
          change s.workerStep _ = some s' at h
          unfold Sys.workerStep at h
          rw [hc] at h
          cases h
          obtain ⟨n, hn⟩ := s.applyMark_eq r.id (.failed cause)
          simp only [Sys.shared, Sys.retireActive, hn, Sys.goto_requests, Function.update_self]
          rfl
        | _ =>
          change s.workerStep _ = some s' at h
          unfold Sys.workerStep at h
          rw [hc] at h
          cases h
      | _ => cases hworker
    · cases hid
  rw [hfailed] at hforward
  rcases hphase with hphase | hphase
  all_goals
    rw [hphase] at hforward
    cases hforward.final rfl

end

/-- **Phases move forward in exactly the runs that spare the ended requests.** -/
theorem phases_forward {config : EngineConfig} {actions : List Action} {s : Sys}
    (hrun : run Sys.step (.init config) actions = some s) :
    PhasesForward config actions ↔ Along Sys.step SparesEnded (.init config) actions := by
  constructor
  · intro hforward
    refine along_iff.mpr fun before a after m hsplit hm => ?_
    by_contra hbad
    have hrest : run Sys.step (.init config) (before ++ ([a] ++ after)) = some s := by
      rw [← hrun, hsplit]
      rfl
    rw [run_append, hm] at hrest
    obtain ⟨m', hstep, -⟩ := run_split hrest
    obtain ⟨_, hstep, hlast⟩ := run_cons.mp hstep
    cases hlast
    obtain ⟨id, hback⟩ := not_forward_of_cleaning hstep hbad
    refine hback (hforward before [a] after m m' (by rw [hsplit]; simp) hm ?_ id)
    exact run_cons.mpr ⟨m', hstep, rfl⟩
  · intro halong before between after m m' hsplit hm hm'
    rw [hsplit] at halong
    obtain ⟨hbefore, hbetween⟩ := halong.append.1.append
    -- what is known at the first moment, and then what relates the second to it
    have hfirst : Forwarding m :=
      invariant_of_step (fun _ _ _ hs hok hstep => (hs.step hok hstep).1) (forwarding_init config)
        hbefore hm
    have hlast := invariant_of_step (I := fun t => Forwarding t ∧
        ∀ id, (m.shared id).state.phase.Forward (t.shared id).state.phase)
      (fun _ _ _ hs hok hstep => ⟨(hs.1.step hok hstep).1,
        fun id => (hs.2 id).trans ((hs.1.step hok hstep).2 id)⟩)
      ⟨hfirst, fun _ => .refl _⟩ (hbetween m hm) hm'
    exact hlast.2

set_option maxRecDepth 20000 in
/-- A stream received to its end. -/
theorem phases_forward_completed :
    PhasesForward smallConfig runToEnd ∧ ∃ s, run Sys.step (.init smallConfig) runToEnd = some s ∧
      (s.requests 1).state.phase = .completed := by
  have hdone : (run Sys.step (.init smallConfig) runToEnd).map
      (fun s => (s.requests 1).shared.state.phase) = some .completed := by
    decide
  have hspares : Along Sys.step SparesEnded (.init smallConfig) runToEnd := by
    decide
  obtain ⟨s, hrun, hphase⟩ := Option.map_eq_some_iff.mp hdone
  exact ⟨(phases_forward hrun).mpr hspares, s, hrun, hphase⟩

/-! ## A completed request is failed -/

/-- Two requests at a time, one codec frame a packet, one buffer each. -/
def duoConfig : EngineConfig := { smallConfig with maxConcurrentRequests := 2 }

/-- Two requests publish their final packets in one step. The client of the second receives its
packet while the session of the first is being dropped, and the drop panics. -/
def runToPanic : List Action :=
  let generation := { GenerationConfig.default with maxCodecFrames := 1 }
  [.start ⟨"a", ""⟩ generation, .sendStart 1, .start ⟨"b", ""⟩ generation, .sendStart 2]
    ++ Action.workerRuns 12 ++ [.worker (.startBatch (some [.ok ⟨0, 0, 0⟩, .ok ⟨0, 0, 0⟩]))]
    ++ Action.workerRuns 16 ++ [stepReturns (some [.ok finalPacket, .ok finalPacket])]
    ++ Action.workerRuns 6 ++ [.poll 2, .worker .dropPanics]

/-- The cleanup reaches the second request. -/
def runToCleanup : List Action := Action.workerRuns 4

set_option maxRecDepth 20000 in
/-- The second request goes from `Completed` to `Failed`. -/
theorem phases_not_forward : ∃ s s', run Sys.step (.init duoConfig) runToPanic = some s ∧
    run Sys.step s runToCleanup = some s' ∧ (s.requests 2).state.phase = .completed ∧
    (s'.requests 2).state.phase = .failed ∧
    ¬ PhasesForward duoConfig (runToPanic ++ runToCleanup) := by
  have hbefore : (run Sys.step (.init duoConfig) runToPanic).map
      (fun s => (s.requests 2).shared.state.phase) = some .completed := by
    decide
  have hafter : (run Sys.step (.init duoConfig) (runToPanic ++ runToCleanup)).map
      (fun s => (s.requests 2).shared.state.phase) = some .failed := by
    decide
  obtain ⟨s', hrun, hfailed⟩ := Option.map_eq_some_iff.mp hafter
  obtain ⟨s, hs, hs'⟩ := run_split hrun
  rw [hs] at hbefore
  have hcompleted := Option.some.inj hbefore
  refine ⟨s, s', hs, hs', hcompleted, hfailed, fun hforward => ?_⟩
  have hfinal := (hforward runToPanic runToCleanup [] s s' (by simp) hs hs' 2).final
  simp only [Sys.shared, hcompleted, hfailed] at hfinal
  cases hfinal rfl

end Qwen3Tts.Runtime
