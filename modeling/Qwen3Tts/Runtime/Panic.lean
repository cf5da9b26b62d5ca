import Qwen3Tts.Runtime.Invariant

/-!
# Runtime — where a panic comes from

Panics of backend calls are caught next to the call, so the only panics that reach the worker's
own control flow are those of session destructors. `panicked` and `unwinding` are flags of the
program counter; this module shows that nothing but a panicking destructor raises them, and
turns that into a rule for runs in which no destructor panics.
-/

namespace Qwen3Tts.Runtime

open Qwen3Tts.Lib

/-! ## What leaves the program counter alone -/

namespace Sys

variable {s s' : Sys} {id : Nat}

/-- The program counter is set. -/
@[simp] theorem goto_control {control : Control} : (s.goto control).worker.control = control := rfl

/-- A command in the channel, -/
@[simp] theorem trySend_worker {command : Command} : (s.trySend command).worker = s.worker := by
  rw [trySend_eq]

/-- a critical section -/
@[simp] theorem onShared_worker {f : RequestShared → RequestShared} :
    (s.onShared id f).worker = s.worker := by
  obtain ⟨k, hk⟩ := s.onShared_eq id f
  rw [hk]

/-- and the calls of the clients leave the worker alone. -/
theorem start_worker {input : RequestInput} {generation : GenerationConfig}
    (h : s.start input generation = .ok s') : s'.worker = s.worker := by
  unfold start at h
  repeat' split at h
  all_goals cases h
  rfl

theorem sendStart_worker (h : s.sendStart id = some s') : s'.worker = s.worker := by
  unfold sendStart at h
  repeat' split at h
  all_goals cases h
  all_goals rfl

theorem poll_worker (h : s.poll id = some s') : s'.worker = s.worker := by
  unfold poll at h
  split at h
  · cases h
    dsimp only
    split
    · rw [trySend_worker]
      exact onShared_worker
    · exact onShared_worker
  · cases h

theorem cancelMark_worker (h : s.cancelMark id = some s') : s'.worker = s.worker := by
  unfold cancelMark at h
  split at h
  · cases h
    dsimp only
    split
    all_goals exact onShared_worker
  · cases h

theorem dropPacket_worker {index : Nat} (h : s.dropPacket id index = some s') :
    s'.worker = s.worker := by
  unfold dropPacket at h
  split at h
  · cases h
  · cases h
    split
    · exact onShared_worker
    · rfl

/-- Clients do not touch the worker. -/
theorem step_client {a : Action} (ha : ∀ choice, a ≠ .worker choice) (h : s.step a = some s') :
    s'.worker = s.worker := by
  -- by cases on the call
  cases a with
  | tick => cases h; rfl
  | start input generation =>
    simp only [step] at h
    split at h
    · cases h
      split
      · exact start_worker ‹_›
      · rfl
    · cases h
  | sendStart id => exact sendStart_worker h
  | dropScheduler =>
    simp only [step] at h
    split at h
    · cases h; rfl
    · cases h
  | sendShutdown =>
    simp only [step] at h
    split at h
    · cases h; exact trySend_worker
    · cases h
  | poll id => exact poll_worker h
  | cancelSwap id =>
    simp only [step, cancelSwap] at h
    split at h
    · cases h; rfl
    · cases h
  | cancelMark id => exact cancelMark_worker h
  | cancelSend id =>
    simp only [step, cancelSend] at h
    split at h
    · cases h; exact trySend_worker
    · cases h
  | dropHandle id =>
    simp only [step, dropHandle] at h
    split at h
    · cases h; rfl
    · cases h
  | dropPacket id index => exact dropPacket_worker h
  | worker choice => exact absurd rfl (ha choice)

end Sys

/-! ## The flags of the program counter -/

/-- The worker unwinds behind a panic. -/
theorem Control.panicked_of_unwinding {control : Control} (h : control.unwinding = true) :
    control.panicked = true := by
  unfold unwinding at h
  split at h
  all_goals first | rfl | cases h

/-- A received command is no panic, -/
@[simp] theorem Site.next_panicked {site : Site} {shutdown : Bool} :
    (site.next shutdown).panicked = false := by
  cases site <;> cases shutdown <;> rfl

namespace Sys

variable {s s' : Sys}

/-- wherever it is received. -/
theorem receive_panicked {site : Site} (h : s.receive site = some s') :
    s'.worker.control.panicked = false := by
  unfold receive at h
  split at h
  · cases h
  · dsimp only at h
    split at h
    · cases h; exact Site.next_panicked
    · cases h; exact Site.next_panicked
    · cases h; exact Site.next_panicked
    · split at h
      · cases h; rfl
      · cases h; rfl

/-- Nor is the choice of a pool, -/
theorem selectPool_panicked {index : Nat} {eligible : List Nat}
    (h : s.selectPool index eligible = some s') : s'.worker.control.panicked = false := by
  obtain ⟨a, -, rfl⟩ := Option.map_eq_some_iff.mp h
  split <;> rfl

/-- a session that is taken, -/
theorem takeSessions_panicked {stepStarted : Nat} {todo : List Nat} {selected : List Selected}
    (h : s.takeSessions stepStarted todo selected = some s') :
    s'.worker.control.panicked = false := by
  unfold takeSessions at h
  split at h
  · cases h; rfl
  · obtain ⟨a, -, rfl⟩ := Option.map_eq_some_iff.mp h
    dsimp only
    repeat' split
    all_goals rfl

/-- or a packet that is settled. -/
theorem settle_panicked {stepMicroseconds : F32}
    {todo : List (Selected × Except FailureCause BackendPacket)}
    (h : s.settle stepMicroseconds todo = some s') : s'.worker.control.panicked = false := by
  unfold settle at h
  split at h
  · cases h; rfl
  · obtain ⟨a, -, rfl⟩ := Option.map_eq_some_iff.mp h
    dsimp only
    repeat' split
    all_goals rfl

end Sys

/-- What raises the two flags: `panicked` a panicking destructor, `unwinding` one that panics
during the final cleanup. -/
structure PanicOrigin (control : Control) (choice : Choice) (control' : Control) : Prop where
  panicked : control'.panicked = true → control.panicked = true ∨ choice = .dropPanics
  unwinding : control'.unwinding = true → control.unwinding = true ∨ choice = .dropPanics ∧
    ∃ a panicked, control = .retireActive .dropSession a (.exitActive panicked)

/-- A step to a program point outside the cleanup raises none. -/
theorem PanicOrigin.of_calm {control control' : Control} {choice : Choice}
    (h : control'.panicked = false) : PanicOrigin control choice control' where
  panicked := fun hp => by
    rw [h] at hp
    cases hp
  unwinding := fun hu => by
    rw [Control.panicked_of_unwinding hu] at h
    cases h

attribute [local simp] Control.panicked Control.unwinding

/-- `retire_pending` does not panic. -/
theorem retirePending_flags {s : Sys} {step : RetirePendingStep} {p : PendingStart}
    {k : PendingReturn} {choice : Choice} :
    PanicOrigin (.retirePending step p k) choice (s.retirePending step p k).worker.control := by
  cases step <;> cases k
  all_goals constructor <;> simp +contextual [Sys.retirePending, PendingReturn.control]

/-- A retirement goes back to where it was called, with the flag it was called with. -/
theorem retireActive_flags {s : Sys} {step : RetireActiveStep} {a : ActiveRequest}
    {k : ActiveReturn} : PanicOrigin (.retireActive step a k) .run
      (s.retireActive step a k false).worker.control := by
  cases step with
  | cancelBackend mark =>
    cases mark <;> cases k
    all_goals constructor <;> simp [Sys.retireActive]
  | release unwinding =>
    cases unwinding <;> cases k
    all_goals constructor <;> simp [Sys.retireActive, ActiveReturn.unwind]
  | _ =>
    cases k
    all_goals constructor <;> simp [Sys.retireActive, ActiveReturn.control]

/-- The destructor of a session does. -/
theorem dropSession_flags {s : Sys} {a : ActiveRequest} {k : ActiveReturn} :
    PanicOrigin (.retireActive .dropSession a k) .dropPanics
      (s.retireActive .dropSession a k true).worker.control where
  panicked := fun _ => .inr rfl
  unwinding := by
    cases k with
    | exitActive panicked => exact fun _ => .inr ⟨rfl, a, panicked, rfl⟩
    | _ => simp [Sys.retireActive]

/-- **Only a panicking destructor starts a panic.** -/
theorem panic_origin {s s' : Sys} {choice : Choice} (h : s.workerStep choice = some s') :
    PanicOrigin s.worker.control choice s'.worker.control := by
  unfold Sys.workerStep at h
  split at h
  all_goals try rename_i hcontrol; rw [hcontrol]
  case h_2 | h_20 => exact .of_calm (Sys.receive_panicked h)
  case h_19 => exact .of_calm (Sys.selectPool_panicked h)
  case h_23 => exact .of_calm (Sys.takeSessions_panicked h)
  case h_26 => exact .of_calm (Sys.settle_panicked h)
  -- the head of the loop
  case h_4 =>
    unfold Sys.drain at h
    split at h
    · cases h; exact .of_calm rfl
    · exact .of_calm (Sys.receive_panicked h)
  case h_6 =>
    unfold Sys.coalesce at h
    split at h
    · exact .of_calm (Sys.receive_panicked h)
    · cases h; exact .of_calm rfl
  case h_3 | h_5 | h_8 | h_22 =>
    split at h
    · cases h; exact .of_calm rfl
    · cases h
  -- steps outside the cleanup
  case h_7 | h_21 | h_24 | h_39 =>
    cases h
    exact .of_calm rfl
  case h_1 | h_9 | h_10 | h_11 | h_12 | h_13 | h_14 | h_16 | h_17 | h_18 | h_25 | h_27 | h_28 =>
    cases h
    refine .of_calm ?_
    simp only [Sys.top, Sys.gate, Sys.cancelActive, Sys.startCheck, Sys.startMark, Sys.startBatch,
      Sys.startResults, Sys.startSnapshot, Sys.removeCancelled, Sys.select, Sys.stepBatch,
      Sys.substep, Sys.removeFinished]
    repeat' split
    all_goals first | rfl | exact Site.next_panicked
  case h_40 =>
    cases h
    refine .of_calm ?_
    unfold Sys.discard
    split
    · rfl
    all_goals
      show s.worker.control.panicked = false
      rw [hcontrol]
      rfl
  -- the cleanup
  case h_29 =>
    cases h
    exact retirePending_flags
  case h_30 =>
    cases h
    exact retireActive_flags
  case h_31 =>
    cases h
    exact dropSession_flags
  case h_15 =>
    cases h
    exact ⟨fun _ => .inr rfl, by simp⟩
  case h_32 | h_33 | h_34 =>
    cases h
    simp only [Sys.exitActive, Sys.exitPending, Sys.exitChannel]
    split
    all_goals constructor <;> simp [hcontrol]
  case h_35 | h_36 | h_37 => exact ⟨fun _ => .inl rfl, fun _ => .inl rfl⟩
  case h_38 =>
    cases h
    unfold Sys.unwindPending
    split
    · exact .of_calm rfl
    · refine ⟨fun _ => .inl rfl, fun hu => ?_⟩
      have hstay : s.worker.control.unwinding = true := hu
      rw [hcontrol] at hstay
      cases hstay
  case h_41 => cases h

/-! ## Runs without panicking destructors -/

/-- A session destructor panics in this step. -/
def Action.dropPanics : Action → Bool
  | .worker .dropPanics => true
  | _ => false

/-- Without panicking destructors the worker never cleans up after a panic. -/
theorem calm_step {s s' : Sys} {a : Action} (hs : s.worker.control.panicked = false)
    (ha : a.dropPanics = false) (h : s.step a = some s') :
    s'.worker.control.panicked = false := by
  by_cases hworker : ∃ choice, a = .worker choice
  · obtain ⟨choice, rfl⟩ := hworker
    cases hflag : s'.worker.control.panicked with
    | false => rfl
    | true =>
      rcases (panic_origin h).panicked hflag with hp | rfl
      · rw [hs] at hp
        cases hp
      · cases ha
  · rw [Sys.step_client (fun choice hc => hworker ⟨choice, hc⟩) h]
    exact hs

end Qwen3Tts.Runtime
