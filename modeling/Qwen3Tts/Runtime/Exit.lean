import Qwen3Tts.Runtime.Capacity
import Qwen3Tts.Runtime.Touch

/-!
# Runtime — what the worker leaves behind

`worker_loop` ends by marking and retiring whatever `active`, `pending` and the channel still
hold, so that no client waits for a request nobody works on. Two gaps remain. A session's
destructor runs inside `retire_active` before `mark_retired` and outside any `catch_unwind`: when
it panics, the request it belongs to is not retired, and when it panics in the cleanup, nothing
after it is either. And a `start` that sends between the last `try_recv` and the drop of the
receiver queues a request that is discarded with the channel.
-/

namespace Qwen3Tts.Runtime

open Qwen3Tts.Lib

/-! ## Statement -/

/-- The answer hands a packet out. -/
def PollAnswer.isPacket : PollAnswer → Bool
  | .packet _ => true
  | _ => false

/-- `poll` hands out what is queued and then gives a terminal answer; it never blocks. -/
inductive PollsToEnd : RequestShared → Prop
  | terminal {r : RequestShared} (h : ∀ now, (r.poll now).1.isTerminal = true) : PollsToEnd r
  | packet {r : RequestShared} (h : ∀ now, (r.poll now).1.isPacket = true)
      (hrest : ∀ now, PollsToEnd (r.poll now).2) : PollsToEnd r

/-- Nobody waits for the request any more and nothing is held for it. -/
structure LetGo (r : Request) : Prop where
  retired : r.state.retired = true
  polls : PollsToEnd r.shared
  released : releases r.history = 1

/-- The request whose session `retire_active` is about to drop. -/
def Sys.dropping (s : Sys) : Option ActiveRequest :=
  match s.worker.control with
  | .retireActive .dropSession a _ => some a
  | _ => none

/-- The worker is about to drop its receiver. -/
def Sys.disconnecting (s : Sys) : Bool :=
  match s.worker.control with
  | .disconnect => true
  | _ => false

/-- No session destructor panics in `retire_active`, and no start command is in the channel when
the receiver is dropped. -/
def KeepsAll (s : Sys) (a : Action) : Prop :=
  (a.dropPanics = true → ∀ r ∈ s.dropping, r.session.isSome = false) ∧
    (a.isWorker = true → s.disconnecting = true → Sys.queuedStarts s.channel = [])

instance : ∀ s a, Decidable (KeepsAll s a) := fun s _ =>
  have : Decidable (Sys.queuedStarts s.channel = []) := decidable_of_iff _ List.isEmpty_iff
  inferInstanceAs (Decidable ((_ → _) ∧ (_ → _ → _)))

/-! ## A request that is over is polled to its end -/

/-- The request has failed, was cancelled or has its last packet. -/
def Over (state : RequestState) : Prop :=
  state.failure.isSome = true ∨ state.cancelRequested = true ∨ state.producerFinished = true

/-- A request that is over gives a terminal answer after the packets that are still queued. -/
theorem Over.pollsToEnd {r : RequestShared} (h : Over r.state) : PollsToEnd r := by
  generalize hn : r.state.packets.length = n
  -- by induction on the packets that are queued
  induction n generalizing r with
  | zero =>
    refine .terminal fun now => ?_
    have hnone : r.state.packets = [] := List.length_eq_zero_iff.mp hn
    unfold RequestShared.poll
    -- nothing is queued: each way to be over has its own answer
    rcases h with h | h | h
    · obtain ⟨error, herror⟩ := Option.isSome_iff_exists.mp h
      simp [herror, PollAnswer.isTerminal]
    · cases r.state.failure <;> simp [h, PollAnswer.isTerminal]
    · cases r.state.failure
      · by_cases hcancel : r.state.cancelRequested = true ∨ r.state.phase = .cancelled
        · simp [hcancel, PollAnswer.isTerminal]
        · simp [hcancel, hnone, h, PollAnswer.isTerminal]
      · simp [PollAnswer.isTerminal]
  | succ n ih =>
    cases hfailure : r.state.failure with
    | some error => exact .terminal fun now => by simp [RequestShared.poll, hfailure, PollAnswer.isTerminal]
    | none =>
      by_cases hcancel : r.state.cancelRequested = true ∨ r.state.phase = .cancelled
      · exact .terminal fun now => by simp [RequestShared.poll, hfailure, hcancel, PollAnswer.isTerminal]
      · -- only a request with neither failure nor cancellation hands the next packet out
        obtain ⟨packet, rest, hpackets⟩ := List.exists_cons_of_length_eq_add_one hn
        have hlength : rest.length = n := by simpa [hpackets] using hn
        refine .packet (fun now => ?_) fun now => ih ?_ ?_
        · simp [RequestShared.poll, hfailure, hcancel, hpackets, PollAnswer.isPacket]
        · simp only [RequestShared.poll, hfailure, hcancel, hpackets, if_false]
          simpa [Over, hfailure] using h
        · simp only [RequestShared.poll, hfailure, hcancel, hpackets, if_false]
          exact hlength

/-- The request has got its last mark, or was found over. -/
@[simp] def isLeaving : Option Stage → Bool
  | some (.retiringPending .release _) | some (.retiringPending .markRetired _)
  | some (.retiringActive (.cancelBackend none) _) | some (.retiringActive .dropSession _)
  | some (.retiringActive (.release _) _) | some (.retiringActive .markRetired _) => true
  | _ => false

/-- A request that is on its way out, or retired, is over. -/
structure Settled (l : Local) : Prop where
  leaving : isLeaving l.stage = true → Over l.request.state
  retired : l.request.state.retired = true → Over l.request.state

section

variable {env : Env} {calls : Nat} {label : Label} {l l' : Local}

/-- A request that is over stays over. -/
theorem Over.step (h : Over l.request.state) (hretired : l.request.state.retired = true ∨
    isLeaving l.stage = true) (hstep : LocalStep env calls label l l') : Over l'.request.state := by
  unfold Over at *
  cases hstep
  all_goals simp_all

/-- The last mark is what makes a request over: a failure, a cancellation, or the packet it was
found finished by. -/
theorem Settled.step_leaving (hl : Settled l) (h : LocalStep env calls label l l') :
    isLeaving l'.stage = true → Over l'.request.state := by
  have hover := fun hstage => Over.step (hl.leaving hstage) (.inr hstage) h
  cases h
  case cancelledPending | cancelledActive | failedPending | failedActive => simp [Over]
  case finish hproducer _ _ => exact fun _ => .inr (.inr hproducer)
  case finishOver hdone =>
    exact fun _ => hdone.elim .inl fun hcancel => .inr (.inl hcancel)
  all_goals first | exact hover | simp_all

/-- A request is retired behind its last mark only. -/
theorem Settled.step_retired (hl : Settled l) (h : LocalStep env calls label l l') :
    l'.request.state.retired = true → Over l'.request.state := by
  have hover := fun hstage => Over.step (hl.leaving hstage) (.inr hstage) h
  have hkeep := fun hold => Over.step (hl.retired hold) (.inl hold) h
  cases h
  case retirePending | retireActive => exact fun _ => hover rfl
  case enter => exact fun hretired => by cases hretired
  all_goals first | exact hkeep | simp_all

/-- `Settled` holds along every run. -/
theorem settled_inductive : Inductive anyLabel fun _ l => Settled l where
  unused := fun _ _ => by constructor <;> simp
  later := fun _ h => h
  step := fun _ _ h hl => ⟨hl.step_leaving h, hl.step_retired h⟩

end

/-! ## The way out of the loop -/

namespace Control

/-- A panic of a destructor has taken the worker past a `mark_retired`. -/
def lossy : Control → Bool
  | .retireActive (.release true) _ _ | .unwindActive | .unwindPermit _ | .unwindPending
  | .aborted _ => true
  | _ => false

/-- The receiver is gone. -/
def disconnected : Control → Bool
  | .discard | .stopped => true
  | _ => false

/-- `pending` has been emptied for good. -/
def pastPending : Control → Bool
  | .exitChannel _ | .retirePending _ _ (.exitChannel _) | .disconnect | .discard | .stopped => true
  | _ => false

/-- The request that is about to be marked as retired, its permit dropped. -/
def retiring : Control → Option Nat
  | .retirePending .markRetired p _ => some p.id
  | .retireActive .markRetired a _ => some a.id
  | _ => none

end Control

/-- What the control says of the state on the way out of the loop: no destructor has panicked in
`retire_active`, `pending` is empty behind its cleanup, and nothing is left in the channel once the
receiver is gone. -/
structure Leaving (s : Sys) : Prop where
  lossless : s.worker.control.lossy = false
  emptied : s.worker.control.pastPending = true → s.worker.pending = []
  disconnected : s.worker.control.disconnected = true →
    s.receiverAlive = false ∧ Sys.queuedStarts s.channel = []

/-- Inside the loop nothing is to be shown. -/
theorem Leaving.of_inner {s : Sys} (hlossy : s.worker.control.lossy = false)
    (hpast : s.worker.control.pastPending = false) : Leaving s where
  lossless := hlossy
  emptied := fun h => by
    rw [hpast] at h
    cases h
  disconnected := fun h => by
    have hpast' : s.worker.control.pastPending = true := by
      unfold Control.disconnected at h
      split at h
      · rename_i hc; rw [hc]; rfl
      · rename_i hc; rw [hc]; rfl
      · cases h
    rw [hpast] at hpast'
    cases hpast'

namespace Sys

variable {s s' : Sys}

/-- A command is received inside the loop. -/
theorem receive_leaving {site : Site} (h : s.receive site = some s') : Leaving s' := by
  unfold receive at h
  split at h
  · cases h
  · dsimp only at h
    split at h
    · cases h; exact .of_inner (by cases site <;> rfl) (by cases site <;> rfl)
    · cases h; exact .of_inner (by cases site <;> rfl) (by cases site <;> rfl)
    · cases h; exact .of_inner (by cases site <;> rfl) (by cases site <;> rfl)
    · split at h
      · cases h; exact .of_inner rfl rfl
      · cases h; exact .of_inner rfl rfl

/-- The pool is chosen inside the loop. -/
theorem selectPool_leaving {index : Nat} {eligible : List Nat}
    (h : s.selectPool index eligible = some s') : Leaving s' := by
  obtain ⟨a, -, rfl⟩ := Option.map_eq_some_iff.mp h
  split <;> exact .of_inner rfl rfl

/-- So are the sessions taken, -/
theorem takeSessions_leaving {stepStarted : Nat} {todo : List Nat} {selected : List Selected}
    (h : s.takeSessions stepStarted todo selected = some s') : Leaving s' := by
  unfold takeSessions at h
  split at h
  · cases h; exact .of_inner rfl rfl
  · obtain ⟨a, -, rfl⟩ := Option.map_eq_some_iff.mp h
    dsimp only
    repeat' split
    all_goals exact .of_inner rfl rfl

/-- the packets matched with their requests, -/
theorem settle_leaving {stepMicroseconds : F32}
    {todo : List (Selected × Except FailureCause BackendPacket)}
    (h : s.settle stepMicroseconds todo = some s') : Leaving s' := by
  unfold settle at h
  split at h
  · cases h; exact .of_inner rfl rfl
  · obtain ⟨a, -, rfl⟩ := Option.map_eq_some_iff.mp h
    dsimp only
    repeat' split
    all_goals exact .of_inner rfl rfl

/-- and published. -/
theorem substep_leaving {id : Nat} {sub : Substep} {stepMicroseconds : F32}
    {todo : List (Selected × Except FailureCause BackendPacket)} :
    Leaving (s.substep id sub stepMicroseconds todo) := by
  unfold substep
  dsimp only
  repeat' split
  all_goals exact .of_inner rfl rfl

/-- A mark is no change of the worker. -/
@[simp] theorem applyMark_worker {id : Nat} {mark : Mark} :
    (s.applyMark id mark).worker = s.worker := by
  obtain ⟨k, hk⟩ := s.applyMark_eq id mark
  rw [hk]

/-- `retire_pending` is called in the loop, in the cleanup of `pending` and in that of the channel;
it leaves `pending` alone. -/
theorem retirePending_leaving {step : RetirePendingStep} {p : PendingStart} {k : PendingReturn}
    (hs : Leaving s) (hc : s.worker.control = .retirePending step p k) :
    Leaving (s.retirePending step p k) := by
  have hpending : (s.retirePending step p k).worker.pending = s.worker.pending := by
    cases step with
    | mark mark =>
      show (s.applyMark p.id mark).worker.pending = _
      rw [applyMark_worker]
    | release => rfl
    | markRetired =>
      show (s.onShared p.id .markRetired).worker.pending = _
      rw [onShared_worker]
  have hemptied := hs.emptied
  rw [hc] at hemptied
  refine ⟨?_, fun hpast => ?_, fun hdone => ?_⟩
  · cases step <;> cases k <;> rfl
  · rw [hpending]
    cases step <;> cases k <;> first | exact hemptied rfl | cases hpast
  · cases step <;> cases k <;> cases hdone

/-- `retire_active` comes back unless the destructor of the session panics. -/
theorem retireActive_leaving {step : RetireActiveStep} {a : ActiveRequest} {k : ActiveReturn}
    {panics : Bool} (hs : Leaving s) (hc : s.worker.control = .retireActive step a k)
    (hpanics : step = .dropSession → (panics && a.session.isSome) = false) :
    Leaving (s.retireActive step a k panics) := by
  have hlossless := hs.lossless
  rw [hc] at hlossless
  cases step with
  | release unwinding =>
    cases unwinding with
    | true => cases hlossless
    | false => exact .of_inner (by cases k <;> rfl) (by cases k <;> rfl)
  | dropSession =>
    unfold retireActive
    dsimp only
    rw [hpanics rfl]
    exact .of_inner rfl rfl
  | markRetired => exact .of_inner (by cases k <;> rfl) (by cases k <;> rfl)
  | cancelBackend mark => exact .of_inner (by cases mark <;> rfl) (by cases mark <;> rfl)
  | mark mark => exact .of_inner rfl rfl

/-- `pending` is empty when the worker turns to the channel. -/
theorem exitPending_leaving {panicked : Bool} : Leaving (s.exitPending panicked) := by
  unfold exitPending
  split
  · rename_i hpending
    exact ⟨rfl, fun _ => hpending, fun h => by cases h⟩
  · exact .of_inner rfl rfl

/-- The commands that are still in the channel are retired or dropped one by one. -/
theorem exitChannel_leaving {panicked : Bool} (hs : Leaving s)
    (hc : s.worker.control = .exitChannel panicked) : Leaving (s.exitChannel panicked) := by
  have hpending : s.worker.pending = [] := hs.emptied (by rw [hc]; rfl)
  unfold exitChannel
  split
  · exact ⟨rfl, fun _ => hpending, fun h => by cases h⟩
  · exact ⟨rfl, fun _ => hpending, fun h => by cases h⟩
  · refine ⟨hs.lossless, fun _ => hpending, fun hdone => ?_⟩
    have hdone' : s.worker.control.disconnected = true := hdone
    rw [hc] at hdone'
    cases hdone'

/-- The drop of the receiver finds no start command. -/
theorem discard_leaving (hs : Leaving s) (hc : s.worker.control = .discard) :
    Leaving s.discard := by
  have hpending : s.worker.pending = [] := hs.emptied (by rw [hc]; rfl)
  obtain ⟨hdead, hqueued⟩ := hs.disconnected (by rw [hc]; rfl)
  unfold discard
  split
  · exact ⟨rfl, fun _ => hpending, fun _ => ⟨hdead, hqueued⟩⟩
  · -- a start at the head of the channel contradicts the invariant
    rename_i hchannel
    rw [hchannel] at hqueued
    cases hqueued
  · rename_i command rest hstart hchannel
    refine ⟨hs.lossless, fun _ => hpending, fun _ => ⟨hdead, ?_⟩⟩
    rw [hchannel] at hqueued
    cases command with
    | start p => exact absurd rfl (hstart p)
    | _ => exact hqueued

/-- **A step that loses no request leads towards an orderly exit.** -/
theorem workerStep_leaving {choice : Choice} (hs : Leaving s)
    (hok : KeepsAll s (.worker choice)) (h : s.workerStep choice = some s') : Leaving s' := by
  have hlossless := hs.lossless
  unfold workerStep at h
  split at h
  all_goals try rename_i hc
  -- the loop
  case h_2 | h_20 => exact receive_leaving h
  case h_4 =>
    unfold drain at h
    split at h
    · cases h; exact .of_inner rfl rfl
    · exact receive_leaving h
  case h_6 =>
    unfold coalesce at h
    split at h
    · exact receive_leaving h
    · cases h; exact .of_inner rfl rfl
  case h_3 | h_5 | h_8 | h_22 =>
    split at h
    · cases h; exact .of_inner rfl rfl
    · cases h
  case h_7 | h_13 | h_15 | h_16 | h_21 | h_24 | h_25 =>
    cases h
    exact .of_inner rfl rfl
  case h_1 | h_9 | h_11 | h_12 | h_14 | h_17 | h_18 | h_28 | h_32 =>
    cases h
    refine .of_inner ?_ ?_
    all_goals
      simp only [top, gate, startCheck, startMark, startResults, removeCancelled, select,
        removeFinished, exitActive]
      repeat' split
    all_goals rfl
  case h_10 =>
    cases h
    rename_i site
    exact .of_inner (by cases site <;> rfl) (by cases site <;> rfl)
  case h_19 => exact selectPool_leaving h
  case h_23 => exact takeSessions_leaving h
  case h_26 => exact settle_leaving h
  case h_27 => cases h; exact substep_leaving
  -- retirement
  case h_29 => cases h; exact retirePending_leaving hs hc
  case h_30 => cases h; exact retireActive_leaving hs hc fun _ => rfl
  case h_31 =>
    cases h
    refine retireActive_leaving hs hc fun _ => ?_
    exact hok.1 rfl _ (by rw [dropping, hc]; rfl)
  -- the end of `worker_loop`
  case h_33 => cases h; exact exitPending_leaving
  case h_34 => cases h; exact exitChannel_leaving hs hc
  -- the unwinding of a panic, which the invariant excludes
  case h_35 | h_36 | h_37 | h_38 =>
    rw [hc] at hlossless
    cases hlossless
  -- the receiver is dropped: `KeepsAll` says that no start is in the channel
  case h_39 =>
    cases h
    have hqueued := hok.2 rfl (by rw [disconnecting, hc])
    exact ⟨rfl, fun _ => hs.emptied (by rw [hc]; rfl), fun _ => ⟨rfl, hqueued⟩⟩
  case h_40 => cases h; exact discard_leaving hs hc
  case h_41 => cases h

end Sys

/-! ## Frames -/

namespace Sys

variable {s s' : Sys} {a : Action}

@[simp] theorem goto_starting {control : Control} : (s.goto control).starting = s.starting := rfl

@[simp] theorem onShared_starting {id : Nat} {f : RequestShared → RequestShared} :
    (s.onShared id f).starting = s.starting := by
  obtain ⟨k, hk⟩ := s.onShared_eq id f
  rw [hk]

@[simp] theorem applyMark_starting {id : Nat} {mark : Mark} :
    (s.applyMark id mark).starting = s.starting := by
  obtain ⟨k, hk⟩ := s.applyMark_eq id mark
  rw [hk]

@[simp] theorem release_starting {id : Nat} : (s.release id).starting = s.starting := rfl

/-- A call on a session. -/
theorem emitSession_starting {r : ActiveRequest} {event : Event} :
    (s.emitSession r event).starting = s.starting := by
  unfold emitSession
  split <;> rfl

/-- The events of a batch call. -/
theorem emitAll_starting {events : List (Nat × List Event)} :
    (emitAll events s).starting = s.starting := by
  induction events generalizing s with
  | nil => rfl
  | cons entry events ih => exact ih

/-- The worker reads the channel, not the calls that have yet to send. -/
theorem receive_starting {site : Site} (h : s.receive site = some s') :
    s'.starting = s.starting := by
  unfold receive at h
  split at h
  · cases h
  · dsimp only at h
    repeat' split at h
    all_goals
      cases h
      rfl

/-- The sessions and buffers are taken from `active` and from the shared states. -/
theorem takeSessions_starting {stepStarted : Nat} {todo : List Nat} {selected : List Selected}
    (h : s.takeSessions stepStarted todo selected = some s') : s'.starting = s.starting := by
  unfold takeSessions at h
  split at h
  · cases h
    rfl
  · obtain ⟨a, -, rfl⟩ := Option.map_eq_some_iff.mp h
    dsimp only
    split
    · exact applyMark_starting
    · split
      · rfl
      · exact onShared_starting

/-- A packet is matched with its request. -/
theorem settle_starting {stepMicroseconds : F32}
    {todo : List (Selected × Except FailureCause BackendPacket)}
    (h : s.settle stepMicroseconds todo = some s') : s'.starting = s.starting := by
  unfold settle at h
  split at h
  · cases h
    rfl
  · obtain ⟨a, -, rfl⟩ := Option.map_eq_some_iff.mp h
    dsimp only
    repeat' split
    all_goals rfl

/-- The steps of `retire_active` write into the request and into the worker. -/
theorem retireActive_starting {step : RetireActiveStep} {r : ActiveRequest} {k : ActiveReturn}
    {panics : Bool} : (s.retireActive step r k panics).starting = s.starting := by
  cases step with
  | cancelBackend mark => exact emitSession_starting
  | mark mark => exact applyMark_starting
  | dropSession => exact emitSession_starting
  | release unwinding => rfl
  | markRetired => exact onShared_starting

/-- The worker does not see the calls of `start` that have not sent yet. -/
theorem workerStep_starting {choice : Choice} (h : s.workerStep choice = some s') :
    s'.starting = s.starting := by
  -- no step of the worker reads or writes the calls that are starting; the cases are grouped by
  -- what they call
  unfold workerStep at h
  split at h
  case h_2 | h_20 => exact receive_starting h
  case h_4 =>
    unfold drain at h
    split at h
    · cases h; rfl
    · exact receive_starting h
  case h_6 =>
    unfold coalesce at h
    split at h
    · exact receive_starting h
    · cases h; rfl
  case h_3 | h_5 | h_8 | h_22 =>
    split at h
    · cases h; rfl
    · cases h
  case h_7 | h_15 | h_16 | h_21 | h_37 | h_39 => cases h; rfl
  case h_13 | h_25 => cases h; exact emitAll_starting
  case h_19 =>
    obtain ⟨a, -, rfl⟩ := Option.map_eq_some_iff.mp h
    split <;> rfl
  case h_23 => exact takeSessions_starting h
  case h_24 => cases h; exact applyMark_starting
  case h_26 => exact settle_starting h
  case h_1 | h_9 | h_11 | h_17 | h_18 | h_28 | h_32 | h_33 | h_34 | h_38 | h_40 =>
    cases h
    simp only [top, gate, startCheck, removeCancelled, select, removeFinished, exitActive,
      exitPending, exitChannel, unwindPending, discard]
    repeat' split
    all_goals rfl
  case h_10 | h_12 | h_14 | h_27 =>
    cases h
    simp only [cancelActive, startMark, startResults, substep]
    repeat' split
    all_goals first
      | rfl
      | exact onShared_starting
  case h_29 =>
    cases h
    rename_i step p k _
    cases step with
    | mark mark => exact applyMark_starting
    | release => rfl
    | markRetired => exact onShared_starting
  case h_30 | h_31 => cases h; exact retireActive_starting
  case h_35 | h_36 =>
    cases h
    unfold unwindActive
    split
    · rfl
    · exact emitSession_starting
  case h_41 => cases h

/-- What a client leaves of the calls of `start` and of the channel. -/
structure ClientFrame (s : Sys) (a : Action) (s' : Sys) : Prop where
  receiver : s'.receiverAlive = s.receiverAlive
  queued : s.receiverAlive = false → queuedStarts s'.channel = queuedStarts s.channel
  starting : ∀ p ∈ s'.starting, a ≠ .sendStart p.id ∧ (p ∈ s.starting ∨ p.id = s.nextRequestId)

/-- Neither the calls of `start` nor the queued start commands change. -/
structure SameCalls (s s' : Sys) : Prop where
  receiver : s'.receiverAlive = s.receiverAlive
  starting : s'.starting = s.starting
  queued : queuedStarts s'.channel = queuedStarts s.channel

/-- One after the other. -/
theorem SameCalls.trans {t : Sys} (h : SameCalls s t) (h' : SameCalls t s') : SameCalls s s' :=
  ⟨h'.receiver.trans h.receiver, h'.starting.trans h.starting, h'.queued.trans h.queued⟩

/-- Such a step is no `send` of a start. -/
theorem SameCalls.frame (h : SameCalls s s') (ha : ∀ id, a ≠ .sendStart id) :
    ClientFrame s a s' where
  receiver := h.receiver
  queued := fun _ => h.queued
  starting := fun p hp => ⟨ha p.id, .inl (h.starting ▸ hp)⟩

/-- A command that is no start is appended to the channel or dropped. -/
theorem sameCalls_trySend {command : Command} (h : ∀ p, command ≠ .start p) :
    SameCalls s (s.trySend command) := by
  refine ⟨?_, ?_, ?_⟩
  · rw [trySend_eq]
  · rw [trySend_eq]
  · unfold trySend
    split
    · cases command with
      | start p => exact absurd rfl (h p)
      | _ => simp
    · rfl

/-- Critical sections only add wake commands. -/
theorem sameCalls_onShared {id : Nat} {f : RequestShared → RequestShared} :
    SameCalls s (s.onShared id f) := by
  obtain ⟨k, hk⟩ := s.onShared_eq id f
  rw [hk]
  exact ⟨rfl, rfl, by simp [queuedStarts_wakes]⟩

/-- `start` adds one call, under the next id. -/
theorem start_frame {input : RequestInput} {generation : GenerationConfig}
    (h : s.start input generation = .ok s') : ClientFrame s (.start input generation) s' := by
  unfold start at h
  repeat' split at h
  all_goals cases h
  refine ⟨rfl, fun _ => rfl, fun p hp => ⟨by simp, ?_⟩⟩
  rcases List.mem_append.mp hp with hold | hnew
  · exact .inl hold
  · rw [List.mem_singleton.mp hnew]
    exact .inr rfl

/-- The `send` ends its call; without a receiver the channel stays as it is. -/
theorem sendStart_frame {id : Nat} (h : s.sendStart id = some s') :
    ClientFrame s (.sendStart id) s' := by
  -- the other calls stay
  have hrest : ∀ p ∈ s.starting.filter (fun q => q.id ≠ id),
      Action.sendStart id ≠ .sendStart p.id ∧ (p ∈ s.starting ∨ p.id = s.nextRequestId) := by
    intro p hp
    obtain ⟨hmem, hne⟩ := List.mem_filter.mp hp
    refine ⟨fun heq => ?_, .inl hmem⟩
    simp only [ne_eq, decide_not, Bool.not_eq_true', decide_eq_false_iff_not] at hne
    exact hne (Action.sendStart.inj heq).symm
  unfold sendStart at h
  split at h
  · cases h
  · split at h
    · rename_i halive
      split at h
      · cases h
        exact ⟨rfl, fun hdead => absurd (halive.symm.trans hdead) (by decide), hrest⟩
      · cases h
    · cases h
      exact ⟨rfl, fun _ => rfl, hrest⟩

/-- `poll` may wake the worker. -/
theorem poll_sameCalls {id : Nat} (h : s.poll id = some s') : SameCalls s s' := by
  unfold poll at h
  split at h
  · cases h
    have hshared : SameCalls s ((s.onShared id fun _ => ((s.shared id).poll s.now).2).emit id
        (.polled ((s.shared id).poll s.now).1)) := by
      obtain ⟨hreceiver, hstarting, hqueued⟩ := s.sameCalls_onShared (f := fun _ => ((s.shared id).poll s.now).2)
      exact ⟨hreceiver, hstarting, hqueued⟩
    dsimp only
    split
    · refine .trans ?_ (sameCalls_trySend (by simp))
      exact ⟨hshared.receiver, hshared.starting, hshared.queued⟩
    · exact hshared
  · cases h

/-- Every step of a client keeps the frame. -/
theorem step_clientFrame (ha : ∀ choice, a ≠ .worker choice) (h : s.step a = some s') :
    ClientFrame s a s' := by
  cases a with
  | tick => cases h; exact SameCalls.frame ⟨rfl, rfl, rfl⟩ (by simp)
  | start input generation =>
    simp only [step] at h
    split at h
    · cases h
      split
      · exact start_frame (by assumption)
      · exact SameCalls.frame ⟨rfl, rfl, rfl⟩ (by simp)
    · cases h
  | sendStart id => exact sendStart_frame h
  | dropScheduler =>
    simp only [step] at h
    split at h
    · cases h; exact SameCalls.frame ⟨rfl, rfl, rfl⟩ (by simp)
    · cases h
  | sendShutdown =>
    simp only [step] at h
    split at h
    · cases h
      refine SameCalls.frame (.trans ?_ (sameCalls_trySend (by simp))) (by simp)
      exact ⟨rfl, rfl, rfl⟩
    · cases h
  | poll id => exact (poll_sameCalls h).frame (by simp)
  | cancelSwap id =>
    simp only [step, cancelSwap] at h
    split at h
    · cases h; exact SameCalls.frame ⟨rfl, rfl, rfl⟩ (by simp)
    · cases h
  | cancelMark id =>
    simp only [step, cancelMark] at h
    split at h
    · cases h
      -- marking touches one request
      obtain ⟨hreceiver, hstarting, hqueued⟩ :=
        s.sameCalls_onShared (f := fun _ => (s.shared id).requestCancel.2)
      split
      · exact SameCalls.frame ⟨hreceiver, hstarting, hqueued⟩ (by simp)
      · exact SameCalls.frame ⟨hreceiver, hstarting, hqueued⟩ (by simp)
    · cases h
  | cancelSend id =>
    simp only [step, cancelSend] at h
    split at h
    · cases h
      have hsend : SameCalls s (s.trySend (.cancel id)) := sameCalls_trySend (by simp)
      obtain ⟨hreceiver, hstarting, hqueued⟩ := hsend
      exact SameCalls.frame ⟨hreceiver, hstarting, hqueued⟩ (by simp)
    · cases h
  | dropHandle id =>
    simp only [step, dropHandle] at h
    split at h
    · cases h; exact SameCalls.frame ⟨rfl, rfl, rfl⟩ (by simp)
    · cases h
  | dropPacket id index =>
    simp only [step, dropPacket] at h
    split at h
    · cases h
    · cases h
      refine SameCalls.frame ?_ (by simp)
      split
      · refine .trans ?_ sameCalls_onShared
        exact ⟨rfl, rfl, rfl⟩
      · exact ⟨rfl, rfl, rfl⟩
  | worker choice => exact absurd rfl (ha choice)

end Sys

/-! ## Accounting for the requests that were handed out -/

/-- A request whose handle was returned was admitted once, and it is retired, or about to be, once
its permit is given back. -/
structure Accounted (s : Sys) : Prop where
  starting : ∀ p ∈ s.starting, (s.requests p.id).handle = .notReturned
  admitted : ∀ id, (s.requests id).handle ≠ .notReturned → admissions (s.requests id).history = 1
  retired : ∀ id, (s.requests id).handle ≠ .notReturned → .released ∈ (s.requests id).history →
    (s.requests id).state.retired = true ∨ s.worker.control.retiring = some id

/-- What is known of a state whose history kept every request. -/
structure Orderly (s : Sys) : Prop where
  coherent : Coherent s
  permits : ∀ id, Permits (s.localOf id)
  settled : ∀ id, Settled (s.localOf id)
  leaving : Leaving s
  accounted : Accounted s

/-- Before the first step nothing was handed out. -/
theorem orderly_init (config : EngineConfig) : Orderly (.init config) where
  coherent := coherent_init config
  permits := fun id => permits_inductive.unused (Sys.init config).env id
  settled := fun id => settled_inductive.unused (Sys.init config).env id
  leaving := .of_inner rfl rfl
  accounted := ⟨fun _ hp => (by cases hp), fun _ h => absurd rfl h, fun _ h => absurd rfl h⟩

section

variable {s s' : Sys} {a : Action}

/-- A permit is dropped just before the request is marked as retired. -/
theorem retiring_of_releasing {choice : Choice} (hs : Leaving s)
    (h : s.workerStep choice = some s') {id : Nat} (hid : s.releasing = some id) :
    s'.worker.control.retiring = some id := by
  have hlossless := hs.lossless
  have hdisconnected := hs.disconnected
  unfold Sys.releasing at hid
  split at hid
  all_goals try rename_i hc
  · cases choice with
    | run =>
      unfold Sys.workerStep at h
      rw [hc] at h
      cases h
      exact hid
    | _ =>
      unfold Sys.workerStep at h
      rw [hc] at h
      cases h
  · -- a release that unwinds has lost a request, which is excluded
    rename_i unwinding r k
    cases unwinding with
    | true =>
      rw [hc] at hlossless
      cases hlossless
    | false =>
      cases choice with
      | run =>
        unfold Sys.workerStep at h
        rw [hc] at h
        cases h
        exact hid
      | _ =>
        unfold Sys.workerStep at h
        rw [hc] at h
        cases h
  · rw [hc] at hlossless
    cases hlossless
  · rw [hc] at hlossless
    cases hlossless
  · rw [(hdisconnected (by rw [hc]; rfl)).2] at hid
    cases hid
  · cases hid

/-- The request that is marked as retired in this step. -/
theorem retired_of_retiring {choice : Choice} (h : s.workerStep choice = some s') {id : Nat}
    (hid : s.worker.control.retiring = some id) : (s'.requests id).state.retired = true := by
  unfold Control.retiring at hid
  split at hid
  all_goals try rename_i hc
  · cases hid
    -- the two last steps of a retirement set the flag
    cases choice with
    | run =>
      unfold Sys.workerStep at h
      rw [hc] at h
      cases h
      simp only [Sys.retirePending, Sys.goto_requests, Sys.onShared_requests, Function.update_self]
      rfl
    | _ =>
      unfold Sys.workerStep at h
      rw [hc] at h
      cases h
  · cases hid
    cases choice with
    | run =>
      unfold Sys.workerStep at h
      rw [hc] at h
      cases h
      simp only [Sys.retireActive, Sys.goto_requests, Sys.onShared_requests, Function.update_self]
      rfl
    | _ =>
      unfold Sys.workerStep at h
      rw [hc] at h
      cases h
  · cases hid

/-- A request that was admitted stays admitted. -/
theorem admitted_step (hsim : Sim s a s') {id : Nat}
    (h : admissions (s.requests id).history = 1) : admissions (s'.requests id).history = 1 := by
  rcases hsim.changes id with heq | ⟨label, -, hlocal⟩
  · rw [show s'.requests id = s.requests id from congrArg Local.request heq]
    exact h
  · rcases Permits.step_admissions hlocal with hsame | hadmit
    · exact hsame.trans h
    · exact hadmit.1

/-- The worker gives a permit back just before it marks the request as retired. -/
theorem Accounted.worker_step {choice : Choice} (hs : Orderly s)
    (h : s.workerStep choice = some s') : Accounted s' := by
  have hsim : Sim s (.worker choice) s' := workerStep_sim hs.coherent h
  have htouch := Sys.workerStep_touch h
  refine ⟨fun p hp => ?_, fun id hid => ?_, fun id hid hreleased => ?_⟩
  · rw [Sys.workerStep_starting h] at hp
    rw [(htouch p.id).handle]
    exact hs.accounted.starting p hp
  · rw [(htouch id).handle] at hid
    exact admitted_step hsim (hs.accounted.admitted id hid)
  · rw [(htouch id).handle] at hid
    -- the permit is the one of this step, or was given back before
    rcases (htouch id).released hreleased with hold | hreleasing
    · rcases hs.accounted.retired id hid hold with hretired | hretiring
      · exact .inl ((htouch id).retired hretired)
      · exact .inl (retired_of_retiring h hretiring)
    · exact .inr (retiring_of_releasing hs.leaving h hreleasing)

/-- A `send` step belongs to a call of `start` that is under way. -/
theorem starting_of_sendStart {id : Nat} (h : s.step (.sendStart id) = some s') :
    ∃ p ∈ s.starting, p.id = id := by
  simp only [Sys.step, Sys.sendStart] at h
  split at h
  · cases h
  · rename_i p hfind
    exact ⟨p, List.mem_of_find?_eq_some hfind, by simpa using List.find?_some hfind⟩

/-- The stage of a request that has yet to be sent. -/
theorem Coherent.starting_stage (hs : Coherent s) {p : PendingStart} (hp : p ∈ s.starting) :
    (s.localOf p.id).stage = some (.waiting p) := by
  refine assoc_of_mem hs.distinct ?_
  simp only [Sys.stages, List.mem_append]
  exact .inl (List.mem_map.mpr ⟨p, hp, rfl⟩)

/-- A client gives a permit back only in a `start` that fails, and then returns no handle. -/
theorem Accounted.client_step (hs : Orderly s) (ha : ∀ choice, a ≠ .worker choice)
    (h : s.step a = some s') : Accounted s' := by
  have hsim := step_sim hs.coherent h
  have htouch := Sys.step_clientTouch hs.coherent ha h
  have hframe := Sys.step_clientFrame ha h
  have hworker := Sys.step_client ha h
  refine ⟨fun p hp => ?_, fun id hid => ?_, fun id hid hreleased => ?_⟩
  · obtain ⟨hsend, hfrom⟩ := hframe.starting p hp
    -- a request under way was not returned, unless this step sends it
    by_contra hreturned
    rcases (htouch p.id).returned hreturned with hbefore | ⟨heq, -⟩
    · rcases hfrom with hold | hnew
      · exact hbefore (hs.accounted.starting p hold)
      · rw [hnew, (hs.coherent.fresh _ le_rfl).1] at hbefore
        exact hbefore rfl
    · exact hsend heq
  · -- admitted before, or returned by this step, which held its permit
    rcases (htouch id).returned hid with hbefore | ⟨rfl, -⟩
    · exact admitted_step hsim (hs.accounted.admitted id hbefore)
    · obtain ⟨p, hp, rfl⟩ := starting_of_sendStart h
      exact admitted_step hsim ((hs.permits p.id).staged (by rw [hs.coherent.starting_stage hp]; rfl))
  · rcases (htouch id).returned hid with hbefore | ⟨rfl, halive⟩
    · rcases (htouch id).released hreleased with hold | ⟨rfl, hdead⟩
      · rw [hworker]
        exact (hs.accounted.retired id hbefore hold).imp_left (htouch id).retired
      · obtain ⟨p, hp, rfl⟩ := starting_of_sendStart h
        exact absurd (hs.accounted.starting p hp) hbefore
    · -- a request that is only now handed out owns its permit
      obtain ⟨p, hp, rfl⟩ := starting_of_sendStart h
      rcases (htouch p.id).released hreleased with hold | ⟨-, hdead⟩
      · have hstage := hs.coherent.starting_stage hp
        have hpermits := hs.permits p.id
        have hconserved := hpermits.conserved
        have hadmitted := hpermits.staged (by rw [hstage]; rfl)
        rw [hadmitted, hstage] at hconserved
        have hnone : releases (s.requests p.id).history = 0 := by
          have h1 : 1 = 1 + releases (s.requests p.id).history := hconserved
          omega
        exact absurd hold (List.count_eq_zero.mp hnone)
      · rw [halive] at hdead
        cases hdead

/-- A step that loses no request keeps everything that is known. -/
theorem Orderly.step (hs : Orderly s) (hok : KeepsAll s a) (h : s.step a = some s') :
    Orderly s' := by
  have hsim := step_sim hs.coherent h
  have hpermits := permits_inductive.sys_step hsim (fun _ _ _ => trivial) hs.permits
  have hsettled := settled_inductive.sys_step hsim (fun _ _ _ => trivial) hs.settled
  -- the worker moves the control, a client leaves it alone
  by_cases hworker : ∃ choice, a = .worker choice
  · obtain ⟨choice, rfl⟩ := hworker
    exact ⟨hsim.coherent, hpermits, hsettled, Sys.workerStep_leaving hs.leaving hok h,
      .worker_step hs h⟩
  · have hclient : ∀ choice, a ≠ .worker choice := fun choice heq => hworker ⟨choice, heq⟩
    have hframe := Sys.step_clientFrame hclient h
    have hsame := Sys.step_client hclient h
    refine ⟨hsim.coherent, hpermits, hsettled, ⟨?_, ?_, fun hdone => ?_⟩, .client_step hs hclient h⟩
    · rw [hsame]; exact hs.leaving.lossless
    · rw [hsame]; exact hs.leaving.emptied
    · rw [hsame] at hdone
      obtain ⟨hdead, hqueued⟩ := hs.leaving.disconnected hdone
      exact ⟨hframe.receiver.trans hdead, (hframe.queued hdead).trans hqueued⟩

/-! ## The end of the worker -/

/-- Nothing is left when the worker has stopped and no call of `start` is under way. -/
theorem Orderly.stage_none (hs : Orderly s) (hstopped : s.worker.control = .stopped)
    (hstarts : s.starting = []) (id : Nat) : (s.localOf id).stage = none := by
  have hqueued := (hs.leaving.disconnected (by rw [hstopped]; rfl)).2
  have hpending := hs.leaving.emptied (by rw [hstopped]; rfl)
  have hactive := hs.coherent.window.emptied (by rw [hstopped]; rfl)
  have hstages : s.stages = [] := by
    rw [Sys.stages, hstarts, hqueued, Worker.stages, hpending, hstopped, hactive]
    rfl
  show assoc s.stages id = none
  rw [hstages]
  rfl

end

/-- **No request is stranded** in a run in which no session destructor panics in `retire_active`
and no start command is discarded with the channel. -/
theorem none_stranded {config : EngineConfig} {actions : List Action} {s : Sys}
    (hkeeps : Along Sys.step KeepsAll (.init config) actions)
    (hrun : run Sys.step (.init config) actions = some s)
    (hstopped : s.worker.control = .stopped) (hstarts : s.starting = []) (id : Nat)
    (hreturned : (s.requests id).handle ≠ .notReturned) : LetGo (s.requests id) := by
  have hs : Orderly s :=
    invariant_of_step (fun _ _ _ hs hok hstep => hs.step hok hstep) (orderly_init config) hkeeps hrun
  -- no stage is left, so the permit has been given back
  have hreleased : releases (s.requests id).history = 1 := by
    have hconserved := (hs.permits id).conserved
    rw [hs.stage_none hstopped hstarts id] at hconserved
    have hadmitted := hs.accounted.admitted id hreturned
    have hsum : 1 = 0 + releases (s.requests id).history := hadmitted.symm.trans hconserved
    omega
  have hmem : .released ∈ (s.requests id).history :=
    List.count_pos_iff.mp (by rw [releases] at hreleased; omega)
  rcases hs.accounted.retired id hreturned hmem with hretired | hretiring
  · exact ⟨hretired, ((hs.settled id).retired hretired).pollsToEnd, hreleased⟩
  · rw [hstopped] at hretiring
    cases hretiring

/-- The scheduler is dropped while `start_batch` runs; the request is cancelled on the way out. -/
def runToShutdown : List Action :=
  runToStart 2 ++ [.worker (.startBatch (some [.ok ⟨0, 0, 0⟩])), .dropScheduler, .sendShutdown]
    ++ Action.workerRuns 10
    ++ [stepReturns (some [.ok { finalPacket with isFinal := false, finishReason := .none }])]
    ++ Action.workerRuns 19

/-- What the theorem asks of the end of a run. -/
def Sys.ended (s : Sys) (id : Nat) : Bool :=
  (match s.worker.control with
    | .stopped => true
    | _ => false) && s.starting.isEmpty && (s.requests id).handle = .owned

/-- Read back. -/
theorem Sys.of_ended {s : Sys} {id : Nat} (h : s.ended id = true) : s.worker.control = .stopped ∧
    s.starting = [] ∧ (s.requests id).handle = .owned := by
  unfold ended at h
  simp only [Bool.and_eq_true, List.isEmpty_iff, decide_eq_true_eq] at h
  obtain ⟨⟨hstopped, hstarts⟩, howned⟩ := h
  refine ⟨?_, hstarts, howned⟩
  split at hstopped
  · assumption
  · cases hstopped

set_option maxRecDepth 20000 in
/-- A request that the scheduler's drop cancels. -/
theorem none_stranded_shutdown : ∃ s, run Sys.step (.init smallConfig) runToShutdown = some s ∧
    s.worker.control = .stopped ∧ LetGo (s.requests 1) := by
  have hdone : (run Sys.step (.init smallConfig) runToShutdown).map (·.ended 1) = some true := by
    decide
  have hkeeps : Along Sys.step KeepsAll (.init smallConfig) runToShutdown := by
    decide
  obtain ⟨s, hrun, hended⟩ := Option.map_eq_some_iff.mp hdone
  obtain ⟨hstopped, hstarts, howned⟩ := Sys.of_ended hended
  have hreturned : (s.requests 1).handle ≠ .notReturned := by
    rw [howned]
    decide
  exact ⟨s, hrun, hstopped, none_stranded hkeeps hrun hstopped hstarts 1 hreturned⟩

/-! ## Requests left behind -/

/-- The session of a finished request panics when it is dropped. -/
def runToDropPanic : List Action :=
  runToStep 1 ++ [stepReturns (some [.ok finalPacket])] ++ Action.workerRuns 4
    ++ [.worker .dropPanics] ++ Action.workerRuns 6

/-- A panic of a surplus session ends the worker, and a second `start` sends its request after
the last `try_recv`. -/
def runToLateStart : List Action :=
  runToStart 2 ++ [.worker (.startBatch (some [.ok ⟨0, 0, 0⟩, .ok ⟨0, 0, 0⟩]))]
    ++ Action.workerRuns 4 ++ [.worker .dropPanics] ++ Action.workerRuns 3
    ++ [.start ⟨"b", ""⟩ { GenerationConfig.default with maxCodecFrames := 1 }, .sendStart 2]
    ++ Action.workerRuns 3

set_option maxRecDepth 20000 in
/-- The worker has ended and `start` has returned both handles. The first request is never
retired, although its stream ended; the second one neither is retired nor ever polled to an end. -/
theorem stranded :
    (∃ s, run Sys.step (.init smallConfig) runToDropPanic = some s ∧
      s.worker.control = .stopped ∧ s.starting = [] ∧ (s.requests 1).handle = .owned ∧
      (s.requests 1).state.retired = false ∧ ¬ LetGo (s.requests 1)) ∧
    ∃ s, run Sys.step (.init smallConfig) runToLateStart = some s ∧
      s.worker.control = .stopped ∧ s.starting = [] ∧ (s.requests 2).handle = .owned ∧
      (∀ now, ((s.shared 2).poll now).1 = .wouldBlock) ∧ ¬ LetGo (s.requests 2) := by
  -- both runs end with the worker stopped and the request not retired
  have hends : ∀ actions id, (run Sys.step (.init smallConfig) actions).map
      (fun s => (s.ended id, (s.requests id).shared.state.retired)) = some (true, false) →
      ∃ s, run Sys.step (.init smallConfig) actions = some s ∧ s.worker.control = .stopped ∧
        s.starting = [] ∧ (s.requests id).handle = .owned ∧
        (s.requests id).state.retired = false ∧ ¬ LetGo (s.requests id) := by
    intro actions id hmap
    obtain ⟨s, hrun, hresult⟩ := Option.map_eq_some_iff.mp hmap
    obtain ⟨hended, hretired⟩ := Prod.mk.inj hresult
    obtain ⟨hstopped, hstarts, howned⟩ := Sys.of_ended hended
    refine ⟨s, hrun, hstopped, hstarts, howned, hretired, fun hgo => ?_⟩
    exact absurd (hgo.retired.symm.trans hretired) (by decide)
  refine ⟨hends _ 1 (by decide), ?_⟩
  obtain ⟨s, hrun, hstopped, hstarts, howned, -, hgo⟩ := hends runToLateStart 2 (by decide)
  refine ⟨s, hrun, hstopped, hstarts, howned, fun now => ?_, hgo⟩
  -- in the second the request is still queued and open, so `poll` goes on waiting
  have hopen : (run Sys.step (.init smallConfig) runToLateStart).map
      (fun s => (((s.shared 2).state.failure.isNone, (s.shared 2).state.cancelRequested,
        (s.shared 2).state.phase), (s.shared 2).state.packets.isEmpty,
        (s.shared 2).state.producerFinished)) = some ((true, false, .queued), true, false) := by
    decide
  rw [hrun] at hopen
  simp only [Option.map_some, Option.some.injEq, Prod.mk.injEq, Option.isNone_iff_eq_none,
    List.isEmpty_iff] at hopen
  obtain ⟨⟨hfailure, hcancel, hphase⟩, hpackets, hproducer⟩ := hopen
  simp [RequestShared.poll, hfailure, hcancel, hphase, hpackets, hproducer]

end Qwen3Tts.Runtime
