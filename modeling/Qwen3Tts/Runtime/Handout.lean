import Qwen3Tts.Runtime.Delivery
import Qwen3Tts.Runtime.Touch

/-!
# Runtime — what reaches the client

Two facts about what a client can see. Packets reach it in one place: what it holds of a request,
and what it was handed so far, change at a `poll` of that request and at no other step, except
that dropping a packet gives it up. And the failure a request ends with is one the backend
returned or one the scheduler made itself: behind the C interface none has the status of a
success.
-/

namespace Qwen3Tts.Runtime

open Qwen3Tts.Lib

/-! ## The errors of the native backend -/

/-- The statuses `native_backend.rs` gives its errors: those of `map_talker_error` and
`map_codec_error`, and literals among them. -/
def RuntimeStatus.isFailure : RuntimeStatus → Bool
  | .invalidArgument | .model | .allocation | .cuda | .state | .internal => true
  | .ok | .wouldBlock | .endOfStream | .invalidUtf8 | .unsupportedLanguage | .cancelled => false

/-- The status is one of those. -/
def BackendError.Native (error : BackendError) : Prop := error.status.isFailure = true

/-- One entry of a batched answer. -/
def nativeResult {β : Type} : Except BackendError β → Bool
  | .error error => error.status.isFailure
  | .ok _ => true

/-- Every error a backend call returns is one of the native backend. -/
def Choice.native : Choice → Bool
  | .startBatch (some results) => results.all nativeResult
  | .stepBatch _ (some results) => results.all nativeResult
  | _ => true

/-- The step is one of a scheduler of the native backend. -/
def Action.native : Action → Bool
  | .worker choice => choice.native
  | _ => true

/-! ## The failures the worker has in hand -/

/-- A mark whose error is native. -/
def Mark.Native : Mark → Prop
  | .cancelled => True
  | .failed cause => cause.error.Native

/-- The results of a batched call that are still to be looked at. -/
def NativeCauses {α β : Type} (todo : List (α × Except FailureCause β)) : Prop :=
  ∀ entry ∈ todo, ∀ cause, entry.2 = .error cause → cause.error.Native

/-- A step of `complete_step` that fails the request does so with a native error. -/
def Substep.Native : Substep → Prop
  | .recycle _ cause | .fail cause => cause.error.Native
  | .push _ _ | .rejected _ | .overflow => True

/-- The mark that is still to be made. -/
def RetirePendingStep.Native : RetirePendingStep → Prop
  | .mark todo => todo.Native
  | .release | .markRetired => True

/-- The same for an active request, whose mark waits behind the cancellation in the backend. -/
def RetireActiveStep.Native : RetireActiveStep → Prop
  | .mark todo | .cancelBackend (some todo) => todo.Native
  | .cancelBackend none | .dropSession | .release _ | .markRetired => True

/-- Where `retire_pending` returns to: the other results of `start_batch`. -/
def PendingReturn.Native : PendingReturn → Prop
  | .startResults _ todo => NativeCauses todo
  | _ => True

/-- Every error the worker holds at a program point is native. -/
def Control.Native : Control → Prop
  | .startResults _ todo | .startSnapshot _ _ todo => NativeCauses todo
  | .settle _ todo => NativeCauses todo
  | .substep _ sub _ todo => sub.Native ∧ NativeCauses todo
  | .retirePending step _ k => step.Native ∧ k.Native
  | .retireActive step _ _ => step.Native
  | _ => True

/-- What a request fails with. -/
def RequestShared.NativeFailure (r : RequestShared) : Prop :=
  ∀ error, r.state.failure = some error → error.Native

namespace Sys

/-! ## One step of the worker -/

/-- The tables of requests around a step: every client holds the packets it held, and no request
fails with anything but an error of the native backend. -/
structure WorkerMove (before after : Nat → Request) : Prop where
  hands : ∀ id, (after id).outstanding = (before id).outstanding
  failure : ∀ id, (before id).shared.NativeFailure → (after id).shared.NativeFailure

namespace WorkerMove

variable {s s' : Sys} {before after final : Nat → Request} {key : Nat}

/-- A step that leaves every request alone. -/
theorem refl : WorkerMove before before := ⟨fun _ => rfl, fun _ hs => hs⟩

/-- The table is the same. -/
theorem same (h : s'.requests = s.requests) : WorkerMove s.requests s'.requests := by
  rw [h]
  exact refl

/-- One after the other. -/
theorem trans (h : WorkerMove before after) (h' : WorkerMove after final) :
    WorkerMove before final where
  hands := fun id => (h'.hands id).trans (h.hands id)
  failure := fun id hs => h'.failure id (h.failure id hs)

/-- Writing one entry of the table. -/
theorem update {r' : Request} (hands : r'.outstanding = (before key).outstanding)
    (failure : (before key).shared.NativeFailure → r'.shared.NativeFailure) :
    WorkerMove before (Function.update before key r') := by
  constructor
  · intro id
    by_cases hid : id = key
    · subst hid
      rw [Function.update_self]
      exact hands
    · rw [Function.update_of_ne hid]
  · intro id hs
    by_cases hid : id = key
    · subst hid
      rw [Function.update_self]
      exact failure hs
    · rw [Function.update_of_ne hid]
      exact hs

/-- An event in the history. -/
theorem emit {event : Event} : WorkerMove s.requests (s.emit key event).requests :=
  update Request.emit_outstanding fun hs => hs

/-- A permit given back. -/
theorem release : WorkerMove s.requests (s.release key).requests :=
  @emit { s with used := s.used - 1 } key .released

/-- A critical section on the request. -/
theorem onShared {f : RequestShared → RequestShared}
    (hf : (s.shared key).NativeFailure → (f (s.shared key)).NativeFailure) :
    WorkerMove s.requests (s.onShared key f).requests := by
  rw [onShared_requests]
  exact update Request.onShared_outstanding hf

/-- A mark with an error in hand. -/
theorem mark {mark : Mark} (h : mark.Native) :
    WorkerMove s.requests (s.applyMark key mark).requests := by
  cases mark with
  | cancelled => exact onShared fun hs => hs
  | failed cause =>
    have hmark : WorkerMove (s.emit key (.markedFailed cause)).requests
        ((s.emit key (.markedFailed cause)).onShared key (·.markFailed cause.error)).requests := by
      refine onShared fun _ error herror => ?_
      cases herror
      exact h
    exact emit.trans hmark

/-- A call on a session. -/
theorem emitSession {a : ActiveRequest} {event : Event} :
    WorkerMove s.requests (s.emitSession a event).requests := by
  unfold Sys.emitSession
  split
  · exact emit
  · exact refl

/-- The events of a batch call. -/
theorem emitAll {events : List (Nat × List Event)} :
    WorkerMove s.requests (emitAll events s).requests := by
  induction events generalizing s with
  | nil => exact refl
  | cons entry events ih =>
    have hhead : WorkerMove s.requests (s.onRequest entry.1 (·.emitAll entry.2)).requests :=
      update Request.emitAll_outstanding fun hs => hs
    exact hhead.trans ih

end WorkerMove

variable {s s' s'' : Sys} {key : Nat} {choice : Choice}

/-- A request without a session fails with an error of the scheduler; from any other the buffer is
taken. -/
theorem takeSessions_move {stepStarted : Nat} {todo : List Nat} {selected : List Selected}
    (h : s.takeSessions stepStarted todo selected = some s') : WorkerMove s.requests s'.requests := by
  unfold takeSessions at h
  split at h
  · cases h
    exact .refl
  · obtain ⟨a, -, rfl⟩ := Option.map_eq_some_iff.mp h
    dsimp only
    split
    · have hnative : Mark.Native (.failed .noSession) := rfl
      exact .mark hnative
    · split
      · exact .refl
      · -- the buffer moves, the state stays
        rename_i key _ _ _ _ _ pcm shared htake
        have hstate := RequestShared.takePcm_state htake
        have htaken : (s.shared key).NativeFailure → shared.NativeFailure := by
          intro hs error herror
          rw [hstate] at herror
          exact hs error herror
        exact .onShared (f := fun _ => shared) htaken

/-- A packet is published, or the failure in hand is marked. -/
theorem substep_move {sub : Substep} {stepMicroseconds : F32}
    {todo : List (Selected × Except FailureCause BackendPacket)} (hsub : sub.Native) :
    WorkerMove s.requests (s.substep key sub stepMicroseconds todo).requests := by
  unfold substep
  dsimp only
  split
  · exact .onShared fun hs => hs
  · exact .mark hsub
  · split
    · rename_i packet _ _ shared hpush
      -- publishing leaves the failure as it is
      have hfailure : shared.state.failure = (s.shared key).state.failure := by
        rw [RequestShared.pushPacket_eq] at hpush
        split at hpush
        · cases hpush
        · cases hpush
          rfl
      have hpushed : (s.shared key).NativeFailure → shared.NativeFailure := by
        intro hs error herror
        rw [hfailure] at herror
        exact hs error herror
      exact WorkerMove.trans (.onShared (f := fun _ => shared) hpushed) .emit
    · exact .refl
  · exact .onShared fun hs => hs
  · split
    · exact .refl
    · exact .refl

/-- `retire_pending` marks the request with what it was called with. -/
theorem retirePending_move {step : RetirePendingStep} {p : PendingStart} {k : PendingReturn}
    (hstep : step.Native) : WorkerMove s.requests (s.retirePending step p k).requests := by
  cases step with
  | mark mark => exact .mark hstep
  | release => exact .release
  | markRetired => exact .onShared fun hs => hs

/-- So does `retire_active`. -/
theorem retireActive_move {step : RetireActiveStep} {a : ActiveRequest} {k : ActiveReturn}
    {panics : Bool} (hstep : step.Native) : WorkerMove s.requests (s.retireActive step a k panics).requests := by
  cases step with
  | cancelBackend mark => exact .emitSession
  | mark mark => exact .mark hstep
  | dropSession => exact .emitSession
  | release unwinding => exact .release
  | markRetired => exact .onShared fun hs => hs

/-- The worker hands nothing out. -/
theorem workerStep_move (hs : s.worker.control.Native) (h : s.workerStep choice = some s') :
    WorkerMove s.requests s'.requests := by
  unfold workerStep at h
  split at h
  all_goals try rename_i hc; rw [hc] at hs
  -- the head of the loop
  case h_2 | h_20 => exact .same (receive_requests h)
  case h_4 =>
    unfold drain at h
    split at h
    · cases h; exact .refl
    · exact .same (receive_requests h)
  case h_6 =>
    unfold coalesce at h
    split at h
    · exact .same (receive_requests h)
    · cases h; exact .refl
  case h_3 | h_5 | h_8 | h_22 =>
    split at h
    · cases h; exact .refl
    · cases h
  case h_1 | h_9 | h_17 | h_18 | h_28 =>
    cases h
    simp only [top, gate, removeCancelled, select, removeFinished]
    repeat' split
    all_goals exact .refl
  case h_10 =>
    cases h
    unfold cancelActive
    dsimp only
    split
    · exact .onShared fun hs => hs
    · exact .refl
  case h_7 | h_15 | h_21 | h_39 => cases h; exact .refl
  -- starts
  case h_11 =>
    cases h
    unfold startCheck
    split
    · split
      · exact .refl
      · exact .refl
    · dsimp only
      split
      · exact .emit
      · exact .emit
  case h_12 =>
    cases h
    unfold startMark
    split
    · exact .refl
    · exact .onShared fun hs => hs
  case h_13 => cases h; exact .emitAll
  case h_14 =>
    cases h
    unfold startResults
    split
    · exact .refl
    · exact .onShared fun hs => hs
    · exact .refl
  case h_16 => cases h; exact .refl
  -- steps
  case h_19 =>
    obtain ⟨a, -, rfl⟩ := Option.map_eq_some_iff.mp h
    split
    · exact .refl
    · exact .refl
  case h_23 => exact takeSessions_move h
  case h_24 =>
    cases h
    have hnative : Mark.Native (.failed .poolEmpty) := rfl
    exact .mark hnative
  case h_25 => cases h; exact .emitAll
  case h_26 => exact .same (settle_requests h)
  case h_27 => cases h; exact substep_move hs.1
  -- retirement and the end of `worker_loop`
  case h_29 => cases h; exact retirePending_move hs.1
  case h_30 | h_31 => cases h; exact retireActive_move hs
  case h_32 | h_33 =>
    cases h
    simp only [exitActive, exitPending]
    split
    · exact .refl
    · exact .refl
  case h_34 =>
    cases h
    unfold exitChannel
    split
    · exact .refl
    · exact .refl
    · exact .refl
  case h_35 | h_36 =>
    cases h
    unfold unwindActive
    split
    · exact .refl
    · rename_i a active _
      exact @WorkerMove.emitSession (s.setActive active) a .sessionDropped
  case h_37 => cases h; exact .release
  case h_38 =>
    cases h
    unfold unwindPending
    split
    · exact .refl
    · rename_i p pending _
      exact @WorkerMove.release (s.setPending pending) p.id
  case h_40 =>
    cases h
    unfold discard
    split
    · exact .refl
    · rename_i p rest _
      exact @WorkerMove.release { s with channel := rest } p.id
    · exact .refl
  case h_41 => cases h

/-! ## What the worker has in hand -/

/-- The result that is looked at next, -/
theorem NativeCauses.head {α β : Type} {entry : α × Except FailureCause β}
    {todo : List (α × Except FailureCause β)} (h : NativeCauses (entry :: todo)) {cause : FailureCause}
    (hcause : entry.2 = .error cause) : cause.error.Native :=
  h entry List.mem_cons_self cause hcause

/-- and the ones behind it. -/
theorem NativeCauses.tail {α β : Type} {entry : α × Except FailureCause β}
    {todo : List (α × Except FailureCause β)} (h : NativeCauses (entry :: todo)) :
    NativeCauses todo :=
  fun other hother => h other (List.mem_cons_of_mem _ hother)

/-- The same failure for everyone. -/
theorem nativeCauses_map {α β : Type} {entries : List α} {cause : FailureCause}
    (h : cause.error.Native) :
    NativeCauses (entries.map fun entry => (entry, (.error cause : Except FailureCause β))) := by
  intro entry hentry cause' hcause
  obtain ⟨_, -, rfl⟩ := List.mem_map.mp hentry
  cases hcause
  exact h

/-- The errors the backend returned, one for each entry. -/
theorem nativeCauses_zip {α β : Type} {entries : List α} {results : List (Except BackendError β)}
    {wrap : BackendError → FailureCause} (hwrap : ∀ error, (wrap error).error = error)
    (h : results.all nativeResult = true) :
    NativeCauses (entries.zip (results.map (·.mapError wrap))) := by
  intro entry hentry cause hcause
  obtain ⟨result, hresult, heq⟩ := List.mem_map.mp (List.of_mem_zip hentry).2
  rw [hcause] at heq
  cases result with
  | ok value => cases heq
  | error error =>
    cases heq
    rw [hwrap]
    exact List.all_eq_true.mp h _ hresult

/-- `start_batch`: a panic or a wrong count fails every request with an error of the scheduler. -/
theorem nativeCauses_startOutcomes {ready : List PendingStart}
    {results : Option (List (Except BackendError BackendStarted))}
    (h : (Choice.startBatch results).native = true) : NativeCauses (startOutcomes ready results) := by
  cases results with
  | none => exact nativeCauses_map rfl
  | some results =>
    show NativeCauses (if results.length = ready.length then _ else _)
    split
    · exact nativeCauses_zip (fun _ => rfl) h
    · exact nativeCauses_map rfl

/-- The same for `step_batch`. -/
theorem nativeCauses_stepOutcomes {selected : List Selected} {write : Nat → Nat → Int16}
    {results : Option (List (Except BackendError BackendPacket))}
    (h : (Choice.stepBatch write results).native = true) : NativeCauses (stepOutcomes selected results) := by
  cases results with
  | none => exact nativeCauses_map rfl
  | some results =>
    show NativeCauses (if results.length = selected.length then _ else _)
    split
    · exact nativeCauses_zip (fun _ => rfl) h
    · exact nativeCauses_map rfl

/-- Whatever is wrong with a packet is the scheduler's own finding. -/
theorem accept_native {a : ActiveRequest} {packet : BackendPacket} {pcm : Pcm}
    {packetFrames now : Nat} {stepMicroseconds : F32} {cause : FailureCause}
    (h : a.accept packet pcm packetFrames now stepMicroseconds = .error cause) :
    cause.error.Native := by
  have hfrom := ActiveRequest.accept_error h
  cases cause with
  | startError error => cases hfrom
  | stepError error => cases hfrom
  | _ => rfl

/-- Behind a received command the worker holds no error. -/
theorem native_next {site : Site} {shutdown : Bool} : (site.next shutdown).Native := by
  cases site <;> cases shutdown <;> trivial

/-- A command in hand. -/
theorem native_receive {site : Site} (h : s.receive site = some s') :
    s'.worker.control.Native := by
  unfold receive at h
  split at h
  · cases h
  · dsimp only at h
    split at h
    · cases h; exact native_next
    · cases h; exact native_next
    · cases h; exact native_next
    · split at h
      · cases h; exact ⟨trivial, trivial⟩
      · cases h; trivial

/-- The next result: its own error, what is wrong with its packet, or the packet to publish. -/
theorem native_settle {stepMicroseconds : F32}
    {todo : List (Selected × Except FailureCause BackendPacket)} (htodo : NativeCauses todo)
    (h : s.settle stepMicroseconds todo = some s') : s'.worker.control.Native := by
  unfold settle at h
  split at h
  · cases h
    trivial
  · obtain ⟨a, -, rfl⟩ := Option.map_eq_some_iff.mp h
    dsimp only
    split
    · exact ⟨NativeCauses.head htodo rfl, NativeCauses.tail htodo⟩
    · split
      · exact ⟨accept_native ‹_›, NativeCauses.tail htodo⟩
      · exact ⟨trivial, NativeCauses.tail htodo⟩

/-- The error goes from one substep to the next; the only new one is the overflow of the queue. -/
theorem native_substep {sub : Substep} {stepMicroseconds : F32}
    {todo : List (Selected × Except FailureCause BackendPacket)}
    (h : sub.Native ∧ NativeCauses todo) :
    (s.substep key sub stepMicroseconds todo).worker.control.Native := by
  obtain ⟨hsub, htodo⟩ := h
  unfold substep
  dsimp only
  split
  · exact ⟨hsub, htodo⟩
  · exact htodo
  · split
    · exact htodo
    · exact ⟨trivial, htodo⟩
  · exact ⟨trivial, htodo⟩
  · split
    · exact htodo
    · exact ⟨rfl, htodo⟩

/-- What the worker marks the rest with when it ends. -/
theorem native_exitMark {panicked : Bool} : (exitMark panicked).Native := by
  cases panicked with
  | false => trivial
  | true => rfl

/-- The control stays where it is. -/
theorem native_of_eq {control control' : Control} (h : control = control') (hn : control'.Native) :
    control.Native := by
  rw [h]
  exact hn

/-- Behind `retire_pending` the worker goes on with the results it had. -/
theorem native_retirePending {step : RetirePendingStep} {p : PendingStart} {k : PendingReturn}
    (hk : k.Native) : (s.retirePending step p k).worker.control.Native := by
  cases step with
  | mark mark => exact ⟨trivial, hk⟩
  | release => exact ⟨trivial, hk⟩
  | markRetired =>
    cases k with
    | startResults leftover todo => exact hk
    | _ => trivial

/-- Behind `retire_active` it holds none. -/
theorem native_retireActive {step : RetireActiveStep} {a : ActiveRequest} {k : ActiveReturn}
    {panics : Bool} (hstep : step.Native) :
    (s.retireActive step a k panics).worker.control.Native := by
  cases step with
  | cancelBackend mark =>
    cases mark with
    | none => trivial
    | some mark => exact hstep
  | mark mark => trivial
  | dropSession => trivial
  | release unwinding =>
    cases unwinding with
    | false => trivial
    | true => cases k <;> trivial
  | markRetired => cases k <;> trivial

/-- What the worker has in hand stays native, as long as the backend is. -/
theorem workerStep_native (hs : s.worker.control.Native) (hchoice : choice.native = true)
    (h : s.workerStep choice = some s') : s'.worker.control.Native := by
  unfold workerStep at h
  split at h
  all_goals try rename_i hc; rw [hc] at hs
  case h_2 | h_20 => exact native_receive h
  case h_4 =>
    unfold drain at h
    split at h
    · cases h; trivial
    · exact native_receive h
  case h_6 =>
    unfold coalesce at h
    split at h
    · exact native_receive h
    · cases h; trivial
  case h_3 | h_5 | h_8 | h_22 =>
    split at h
    · cases h; trivial
    · cases h
  case h_7 | h_15 | h_21 | h_24 | h_39 => cases h; trivial
  case h_10 => cases h; exact native_next
  case h_1 | h_9 | h_12 | h_17 | h_18 | h_28 =>
    cases h
    simp only [top, gate, startMark, removeCancelled, select, removeFinished]
    repeat' split
    all_goals trivial
  case h_11 =>
    cases h
    unfold startCheck
    split
    · split <;> trivial
    · dsimp only
      split
      · exact ⟨trivial, trivial⟩
      · trivial
  -- the two points at which the backend answers
  case h_13 => cases h; exact nativeCauses_startOutcomes hchoice
  case h_14 =>
    cases h
    unfold startResults
    split
    · trivial
    · exact NativeCauses.tail hs
    · exact ⟨NativeCauses.head hs rfl, NativeCauses.tail hs⟩
  case h_16 => cases h; exact hs
  case h_19 =>
    obtain ⟨a, -, rfl⟩ := Option.map_eq_some_iff.mp h
    split
    · trivial
    · trivial
  case h_23 =>
    unfold takeSessions at h
    split at h
    · cases h; trivial
    · obtain ⟨a, -, rfl⟩ := Option.map_eq_some_iff.mp h
      dsimp only
      repeat' split
      all_goals trivial
  case h_25 => cases h; exact nativeCauses_stepOutcomes hchoice
  case h_26 => exact native_settle hs h
  case h_27 =>
    cases h
    exact native_substep hs
  case h_29 => cases h; exact native_retirePending hs.2
  case h_30 | h_31 => cases h; exact native_retireActive hs
  -- the end of `worker_loop`
  case h_32 =>
    cases h
    unfold exitActive
    split
    · trivial
    · exact native_exitMark
  case h_33 =>
    cases h
    unfold exitPending
    split
    · trivial
    · exact ⟨native_exitMark, trivial⟩
  case h_34 =>
    cases h
    unfold exitChannel
    split
    · trivial
    · exact ⟨native_exitMark, trivial⟩
    · exact native_of_eq hc trivial
  case h_35 | h_36 =>
    cases h
    unfold unwindActive
    split
    · trivial
    · dsimp only [goto]
      split <;> trivial
  case h_37 => cases h; trivial
  case h_38 =>
    cases h
    unfold unwindPending
    split
    · trivial
    · exact native_of_eq hc trivial
  case h_40 =>
    cases h
    unfold discard
    split
    · trivial
    · exact native_of_eq hc trivial
    · exact native_of_eq hc trivial
  case h_41 => cases h

/-! ## The clients -/

variable {a : Action} {id : Nat}

/-- A write into the table that keeps what the client holds. -/
theorem outstanding_update {requests : Nat → Request} {r' : Request}
    (h : r'.outstanding = (requests key).outstanding) :
    (Function.update requests key r' id).outstanding = (requests id).outstanding := by
  by_cases hid : id = key
  · subst hid
    rw [Function.update_self]
    exact h
  · rw [Function.update_of_ne hid]

/-- A step that is neither a `poll` of the request nor the drop of one of its packets. -/
theorem step_outstanding (hs : Coherent s) (hcontrol : s.worker.control.Native) (hpoll : a ≠ .poll id)
    (hdrop : ∀ index, a ≠ .dropPacket id index) (h : s.step a = some s') :
    (s'.requests id).outstanding = (s.requests id).outstanding := by
  cases a with
  | tick => cases h; rfl
  | start input generation =>
    simp only [step] at h
    split at h
    · cases h
      split
      · rename_i s' hstart
        unfold start at hstart
        repeat' split at hstart
        all_goals cases hstart
        -- the id is new: nobody holds a packet of it yet
        show (Function.update s.requests s.nextRequestId _ id).outstanding = _
        by_cases hid : id = s.nextRequestId
        · subst hid
          rw [Function.update_self, (hs.fresh _ le_rfl).1]
        · rw [Function.update_of_ne hid]
      · rfl
    · cases h
  | sendStart key =>
    simp only [step, sendStart] at h
    split at h
    · cases h
    · split at h
      · split at h
        · cases h
          exact outstanding_update rfl
        · cases h
      · cases h
        exact outstanding_update rfl
  | dropScheduler =>
    simp only [step] at h
    split at h
    · cases h; rfl
    · cases h
  | sendShutdown =>
    simp only [step] at h
    split at h
    · cases h
      rw [trySend_requests]
    · cases h
  | poll key =>
    have hne : id ≠ key := fun heq => hpoll (by rw [heq])
    simp only [step, poll] at h
    split at h
    · cases h
      split
      · rw [trySend_requests, onRequest_requests, Function.update_of_ne hne, emit_requests,
          Function.update_of_ne hne, onShared_requests, Function.update_of_ne hne]
      · rw [emit_requests, Function.update_of_ne hne, onShared_requests, Function.update_of_ne hne]
    · cases h
  | cancelSwap key =>
    simp only [step, cancelSwap] at h
    split at h
    · cases h
      exact outstanding_update rfl
    · cases h
  | cancelMark key =>
    simp only [step, cancelMark] at h
    split at h
    · cases h
      have hmark : ((s.onShared key fun _ => (s.shared key).requestCancel.2).requests id).outstanding
          = (s.requests id).outstanding := by
        rw [onShared_requests]
        exact outstanding_update rfl
      split
      · rw [onRequest_requests]
        refine (outstanding_update ?_).trans ?_
        · rfl
        · rw [emit_requests]
          refine (outstanding_update ?_).trans hmark
          rfl
      · rw [onRequest_requests]
        refine (outstanding_update ?_).trans hmark
        rfl
    · cases h
  | cancelSend key =>
    simp only [step, cancelSend] at h
    split at h
    · cases h
      rw [onRequest_requests, trySend_requests]
      exact outstanding_update rfl
    · cases h
  | dropHandle key =>
    simp only [step, dropHandle] at h
    split at h
    · cases h
      exact outstanding_update rfl
    · cases h
  | dropPacket key index =>
    have hne : id ≠ key := fun heq => hdrop index (by rw [heq])
    simp only [step, dropPacket] at h
    split at h
    · cases h
    · cases h
      split
      · rw [onShared_requests, Function.update_of_ne hne, onRequest_requests,
          Function.update_of_ne hne]
      · rw [onRequest_requests, Function.update_of_ne hne]
  | worker choice => exact (workerStep_move hcontrol h).hands id

end Sys

/-- A step of one request hands out nothing, or the packet it appends to what the client holds. -/
theorem LocalStep.handsOut {env : Env} {calls : Nat} {label : Label} {l l' : Local}
    (h : LocalStep env calls label l l') :
    deliveredOf l'.request.history = deliveredOf l.request.history ∨
      ∃ packet, l'.request.outstanding = l.request.outstanding ++ [packet] := by
  cases h
  case pollPacket packet rest _ _ _ => exact .inr ⟨packet, rfl⟩
  all_goals
    left
    simp

/-- **What was handed out changes at a `poll` only.** -/
theorem Sys.step_delivered {s s' : Sys} {a : Action} {id : Nat} (hs : Coherent s)
    (hcontrol : s.worker.control.Native) (hpoll : a ≠ .poll id) (hdrop : ∀ index, a ≠ .dropPacket id index) (h : s.step a = some s') :
    deliveredOf (s'.requests id).history = deliveredOf (s.requests id).history := by
  have hsame := step_outstanding hs hcontrol hpoll hdrop h
  rcases (step_sim hs h).changes id with heq | ⟨label, -, hlocal⟩
  · exact congrArg (fun l : Local => deliveredOf l.request.history) heq
  · rcases hlocal.handsOut with hnothing | ⟨packet, hmore⟩
    · exact hnothing
    · -- a packet would now be in the hands of the client
      have hlength := congrArg List.length (hsame.symm.trans hmore)
      simp [Sys.localOf] at hlength

/-! ## Failures over a run -/

/-- A client fails no request, and the worker fails one outside its own failing steps only for a
broken pool. -/
theorem LocalStep.failure {env : Env} {calls : Nat} {label : Label} {l l' : Local}
    (h : LocalStep env calls label l l') (hlabel : label ≠ .fail)
    (hl : l.request.shared.NativeFailure) : l'.request.shared.NativeFailure := by
  cases h
  case enter => intro error herror; cases herror
  case noSession => intro error herror; cases herror; rfl
  case failEmpty => intro error herror; cases herror; rfl
  case fail => exact absurd rfl hlabel
  case failedPending => exact absurd rfl hlabel
  case failedActive => exact absurd rfl hlabel
  all_goals simpa [RequestShared.NativeFailure] using hl

/-- What keeps the failures native: so are those of the requests and those in hand. -/
structure Sys.NativeFailures (s : Sys) : Prop where
  control : s.worker.control.Native
  requests : ∀ id, (s.shared id).NativeFailure

/-- Nothing has failed yet. -/
theorem Sys.nativeFailures_init (config : EngineConfig) : (Sys.init config).NativeFailures where
  control := trivial
  requests := by
    intro id error herror
    cases herror

/-- One step of a scheduler of the native backend. -/
theorem Sys.nativeFailures_step {s s' : Sys} {a : Action} (hcoherent : Coherent s)
    (hs : s.NativeFailures) (ha : a.native = true) (h : s.step a = some s') : s'.NativeFailures := by
  -- the worker holds native errors only; a client fails nothing
  by_cases hworker : ∃ choice, a = .worker choice
  · obtain ⟨choice, rfl⟩ := hworker
    have hmove := workerStep_move hs.control h
    exact ⟨workerStep_native hs.control ha h, fun id => hmove.failure id (hs.requests id)⟩
  · have hclient : ∀ choice, a ≠ .worker choice := fun choice heq => hworker ⟨choice, heq⟩
    constructor
    · rw [step_client hclient h]
      exact hs.control
    · intro id
      rcases (step_sim hcoherent h).changes id with heq | ⟨label, horigin, hlocal⟩
      · have hsame : (s'.localOf id).request = (s.localOf id).request := by rw [heq]
        show (s'.localOf id).request.shared.NativeFailure
        rw [hsame]
        exact hs.requests id
      · refine hlocal.failure ?_ (hs.requests id)
        rintro rfl
        -- only the worker takes a failing step
        obtain ⟨hisWorker, -⟩ := horigin
        cases a with
        | worker choice => exact hclient choice rfl
        | _ => cases hisWorker

/-! ## A `poll` and the drop of a packet -/

/-- The packet an answer hands out. -/
def PollAnswer.packets : PollAnswer → List OwnedAudioPacket
  | .packet audio => [audio]
  | .wouldBlock | .endOfStream _ | .cancelled | .failed _ => []

/-- The request after one turn of the loop of `poll`. -/
def Request.polled (r : Request) (now : Nat) : Request :=
  { r with
    shared := (r.shared.poll now).2
    outstanding := r.outstanding ++ (r.shared.poll now).1.packets
    history := r.history ++ [.polled (r.shared.poll now).1] }

/-- A `poll` is `polled` of the request. -/
theorem Sys.poll_requests {s s' : Sys} {id : Nat} (h : s.poll id = some s') :
    s'.requests id = (s.requests id).polled s.now := by
  unfold Sys.poll at h
  split at h
  · have hemit : ∀ answer shared, ((s.onShared id fun _ => shared).emit id (.polled answer)).requests
        id = { s.requests id with
          shared := shared, history := (s.requests id).history ++ [.polled answer] } := by
      intro answer shared
      rw [emit_requests, Function.update_self, onShared_requests, Function.update_self]
      rfl
    unfold Request.polled
    show s'.requests id = { s.requests id with
      shared := ((s.shared id).poll s.now).2
      outstanding := (s.requests id).outstanding ++ ((s.shared id).poll s.now).1.packets
      history := (s.requests id).history ++ [.polled ((s.shared id).poll s.now).1] }
    -- only a packet reaches the client and wakes the worker
    generalize (s.shared id).poll s.now = polled at h ⊢
    obtain ⟨answer, shared⟩ := polled
    cases h
    cases answer with
    | packet audio =>
      show (((_ : Sys).onRequest id _).trySend .wake).requests id = _
      rw [trySend_requests, onRequest_requests, Function.update_self, hemit]
      rfl
    | wouldBlock | endOfStream | cancelled | failed =>
      show ((_ : Sys).emit id _).requests id = _
      rw [hemit]
      simp [PollAnswer.packets]
  · cases h

/-- The drop of a packet gives its buffer back while the request lives. -/
theorem Sys.dropPacket_requests {s s' : Sys} {id index : Nat} {packet : OwnedAudioPacket}
    (hpacket : (s.requests id).outstanding[index]? = some packet)
    (h : s.dropPacket id index = some s') :
    s'.requests id = (s.requests id).dropPacket (s.canUpgrade id) index packet.pcm := by
  unfold Sys.dropPacket at h
  rw [hpacket] at h
  cases h
  unfold Request.dropPacket
  dsimp only
  split
  · rw [onShared_requests, Function.update_self, onRequest_requests, Function.update_self]
  · rw [onRequest_requests, Function.update_self]

end Qwen3Tts.Runtime
