import Qwen3Tts.Runtime.Stage

/-!
# Runtime — what a step of the system does to one request

`LocalStep env calls label l l'` lists every change a step of the system can make to one request:
one constructor for each critical section, channel transfer, backend call or drop that touches
it. A whole run of the scheduler, seen from one request, is a chain of these; everything the
development proves about a request is proved by induction on such chains, so no later proof
looks into the worker's program counter again.

The label marks the few steps some results have to exclude or count: the turn of
`remove_finished` that retires the request, the critical section of `cancel`, a `mark_failed`,
the two ways in which a panicking session destructor reaches other requests. `calls` is the number
of `step_batch` calls after the step.
-/

namespace Qwen3Tts.Runtime

open Qwen3Tts.Lib

/-- What a step reads besides the request. -/
structure Env where
  config : EngineConfig
  now : Nat
  batches : Nat

/-- What a request's steps see of the rest. -/
def Sys.env (s : Sys) : Env := ⟨s.config, s.now, s.batches⟩

/-- The kinds of a request's steps that some run rule tells apart. -/
inductive Label where
  | quiet
  | finish
  | cancelMark
  | fail
  | panic
  | unwind
  deriving DecidableEq

/-- What a successful `push_packet` does to the state. -/
@[simp] def RequestState.publish (state : RequestState) (packet : OwnedAudioPacket)
    (metrics : RequestMetrics) : RequestState :=
  { state with
    metrics := { metrics with
      firstAudioMicroseconds := state.metrics.firstAudioMicroseconds
      emittedSamples := state.metrics.emittedSamples
      emittedPackets := state.metrics.emittedPackets }
    packets := state.packets ++ [packet]
    phase := if packet.descriptor.isFinal ≠ 0 then .draining else state.phase
    producerFinished := packet.descriptor.isFinal ≠ 0 || state.producerFinished
    finishReason :=
      if packet.descriptor.isFinal ≠ 0 then packet.finishReason else state.finishReason }

/-- A packet is rejected by a cancelled or failed request and by a full queue. -/
theorem RequestShared.pushPacket_eq (r : RequestShared) (packet : OwnedAudioPacket)
    (metrics : RequestMetrics) : r.pushPacket packet metrics =
      if r.state.cancelRequested = true ∨ r.state.failure.isSome = true
          ∨ r.state.packets.length = r.state.packetCapacity then none
      else some { r with state := r.state.publish packet metrics } := by
  unfold pushPacket
  by_cases hfinal : packet.descriptor.isFinal = 0
  · simp [hfinal]
  · simp [hfinal]

namespace RequestShared

variable {r : RequestShared}

/-- The operations on the shared state, field by field. -/
@[simp] theorem recyclePcm_state {pcm : Pcm} : (r.recyclePcm pcm).state = r.state := rfl

@[simp] theorem recyclePcm_freePcm {pcm : Pcm} :
    (r.recyclePcm pcm).freePcm = pcm.map (fun _ => 0) :: r.freePcm := rfl

@[simp] theorem clearPackets_state :
    r.clearPackets.state = { r.state with packets := [] } := rfl

@[simp] theorem markCancelled_state : r.markCancelled.state = { r.state with
    packets := [], cancelRequested := true, phase := .cancelled, finishReason := .none,
    producerFinished := true } := rfl

@[simp] theorem markFailed_state {error : BackendError} : (r.markFailed error).state =
    { r.state with
      packets := [], phase := .failed, finishReason := .none, producerFinished := true,
      failure := some error } := rfl

/-- `packets.clear()` puts every queued buffer back, zeroed. -/
@[simp] theorem clearPackets_freePcm : r.clearPackets.freePcm =
    (r.state.packets.map fun packet => packet.pcm.map fun _ => (0 : Int16)).reverse ++ r.freePcm := by
  have hfold : ∀ (packets : List OwnedAudioPacket) (acc : RequestShared),
      (packets.foldl (fun acc packet => acc.recyclePcm packet.pcm) acc).freePcm =
        (packets.map fun packet => packet.pcm.map fun _ => (0 : Int16)).reverse ++ acc.freePcm := by
    intro packets
    induction packets with
    | nil => simp
    | cons packet packets ih =>
      intro acc
      rw [List.foldl_cons, ih]
      simp
  exact hfold _ _

@[simp] theorem markCancelled_freePcm : r.markCancelled.freePcm = r.clearPackets.freePcm := rfl

@[simp] theorem markFailed_freePcm {error : BackendError} :
    (r.markFailed error).freePcm = r.clearPackets.freePcm := rfl

end RequestShared

attribute [simp] Request.unused RequestShared.new RequestShared.markPrefilling
  RequestShared.markGenerating RequestShared.markRetired

/-- A session is obtained from a start that succeeds. -/
@[simp] theorem Sys.mem_startEvents {result : Except FailureCause BackendStarted} {e : Event} :
    e ∈ startEvents result ↔ e = .startBatch ∨ (result.isOk = true ∧ e = .sessionObtained) := by
  cases result with
  | ok => simp [startEvents, Except.isOk, Except.toBool]
  | error => simp [startEvents, Except.isOk, Except.toBool]

namespace Request

/-- A critical section on the request. -/
def onShared (r : Request) (f : RequestShared → RequestShared) : Request :=
  { r with shared := f r.shared }

/-- One that changes the state only. -/
def onState (r : Request) (f : RequestState → RequestState) : Request :=
  r.onShared fun shared => { shared with state := f shared.state }

/-- The state behind the lock. -/
@[simp] abbrev state (r : Request) : RequestState := r.shared.state

/-- `mark_cancelled` and `mark_failed`. -/
@[simp] def applyMark (r : Request) : Mark → Request
  | .cancelled => r.onShared .markCancelled
  | .failed cause => (r.emit (.markedFailed cause)).onShared (·.markFailed cause.error)

/-- Events are appended to the history. -/
def emitAll (r : Request) (events : List Event) : Request :=
  { r with history := r.history ++ events }

/-- An event of the session, if the request has one. -/
def emitSession (r : Request) (a : ActiveRequest) (event : Event) : Request :=
  if a.session.isSome then r.emit event else r

/-- A request just admitted by `start`. -/
@[simp] def admitted (id : Nat) (env : Env) (generation : GenerationConfig) : Request :=
  { Request.unused id with
    shared := .new id env.config.pcmRingSlots
      (env.config.packetFrames * samplesPerCodecFrame) env.now
    history := [.admitted generation] }

/-- `poll` hands out the head of the queue. -/
@[simp] def deliver (r : Request) (packet : OwnedAudioPacket) (rest : List OwnedAudioPacket)
    (now : Nat) : Request :=
  { (r.onState fun state => { state with
      packets := rest
      metrics := { state.metrics with
        emittedSamples := state.metrics.emittedSamples + packet.descriptor.sampleCount
        emittedPackets := state.metrics.emittedPackets + 1
        firstAudioMicroseconds :=
          if state.metrics.firstAudioMicroseconds = 0 then
            durationMicroseconds (now - r.shared.startedAt)
          else state.metrics.firstAudioMicroseconds }
      phase :=
        if packet.descriptor.isFinal ≠ 0 ∧ rest = [] then .completed else state.phase }).emit
      (.polled (.packet packet)) with
    outstanding := r.outstanding ++ [packet] }

/-- `poll` reports the end of the stream. -/
@[simp] def endStream (r : Request) : Request :=
  (r.onState fun state => { state with phase := .completed }).emit
    (.polled (.endOfStream r.state.finishReason))

/-- An effective `cancel`. -/
@[simp] def markRequested (r : Request) : Request :=
  { (r.onShared fun shared =>
      let shared := shared.clearPackets
      { shared with state := { shared.state with
        cancelRequested := true, finishReason := .none } }).emit .cancelRequested with
    cancel := .sending }

/-- A successful `push_packet`. -/
@[simp] def publish (r : Request) (packet : OwnedAudioPacket) (metrics : RequestMetrics) : Request :=
  (r.onState (·.publish packet metrics)).emit (.published packet)

/-- The client drops the packet at `index`; `live` says whether its buffer is recycled. -/
def dropPacket (r : Request) (live : Bool) (index : Nat) (pcm : Pcm) : Request :=
  let r := { r with outstanding := r.outstanding.eraseIdx index }
  if live then r.onShared (·.recyclePcm pcm) else r

/-! The other operations, field by field. -/

section Fields

variable {r : Request} {f : RequestShared → RequestShared} {g : RequestState → RequestState}
  {mark : Mark} {event : Event} {events : List Event} {a : ActiveRequest}
  {packet : OwnedAudioPacket} {rest : List OwnedAudioPacket} {metrics : RequestMetrics}
  {now index : Nat} {live : Bool} {pcm : Pcm}

@[simp] theorem onShared_shared : (r.onShared f).shared = f r.shared := rfl
@[simp] theorem onShared_history : (r.onShared f).history = r.history := rfl
@[simp] theorem onShared_cancel : (r.onShared f).cancel = r.cancel := rfl
@[simp] theorem onShared_handle : (r.onShared f).handle = r.handle := rfl
@[simp] theorem onShared_outstanding : (r.onShared f).outstanding = r.outstanding := rfl

@[simp] theorem onState_shared :
    (r.onState g).shared = { r.shared with state := g r.shared.state } := rfl
@[simp] theorem onState_history : (r.onState g).history = r.history := rfl
@[simp] theorem onState_cancel : (r.onState g).cancel = r.cancel := rfl
@[simp] theorem onState_handle : (r.onState g).handle = r.handle := rfl
@[simp] theorem onState_outstanding : (r.onState g).outstanding = r.outstanding := rfl

@[simp] theorem emit_shared : (r.emit event).shared = r.shared := rfl
@[simp] theorem emit_history : (r.emit event).history = r.history ++ [event] := rfl
@[simp] theorem emit_cancel : (r.emit event).cancel = r.cancel := rfl
@[simp] theorem emit_handle : (r.emit event).handle = r.handle := rfl
@[simp] theorem emit_outstanding : (r.emit event).outstanding = r.outstanding := rfl

@[simp] theorem emitAll_shared : (r.emitAll events).shared = r.shared := rfl
@[simp] theorem emitAll_history : (r.emitAll events).history = r.history ++ events := rfl
@[simp] theorem emitAll_cancel : (r.emitAll events).cancel = r.cancel := rfl
@[simp] theorem emitAll_handle : (r.emitAll events).handle = r.handle := rfl
@[simp] theorem emitAll_outstanding : (r.emitAll events).outstanding = r.outstanding := rfl

/-- A call on a session that is there, -/
theorem emitSession_eq :
    r.emitSession a event = r.emitAll (if a.session.isSome then [event] else []) := by
  unfold emitSession
  split
  · rfl
  · simp [emitAll]

/-- which does not go through the lock. -/
@[simp] theorem emitSession_shared : (r.emitSession a event).shared = r.shared := by
  rw [emitSession_eq, emitAll_shared]
@[simp] theorem emitSession_history : (r.emitSession a event).history =
    r.history ++ if a.session.isSome then [event] else [] := by
  rw [emitSession_eq, emitAll_history]
@[simp] theorem emitSession_cancel : (r.emitSession a event).cancel = r.cancel := by
  rw [emitSession_eq, emitAll_cancel]
@[simp] theorem emitSession_handle : (r.emitSession a event).handle = r.handle := by
  rw [emitSession_eq, emitAll_handle]
@[simp] theorem emitSession_outstanding :
    (r.emitSession a event).outstanding = r.outstanding := by
  rw [emitSession_eq, emitAll_outstanding]

/-- A packet gives its buffer back while the shared state lives, -/
theorem dropPacket_eq : r.dropPacket live index pcm =
    { r.onShared (fun shared => if live then shared.recyclePcm pcm else shared) with
      outstanding := r.outstanding.eraseIdx index } := by
  unfold dropPacket
  cases live <;> rfl

/-- without a change of the state. -/
@[simp] theorem dropPacket_state : (r.dropPacket live index pcm).shared.state = r.shared.state := by
  rw [dropPacket_eq]
  cases live <;> rfl
@[simp] theorem dropPacket_freePcm : (r.dropPacket live index pcm).shared.freePcm =
    if live then (r.shared.recyclePcm pcm).freePcm else r.shared.freePcm := by
  rw [dropPacket_eq]
  cases live <;> rfl
@[simp] theorem dropPacket_history : (r.dropPacket live index pcm).history = r.history := by
  rw [dropPacket_eq]
  rfl
@[simp] theorem dropPacket_cancel : (r.dropPacket live index pcm).cancel = r.cancel := by
  rw [dropPacket_eq]
  rfl
@[simp] theorem dropPacket_handle : (r.dropPacket live index pcm).handle = r.handle := by
  rw [dropPacket_eq]
  rfl
@[simp] theorem dropPacket_outstanding :
    (r.dropPacket live index pcm).outstanding = r.outstanding.eraseIdx index := by
  rw [dropPacket_eq]

end Fields

end Request

/-- The causes a call of `start_batch` can have. -/
def FailureCause.fromStart : FailureCause → Bool
  | .startPanicked | .startMiscounted | .startError _ => true
  | _ => false

/-- The causes a call of `step_batch` can have. -/
def FailureCause.fromStep : FailureCause → Bool
  | .stepPanicked | .stepMiscounted | .stepError _ => true
  | _ => false

/-- The request is in `active`. -/
def Stage.isWorking : Stage → Option ActiveRequest
  | .active a | .settled a | .exiting _ a => some a
  | _ => none

/-- The record `start_pending` pushes onto `active`. -/
@[simp] def startedRequest (p : PendingStart) (metrics : RequestMetrics) : ActiveRequest where
  session := some ⟨p.id⟩
  record := { ((RequestRecord.new p.id).transition .prefilling).transition .generating with
    metrics := metrics }
  startedAt := p.enqueuedAt
  maxCodecFrames := p.request.generation.maxCodecFrames
  permit := p.permit

inductive LocalStep (env : Env) (calls : Nat) : Label → Local → Local → Prop
  -- the clients
  | enter {id generation p} (hgen : p.request.generation = generation)
      (hat : p.enqueuedAt = env.now) :
      LocalStep env calls .quiet ⟨Request.unused id, none⟩
        ⟨Request.admitted id env generation, some (.waiting p)⟩
  | send {r p} :
      LocalStep env calls .quiet ⟨r, some (.waiting p)⟩ ⟨{ r with handle := .owned }, some (.waiting p)⟩
  | pollFailed {r v error} (hfailure : r.state.failure = some error) :
      LocalStep env calls .quiet ⟨r, v⟩ ⟨r.emit (.polled (.failed error)), v⟩
  | pollCancelled {r v} (hfailure : r.state.failure = none)
      (hcancel : r.state.cancelRequested = true ∨ r.state.phase = .cancelled) :
      LocalStep env calls .quiet ⟨r, v⟩ ⟨r.emit (.polled .cancelled), v⟩
  | pollPacket {r v packet rest} (hfailure : r.state.failure = none)
      (hcancel : r.state.cancelRequested = false) (hpackets : r.state.packets = packet :: rest) :
      LocalStep env calls .quiet ⟨r, v⟩ ⟨r.deliver packet rest env.now, v⟩
  | pollEnd {r v} (hfailure : r.state.failure = none)
      (hcancel : r.state.cancelRequested = false) (hpackets : r.state.packets = [])
      (hproducer : r.state.producerFinished = true) :
      LocalStep env calls .quiet ⟨r, v⟩ ⟨r.endStream, v⟩
  | pollBlocked {r v} (hfailure : r.state.failure = none)
      (hcancel : r.state.cancelRequested = false) (hpackets : r.state.packets = [])
      (hproducer : r.state.producerFinished = false) :
      LocalStep env calls .quiet ⟨r, v⟩ ⟨r.emit (.polled .wouldBlock), v⟩
  | cancelSwap {r v} (hidle : r.cancel = .idle) :
      LocalStep env calls .quiet ⟨r, v⟩ ⟨{ r with cancel := .swapped }, v⟩
  | cancelIgnored {r v} :
      LocalStep env calls .cancelMark ⟨r, v⟩ ⟨{ r with cancel := .done }, v⟩
  | cancelMark {r v} (hphase : r.state.phase.isTerminal = false) :
      LocalStep env calls .cancelMark ⟨r, v⟩ ⟨r.markRequested, v⟩
  | cancelSend {r v} (hsending : r.cancel = .sending) :
      LocalStep env calls .quiet ⟨r, v⟩ ⟨{ r with cancel := .done }, v⟩
  | dropHandle {r v} (hdone : r.cancel = .done) :
      LocalStep env calls .quiet ⟨r, v⟩ ⟨{ r with handle := .dropped }, v⟩
  | dropPacket {r v index packet} (hget : r.outstanding[index]? = some packet) :
      LocalStep env calls .quiet ⟨r, v⟩ ⟨r.dropPacket (Local.live ⟨r, v⟩) index packet.pcm, v⟩
  -- a start command that never reaches the backend
  | discard {r p} :
      LocalStep env calls .quiet ⟨r, some (.waiting p)⟩ ⟨r.emit .released, none⟩
  | cancelPending {r p} (hflag : r.state.cancelRequested = true) :
      LocalStep env calls .quiet ⟨r, some (.waiting p)⟩
        ⟨r, some (.retiringPending (.mark .cancelled) p)⟩
  | exitPending {r p} :
      LocalStep env calls .quiet ⟨r, some (.waiting p)⟩
        ⟨r, some (.retiringPending (.mark .cancelled) p)⟩
  | exitPendingPanicked {r p} :
      LocalStep env calls .panic ⟨r, some (.waiting p)⟩
        ⟨r, some (.retiringPending (.mark (.failed .workerPanicked)) p)⟩
  -- `start_pending`
  | examineCancelled {r p} (hflag : r.state.cancelRequested = true) :
      LocalStep env calls .quiet ⟨r, some (.waiting p)⟩
        ⟨r.emit (.examined true), some (.retiringPending (.mark .cancelled) p)⟩
  | examineReady {r p} (hflag : r.state.cancelRequested = false) :
      LocalStep env calls .quiet ⟨r, some (.waiting p)⟩ ⟨r.emit (.examined false), some (.ready p)⟩
  | prefill {r p} (queueMicroseconds : Nat) :
      LocalStep env calls .quiet ⟨r, some (.ready p)⟩
        ⟨r.onShared (·.markPrefilling queueMicroseconds), some (.prefilling p)⟩
  | startBatch {r p} (result : Except FailureCause BackendStarted)
      (hcause : ∀ cause, result = .error cause → cause.fromStart = true) :
      LocalStep env calls .quiet ⟨r, some (.prefilling p)⟩
        ⟨r.emitAll (Sys.startEvents result), some (.outcome p result)⟩
  | startOk {r p started} :
      LocalStep env calls .quiet ⟨r, some (.outcome p (.ok started))⟩
        ⟨r.onShared (·.markGenerating started), some (.snapshot p)⟩
  | startFailed {r p cause} :
      LocalStep env calls .quiet ⟨r, some (.outcome p (.error cause))⟩
        ⟨r, some (.retiringPending (.mark (.failed cause)) p)⟩
  | snapshot {r p} :
      LocalStep env calls .quiet ⟨r, some (.snapshot p)⟩
        ⟨r, some (.active (startedRequest p r.shared.state.metrics))⟩
  -- `handle_command`, `remove_cancelled`, selection
  | cancelActive {r a} (hflag : r.state.cancelRequested = true) :
      LocalStep env calls .quiet ⟨r, some (.active a)⟩ ⟨r.applyMark .cancelled, some (.active a)⟩
  | removeCancelled {r a} (hflag : r.state.cancelRequested = true) :
      LocalStep env calls .quiet ⟨r, some (.active a)⟩
        ⟨r, some (.retiringActive (.cancelBackend (some .cancelled)) a)⟩
  | select {r a} (hpool : r.shared.freePcm ≠ []) :
      LocalStep env calls .quiet ⟨r, some (.active a)⟩ ⟨r, some (.eligible a)⟩
  -- `step_eligible`
  | noSession {r a} (hsession : a.session = none) :
      LocalStep env calls .quiet ⟨r, some (.eligible a)⟩
        ⟨r.applyMark (.failed .noSession), some (.active a)⟩
  | poolEmpty {r a} (hpool : r.shared.freePcm = []) :
      LocalStep env calls .quiet ⟨r, some (.eligible a)⟩ ⟨r, some (.poolEmpty a)⟩
  | failEmpty {r a} :
      LocalStep env calls .quiet ⟨r, some (.poolEmpty a)⟩
        ⟨r.applyMark (.failed .poolEmpty), some (.active a)⟩
  | take {r a session pcm rest} (hsession : a.session = some session)
      (hpool : r.shared.freePcm = pcm :: rest) :
      LocalStep env calls .quiet ⟨r, some (.eligible a)⟩
        ⟨r.onShared ({ · with freePcm := rest }),
          some (.selected { a with session := none } ⟨a.id, session, pcm.map fun _ => pcmSentinel⟩)⟩
  | stepBatch {r a entry} (write : Nat → Nat → Int16)
      (result : Except FailureCause BackendPacket) (hcalls : env.batches < calls)
      (hcause : ∀ cause, result = .error cause → cause.fromStep = true) :
      LocalStep env calls .quiet ⟨r, some (.selected a entry)⟩
        ⟨r.emitAll [.stepBatch env.batches, .stepOutcome (Sys.outcomeOf result)],
          some (.stepped a (entry.written write) result)⟩
  | skipped {r a} :
      LocalStep env calls .quiet ⟨r, some (.active a)⟩ ⟨r, some (.settled a)⟩
  | settleError {r a entry cause} :
      LocalStep env calls .quiet ⟨r, some (.stepped a entry (.error cause))⟩
        ⟨r, some (.settling { a with session := some entry.session } (.recycle entry.pcm cause))⟩
  | settleRejected {r a entry packet cause} {stepMicroseconds : F32}
      (haccept : a.accept packet entry.pcm env.config.packetFrames env.now stepMicroseconds
        = .error cause) :
      LocalStep env calls .quiet ⟨r, some (.stepped a entry (.ok packet))⟩
        ⟨r, some (.settling { a with session := some entry.session } (.recycle entry.pcm cause))⟩
  | settleAccepted {r a entry packet owned record} {stepMicroseconds : F32}
      (haccept : a.accept packet entry.pcm env.config.packetFrames env.now stepMicroseconds
        = .ok (owned, record)) :
      LocalStep env calls .quiet ⟨r, some (.stepped a entry (.ok packet))⟩
        ⟨r, some (.settling { a with session := some entry.session, record := record }
          (.push owned record.metrics))⟩
  | recycle {r a pcm cause} :
      LocalStep env calls .quiet ⟨r, some (.settling a (.recycle pcm cause))⟩
        ⟨r.onShared (·.recyclePcm pcm), some (.settling a (.fail cause))⟩
  | fail {r a cause} :
      LocalStep env calls .fail ⟨r, some (.settling a (.fail cause))⟩
        ⟨r.applyMark (.failed cause), some (.settled a)⟩
  | publish {r a packet metrics} (hcancel : r.state.cancelRequested = false)
      (hfailure : r.state.failure = none)
      (hroom : r.state.packets.length ≠ r.state.packetCapacity) :
      LocalStep env calls .quiet ⟨r, some (.settling a (.push packet metrics))⟩
        ⟨r.publish packet metrics, some (.settled a)⟩
  | reject {r a packet metrics} (hpush : r.state.cancelRequested = true ∨
        r.state.failure.isSome = true ∨ r.state.packets.length = r.state.packetCapacity) :
      LocalStep env calls .quiet ⟨r, some (.settling a (.push packet metrics))⟩
        ⟨r, some (.settling a (.rejected packet.pcm))⟩
  | rejected {r a pcm} :
      LocalStep env calls .quiet ⟨r, some (.settling a (.rejected pcm))⟩
        ⟨r.onShared (·.recyclePcm pcm), some (.settling a .overflow)⟩
  | overflowCancelled {r a} (hflag : r.state.cancelRequested = true) :
      LocalStep env calls .quiet ⟨r, some (.settling a .overflow)⟩ ⟨r, some (.settled a)⟩
  | overflow {r a} (hflag : r.state.cancelRequested = false) :
      LocalStep env calls .quiet ⟨r, some (.settling a .overflow)⟩
        ⟨r, some (.settling a (.fail .queueOverflow))⟩
  -- `remove_finished`
  | keep {r a} (hproducer : r.state.producerFinished = false) (hfailure : r.state.failure = none)
      (hcancel : r.state.cancelRequested = false) :
      LocalStep env calls .quiet ⟨r, some (.settled a)⟩ ⟨r, some (.active a)⟩
  | finish {r a} (hproducer : r.state.producerFinished = true) (hfailure : r.state.failure = none)
      (hcancel : r.state.cancelRequested = false) :
      LocalStep env calls .finish ⟨r, some (.settled a)⟩ ⟨r, some (.retiringActive .dropSession a)⟩
  | finishOver {r a}
      (hover : r.state.failure.isSome = true ∨ r.state.cancelRequested = true) :
      LocalStep env calls .finish ⟨r, some (.settled a)⟩
        ⟨r, some (.retiringActive (.cancelBackend none) a)⟩
  -- the end of `worker_loop`
  | close {r a} :
      LocalStep env calls .quiet ⟨r, some (.active a)⟩ ⟨r, some (.exiting false a)⟩
  | panicActive {r a} :
      LocalStep env calls .panic ⟨r, some (.active a)⟩ ⟨r, some (.exiting true a)⟩
  | panicSettled {r a} :
      LocalStep env calls .panic ⟨r, some (.settled a)⟩ ⟨r, some (.exiting true a)⟩
  | panicExiting {r a panicked} :
      LocalStep env calls .panic ⟨r, some (.exiting panicked a)⟩ ⟨r, some (.exiting true a)⟩
  | exitActive {r a} :
      LocalStep env calls .quiet ⟨r, some (.exiting false a)⟩
        ⟨r, some (.retiringActive (.cancelBackend (some .cancelled)) a)⟩
  | exitActivePanicked {r a} :
      LocalStep env calls .quiet ⟨r, some (.exiting true a)⟩
        ⟨r, some (.retiringActive (.cancelBackend (some (.failed .workerPanicked))) a)⟩
  | unwindSession {r a} :
      LocalStep env calls .unwind ⟨r, some (.exiting true a)⟩
        ⟨r.emitSession a .sessionDropped, some (.unwound a)⟩
  | unwindPermit {r a} :
      LocalStep env calls .quiet ⟨r, some (.unwound a)⟩ ⟨r.emit .released, none⟩
  -- `retire_pending`
  | cancelledPending {r p} :
      LocalStep env calls .quiet ⟨r, some (.retiringPending (.mark .cancelled) p)⟩
        ⟨r.applyMark .cancelled, some (.retiringPending .release p)⟩
  | failedPending {r p cause} :
      LocalStep env calls .fail ⟨r, some (.retiringPending (.mark (.failed cause)) p)⟩
        ⟨r.applyMark (.failed cause), some (.retiringPending .release p)⟩
  | releasePending {r p} :
      LocalStep env calls .quiet ⟨r, some (.retiringPending .release p)⟩
        ⟨r.emit .released, some (.retiringPending .markRetired p)⟩
  | retirePending {r p} :
      LocalStep env calls .quiet ⟨r, some (.retiringPending .markRetired p)⟩
        ⟨r.onShared .markRetired, none⟩
  -- `retire_active`
  | cancelBackend {r a} :
      LocalStep env calls .quiet ⟨r, some (.retiringActive (.cancelBackend none) a)⟩
        ⟨r.emitSession a .backendCancel, some (.retiringActive .dropSession a)⟩
  | cancelBackendCancelled {r a} :
      LocalStep env calls .quiet ⟨r, some (.retiringActive (.cancelBackend (some .cancelled)) a)⟩
        ⟨r.emitSession a .backendCancel, some (.retiringActive (.mark .cancelled) a)⟩
  | cancelBackendFailed {r a cause} :
      LocalStep env calls .quiet
        ⟨r, some (.retiringActive (.cancelBackend (some (.failed cause))) a)⟩
        ⟨r.emitSession a .backendCancel, some (.retiringActive (.mark (.failed cause)) a)⟩
  | cancelledActive {r a} :
      LocalStep env calls .quiet ⟨r, some (.retiringActive (.mark .cancelled) a)⟩
        ⟨r.applyMark .cancelled, some (.retiringActive .dropSession a)⟩
  | failedActive {r a cause} :
      LocalStep env calls .fail ⟨r, some (.retiringActive (.mark (.failed cause)) a)⟩
        ⟨r.applyMark (.failed cause), some (.retiringActive .dropSession a)⟩
  | dropSession {r a} (unwinding : Bool) :
      LocalStep env calls .quiet ⟨r, some (.retiringActive .dropSession a)⟩
        ⟨r.emitSession a .sessionDropped, some (.retiringActive (.release unwinding) a)⟩
  | releaseUnwinding {r a} :
      LocalStep env calls .quiet ⟨r, some (.retiringActive (.release true) a)⟩ ⟨r.emit .released, none⟩
  | releaseActive {r a} :
      LocalStep env calls .quiet ⟨r, some (.retiringActive (.release false) a)⟩
        ⟨r.emit .released, some (.retiringActive .markRetired a)⟩
  | retireActive {r a} :
      LocalStep env calls .quiet ⟨r, some (.retiringActive .markRetired a)⟩
        ⟨r.onShared .markRetired, none⟩

/-- A panic takes every active request to the exit. -/
theorem LocalStep.panic {env : Env} {calls : Nat} {r : Request} {v : Stage} {a : ActiveRequest}
    (h : v.isWorking = some a) :
    LocalStep env calls .panic ⟨r, some v⟩ ⟨r, some (.exiting true a)⟩ := by
  cases v with
  | active => cases h; exact .panicActive
  | settled => cases h; exact .panicSettled
  | exiting => cases h; exact .panicExiting
  | _ => cases h

end Qwen3Tts.Runtime
