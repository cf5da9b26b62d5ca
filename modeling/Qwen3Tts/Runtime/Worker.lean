import Qwen3Tts.Lib.Vec
import Qwen3Tts.Runtime.Request

/-!
# Runtime — the worker thread as a program counter

`worker_loop` and everything it calls, cut at its interactions: every lock taken on a request,
every channel operation, every call of the backend and every drop of a session or a permit is
one step, so that another thread can run between any two of them. `Control` is the program
counter together with the local variables that are live there; the vectors `active` and
`pending`, which outlive every call, are fields of `Worker`.

Where the source has the same statements twice the model has one continuation. A panicking or
miscounting `start_batch` fails every ready request and retires it, exactly as an `Err` result
of that request would, so both become a result list of errors; likewise for `step_batch`.
-/

namespace Qwen3Tts.Runtime

/-! ## Objects the worker owns -/

/-- A slot of the pool. It is released when the value is dropped. -/
structure SlotPermit where
  deriving DecidableEq, Repr

/-- A backend session: the scheduler hands it back to the backend and never looks inside, so it
is known by the request it was started for. -/
structure Session where
  request : Nat
  deriving DecidableEq, Repr

structure PendingStart where
  request : BackendRequest
  enqueuedAt : Nat
  permit : SlotPermit
  deriving DecidableEq, Repr

abbrev PendingStart.id (p : PendingStart) : Nat := p.request.id

structure ActiveRequest where
  session : Option Session
  record : RequestRecord
  startedAt : Nat
  maxCodecFrames : Nat
  permit : SlotPermit

abbrev ActiveRequest.id (a : ActiveRequest) : Nat := a.record.id

inductive Command where
  | start (pending : PendingStart)
  | cancel (id : Nat)
  | wake
  | shutdown
  deriving DecidableEq, Repr

/-! ## Why a request was failed -/

/-- The call sites of `mark_failed`. -/
inductive FailureCause where
  | startPanicked
  | startMiscounted
  | startError (error : BackendError)
  | noSession
  | poolEmpty
  | stepPanicked
  | stepMiscounted
  | stepError (error : BackendError)
  | invalidPacket (message : String)
  | maxCodecFrames
  | recordInvariant
  | queueOverflow
  | workerPanicked
  deriving DecidableEq, Repr

/-- The error each call site passes. -/
def FailureCause.error : FailureCause → BackendError
  | .startPanicked => ⟨.internal, "backend start_batch panicked"⟩
  | .startMiscounted => .new "backend returned the wrong number of prefill results"
  | .startError error => error
  | .noSession => .new "eligible request did not own a backend session"
  | .poolEmpty => .new "scheduler PCM pool was unexpectedly empty"
  | .stepPanicked => ⟨.internal, "backend step_batch panicked"⟩
  | .stepMiscounted => .new "backend returned the wrong number of generation results"
  | .stepError error => error
  | .invalidPacket message => .new message
  | .maxCodecFrames => .new "backend violated max_codec_frames termination"
  | .recordInvariant => .new "scheduler packet invariant failed"
  | .queueOverflow => .new "scheduler packet queue overflowed"
  | .workerPanicked => ⟨.internal, "runtime worker panicked"⟩

inductive Mark where
  | cancelled
  | failed (cause : FailureCause)
  deriving DecidableEq, Repr

/-! ## The history of one request

The code keeps no history; the steps below record one, because the properties of interest
relate what a client saw to what happened before. -/

/-- What `step_batch` returned for one session. -/
inductive StepOutcome where
  | packet (isFinal : Bool)
  | error
  | panicked
  | miscounted
  deriving DecidableEq, Repr

inductive Event where
  /-- `try_acquire` handed out the request's permit. -/
  | admitted (generation : GenerationConfig)
  /-- The permit was dropped. -/
  | released
  /-- `start_pending` read the cancel flag. -/
  | examined (cancelRequested : Bool)
  | startBatch
  /-- `start_batch` returned a session. -/
  | sessionObtained
  | stepBatch (call : Nat)
  | stepOutcome (outcome : StepOutcome)
  | backendCancel
  | sessionDropped
  | published (packet : OwnedAudioPacket)
  /-- `cancel` took effect: it set `cancel_requested`. -/
  | cancelRequested
  | markedFailed (cause : FailureCause)
  | polled (answer : PollAnswer)
  deriving DecidableEq, Repr

/-! ## Program points -/

/-- The four calls of `handle_command` in `worker_loop_inner`, with the value of
`command_shutdown` where it is still needed. -/
inductive Site where
  | recv
  | drain (commandShutdown : Bool)
  | coalesce (commandShutdown : Bool)
  | idle
  deriving DecidableEq, Repr

/-- An entry of `selected`: an index into `active` (known by the id of the request there, which
no step of `step_eligible` moves), the session taken from it and the buffer it writes to. -/
structure Selected where
  id : Nat
  session : Session
  pcm : Pcm
  deriving DecidableEq, Repr

/-- The buffers after `step_batch`: a `&mut [i16]` keeps its length. -/
def Selected.written (write : Nat → Nat → Int16) (entry : Selected) : Selected :=
  { entry with pcm := (List.range entry.pcm.length).map (write entry.id) }

/-- Where `retire_pending` and the `mark_*` call before it stand. -/
inductive RetirePendingStep where
  | mark (mark : Mark)
  | release
  | markRetired
  deriving DecidableEq, Repr

/-- Where `retire_active` and the statements before it stand. -/
inductive RetireActiveStep where
  | cancelBackend (mark : Option Mark)
  | mark (mark : Mark)
  | dropSession
  | release (unwinding : Bool)
  | markRetired
  deriving DecidableEq, Repr

inductive PendingReturn where
  | cancelActive (id : Nat) (site : Site)
  | startCheck (todo ready : List PendingStart)
  | startResults (leftover : Bool) (todo : List (PendingStart × Except FailureCause BackendStarted))
  | exitPending (panicked : Bool)
  | exitChannel (panicked : Bool)

inductive ActiveReturn where
  | removeCancelled (index : Nat)
  | removeFinished (index : Nat)
  | exitActive (panicked : Bool)

/-- What is left to do for one result of `step_eligible`. -/
inductive Substep where
  | recycle (pcm : Pcm) (cause : FailureCause)
  | fail (cause : FailureCause)
  | push (packet : OwnedAudioPacket) (metrics : RequestMetrics)
  | rejected (pcm : Pcm)
  | overflow

inductive Control where
  -- `worker_loop_inner`
  | top (commandShutdown : Bool)
  | recv
  | drain (commandShutdown : Bool)
  | coalesce (commandShutdown : Bool)
  | gate (commandShutdown : Bool)
  | idleWait
  -- `handle_command`
  | cancelActive (id : Nat) (site : Site)
  -- `start_pending`
  | startCheck (todo ready : List PendingStart)
  | startMark (prefillStarted : Nat) (marked todo : List PendingStart)
  | startBatch (ready : List PendingStart)
  -- `leftover`: sessions of a miscounted result list are dropped on the way out
  | startResults (leftover : Bool) (todo : List (PendingStart × Except FailureCause BackendStarted))
  | startSnapshot (pending : PendingStart) (leftover : Bool)
      (todo : List (PendingStart × Except FailureCause BackendStarted))
  -- `remove_cancelled`, the selection of `eligible`
  | removeCancelled (index : Nat)
  | select (index : Nat) (eligible : List Nat)
  | selectPool (index : Nat) (eligible : List Nat)
  -- `step_eligible`
  | takeSessions (stepStarted : Nat) (todo : List Nat) (selected : List Selected)
  | takeFailed (id : Nat) (stepStarted : Nat) (todo : List Nat) (selected : List Selected)
  | stepBatch (stepStarted : Nat) (selected : List Selected)
  | settle (stepMicroseconds : F32)
      (todo : List (Selected × Except FailureCause BackendPacket))
  | substep (id : Nat) (sub : Substep) (stepMicroseconds : F32)
      (todo : List (Selected × Except FailureCause BackendPacket))
  -- `remove_finished`
  | removeFinished (index : Nat)
  -- `retire_pending`, `retire_active`
  | retirePending (step : RetirePendingStep) (pending : PendingStart) (k : PendingReturn)
  | retireActive (step : RetireActiveStep) (active : ActiveRequest) (k : ActiveReturn)
  -- `worker_loop` after `catch_unwind`
  | exitActive (panicked : Bool)
  | exitPending (panicked : Bool)
  | exitChannel (panicked : Bool)
  -- a destructor panicked in `worker_loop` itself: its locals are dropped
  | unwindActive
  | unwindPermit (active : ActiveRequest)
  | unwindPending
  -- the receiver is dropped
  | disconnect
  | discard
  | stopped
  -- a second destructor panicked during the unwinding: the process is gone
  | aborted (active : ActiveRequest)

structure Worker where
  control : Control
  pending : List PendingStart
  active : List ActiveRequest

def Site.next : Site → Bool → Control
  | .recv, shutdown => .drain shutdown
  | .drain _, true => .coalesce true
  | .drain commandShutdown, false => .drain commandShutdown
  | .coalesce _, true => .gate true
  | .coalesce commandShutdown, false => .coalesce commandShutdown
  | .idle, shutdown => .top shutdown

def PendingReturn.control : PendingReturn → Control
  | .cancelActive id site => .cancelActive id site
  | .startCheck todo ready => .startCheck todo ready
  | .startResults leftover todo => .startResults leftover todo
  | .exitPending panicked => .exitPending panicked
  | .exitChannel panicked => .exitChannel panicked

def ActiveReturn.control : ActiveReturn → Control
  | .removeCancelled index => .removeCancelled index
  | .removeFinished index => .removeFinished index
  | .exitActive panicked => .exitActive panicked

/-- Where a panic of a session's destructor unwinds to: `catch_unwind` around
`worker_loop_inner`, or out of `worker_loop` when its own cleanup was running. -/
def ActiveReturn.unwind : ActiveReturn → Control
  | .removeCancelled _ | .removeFinished _ => .exitActive true
  | .exitActive _ => .unwindActive

/-! ## Local computations of `step_eligible` -/

/-- `&mut active[index]`, the index known by the id of the request there. -/
def modifyActive (id : Nat) (f : ActiveRequest → ActiveRequest) (active : List ActiveRequest) :
    List ActiveRequest :=
  active.map fun a => if a.id = id then f a else a

def ActiveRequest.descriptor (a : ActiveRequest) (packet : BackendPacket)
    (stepMicroseconds : F32) : AudioPacketDescriptor where
  requestId := a.record.id
  sequence := a.record.nextPacketSequence
  firstCodecFrame := a.record.nextCodecFrame
  firstSample := a.record.nextSample
  codecFrames := packet.codecFrames
  sampleCount := packet.codecFrames * samplesPerCodecFrame
  sampleRate := sampleRate
  channels := 1
  isFinal := if packet.isFinal then 1 else 0
  talkerGpuMicroseconds := packet.talkerGpuMicroseconds
  codecGpuMicroseconds := packet.codecGpuMicroseconds
  endToEndMicroseconds := stepMicroseconds

/-- The updates of `record.metrics` after a packet was recorded. -/
def RequestRecord.observe (r : RequestRecord) (packet : BackendPacket) (elapsed : Nat) :
    RequestRecord :=
  { r with metrics := { r.metrics with
    firstCodecFrameMicroseconds :=
      if r.metrics.firstCodecFrameMicroseconds = 0 then elapsed
      else r.metrics.firstCodecFrameMicroseconds
    wallMicroseconds := elapsed
    peakRequestDeviceBytes :=
      max r.metrics.peakRequestDeviceBytes packet.peakRequestDeviceBytes
    peakRequestHostBytes := max r.metrics.peakRequestHostBytes packet.peakRequestHostBytes } }

/-- The `Ok(packet)` arm of `step_eligible` up to `push_packet`: the packet to publish and the
updated record, or why the request fails. -/
def ActiveRequest.accept (a : ActiveRequest) (packet : BackendPacket) (pcm : Pcm)
    (packetFrames now : Nat) (stepMicroseconds : F32) :
    Except FailureCause (OwnedAudioPacket × RequestRecord) :=
  match validateBackendPacket packet packetFrames pcm with
  | .error message => .error (.invalidPacket message)
  | .ok () =>
    let nextFrames := a.record.nextCodecFrame + packet.codecFrames
    if a.maxCodecFrames < nextFrames ∨ (nextFrames = a.maxCodecFrames ∧ packet.isFinal = false)
    then .error .maxCodecFrames
    else
      let descriptor := a.descriptor packet stepMicroseconds
      match a.record.recordPacket descriptor packetFrames with
      | .error _ => .error .recordInvariant
      | .ok record =>
        let record := record.observe packet (durationMicroseconds (now - a.startedAt))
        let record := if packet.isFinal then record.transition .draining else record
        .ok (⟨descriptor, packet.finishReason, pcm⟩, record)

end Qwen3Tts.Runtime
