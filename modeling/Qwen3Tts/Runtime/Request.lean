import Qwen3Tts.Runtime.Types

/-!
# Runtime — the state shared by a request's worker and client

`RequestShared` of `scheduler.rs` with every function that locks it. Each definition below is
one critical section: the mutex `state` (or `free_pcm`) is held from its start to its end, so
two of them never overlap and an interleaving of threads is an interleaving of these functions.
A Rust function that takes a lock twice (`can_accept_packet`) is two definitions.

The condition variable `changed` only decides *when* a waiting client looks again; a client may
look at any time here, so notifications carry no data. `Instant`s are microseconds on one
monotone clock.
-/

namespace Qwen3Tts.Runtime

/-- A PCM buffer: a `Vec<i16>` moved between the pool, the worker, the queue and the client. -/
abbrev Pcm := List Int16

/-- `PCM_SENTINEL`, i.e. `i16::MIN`. -/
def pcmSentinel : Int16 := Int16.minValue

/-- `duration_microseconds`: a duration that does not fit `u64` saturates. -/
def durationMicroseconds (duration : Nat) : Nat := min duration (2 ^ 64 - 1)

/-! ## Backend values -/

structure BackendRequest where
  id : Nat
  input : RequestInput
  generation : GenerationConfig
  deriving DecidableEq, Repr

/-- A successful prefill. The scheduler never looks inside a session, so the session of the
Rust structure is represented by the fact that this value was returned for a request. -/
structure BackendStarted where
  prefillMicroseconds : Nat
  peakRequestDeviceBytes : Nat
  peakRequestHostBytes : Nat
  deriving DecidableEq, Repr

structure BackendPacket where
  codecFrames : Nat
  isFinal : Bool
  finishReason : FinishReason
  talkerGpuMicroseconds : F32
  codecGpuMicroseconds : F32
  peakRequestDeviceBytes : Nat
  peakRequestHostBytes : Nat
  deriving DecidableEq, Repr

/-- A packet owned by the queue or by the client. Its `recycler` is the request it belongs to. -/
structure OwnedAudioPacket where
  descriptor : AudioPacketDescriptor
  finishReason : FinishReason
  pcm : Pcm
  deriving DecidableEq, Repr

/-! ## `RequestState` and `RequestShared` -/

structure RequestState where
  phase : RequestPhase
  packets : List OwnedAudioPacket
  packetCapacity : Nat
  producerFinished : Bool
  finishReason : FinishReason
  retired : Bool
  cancelRequested : Bool
  failure : Option BackendError
  metrics : RequestMetrics

structure RequestShared where
  id : Nat
  startedAt : Nat
  state : RequestState
  /-- The pool, its top (the end of the Rust vector) first. -/
  freePcm : List Pcm

namespace RequestShared

def new (id packetCapacity packetSamples startedAt : Nat) : RequestShared where
  id := id
  startedAt := startedAt
  state := {
    phase := .queued
    packets := []
    packetCapacity := packetCapacity
    producerFinished := false
    finishReason := .none
    retired := false
    cancelRequested := false
    failure := none
    metrics := {} }
  freePcm := List.replicate packetCapacity (List.replicate packetSamples 0)

def isCancelRequested (r : RequestShared) : Bool := r.state.cancelRequested

/-- `can_accept_packet`, the test made under the `state` lock. -/
def stateAccepts (r : RequestShared) : Bool :=
  !r.state.cancelRequested && r.state.failure.isNone
    && r.state.packets.length < r.state.packetCapacity

/-- `can_accept_packet`, the test made under the `free_pcm` lock after `state` was released. -/
def poolAccepts (r : RequestShared) : Bool := !r.freePcm.isEmpty

def takePcm (r : RequestShared) : Option (Pcm × RequestShared) :=
  match r.freePcm with
  | [] => none
  | pcm :: rest => some (pcm, { r with freePcm := rest })

/-- Taking a buffer leaves the state as it is. -/
theorem takePcm_state {r r' : RequestShared} {pcm : Pcm} (h : r.takePcm = some (pcm, r')) :
    r'.state = r.state := by
  unfold takePcm at h
  split at h
  · cases h
  · cases h
    rfl

/-- `recycle_pcm` without its `try_send(Wake)`, which is the caller's. -/
def recyclePcm (r : RequestShared) (pcm : Pcm) : RequestShared :=
  { r with freePcm := pcm.map (fun _ => 0) :: r.freePcm }

/-- `packets.clear()`: the queued packets are dropped front to back and each drop recycles its
buffer. The weak `recycler` upgrades, since the clearing thread itself owns the request. -/
def clearPackets (r : RequestShared) : RequestShared :=
  { r.state.packets.foldl (fun acc packet => acc.recyclePcm packet.pcm) r with
    state := { r.state with packets := [] } }

def markPrefilling (r : RequestShared) (queueMicroseconds : Nat) : RequestShared :=
  { r with state := { r.state with
    phase := .prefilling
    metrics := { r.state.metrics with queueMicroseconds := queueMicroseconds } } }

def markGenerating (r : RequestShared) (started : BackendStarted) : RequestShared :=
  { r with state := { r.state with
    phase := .generating
    metrics := { r.state.metrics with
      prefillMicroseconds := started.prefillMicroseconds
      peakRequestDeviceBytes := started.peakRequestDeviceBytes
      peakRequestHostBytes := started.peakRequestHostBytes } } }

/-- `push_packet`; `none` is `Err(())`, which leaves the packet to be dropped by the caller. -/
def pushPacket (r : RequestShared) (packet : OwnedAudioPacket) (metrics : RequestMetrics) :
    Option RequestShared :=
  if r.state.cancelRequested ∨ r.state.failure.isSome
      ∨ r.state.packets.length = r.state.packetCapacity then none
  else
    let metrics := { metrics with
      firstAudioMicroseconds := r.state.metrics.firstAudioMicroseconds
      emittedSamples := r.state.metrics.emittedSamples
      emittedPackets := r.state.metrics.emittedPackets }
    let state := { r.state with metrics := metrics, packets := r.state.packets ++ [packet] }
    some { r with state :=
      if packet.descriptor.isFinal ≠ 0 then
        { state with
          phase := .draining
          producerFinished := true
          finishReason := packet.finishReason }
      else state }

def markCancelled (r : RequestShared) : RequestShared :=
  let r := r.clearPackets
  { r with state := { r.state with
    cancelRequested := true
    phase := .cancelled
    finishReason := .none
    producerFinished := true } }

def markFailed (r : RequestShared) (error : BackendError) : RequestShared :=
  let r := r.clearPackets
  { r with state := { r.state with
    phase := .failed
    finishReason := .none
    producerFinished := true
    failure := some error } }

def markRetired (r : RequestShared) : RequestShared :=
  { r with state := { r.state with retired := true } }

end RequestShared

/-! ## The client's side: `RequestHandle` -/

/-- What one iteration of `RequestHandle::poll` answers. `wouldBlock` also stands for an
iteration that goes back to waiting on `changed`: it leaves the same state. -/
inductive PollAnswer where
  | packet (packet : OwnedAudioPacket)
  | wouldBlock
  | endOfStream (reason : FinishReason)
  | cancelled
  | failed (error : BackendError)
  deriving DecidableEq, Repr

/-- The answers after which a client has nothing left to wait for. -/
def PollAnswer.isTerminal : PollAnswer → Bool
  | .endOfStream _ | .cancelled | .failed _ => true
  | _ => false

namespace RequestShared

/-- One iteration of the loop of `poll`, under the `state` lock. -/
def poll (r : RequestShared) (now : Nat) : PollAnswer × RequestShared :=
  match r.state.failure with
  | some error => (.failed error, r)
  | none =>
    if r.state.cancelRequested ∨ r.state.phase = .cancelled then (.cancelled, r)
    else match r.state.packets with
    | packet :: rest =>
      let metrics := { r.state.metrics with
        emittedSamples := r.state.metrics.emittedSamples + packet.descriptor.sampleCount
        emittedPackets := r.state.metrics.emittedPackets + 1
        firstAudioMicroseconds :=
          if r.state.metrics.firstAudioMicroseconds = 0 then
            durationMicroseconds (now - r.startedAt)
          else r.state.metrics.firstAudioMicroseconds }
      let phase :=
        if packet.descriptor.isFinal ≠ 0 ∧ rest = [] then .completed else r.state.phase
      (.packet packet,
        { r with state := { r.state with packets := rest, metrics := metrics, phase := phase } })
    | [] =>
      if r.state.producerFinished then
        (.endOfStream r.state.finishReason,
          { r with state := { r.state with phase := .completed } })
      else (.wouldBlock, r)

/-- The critical section of `RequestHandle::cancel`; `false` is the early return on a terminal
phase. -/
def requestCancel (r : RequestShared) : Bool × RequestShared :=
  if r.state.phase.isTerminal then (false, r)
  else
    let r := r.clearPackets
    (true, { r with state := { r.state with cancelRequested := true, finishReason := .none } })

end RequestShared

/-! ## `validate_backend_packet` -/

def validateBackendPacket (packet : BackendPacket) (packetFrames : Nat) (pcm : Pcm) :
    Except String Unit :=
  if packet.codecFrames = 0 ∨ packetFrames < packet.codecFrames then
    .error "backend emitted an invalid codec frame count"
  else if packet.isFinal ≠ packet.finishReason.isTerminal then
    .error "backend final flag and finish reason disagree"
  else
    let expected := packet.codecFrames * samplesPerCodecFrame
    if pcm.length < expected then
      .error "backend PCM output exceeds its caller-owned buffer"
    else if (pcm.drop expected).any (· ≠ pcmSentinel) then
      .error "backend wrote beyond the exact PCM sample count"
    else .ok ()

end Qwen3Tts.Runtime
