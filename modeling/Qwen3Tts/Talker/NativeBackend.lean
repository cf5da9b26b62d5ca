import Qwen3Tts.Lib.Throwing
import Qwen3Tts.Runtime.Worker
import Qwen3Tts.Talker.NativeSession

/-!
# Talker — the native backend

`start_session` and `step_session` of `native_backend.rs`, and the two batch calls, which run one of
them for each request in a thread of its own. Of the two stepping loops `step_host_session` takes
the codes of a frame through host memory, `step_device_session` copies them on the device into a
`CudaPacketStager` and hands the staged buffer to the codec. The talker's methods are those of
`NativeTalkerSession`; what the native libraries and the CUDA runtime answer is a parameter, a
function of the number of frames the talker has emitted, or of what the codec was given before.

The order that CUDA events enforce between a copy and its reader is taken as given: a buffer is read
with what was copied into it.
-/

namespace Qwen3Tts.Talker.Backend

open Qwen3Tts.Lib Qwen3Tts.Runtime

abbrev Codes := List Nat

/-- `MAX_PACKET_FRAMES` of the codec. -/
def codecMaxPacketFrames : Nat := 4

def samplesPerFrame : Nat := 1920

/-- The fields of the codec's `PacketResult` that a step reads. -/
structure PacketResult where
  frameCount : Nat
  sampleCount : Nat
  isFinal : Nat
  gpuMicroseconds : Float32

/-- What `begin_device_packet` gets from the library. -/
structure DevicePacketBeginResult where
  codesConsumedEvent : Nat
  ticketId : Nat
  deriving DecidableEq, Repr

/-- What a codec session was given, packet by packet, each with its final flag. -/
abbrev CodecLog := List (List Codes × Bool)

/-- What the libraries answer. -/
structure Libraries where
  model : TalkerModelInfo
  nextFrame : Nat → Except NativeStatusError NativeFrame
  beginFrame : Nat → Except NativeStatusError NativeDeviceFrameView
  pump : Nat → PumpAnswer
  /-- The codes behind the pointer of a device frame. -/
  codesAt : Nat → Codes
  finish : Nat → Except NativeStatusError NativeFinish
  /-- The finish call of a pending frame that is dropped. -/
  abandon : Nat → Except NativeStatusError NativeFinish
  selectDevice : Nat → Int
  streamWaitEvent : Nat → Int
  memcpyAsync : Nat → Int
  eventRecord : Nat → Int
  cudaError : Int → String
  /-- Both ways to decode: behind a log the frames and the final flag give a result and the
  samples. -/
  decode : CodecLog → List Codes → Bool → Except (Int × String) (PacketResult × Pcm)
  beginPacket : CodecLog → List Codes → Except (Int × String) DevicePacketBeginResult
  /-- The reset behind a malformed begin. -/
  resetError : Option String
  /-- Whether the codec library has the device-packet calls. -/
  devicePacket : Bool

/-! ## Errors -/

def NativeStatusError.display (error : NativeStatusError) : String :=
  s!"native talker failed with status {error.status}: {error.message}"

/-- The alternate display of an `anyhow` error: its contexts and its cause in one line. -/
def displayTalkerError : TalkerError → String
  | .status none error => NativeStatusError.display error
  | .status (some context) error => s!"{context}: {NativeStatusError.display error}"
  | .message text => text

def talkerStatus : Int → RuntimeStatus
  | -1 => .invalidArgument
  | -2 => .cuda
  | -3 => .state
  | -4 => .allocation
  | -5 => .model
  | _ => .internal

def mapTalkerError (context : String) (error : TalkerError) (fallback : RuntimeStatus) :
    BackendError where
  status := match error with
    | .status _ native => talkerStatus native.status
    | .message _ => fallback
  message := s!"{context}: {displayTalkerError error}"

/-- The codec's status codes are the talker's. -/
def mapCodecError (context : String) (error : Int × String) : BackendError :=
  ⟨talkerStatus error.1, s!"{context}: {error.2}"⟩

/-! ## `cuda_packet_stager.rs` -/

structure CudaPacketStager where
  deviceIndex : Int
  /-- The packet buffer, frame by frame. -/
  deviceCodes : List Codes
  /-- The buffer's pointer and the event, as bit patterns. -/
  pointer : Nat
  copiedEvent : Nat
  stagedFrames : Nat := 0
  poisoned : Bool := false
  deriving DecidableEq, Repr

/-- `CudaRuntime::check`. -/
def check (lib : Libraries) (operation : String) (status : Int) : Except String Unit :=
  if status = 0 then .ok () else .error s!"{operation}: {lib.cudaError status} ({status})"

def selectDevice (lib : Libraries) (frame : Nat) : Except String Unit :=
  check lib "select CUDA packet-stager device" (lib.selectDevice frame)

namespace CudaPacketStager

/-- The tests in front of the copy. -/
def checkFrame (g : CudaPacketStager) (view : NativeDeviceFrameView) : Except String Unit :=
  if g.poisoned then .error "CUDA packet stager is poisoned"
  else if view.deviceIndex ≠ g.deviceIndex then
    .error s!"Talker device {view.deviceIndex} does not match stager device {g.deviceIndex}"
  else if view.deviceCodes = 0 ∨ view.readyEvent = 0 then
    .error "Talker device codes and ready event are required"
  else if view.codeCount ≠ codebooks then
    .error s!"Talker returned {view.codeCount} codes; expected {codebooks}"
  else if codecMaxPacketFrames ≤ g.stagedFrames then .error "CUDA packet staging buffer is full"
  else .ok ()

/-- `stage_frame`. A failed CUDA call behind the selection of the device poisons the stager. -/
def stageFrame (g : CudaPacketStager) (lib : Libraries) (frame : Nat)
    (view : NativeDeviceFrameView) : CudaPacketStager × Except String Nat :=
  match g.checkFrame view with
  | .error message => (g, .error message)
  | .ok () =>
    match selectDevice lib frame with
    | .error message => (g, .error message)
    | .ok () =>
      match check lib "wait for Talker frame" (lib.streamWaitEvent frame) with
      | .error message => ({ g with poisoned := true }, .error message)
      | .ok () =>
        match check lib "stage Talker codec frame" (lib.memcpyAsync frame) with
        | .error message => ({ g with poisoned := true }, .error message)
        | .ok () =>
          let g := { g with deviceCodes := g.deviceCodes.set g.stagedFrames (lib.codesAt frame) }
          match check lib "record staged Talker frame" (lib.eventRecord frame) with
          | .error message => ({ g with poisoned := true }, .error message)
          | .ok () => ({ g with stagedFrames := g.stagedFrames + 1 }, .ok g.copiedEvent)

/-- `packet_view`; the frame count of the view. -/
def packetView (g : CudaPacketStager) : Except String Nat :=
  if g.poisoned then .error "CUDA packet stager is poisoned"
  else if g.stagedFrames = 0 then .error "CUDA packet staging buffer is empty"
  else .ok g.stagedFrames

/-- `release_after_consumer`. -/
def releaseAfterConsumer (g : CudaPacketStager) (lib : Libraries) (frame consumerDoneEvent : Nat) :
    CudaPacketStager × Except String Unit :=
  if g.poisoned then (g, .error "CUDA packet stager is poisoned")
  else if g.stagedFrames = 0 then (g, .error "no staged packet is awaiting a consumer")
  else if consumerDoneEvent = 0 then (g, .error "Codec consume event is required")
  else match selectDevice lib frame with
  | .error message => (g, .error message)
  | .ok () =>
    match check lib "wait for Codec packet snapshot" (lib.streamWaitEvent frame) with
    | .error message => ({ g with poisoned := true }, .error message)
    | .ok () => ({ g with stagedFrames := 0 }, .ok ())

end CudaPacketStager

/-! ## The session of the backend -/

structure NativeBackendSession where
  talker : NativeTalkerSession
  codec : CodecLog := []
  cudaStager : Option CudaPacketStager
  firstPacket : Bool := true
  peakRequestDeviceBytes : Nat
  peakRequestHostBytes : Nat
  deriving DecidableEq, Repr

/-- A session with the caller's PCM buffer, while it is stepped. -/
structure StepState where
  session : NativeBackendSession
  pcm : Pcm

abbrev Step := EStateM BackendError StepState

/-- An error of the status `State`. -/
def stateError (message : String) : BackendError := ⟨.state, message⟩

/-- A method of the talker session. -/
def talkerCall {α : Type} (context : String)
    (method : NativeTalkerSession → NativeTalkerSession × Except TalkerError α) : Step α :=
  fun st =>
    let result := method st.session.talker
    let st := { st with session := { st.session with talker := result.1 } }
    match result.2 with
    | .ok value => .ok value st
    | .error error => .error (mapTalkerError context error .state) st

/-- The samples the codec wrote into a slice of the buffer. -/
def writePcm (samples pcm : Pcm) (sampleCount : Nat) : Pcm :=
  samples.take sampleCount ++ pcm.drop (min samples.length sampleCount)

/-- A decode of the codec session into the first samples of the buffer. -/
def decodeInto (lib : Libraries) (context : String) (frames : List Codes) (isFinal : Bool)
    (sampleCount : Nat) : Step PacketResult :=
  fun st =>
    match lib.decode st.session.codec frames isFinal with
    | .error error => .error (mapCodecError context error) st
    | .ok (result, samples) =>
      .ok result {
        session := { st.session with codec := st.session.codec ++ [(frames, isFinal)] }
        pcm := writePcm samples st.pcm sampleCount }

def mapFinishReason (talker : NativeTalkerSession) (isFinal : Bool) :
    Except BackendError FinishReason :=
  match talker.endReason with
  | some .cancelled => .error (stateError
      "cancelled Talker session attempted to emit a successful final packet")
  | none => if isFinal ≠ FinishReason.none.isTerminal then .error disagree else .ok .none
  | some .codecEos => if isFinal ≠ FinishReason.codecEos.isTerminal then .error disagree
      else .ok .codecEos
  | some .maxFrames => if isFinal ≠ FinishReason.maxCodecFrames.isTerminal then .error disagree
      else .ok .maxCodecFrames
where
  disagree := stateError "Talker final state and finish reason disagree"

/-- The time that a frame adds to the packet. -/
def addFrameTime (total predictor talker : Float32) : Float32 :=
  total + (talker + predictor) * 1000

/-- `Ok(BackendPacket …)` at the end of both steps. -/
def backendPacket (session : NativeBackendSession) (frameCount : Nat) (isFinal : Bool)
    (reason : FinishReason) (talkerTime codecTime : Float32) : BackendPacket where
  codecFrames := frameCount
  isFinal := isFinal
  finishReason := reason
  talkerGpuMicroseconds := ⟨talkerTime.toBits⟩
  codecGpuMicroseconds := ⟨codecTime.toBits⟩
  peakRequestDeviceBytes := session.peakRequestDeviceBytes
  peakRequestHostBytes := session.peakRequestHostBytes

/-- A `Result` without an effect on the session. -/
def liftResult {α : Type} : Except BackendError α → Step α
  | .ok value => pure value
  | .error error => throw error

/-- The codec's descriptor is that of another packet. -/
def PacketResult.Inconsistent (result : PacketResult) (frameCount : Nat) (isFinal : Bool) : Prop :=
  result.frameCount ≠ frameCount ∨ result.sampleCount ≠ frameCount * samplesPerFrame
    ∨ decide (result.isFinal ≠ 0) ≠ isFinal

instance (result : PacketResult) (frameCount : Nat) (isFinal : Bool) :
    Decidable (result.Inconsistent frameCount isFinal) :=
  inferInstanceAs (Decidable (_ ∨ _ ∨ _))

/-! ## `step_host_session` -/

/-- The loop; `left` frames of the request are still open. -/
def hostFrames (lib : Libraries) : Nat → List Codes → Float32 → Step (List Codes × Float32)
  | 0, frames, time => pure (frames, time)
  | left + 1, frames, time => do
    let index := (← get).session.talker.framesEmitted
    match ← talkerCall "talker frame generation failed"
        (·.nextFrame lib.model (lib.nextFrame index)) with
    | none => pure (frames, time)
    | some frame =>
      let frames := frames ++ [frame.codes]
      let time := addFrameTime time frame.predictorGpuMilliseconds frame.talkerGpuMilliseconds
      if (← get).session.talker.isEnded then pure (frames, time)
      else hostFrames lib left frames time

def stepHostSession (lib : Libraries) (requestedFrames : Nat) : Step BackendPacket := do
  let (frames, talkerTime) ← hostFrames lib requestedFrames [] 0
  throwIf (frames.length = 0) (stateError "talker ended without a decodable codec frame")
  let isFinal := (← get).session.talker.isEnded
  let reason ← liftResult (mapFinishReason (← get).session.talker isFinal)
  let result ← decodeInto lib "codec packet generation failed" frames isFinal
    (frames.length * samplesPerFrame)
  throwIf (result.Inconsistent frames.length isFinal)
    (stateError "codec returned an inconsistent packet descriptor")
  return backendPacket (← get).session frames.length isFinal reason talkerTime
    result.gpuMicroseconds

/-! ## `step_device_session` -/

/-- A method of the stager, which the step has found in place. -/
def stagerCall {α : Type} (status : RuntimeStatus) (context : String)
    (method : CudaPacketStager → CudaPacketStager × Except String α) : Step α :=
  fun st =>
    match st.session.cudaStager with
    | none => .error ⟨.internal, "CUDA packet stager is missing"⟩ st
    | some stager =>
      let result := method stager
      let st := { st with session := { st.session with cudaStager := some result.1 } }
      match result.2 with
      | .ok value => .ok value st
      | .error message => .error ⟨status, s!"{context}: {message}"⟩ st

/-- `stage_frame` of a pending frame; where it fails the frame is dropped. -/
def stagePending (lib : Libraries) (index : Nat) (view : NativeDeviceFrameView) : Step Nat :=
  fun st =>
    match stagerCall .cuda "failed to stage Talker device frame" (·.stageFrame lib index view) st with
    | .ok event st => .ok event st
    | .error error st => .error error { st with
        session := { st.session with
          talker := st.session.talker.abandon lib.model (lib.abandon index) } }

def deviceFrames (lib : Libraries) : Nat → Nat → Float32 → Step (Nat × Float32)
  | 0, frameCount, time => pure (frameCount, time)
  | left + 1, frameCount, time => do
    let index := (← get).session.talker.framesEmitted
    match ← talkerCall "Talker device-frame generation failed"
        (·.beginDeviceFrameBatched lib.model (lib.beginFrame index) (lib.pump index)) with
    | none => pure (frameCount, time)
    | some view =>
      let copiedEvent ← stagePending lib index view
      let finished ← talkerCall "Talker device-frame completion failed"
        (·.finishWithConsumerEvent lib.model copiedEvent (lib.finish index) (lib.abandon index))
      let time := addFrameTime time finished.predictorGpuMilliseconds finished.talkerGpuMilliseconds
      if (← get).session.talker.isEnded then pure (frameCount + 1, time)
      else deviceFrames lib left (frameCount + 1) time

/-- `malformed_begin_output_message`. -/
def malformedBeginOutputMessage (lib : Libraries) (reason : String) : String :=
  match lib.resetError with
  | some cleanupError =>
    s!"device packet begin {reason}; defensive session reset also failed: {cleanupError}"
  | none => s!"device packet begin {reason}; session was reset defensively"

/-- `begin_device_packet` on the first frames of the staging buffer. -/
def beginDevicePacket (lib : Libraries) (log : CodecLog) (stager : CudaPacketStager)
    (frameCount : Nat) : Except (Int × String) DevicePacketBeginResult :=
  if frameCount < 1 ∨ codecMaxPacketFrames < frameCount then
    .error (-1, s!"device packet must contain 1-{codecMaxPacketFrames} frames")
  else if stager.pointer = 0 then .error (-1, "device codec frame pointer must not be null")
  else if stager.copiedEvent = 0 then .error (-1, "producer-ready CUDA event must not be null")
  else if !lib.devicePacket then .error (-3, "device packet ABI v2 is unavailable")
  else match lib.beginPacket log (stager.deviceCodes.take frameCount) with
  | .error error => .error error
  | .ok output =>
    if output.codesConsumedEvent = 0 then
      .error (-3, malformedBeginOutputMessage lib "returned a null codes-consumed event")
    else if output.ticketId = 0 then
      .error (-3, malformedBeginOutputMessage lib "returned ticket zero")
    else .ok output

/-- `begin_device_packet` of a step; the frames are the ones that the codec snapshots. -/
def beginPacket (lib : Libraries) (frameCount : Nat) :
    Step (DevicePacketBeginResult × List Codes) :=
  fun st =>
    match st.session.cudaStager with
    | none => .error ⟨.internal, "CUDA packet stager is missing"⟩ st
    | some stager =>
      match beginDevicePacket lib st.session.codec stager frameCount with
      | .ok output => .ok (output, stager.deviceCodes.take frameCount) st
      | .error error => .error (mapCodecError "Codec device-packet begin failed" error) st

/-- `PendingDevicePacket::finish`. -/
def finishPacket (lib : Libraries) (frames : List Codes) (isFinal : Bool) (sampleCount : Nat) :
    Step PacketResult := do
  let context := "Codec device-packet finish failed"
  throwIf (sampleCount < frames.length * samplesPerFrame) (mapCodecError context (-1,
    s!"PCM output capacity is too small: need {frames.length * samplesPerFrame} samples, "
      ++ s!"got {sampleCount}"))
  let result ← decodeInto lib context frames isFinal sampleCount
  throwIf (result.frameCount ≠ frames.length
      ∨ result.sampleCount ≠ frames.length * samplesPerFrame)
    (mapCodecError context (-3, s!"device finish returned inconsistent metadata: expected "
      ++ s!"{frames.length} frames/{frames.length * samplesPerFrame} samples, got "
      ++ s!"{result.frameCount} frames/{result.sampleCount} samples"))
  return result

def stepDeviceSession (lib : Libraries) (requestedFrames : Nat) : Step BackendPacket := do
  let staged ← stagerCall .internal "" fun stager => (stager, .ok stager.stagedFrames)
  throwIf (staged ≠ 0) (stateError "CUDA packet stager contains an unconsumed packet")
  let (frameCount, talkerTime) ← deviceFrames lib requestedFrames 0 0
  throwIf (frameCount = 0) (stateError "Talker ended without a decodable device codec frame")
  let viewFrames ← stagerCall .state "failed to inspect staged CUDA packet"
    fun stager => (stager, stager.packetView)
  throwIf (viewFrames ≠ frameCount)
    (stateError "CUDA packet stager returned an inconsistent frame count")
  let (packet, frames) ← beginPacket lib viewFrames
  let index := (← get).session.talker.framesEmitted
  stagerCall .cuda "failed to release CUDA packet staging buffer"
    (·.releaseAfterConsumer lib index packet.codesConsumedEvent)
  let isFinal := (← get).session.talker.isEnded
  let reason ← liftResult (mapFinishReason (← get).session.talker isFinal)
  let result ← finishPacket lib frames isFinal (frameCount * samplesPerFrame)
  throwIf (result.Inconsistent frameCount isFinal)
    (stateError "Codec device path returned an inconsistent packet descriptor")
  return backendPacket (← get).session frameCount isFinal reason talkerTime result.gpuMicroseconds

/-! ## `step_session` -/

/-- The path is that of the session's stager. -/
def stepOnPath (lib : Libraries) (requestedFrames : Nat) : Step BackendPacket := do
  if (← get).session.cudaStager.isSome then stepDeviceSession lib requestedFrames
  else stepHostSession lib requestedFrames

def stepSession (lib : Libraries) (packetFrames : Nat) : Step BackendPacket := do
  let requestedFrames := if (← get).session.firstPacket then 1 else packetFrames
  throwIf (requestedFrames = 0 ∨ codecMaxPacketFrames < requestedFrames)
    ⟨.invalidArgument, "packet frame count is outside the decoder limit"⟩
  throwIf ((← get).pcm.length < requestedFrames * samplesPerFrame)
    ⟨.invalidArgument, "caller PCM buffer is too small for the configured packet"⟩
  let packet ← stepOnPath lib requestedFrames
  modify fun st => { st with session := { st.session with firstPacket := false } }
  return packet

/-! ## `start_session` -/

/-- The fields of the talker's `SessionMemory` that are added up. -/
structure SessionMemory where
  talkerKvBytes : Nat
  predictorKvBytes : Nat
  workspaceBytes : Nat

/-- The fields of the codec's `SessionMemoryInfo` that are read. -/
structure SessionMemoryInfo where
  deviceBytes : Nat
  hostPinnedBytes : Nat

/-- What the libraries answer to a start, in the order of the calls. A talker session comes with
its `memory_usage`, a new stager with its `device_bytes`; there is no stager to make for a backend
without a `cuda_stager_runtime`. -/
structure StartAnswers where
  talker : Except TalkerError (NativeTalkerSession × SessionMemory)
  codec : Except String Unit
  memoryInfo : Except String SessionMemoryInfo
  stager : Option (Except String (CudaPacketStager × Nat))
  prefillMicroseconds : Nat

def withContext (status : RuntimeStatus) (context message : String) : BackendError :=
  ⟨status, s!"{context}: {message}"⟩

def checkedSum (values : List Nat) (message : String) : Except BackendError Nat :=
  values.foldlM (fun total value =>
    if total + value < 2 ^ 64 then .ok (total + value) else .error ⟨.internal, message⟩) 0

def startStager : Option (Except String (CudaPacketStager × Nat)) →
    Except BackendError (Option (CudaPacketStager × Nat))
  | none => .ok none
  | some made => (made.map some).mapError (withContext .cuda "failed to create CUDA packet stager")

def startSession (answers : StartAnswers) :
    Except BackendError (NativeBackendSession × BackendStarted) := do
  let (talker, talkerMemory) ← answers.talker.mapError
    (mapTalkerError "failed to start talker session" · .state)
  failIf talker.isEnded (stateError "talker ended during prefill without producing a codec frame")
  answers.codec.mapError (withContext .state "failed to start codec session")
  let codecMemory ← answers.memoryInfo.mapError
    (withContext .state "failed to inspect codec session memory")
  let stager ← startStager answers.stager
  let peakRequestDeviceBytes ← checkedSum [talkerMemory.talkerKvBytes,
    talkerMemory.predictorKvBytes, talkerMemory.workspaceBytes, codecMemory.deviceBytes,
    (stager.map Prod.snd).getD 0] "request device memory accounting overflowed"
  return ({
    talker := talker
    cudaStager := stager.map Prod.fst
    peakRequestDeviceBytes := peakRequestDeviceBytes
    peakRequestHostBytes := codecMemory.hostPinnedBytes }, {
    prefillMicroseconds := answers.prefillMicroseconds
    peakRequestDeviceBytes := peakRequestDeviceBytes
    peakRequestHostBytes := codecMemory.hostPinnedBytes })

/-! ## The batch calls -/

/-- `handle.join()`; `none` is a thread that panicked. -/
def joined {α : Type} (panicked : String) : Option (Except BackendError α) → Except BackendError α
  | some result => result
  | none => .error ⟨.internal, panicked⟩

/-- What `start_batch` returns; the sessions stay with the worker. -/
def startBatch (threads : List (Option StartAnswers)) :
    List (Except BackendError BackendStarted) :=
  threads.map fun answers => joined "native backend prefill thread panicked"
    (answers.map fun answers => (startSession answers).map Prod.snd)

/-- What one thread of `step_batch` returns. -/
def stepResult (packetFrames : Nat) (lib : Libraries) (st : StepState) :
    Except BackendError BackendPacket :=
  match stepSession lib packetFrames st with
  | .ok packet _ => .ok packet
  | .error error _ => .error error

/-- What `step_batch` returns; the libraries answer each session on its own. -/
def stepBatch (packetFrames : Nat) (threads : List (Option (Libraries × StepState))) :
    List (Except BackendError BackendPacket) :=
  threads.map fun thread => joined "native backend generation thread panicked"
    (thread.map fun (lib, st) => stepResult packetFrames lib st)

/-! ## Steps until the final packet -/

/-- A buffer of the scheduler's pool, filled for the step. -/
def freshPcm (packetFrames : Nat) : Pcm :=
  List.replicate (packetFrames * samplesPerCodecFrame) pcmSentinel

structure Outcome where
  packets : List (BackendPacket × Pcm)
  error : Option BackendError
  session : NativeBackendSession

/-- The steps that a scheduler takes with a session: until a packet is final or a step fails. -/
def stepUntilFinal (lib : Libraries) (packetFrames : Nat) : Nat → NativeBackendSession → Outcome
  | 0, session => ⟨[], none, session⟩
  | fuel + 1, session =>
    match stepSession lib packetFrames ⟨session, freshPcm packetFrames⟩ with
    | .error error st => ⟨[], some error, st.session⟩
    | .ok packet st =>
      if packet.isFinal then ⟨[(packet, st.pcm)], none, st.session⟩
      else
        let rest := stepUntilFinal lib packetFrames fuel st.session
        { rest with packets := (packet, st.pcm) :: rest.packets }

end Qwen3Tts.Talker.Backend
