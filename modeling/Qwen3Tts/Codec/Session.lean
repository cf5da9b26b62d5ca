import Qwen3Tts.Codec.Pipeline
import Qwen3Tts.Lib.History
import Qwen3Tts.Lib.Machine

/-!
# Codec — a session and its API calls

The host side of `Qwen3TtsCodecContextV1`: the positions, the ring, the ticket of a device packet
and the three flags, with every exported function that reads or writes them. What a call is given
besides its arguments is a `CallEnv`: whether the model is loaded, which of the CUDA and cuBLAS
calls it makes fail, and which transposed weights the process has not repacked yet.

The length check behind `run_waveform_decoder` compares `frameCount * 4 * (8 * 5 * 4 * 3)` with
`frameCount * 1920` and always passes. A batch call is a `process_packet` on each of its sessions.
-/

namespace Qwen3Tts.Codec

open Qwen3Tts.Lib

def ringSlots : Nat := 3
def maxPacketFrames : Nat := 4
def samplesPerFrame : Nat := 1920
def kvWindow : Nat := 72
def maxTicketId : Nat := 2 ^ 64 - 1

inductive Status where
  | invalidArgument
  | state
  deriving DecidableEq, Repr

/-- How an API call returned. -/
inductive Outcome where
  | ok
  /-- Its arguments or the state of the session do not allow it. -/
  | rejected (status : Status)
  /-- `cudaSetDevice` failed. -/
  | unselected
  /-- A later CUDA or cuBLAS call failed. -/
  | failed (enqueued : Bool)
  deriving DecidableEq, Repr

structure Session where
  framePosition : Nat
  emittedSamples : Nat
  neuralFramePosition : Nat
  nextDeviceTicketId : Nat
  pendingDeviceTicketId : Nat
  nextRingSlot : Nat
  kvRingHead : Nat
  pendingFrameCount : Nat
  pendingRingSlot : Nat
  finalized : Bool
  cancelled : Bool
  devicePacketPending : Bool
  fastMode : Bool
  /-- The packet sizes whose graph is captured. -/
  graphReady : List Nat
  deriving DecidableEq, Repr

structure CallEnv where
  loaded : Bool
  faults : List Nat
  uncached : List Nat
  deriving DecidableEq, Repr

/-! ## Arguments -/

structure PacketRequest where
  hasPointers : Bool
  frameCount : Nat
  isFinal : Int
  pcmCapacitySamples : Nat
  deriving DecidableEq, Repr

structure DeviceBegin where
  structSize : Nat
  reserved : Nat
  reserved2 : Nat
  reserved3 : Nat
  hasCodes : Bool
  hasEvent : Bool
  frameCount : Nat
  outputStructSize : Nat
  outputReserved : Nat
  outputReserved2 : Nat
  /-- What `cudaPointerGetAttributes` says: device memory of the session's device. -/
  onDevice : Bool
  deriving DecidableEq, Repr

structure DeviceFinish where
  structSize : Nat
  reserved : Nat
  reserved2 : Nat
  reserved3 : Nat
  ticketId : Nat
  isFinal : Int
  hasPointers : Bool
  pcmCapacitySamples : Nat
  deriving DecidableEq, Repr

def DeviceBegin.sizeOf : Nat := 40
def DeviceBegin.outputSizeOf : Nat := 32
def DeviceFinish.sizeOf : Nat := 56

/-- `valid_device_begin_request` and `valid_device_begin_output`. -/
def DeviceBegin.valid (request : DeviceBegin) : Bool :=
  request.structSize = sizeOf ∧ request.reserved = 0 ∧ request.reserved2 = 0 ∧
    request.reserved3 = 0 ∧ request.outputStructSize = outputSizeOf ∧
    request.outputReserved = 0 ∧ request.outputReserved2 = 0

/-- `valid_device_finish_request`. -/
def DeviceFinish.valid (request : DeviceFinish) : Bool :=
  request.structSize = sizeOf ∧ request.reserved = 0 ∧ request.reserved2 = 0 ∧
    request.reserved3 = 0

/-- The argument checks `process_packet_v1` and `process_fixture_packet_v1` begin with. -/
def PacketRequest.valid (request : PacketRequest) : Bool :=
  request.hasPointers ∧ request.frameCount ≠ 0 ∧ request.frameCount ≤ maxPacketFrames ∧
    (request.isFinal = 0 ∨ request.isFinal = 1)

def PacketRequest.fits (request : PacketRequest) : Bool :=
  request.frameCount * samplesPerFrame ≤ request.pcmCapacitySamples

namespace Session

/-! ## Parts -/

/-- A session just after `create_v1`. -/
def fresh (fastMode : Bool) : Session where
  framePosition := 0
  emittedSamples := 0
  neuralFramePosition := 0
  nextDeviceTicketId := 1
  pendingDeviceTicketId := 0
  nextRingSlot := 0
  kvRingHead := 0
  pendingFrameCount := 0
  pendingRingSlot := 0
  finalized := false
  cancelled := false
  devicePacketPending := false
  fastMode := fastMode
  graphReady := []

def validateNeuralPacketState (s : Session) (env : CallEnv) (frameCount : Nat) :
    Except Status Unit :=
  if frameCount = 0 ∨ maxPacketFrames < frameCount then .error .invalidArgument
  else if env.loaded = false then .error .state
  else if s.finalized ∨ s.cancelled then .error .state
  else if s.devicePacketPending then .error .state
  else .ok ()

/-- The host updates at the end of a neural packet. -/
def commit (s : Session) (frameCount : Nat) (isFinal : Int) : Session :=
  { s with
    framePosition := s.framePosition + frameCount
    emittedSamples := s.emittedSamples + frameCount * samplesPerFrame
    neuralFramePosition := s.neuralFramePosition + frameCount
    kvRingHead := (s.neuralFramePosition + frameCount) % kvWindow
    nextRingSlot := (s.nextRingSlot + 1) % ringSlots
    finalized := isFinal ≠ 0 }

/-- The host updates at the end of a fixture packet. -/
def commitFixture (s : Session) (frameCount : Nat) (isFinal : Int) : Session :=
  { s with
    framePosition := s.framePosition + frameCount
    emittedSamples := s.emittedSamples + frameCount * samplesPerFrame
    kvRingHead := (s.framePosition + frameCount) % kvWindow
    nextRingSlot := (s.nextRingSlot + 1) % ringSlots
    finalized := isFinal ≠ 0 }

def clearPendingDevicePacket (s : Session) : Session :=
  { s with
    pendingDeviceTicketId := 0
    pendingFrameCount := 0
    pendingRingSlot := 0
    devicePacketPending := false }

/-- `poison_device_packet_after_enqueue_failure`. -/
def poison (s : Session) : Session := { s.clearPendingDevicePacket with cancelled := true }

/-- The host updates of `reset_device_state`; `next_device_ticket_id` is not among them. -/
def resetFields (s : Session) : Session :=
  { s with
    framePosition := 0
    emittedSamples := 0
    neuralFramePosition := 0
    pendingDeviceTicketId := 0
    nextRingSlot := 0
    kvRingHead := 0
    pendingFrameCount := 0
    pendingRingSlot := 0
    finalized := false
    cancelled := false
    devicePacketPending := false }

/-! ## API calls -/

/-- The calls of a host packet up to the last one that enqueues anything. -/
def hostOps (s : Session) (env : CallEnv) (frameCount : Nat) : List Op :=
  if s.fastMode then processPacketGraph (frameCount ∈ s.graphReady) env.uncached frameCount
  else processPacketEager frameCount

/-- `process_packet_graph` after the graph ran: the graph stays usable, then call `index` measures
the time. -/
def finishGraph (s : Session) (env : CallEnv) (request : PacketRequest) (index : Nat) :
    Session × Outcome :=
  let s := { s with graphReady := request.frameCount :: s.graphReady }
  if index ∈ env.faults then (s, .failed true)
  else (s.commit request.frameCount request.isFinal, .ok)

def processPacket (s : Session) (env : CallEnv) (request : PacketRequest) : Session × Outcome :=
  if request.valid = false then (s, .rejected .invalidArgument)
  else
    match s.validateNeuralPacketState env request.frameCount with
    | .error status => (s, .rejected status)
    | .ok () =>
      if request.fits = false then (s, .rejected .invalidArgument)
      else if 0 ∈ env.faults then (s, .unselected)
      else
        let ops := s.hostOps env request.frameCount
        match runOps env.faults 1 false ops with
        | .failed enqueued => (s, .failed enqueued)
        | .ok =>
          if s.fastMode then s.finishGraph env request (1 + ops.length)
          else (s.commit request.frameCount request.isFinal, .ok)

/-- The checks of `process_fixture_packet_v1`. -/
def fixtureCheck (s : Session) (request : PacketRequest) : Except Status Unit :=
  if request.valid = false ∨ request.fits = false then .error .invalidArgument
  else if s.finalized ∨ s.devicePacketPending then .error .state
  else .ok ()

def processFixturePacket (s : Session) (env : CallEnv) (request : PacketRequest) :
    Session × Outcome :=
  match s.fixtureCheck request with
  | .error status => (s, .rejected status)
  | .ok () =>
    if 0 ∈ env.faults then (s, .unselected)
    else
      match runOps env.faults 1 false Codec.processFixturePacket with
      | .failed enqueued => (s, .failed enqueued)
      | .ok => (s.commitFixture request.frameCount request.isFinal, .ok)

/-- The part of `process_device_packet_begin_v2` behind its last check. -/
def enqueueDevicePacket (s : Session) (env : CallEnv) (request : DeviceBegin) :
    Session × Outcome :=
  -- the wait for the producer, `start_event`, the copy of the codes, `codes_consumed_event`
  match runOps env.faults 2 false
      (List.replicate 4 .api ++ enqueueStagedNeuralPacket env.uncached request.frameCount) with
  | .failed enqueued => (s.poison, .failed enqueued)
  | .ok =>
    ({ s with
      nextDeviceTicketId := s.nextDeviceTicketId + 1
      pendingDeviceTicketId := s.nextDeviceTicketId
      pendingFrameCount := request.frameCount
      pendingRingSlot := s.nextRingSlot
      devicePacketPending := true }, .ok)

/-- On success the ticket is the `next_device_ticket_id` before the call. -/
def processDevicePacketBegin (s : Session) (env : CallEnv) (request : DeviceBegin) :
    Session × Outcome :=
  if request.valid = false ∨ request.hasCodes = false ∨ request.hasEvent = false then
    (s, .rejected .invalidArgument)
  else
    match s.validateNeuralPacketState env request.frameCount with
    | .error status => (s, .rejected status)
    | .ok () =>
      if s.nextDeviceTicketId = maxTicketId then (s, .rejected .state)
      else if 0 ∈ env.faults then (s, .unselected)
      else if 1 ∈ env.faults then (s, .failed false)
      else if request.onDevice = false then (s, .rejected .invalidArgument)
      else s.enqueueDevicePacket env request

/-- The checks of `process_device_packet_finish_v2`. -/
def finishCheck (s : Session) (request : DeviceFinish) : Except Status Unit :=
  if request.valid = false ∨ (request.isFinal ≠ 0 ∧ request.isFinal ≠ 1)
      ∨ request.hasPointers = false then .error .invalidArgument
  else if s.devicePacketPending = false ∨ request.ticketId ≠ s.pendingDeviceTicketId then
    .error .state
  else if request.pcmCapacitySamples < s.pendingFrameCount * samplesPerFrame then
    .error .invalidArgument
  else .ok ()

def processDevicePacketFinish (s : Session) (env : CallEnv) (request : DeviceFinish) :
    Session × Outcome :=
  match s.finishCheck request with
  | .error status => (s, .rejected status)
  | .ok () =>
    if 0 ∈ env.faults then (s, .unselected)
    else
      match runOps env.faults 1 true finishStagedNeuralPacket with
      | .failed enqueued => (s.poison, .failed enqueued)
      | .ok => ((s.commit s.pendingFrameCount request.isFinal).clearPendingDevicePacket, .ok)

def cancel (s : Session) (env : CallEnv) : Session × Outcome :=
  if 0 ∈ env.faults then (s, .unselected)
  else if 1 ∈ env.faults then (s, .failed false)
  else (s.poison, .ok)

/-- `reset_device_state`, its calls numbered from one. -/
def resetState (s : Session) (faults : List Nat) : Session × Outcome :=
  match runOps faults 1 false resetDeviceState with
  | .failed enqueued => (s, .failed enqueued)
  | .ok => (s.resetFields, .ok)

def reset (s : Session) (env : CallEnv) : Session × Outcome :=
  if 0 ∈ env.faults then (s, .unselected) else s.resetState env.faults

/-- The packet of `warmup_v1`. -/
def warmupPacket : PacketRequest :=
  ⟨true, maxPacketFrames, 0, maxPacketFrames * samplesPerFrame⟩

def isFresh (s : Session) : Bool :=
  s.framePosition = 0 ∧ s.neuralFramePosition = 0 ∧ s.emittedSamples = 0 ∧ s.nextRingSlot = 0 ∧
    s.finalized = false ∧ s.devicePacketPending = false

/-- The checkpoint functions for debugging run a part of the pipeline and count some of the
frames. -/
def debugPacket (s : Session) (env : CallEnv) (frames : Nat) : Session :=
  if env.loaded = false ∨ s.devicePacketPending then s
  else { s with neuralFramePosition := s.neuralFramePosition + frames }

end Session

/-! ## The system -/

/-- What happened on a session, oldest first. -/
inductive Event where
  | processPacket (isFinal : Bool) (outcome : Outcome)
  | fixturePacket (isFinal : Bool) (outcome : Outcome)
  | deviceBegin (ticket : Nat) (outcome : Outcome)
  | deviceFinish (ticket : Nat) (isFinal : Bool) (outcome : Outcome)
  | cancel (outcome : Outcome)
  | reset (outcome : Outcome)
  /-- The reset inside `warmup_v1`. -/
  | warmupReset (outcome : Outcome)
  deriving DecidableEq, Repr

inductive Call where
  | processPacket (env : CallEnv) (request : PacketRequest)
  | fixturePacket (env : CallEnv) (request : PacketRequest)
  | deviceBegin (env : CallEnv) (request : DeviceBegin)
  | deviceFinish (env : CallEnv) (request : DeviceFinish)
  | warmup (env : CallEnv) (resetFaults : List Nat)
  | cancel (env : CallEnv)
  | reset (env : CallEnv)
  | debugPacket (env : CallEnv) (frames : Nat)
  deriving DecidableEq, Repr

/-- A session together with what happened on it. -/
structure Sys where
  session : Session
  log : List Event
  deriving DecidableEq, Repr

namespace Sys

def init (fastMode : Bool) : Sys := ⟨.fresh fastMode, []⟩

/-- The effect of a call that leaves one event. -/
def record (s : Sys) (result : Session × Outcome) (event : Outcome → Event) : Sys :=
  ⟨result.1, s.log ++ [event result.2]⟩

/-- `warmup_v1`: one packet and a reset, whatever became of the packet. -/
def warmup (s : Sys) (env : CallEnv) (resetFaults : List Nat) : Sys :=
  if env.loaded = false ∨ s.session.isFresh = false then s
  else
    let s := s.record (s.session.processPacket env Session.warmupPacket) (.processPacket false)
    s.record (s.session.resetState resetFaults) .warmupReset

def step (s : Sys) : Call → Option Sys
  | .processPacket env request =>
    some (s.record (s.session.processPacket env request) (.processPacket (request.isFinal ≠ 0)))
  | .fixturePacket env request =>
    some (s.record (s.session.processFixturePacket env request)
      (.fixturePacket (request.isFinal ≠ 0)))
  | .deviceBegin env request =>
    some (s.record (s.session.processDevicePacketBegin env request)
      (.deviceBegin s.session.nextDeviceTicketId))
  | .deviceFinish env request =>
    some (s.record (s.session.processDevicePacketFinish env request)
      (.deviceFinish request.ticketId (request.isFinal ≠ 0)))
  | .warmup env resetFaults => some (s.warmup env resetFaults)
  | .cancel env => some (s.record (s.session.cancel env) .cancel)
  | .reset env => some (s.record (s.session.reset env) .reset)
  | .debugPacket env frames => some { s with session := s.session.debugPacket env frames }

end Sys

/-! ## Small arguments -/

/-- Every call succeeds but those in `faults`. -/
def CallEnv.failing (faults : List Nat) : CallEnv := ⟨true, faults, []⟩

/-- A packet of one frame. -/
def PacketRequest.single (isFinal : Int) : PacketRequest := ⟨true, 1, isFinal, samplesPerFrame⟩

def DeviceBegin.single : DeviceBegin := ⟨sizeOf, 0, 0, 0, true, true, 1, outputSizeOf, 0, 0, true⟩

def DeviceFinish.single (ticketId pcmCapacitySamples : Nat) : DeviceFinish :=
  ⟨sizeOf, 0, 0, 0, ticketId, 0, true, pcmCapacitySamples⟩

end Qwen3Tts.Codec
