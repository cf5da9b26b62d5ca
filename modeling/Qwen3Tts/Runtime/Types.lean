import Mathlib.Algebra.Ring.Nat
import Mathlib.Data.List.Basic

/-!
# Runtime — the value types of the native runtime

The plain data of `types.rs` and `request.rs`: the ABI structures a caller fills in
(`EngineConfig`, `GenerationConfig`, `RequestInput`) with their validators, the packet
descriptor, the delivery metrics, and the worker-private `RequestRecord` that numbers the
packets of one request.

Machine integers are `Nat`: the validators bound every quantity that is ever added or
multiplied far below its width (at most 8192 codec frames, 1920 samples each). An `f32` is
its bit pattern, so the range checks of `validate_generation` are decided on the bits; an
`f64` accumulator is Lean's own binary64 `Float`. The `language` of an input, the CUDA
`device_index` and the reserved bytes' individual meaning are read by no function modelled
here and are left out.
-/

namespace Qwen3Tts.Runtime

/-! ## Constants of `lib.rs` -/

def maxConcurrentRequests : Nat := 6
def maxPacketFrames : Nat := 4
def maxPcmRingSlots : Nat := 64
def maxTextBytes : Nat := 1024 * 1024
def maxInstructBytes : Nat := 256 * 1024
def maxCodecFrames : Nat := 8192
def sampleRate : Nat := 24000
def samplesPerCodecFrame : Nat := 1920

/-! ## Enumerations -/

inductive RuntimeStatus where
  | ok | wouldBlock | endOfStream | invalidArgument | invalidUtf8 | unsupportedLanguage
  | model | allocation | cuda | state | cancelled | internal
  deriving DecidableEq, Repr

inductive RequestPhase where
  | queued | prefilling | generating | draining | completed | cancelled | failed
  deriving DecidableEq, Repr

def RequestPhase.isTerminal : RequestPhase → Bool
  | .completed | .cancelled | .failed => true
  | _ => false

inductive FinishReason where
  | none | codecEos | maxCodecFrames
  deriving DecidableEq, Repr

def FinishReason.isTerminal : FinishReason → Bool
  | .none => false
  | _ => true

/-! ## `f32` values

Only comparisons against `0.0` and `1.0` and finiteness tests are made on `f32` values, so a
value is kept as its IEEE-754 bit pattern. `key` places the non-NaN patterns on the number
line (`-0.0` and `0.0` share a key), which is all that `<=` and `==` look at. -/

structure F32 where
  bits : UInt32
  deriving DecidableEq, Repr

namespace F32

def zero : F32 := ⟨0⟩
def one : F32 := ⟨0x3F800000⟩

def magnitude (x : F32) : Nat := x.bits.toNat % 2 ^ 31
def isNegative (x : F32) : Bool := 2 ^ 31 ≤ x.bits.toNat
def isFinite (x : F32) : Bool := x.magnitude < 0x7F800000
def isNaN (x : F32) : Bool := 0x7F800000 < x.magnitude
def key (x : F32) : Int := if x.isNegative then -(x.magnitude : Int) else x.magnitude
def le (x y : F32) : Bool := !x.isNaN && !y.isNaN && x.key ≤ y.key
def eq (x y : F32) : Bool := !x.isNaN && !y.isNaN && x.key == y.key

/-- `f64::from`. -/
def toF64 (x : F32) : Float := (Float32.ofBits x.bits).toFloat

/-- `as f32` on an unsigned integer. -/
def ofU64 (n : Nat) : F32 := ⟨(UInt64.ofNat n).toFloat32.toBits⟩

end F32

/-! ## Errors -/

structure BackendError where
  status : RuntimeStatus
  message : String
  deriving DecidableEq, Repr

/-- `BackendError::new`, also the `From<&str>` conversion. -/
def BackendError.new (message : String) : BackendError := ⟨.internal, message⟩

inductive RequestInputError where
  | emptyText
  | textTooLarge (actual maximum : Nat)
  | instructTooLarge (actual maximum : Nat)
  deriving DecidableEq, Repr

inductive SchedulerError where
  | invalidConfiguration (message : String)
  | invalidGeneration (message : String)
  | invalidInput (error : RequestInputError)
  | full
  | closed
  | worker (message : String)
  deriving DecidableEq, Repr

/-! ## Configurations -/

structure EngineConfig where
  structSize : Nat
  maxConcurrentRequests : Nat
  packetFrames : Nat
  pcmRingSlots : Nat
  maxTextBytes : Nat
  maxInstructBytes : Nat
  flags : Nat
  reserved : List Nat
  deriving DecidableEq, Repr

/-- `size_of::<EngineConfig>()`. -/
def EngineConfig.sizeOf : Nat := 96

def EngineConfig.default : EngineConfig where
  structSize := EngineConfig.sizeOf
  maxConcurrentRequests := 3
  packetFrames := 4
  pcmRingSlots := 3
  maxTextBytes := 64 * 1024
  maxInstructBytes := 16 * 1024
  flags := 0
  reserved := List.replicate 8 0

structure GenerationConfig where
  structSize : Nat
  maxCodecFrames : Nat
  seed : Nat
  temperature : F32
  topP : F32
  repetitionPenalty : F32
  topK : Nat
  doSample : Nat
  predictorTemperature : F32
  predictorTopP : F32
  predictorTopK : Nat
  predictorDoSample : Nat
  reserved : List Nat
  deriving DecidableEq, Repr

/-- `size_of::<GenerationConfig>()`. -/
def GenerationConfig.sizeOf : Nat := 120

def GenerationConfig.default : GenerationConfig where
  structSize := GenerationConfig.sizeOf
  maxCodecFrames := 4096
  seed := 0
  temperature := ⟨0x3F666666⟩
  topP := .one
  repetitionPenalty := ⟨0x3F866666⟩
  topK := 50
  doSample := 1
  predictorTemperature := ⟨0x3F666666⟩
  predictorTopP := .one
  predictorTopK := 50
  predictorDoSample := 1
  reserved := List.replicate 8 0

structure RequestInput where
  text : String
  instruct : String
  deriving DecidableEq, Repr

def RequestInput.validate (input : RequestInput) (config : EngineConfig) :
    Except RequestInputError Unit :=
  if input.text.isEmpty then .error .emptyText
  else if config.maxTextBytes < input.text.utf8ByteSize then
    .error (.textTooLarge input.text.utf8ByteSize config.maxTextBytes)
  else if config.maxInstructBytes < input.instruct.utf8ByteSize then
    .error (.instructTooLarge input.instruct.utf8ByteSize config.maxInstructBytes)
  else .ok ()

def validateConfig (config : EngineConfig) : Except SchedulerError Unit :=
  if config.structSize ≠ EngineConfig.sizeOf then
    .error (.invalidConfiguration "struct_size does not match EngineConfig")
  else if config.flags ≠ 0 ∨ config.reserved.any (· ≠ 0) then
    .error (.invalidConfiguration "flags and reserved fields must be zero")
  else if config.maxConcurrentRequests = 0 then
    .error (.invalidConfiguration "max_concurrent_requests must be non-zero")
  else if Runtime.maxConcurrentRequests < config.maxConcurrentRequests then
    .error (.invalidConfiguration "max_concurrent_requests exceeds the native batch limit")
  else if config.packetFrames = 0 then
    .error (.invalidConfiguration "packet_frames must be non-zero")
  else if maxPacketFrames < config.packetFrames then
    .error (.invalidConfiguration "packet_frames exceeds the neural decoder limit")
  else if config.pcmRingSlots = 0 then
    .error (.invalidConfiguration "pcm_ring_slots must be non-zero")
  else if maxPcmRingSlots < config.pcmRingSlots then
    .error (.invalidConfiguration "pcm_ring_slots exceeds the bounded runtime limit")
  else if config.maxTextBytes = 0 ∨ Runtime.maxTextBytes < config.maxTextBytes then
    .error (.invalidConfiguration "max_text_bytes is outside the supported range")
  else if Runtime.maxInstructBytes < config.maxInstructBytes then
    .error (.invalidConfiguration "max_instruct_bytes exceeds the supported range")
  else .ok ()

/-- `!x.is_finite() || x <= 0.0`, the rejection test of the temperatures and the penalty. -/
def F32.notFinitePositive (x : F32) : Bool := !x.isFinite || x.le .zero

/-- `!x.is_finite() || !(0.0..=1.0).contains(&x) || x == 0.0`, the rejection test of the
nucleus thresholds. -/
def F32.notInUnit (x : F32) : Bool :=
  !x.isFinite || !(F32.zero.le x && x.le .one) || x.eq .zero

def validateGeneration (config : GenerationConfig) : Except SchedulerError Unit :=
  if config.structSize ≠ GenerationConfig.sizeOf then
    .error (.invalidGeneration "struct_size does not match GenerationConfig")
  else if config.reserved.any (· ≠ 0) then
    .error (.invalidGeneration "reserved fields must be zero")
  else if config.maxCodecFrames = 0 then
    .error (.invalidGeneration "max_codec_frames must be non-zero")
  else if Runtime.maxCodecFrames < config.maxCodecFrames then
    .error (.invalidGeneration "max_codec_frames exceeds the native sequence limit")
  else if config.temperature.notFinitePositive then
    .error (.invalidGeneration "temperature must be finite and positive")
  else if config.predictorTemperature.notFinitePositive then
    .error (.invalidGeneration "predictor_temperature must be finite and positive")
  else if config.topP.notInUnit then
    .error (.invalidGeneration "top_p must be finite and in (0, 1]")
  else if config.predictorTopP.notInUnit then
    .error (.invalidGeneration "predictor_top_p must be finite and in (0, 1]")
  else if config.repetitionPenalty.notFinitePositive then
    .error (.invalidGeneration "repetition_penalty must be finite and positive")
  else if 1 < config.doSample ∨ 1 < config.predictorDoSample then
    .error (.invalidGeneration "sampling flags must be zero or one")
  else if 3072 < config.topK ∨ 2048 < config.predictorTopK then
    .error (.invalidGeneration "top_k exceeds the corresponding model vocabulary")
  else .ok ()

example : validateConfig .default = .ok () := by decide
example : validateGeneration .default = .ok () := by decide

/-! ## Packets and metrics -/

structure AudioPacketDescriptor where
  requestId : Nat
  sequence : Nat
  firstCodecFrame : Nat
  firstSample : Nat
  codecFrames : Nat
  sampleCount : Nat
  sampleRate : Nat
  channels : Nat
  isFinal : Nat
  talkerGpuMicroseconds : F32
  codecGpuMicroseconds : F32
  endToEndMicroseconds : F32
  deriving DecidableEq, Repr

def AudioPacketDescriptor.validate (packet : AudioPacketDescriptor) (packetFrames : Nat) :
    Except String Unit :=
  if packet.codecFrames = 0 then
    .error "audio packet must contain at least one codec frame"
  else if packetFrames < packet.codecFrames then
    .error "audio packet exceeds configured packet frame count"
  else if packet.sampleCount ≠ packet.codecFrames * samplesPerCodecFrame then
    .error "audio packet sample count does not match codec frame count"
  else if packet.sampleRate ≠ Runtime.sampleRate ∨ packet.channels ≠ 1 then
    .error "audio packet must be mono 24 kHz PCM"
  else .ok ()

structure RequestMetrics where
  queueMicroseconds : Nat := 0
  prefillMicroseconds : Nat := 0
  firstCodecFrameMicroseconds : Nat := 0
  firstAudioMicroseconds : Nat := 0
  wallMicroseconds : Nat := 0
  generatedCodecFrames : Nat := 0
  emittedSamples : Nat := 0
  emittedPackets : Nat := 0
  talkerGpuMicroseconds : Float := 0
  codecGpuMicroseconds : Float := 0
  peakRequestDeviceBytes : Nat := 0
  peakRequestHostBytes : Nat := 0

/-! ## `RequestRecord`: the worker's private numbering of one request's packets -/

structure RequestRecord where
  id : Nat
  phase : RequestPhase
  nextPacketSequence : Nat
  nextCodecFrame : Nat
  nextSample : Nat
  metrics : RequestMetrics

namespace RequestRecord

def new (id : Nat) : RequestRecord where
  id := id
  phase := .queued
  nextPacketSequence := 0
  nextCodecFrame := 0
  nextSample := 0
  metrics := {}

def allowed : RequestPhase → RequestPhase → Bool
  | .queued, .prefilling | .queued, .cancelled | .queued, .failed
  | .prefilling, .generating | .prefilling, .cancelled | .prefilling, .failed
  | .generating, .draining | .generating, .completed | .generating, .cancelled
  | .generating, .failed
  | .draining, .completed | .draining, .cancelled | .draining, .failed => true
  | _, _ => false

/-- `transition`; every caller discards the error, which leaves the record as it was. -/
def transition (r : RequestRecord) (next : RequestPhase) : RequestRecord :=
  if allowed r.phase next then { r with phase := next } else r

def recordPacket (r : RequestRecord) (packet : AudioPacketDescriptor)
    (configuredPacketFrames : Nat) : Except String RequestRecord :=
  if ¬ (r.phase = .generating ∨ r.phase = .draining) then
    .error "request is not accepting audio packets"
  else match packet.validate configuredPacketFrames with
  | .error message => .error message
  | .ok () =>
    if packet.requestId ≠ r.id then
      .error "audio packet request id does not match request"
    else if packet.sequence ≠ r.nextPacketSequence then
      .error "audio packet sequence is not contiguous"
    else if packet.firstCodecFrame ≠ r.nextCodecFrame then
      .error "audio packet codec frame position is not contiguous"
    else if packet.firstSample ≠ r.nextSample then
      .error "audio packet sample position is not contiguous"
    else .ok { r with
      nextPacketSequence := r.nextPacketSequence + 1
      nextCodecFrame := r.nextCodecFrame + packet.codecFrames
      nextSample := r.nextSample + packet.sampleCount
      metrics := { r.metrics with
        generatedCodecFrames := r.metrics.generatedCodecFrames + packet.codecFrames
        talkerGpuMicroseconds :=
          r.metrics.talkerGpuMicroseconds + packet.talkerGpuMicroseconds.toF64
        codecGpuMicroseconds :=
          r.metrics.codecGpuMicroseconds + packet.codecGpuMicroseconds.toF64 } }

end RequestRecord

end Qwen3Tts.Runtime
