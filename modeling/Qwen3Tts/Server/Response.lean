import Qwen3Tts.Runtime.Types

/-!
# Server — what a response is made of

The values that pass between the engine and the HTTP workers (`engine.rs`), the errors they turn
into (`error.rs`), the parts of a progressive response (`multipart.rs`) and the WAV file of a
buffered one (`wav.rs`). A `Uuid` is its number. The JSON text of an event is left to a
serializer, which is a parameter of the encoding; everything around it is spelled out in bytes.
-/

namespace Qwen3Tts.Server

open Qwen3Tts.Runtime

abbrev Uuid := Nat
abbrev Bytes := List UInt8

def asBytes (text : String) : Bytes := text.toUTF8.toList

/-! ## `engine.rs` -/

structure EnginePacket where
  sequence : Nat
  firstCodecFrame : Nat
  firstSample : Nat
  codecFrames : Nat
  sampleCount : Nat
  sampleRate : Nat
  channels : Nat
  isFinal : Bool
  pcmS16le : Bytes
  deriving DecidableEq, Repr

/-- Field by field a `RequestMetrics`. -/
abbrev EngineMetrics := RequestMetrics

inductive EngineErrorKind where
  | invalidRequest | capacity | cancelled | backendUnavailable | internal
  deriving DecidableEq, Repr

structure EngineError where
  kind : EngineErrorKind
  message : String
  deriving DecidableEq, Repr

inductive EngineFinishReason where
  | stop | length
  deriving DecidableEq, Repr

inductive EnginePoll where
  | packet (packet : EnginePacket)
  | wouldBlock
  | endOfStream (finishReason : EngineFinishReason)
  deriving DecidableEq, Repr

/-! ## `error.rs` -/

structure ApiError where
  status : Nat
  code : String
  title : String
  detail : String
  requestId : Option Uuid
  deriving DecidableEq, Repr

/-- `ApiError::engine`. -/
def ApiError.engine (error : EngineError) (requestId : Option Uuid) : ApiError :=
  match error.kind with
  | .invalidRequest =>
    ⟨422, "invalid_request", "Native request was rejected", error.message, requestId⟩
  | .capacity => ⟨429, "capacity_exhausted", "Native request capacity is exhausted",
      "all native request slots are busy", requestId⟩
  | .cancelled => ⟨409, "request_cancelled", "Request was cancelled",
      "the native request was cancelled", requestId⟩
  | .backendUnavailable => ⟨503, "backend_unavailable", "Native backend is unavailable",
      "the native VoiceDesign runtime is unavailable", requestId⟩
  | .internal => ⟨500, "internal_error", "Internal server error",
      "the native request violated an internal invariant", requestId⟩

def retirementTimeoutError (requestId : Uuid) : ApiError :=
  ⟨503, "native_retirement_timeout", "Native request did not retire",
    "the native request exceeded its bounded retirement deadline; restart the unhealthy engine",
    some requestId⟩

/-! ## `multipart.rs` -/

/-- `boundary`; the simple form of a UUID is its 128 bits in lower-case hexadecimal digits. -/
def boundary (requestId : Uuid) : String :=
  "qwen3tts-" ++ .ofList ((List.range 32).map fun i => (requestId / 16 ^ (31 - i) % 16).digitChar)

/-- One chunk of a progressive response, by the function that builds it. -/
inductive Part where
  | start (requestId : Uuid) (seed : Nat)
  | audio (packet : EnginePacket)
  | finish (requestId : Uuid) (finishReason : EngineFinishReason) (metrics : EngineMetrics)
  | error (error : ApiError)

namespace Part

/-- The part closes the multipart body. -/
def close : Part → Bool
  | .start _ _ | .audio _ => false
  | .finish _ _ _ | .error _ => true

def contentType : Part → String
  | .audio _ => "audio/pcm;rate=24000;channels=1;format=s16le"
  | _ => "application/json"

def headers : Part → List (String × String)
  | .audio packet => [
      ("X-Sequence", toString packet.sequence),
      ("X-First-Codec-Frame", toString packet.firstCodecFrame),
      ("X-First-Sample", toString packet.firstSample),
      ("X-Sample-Count", toString packet.sampleCount),
      ("X-Codec-Frames", toString packet.codecFrames),
      ("X-Final", toString packet.isFinal)]
  | _ => []

/-- `serialize` writes the JSON of a start, end or error event. -/
def payload (serialize : Part → Bytes) : Part → Bytes
  | .audio packet => packet.pcmS16le
  | p => serialize p

/-- `part`. -/
def encode (serialize : Part → Bytes) (boundary : String) (p : Part) : Bytes :=
  asBytes s!"--{boundary}\r\n"
    ++ asBytes s!"Content-Type: {p.contentType}\r\n"
    ++ asBytes s!"Content-Length: {(p.payload serialize).length}\r\n"
    ++ p.headers.flatMap (fun header => asBytes header.1 ++ asBytes ": " ++ asBytes header.2 ++ asBytes "\r\n")
    ++ asBytes "\r\n"
    ++ p.payload serialize
    ++ asBytes "\r\n"
    ++ (if p.close then asBytes s!"--{boundary}--\r\n" else [])

/-- A closing part ends with the closing boundary. -/
theorem encode_closes {serialize : Part → Bytes} {boundary : String} {p : Part}
    (h : p.close = true) : asBytes s!"--{boundary}--\r\n" <:+ p.encode serialize boundary := by
  unfold encode
  rw [if_pos h]
  exact List.suffix_append _ _

end Part

/-! ## `wav.rs` -/

/-- `to_le_bytes` of an unsigned integer of `width` bytes. -/
def leBytes (width n : Nat) : Bytes :=
  (List.range width).map fun i => .ofNat (n / 256 ^ i % 256)

/-- The 44 bytes in front of the samples. -/
def wavHeader (dataBytes : Nat) : Bytes :=
  asBytes "RIFF" ++ leBytes 4 (dataBytes + 36) ++ asBytes "WAVEfmt " ++ leBytes 4 16 ++ leBytes 2 1
    ++ leBytes 2 1 ++ leBytes 4 sampleRate ++ leBytes 4 (sampleRate * 2) ++ leBytes 2 2
    ++ leBytes 2 16 ++ asBytes "data" ++ leBytes 4 dataBytes

/-- `encode_pcm16_mono`. -/
def encodePcm16Mono (pcm : Bytes) : Except String Bytes :=
  if pcm.length % 2 ≠ 0 then .error "PCM16 payload must contain complete samples"
  else if 2 ^ 32 ≤ pcm.length then .error "WAV payload is too large"
  else if 2 ^ 32 ≤ pcm.length + 36 then .error "WAV RIFF length overflowed"
  else .ok (wavHeader pcm.length ++ pcm)

end Qwen3Tts.Server
