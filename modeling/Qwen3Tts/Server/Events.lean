import Qwen3Tts.Lib.JsonWriter
import Qwen3Tts.Server.Response
import Qwen3Tts.Server.Validated

/-!
# Server — the events of a progressive response

`StartEvent`, `EndEvent` and `ApiError::stream_payload` as the documents that their derived
`Serialize` writes. How a `f64` is written is a parameter.
-/

namespace Qwen3Tts.Server

open Qwen3Tts.Lib Qwen3Tts.Lib.Json

/-- `Uuid::to_string`, the hyphenated form. -/
def hyphenated (requestId : Uuid) : String :=
  let digits := (List.range 32).map fun i => (requestId / 16 ^ (31 - i) % 16).digitChar
  .ofList (digits.take 8 ++ '-' :: (digits.drop 8).take 4 ++ '-' :: (digits.drop 12).take 4
    ++ '-' :: (digits.drop 16).take 4 ++ '-' :: digits.drop 20)

/-- The variants of `EngineFinishReason` in snake case. -/
def EngineFinishReason.name : EngineFinishReason → String
  | .stop => "stop"
  | .length => "length"

def startEvent (requestId : Uuid) (seed : Nat) : Document :=
  .record [
    ("type", .ofString "start"),
    ("request_id", .ofString (hyphenated requestId)),
    ("model", .ofString modelId),
    ("seed", .ofNat seed),
    ("audio", .record [
      ("encoding", .ofString "pcm_s16le"),
      ("sample_rate_hz", .ofNat 24000),
      ("channels", .ofNat 1),
      ("samples_per_codec_frame", .ofNat 1920)])]

def metricsDocument (float : Float → Document) (metrics : EngineMetrics) : Document :=
  .record [
    ("queue_microseconds", .ofNat metrics.queueMicroseconds),
    ("prefill_microseconds", .ofNat metrics.prefillMicroseconds),
    ("first_codec_frame_microseconds", .ofNat metrics.firstCodecFrameMicroseconds),
    ("first_audio_microseconds", .ofNat metrics.firstAudioMicroseconds),
    ("wall_microseconds", .ofNat metrics.wallMicroseconds),
    ("generated_codec_frames", .ofNat metrics.generatedCodecFrames),
    ("emitted_samples", .ofNat metrics.emittedSamples),
    ("emitted_packets", .ofNat metrics.emittedPackets),
    ("talker_gpu_microseconds", float metrics.talkerGpuMicroseconds),
    ("codec_gpu_microseconds", float metrics.codecGpuMicroseconds),
    ("peak_request_device_bytes", .ofNat metrics.peakRequestDeviceBytes),
    ("peak_request_host_bytes", .ofNat metrics.peakRequestHostBytes)]

def endEvent (float : Float → Document) (requestId : Uuid) (finishReason : EngineFinishReason)
    (metrics : EngineMetrics) : Document :=
  .record [
    ("type", .ofString "end"),
    ("request_id", .ofString (hyphenated requestId)),
    ("finish_reason", .ofString finishReason.name),
    ("metrics", metricsDocument float metrics)]

/-- `stream_payload`; a `Map` keeps its members in the order of their names. -/
def ApiError.streamPayload (error : ApiError) : Document :=
  .record [
    ("error", .record [("code", .ofString error.code), ("detail", .ofString error.detail)]),
    ("request_id", match error.requestId with
      | none => .null
      | some requestId => .ofString (hyphenated requestId)),
    ("type", .ofString "error")]

/-- The document of a part that is no audio. -/
def Part.event (float : Float → Document) : Part → Option Document
  | .start requestId seed => some (startEvent requestId seed)
  | .audio _ => none
  | .finish requestId finishReason metrics => some (endEvent float requestId finishReason metrics)
  | .error e => some e.streamPayload

/-- `serde_json::to_vec` of the event of a part. -/
def Part.toVec (float : Float → Document) (p : Part) : Bytes :=
  match p.event float with
  | none => []
  | some document => utf8 document.text

end Qwen3Tts.Server
