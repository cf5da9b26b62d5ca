import Qwen3Tts.Bench.Multipart
import Qwen3Tts.Server.Body

/-!
# Bench — the client of a progressive response

`parse_native_multipart` of `runner.rs` with its `NativeStreamState`: the parts that `next_part`
returns are checked one by one, events and audio packets apart, and the state behind the last part
has to be a complete one. A JSON event is read from its document as the derived `Deserialize` does
it; how a text becomes a document is a parameter, as is how `serde_json` reads a number. An
`Instant` is a number, and the counters wrap at 64 bits.
-/

namespace Qwen3Tts.Bench

open Qwen3Tts.Lib Qwen3Tts.Lib.Json Qwen3Tts.Server

/-- The errors of `error.rs` that end the run over a response. -/
inductive StreamError where
  | reader (failure : Failure)
  | validation (message : String)
  | json
  /-- `native finish reason {reason:?} is unsupported`. -/
  | finishReason (reason : String)
  /-- `unsupported multipart part Content-Type {content_type:?}`. -/
  | contentType (value : Text)
  deriving DecidableEq, Repr

/-! ## Headers of a part -/

/-- `media_type_is`. -/
def mediaTypeIs (value : Text) (expected : String) : Bool :=
  lowercase (trimText (value.takeWhile (· ≠ ';'))) = lowercase expected.toList

/-- `str::trim_matches`. -/
def trimMatches (c : Char) (text : Text) : Text :=
  ((text.dropWhile (· = c)).reverse.dropWhile (· = c)).reverse

/-- `content_type_parameter`. -/
def contentTypeParameter (contentType : Text) (expectedName : String) : Option Text :=
  ((contentType.splitOn ';').drop 1).findSome? fun parameter =>
    (splitOnce '=' (trimText parameter)).bind fun (name, value) =>
      if lowercase (trimText name) = lowercase expectedName.toList then
        some (trimMatches '"' (trimText value))
      else none

/-- `validate_native_audio_content_type`. -/
def validateNativeAudioContentType (contentType : Text) : Except StreamError Unit :=
  let rate := (contentTypeParameter contentType "rate").bind (fromStrRadix 10 64)
  let channels := (contentTypeParameter contentType "channels").bind (fromStrRadix 10 64)
  let format := contentTypeParameter contentType "format"
  failIf (rate ≠ some Runtime.sampleRate ∨ channels ≠ some 1
      ∨ format.map lowercase ≠ some "s16le".toList)
    (.validation "native audio part Content-Type is not PCM16 mono at 24 kHz")

def partHeader (part : Part) (name : String) : Except StreamError Text :=
  match part.header name.toList with
  | none => .error (.validation s!"audio part has no {name} header")
  | some value => .ok value

/-- `part_u64`. -/
def partU64 (part : Part) (name : String) : Except StreamError Nat := do
  let value ← partHeader part name
  match fromStrRadix 10 64 value with
  | none => .error (.validation s!"audio part {name} header is invalid")
  | some n => pure n

/-- `bool::from_str`. -/
def parseBool (text : Text) : Option Bool :=
  if text = "true".toList then some true else if text = "false".toList then some false else none

/-- `part_bool`. -/
def partBool (part : Part) (name : String) : Except StreamError Bool := do
  let value ← partHeader part name
  match parseBool value with
  | none => .error (.validation s!"audio part {name} header is invalid")
  | some b => pure b

/-! ## Events -/

/-- A record whose other members are skipped. -/
def isOpenRecord (names : List String) : Document → Bool
  | .object members => decide (((Json.keys members).filter (· ∈ names)).Nodup)
  | .array items => items.length = names.length
  | _ => false

structure JsonAudioDescription where
  encoding : String
  sampleRateHz : Nat
  channels : Nat
  samplesPerCodecFrame : Nat
  deriving DecidableEq, Repr

structure JsonEvent where
  eventType : String
  requestId : Option String
  finishReason : Option String
  /-- A `Value`, kept as its document. -/
  metrics : Option Document
  audio : Option JsonAudioDescription

def jsonAudioFields : List String :=
  ["encoding", "sample_rate_hz", "channels", "samples_per_codec_frame"]

def JsonAudioDescription.deserialize (numbers : Numbers) (document : Document) :
    Option JsonAudioDescription := do
  guard (isOpenRecord jsonAudioFields document)
  let field := fun name => document.field jsonAudioFields name
  let encoding ← (field "encoding").bind readString
  let sampleRateHz ← (field "sample_rate_hz").bind (readNumber numbers.u64)
  let channels ← (field "channels").bind (readNumber numbers.u64)
  let samplesPerCodecFrame ← (field "samples_per_codec_frame").bind (readNumber numbers.u64)
  return { encoding, sampleRateHz, channels, samplesPerCodecFrame }

def jsonEventFields : List String := ["type", "request_id", "finish_reason", "metrics", "audio"]

def JsonEvent.deserialize (numbers : Numbers) (document : Document) : Option JsonEvent := do
  guard (isOpenRecord jsonEventFields document)
  let field := fun name => document.field jsonEventFields name
  let eventType ← (field "type").bind readString
  let requestId ← optional readString (field "request_id")
  let finishReason ← optional readString (field "finish_reason")
  let metrics ← optional some (field "metrics")
  let audio ← optional (JsonAudioDescription.deserialize numbers) (field "audio")
  return { eventType, requestId, finishReason, metrics, audio }

/-- `serde_json`: the document of a text, and what it reads a number as. -/
structure JsonReader where
  document : Bytes → Option Document
  numbers : Numbers

/-- `serde_json::from_slice`. -/
def JsonReader.fromSlice (json : JsonReader) (bytes : Bytes) : Option JsonEvent :=
  (json.document bytes).bind (JsonEvent.deserialize json.numbers)

/-- `Map::get` of the `Value` that a document is read as: a later member replaces an earlier one. -/
def valueMember (members : List (Str × Document)) (name : String) : Option Document :=
  (members.reverse.find? (named name)).map (·.2)

/-- `validate_event_request_id`. -/
def validateEventRequestId (header : Text) (event : Option String) : Except StreamError Unit :=
  match event with
  | none => .error (.validation "multipart JSON event has no request_id")
  | some event => failIf (header ≠ event.toList)
      (.validation "multipart event request_id differs from response header")

/-- `validate_start_audio`. -/
def validateStartAudio (audio : Option JsonAudioDescription) : Except StreamError Unit :=
  match audio with
  | none => .error (.validation "start event has no audio description")
  | some audio => failIf (audio.encoding ≠ "pcm_s16le" ∨ audio.sampleRateHz ≠ Runtime.sampleRate
        ∨ audio.channels ≠ 1 ∨ audio.samplesPerCodecFrame ≠ 1920)
      (.validation "start event audio description is not native PCM16 mono at 24 kHz")

/-- `validate_native_finish_reason`. -/
def validateNativeFinishReason (reason : String) : Except StreamError Unit :=
  failIf (reason ≠ "stop" ∧ reason ≠ "length") (.finishReason reason)

/-- `validate_end_metrics`. -/
def validateEndMetrics (numbers : Numbers) (metrics : Option Document) (packets samples : Nat) :
    Except StreamError Unit :=
  match metrics with
  | some (.object members) =>
    let count := fun name => (valueMember members name).bind (readNumber numbers.u64)
    failIf (count "emitted_packets" ≠ some packets ∨ count "emitted_samples" ≠ some samples)
      (.validation "end event metrics disagree with observed packets or samples")
  | _ => .error (.validation "end event metrics are missing")

/-! ## `NativeStreamState` -/

/-- The fields of a `PacketRecord` that the response decides; `payload` is what its digest is of. -/
structure PacketRecord where
  sequence : Nat
  arrival : Nat
  interArrival : Option Nat
  payloadBytes : Nat
  payload : Bytes
  byteOffset : Nat
  firstCodecFrame : Nat
  firstSample : Nat
  sampleCount : Nat
  codecFrames : Nat
  isFirst : Bool
  isFinal : Bool
  deriving DecidableEq, Repr

/-- `audioHasher` is what the hasher was given. -/
structure NativeStreamState where
  serverRequestId : Text
  expectedSequence : Nat := 0
  expectedSample : Nat := 0
  expectedCodecFrame : Nat := 0
  byteOffset : Nat := 0
  firstAudioAt : Option Nat := none
  previousAudioAt : Option Nat := none
  startSeen : Bool := false
  endSeen : Bool := false
  finalSeen : Bool := false
  finishReason : Option String := none
  endMetrics : Option Document := none
  audioHasher : Bytes := []

/-- `u64` addition of a release build. -/
def wrappingAdd (a b : Nat) : Nat := (a + b) % 2 ^ 64

namespace NativeStreamState

def handleJsonEvent (numbers : Numbers) (s : NativeStreamState) (event : JsonEvent) :
    Except StreamError NativeStreamState := do
  validateEventRequestId s.serverRequestId event.requestId
  if event.eventType = "start" ∧ s.startSeen = false ∧ s.expectedSequence = 0
      ∧ s.endSeen = false then do
    validateStartAudio event.audio
    pure { s with startSeen := true }
  else if event.eventType = "end" ∧ s.startSeen = true ∧ 0 < s.expectedSequence
      ∧ s.endSeen = false then
    match event.finishReason with
    | none => .error (.validation "end event has no finish_reason")
    | some reason => do
      validateNativeFinishReason reason
      validateEndMetrics numbers event.metrics s.expectedSequence s.expectedSample
      pure { s with finishReason := some reason, endMetrics := event.metrics, endSeen := true }
  else .error (.validation "multipart JSON events are missing, duplicated, or out of order")

/-- `handle_audio_part`; `t0` is when the request was sent. -/
def handleAudioPart (t0 : Nat) (s : NativeStreamState) (part : Part) :
    Except StreamError (PacketRecord × NativeStreamState) := do
  failIf (s.startSeen = false ∨ s.endSeen = true ∨ s.finalSeen = true)
    (.validation "audio packet is outside the start/end event interval")
  match part.firstPayloadAt with
  | none => .error (.validation "audio packet payload is empty")
  | some arrival => do
    let sequence ← partU64 part "x-sequence"
    let firstCodecFrame ← partU64 part "x-first-codec-frame"
    let firstSample ← partU64 part "x-first-sample"
    let sampleCount ← partU64 part "x-sample-count"
    let codecFrames ← partU64 part "x-codec-frames"
    let isFinal ← partBool part "x-final"
    let payloadBytes := part.payload.length
    failIf (sequence ≠ s.expectedSequence ∨ firstSample ≠ s.expectedSample
        ∨ firstCodecFrame ≠ s.expectedCodecFrame ∨ sampleCount = 0 ∨ codecFrames = 0
        ∨ 2 ^ 64 ≤ sampleCount * 2 ∨ sampleCount * 2 ≠ payloadBytes)
      (.validation "native audio packet sequence/sample/frame continuity is invalid")
    pure (
      { sequence := sequence
        arrival := arrival - t0
        interArrival := s.previousAudioAt.map fun previous => arrival - previous
        payloadBytes := payloadBytes
        payload := part.payload
        byteOffset := s.byteOffset
        firstCodecFrame := firstCodecFrame
        firstSample := firstSample
        sampleCount := sampleCount
        codecFrames := codecFrames
        isFirst := sequence = 0
        isFinal := isFinal },
      { s with
        firstAudioAt := s.firstAudioAt <|> some arrival
        audioHasher := s.audioHasher ++ part.payload
        expectedSequence := wrappingAdd s.expectedSequence 1
        expectedSample := wrappingAdd s.expectedSample sampleCount
        expectedCodecFrame := wrappingAdd s.expectedCodecFrame codecFrames
        byteOffset := wrappingAdd s.byteOffset payloadBytes
        previousAudioAt := some arrival
        finalSeen := isFinal })

def validateComplete (s : NativeStreamState) : Except StreamError Unit :=
  failIf (s.startSeen = false ∨ s.endSeen = false ∨ s.finalSeen = false ∨ s.firstAudioAt = none)
    (.validation ("multipart response lacks a start event, PCM payload, final audio flag, or "
      ++ "end event"))

end NativeStreamState

/-! ## `parse_native_multipart` -/

/-- The fields of the record of a response that the response decides. -/
structure Outcome where
  samples : Nat
  /-- What `audio_sha256` is the digest of. -/
  audio : Bytes
  firstAudio : Nat
  packetCount : Nat
  finishReason : String
  naturalEos : Bool
  lengthLimited : Bool
  endMetrics : Option Document
  packets : List PacketRecord

/-- What the loop keeps between two parts. -/
structure Progress where
  packets : List PacketRecord
  state : NativeStreamState

def Progress.start (requestId : Text) : Progress := ⟨[], { serverRequestId := requestId }⟩

/-- An iteration of the loop over the parts. -/
def handlePart (json : JsonReader) (t0 : Nat) (p : Progress) (part : Part) :
    Except StreamError Progress :=
  match part.header "content-type".toList with
  | none => .error (.validation "multipart part has no Content-Type")
  | some contentType =>
    if mediaTypeIs contentType "application/json" then
      match json.fromSlice part.payload with
      | none => .error .json
      | some event => do
        let state ← p.state.handleJsonEvent json.numbers event
        pure { p with state }
    else if mediaTypeIs contentType "audio/pcm" then do
      validateNativeAudioContentType contentType
      let (packet, state) ← p.state.handleAudioPart t0 part
      pure ⟨p.packets ++ [packet], state⟩
    else .error (.contentType contentType)

/-- The loop over `next_part`. -/
def parseBody (json : JsonReader) (t0 : Nat) (s : Progress × MultipartReader) :
    Except StreamError Progress ⊕ (Progress × MultipartReader) :=
  match s.2.nextPart with
  | .error e => .inl (.error (.reader e))
  | .ok (none, _) => .inl (.ok s.1)
  | .ok (some part, r) =>
    match handlePart json t0 s.1 part with
    | .error e => .inl (.error e)
    | .ok p => .inr (p, r)

/-- `audio_duration_seconds` at the sample rate of the stream: the error it can return. -/
def reportable (samples : Nat) : Except StreamError Unit :=
  failIf (2 ^ 32 ≤ samples) (.validation "PCM sample count exceeds the reportable range")

/-- Behind the loop. -/
def Progress.finish (t0 : Nat) (p : Progress) : Except StreamError Outcome := do
  p.state.validateComplete
  match p.state.firstAudioAt, p.state.finishReason with
  | some firstAudioAt, some reason => do
    reportable p.state.expectedSample
    pure {
      samples := p.state.expectedSample
      audio := p.state.audioHasher
      firstAudio := firstAudioAt - t0
      packetCount := p.state.expectedSequence
      finishReason := reason
      naturalEos := reason = "stop"
      lengthLimited := reason = "length"
      endMetrics := p.state.endMetrics
      packets := p.packets }
  -- the two `expect`s
  | _, _ => .error (.reader .panic)

/-- `parse_native_multipart`; the loop ends, as each part takes bytes of the body. -/
def ParsesNative (json : JsonReader) (t0 : Nat) (requestId : Text) (reader : MultipartReader)
    (result : Except StreamError Outcome) : Prop :=
  ∃ fuel looped, loop (parseBody json t0) fuel (.start requestId, reader) = some looped ∧
    looped >>= Progress.finish t0 = result

end Qwen3Tts.Bench
