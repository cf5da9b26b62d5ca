import Qwen3Tts.Lib.Fallible
import Qwen3Tts.Lib.Text
import Qwen3Tts.Server.Config

/-!
# Server — validation of a speech request

`SpeechRequestBody::prepare` of `api.rs` with everything it calls: the byte limits, the language,
the duration, the seed, the output format and the sampling options. An accepted body becomes the
`RequestInput` and `GenerationConfig` that the scheduler is started with.

The text of an error keeps the floats and the quoted string of its `format!` as values, since
their decimal rendering decides nothing.
-/

namespace Qwen3Tts.Server

open Qwen3Tts.Lib Qwen3Tts.Runtime

/-- `MAX_SAFE_JSON_INTEGER`. -/
def maxSafeJsonInteger : Nat := 2 ^ 53 - 1

/-! ## Text -/

/-- `str::trim`. -/
def trim (text : String) : String :=
  .ofList ((text.toList.dropWhile isWhitespace).reverse.dropWhile isWhitespace).reverse

def toAsciiLowercase (text : String) : String := text.map Char.toLower

/-! ## Types -/

inductive Language where
  | auto | chinese | english | japanese | korean | german | french | russian | portuguese
  | spanish | italian
  deriving DecidableEq, Repr

/-- `as_official_name`. -/
def Language.asOfficialName : Language → String
  | .auto => "Auto"
  | .chinese => "Chinese"
  | .english => "English"
  | .japanese => "Japanese"
  | .korean => "Korean"
  | .german => "German"
  | .french => "French"
  | .russian => "Russian"
  | .portuguese => "Portuguese"
  | .spanish => "Spanish"
  | .italian => "Italian"

inductive OutputFormat where
  | pcmS16le | wav
  deriving DecidableEq, Repr

inductive OutputMode where
  | streamPcm | bufferedWav
  deriving DecidableEq, Repr

inductive SamplingStrategy where
  | sample | greedy
  deriving DecidableEq, Repr

structure PredictorSamplingOptions where
  strategy : Option SamplingStrategy := none
  temperature : Option F32 := none
  topP : Option F32 := none
  topK : Option Nat := none

structure SamplingOptions where
  strategy : SamplingStrategy := .sample
  temperature : Option F32 := none
  topP : Option F32 := none
  topK : Option Nat := none
  repetitionPenalty : Option F32 := none
  predictor : Option PredictorSamplingOptions := none

structure SpeechRequestBody where
  text : String
  voiceDescription : String
  language : String := "auto"
  seed : Option Nat := none
  maxDurationSeconds : Option Float := none
  sampling : Option SamplingOptions := none
  stream : Option Bool := none
  outputFormat : Option OutputFormat := none

/-- `RequestInput` together with its `language`, which the scheduler only hands on. -/
structure SpeechInput extends RequestInput where
  language : Language
  deriving DecidableEq, Repr

structure EngineSynthesisRequest where
  input : SpeechInput
  generation : GenerationConfig
  deriving DecidableEq, Repr

structure PreparedSpeech where
  engineRequest : EngineSynthesisRequest
  output : OutputMode
  seed : Nat
  deriving DecidableEq, Repr

/-- A part of a formatted message. -/
inductive Piece where
  | text (value : String)
  | number (value : Nat)
  | f64 (value : Float)
  | f32 (value : F32)
  | quoted (value : String)
  deriving DecidableEq

structure ValidationError where
  code : String
  detail : List Piece
  deriving DecidableEq

def invalidSampling (detail : List Piece) : ValidationError := ⟨"invalid_sampling", detail⟩

/-! ## Checks -/

def validateText (text : String) (limit : Nat) : Except ValidationError Unit :=
  if (trim text).isEmpty then
    .error ⟨"invalid_text", [.text "text must not be empty or whitespace-only"]⟩
  else if limit < text.utf8ByteSize then
    .error ⟨"invalid_text", [.text "text is ", .number text.utf8ByteSize,
      .text " UTF-8 bytes; maximum is ", .number limit]⟩
  else if '\x00' ∈ text.toList then
    .error ⟨"invalid_text", [.text "text must not contain NUL characters"]⟩
  else .ok ()

def validateVoiceDescription (description : String) (limit : Nat) :
    Except ValidationError Unit :=
  if (trim description).isEmpty then
    .error ⟨"invalid_voice_description",
      [.text "voice_description is required for the VoiceDesign model"]⟩
  else if limit < description.utf8ByteSize then
    .error ⟨"invalid_voice_description", [.text "voice_description is ",
      .number description.utf8ByteSize, .text " UTF-8 bytes; maximum is ", .number limit]⟩
  else if '\x00' ∈ description.toList then
    .error ⟨"invalid_voice_description",
      [.text "voice_description must not contain NUL characters"]⟩
  else .ok ()

def parseLanguage (value : String) : Except ValidationError Language :=
  match toAsciiLowercase (trim value) with
  | "auto" => .ok .auto
  | "chinese" => .ok .chinese
  | "english" => .ok .english
  | "japanese" => .ok .japanese
  | "korean" => .ok .korean
  | "german" => .ok .german
  | "french" => .ok .french
  | "russian" => .ok .russian
  | "portuguese" => .ok .portuguese
  | "spanish" => .ok .spanish
  | "italian" => .ok .italian
  | unsupported => .error ⟨"unsupported_language", [.text "language ", .quoted unsupported,
      .text (" is unsupported; accepted values are auto, chinese, english, japanese, korean, "
        ++ "german, french, russian, portuguese, spanish, italian")]⟩

def normalizeOutput : Option Bool → Option OutputFormat → Except ValidationError OutputMode
  | none, none | some true, none | none, some .pcmS16le | some true, some .pcmS16le =>
    .ok .streamPcm
  | none, some .wav | some false, some .wav | some false, none => .ok .bufferedWav
  | some true, some .wav => .error ⟨"unsupported_response_format",
      [.text "stream=true requires output_format=pcm_s16le"]⟩
  | some false, some .pcmS16le => .error ⟨"unsupported_response_format",
      [.text "stream=false requires output_format=wav"]⟩

def validateStrategyFields (strategy : SamplingStrategy) (temperature topP : Option F32)
    (topK : Option Nat) (path : String) : Except ValidationError Unit :=
  if strategy = .greedy ∧ (temperature.isSome ∨ topP.isSome ∨ topK.isSome) then
    .error (invalidSampling [.text path,
      .text " temperature/top_p/top_k must be omitted for greedy strategy"])
  else .ok ()

/-- `x < y`. -/
def below (x y : F32) : Bool := !x.isNaN && !y.isNaN && x.key < y.key

def validateFloat (value minimum maximum : F32) (path : String) :
    Except ValidationError Unit :=
  if !value.isFinite || below value minimum || below maximum value then
    .error (invalidSampling [.text path, .text " must be finite and in ", .f32 minimum,
      .text "..=", .f32 maximum])
  else .ok ()

/-! ## `prepare` -/

def prepareSampling (sampling : SamplingOptions) (maxCodecFrames seed : Nat) :
    Except ValidationError GenerationConfig := do
  let defaults := GenerationConfig.default
  validateStrategyFields sampling.strategy sampling.temperature sampling.topP sampling.topK
    "sampling"
  let temperature := sampling.temperature.getD defaults.temperature
  let topP := sampling.topP.getD defaults.topP
  let topK := sampling.topK.getD defaults.topK
  let repetitionPenalty := sampling.repetitionPenalty.getD defaults.repetitionPenalty
  -- 0.01, 0.1, 2.0 and `f32::MIN_POSITIVE`
  validateFloat temperature ⟨0x3C23D70A⟩ ⟨0x40000000⟩ "sampling.temperature"
  validateFloat topP ⟨0x00800000⟩ .one "sampling.top_p"
  validateFloat repetitionPenalty ⟨0x3DCCCCCD⟩ ⟨0x40000000⟩ "sampling.repetition_penalty"
  failIf (3072 < topK) (invalidSampling [.text "sampling.top_k must be in 0..=3072"])
  let predictor := sampling.predictor.getD {}
  let predictorStrategy := predictor.strategy.getD sampling.strategy
  validateStrategyFields predictorStrategy predictor.temperature predictor.topP predictor.topK
    "sampling.predictor"
  let predictorTemperature := predictor.temperature.getD defaults.predictorTemperature
  let predictorTopP := predictor.topP.getD defaults.predictorTopP
  let predictorTopK := predictor.topK.getD defaults.predictorTopK
  validateFloat predictorTemperature ⟨0x3C23D70A⟩ ⟨0x40000000⟩ "sampling.predictor.temperature"
  validateFloat predictorTopP ⟨0x00800000⟩ .one "sampling.predictor.top_p"
  failIf (2048 < predictorTopK)
    (invalidSampling [.text "sampling.predictor.top_k must be in 0..=2048"])
  return { defaults with
    maxCodecFrames := maxCodecFrames
    seed := seed
    temperature := temperature
    topP := topP
    repetitionPenalty := repetitionPenalty
    topK := topK
    doSample := if sampling.strategy = .sample then 1 else 0
    predictorTemperature := predictorTemperature
    predictorTopP := predictorTopP
    predictorTopK := predictorTopK
    predictorDoSample := if predictorStrategy = .sample then 1 else 0 }

theorem prepareSampling_frames {sampling : SamplingOptions} {maxCodecFrames seed : Nat}
    {generation : GenerationConfig}
    (h : prepareSampling sampling maxCodecFrames seed = .ok generation) :
    generation.maxCodecFrames = maxCodecFrames := by
  unfold prepareSampling at h
  simp only [bind_eq_ok, pure_eq_ok] at h
  obtain ⟨-, -, -, -, -, -, -, -, -, -, -, -, -, -, -, -, -, -, rfl⟩ := h
  rfl

namespace SpeechRequestBody

/-- The duration ceiling of the request: its own or the configured default. -/
def duration (body : SpeechRequestBody) (config : ServerConfig) : Float :=
  body.maxDurationSeconds.getD config.defaultDurationSeconds

/-- `random` is what `rand::random::<u64>()` returns. -/
def prepare (body : SpeechRequestBody) (config : ServerConfig) (random : Nat) :
    Except ValidationError PreparedSpeech := do
  validateText body.text config.maxTextBytes
  validateVoiceDescription body.voiceDescription config.maxVoiceDescriptionBytes
  let language ← parseLanguage body.language
  let duration := body.duration config
  failIf (!duration.isFinite || duration < 0.08 || config.maxDurationSeconds < duration)
    ⟨"invalid_max_duration", [.text "max_duration_seconds must be in 0.08..=",
      .f64 config.maxDurationSeconds]⟩
  let maxCodecFrames := durationToFrames duration
  let seed := body.seed.getD (random % 2 ^ 53)
  failIf (maxSafeJsonInteger < seed)
    ⟨"invalid_seed", [.text "seed must be in 0..=", .number maxSafeJsonInteger]⟩
  let output ← normalizeOutput body.stream body.outputFormat
  let generation ← prepareSampling (body.sampling.getD {}) maxCodecFrames seed
  return {
    engineRequest := {
      input := { text := body.text, instruct := body.voiceDescription, language := language }
      generation := generation }
    output := output
    seed := seed }

end SpeechRequestBody

end Qwen3Tts.Server
