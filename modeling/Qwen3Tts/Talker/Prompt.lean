import Qwen3Tts.Server.Api

/-!
# Talker — the prompt plan and the size of a session

`VoiceDesignPrompt::from_token_ids` of `prompt.rs` lays out the positions of the prefill: the
tokens of the instruction, the three tokens that open the assistant's turn, the codec prefix,
and then either the first text token only (the rest trails behind, one token a frame) or the
whole text. `session_capacity` of `native_talker.rs` sizes the session for that prefill and the
frames requested. The token ids come from the tokenizer and are arbitrary here.
-/

namespace Qwen3Tts.Talker

open Qwen3Tts.Lib Qwen3Tts.Runtime Qwen3Tts.Server

/-! ## `prompt.rs` -/

/-- How a fallible function ends early: with an error it returns, or with a panic. -/
inductive Abort where
  | error (message : List Piece)
  | panic (message : String)
  deriving DecidableEq

/-- `&xs[start..stop]`. -/
def slice {α : Type} (xs : List α) (start stop : Nat) : Except Abort (List α) :=
  if stop < start then .error (.panic "slice index starts behind its end")
  else if xs.length < stop then .error (.panic "range end index out of range for slice")
  else .ok ((xs.take stop).drop start)

/-- `xs[index]`. -/
def index {α : Type} (xs : List α) (i : Nat) : Except Abort α :=
  match xs[i]? with
  | some x => .ok x
  | none => .error (.panic "index out of bounds")

inductive TextSource where
  | token (id : Nat)
  | ttsBos | ttsEos | ttsPad
  deriving DecidableEq, Repr

structure EmbeddingStep where
  text : Option TextSource
  codec : Option Nat
  deriving DecidableEq, Repr

inductive TextMode where
  | streaming | nonStreaming
  deriving DecidableEq, Repr

structure VoiceDesignPrompt where
  instructionIds : List Nat
  assistantIds : List Nat
  prefill : List EmbeddingStep
  trailingText : List TextSource
  deriving DecidableEq, Repr

/-- The fields of `ModelConfig` and its `talker_config` that the prompt reads. -/
structure ModelConfig where
  ttsBosTokenId : Nat
  ttsEosTokenId : Nat
  ttsPadTokenId : Nat
  codecBosId : Nat
  codecLanguageId : List (String × Nat)
  codecNothinkId : Nat
  codecPadId : Nat
  codecThinkBosId : Nat
  codecThinkEosId : Nat
  codecThinkId : Nat
  deriving DecidableEq, Repr

def ModelConfig.languageId (config : ModelConfig) (language : String) :
    Except Abort (Option Nat) :=
  if toAsciiLowercase language = "auto" then .ok none
  else match config.codecLanguageId.lookup (toAsciiLowercase language) with
  | some id => .ok (some id)
  | none => .error (.error [.text "unsupported explicit language ", .quoted language])

/-- `codec_prefix` before its last element, `codec_bos_id`, is pushed. -/
def ModelConfig.codecPrefix (config : ModelConfig) : Option Nat → List Nat
  | some languageId => [config.codecThinkId, config.codecThinkBosId, languageId,
      config.codecThinkEosId, config.codecPadId]
  | none => [config.codecNothinkId, config.codecThinkBosId, config.codecThinkEosId,
      config.codecPadId]

/-- A text token without a codec token beside it. -/
def textStep (id : Nat) : EmbeddingStep := ⟨some (.token id), none⟩

/-- The codec prefix: pads above it, and `tts_bos` above its last token. -/
def prefixSteps (codecPrefix : List Nat) : List EmbeddingStep :=
  codecPrefix.zipIdx.map fun (codec, index) =>
    ⟨some (if index + 1 = codecPrefix.length then .ttsBos else .ttsPad), some codec⟩

def VoiceDesignPrompt.fromTokenIds (config : ModelConfig) (instructionIds assistantIds : List Nat)
    (language : String) (mode : TextMode) : Except Abort VoiceDesignPrompt := do
  failIf (assistantIds.length < 8) (.error [.text "assistant prompt is too short"])
  let languageId ← config.languageId language
  let role ← slice assistantIds 0 3
  let opening := instructionIds.map textStep ++ role.map textStep
    ++ prefixSteps (config.codecPrefix languageId)
  match mode with
  | .streaming =>
    let first ← index assistantIds 3
    let rest ← slice assistantIds 4 (assistantIds.length - 5)
    return {
      instructionIds := instructionIds
      assistantIds := assistantIds
      prefill := opening ++ [⟨some (.token first), some config.codecBosId⟩]
      trailingText := rest.map .token ++ [.ttsEos] }
  | .nonStreaming =>
    let text ← slice assistantIds 3 (assistantIds.length - 5)
    return {
      instructionIds := instructionIds
      assistantIds := assistantIds
      prefill := opening ++ text.map (fun id => ⟨some (.token id), some config.codecPadId⟩)
        ++ [⟨some .ttsEos, some config.codecPadId⟩, ⟨some .ttsPad, some config.codecBosId⟩]
      trailingText := [.ttsPad] }

/-! ## `native_talker.rs` -/

/-- `i32::try_from(token)`. -/
def toI32 (token : Nat) (context : String) : Except String Int :=
  if token < 2 ^ 31 then .ok token else .error context

def ModelConfig.textSourceId (config : ModelConfig) : TextSource → Except String Int
  | .token id => toI32 id "text token exceeds i32"
  | .ttsBos => toI32 config.ttsBosTokenId "text token exceeds i32"
  | .ttsEos => toI32 config.ttsEosTokenId "text token exceeds i32"
  | .ttsPad => toI32 config.ttsPadTokenId "text token exceeds i32"

/-- The text and codec ids of one step; `-1` where the step has none. -/
def ModelConfig.nativeStep (config : ModelConfig) (step : EmbeddingStep) :
    Except String (Int × Int) := do
  let text ← step.text.elim (pure (-1)) config.textSourceId
  let codec ← step.codec.elim (pure (-1)) (toI32 · "codec token exceeds i32")
  return (text, codec)

/-- `native_prompt_steps`, the two id vectors zipped. -/
def ModelConfig.nativePromptSteps (config : ModelConfig) (prompt : VoiceDesignPrompt) :
    Except String (List (Int × Int)) :=
  prompt.prefill.mapM config.nativeStep

def minSessionCapacity : Nat := 16
def sessionCapacityBlock : Nat := 32

/-- `session_capacity`; `usize` sums are checked. -/
def sessionCapacity (promptTokens maxFrames maxSequenceLength : Nat) : Except String Nat :=
  if maxSequenceLength < minSessionCapacity then
    .error "max_sequence_length must be at least 16"
  else
    let required := promptTokens + maxFrames
    if 2 ^ 64 ≤ required then .error "prompt and frame count overflow the session capacity"
    else if maxSequenceLength < required then
      .error (s!"request needs {required} talker positions ({promptTokens} prompt tokens + "
        ++ s!"{maxFrames} codec frames), exceeding max_sequence_length={maxSequenceLength}")
    else if 2 ^ 64 ≤ max required minSessionCapacity + (sessionCapacityBlock - 1) then
      .error "session capacity overflow"
    else
      let rounded := (max required minSessionCapacity + (sessionCapacityBlock - 1))
        / sessionCapacityBlock * sessionCapacityBlock
      .ok (min rounded maxSequenceLength)

example : sessionCapacity 30 256 1024 = .ok 288 := by decide
example : sessionCapacity 16 1 17 = .ok 17 := by decide

/-! ## `voice_request` of `native_backend.rs` -/

/-- What `start` and `start_prompt` read of a `VoiceDesignRequest` before a session exists. -/
structure VoiceDesignRequest where
  text : String
  instruction : String
  language : String
  textMode : TextMode
  maxFrames : Nat
  maxSequenceLength : Nat
  deriving DecidableEq, Repr

def voiceRequest (input : SpeechInput) (generation : GenerationConfig) : VoiceDesignRequest where
  text := input.text
  instruction := input.instruct
  language := input.language.asOfficialName
  textMode := .streaming
  maxFrames := generation.maxCodecFrames
  maxSequenceLength := Runtime.maxCodecFrames

end Qwen3Tts.Talker
