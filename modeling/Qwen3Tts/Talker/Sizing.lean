import Qwen3Tts.Talker.Prompt

/-!
# Talker — does an accepted request fit?

Admission bounds the text in bytes and the frames by `MAX_CODEC_FRAMES`; the talker sizes its
session for prompt tokens *and* frames, against the same constant. The prefill of a streaming
prompt has a fixed number of control positions besides the instruction, so the requests that
fit are those whose instruction leaves room for them.
-/

namespace Qwen3Tts.Talker

open Qwen3Tts.Lib Qwen3Tts.Runtime Qwen3Tts.Server

/-! ## The length of the prefill -/

/-- Positions of a streaming prefill besides the instruction: three tokens of the assistant's
turn, the codec prefix and the first text token. -/
def controlTokens : Language → Nat
  | .auto => 8
  | _ => 9

theorem slice_ok {α : Type} {xs ys : List α} {start stop : Nat}
    (h : slice xs start stop = .ok ys) : ys.length = stop - start := by
  unfold slice at h
  split at h
  · cases h
  split at h
  · cases h
  cases h
  rw [List.length_drop, List.length_take]
  omega

theorem ModelConfig.languageId_ok {config : ModelConfig} {language : Language}
    {languageId : Option Nat} (h : config.languageId language.asOfficialName = .ok languageId) :
    languageId.isNone = (language == .auto) := by
  unfold ModelConfig.languageId at h
  have hauto : (toAsciiLowercase language.asOfficialName = "auto") ↔ language = .auto := by
    cases language <;> decide +kernel
  by_cases hlanguage : language = .auto
  · rw [if_pos (hauto.mpr hlanguage)] at h
    cases h
    simp [hlanguage]
  · rw [if_neg (mt hauto.mp hlanguage)] at h
    split at h
    · cases h
      simp [hlanguage]
    · cases h

theorem prefixSteps_length {codecPrefix : List Nat} :
    (prefixSteps codecPrefix).length = codecPrefix.length := by
  simp [prefixSteps]

theorem fromTokenIds_length {config : ModelConfig} {instructionIds assistantIds : List Nat}
    {language : Language} {prompt : VoiceDesignPrompt}
    (h : VoiceDesignPrompt.fromTokenIds config instructionIds assistantIds
      language.asOfficialName .streaming = .ok prompt) :
    prompt.prefill.length = instructionIds.length + controlTokens language := by
  unfold VoiceDesignPrompt.fromTokenIds at h
  obtain ⟨-, -, h⟩ := bind_eq_ok.mp h
  obtain ⟨languageId, hid, h⟩ := bind_eq_ok.mp h
  obtain ⟨role, hrole, h⟩ := bind_eq_ok.mp h
  obtain ⟨first, -, h⟩ := bind_eq_ok.mp h
  obtain ⟨rest, -, h⟩ := bind_eq_ok.mp h
  cases h
  have hlanguage := ModelConfig.languageId_ok hid
  simp only [List.length_append, List.length_map, List.length_singleton, prefixSteps_length,
    slice_ok hrole]
  cases languageId with
  | none =>
    obtain rfl : language = .auto := by simpa using hlanguage
    show instructionIds.length + (3 - 0) + 4 + 1 = instructionIds.length + 8
    omega
  | some id =>
    have hcontrol : controlTokens language = 9 := by
      cases language <;> first | rfl | cases hlanguage
    rw [hcontrol]
    show instructionIds.length + (3 - 0) + 5 + 1 = instructionIds.length + 9
    omega

/-! ## Sizing -/

theorem sessionCapacity_isOk {promptTokens maxFrames : Nat} :
    (sessionCapacity promptTokens maxFrames Runtime.maxCodecFrames).isOk = true ↔
      promptTokens + maxFrames ≤ Runtime.maxCodecFrames := by
  unfold sessionCapacity Runtime.maxCodecFrames minSessionCapacity sessionCapacityBlock
  rw [if_neg (by omega)]
  dsimp only
  split
  · simp only [Except.isOk, Except.toBool, Bool.false_eq_true, false_iff]
    omega
  split
  · simp only [Except.isOk, Except.toBool, Bool.false_eq_true, false_iff]
    omega
  rw [if_neg (by omega)]
  simp only [Except.isOk, Except.toBool, true_iff]
  omega

/-- The requests the service lets in, with the number of frames each asks for: an HTTP body that
`prepare` accepts, or an input and a generation that the scheduler's own checks accept. -/
inductive Accepted : SpeechInput → GenerationConfig → Nat → Prop
  | http {config : ServerConfig} {body : SpeechRequestBody} {random : Nat}
      {prepared : PreparedSpeech} (hconfig : config.validate = .ok ())
      (hprepare : body.prepare config random = .ok prepared) :
      Accepted prepared.engineRequest.input prepared.engineRequest.generation
        (durationToFrames (body.duration config))
  | native {config : EngineConfig} {input : SpeechInput} {generation : GenerationConfig}
      (hconfig : validateConfig config = .ok ())
      (hinput : input.toRequestInput.validate config = .ok ())
      (hgeneration : validateGeneration generation = .ok ()) :
      Accepted input generation generation.maxCodecFrames

/-- The frames a request asks for are the ones the backend hands to the talker. -/
theorem Accepted.frames_eq {input : SpeechInput} {generation : GenerationConfig} {frames : Nat}
    (h : Accepted input generation frames) : generation.maxCodecFrames = frames := by
  cases h with
  | http hconfig hprepare =>
    unfold SpeechRequestBody.prepare at hprepare
    simp only [bind_eq_ok, pure_eq_ok] at hprepare
    obtain ⟨-, -, -, -, -, -, -, -, -, -, -, -, generation, hgeneration, rfl⟩ := hprepare
    exact prepareSampling_frames hgeneration
  | native => rfl

/-- **An accepted request fits exactly when its instruction leaves room**: its tokens, the control
positions of its language and its frames together stay within `MAX_CODEC_FRAMES`. -/
theorem accepted_fits {input : SpeechInput} {generation : GenerationConfig} {frames : Nat}
    {config : ModelConfig} {instructionIds assistantIds : List Nat} {prompt : VoiceDesignPrompt}
    {steps : List (Int × Int)} (haccepted : Accepted input generation frames)
    (hprompt : VoiceDesignPrompt.fromTokenIds config instructionIds assistantIds
      (voiceRequest input generation).language (voiceRequest input generation).textMode
        = .ok prompt)
    (hsteps : config.nativePromptSteps prompt = .ok steps) :
    (sessionCapacity steps.length (voiceRequest input generation).maxFrames
        (voiceRequest input generation).maxSequenceLength).isOk = true ↔
      instructionIds.length + controlTokens input.language + frames ≤ Runtime.maxCodecFrames := by
  have hlength : steps.length = instructionIds.length + controlTokens input.language := by
    rw [mapM_length hsteps]
    exact fromTokenIds_length hprompt
  have hframes : (voiceRequest input generation).maxFrames = frames := haccepted.frames_eq
  rw [hlength, hframes]
  exact sessionCapacity_isOk

/-- The ids of the pinned model, with one explicit language. -/
def pinnedModel : ModelConfig where
  ttsBosTokenId := 151672
  ttsEosTokenId := 151673
  ttsPadTokenId := 151671
  codecBosId := 2149
  codecLanguageId := [("german", 2053)]
  codecNothinkId := 2155
  codecPadId := 2148
  codecThinkBosId := 2156
  codecThinkEosId := 2157
  codecThinkId := 2154

/-- `"<|im_start|>user\nb<|im_end|>\n"`. -/
def instructionOfB : List Nat := [151644, 872, 198, 65, 151645, 198]

/-- `"<|im_start|>assistant\na<|im_end|>\n<|im_start|>assistant\n"`. -/
def assistantOfA : List Nat := [151644, 77091, 198, 64, 151645, 198, 151644, 77091, 198]

/-- The prefill of these two texts in the given language. -/
def stepsOf (language : Language) : Except Abort (List (Int × Int)) := do
  let prompt ← VoiceDesignPrompt.fromTokenIds pinnedModel instructionOfB assistantOfA
    language.asOfficialName .streaming
  (pinnedModel.nativePromptSteps prompt).mapError fun message => .error [.text message]

theorem accepted_fits_default : ∃ steps, stepsOf .german = .ok steps ∧
    (sessionCapacity steps.length GenerationConfig.default.maxCodecFrames
      Runtime.maxCodecFrames).isOk = true := by
  have hsteps : ∃ steps, stepsOf .german = .ok steps := by
    cases h : stepsOf .german with
    | ok steps => exact ⟨steps, rfl⟩
    | error e =>
      have hok : (stepsOf .german).isOk = true := by decide +kernel
      rw [h] at hok
      cases hok
  obtain ⟨steps, hsteps⟩ := hsteps
  obtain ⟨prompt, hprompt, hnative⟩ := bind_eq_ok.mp hsteps
  have haccepted : Accepted ⟨⟨"a", "b"⟩, .german⟩ .default 4096 :=
    .native (by decide : validateConfig .default = .ok ()) (by decide) (by decide)
  exact ⟨steps, hsteps, (accepted_fits haccepted hprompt (mapError_eq_ok.mp hnative)).mpr (by decide)⟩

/-! ## The documented ceiling cannot be served -/

/-- The service configured with the intrinsic ceiling. -/
def ceilingConfig : ServerConfig :=
  { ServerConfig.default with maxDurationSeconds := intrinsicMaxDurationSeconds }

def ceilingBody : SpeechRequestBody where
  text := "a"
  voiceDescription := "b"
  maxDurationSeconds := some intrinsicMaxDurationSeconds

def ceilingGeneration : GenerationConfig :=
  { GenerationConfig.default with maxCodecFrames := Runtime.maxCodecFrames }

theorem ceiling_does_not_fit :
    ceilingConfig.validate = .ok () ∧
    ceilingBody.prepare ceilingConfig 0 =
      .ok ⟨⟨⟨⟨"a", "b"⟩, .auto⟩, ceilingGeneration⟩, .streamPcm, 0⟩ ∧
    ∃ steps, stepsOf .auto = .ok steps ∧
      sessionCapacity steps.length ceilingGeneration.maxCodecFrames Runtime.maxCodecFrames =
        .error ("request needs 8206 talker positions (14 prompt tokens + 8192 codec frames), "
          ++ "exceeding max_sequence_length=8192") := by
  refine ⟨by decide +kernel, by decide +kernel, ?_⟩
  have hlength : (stepsOf .auto).map List.length = .ok 14 := by decide +kernel
  cases hsteps : stepsOf .auto with
  | error e =>
    rw [hsteps] at hlength
    cases hlength
  | ok steps =>
    rw [hsteps] at hlength
    refine ⟨steps, rfl, ?_⟩
    rw [show steps.length = 14 by simpa [Except.map] using hlength]
    decide +kernel

end Qwen3Tts.Talker
