import Qwen3Tts.Lib.Binary64
import Qwen3Tts.Runtime.Capacity
import Qwen3Tts.Server.Api

/-!
# Server — a validated request is refused only for capacity

The server checks a request twice: `prepare` on the HTTP body and, behind it, the scheduler's
`RequestInput::validate` and `validate_generation`. The second pair never rejects what the
first accepted: every bound of the HTTP side lies inside the scheduler's. The one bound that is no
comparison of two constants is the number of codec frames, which rests on `duration_to_frames`
being monotone.
-/

namespace Qwen3Tts.Server

open Qwen3Tts.Lib Qwen3Tts.Runtime

/-! ## The compatibility body -/

/-- `MODEL_ID`. -/
def modelId : String := "qwen3-tts-1.7b-voice-design"

/-- The formats of the compatibility body. -/
inductive OpenAiResponseFormat where
  | wav | pcm
  deriving DecidableEq, Repr

/-- The compatibility body, with the fields that are read. -/
structure OpenAiSpeechRequestBody where
  model : String
  input : String
  voice : String
  responseFormat : OpenAiResponseFormat := .wav
  speed : F32 := .one
  stream : Bool := false

/-- `(speed - 1.0).abs() > f32::EPSILON`. -/
def speedOffUnit (speed : F32) : Bool :=
  Float32.ofBits 0x34000000 < (Float32.ofBits speed.bits - 1.0).abs

/-- The request as a native one, or what is wrong with it. -/
def OpenAiSpeechRequestBody.intoNative (body : OpenAiSpeechRequestBody) :
    Except ValidationError SpeechRequestBody := do
  failIf (body.model ≠ modelId)
    ⟨"unsupported_model", [.text "model must be ", .quoted modelId]⟩
  failIf (!body.speed.isFinite || speedOffUnit body.speed) ⟨"unsupported_speed",
    [.text "the native VoiceDesign server supports only speed=1.0"]⟩
  match body.stream, body.responseFormat with
  | false, .wav => return {
      text := body.input
      voiceDescription := body.voice
      language := "auto"
      seed := none
      maxDurationSeconds := none
      sampling := none
      stream := some false
      outputFormat := some .wav }
  | _, _ => .error ⟨"unsupported_response_format",
      [.text ("the conservative compatibility alias supports only buffered wav; use "
        ++ "/v1/voice-design/speech for streaming PCM")]⟩

/-! ## The two configurations of `main` -/

/-- What the environment variables of the service set, when they are present. -/
structure Settings where
  maxConcurrentRequests : Option Nat := none
  maxTextBytes : Option Nat := none
  maxVoiceDescriptionBytes : Option Nat := none
  maxDurationSeconds : Option Float := none

/-- `f64::min`. -/
def f64Min (x y : Float) : Float :=
  if x.isNaN then y else if y.isNaN then x else if y < x then y else x

/-- What `main` gives the engine. -/
def Settings.runtimeConfig (settings : Settings) : EngineConfig :=
  { EngineConfig.default with
    maxConcurrentRequests :=
      settings.maxConcurrentRequests.getD EngineConfig.default.maxConcurrentRequests }

/-- The configuration `main` gives the server. -/
def Settings.serverConfig (settings : Settings) : ServerConfig :=
  let server := ServerConfig.default
  let maxDurationSeconds := settings.maxDurationSeconds.getD server.maxDurationSeconds
  { server with
    maxTextBytes := settings.maxTextBytes.getD server.maxTextBytes
    maxVoiceDescriptionBytes :=
      settings.maxVoiceDescriptionBytes.getD server.maxVoiceDescriptionBytes
    maxDurationSeconds := maxDurationSeconds
    maxConcurrentRequests := settings.runtimeConfig.maxConcurrentRequests
    defaultDurationSeconds := f64Min server.defaultDurationSeconds maxDurationSeconds }

/-- `u32::try_from`. -/
def u32TryFrom (n : Nat) : Except String Nat :=
  if n < 2 ^ 32 then .ok n else .error "out of range integral type conversion attempted"

/-- The engine limits that `main` takes from the validated server configuration. -/
def ServerConfig.engineConfig (server : ServerConfig) (runtime : EngineConfig) :
    Except String EngineConfig := do
  let maxTextBytes ← u32TryFrom server.maxTextBytes
  let maxInstructBytes ← u32TryFrom server.maxVoiceDescriptionBytes
  return { runtime with
    maxTextBytes := maxTextBytes
    maxInstructBytes := maxInstructBytes }

/-- The configurations that `main` starts the engine and the router with. -/
def Settings.configure (settings : Settings) : Except String (EngineConfig × ServerConfig) := do
  let server := settings.serverConfig
  server.validate
  let engine ← server.engineConfig settings.runtimeConfig
  return (engine, server)

/-! ## The two handlers -/

/-- The body of a request to either handler. -/
inductive HttpBody where
  | native (body : SpeechRequestBody)
  | openAi (body : OpenAiSpeechRequestBody)

/-- What `native_speech` and `openai_speech` do before `start_prepared`. -/
def HttpBody.prepare (config : ServerConfig) (random : Nat) :
    HttpBody → Except ValidationError PreparedSpeech
  | .native body => body.prepare config random
  | .openAi body => do (← body.intoNative).prepare config random

/-! ## Frames -/

section
open Binary64

/-- The least duration, as a normal number. -/
theorem normal_least : Normal 0.08 0x147AE147AE147B (-56) := by
  have hbits : (0.08 : Float) =
      .ofModel (.pack (.finite .positive 0x147AE147AE147B (-56) (by decide))) := by
    decide
  rw [hbits]
  exact normal_pack (by decide) (by decide) (by decide) (by decide)

/-- The greatest duration, as a normal number. -/
theorem normal_intrinsicMax :
    Normal intrinsicMaxDurationSeconds 0x147AE147AE147B (-43) := by
  have hbits : intrinsicMaxDurationSeconds =
      .ofModel (.pack (.finite .positive 0x147AE147AE147B (-43) (by decide))) := by
    decide
  rw [hbits]
  exact normal_pack (by decide) (by decide) (by decide) (by decide)

/-- The frame rate, as a normal number. -/
theorem normal_rate : Normal 12.5 0x19000000000000 (-49) := by
  have hbits : (12.5 : Float) =
      .ofModel (.pack (.finite .positive 0x19000000000000 (-49) (by decide))) := by
    decide
  rw [hbits]
  exact normal_pack (by decide) (by decide) (by decide) (by decide)

/-- The durations that pass the range checks. -/
structure InRange (seconds : Float) : Prop where
  finite : seconds.isFinite = true
  low : ¬ seconds < 0.08
  high : ¬ intrinsicMaxDurationSeconds < seconds

/-- The exponents left between the two bounds. -/
theorem InRange.normal {seconds : Float} (h : InRange seconds) :
    ∃ m e, Normal seconds m e ∧ -56 ≤ e ∧ e ≤ -43 ∧
      value m e ≤ value 0x147AE147AE147B (-43) := by
  obtain ⟨m, e, hnormal⟩ := normal_of_not_lt normal_least (by decide) h.finite h.low
  have hlow := mt (normal_lt hnormal normal_least).mpr h.low
  have hhigh := mt (normal_lt normal_intrinsicMax hnormal).mpr h.high
  refine ⟨m, e, hnormal, ?_, ?_, not_lt.mp hhigh⟩
  · by_contra he
    exact hlow (value_lt_of_exponent hnormal.high (by decide) (by omega))
  · by_contra he
    exact hhigh (value_lt_of_exponent (by decide) hnormal.low (by omega))

/-- What is finite and between `0.08` and a duration in range is in range. -/
theorem InRange.below {seconds top : Float} (htop : InRange top)
    (hfinite : seconds.isFinite = true) (hlow : ¬ seconds < 0.08) (hle : ¬ top < seconds) :
    InRange seconds := by
  refine ⟨hfinite, hlow, fun hhigh => ?_⟩
  obtain ⟨m, e, hseconds⟩ := normal_of_not_lt normal_least (by decide) hfinite hlow
  obtain ⟨k, t, hnormal, -, -, hmax⟩ := htop.normal
  have h := mt (normal_lt hnormal hseconds).mpr hle
  have h' := (normal_lt normal_intrinsicMax hseconds).mp hhigh
  exact absurd (lt_of_lt_of_le h' (not_lt.mp h)) (not_lt.mpr hmax)

/-- **`duration_to_frames` on the validated range**: the ceiling of the rounded product. -/
theorem durationToFrames_eq {seconds : Float} {m : ℕ} {e : ℤ} (h : Normal seconds m e)
    (hlow : -56 ≤ e) (hhigh : e ≤ -43) (hmax : value m e ≤ value 0x147AE147AE147B (-43)) :
    durationToFrames seconds =
      min ⌈nearest (value m e * value 0x19000000000000 (-49))⌉₊ (2 ^ 32 - 1) := by
  obtain ⟨r, t, hframes, hvalue⟩ := normal_mul h normal_rate (by omega) (by omega)
  -- the product is below 2^53, so its ceiling is exact
  have hproduct : value m e * value 0x19000000000000 (-49) ≤ value (2 ^ 52) (-38) :=
    calc value m e * value 0x19000000000000 (-49)
        ≤ value 0x147AE147AE147B (-43) * value 0x19000000000000 (-49) :=
          mul_le_mul_of_nonneg_right hmax normal_rate.value_pos.le
      _ ≤ value (2 ^ 52) (-38) := by norm_num [value]
  have hbound : value r t < 2 ^ 53 :=
    calc value r t = nearest (value m e * value 0x19000000000000 (-49)) := hvalue
      _ ≤ nearest (value (2 ^ 52) (-38)) :=
        nearest_mono (mul_pos h.value_pos normal_rate.value_pos) hproduct
      _ = value (2 ^ 52) (-38) := nearest_value le_rfl (by decide)
      _ < 2 ^ 53 := by norm_num [value]
  have hceil : ceilToNat (seconds * 12.5) = ⌈value r t⌉₊ := ceil_eq hframes hbound
  -- the two guards of the code do not fire
  have htests : (!(seconds * 12.5).isFinite || decide (seconds * 12.5 ≤ 0)) = false := by
    simp [hframes.isFinite, hframes.not_le_zero]
  unfold durationToFrames
  simp only [htests, Bool.false_eq_true, if_false]
  rw [hceil, hvalue]

/-- A longer duration has no fewer frames. -/
theorem durationToFrames_mono {short long : Float} (hshort : InRange short) (hlong : InRange long)
    (h : ¬ long < short) : durationToFrames short ≤ durationToFrames long := by
  obtain ⟨m, e, hm, hlow, hhigh, hmax⟩ := hshort.normal
  obtain ⟨k, t, hk, hlow', hhigh', hmax'⟩ := hlong.normal
  rw [durationToFrames_eq hm hlow hhigh hmax, durationToFrames_eq hk hlow' hhigh' hmax']
  have hle := not_lt.mp (mt (normal_lt hk hm).mpr h)
  have hrate := normal_rate.value_pos
  refine min_le_min_right _ (Nat.ceil_mono (nearest_mono (mul_pos hm.value_pos hrate) ?_))
  exact mul_le_mul_of_nonneg_right hle hrate.le

/-- Every duration in range has a frame. -/
theorem durationToFrames_pos {seconds : Float} (h : InRange seconds) :
    0 < durationToFrames seconds := by
  obtain ⟨m, e, hm, hlow, hhigh, hmax⟩ := h.normal
  rw [durationToFrames_eq hm hlow hhigh hmax]
  refine lt_min (Nat.ceil_pos.mpr (nearest_pos ?_)) (by decide)
  exact mul_pos hm.value_pos normal_rate.value_pos

end

/-! ## The two validators -/

/-- A value that passes the check lies between the bounds. -/
theorem validateFloat_ok {value minimum maximum : F32} {path : String}
    (h : validateFloat value minimum maximum path = .ok ()) (hmin : minimum.isNaN = false)
    (hmax : maximum.isNaN = false) :
    value.isFinite = true ∧ value.isNaN = false ∧ minimum.key ≤ value.key ∧
      value.key ≤ maximum.key := by
  unfold validateFloat at h
  split at h
  · cases h
  rename_i hrange
  simp only [Bool.or_eq_true, Bool.not_eq_true', not_or, Bool.not_eq_false] at hrange
  obtain ⟨⟨hfinite, hlow⟩, hhigh⟩ := hrange
  have hnan : value.isNaN = false := by
    simp only [F32.isFinite, F32.isNaN, decide_eq_true_iff, decide_eq_false_iff_not] at hfinite ⊢
    omega
  simp only [below, hnan, hmin, hmax, Bool.not_false, Bool.true_and, decide_eq_true_iff,
    not_lt] at hlow hhigh
  exact ⟨hfinite, hnan, hlow, hhigh⟩

/-- A value checked against a positive minimum passes the scheduler's test. -/
theorem notFinitePositive_of_validated {value minimum maximum : F32} {path : String}
    (h : validateFloat value minimum maximum path = .ok ()) (hmin : minimum.isNaN = false)
    (hmax : maximum.isNaN = false) (hpos : 0 < minimum.key) :
    value.notFinitePositive = false := by
  obtain ⟨hfinite, hnan, hlow, -⟩ := validateFloat_ok h hmin hmax
  have hle : value.le .zero = false := by
    simp only [F32.le, hnan, Bool.not_false, Bool.true_and, Bool.and_eq_false_imp,
      decide_eq_false_iff_not, not_le]
    intro _
    show 0 < value.key
    omega
  rw [F32.notFinitePositive, hfinite, hle]
  rfl

/-- A value checked against a positive minimum and one passes the scheduler's test. -/
theorem notInUnit_of_validated {value minimum : F32} {path : String}
    (h : validateFloat value minimum .one path = .ok ()) (hmin : minimum.isNaN = false)
    (hpos : 0 < minimum.key) : value.notInUnit = false := by
  obtain ⟨hfinite, hnan, hlow, hhigh⟩ := validateFloat_ok h hmin rfl
  have hzero : F32.zero.le value = true := by
    simp only [F32.le, hnan, Bool.not_false, Bool.and_true, Bool.and_eq_true,
      decide_eq_true_iff]
    refine ⟨rfl, ?_⟩
    show 0 ≤ value.key
    omega
  have hone : value.le .one = true := by
    simp only [F32.le, hnan, Bool.not_false, Bool.true_and, Bool.and_eq_true,
      decide_eq_true_iff]
    exact ⟨rfl, hhigh⟩
  have heq : value.eq .zero = false := by
    simp only [F32.eq, hnan, Bool.not_false, Bool.true_and, Bool.and_eq_false_imp,
      beq_eq_false_iff_ne]
    intro _ hkey
    rw [hkey] at hlow
    exact absurd hlow (by show ¬ minimum.key ≤ 0; omega)
  rw [F32.notInUnit, hfinite, hzero, hone, heq]
  rfl

/-- What `prepare_sampling` accepts, `validate_generation` accepts, whatever the options. -/
theorem validateGeneration_of_prepared {sampling : SamplingOptions} {frames seed : Nat}
    {generation : GenerationConfig} (h : prepareSampling sampling frames seed = .ok generation)
    (hpos : 0 < frames) (hmax : frames ≤ Runtime.maxCodecFrames) :
    validateGeneration generation = .ok () := by
  unfold prepareSampling at h
  simp only [bind_eq_ok, pure_eq_ok, failIf_eq_ok] at h
  obtain ⟨_, -, _, htemperature, _, htopP, _, hpenalty, _, htopK, _, -, _, hpredictorTemperature,
    _, hpredictorTopP, _, hpredictorTopK, rfl⟩ := h
  have hscale := @notFinitePositive_of_validated
  have hunit := @notInUnit_of_validated
  -- the two flags are written from booleans, so they are zero or one
  have hflag : ∀ b : Prop, [Decidable b] → ¬ 1 < (if b then 1 else 0) := by
    intro b _
    split <;> decide
  unfold validateGeneration
  simp only [ite_error_eq_ok]
  refine ⟨by decide, by decide, hpos.ne', by omega, ?_, ?_, ?_, ?_, ?_, ?_, ?_, trivial⟩
  · rw [hscale htemperature (by decide) (by decide) (by decide)]
    exact Bool.false_ne_true
  · rw [hscale hpredictorTemperature (by decide) (by decide) (by decide)]
    exact Bool.false_ne_true
  · rw [hunit htopP (by decide) (by decide)]
    exact Bool.false_ne_true
  · rw [hunit hpredictorTopP (by decide) (by decide)]
    exact Bool.false_ne_true
  · rw [hscale hpenalty (by decide) (by decide) (by decide)]
    exact Bool.false_ne_true
  · exact not_or.mpr ⟨hflag _, hflag _⟩
  · exact not_or.mpr ⟨htopK, hpredictorTopK⟩

/-- A text that passes the check is not empty and within its limit. -/
theorem validateText_ok {text : String} {limit : Nat} (h : validateText text limit = .ok ()) :
    text.isEmpty = false ∧ text.utf8ByteSize ≤ limit := by
  unfold validateText at h
  simp only [ite_error_eq_ok] at h
  obtain ⟨htrim, hsize, -⟩ := h
  refine ⟨?_, by omega⟩
  by_contra hempty
  obtain rfl : text = "" := by simpa using hempty
  exact htrim (by decide)

/-- A description that passes the check is within its limit. -/
theorem validateVoiceDescription_ok {description : String} {limit : Nat}
    (h : validateVoiceDescription description limit = .ok ()) :
    description.utf8ByteSize ≤ limit := by
  unfold validateVoiceDescription at h
  simp only [ite_error_eq_ok] at h
  omega

/-- The limits of a valid server configuration are within those of the scheduler. -/
theorem ServerConfig.validate_limits {config : ServerConfig} (h : config.validate = .ok ()) :
    (config.maxConcurrentRequests ≠ 0 ∧
      config.maxConcurrentRequests ≤ Runtime.maxConcurrentRequests) ∧
    (config.maxTextBytes ≠ 0 ∧ config.maxTextBytes ≤ Runtime.maxTextBytes) ∧
    config.maxVoiceDescriptionBytes ≤ maxInstructBytes := by
  unfold ServerConfig.validate at h
  simp only [ite_error_eq_ok, not_or, not_lt] at h
  exact ⟨h.1, h.2.1, h.2.2.1.2⟩

/-- What a validated server configuration bounds. -/
theorem ServerConfig.validate_bounds {config : ServerConfig} (h : config.validate = .ok ()) :
    InRange config.maxDurationSeconds ∧ config.defaultDurationSeconds.isFinite = true ∧
      ¬ config.defaultDurationSeconds < 0.08 ∧
      ¬ config.maxDurationSeconds < config.defaultDurationSeconds ∧
      config.maxCodecFrames ≤ Runtime.maxCodecFrames := by
  unfold ServerConfig.validate at h
  simp only [ite_error_eq_ok, not_or, Bool.not_eq_true', Bool.not_eq_false] at h
  obtain ⟨-, -, -, ⟨hmax, hmaxLow, hmaxHigh⟩, ⟨hdefault, hdefaultLow, hdefaultHigh⟩, -, h⟩ := h
  cases hbudget : config.slowClientTimeout.checkedAdd config.retirementTimeout with
  | none =>
    rw [hbudget] at h
    cases h
  | some budget =>
    rw [hbudget] at h
    simp only [ite_error_eq_ok, not_or, not_lt] at h
    exact ⟨⟨hmax, hmaxLow, hmaxHigh⟩, hdefault, hdefaultLow, hdefaultHigh, h.2.1.2⟩

/-- What an accepted body asks for. -/
theorem SpeechRequestBody.prepare_ok {body : SpeechRequestBody} {config : ServerConfig}
    {random : Nat} {prepared : PreparedSpeech} (h : body.prepare config random = .ok prepared) :
    prepared.engineRequest.input.text.isEmpty = false ∧
      prepared.engineRequest.input.text.utf8ByteSize ≤ config.maxTextBytes ∧
      prepared.engineRequest.input.instruct.utf8ByteSize ≤ config.maxVoiceDescriptionBytes ∧
      ((body.duration config).isFinite = true ∧ ¬ body.duration config < 0.08 ∧
        ¬ config.maxDurationSeconds < body.duration config) ∧
      ∃ sampling seed, prepareSampling sampling (durationToFrames (body.duration config)) seed =
        .ok prepared.engineRequest.generation := by
  unfold SpeechRequestBody.prepare at h
  simp only [bind_eq_ok, pure_eq_ok, failIf_eq_ok] at h
  obtain ⟨_, htext, _, hvoice, language, -, _, hduration, _, -, output, -, generation,
    hgeneration, rfl⟩ := h
  simp only [Bool.or_eq_true, Bool.not_eq_true', not_or, Bool.not_eq_false, decide_eq_true_iff,
    and_assoc] at hduration
  obtain ⟨hnonempty, hsize⟩ := validateText_ok htext
  exact ⟨hnonempty, hsize, validateVoiceDescription_ok hvoice, hduration, _, _, hgeneration⟩

/-- Up to its `send`, a start that both checks let through fails only when every slot is taken. -/
theorem start_refused {s : Sys} {input : RequestInput} {generation : GenerationConfig}
    {error : SchedulerError} (hinput : input.validate s.config = .ok ())
    (hgeneration : validateGeneration generation = .ok ())
    (h : s.start input generation = .error error) : error = .full := by
  unfold Sys.start at h
  rw [hinput] at h
  simp only [hgeneration] at h
  split at h
  · exact (Except.error.inj h).symm
  · cases h

/-- Behind the checks a start is queued, or it fails because the worker is gone. -/
theorem sendStart_outcome {s s' : Sys} {id : Nat} (h : s.sendStart id = some s') :
    (s.sendResult = .ok () ∧ ∃ pending, pending.id = id ∧ Command.start pending ∈ s'.channel) ∨
      (s.sendResult = .error .closed ∧ s.receiverAlive = false) := by
  unfold Sys.sendStart at h
  split at h
  · cases h
  · rename_i pending hfind
    split at h
    · rename_i halive
      split at h
      · cases h
        have hid : pending.id = id := by simpa using List.find?_some hfind
        exact .inl ⟨if_pos halive, pending, hid, List.mem_append_right _ (List.mem_singleton_self _)⟩
      · cases h
    · rename_i hdead
      exact .inr ⟨if_neg hdead, Bool.eq_false_iff.mpr hdead⟩

/-- The engine gets the limits of the server. -/
theorem engineConfig_ok {server : ServerConfig} {runtime engine : EngineConfig}
    (h : server.engineConfig runtime = .ok engine) :
    engine = { runtime with
      maxTextBytes := server.maxTextBytes
      maxInstructBytes := server.maxVoiceDescriptionBytes } := by
  simp only [ServerConfig.engineConfig, bind_eq_ok, pure_eq_ok, u32TryFrom] at h
  obtain ⟨maxText, hmaxText, maxInstruct, hmaxInstruct, rfl⟩ := h
  split at hmaxText
  · cases hmaxText
    split at hmaxInstruct
    · cases hmaxInstruct
      rfl
    · cases hmaxInstruct
  · cases hmaxText

/-- **What the HTTP layer accepts, the scheduler accepts.** The input and the generation of an
accepted body pass the scheduler's validators under the engine limits that `main` derives, the
frames stay within the configured ceiling, and `Scheduler::start` refuses the request only for
capacity: in front of its `send` it has no error but `Full`, and the `send` queues the request
unless the worker is gone, which is `Closed` for every request. -/
theorem accepted_by_scheduler {server : ServerConfig} {runtime engine : EngineConfig}
    {body : HttpBody} {random : Nat} {prepared : PreparedSpeech}
    (hserver : server.validate = .ok ()) (hengine : server.engineConfig runtime = .ok engine)
    (hprepare : body.prepare server random = .ok prepared) :
    prepared.engineRequest.input.toRequestInput.validate engine = .ok () ∧
      validateGeneration prepared.engineRequest.generation = .ok () ∧
      prepared.engineRequest.generation.maxCodecFrames ≤ server.maxCodecFrames ∧
      (∀ s : Sys, s.config = engine → ∀ error,
        s.start prepared.engineRequest.input.toRequestInput prepared.engineRequest.generation =
          .error error → error = .full) ∧
      ∀ (s s' : Sys) id, s.sendStart id = some s' →
        (s.sendResult = .ok () ∧ ∃ pending, pending.id = id ∧ Command.start pending ∈ s'.channel) ∨
          (s.sendResult = .error .closed ∧ s.receiverAlive = false) := by
  -- either handler ends in `prepare` on a native body
  obtain ⟨native, hnative⟩ : ∃ native : SpeechRequestBody,
      native.prepare server random = .ok prepared := by
    cases body with
    | native native => exact ⟨native, hprepare⟩
    | openAi body =>
      obtain ⟨native, -, hnative⟩ := bind_eq_ok.mp hprepare
      exact ⟨native, hnative⟩
  obtain ⟨hmaxRange, -, -, -, hceiling⟩ := server.validate_bounds hserver
  obtain ⟨hnonempty, htext, hinstruct, ⟨hfinite, hlow, hhigh⟩, sampling, seed, hgeneration⟩ :=
    SpeechRequestBody.prepare_ok hnative
  have hduration : InRange (native.duration server) := hmaxRange.below hfinite hlow hhigh
  have hmono := durationToFrames_mono hduration hmaxRange hhigh
  have hinput : prepared.engineRequest.input.toRequestInput.validate engine = .ok () := by
    rw [engineConfig_ok hengine]
    unfold RequestInput.validate
    rw [hnonempty, if_neg Bool.false_ne_true, if_neg (not_lt.mpr htext),
      if_neg (not_lt.mpr hinstruct)]
  have hvalid : validateGeneration prepared.engineRequest.generation = .ok () :=
    validateGeneration_of_prepared hgeneration (durationToFrames_pos hduration)
      (le_trans hmono hceiling)
  refine ⟨hinput, hvalid, ?_, fun s hs error herror => ?_, fun _ _ _ => sendStart_outcome⟩
  · rw [prepareSampling_frames hgeneration]
    exact hmono
  · subst hs
    exact start_refused hinput hvalid herror

/-- The engine configuration of `main` is one that the scheduler starts with. -/
theorem configure_valid {settings : Settings} {engine : EngineConfig} {server : ServerConfig}
    (h : settings.configure = .ok (engine, server)) :
    server.validate = .ok () ∧ server.engineConfig settings.runtimeConfig = .ok engine ∧
      validateConfig engine = .ok () := by
  simp only [Settings.configure, bind_eq_ok, pure_eq_ok] at h
  obtain ⟨_, hserver, derived, hengine, hpair⟩ := h
  cases hpair
  refine ⟨hserver, hengine, ?_⟩
  obtain ⟨hconcurrent, htext, hinstruct⟩ := ServerConfig.validate_limits hserver
  rw [engineConfig_ok hengine]
  unfold validateConfig Settings.runtimeConfig
  simp only [ite_error_eq_ok, not_or, not_lt]
  exact ⟨by decide, by decide, hconcurrent.1, hconcurrent.2, by decide, by decide, by decide,
    by decide, htext, hinstruct, trivial⟩

def compatibleBody : OpenAiSpeechRequestBody where
  model := modelId
  input := "Guten Tag"
  voice := "a calm voice"

theorem accepted_by_scheduler_openAi : ∃ engine server prepared,
    Settings.configure {} = .ok (engine, server) ∧
      (HttpBody.openAi compatibleBody).prepare server 7 = .ok prepared ∧
      validateGeneration prepared.engineRequest.generation = .ok () ∧
      prepared.engineRequest.generation.maxCodecFrames ≤ server.maxCodecFrames := by
  have haccepted : (Settings.configure {} >>= fun c =>
      ((HttpBody.openAi compatibleBody).prepare c.2 7).mapError fun _ => "").isOk = true := by
    decide +kernel
  cases hconfigure : Settings.configure {} with
  | error message =>
    rw [hconfigure] at haccepted
    cases haccepted
  | ok configured =>
    obtain ⟨engine, server⟩ := configured
    rw [hconfigure, ok_bind] at haccepted
    cases hprepare : (HttpBody.openAi compatibleBody).prepare server 7 with
    | error error =>
      rw [hprepare] at haccepted
      cases haccepted
    | ok prepared =>
      obtain ⟨hserver, hengine, -⟩ := configure_valid hconfigure
      obtain ⟨-, hgeneration, hframes, -⟩ := accepted_by_scheduler hserver hengine hprepare
      exact ⟨engine, server, prepared, rfl, hprepare, hgeneration, hframes⟩

end Qwen3Tts.Server
