import Qwen3Tts.Talker.Prompt

/-!
# Talker — what the prompt plan contains

* `prompt_total` — `from_token_ids` panics on one kind of input only: eight assistant tokens in
  streaming mode, where the slice behind the first text token starts behind its end. The length
  check lets them pass; with nine the same code is fine.
* `plan_keeps_text` — in both modes the plan is the instruction, the assistant's tokens without the
  last five, and one `tts_eos`, in this order; from the codec prefix on every step has a codec
  token, and the steps before the text are the same.

Both follow from the plan written out for each mode (`fromTokenIds_streaming`,
`fromTokenIds_nonStreaming`).
-/

namespace Qwen3Tts.Talker

open Qwen3Tts.Lib Qwen3Tts.Server

/-! ## Slices -/

/-- A slice within the list. -/
theorem slice_of_le {α : Type} {xs : List α} {start stop : Nat} (hstart : start ≤ stop)
    (hstop : stop ≤ xs.length) : slice xs start stop = .ok ((xs.take stop).drop start) := by
  unfold slice
  rw [if_neg (by omega), if_neg (by omega)]

/-- A slice that ends before it starts panics. -/
theorem slice_of_lt {α : Type} {xs : List α} {start stop : Nat} (h : stop < start) :
    slice xs start stop = .error (.panic "slice index starts behind its end") := if_pos h

/-- An index within the list. -/
theorem index_of_lt {α : Type} {xs : List α} {i : Nat} (h : i < xs.length) :
    index xs i = .ok xs[i] := by
  unfold index
  rw [List.getElem?_eq_getElem h]

/-- An unknown language is an error, not a panic. -/
theorem languageId_error {config : ModelConfig} {language : String} {e : Abort}
    (h : config.languageId language = .error e) :
    e = .error [.text "unsupported explicit language ", .quoted language] := by
  unfold ModelConfig.languageId at h
  split at h
  · cases h
  · split at h
    · cases h
    · cases h
      rfl

/-- The language `auto` has no id. -/
theorem languageId_auto (config : ModelConfig) : config.languageId "auto" = .ok none :=
  if_pos (by decide +kernel)

/-! ## The plan of each mode -/

/-- The steps before the text. -/
def opening (config : ModelConfig) (languageId : Option Nat) (instructionIds assistantIds : List Nat) :
    List EmbeddingStep :=
  instructionIds.map textStep ++ (assistantIds.take 3).map textStep ++
    prefixSteps (config.codecPrefix languageId)

section
variable {config : ModelConfig} {instructionIds assistantIds : List Nat} {language : String}
  {languageId : Option Nat}

/-- A prompt with fewer than eight assistant tokens is refused. -/
theorem fromTokenIds_short (h : assistantIds.length < 8) (mode : TextMode) :
    VoiceDesignPrompt.fromTokenIds config instructionIds assistantIds language mode =
      .error (.error [.text "assistant prompt is too short"]) := by
  unfold VoiceDesignPrompt.fromTokenIds
  rw [show failIf (assistantIds.length < 8) _ = _ from if_pos h]
  rfl

/-- So is a language the model does not know. -/
theorem fromTokenIds_language (hlength : 8 ≤ assistantIds.length) {e : Abort}
    (h : config.languageId language = .error e) (mode : TextMode) :
    VoiceDesignPrompt.fromTokenIds config instructionIds assistantIds language mode = .error e := by
  unfold VoiceDesignPrompt.fromTokenIds
  rw [show failIf (assistantIds.length < 8) _ = _ from if_neg (by omega), ok_bind, h]
  rfl

/-- The plan of the streaming mode. -/
theorem fromTokenIds_streaming (hlength : 8 < assistantIds.length)
    (hlanguage : config.languageId language = .ok languageId) :
    VoiceDesignPrompt.fromTokenIds config instructionIds assistantIds language .streaming = .ok {
      instructionIds := instructionIds
      assistantIds := assistantIds
      prefill := opening config languageId instructionIds assistantIds ++
        [⟨some (.token assistantIds[3]), some config.codecBosId⟩]
      trailingText := ((assistantIds.take (assistantIds.length - 5)).drop 4).map .token ++
        [.ttsEos] } := by
  unfold VoiceDesignPrompt.fromTokenIds
  rw [show failIf (assistantIds.length < 8) _ = _ from if_neg (by omega), ok_bind, hlanguage,
    ok_bind, slice_of_le (Nat.zero_le 3) (by omega), ok_bind]
  simp only
  rw [index_of_lt (by omega), ok_bind, slice_of_le (by omega) (by omega)]
  rfl

/-- Eight tokens: behind the four before the cut and the five behind it there is less than
nothing. -/
theorem fromTokenIds_eight (hlength : assistantIds.length = 8)
    (hlanguage : config.languageId language = .ok languageId) :
    VoiceDesignPrompt.fromTokenIds config instructionIds assistantIds language .streaming =
      .error (.panic "slice index starts behind its end") := by
  unfold VoiceDesignPrompt.fromTokenIds
  rw [show failIf (assistantIds.length < 8) _ = _ from if_neg (by omega), ok_bind, hlanguage,
    ok_bind, slice_of_le (Nat.zero_le 3) (by omega), ok_bind]
  simp only
  rw [index_of_lt (by omega), ok_bind, slice_of_lt (by omega)]
  rfl

/-- The plan of the other mode. -/
theorem fromTokenIds_nonStreaming (hlength : 8 ≤ assistantIds.length)
    (hlanguage : config.languageId language = .ok languageId) :
    VoiceDesignPrompt.fromTokenIds config instructionIds assistantIds language .nonStreaming = .ok {
      instructionIds := instructionIds
      assistantIds := assistantIds
      prefill := opening config languageId instructionIds assistantIds ++
        ((assistantIds.take (assistantIds.length - 5)).drop 3).map
          (fun id => ⟨some (.token id), some config.codecPadId⟩) ++
        [⟨some .ttsEos, some config.codecPadId⟩, ⟨some .ttsPad, some config.codecBosId⟩]
      trailingText := [.ttsPad] } := by
  unfold VoiceDesignPrompt.fromTokenIds
  rw [show failIf (assistantIds.length < 8) _ = _ from if_neg (by omega), ok_bind, hlanguage,
    ok_bind, slice_of_le (Nat.zero_le 3) (by omega), ok_bind]
  simp only
  rw [slice_of_le (by omega) (by omega)]
  rfl

end

/-! ## Panics -/

/-- The inputs whose slice starts behind its end: eight tokens, in streaming mode, in a language
the model knows. -/
def Misjudged (config : ModelConfig) (assistantIds : List Nat) (language : String)
    (mode : TextMode) : Prop :=
  mode = .streaming ∧ assistantIds.length = 8 ∧ (config.languageId language).isOk = true

/-- **Prompt construction is total** but for eight assistant tokens in streaming mode. -/
theorem prompt_total (config : ModelConfig) (instructionIds assistantIds : List Nat)
    (language : String) (mode : TextMode) :
    (∀ message, VoiceDesignPrompt.fromTokenIds config instructionIds assistantIds language mode ≠
      .error (.panic message)) ↔ ¬ Misjudged config assistantIds language mode := by
  rcases Nat.lt_or_ge assistantIds.length 8 with hshort | hlength
  · -- the length check fails
    rw [fromTokenIds_short hshort]
    refine ⟨fun _ h => ?_, fun _ message h => by cases h⟩
    have height := h.2.1
    omega
  cases hlanguage : config.languageId language with
  | error e =>
    obtain rfl := languageId_error hlanguage
    rw [fromTokenIds_language hlength hlanguage]
    refine ⟨fun _ h => ?_, fun _ message h => by cases h⟩
    have hok := h.2.2
    rw [hlanguage] at hok
    cases hok
  | ok languageId =>
    cases mode with
    | nonStreaming =>
      rw [fromTokenIds_nonStreaming hlength hlanguage]
      exact ⟨fun _ h => (by cases h.1), fun _ message h => by cases h⟩
    | streaming =>
      rcases Nat.lt_or_eq_of_le hlength with hlonger | height
      · rw [fromTokenIds_streaming hlonger hlanguage]
        refine ⟨fun _ h => ?_, fun _ message h => by cases h⟩
        have height := h.2.1
        omega
      · rw [fromTokenIds_eight height.symm hlanguage]
        refine ⟨fun h => absurd rfl (h _), fun h => absurd ⟨rfl, height.symm, ?_⟩ h⟩
        rw [hlanguage]
        rfl

/-- Eight tokens in streaming mode: what an assistant turn of one empty line can become. -/
theorem prompt_panics : ¬ ∀ config instructionIds assistantIds language mode message,
    VoiceDesignPrompt.fromTokenIds config instructionIds assistantIds language mode ≠
      .error (.panic message) := by
  intro h
  exact h ⟨0, 0, 0, 0, [], 0, 0, 0, 0, 0⟩ [] [0, 1, 2, 3, 2, 0, 1, 2] "auto" .streaming
    "slice index starts behind its end" (fromTokenIds_eight rfl (languageId_auto _))

/-! ## The text of the plan -/

/-- The sources that speak: tokens, and the end of the text. -/
def TextSource.speaks : TextSource → Bool
  | .token _ | .ttsEos => true
  | .ttsBos | .ttsPad => false

/-- The text of a list of sources, pads left out. -/
def spoken (sources : List TextSource) : List TextSource := sources.filter TextSource.speaks

def textOf (steps : List EmbeddingStep) : List TextSource := steps.filterMap EmbeddingStep.text

theorem spoken_append (xs ys : List TextSource) : spoken (xs ++ ys) = spoken xs ++ spoken ys :=
  List.filter_append ..

theorem textOf_append (xs ys : List EmbeddingStep) : textOf (xs ++ ys) = textOf xs ++ textOf ys :=
  List.filterMap_append ..

theorem spoken_tokens (ids : List Nat) : spoken (ids.map .token) = ids.map .token := by
  apply List.filter_eq_self.mpr
  intro source hsource
  obtain ⟨id, -, rfl⟩ := List.mem_map.mp hsource
  rfl

theorem textOf_textSteps (ids : List Nat) : textOf (ids.map textStep) = ids.map .token := by
  unfold textOf
  rw [List.filterMap_map]
  exact List.filterMap_eq_map_iff_forall_eq_some.mpr fun _ _ => rfl

/-- The codec prefix says nothing. -/
theorem spoken_prefixSteps (codecPrefix : List Nat) :
    spoken (textOf (prefixSteps codecPrefix)) = [] := by
  apply List.filter_eq_nil_iff.mpr
  intro source hsource
  obtain ⟨step, hstep, htext⟩ := List.mem_filterMap.mp hsource
  obtain ⟨⟨codec, i⟩, -, rfl⟩ := List.mem_map.mp hstep
  obtain rfl := Option.some.inj htext
  split
  · decide
  · decide

/-- The opening speaks the instruction and the first three assistant tokens. -/
theorem spoken_opening (config : ModelConfig) (languageId : Option Nat)
    (instructionIds assistantIds : List Nat) :
    spoken (textOf (opening config languageId instructionIds assistantIds)) =
      instructionIds.map .token ++ (assistantIds.take 3).map .token := by
  unfold opening
  rw [textOf_append, textOf_append, spoken_append, spoken_append, spoken_prefixSteps,
    textOf_textSteps, textOf_textSteps, spoken_tokens, spoken_tokens, List.append_nil]

/-- The text the plan has to say. -/
def planned (instructionIds assistantIds : List Nat) : List TextSource :=
  (instructionIds ++ assistantIds.dropLast.dropLast.dropLast.dropLast.dropLast).map .token ++
    [.ttsEos]

theorem dropLast_take_length {α : Type} (xs : List α) (k : Nat) :
    (xs.take (xs.length - k)).dropLast = xs.take (xs.length - (k + 1)) := by
  rw [List.dropLast_eq_take, List.take_take, List.length_take]
  congr 1
  omega

theorem dropLast_five {α : Type} (xs : List α) :
    xs.dropLast.dropLast.dropLast.dropLast.dropLast = xs.take (xs.length - 5) := by
  have hfirst : xs.dropLast = xs.take (xs.length - 1) := List.dropLast_eq_take
  rw [hfirst, dropLast_take_length, dropLast_take_length, dropLast_take_length,
    dropLast_take_length]

/-- The cuts of a mode meet: what is before a position and behind it, up to the last five. -/
theorem take_split {α : Type} (xs : List α) {i : Nat} (h : i ≤ xs.length - 5) :
    xs.take i ++ (xs.take (xs.length - 5)).drop i = xs.take (xs.length - 5) := by
  conv_rhs => rw [← List.take_append_drop i (xs.take (xs.length - 5))]
  rw [List.take_take, Nat.min_eq_left h]

/-- What the two plans of one request are. -/
structure Faithful (config : ModelConfig) (instructionIds assistantIds : List Nat)
    (language : String) (streaming nonStreaming : VoiceDesignPrompt) : Prop where
  streamed : spoken (textOf streaming.prefill ++ streaming.trailingText) =
    planned instructionIds assistantIds
  whole : spoken (textOf nonStreaming.prefill) = planned instructionIds assistantIds
  /-- Both start with the same steps: the instruction and the role, without a codec token, and the
  codec prefix of the language. From there on every step has one. -/
  agree : ∃ languageId text text', config.languageId language = .ok languageId ∧
    streaming.prefill = (instructionIds ++ assistantIds.take 3).map textStep ++
      (prefixSteps (config.codecPrefix languageId) ++ text) ∧
    nonStreaming.prefill = (instructionIds ++ assistantIds.take 3).map textStep ++
      (prefixSteps (config.codecPrefix languageId) ++ text') ∧
    (∀ step ∈ prefixSteps (config.codecPrefix languageId) ++ text, step.codec.isSome = true) ∧
    (∀ step ∈ prefixSteps (config.codecPrefix languageId) ++ text', step.codec.isSome = true)
  lastStreamed : streaming.prefill.getLast?.bind EmbeddingStep.codec = some config.codecBosId
  lastWhole : nonStreaming.prefill.getLast?.bind EmbeddingStep.codec = some config.codecBosId

/-- Every step of the prefix has a codec token. -/
theorem prefixSteps_codec {codecPrefix : List Nat} {step : EmbeddingStep}
    (h : step ∈ prefixSteps codecPrefix) : step.codec.isSome = true := by
  obtain ⟨⟨codec, i⟩, -, rfl⟩ := List.mem_map.mp h
  rfl

/-- **No text is lost, repeated or reordered**, and both modes plan the same text. -/
theorem plan_keeps_text {config : ModelConfig} {instructionIds assistantIds : List Nat}
    {language : String} {streaming nonStreaming : VoiceDesignPrompt}
    (hstreaming : VoiceDesignPrompt.fromTokenIds config instructionIds assistantIds language
      .streaming = .ok streaming)
    (hnonStreaming : VoiceDesignPrompt.fromTokenIds config instructionIds assistantIds language
      .nonStreaming = .ok nonStreaming) :
    Faithful config instructionIds assistantIds language streaming nonStreaming := by
  -- both succeed: nine tokens at least, in a language the model knows
  have hlength : 8 ≤ assistantIds.length := by
    rcases Nat.lt_or_ge assistantIds.length 8 with hshort | hlength
    · rw [fromTokenIds_short hshort] at hstreaming
      cases hstreaming
    · exact hlength
  cases hlanguage : config.languageId language with
  | error e =>
    rw [fromTokenIds_language hlength hlanguage] at hstreaming
    cases hstreaming
  | ok languageId =>
    have hlonger : 8 < assistantIds.length := by
      rcases Nat.lt_or_eq_of_le hlength with hlonger | height
      · exact hlonger
      · rw [fromTokenIds_eight height.symm hlanguage] at hstreaming
        cases hstreaming
    rw [fromTokenIds_streaming hlonger hlanguage] at hstreaming
    rw [fromTokenIds_nonStreaming hlength hlanguage] at hnonStreaming
    cases hstreaming
    cases hnonStreaming
    have hplanned : planned instructionIds assistantIds =
        instructionIds.map .token ++ (assistantIds.take 3).map .token ++
          (((assistantIds.take (assistantIds.length - 5)).drop 3).map .token ++ [.ttsEos]) := by
      unfold planned
      rw [dropLast_five]
      conv_lhs => rw [← @take_split _ assistantIds 3 (by omega)]
      simp only [List.map_append, List.append_assoc]
    have hbefore : instructionIds.map textStep ++ (assistantIds.take 3).map textStep =
        (instructionIds ++ assistantIds.take 3).map textStep := List.map_append.symm
    exact {
      streamed := by
        -- the first text token is in the prefill, the others behind it
        have hfirst : (assistantIds.take (assistantIds.length - 5)).drop 3 =
            assistantIds[3] :: (assistantIds.take (assistantIds.length - 5)).drop 4 := by
          rw [List.drop_eq_getElem_cons (by rw [List.length_take]; omega), List.getElem_take]
        rw [hplanned, hfirst]
        simp only [textOf_append, spoken_append, spoken_opening, spoken_tokens, List.map_cons,
          List.append_assoc]
        rfl
      whole := by
        have htext : textOf (((assistantIds.take (assistantIds.length - 5)).drop 3).map
            fun id => ⟨some (.token id), some config.codecPadId⟩) =
              ((assistantIds.take (assistantIds.length - 5)).drop 3).map .token := by
          unfold textOf
          rw [List.filterMap_map]
          exact List.filterMap_eq_map_iff_forall_eq_some.mpr fun _ _ => rfl
        rw [hplanned]
        simp only [textOf_append, spoken_append, spoken_opening, htext, spoken_tokens,
          List.append_assoc]
        rfl
      agree := by
        refine ⟨languageId, [⟨some (.token assistantIds[3]), some config.codecBosId⟩],
          ((assistantIds.take (assistantIds.length - 5)).drop 3).map
            (fun id => ⟨some (.token id), some config.codecPadId⟩) ++
              [⟨some .ttsEos, some config.codecPadId⟩, ⟨some .ttsPad, some config.codecBosId⟩],
          hlanguage, ?_, ?_, ?_, ?_⟩
        · simp only [opening, hbefore, List.append_assoc]
        · simp only [opening, hbefore, List.append_assoc]
        · intro step hstep
          rcases List.mem_append.mp hstep with hprefix | htext
          · exact prefixSteps_codec hprefix
          · rw [List.mem_singleton.mp htext]
            rfl
        · intro step hstep
          rcases List.mem_append.mp hstep with hprefix | htext
          · exact prefixSteps_codec hprefix
          rcases List.mem_append.mp htext with htext | hlast
          · obtain ⟨id, -, rfl⟩ := List.mem_map.mp htext
            rfl
          · rcases List.mem_cons.mp hlast with rfl | hlast
            · rfl
            · rw [List.mem_singleton.mp hlast]
              rfl
      lastStreamed := by
        rw [List.getLast?_append]
        rfl
      lastWhole := by
        rw [List.getLast?_append]
        rfl }

/-- Nine tokens: one of them is text. -/
theorem plan_keeps_text_nine : ∃ streaming nonStreaming,
    Faithful ⟨0, 0, 0, 0, [], 0, 0, 0, 0, 0⟩ [7] [0, 1, 2, 9, 3, 2, 0, 1, 2] "auto" streaming
      nonStreaming :=
  ⟨_, _, plan_keeps_text (fromTokenIds_streaming (by decide) (languageId_auto _))
    (fromTokenIds_nonStreaming (by decide) (languageId_auto _))⟩

end Qwen3Tts.Talker
