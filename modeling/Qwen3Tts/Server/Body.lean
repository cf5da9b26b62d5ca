import Mathlib.Data.Option.Basic
import Qwen3Tts.Lib.Json
import Qwen3Tts.Server.Validated

/-!
# Server — the body of a speech request

A `SpeechRequestBody` is read from a JSON document as its derived `Deserialize` does it, and a
body that is longer than `max_body_bytes` is refused before it is read. The limit counts the bytes
of the document and the limits of the two texts those of the characters they denote, so what an
escape adds has to fit into the same 16 KiB as the rest (`accepted_iff`).

How `serde_json` reads a number is a parameter (`Numbers`).
-/

namespace Qwen3Tts.Server

open Qwen3Tts.Lib Qwen3Tts.Lib.Json Qwen3Tts.Runtime

/-! ## Reading a document -/

/-- How `serde_json` reads a number at each type. -/
structure Numbers where
  u32 : Number → Option Nat
  u64 : Number → Option Nat
  f32 : Number → Option F32
  f64 : Number → Option Float

section

variable {α : Type}

def readString : Document → Option String
  | .string s => some s.value
  | _ => none

def readBool : Document → Option Bool
  | .bool value => some value
  | _ => none

def readNumber (read : Number → Option α) : Document → Option α
  | .number n => read n
  | _ => none

/-- A unit variant, also in its form with a payload of `null`. -/
def readVariant (variants : List (String × α)) : Document → Option α
  | .string s => variants.lookup s.value
  | .object [(key, .null)] => variants.lookup key.value
  | _ => none

/-- A field of type `Option`, which may be missing or `null`. -/
def optional (read : Document → Option α) : Option Document → Option (Option α)
  | none => some none
  | some .null => some none
  | some value => (read value).map some

/-- A field with `#[serde(default)]`. -/
def defaulted (default : α) (read : Document → Option α) : Option Document → Option α
  | none => some default
  | some value => read value

end

/-- The names of `SamplingStrategy`. -/
def samplingStrategies : List (String × SamplingStrategy) :=
  [("sample", .sample), ("greedy", .greedy)]

/-- The names of `OutputFormat`. -/
def outputFormats : List (String × OutputFormat) := [("pcm_s16le", .pcmS16le), ("wav", .wav)]

def predictorFields : List String := ["strategy", "temperature", "top_p", "top_k"]

def PredictorSamplingOptions.deserialize (numbers : Numbers) (document : Document) :
    Option PredictorSamplingOptions := do
  guard (document.isRecord predictorFields)
  let field := fun name => document.field predictorFields name
  let strategy ← optional (readVariant samplingStrategies) (field "strategy")
  let temperature ← optional (readNumber numbers.f32) (field "temperature")
  let topP ← optional (readNumber numbers.f32) (field "top_p")
  let topK ← optional (readNumber numbers.u32) (field "top_k")
  return { strategy := strategy, temperature := temperature, topP := topP, topK := topK }

def samplingFields : List String :=
  ["strategy", "temperature", "top_p", "top_k", "repetition_penalty", "predictor"]

def SamplingOptions.deserialize (numbers : Numbers) (document : Document) :
    Option SamplingOptions := do
  guard (document.isRecord samplingFields)
  let field := fun name => document.field samplingFields name
  let strategy ← defaulted .sample (readVariant samplingStrategies) (field "strategy")
  let temperature ← optional (readNumber numbers.f32) (field "temperature")
  let topP ← optional (readNumber numbers.f32) (field "top_p")
  let topK ← optional (readNumber numbers.u32) (field "top_k")
  let repetitionPenalty ← optional (readNumber numbers.f32) (field "repetition_penalty")
  let predictor ← optional (PredictorSamplingOptions.deserialize numbers) (field "predictor")
  return {
    strategy := strategy
    temperature := temperature
    topP := topP
    topK := topK
    repetitionPenalty := repetitionPenalty
    predictor := predictor }

def speechFields : List String :=
  ["text", "voice_description", "language", "seed", "max_duration_seconds", "sampling", "stream",
    "output_format"]

def SpeechRequestBody.deserialize (numbers : Numbers) (document : Document) :
    Option SpeechRequestBody := do
  guard (document.isRecord speechFields)
  let field := fun name => document.field speechFields name
  let text ← (field "text").bind readString
  let voiceDescription ← (field "voice_description").bind readString
  let language ← defaulted "auto" readString (field "language")
  let seed ← optional (readNumber numbers.u64) (field "seed")
  let maxDurationSeconds ← optional (readNumber numbers.f64) (field "max_duration_seconds")
  let sampling ← optional (SamplingOptions.deserialize numbers) (field "sampling")
  let stream ← optional readBool (field "stream")
  let outputFormat ← optional (readVariant outputFormats) (field "output_format")
  return {
    text := text
    voiceDescription := voiceDescription
    language := language
    seed := seed
    maxDurationSeconds := maxDurationSeconds
    sampling := sampling
    stream := stream
    outputFormat := outputFormat }

/-! ## The limit -/

/-- `DefaultBodyLimit::max(body_limit)`: a longer body is answered with `request_too_large`. -/
def tooLarge (config : ServerConfig) (body : List UInt8) : Bool :=
  config.maxBodyBytes < body.length

/-- A request whose document is read and whose texts are within the limits of the server. -/
structure BoundedRequest where
  numbers : Numbers
  config : ServerConfig
  valid : config.validate = .ok ()
  document : Document
  body : SpeechRequestBody
  read : SpeechRequestBody.deserialize numbers document = some body
  text_le : body.text.utf8ByteSize ≤ config.maxTextBytes
  voiceDescription_le : body.voiceDescription.utf8ByteSize ≤ config.maxVoiceDescriptionBytes

/-- The string of a field, as it is written. -/
def writtenField (name : String) (document : Document) : Str :=
  match document.field speechFields name with
  | some (.string s) => s
  | _ => []

namespace BoundedRequest

/-- What the client sends. -/
def bytes (r : BoundedRequest) : List UInt8 := utf8 r.document.text

def text (r : BoundedRequest) : Str := writtenField "text" r.document

def voiceDescription (r : BoundedRequest) : Str := writtenField "voice_description" r.document

/-- The bytes around the two texts: what is left of the document when both are emptied. -/
def around (r : BoundedRequest) : Nat :=
  utf8Length ((r.document.replace speechFields "text" (.string [])).replace speechFields
    "voice_description" (.string [])).text

end BoundedRequest

theorem deserialize_texts {numbers : Numbers} {document : Document} {body : SpeechRequestBody}
    (h : SpeechRequestBody.deserialize numbers document = some body) :
    document.isRecord speechFields = true
      ∧ (∃ s : Str, document.field speechFields "text" = some (.string s) ∧ s.value = body.text)
      ∧ ∃ s : Str, document.field speechFields "voice_description" = some (.string s)
        ∧ s.value = body.voiceDescription := by
  have hstring : ∀ {value : Document} {result : String}, readString value = some result →
      ∃ s : Str, value = .string s ∧ s.value = result := by
    intro value result hread
    cases value with
    | string s => exact ⟨s, rfl, Option.some.inj hread⟩
    | null | bool | number | array | object => cases hread
  unfold SpeechRequestBody.deserialize at h
  simp only [Option.bind_eq_bind, Option.bind_eq_some_iff, Option.pure_def,
    Option.some.injEq] at h
  obtain ⟨_, hrecord, text, ⟨first, hfirst, htext⟩, voice, ⟨second, hsecond, hvoice⟩,
    -, -, -, -, -, -, -, -, -, -, -, -, rfl⟩ := h
  obtain ⟨s, rfl, hs⟩ := hstring htext
  obtain ⟨v, rfl, hv⟩ := hstring hvoice
  exact ⟨(Option.guard_eq_some' _).mp hrecord, ⟨s, hfirst, hs⟩, v, hsecond, hv⟩

/-- The sums of a validated configuration do not saturate. -/
theorem maxBodyBytes_eq {config : ServerConfig} (h : config.validate = .ok ()) :
    config.maxBodyBytes = config.maxTextBytes + config.maxVoiceDescriptionBytes + 16 * 1024 := by
  have htext := (ServerConfig.validate_limits h).2.1.2
  have hvoice := (ServerConfig.validate_limits h).2.2
  unfold Runtime.maxTextBytes at htext
  unfold maxInstructBytes at hvoice
  unfold ServerConfig.maxBodyBytes
  omega

namespace BoundedRequest

/-- The document is its two texts and what stands around them. -/
theorem length_bytes (r : BoundedRequest) :
    r.bytes.length = r.around + (r.body.text.utf8ByteSize + r.text.expansion)
      + (r.body.voiceDescription.utf8ByteSize + r.voiceDescription.expansion) := by
  obtain ⟨hrecord, ⟨s, hs, hstext⟩, v, hv, hvtext⟩ := deserialize_texts r.read
  have hne : "text" ≠ "voice_description" := by decide
  have hmem : "text" ∈ speechFields := by decide
  have htext : r.text = s := by rw [text, writtenField, hs]
  have hvoice : r.voiceDescription = v := by rw [voiceDescription, writtenField, hv]
  have hsize : ∀ s : Str, utf8Length (Document.string s).text
      = s.value.utf8ByteSize + s.expansion + 2 := by
    intro s
    show utf8Length s.quoted = _
    rw [s.utf8Length_quoted, s.utf8Length_text]
  have hempty : utf8Length (Document.string []).text = 2 := by decide
  have hfirst := Document.utf8Length_replace (.string []) hrecord hs
  have hsecond := Document.utf8Length_replace (.string [])
    (Document.isRecord_replace (.string []) hrecord)
    ((Document.field_replace (.string []) hmem hne).trans hv)
  rw [hempty, hsize] at hfirst hsecond
  rw [bytes, length_utf8, around, htext, hvoice, ← hstext, ← hvtext]
  omega

theorem not_tooLarge_iff (r : BoundedRequest) :
    tooLarge r.config r.bytes = false ↔
      r.around + (r.body.text.utf8ByteSize + r.text.expansion)
          + (r.body.voiceDescription.utf8ByteSize + r.voiceDescription.expansion)
        ≤ r.config.maxTextBytes + r.config.maxVoiceDescriptionBytes + 16 * 1024 := by
  rw [tooLarge, decide_eq_false_iff_not, maxBodyBytes_eq r.valid, r.length_bytes]
  exact Nat.not_lt

/-- **The request limit.** A request within the limits of its texts is read exactly when what
stands around them and what their escapes add fit into the 16 KiB and the room the texts leave. -/
theorem accepted_iff (r : BoundedRequest) :
    tooLarge r.config r.bytes = false ↔
      r.around + r.text.expansion + r.voiceDescription.expansion
        ≤ 16 * 1024 + (r.config.maxTextBytes - r.body.text.utf8ByteSize)
          + (r.config.maxVoiceDescriptionBytes - r.body.voiceDescription.utf8ByteSize) := by
  have htext := r.text_le
  have hvoice := r.voiceDescription_le
  rw [r.not_tooLarge_iff]
  omega

end BoundedRequest

/-- `\u00fc`, six bytes for the two of an umlaut. -/
def escapedUmlaut : Written :=
  .unit ⟨⟨0, false⟩, ⟨0, false⟩, ⟨15, false⟩, ⟨12, false⟩⟩ (by decide)

/-- Two escaped umlauts, with the keys in another order and `stream` among them. -/
def shortDocument : Document :=
  .object [
    (.plain ['v', 'o', 'i', 'c', 'e', '_', 'd', 'e', 's', 'c', 'r', 'i', 'p', 't', 'i', 'o', 'n'],
      .string (.plain ['c', 'a', 'l', 'm'])),
    (.plain ['s', 't', 'r', 'e', 'a', 'm'], .bool true),
    (.plain ['t', 'e', 'x', 't'], .string [escapedUmlaut, escapedUmlaut])]

def shortRequest : BoundedRequest where
  numbers := ⟨fun _ => none, fun _ => none, fun _ => none, fun _ => none⟩
  config := .default
  valid := by decide +kernel
  document := shortDocument
  body := {
    text := Str.value [escapedUmlaut, escapedUmlaut]
    voiceDescription := Str.value (.plain ['c', 'a', 'l', 'm'])
    stream := some true }
  read := by rfl
  text_le := by decide +kernel
  voiceDescription_le := by decide +kernel

/-- The escapes add eight bytes, and the request is read. -/
theorem accepted_iff_escaped : shortRequest.text.expansion = 8 ∧
    shortRequest.bytes.length = 64 ∧ tooLarge shortRequest.config shortRequest.bytes = false := by
  have hlength : shortRequest.bytes.length = 64 := by decide +kernel
  exact ⟨by decide, hlength, (BoundedRequest.accepted_iff shortRequest).mpr (by decide +kernel)⟩

namespace BoundedRequest

/-- An escape takes at most six bytes for one, so some limits leave room for every form. -/
theorem accepted_of_room (r : BoundedRequest)
    (h : r.around + 5 * (r.config.maxTextBytes + r.config.maxVoiceDescriptionBytes)
      ≤ 16 * 1024) : tooLarge r.config r.bytes = false := by
  obtain ⟨-, ⟨s, hs, hstext⟩, v, hv, hvtext⟩ := deserialize_texts r.read
  have htext : r.text = s := by rw [text, writtenField, hs]
  have hvoice : r.voiceDescription = v := by rw [voiceDescription, writtenField, hv]
  have htextLe := r.text_le
  have hvoiceLe := r.voiceDescription_le
  have hsLe := s.expansion_le
  have hvLe := v.expansion_le
  rw [← hstext] at htextLe
  rw [← hvtext] at hvoiceLe
  rw [r.not_tooLarge_iff, htext, hvoice, ← hstext, ← hvtext]
  omega

end BoundedRequest

/-! ### A refused request -/

def umlauts : Str := List.replicate 16384 escapedUmlaut

def umlautDocument : Document :=
  .object [(.plain ['t', 'e', 'x', 't'], .string umlauts),
    (.plain ['v', 'o', 'i', 'c', 'e', '_', 'd', 'e', 's', 'c', 'r', 'i', 'p', 't', 'i', 'o', 'n'],
      .string (.plain ['c', 'a', 'l', 'm']))]

def umlautBody : SpeechRequestBody where
  text := umlauts.value
  voiceDescription := Str.value (.plain ['c', 'a', 'l', 'm'])

theorem umlautBody_read (numbers : Numbers) :
    SpeechRequestBody.deserialize numbers umlautDocument = some umlautBody := by
  rfl

theorem utf8ByteSize_umlauts : umlauts.value.utf8ByteSize = 2 * 16384 := by
  have hchars : umlauts.chars = List.replicate 16384 escapedUmlaut.char := List.map_replicate
  have hsize : escapedUmlaut.char.utf8Size = 2 := by decide
  rw [Str.value, utf8ByteSize_ofList, hchars, utf8Length, List.map_replicate,
    List.sum_replicate, hsize, smul_eq_mul, Nat.mul_comm]

def umlautRequest (numbers : Numbers) : BoundedRequest where
  numbers := numbers
  config := .default
  valid := by decide +kernel
  document := umlautDocument
  body := umlautBody
  read := umlautBody_read numbers
  text_le := by
    show umlauts.value.utf8ByteSize ≤ 32 * 1024
    rw [utf8ByteSize_umlauts]
  voiceDescription_le := by decide +kernel

/-- A text of the greatest size, escaped as an ASCII-only writer does it, is refused. -/
theorem umlauts_refused : ¬ ∀ r : BoundedRequest, tooLarge r.config r.bytes = false := by
  intro hall
  let numbers : Numbers := ⟨fun _ => none, fun _ => none, fun _ => none, fun _ => none⟩
  have hfits := (umlautRequest numbers).not_tooLarge_iff.mp (hall _)
  have htext : (umlautRequest numbers).text = umlauts := rfl
  have hexpansion : umlauts.expansion = 4 * 16384 := by
    have hone : escapedUmlaut.expansion = 4 := by decide
    rw [umlauts, Str.expansion, List.map_replicate, List.sum_replicate, hone, smul_eq_mul,
      Nat.mul_comm]
  have hconfig : (umlautRequest numbers).config = .default := rfl
  have hlimit : ServerConfig.default.maxTextBytes = 2 * 16384 := rfl
  have hvoice : ServerConfig.default.maxVoiceDescriptionBytes = 4096 := rfl
  have hsize : (umlautRequest numbers).body.text.utf8ByteSize = 2 * 16384 :=
    utf8ByteSize_umlauts
  rw [htext, hexpansion, hconfig, hlimit, hvoice, hsize] at hfits
  omega

end Qwen3Tts.Server
