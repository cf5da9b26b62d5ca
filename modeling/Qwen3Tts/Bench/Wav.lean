import Qwen3Tts.Bench.Basic
import Qwen3Tts.Lib.Loop

/-!
# Bench — `validate_wav`

The validator of a buffered response, over the file format it accepts. A RIFF file is a header
and a list of padded chunks (`Chunk`); a `WaveFile` is one with a single PCM16 format chunk and a
single data chunk. The cursor loop takes one chunk at a time (`next_of_split`, `next_of_no_split`),
what it has seen describes the chunks behind it (`Seen`), and so it accepts the wave files and
nothing else (`validateWav_iff`).
-/

namespace Qwen3Tts.Bench

open Qwen3Tts.Lib

/-! ## `wav.rs` -/

/-- `SAMPLE_RATE_HZ`. -/
def sampleRateHz : Nat := 24000

structure WavInfo where
  sampleCount : Nat
  dataOffset : Nat
  dataBytes : Nat
  deriving DecidableEq, Repr

/-- An error of the validator. -/
def wavError (message : String) : Failure := .error (.wav message)

/-- `bytes.get(offset..offset + width)` as a number, or the error. -/
def readField (width : Nat) (message : String) (bytes : Bytes) (offset : Nat) :
    Except Failure Nat :=
  if offset + width ≤ bytes.length then .ok (ofLittleEndian ((bytes.drop offset).take width))
  else .error (wavError message)

/-- Two bytes, or four, in little-endian order. -/
def readU16 : Bytes → Nat → Except Failure Nat := readField 2 "truncated 16-bit WAV field"

def readU32 : Bytes → Nat → Except Failure Nat := readField 4 "truncated 32-bit WAV field"

def validateFormat (bytes : Bytes) : Except Failure Unit := do
  failIf (bytes.length < 16) (wavError "fmt chunk is shorter than 16 bytes")
  let audioFormat ← readU16 bytes 0
  let channels ← readU16 bytes 2
  let sampleRate ← readU32 bytes 4
  let byteRate ← readU32 bytes 8
  let blockAlign ← readU16 bytes 12
  let bitsPerSample ← readU16 bytes 14
  -- The `u32` product is evaluated at 24 kHz only and does not overflow.
  failIf (audioFormat ≠ 1 ∨ channels ≠ 1 ∨ sampleRate ≠ sampleRateHz ∨ byteRate ≠ sampleRate * 2
      ∨ blockAlign ≠ 2 ∨ bitsPerSample ≠ 16)
    (wavError "WAV must be PCM16 little-endian mono at 24 kHz")

/-- The locals of the cursor loop. -/
structure Scan where
  cursor : Nat
  formatSeen : Bool
  data : Option (Nat × Nat)
  deriving DecidableEq, Repr

/-- The `match` on the chunk's id. -/
def Scan.classify (s : Scan) (bytes chunkId : Bytes) (payloadStart payloadEnd chunkSize : Nat) :
    Except Failure Scan :=
  if chunkId = ascii "fmt " then do
    failIf (s.formatSeen = true) (wavError "duplicate fmt chunk")
    validateFormat (← slice bytes payloadStart payloadEnd)
    pure { s with formatSeen := true }
  else if chunkId = ascii "data" then do
    failIf (s.data.isSome = true) (wavError "duplicate data chunk")
    failIf (chunkSize = 0 ∨ chunkSize % 2 ≠ 0)
      (wavError "PCM data must contain a non-empty whole number of 16-bit samples")
    pure { s with data := some (payloadStart, chunkSize) }
  else pure s

/-- One iteration of the cursor loop. -/
def Scan.next (s : Scan) (bytes : Bytes) : Except Failure Scan := do
  failIf (bytes.length - s.cursor < 8) (wavError "truncated RIFF chunk header")
  let chunkId ← slice bytes s.cursor (s.cursor + 4)
  let chunkSize ← readU32 bytes (s.cursor + 4)
  let payloadStart := s.cursor + 8
  let payloadEnd ← checkedAdd payloadStart chunkSize (.wav "RIFF chunk size overflow")
  failIf (bytes.length < payloadEnd) (wavError "RIFF chunk extends past the response")
  let s ← s.classify bytes chunkId payloadStart payloadEnd chunkSize
  let cursor ← checkedAdd payloadEnd (chunkSize % 2) (.wav "RIFF padding overflow")
  failIf (bytes.length < cursor) (wavError "missing RIFF chunk padding")
  pure { s with cursor := cursor }

def scanBody (bytes : Bytes) (s : Scan) : Except Failure Scan ⊕ Scan :=
  if s.cursor < bytes.length then
    match s.next bytes with
    | .ok s' => .inr s'
    | .error failure => .inl (.error failure)
  else .inl (.ok s)

/-- In front of the loop. -/
def checkHeader (bytes : Bytes) : Except Failure Unit := do
  let notWave := wavError "response is not a RIFF/WAVE file"
  failIf (bytes.length < 12) notWave
  failIf ((← slice bytes 0 4) ≠ ascii "RIFF") notWave
  failIf ((← slice bytes 8 12) ≠ ascii "WAVE") notWave
  let riffSize ← readU32 bytes 4
  failIf (riffSize + 8 ≠ bytes.length) (wavError "RIFF size does not match the response length")

/-- Behind the loop. -/
def Scan.finish (s : Scan) (bytes : Bytes) : Except Failure WavInfo := do
  failIf (s.cursor ≠ bytes.length) (wavError "RIFF chunks do not consume the full response")
  failIf (s.formatSeen = false) (wavError "WAV file has no fmt chunk")
  match s.data with
  | none => .error (wavError "WAV file has no PCM data chunk")
  | some (dataOffset, dataBytes) => pure ⟨dataBytes / 2, dataOffset, dataBytes⟩

def Scan.start : Scan where
  cursor := 12
  formatSeen := false
  data := none

/-- `none` when the fuel does not suffice. -/
def validateWav (fuel : Nat) (bytes : Bytes) : Option (Except Failure WavInfo) :=
  match checkHeader bytes with
  | .error failure => some (.error failure)
  | .ok () => (loop (scanBody bytes) fuel .start).map (· >>= (·.finish bytes))

/-! ## The format -/

/-- One chunk of a RIFF file, padded to an even length. -/
structure Chunk where
  id : Bytes
  payload : Bytes
  padding : Bytes
  id_length : id.length = 4
  payload_length : payload.length < 2 ^ 32
  padding_length : padding.length = payload.length % 2

/-- A chunk as it is written. -/
def Chunk.encode (c : Chunk) : Bytes :=
  c.id ++ (littleEndian 4 c.payload.length ++ (c.payload ++ c.padding))

/-- Format 1, one channel, 24 kHz, 48000 bytes a second, two bytes a frame, 16 bits. -/
def pcmFormat : Bytes :=
  littleEndian 2 1 ++ (littleEndian 2 1 ++ (littleEndian 4 24000 ++ (littleEndian 4 48000 ++
    (littleEndian 2 2 ++ littleEndian 2 16))))

/-- The two chunks that matter. -/
def Chunk.isFormat (c : Chunk) : Bool := c.id = ascii "fmt "

def Chunk.isData (c : Chunk) : Bool := c.id = ascii "data"

/-- A wave file that `bytes` spells out. -/
structure WaveFile (bytes : Bytes) where
  chunks : List Chunk
  format : Chunk
  front : List Chunk
  data : Chunk
  back : List Chunk
  spelled : bytes = ascii "RIFF" ++ littleEndian 4 (bytes.length - 8) ++ ascii "WAVE"
    ++ chunks.flatMap Chunk.encode
  size_lt : bytes.length - 8 < 2 ^ 32
  one_format : chunks.filter Chunk.isFormat = [format]
  format_pcm : pcmFormat <+: format.payload
  one_data : chunks.filter Chunk.isData = [data]
  data_nonempty : data.payload ≠ []
  data_even : data.payload.length % 2 = 0
  split : chunks = front ++ data :: back

/-- Where the samples lie. -/
def WaveFile.info {bytes : Bytes} (file : WaveFile bytes) : WavInfo where
  sampleCount := file.data.payload.length / 2
  dataOffset := 12 + (file.front.flatMap Chunk.encode).length + 8
  dataBytes := file.data.payload.length

/-! ## Fields -/

/-- A field within the bytes. -/
theorem readField_ok {width offset : Nat} {message : String} {bytes : Bytes}
    (h : offset + width ≤ bytes.length) : readField width message bytes offset
      = .ok (ofLittleEndian ((bytes.drop offset).take width)) := if_pos h

/-- A field holds a number when its bytes stand there. -/
theorem field_eq_iff {width offset n : Nat} {bytes : Bytes} (h : offset + width ≤ bytes.length)
    (hn : n < 256 ^ width) : ofLittleEndian ((bytes.drop offset).take width) = n ↔
      littleEndian width n <+: bytes.drop offset := by
  have hlength : ((bytes.drop offset).take width).length = width := by
    rw [List.length_take, List.length_drop]
    omega
  rw [ofLittleEndian_eq_iff (by rw [hlength]; exact hn), hlength, List.prefix_iff_eq_take,
    length_littleEndian]
  exact eq_comm

/-- Two prefixes in a row. -/
theorem append_prefix_iff {α : Type} {xs ys zs : List α} :
    xs ++ ys <+: zs ↔ xs <+: zs ∧ ys <+: zs.drop xs.length := by
  constructor
  · rintro ⟨rest, rfl⟩
    rw [List.append_assoc]
    refine ⟨List.prefix_append _ _, ?_⟩
    rw [List.drop_left]
    exact List.prefix_append _ _
  · rintro ⟨⟨rest, rfl⟩, hys⟩
    rw [List.drop_left] at hys
    exact (List.prefix_append_right_inj xs).mpr hys

/-- The number in a field. -/
def field (bytes : Bytes) (width offset : Nat) : Nat :=
  ofLittleEndian ((bytes.drop offset).take width)

/-- The format, field by field. -/
theorem pcmFormat_iff {bytes : Bytes} (h : 16 ≤ bytes.length) :
    pcmFormat <+: bytes ↔ field bytes 2 0 = 1 ∧ field bytes 2 2 = 1 ∧ field bytes 4 4 = 24000 ∧
      field bytes 4 8 = 48000 ∧ field bytes 2 12 = 2 ∧ field bytes 2 14 = 16 := by
  unfold field
  rw [field_eq_iff (by omega) (by decide), field_eq_iff (by omega) (by decide),
    field_eq_iff (by omega) (by decide), field_eq_iff (by omega) (by decide),
    field_eq_iff (by omega) (by decide), field_eq_iff (by omega) (by decide)]
  simp only [pcmFormat, append_prefix_iff, length_littleEndian, List.drop_drop, List.drop_zero]

/-- Only sixteen-bit mono at 24 kHz is accepted; what follows the sixteen bytes does not matter. -/
theorem validateFormat_iff {bytes : Bytes} :
    validateFormat bytes = .ok () ↔ pcmFormat <+: bytes := by
  have hlength : pcmFormat.length = 16 := by decide
  by_cases hshort : bytes.length < 16
  · refine iff_of_false ?_ ?_
    · intro h
      simp only [validateFormat, bind_eq_ok, failIf_eq_ok] at h
      obtain ⟨_, hlong, -⟩ := h
      exact hlong hshort
    · intro h
      have := h.length_le
      omega
  · have hlong : failIf (bytes.length < 16) (wavError "fmt chunk is shorter than 16 bytes")
        = .ok () := failIf_eq_ok.mpr hshort
    rw [validateFormat, hlong, ok_bind]
    simp only [readU16, readU32]
    rw [readField_ok (by omega), ok_bind, readField_ok (by omega), ok_bind,
      readField_ok (by omega), ok_bind, readField_ok (by omega), ok_bind, readField_ok (by omega),
      ok_bind, readField_ok (by omega), ok_bind, failIf_eq_ok, pcmFormat_iff (by omega)]
    show ¬ (field bytes 2 0 ≠ 1 ∨ field bytes 2 2 ≠ 1 ∨ field bytes 4 4 ≠ 24000
      ∨ field bytes 4 8 ≠ field bytes 4 4 * 2 ∨ field bytes 2 12 ≠ 2 ∨ field bytes 2 14 ≠ 16) ↔ _
    omega

/-! ## One chunk -/

/-- A chunk is padded to an even length. -/
theorem length_encode (c : Chunk) :
    c.encode.length = 8 + c.payload.length + c.payload.length % 2 := by
  simp only [Chunk.encode, List.length_append, c.id_length, length_littleEndian, c.padding_length]
  omega

/-- What the match on the id does with a chunk. -/
def Scan.see (s : Scan) (c : Chunk) : Except Failure Scan :=
  if c.id = ascii "fmt " then do
    failIf (s.formatSeen = true) (wavError "duplicate fmt chunk")
    validateFormat c.payload
    pure { s with formatSeen := true }
  else if c.id = ascii "data" then do
    failIf (s.data.isSome = true) (wavError "duplicate data chunk")
    failIf (c.payload.length = 0 ∨ c.payload.length % 2 ≠ 0)
      (wavError "PCM data must contain a non-empty whole number of 16-bit samples")
    pure { s with data := some (s.cursor + 8, c.payload.length) }
  else pure s

/-- The cursor behind a chunk. -/
def Scan.pass (s : Scan) (c : Chunk) : Scan := { s with cursor := s.cursor + c.encode.length }

/-- The format chunk: one, of the right format. -/
theorem see_format {s s' : Scan} {c : Chunk} (h : c.isFormat = true) : s.see c = .ok s' ↔
    s.formatSeen = false ∧ pcmFormat <+: c.payload ∧ s' = { s with formatSeen := true } := by
  have hid : c.id = ascii "fmt " := of_decide_eq_true h
  rw [Scan.see, if_pos hid]
  constructor
  · intro hsee
    obtain ⟨_, hseen, hsee⟩ := bind_eq_ok.mp hsee
    obtain ⟨_, hformat, hsee⟩ := bind_eq_ok.mp hsee
    cases hsee
    refine ⟨?_, validateFormat_iff.mp hformat, rfl⟩
    rw [failIf_eq_ok, Bool.not_eq_true] at hseen
    exact hseen
  · rintro ⟨hseen, hformat, rfl⟩
    rw [failIf_of_not (by rw [hseen]; decide), ok_bind, validateFormat_iff.mpr hformat]
    rfl

/-- The data chunk: one, of whole samples. -/
theorem see_data {s s' : Scan} {c : Chunk} (hother : c.isFormat = false) (h : c.isData = true) :
    s.see c = .ok s' ↔ s.data = none ∧ c.payload ≠ [] ∧ c.payload.length % 2 = 0 ∧
      s' = { s with data := some (s.cursor + 8, c.payload.length) } := by
  have hid : c.id = ascii "data" := of_decide_eq_true h
  rw [Scan.see, if_neg (of_decide_eq_false hother), if_pos hid]
  constructor
  · intro hsee
    obtain ⟨_, hseen, hsee⟩ := bind_eq_ok.mp hsee
    obtain ⟨_, hsize, hsee⟩ := bind_eq_ok.mp hsee
    cases hsee
    rw [failIf_eq_ok, Bool.not_eq_true, Option.isSome_eq_false_iff,
      Option.isNone_iff_eq_none] at hseen
    rw [failIf_eq_ok, not_or, Decidable.not_not, List.length_eq_zero_iff] at hsize
    exact ⟨hseen, hsize.1, hsize.2, rfl⟩
  · rintro ⟨hseen, hempty, heven, rfl⟩
    have hlength : c.payload.length ≠ 0 := by
      rw [ne_eq, List.length_eq_zero_iff]
      exact hempty
    rw [failIf_of_not (by rw [hseen]; decide), ok_bind, failIf_of_not (by omega)]
    rfl

/-- Any other chunk is passed over. -/
theorem see_other {s s' : Scan} {c : Chunk} (hformat : c.isFormat = false)
    (hdata : c.isData = false) : s.see c = .ok s' ↔ s' = s := by
  rw [Scan.see, if_neg (of_decide_eq_false hformat), if_neg (of_decide_eq_false hdata), pure_eq_ok]
  exact eq_comm

/-- Looking at a chunk does not move the cursor. -/
theorem see_cursor {s s' : Scan} {c : Chunk} (h : s.see c = .ok s') : s'.cursor = s.cursor := by
  cases hformat : c.isFormat with
  | true => rw [((see_format hformat).mp h).2.2]
  | false =>
    cases hdata : c.isData with
    | true => rw [((see_data hformat hdata).mp h).2.2.2]
    | false => rw [(see_other hformat hdata).mp h]

/-- The parts of the bytes behind the cursor when a chunk stands there. -/
theorem chunk_parts {bytes rest : Bytes} {cursor : Nat} {c : Chunk}
    (h : bytes.drop cursor = c.encode ++ rest) (hcursor : cursor ≤ bytes.length) :
    cursor + c.encode.length ≤ bytes.length ∧
    slice bytes cursor (cursor + 4) = .ok c.id ∧
    readU32 bytes (cursor + 4) = .ok c.payload.length ∧
    slice bytes (cursor + 8) (cursor + 8 + c.payload.length) = .ok c.payload := by
  have hlength : cursor + (c.encode.length + rest.length) = bytes.length := by
    have hdrop := congrArg List.length h
    rw [List.length_drop, List.length_append] at hdrop
    omega
  have hencode := length_encode c
  have hid := c.id_length
  -- the three parts of a chunk start at offsets of their own
  have hid' : bytes.drop cursor
      = c.id ++ (littleEndian 4 c.payload.length ++ (c.payload ++ (c.padding ++ rest))) := by
    rw [h, Chunk.encode]
    simp only [List.append_assoc]
  have hsize : bytes.drop (cursor + 4)
      = littleEndian 4 c.payload.length ++ (c.payload ++ (c.padding ++ rest)) := by
    rw [← List.drop_drop, hid', ← hid, List.drop_left]
  have hpayload : bytes.drop (cursor + 8) = c.payload ++ (c.padding ++ rest) := by
    have hdrop := congrArg (List.drop 4) hsize
    rw [List.drop_drop, List.drop_left' (length_littleEndian 4 _)] at hdrop
    exact hdrop
  refine ⟨by omega, ?_, ?_, ?_⟩
  · rw [slice_ok (by omega) (by omega), Nat.add_sub_cancel_left, hid', List.take_left' hid]
  · rw [readU32, readField_ok (by omega), hsize, List.take_left' (length_littleEndian 4 _),
      ofLittleEndian_littleEndian c.payload_length]
  · rw [slice_ok (by omega) (by omega), Nat.add_sub_cancel_left, hpayload, List.take_left' rfl]

/-- One iteration takes one chunk. -/
theorem next_of_split {s : Scan} {bytes rest : Bytes} {c : Chunk}
    (h : bytes.drop s.cursor = c.encode ++ rest) (hcursor : s.cursor ≤ bytes.length)
    (hbytes : bytes.length < 2 ^ 63) : s.next bytes = (s.see c).map (·.pass c) := by
  obtain ⟨hend, hid, hsize, hpayload⟩ := chunk_parts h hcursor
  have hencode := length_encode c
  have hclassify : s.classify bytes c.id (s.cursor + 8) (s.cursor + 8 + c.payload.length)
      c.payload.length = s.see c := by
    rw [Scan.classify, hpayload]
    rfl
  rw [Scan.next, failIf_of_not (by omega), ok_bind, hid, ok_bind, hsize, ok_bind]
  dsimp only
  rw [checkedAdd_ok (by omega), ok_bind, failIf_of_not (by omega), ok_bind, hclassify]
  cases hsee : s.see c with
  | error failure => rfl
  | ok s' =>
    have hcursor' := see_cursor hsee
    have hpass : s'.pass c
        = { s' with cursor := s.cursor + 8 + c.payload.length + c.payload.length % 2 } := by
      rw [Scan.pass, hcursor', hencode]
      simp only [Nat.add_assoc]
    rw [ok_bind, checkedAdd_ok (by omega), ok_bind, failIf_of_not (by omega), ok_bind]
    show _ = Except.ok (s'.pass c)
    rw [hpass]
    rfl

/-- A cut in two. -/
theorem take_append_drop_add (bytes : Bytes) (first count : Nat) :
    (bytes.drop first).take count ++ bytes.drop (first + count) = bytes.drop first := by
  rw [← List.drop_drop]
  exact List.take_append_drop count _

/-- Bytes that hold a chunk's header, its payload and its padding. -/
theorem exists_chunk {bytes : Bytes} {cursor : Nat}
    (hheader : cursor + 8 ≤ bytes.length) (hend : cursor + 8 + field bytes 4 (cursor + 4)
      + field bytes 4 (cursor + 4) % 2 ≤ bytes.length) :
    ∃ (c : Chunk) (rest : Bytes), bytes.drop cursor = c.encode ++ rest := by
  have hsize : ((bytes.drop (cursor + 4)).take 4).length = 4 := by
    rw [List.length_take, List.length_drop]
    omega
  have hlt : field bytes 4 (cursor + 4) < 2 ^ 32 := by
    have hfield := ofLittleEndian_lt ((bytes.drop (cursor + 4)).take 4)
    rw [hsize] at hfield
    exact hfield
  -- four bytes are the encoding of the number they hold
  have hspelled :
      littleEndian 4 (field bytes 4 (cursor + 4)) = (bytes.drop (cursor + 4)).take 4 := by
    have hfield := littleEndian_ofLittleEndian ((bytes.drop (cursor + 4)).take 4)
    rw [hsize] at hfield
    exact hfield
  generalize field bytes 4 (cursor + 4) = size at hend hlt hspelled
  have hpayload : ((bytes.drop (cursor + 8)).take size).length = size := by
    rw [List.length_take, List.length_drop]
    omega
  -- the chunk is cut out of the bytes
  refine ⟨⟨(bytes.drop cursor).take 4, (bytes.drop (cursor + 8)).take size,
    (bytes.drop (cursor + 8 + size)).take (size % 2), ?_, ?_, ?_⟩,
    bytes.drop (cursor + 8 + size + size % 2), ?_⟩
  · rw [List.length_take, List.length_drop]
    omega
  · rw [hpayload]
    exact hlt
  · rw [hpayload, List.length_take, List.length_drop]
    omega
  · simp only [Chunk.encode]
    rw [hpayload, hspelled]
    simp only [List.append_assoc]
    rw [take_append_drop_add, take_append_drop_add]
    show _ = (bytes.drop cursor).take 4 ++ ((bytes.drop (cursor + 4)).take 4 ++
      bytes.drop (cursor + 4 + 4))
    rw [take_append_drop_add, take_append_drop_add]

/-- An iteration that goes on has taken a chunk. -/
theorem split_of_next {s s' : Scan} {bytes : Bytes} (hcursor : s.cursor < bytes.length)
    (h : s.next bytes = .ok s') :
    ∃ (c : Chunk) (rest : Bytes), bytes.drop s.cursor = c.encode ++ rest := by
  rw [Scan.next] at h
  obtain ⟨_, hheader, h⟩ := bind_eq_ok.mp h
  obtain ⟨id, -, h⟩ := bind_eq_ok.mp h
  obtain ⟨size, hsize, h⟩ := bind_eq_ok.mp h
  obtain ⟨payloadEnd, hend, h⟩ := bind_eq_ok.mp h
  obtain ⟨_, -, h⟩ := bind_eq_ok.mp h
  obtain ⟨_, -, h⟩ := bind_eq_ok.mp h
  obtain ⟨cursor, hcursor', h⟩ := bind_eq_ok.mp h
  obtain ⟨_, hpadding, -⟩ := bind_eq_ok.mp h
  rw [failIf_eq_ok] at hheader hpadding
  rw [readU32, readField_ok (by omega)] at hsize
  cases hsize
  rw [checkedAdd_eq_ok] at hend hcursor'
  apply exists_chunk (by omega)
  show s.cursor + 8 + ofLittleEndian _ + ofLittleEndian _ % 2 ≤ bytes.length
  omega

/-! ## No access outside the slice -/

/-- Two steps without a panic. -/
theorem bind_ne_panic {α β : Type} {x : Except Failure α} {f : α → Except Failure β}
    (hx : x ≠ .error .panic) (hf : ∀ a, x = .ok a → f a ≠ .error .panic) :
    x >>= f ≠ .error .panic := by
  cases x with
  | error failure =>
    intro h
    exact hx (congrArg Except.error (Except.error.inj h))
  | ok a => exact hf a rfl

/-- A check reports an error. -/
theorem failIf_ne_panic {p : Prop} [Decidable p] (message : String) :
    failIf p (wavError message) ≠ .error .panic := by
  unfold failIf
  split <;> exact nofun

/-- So does a field that is cut. -/
theorem readField_ne_panic (width : Nat) (message : String) (bytes : Bytes) (offset : Nat) :
    readField width message bytes offset ≠ .error .panic := by
  unfold readField
  split <;> exact nofun

/-- The format is read field by field. -/
theorem validateFormat_ne_panic (bytes : Bytes) : validateFormat bytes ≠ .error .panic := by
  rw [validateFormat]
  refine bind_ne_panic (failIf_ne_panic _) fun _ _ => ?_
  iterate 6 refine bind_ne_panic (readField_ne_panic _ _ _ _) fun _ _ => ?_
  exact failIf_ne_panic _

/-- A chunk is sliced behind the checks of its bounds. -/
theorem next_ne_panic {s : Scan} {bytes : Bytes} (hcursor : s.cursor < bytes.length) :
    s.next bytes ≠ .error .panic := by
  rw [Scan.next]
  refine bind_ne_panic (failIf_ne_panic _) fun _ hheader => ?_
  rw [failIf_eq_ok] at hheader
  rw [slice_ok (by omega) (by omega), ok_bind]
  refine bind_ne_panic (readField_ne_panic _ _ _ _) fun size _ => ?_
  refine bind_ne_panic (checkedAdd_ne_panic _ _ _) fun payloadEnd hend => ?_
  rw [checkedAdd_eq_ok] at hend
  refine bind_ne_panic (failIf_ne_panic _) fun _ hfits => ?_
  rw [failIf_eq_ok] at hfits
  refine bind_ne_panic ?_ fun _ _ => ?_
  · unfold Scan.classify
    split
    · refine bind_ne_panic (failIf_ne_panic _) fun _ _ => ?_
      rw [slice_ok (by omega) (by omega), ok_bind]
      exact bind_ne_panic (validateFormat_ne_panic _) fun _ _ => nofun
    · split
      · refine bind_ne_panic (failIf_ne_panic _) fun _ _ => ?_
        exact bind_ne_panic (failIf_ne_panic _) fun _ _ => nofun
      · exact nofun
  · refine bind_ne_panic (checkedAdd_ne_panic _ _ _) fun _ _ => ?_
    exact bind_ne_panic (failIf_ne_panic _) fun _ _ => nofun

/-- So is the header of the file. -/
theorem checkHeader_ne_panic (bytes : Bytes) : checkHeader bytes ≠ .error .panic := by
  rw [checkHeader]
  refine bind_ne_panic (failIf_ne_panic _) fun _ hlength => ?_
  rw [failIf_eq_ok] at hlength
  rw [slice_ok (by omega) (by omega), ok_bind]
  refine bind_ne_panic (failIf_ne_panic _) fun _ _ => ?_
  rw [slice_ok (by omega) (by omega), ok_bind]
  refine bind_ne_panic (failIf_ne_panic _) fun _ _ => ?_
  exact bind_ne_panic (readField_ne_panic _ _ _ _) fun _ _ => failIf_ne_panic _

/-- The end only looks at what was seen. -/
theorem finish_ne_panic (s : Scan) (bytes : Bytes) : s.finish bytes ≠ .error .panic := by
  rw [Scan.finish]
  refine bind_ne_panic (failIf_ne_panic _) fun _ _ => ?_
  refine bind_ne_panic (failIf_ne_panic _) fun _ _ => ?_
  split <;> exact nofun

/-! ## What the loop has seen -/

/-- The state of the loop behind `front`. -/
structure Seen (front : List Chunk) (s : Scan) : Prop where
  cursor : s.cursor = 12 + (front.flatMap Chunk.encode).length
  no_format : s.formatSeen = false → front.filter Chunk.isFormat = []
  one_format : s.formatSeen = true →
    ∃ format, front.filter Chunk.isFormat = [format] ∧ pcmFormat <+: format.payload
  no_data : s.data = none → front.filter Chunk.isData = []
  one_data : ∀ range, s.data = some range → ∃ before data after,
    front = before ++ data :: after ∧ front.filter Chunk.isData = [data] ∧ data.payload ≠ [] ∧
      data.payload.length % 2 = 0 ∧
      range = (12 + (before.flatMap Chunk.encode).length + 8, data.payload.length)

/-- Before the first chunk. -/
theorem seen_start : Seen [] .start where
  cursor := rfl
  no_format _ := rfl
  one_format h := by cases h
  no_data _ := rfl
  one_data range h := by cases h

/-- A chunk has one id. -/
theorem not_isFormat_of_isData {c : Chunk} (h : c.isData = true) : c.isFormat = false := by
  have hid : c.id = ascii "data" := of_decide_eq_true h
  rw [Chunk.isFormat, hid]
  decide

/-- Behind one chunk more. -/
theorem Seen.see {front : List Chunk} {s s' : Scan} {c : Chunk} (hseen : Seen front s)
    (h : s.see c = .ok s') : Seen (front ++ [c]) (s'.pass c) := by
  have hcursor : (s'.pass c).cursor = 12 + ((front ++ [c]).flatMap Chunk.encode).length := by
    show s'.cursor + c.encode.length = _
    rw [see_cursor h, hseen.cursor, List.flatMap_append, List.flatMap_singleton,
      List.length_append]
    omega
  -- A data chunk seen before stays where it is.
  have hkept : c.isData = false → ∀ range, s.data = some range → ∃ before data after,
      front ++ [c] = before ++ data :: after ∧ (front ++ [c]).filter Chunk.isData = [data] ∧
        data.payload ≠ [] ∧ data.payload.length % 2 = 0 ∧
        range = (12 + (before.flatMap Chunk.encode).length + 8, data.payload.length) := by
    intro hdata range hrange
    obtain ⟨before, data, after, hfront, hone, hnonempty, heven, hplace⟩ :=
      hseen.one_data range hrange
    refine ⟨before, data, after ++ [c], ?_, ?_, hnonempty, heven, hplace⟩
    · rw [hfront, List.append_assoc, List.cons_append]
    · rw [List.filter_append, hone, List.filter_singleton, hdata]
      rfl
  cases hformat : c.isFormat with
  | true =>
    have hdata : c.isData = false := by
      rw [← Bool.not_eq_true]
      intro hdata
      rw [not_isFormat_of_isData hdata] at hformat
      cases hformat
    obtain ⟨hfirst, hpcm, rfl⟩ := (see_format hformat).mp h
    refine ⟨hcursor, nofun, fun _ => ⟨c, ?_, hpcm⟩, fun hnone => ?_, hkept hdata⟩
    · rw [List.filter_append, hseen.no_format hfirst, List.filter_singleton, hformat]
      rfl
    · rw [List.filter_append, hseen.no_data hnone, List.filter_singleton, hdata]
      rfl
  | false =>
    have hsame : (front ++ [c]).filter Chunk.isFormat = front.filter Chunk.isFormat := by
      rw [List.filter_append, List.filter_singleton, hformat]
      exact List.append_nil _
    cases hdata : c.isData with
    | true =>
      obtain ⟨hnone, hnonempty, heven, rfl⟩ := (see_data hformat hdata).mp h
      refine ⟨hcursor, fun hno => ?_, fun hyes => ?_, nofun, fun range hrange => ?_⟩
      · rw [hsame]
        exact hseen.no_format hno
      · rw [hsame]
        exact hseen.one_format hyes
      · refine ⟨front, c, [], rfl, ?_, hnonempty, heven, ?_⟩
        · rw [List.filter_append, hseen.no_data hnone, List.filter_singleton, hdata]
          rfl
        · rw [← hseen.cursor]
          exact (Option.some.inj hrange).symm
    | false =>
      cases (see_other hformat hdata).mp h
      refine ⟨hcursor, fun hno => ?_, fun hyes => ?_, fun hnone => ?_, hkept hdata⟩
      · rw [hsame]
        exact hseen.no_format hno
      · rw [hsame]
        exact hseen.one_format hyes
      · rw [List.filter_append, hseen.no_data hnone, List.filter_singleton, hdata]
        rfl

/-- A chunk that may stand behind `front` is taken. -/
theorem Seen.see_isOk {front back : List Chunk} {s : Scan} {c format data : Chunk}
    (hseen : Seen front s)
    (hformat : (front ++ c :: back).filter Chunk.isFormat = [format])
    (hpcm : pcmFormat <+: format.payload)
    (hdata : (front ++ c :: back).filter Chunk.isData = [data])
    (hnonempty : data.payload ≠ []) (heven : data.payload.length % 2 = 0) :
    ∃ s', s.see c = .ok s' := by
  -- What is filtered out of the list in front of `c` and at `c` itself.
  have hcount : ∀ (p : Chunk → Bool) (x : Chunk), p c = true →
      (front ++ c :: back).filter p = [x] → front.filter p = [] ∧ c = x := by
    intro p x hc hfilter
    rw [List.filter_append, List.filter_cons, if_pos hc] at hfilter
    cases hfront : front.filter p with
    | nil =>
      rw [hfront] at hfilter
      exact ⟨rfl, (List.cons.inj hfilter).1⟩
    | cons y ys =>
      rw [hfront] at hfilter
      have hlength := congrArg List.length hfilter
      simp at hlength
  cases hf : c.isFormat with
  | true =>
    obtain ⟨hnone, rfl⟩ := hcount Chunk.isFormat format hf hformat
    refine ⟨_, (see_format hf).mpr ⟨?_, hpcm, rfl⟩⟩
    rw [← Bool.not_eq_true]
    intro hyes
    obtain ⟨other, hother, -⟩ := hseen.one_format hyes
    rw [hnone] at hother
    cases hother
  | false =>
    cases hd : c.isData with
    | true =>
      obtain ⟨hnone, rfl⟩ := hcount Chunk.isData data hd hdata
      refine ⟨_, (see_data hf hd).mpr ⟨?_, hnonempty, heven, rfl⟩⟩
      cases hrange : s.data with
      | none => rfl
      | some range =>
        obtain ⟨_, other, _, -, hother, -⟩ := hseen.one_data range hrange
        rw [hnone] at hother
        cases hother
    | false => exact ⟨_, (see_other hf hd).mpr rfl⟩

/-- The chunks in front of the only one that passes a test. -/
theorem takeWhile_of_one {p : Chunk → Bool} {front back : List Chunk} {c : Chunk}
    (h : (front ++ c :: back).filter p = [c]) :
    (front ++ c :: back).takeWhile (fun x => !p x) = front := by
  have hmem : c ∈ (front ++ c :: back).filter p := by
    rw [h]
    exact List.mem_singleton_self c
  have hc : p c = true := (List.mem_filter.mp hmem).2
  have hfront : front.filter p = [] := by
    rw [List.filter_append, List.filter_cons, if_pos hc] at h
    cases hsplit : front.filter p with
    | nil => rfl
    | cons y ys =>
      rw [hsplit] at h
      have hlength := congrArg List.length h
      simp at hlength
  rw [List.takeWhile_append_of_pos, List.takeWhile_cons, hc]
  · exact List.append_nil front
  · intro x hx
    have hnot := List.filter_eq_nil_iff.mp hfront x hx
    rw [Bool.not_eq_true] at hnot
    rw [hnot]
    rfl

/-- What is returned behind the last chunk. -/
theorem Seen.finish_iff {chunks : List Chunk} {s : Scan} {bytes : Bytes} {info : WavInfo}
    (hseen : Seen chunks s) (hend : s.cursor = bytes.length) : s.finish bytes = .ok info ↔
      ∃ (format data : Chunk) (front back : List Chunk),
        chunks.filter Chunk.isFormat = [format] ∧ pcmFormat <+: format.payload ∧
        chunks.filter Chunk.isData = [data] ∧ data.payload ≠ [] ∧ data.payload.length % 2 = 0 ∧
        chunks = front ++ data :: back ∧
        info = ⟨data.payload.length / 2, 12 + (front.flatMap Chunk.encode).length + 8,
          data.payload.length⟩ := by
  rw [Scan.finish, failIf_of_not (by rw [hend]; exact not_not_intro rfl), ok_bind]
  constructor
  · intro h
    obtain ⟨_, hformat, h⟩ := bind_eq_ok.mp h
    rw [failIf_eq_ok, Bool.not_eq_false] at hformat
    -- both chunks were seen
    obtain ⟨format, hone, hpcm⟩ := hseen.one_format hformat
    cases hdata : s.data with
    | none =>
      rw [hdata] at h
      cases h
    | some range =>
      obtain ⟨front, data, back, hsplit, hdatas, hnonempty, heven, hrange⟩ :=
        hseen.one_data range hdata
      rw [hdata, hrange] at h
      cases h
      exact ⟨format, data, front, back, hone, hpcm, hdatas, hnonempty, heven, hsplit, rfl⟩
  · rintro ⟨format, data, front, back, hone, hpcm, hdatas, hnonempty, heven, hsplit, rfl⟩
    -- the one of each kind is the one that was seen
    have hformat : s.formatSeen = true := by
      rw [← Bool.not_eq_false]
      intro hno
      rw [hseen.no_format hno] at hone
      cases hone
    rw [failIf_of_not (by rw [hformat]; decide), ok_bind]
    cases hdata : s.data with
    | none =>
      rw [hseen.no_data hdata] at hdatas
      cases hdatas
    | some range =>
      obtain ⟨front', data', back', hsplit', hdatas', -, -, hrange⟩ := hseen.one_data range hdata
      obtain rfl : data' = data := by
        rw [hdatas] at hdatas'
        exact (List.cons.inj hdatas').1.symm
      obtain rfl : front' = front := by
        rw [hsplit] at hdatas
        rw [hsplit'] at hdatas'
        rw [← takeWhile_of_one hdatas, ← takeWhile_of_one hdatas', ← hsplit, ← hsplit']
      rw [hrange]
      rfl

/-! ## The loop -/

/-- The cursor behind a chunk. -/
theorem split_cursor {s s' : Scan} {bytes rest : Bytes} {c : Chunk}
    (h : bytes.drop s.cursor = c.encode ++ rest) (hcursor : s.cursor ≤ bytes.length)
    (hsee : s.see c = .ok s') :
    (s'.pass c).cursor ≤ bytes.length ∧ bytes.drop (s'.pass c).cursor = rest ∧
      s.cursor < (s'.pass c).cursor := by
  have hend := (chunk_parts h hcursor).1
  have hencode := length_encode c
  have hpass : (s'.pass c).cursor = s.cursor + c.encode.length := by
    show s'.cursor + c.encode.length = _
    rw [see_cursor hsee]
  rw [hpass]
  refine ⟨hend, ?_, by omega⟩
  rw [← List.drop_drop, h, List.drop_left]

/-- An iteration that goes on. -/
theorem scanBody_inr {s s' : Scan} {bytes : Bytes} (hbytes : bytes.length < 2 ^ 63)
    (h : scanBody bytes s = .inr s') : ∃ (c : Chunk) (rest : Bytes) (seen : Scan),
      bytes.drop s.cursor = c.encode ++ rest ∧ s.cursor < bytes.length ∧ s.see c = .ok seen ∧
        s' = seen.pass c := by
  unfold scanBody at h
  split at h
  · rename_i hlt
    cases hnext : s.next bytes with
    | error failure =>
      rw [hnext] at h
      cases h
    | ok next =>
      rw [hnext] at h
      cases h
      obtain ⟨c, rest, hsplit⟩ := split_of_next hlt hnext
      rw [next_of_split hsplit (Nat.le_of_lt hlt) hbytes] at hnext
      cases hsee : s.see c with
      | error failure =>
        rw [hsee] at hnext
        cases hnext
      | ok seen =>
        rw [hsee] at hnext
        cases hnext
        exact ⟨c, rest, seen, hsplit, hlt, hsee, rfl⟩
  · cases h

/-- Every chunk has a header, so the loop ends. -/
theorem scan_ends {bytes : Bytes} (hbytes : bytes.length < 2 ^ 63) (s : Scan) :
    Ends (scanBody bytes) s := by
  apply ends_of_measure fun s => bytes.length - s.cursor
  intro a b _ hstep
  obtain ⟨c, rest, seen, hsplit, hlt, hsee, rfl⟩ := scanBody_inr hbytes hstep
  have hcursor := split_cursor hsplit (Nat.le_of_lt hlt) hsee
  omega

/-- The loop ends behind chunks that cover the bytes, or with an error. -/
theorem scan_sound {bytes : Bytes} {fuel : Nat} {result : Except Failure Scan}
    (hbytes : bytes.length < 2 ^ 63) (hheader : 12 ≤ bytes.length)
    (h : loop (scanBody bytes) fuel .start = some result) :
    result ≠ .error .panic ∧ ∀ s, result = .ok s → s.cursor = bytes.length ∧
      ∃ chunks : List Chunk, bytes.drop 12 = chunks.flatMap Chunk.encode ∧ Seen chunks s := by
  -- the chunks before the cursor are those that were seen
  refine loop_induction (fun s => s.cursor ≤ bytes.length ∧ ∃ front : List Chunk,
      bytes.drop 12 = front.flatMap Chunk.encode ++ bytes.drop s.cursor ∧ Seen front s)
    (fun result => result ≠ .error .panic ∧ ∀ s, result = .ok s → s.cursor = bytes.length ∧
      ∃ chunks : List Chunk, bytes.drop 12 = chunks.flatMap Chunk.encode ∧ Seen chunks s)
    ?_ ?_ ?_ h
  · rintro s s' ⟨hcursor, front, hfront, hseen⟩ hstep
    obtain ⟨c, rest, seen, hsplit, hlt, hsee, rfl⟩ := scanBody_inr hbytes hstep
    obtain ⟨hend, hrest, -⟩ := split_cursor hsplit hcursor hsee
    refine ⟨hend, front ++ [c], ?_, hseen.see hsee⟩
    rw [hfront, hsplit, hrest, List.flatMap_append, List.flatMap_singleton, List.append_assoc]
  · rintro s result ⟨hcursor, front, hfront, hseen⟩ hstep
    unfold scanBody at hstep
    split at hstep
    · rename_i hlt
      cases hnext : s.next bytes with
      | error failure =>
        rw [hnext] at hstep
        cases hstep
        refine ⟨fun hpanic => ?_, nofun⟩
        rw [← hnext] at hpanic
        exact next_ne_panic hlt hpanic
      | ok next =>
        rw [hnext] at hstep
        cases hstep
    · cases hstep
      refine ⟨nofun, fun s' hs' => ?_⟩
      cases hs'
      have hend : s.cursor = bytes.length := by omega
      refine ⟨hend, front, ?_, hseen⟩
      rw [hfront, hend, List.drop_length, List.append_nil]
  · refine ⟨hheader, [], ?_, seen_start⟩
    rfl

/-- The loop takes the chunks of a wave file. -/
theorem scan_complete {bytes : Bytes} {chunks : List Chunk} {format data : Chunk}
    (hbytes : bytes.length < 2 ^ 63)
    (hformat : chunks.filter Chunk.isFormat = [format]) (hpcm : pcmFormat <+: format.payload)
    (hdata : chunks.filter Chunk.isData = [data]) (hnonempty : data.payload ≠ [])
    (heven : data.payload.length % 2 = 0) {front back : List Chunk} {s : Scan}
    (hchunks : chunks = front ++ back) (hseen : Seen front s) (hcursor : s.cursor ≤ bytes.length)
    (hback : bytes.drop s.cursor = back.flatMap Chunk.encode) :
    ∃ fuel s', loop (scanBody bytes) fuel s = some (.ok s') ∧ s'.cursor = bytes.length ∧
      Seen chunks s' := by
  -- by induction on the chunks that are left
  induction back generalizing front s with
  | nil =>
    have hend : s.cursor = bytes.length := by
      have hlength := congrArg List.length hback
      rw [List.length_drop, List.flatMap_nil, List.length_nil] at hlength
      omega
    rw [List.append_nil] at hchunks
    refine ⟨1, s, loop_done ?_, hend, hchunks ▸ hseen⟩
    rw [scanBody, if_neg (by omega)]
  | cons c back ih =>
    rw [List.flatMap_cons] at hback
    rw [hchunks] at hformat hdata
    obtain ⟨seen, hsee⟩ := hseen.see_isOk hformat hpcm hdata hnonempty heven
    obtain ⟨hend, hrest, hlt⟩ := split_cursor hback hcursor hsee
    have hstep : scanBody bytes s = .inr (seen.pass c) := by
      rw [scanBody, if_pos (by omega), next_of_split hback hcursor hbytes, hsee]
      rfl
    rw [← hchunks] at hformat hdata
    obtain ⟨fuel, s', hloop, hresult⟩ :=
      ih (by rw [hchunks, List.append_assoc, List.singleton_append]) (hseen.see hsee) hend hrest
    exact ⟨fuel + 1, s', by rw [loop_next hstep]; exact hloop, hresult⟩

/-! ## The file -/

/-- The header names the length of the file behind it. -/
theorem checkHeader_iff {bytes : Bytes} : checkHeader bytes = .ok () ↔
    12 ≤ bytes.length ∧ bytes.length - 8 < 2 ^ 32 ∧
      bytes = ascii "RIFF" ++ littleEndian 4 (bytes.length - 8) ++ ascii "WAVE"
        ++ bytes.drop 12 := by
  have hriff : (ascii "RIFF").length = 4 := by decide
  have hwave : (ascii "WAVE").length = 4 := by decide
  constructor
  · intro h
    rw [checkHeader] at h
    obtain ⟨_, hlength, h⟩ := bind_eq_ok.mp h
    rw [failIf_eq_ok] at hlength
    rw [slice_ok (by omega) (by omega), ok_bind, slice_ok (by omega) (by omega)] at h
    obtain ⟨_, hid, h⟩ := bind_eq_ok.mp h
    rw [ok_bind] at h
    obtain ⟨_, hkind, h⟩ := bind_eq_ok.mp h
    rw [readU32, readField_ok (by omega), ok_bind, failIf_eq_ok, Decidable.not_not] at h
    rw [failIf_eq_ok, Decidable.not_not] at hid hkind
    have hsize : ((bytes.drop 4).take 4).length = 4 := by
      rw [List.length_take, List.length_drop]
      omega
    have hlt := ofLittleEndian_lt ((bytes.drop 4).take 4)
    have hspelled := littleEndian_ofLittleEndian ((bytes.drop 4).take 4)
    rw [hsize] at hlt hspelled
    -- the size counts everything behind its own field
    have hfield : ofLittleEndian ((bytes.drop 4).take 4) = bytes.length - 8 := by omega
    rw [hfield] at hlt hspelled
    refine ⟨by omega, hlt, ?_⟩
    rw [← hid, ← hkind, hspelled, List.append_assoc, List.append_assoc]
    show bytes = (bytes.drop 0).take 4 ++ ((bytes.drop (0 + 4)).take 4 ++
      ((bytes.drop (0 + 4 + 4)).take 4 ++ bytes.drop (0 + 4 + 4 + 4)))
    rw [take_append_drop_add, take_append_drop_add, take_append_drop_add]
    rfl
  · rintro ⟨hlength, hlt, hspelled⟩
    rw [List.append_assoc, List.append_assoc] at hspelled
    have hsize := length_littleEndian 4 (bytes.length - 8)
    have hid : (bytes.drop 0).take (4 - 0) = ascii "RIFF" := by
      rw [hspelled]
      exact List.take_left' hriff
    have hfour : bytes.drop 4 = littleEndian 4 (bytes.length - 8) ++ (ascii "WAVE"
        ++ bytes.drop 12) := by
      conv_lhs => rw [hspelled]
      exact List.drop_left' hriff
    have hkind : (bytes.drop 8).take (12 - 8) = ascii "WAVE" := by
      have height := congrArg (List.drop 4) hfour
      rw [List.drop_drop, List.drop_left' hsize] at height
      rw [show 8 = 4 + 4 from rfl, height]
      exact List.take_left' hwave
    have hread : readU32 bytes 4 = .ok (bytes.length - 8) := by
      rw [readU32, readField_ok (by omega), hfour, List.take_left' hsize,
        ofLittleEndian_littleEndian hlt]
    rw [checkHeader, failIf_of_not (by omega), ok_bind, slice_ok (by omega) (by omega), ok_bind,
      hid, failIf_of_not (not_not_intro rfl), ok_bind, slice_ok (by omega) (by omega), ok_bind,
      hkind, failIf_of_not (not_not_intro rfl), ok_bind, hread, ok_bind]
    exact failIf_of_not (by omega)

/-- The range that is returned holds the samples. -/
theorem WaveFile.data_range {bytes : Bytes} (file : WaveFile bytes) :
    (bytes.drop file.info.dataOffset).take file.info.dataBytes = file.data.payload := by
  have hriff : (ascii "RIFF").length = 4 := by decide
  have hwave : (ascii "WAVE").length = 4 := by decide
  have hspelled : bytes = (ascii "RIFF" ++ littleEndian 4 (bytes.length - 8) ++ ascii "WAVE"
      ++ file.front.flatMap Chunk.encode ++ (file.data.id
        ++ littleEndian 4 file.data.payload.length)) ++ (file.data.payload ++ (file.data.padding
        ++ file.back.flatMap Chunk.encode)) := by
    conv_lhs => rw [file.spelled, file.split, List.flatMap_append, List.flatMap_cons, Chunk.encode]
    simp only [List.append_assoc]
  have hoffset : (ascii "RIFF" ++ littleEndian 4 (bytes.length - 8) ++ ascii "WAVE"
      ++ file.front.flatMap Chunk.encode ++ (file.data.id
        ++ littleEndian 4 file.data.payload.length)).length = file.info.dataOffset := by
    simp only [List.length_append, length_littleEndian, file.data.id_length, hriff, hwave]
    show _ = 12 + _ + 8
    omega
  have hdrop := congrArg (List.drop file.info.dataOffset) hspelled
  rw [List.drop_left' hoffset] at hdrop
  rw [hdrop]
  exact List.take_left' rfl

/-- Everything behind the header is a list of chunks. -/
theorem WaveFile.behind {bytes : Bytes} (file : WaveFile bytes) :
    checkHeader bytes = .ok () ∧ bytes.drop 12 = file.chunks.flatMap Chunk.encode := by
  have hheader : (ascii "RIFF" ++ littleEndian 4 (bytes.length - 8) ++ ascii "WAVE").length
      = 12 := by
    have hriff : (ascii "RIFF").length = 4 := by decide
    have hwave : (ascii "WAVE").length = 4 := by decide
    rw [List.length_append, List.length_append, length_littleEndian, hriff, hwave]
  have hdrop : bytes.drop 12 = file.chunks.flatMap Chunk.encode := by
    conv_lhs => rw [file.spelled]
    exact List.drop_left' hheader
  have hlength := congrArg List.length file.spelled
  rw [List.length_append, hheader] at hlength
  refine ⟨checkHeader_iff.mpr ⟨by omega, file.size_lt, ?_⟩, hdrop⟩
  rw [hdrop]
  exact file.spelled

/-- The validator ends within some fuel, without a panic, and accepts the wave files. -/
theorem validateWav_iff (bytes : Bytes) : ∃ fuel result,
    (∀ more, fuel ≤ more → validateWav more bytes = some result) ∧ result ≠ .error .panic ∧
    ∀ info, result = .ok info ↔ ∃ file : WaveFile bytes, file.info = info := by
  -- a file without a header is no wave file
  cases hheader : checkHeader bytes with
  | error failure =>
    refine ⟨0, .error failure, fun more _ => ?_, ?_, fun info => ?_⟩
    · rw [validateWav, hheader]
    · intro hpanic
      apply checkHeader_ne_panic bytes
      rw [hheader]
      exact congrArg Except.error (Except.error.inj hpanic)
    · refine iff_of_false nofun ?_
      rintro ⟨file, -⟩
      rw [file.behind.1] at hheader
      cases hheader
  | ok u =>
    obtain ⟨hlength, hlt, hspelled⟩ := checkHeader_iff.mp hheader
    have hbytes : bytes.length < 2 ^ 63 := by omega
    obtain ⟨fuel, hends⟩ := scan_ends hbytes .start
    obtain ⟨result, hloop⟩ := Option.isSome_iff_exists.mp hends
    obtain ⟨hpanic, hsound⟩ := scan_sound hbytes hlength hloop
    refine ⟨fuel, result >>= (·.finish bytes), fun more hmore => ?_, ?_, fun info => ?_⟩
    · rw [validateWav, hheader]
      dsimp only
      rw [loop_mono hloop hmore]
      rfl
    · exact bind_ne_panic hpanic fun s _ => finish_ne_panic s bytes
    · rw [bind_eq_ok]
      constructor
      · rintro ⟨s, rfl, hfinish⟩
        -- accepted: the chunks that were seen make up the file
        obtain ⟨hend, chunks, hchunks, hseen⟩ := hsound s rfl
        obtain ⟨format, data, front, back, hformat, hpcm, hdata, hnonempty, heven, hsplit, rfl⟩ :=
          (hseen.finish_iff hend).mp hfinish
        rw [hchunks] at hspelled
        exact ⟨⟨chunks, format, front, data, back, hspelled, hlt, hformat, hpcm, hdata, hnonempty,
          heven, hsplit⟩, rfl⟩
      · rintro ⟨file, rfl⟩
        -- a wave file: the loop sees its chunks
        obtain ⟨other, s, hother, hend, hseen⟩ := scan_complete hbytes file.one_format
          file.format_pcm file.one_data file.data_nonempty file.data_even
          (List.nil_append file.chunks).symm seen_start hlength file.behind.2
        refine ⟨s, loop_unique hloop hother, (hseen.finish_iff hend).mpr ?_⟩
        exact ⟨file.format, file.data, file.front, file.back, file.one_format, file.format_pcm,
          file.one_data, file.data_nonempty, file.data_even, file.split, rfl⟩

/-! ## The encoder of the server -/

/-- The header the server writes: one format chunk, and the front of the data chunk. -/
theorem wavHeader_eq (dataBytes : Nat) : Server.wavHeader dataBytes
    = ascii "RIFF" ++ littleEndian 4 (dataBytes + 36) ++ ascii "WAVE"
      ++ (ascii "fmt " ++ (littleEndian 4 16 ++ pcmFormat)
        ++ (ascii "data" ++ littleEndian 4 dataBytes)) := by
  have hjoined : ascii "WAVEfmt " = ascii "WAVE" ++ ascii "fmt " := by decide
  simp only [Server.wavHeader, asBytes_eq_ascii, leBytes_eq, hjoined, pcmFormat, List.append_assoc]
  rfl

/-- It has 44 bytes. -/
theorem length_wavHeader (dataBytes : Nat) : (Server.wavHeader dataBytes).length = 44 := by
  have hriff : (ascii "RIFF").length = 4 := by decide
  have hwave : (ascii "WAVE").length = 4 := by decide
  have hfmt : (ascii "fmt ").length = 4 := by decide
  have hdata : (ascii "data").length = 4 := by decide
  have hpcm : pcmFormat.length = 16 := by decide
  simp only [wavHeader_eq, List.length_append, length_littleEndian, hriff, hwave, hfmt, hdata, hpcm]

/-- The format chunk of the encoder. -/
def formatChunk : Chunk where
  id := ascii "fmt "
  payload := pcmFormat
  padding := []
  id_length := by decide +kernel
  payload_length := by decide
  padding_length := by decide

/-- The data as a chunk; an even length needs no padding. -/
def dataChunk (pcm : Bytes) (heven : pcm.length % 2 = 0) (hsize : pcm.length < 2 ^ 32) : Chunk where
  id := ascii "data"
  payload := pcm
  padding := []
  id_length := by decide +kernel
  payload_length := hsize
  padding_length := heven.symm

/-- The file that the encoder writes. -/
def encodedFile (pcm : Bytes) (hnonempty : pcm ≠ []) (heven : pcm.length % 2 = 0)
    (hsize : pcm.length + 36 < 2 ^ 32) : WaveFile (Server.wavHeader pcm.length ++ pcm) where
  chunks := [formatChunk, dataChunk pcm heven (by omega)]
  format := formatChunk
  front := [formatChunk]
  data := dataChunk pcm heven (by omega)
  back := []
  spelled := by
    have hlength : pcm.length + 36 = (Server.wavHeader pcm.length ++ pcm).length - 8 := by
      rw [List.length_append, length_wavHeader]
      omega
    have hformat : pcmFormat.length = 16 := by decide
    rw [← hlength, wavHeader_eq]
    simp only [List.flatMap_cons, List.flatMap_nil, Chunk.encode, formatChunk, dataChunk, hformat,
      List.append_nil, List.append_assoc]
  size_lt := by
    rw [List.length_append, length_wavHeader]
    omega
  one_format := by
    have hyes : formatChunk.isFormat = true := by decide
    have hno : (dataChunk pcm heven (by omega)).isFormat = false :=
      not_isFormat_of_isData (decide_eq_true rfl)
    rw [List.filter_cons, if_pos hyes, List.filter_singleton, hno]
    rfl
  format_pcm := List.prefix_rfl
  one_data := by
    have hno : formatChunk.isData = false := by decide
    have hyes : (dataChunk pcm heven (by omega)).isData = true := decide_eq_true rfl
    rw [List.filter_cons, if_neg (by rw [hno]; decide), List.filter_singleton, hyes]
    rfl
  data_nonempty := hnonempty
  data_even := heven
  split := rfl

/-- **WAV encoder and validator agree.** An encoded file with at least one sample is accepted,
with the range of its samples. Of all byte strings the validator accepts the wave files, with the
range of their data chunk; it always ends, and no access leaves the string. -/
theorem wav_agree :
    (∀ pcm wav : Bytes, Server.encodePcm16Mono pcm = .ok wav → pcm ≠ [] →
      ∃ fuel, (∀ more, fuel ≤ more →
        validateWav more wav = some (.ok ⟨pcm.length / 2, 44, pcm.length⟩)) ∧
      (wav.drop 44).take pcm.length = pcm) ∧
    ∀ bytes : Bytes, ∃ fuel result,
      (∀ more, fuel ≤ more → validateWav more bytes = some result) ∧ result ≠ .error .panic ∧
      (∀ info, result = .ok info ↔ ∃ file : WaveFile bytes, file.info = info) ∧
      ∀ file : WaveFile bytes,
        (bytes.drop file.info.dataOffset).take file.info.dataBytes = file.data.payload := by
  constructor
  · intro pcm wav hencode hnonempty
    rw [Server.encodePcm16Mono] at hencode
    simp only [ite_error_eq_ok, Decidable.not_not, Nat.not_le] at hencode
    obtain ⟨heven, -, hsize, hwav⟩ := hencode
    cases hwav
    obtain ⟨fuel, result, hresult, -, hiff⟩ :=
      validateWav_iff (Server.wavHeader pcm.length ++ pcm)
    have hinfo : (encodedFile pcm hnonempty heven hsize).info
        = ⟨pcm.length / 2, 44, pcm.length⟩ := by
      have hformat : formatChunk.encode.length = 24 := by decide
      show WavInfo.mk _ (12 + (formatChunk.encode ++ []).length + 8) _ = _
      rw [List.append_nil, hformat]
      rfl
    refine ⟨fuel, fun more hmore => ?_, ?_⟩
    · rw [hresult more hmore, (hiff _).mpr ⟨encodedFile pcm hnonempty heven hsize, hinfo⟩]
    · rw [List.drop_left' (length_wavHeader _), List.take_length]
  · intro bytes
    obtain ⟨fuel, result, hresult, hpanic, hiff⟩ := validateWav_iff bytes
    exact ⟨fuel, result, hresult, hpanic, hiff, WaveFile.data_range⟩

end Qwen3Tts.Bench
