import Qwen3Tts.Runtime.FfiPoll

/-!
# Runtime — error messages in C buffers

`write_error_buffer` cuts a message where a character starts and puts a NUL behind it. The loop
that looks for the cut is `charBoundaryBelow`; here it is held against the byte test of
`str::is_char_boundary` and the subtraction that would underflow (`walkBack_eq`), and what it finds
is the longest prefix of the message that is valid UTF-8 and fits (`longestPrefix_cut`).
`writeErrorBuffer_safe` says what the caller's buffer holds afterwards.
-/

namespace Qwen3Tts.Runtime

/-- The bytes of a `&str`. -/
def messageBytes (message : String) : List UInt8 := message.toUTF8.data.toList

/-! ## The byte test -/

/-- `u8::is_utf8_char_boundary`: a byte other than `0b10xxxxxx`. -/
def isUtf8CharBoundary (byte : UInt8) : Bool := byte < 0x80 || 0xC0 ≤ byte

/-- `str::is_char_boundary`. -/
def isCharBoundary (bytes : List UInt8) (index : Nat) : Bool :=
  if index = 0 then true
  else
    match bytes[index]? with
    | some byte => isUtf8CharBoundary byte
    | none => index = bytes.length

/-- The loop from `end` on; `none` is the underflow of `end -= 1`. -/
def walkBack (bytes : List UInt8) : Nat → Option Nat
  | 0 => if isCharBoundary bytes 0 then some 0 else none
  | n + 1 => if isCharBoundary bytes (n + 1) then some (n + 1) else walkBack bytes n

/-- The bytes of the message. -/
theorem length_messageBytes (message : String) :
    (messageBytes message).length = message.utf8ByteSize := by
  rfl

theorem messageBytes_eq (message : String) :
    messageBytes message = message.toList.flatMap String.utf8EncodeChar := by
  have hencode : message.toUTF8 = message.toList.utf8Encode := by
    exact String.utf8Encode_toList.symm
  rw [messageBytes, hencode, List.utf8Encode]
  exact List.toList_data_toByteArray

/-- A continuation byte starts no character. -/
theorem isUtf8CharBoundary_continuation (n : Nat) :
    isUtf8CharBoundary (UInt8.ofNat (n % 64 + 128)) = false := by
  have hbyte : (UInt8.ofNat (n % 64 + 128)).toNat = n % 64 + 128 := by
    rw [UInt8.toNat_ofNat']
    omega
  simp only [isUtf8CharBoundary, Bool.or_eq_false_iff, decide_eq_false_iff_not,
    UInt8.lt_iff_toNat_lt, UInt8.le_iff_toNat_le, hbyte]
  constructor
  · show ¬ (n % 64 + 128 < 128)
    omega
  · show ¬ (192 ≤ n % 64 + 128)
    omega

set_option maxRecDepth 20000 in
/-- A first byte does. -/
theorem isUtf8CharBoundary_first (byte : UInt8) (h : byte.IsUTF8FirstByte) :
    isUtf8CharBoundary byte = true := by
  have hall : ∀ n : Fin 256, (UInt8.ofFin n).IsUTF8FirstByte →
      isUtf8CharBoundary (UInt8.ofFin n) = true := by
    decide
  exact hall byte.toFin h

/-- In the encoding of a character only the first byte passes the test. -/
theorem isUtf8CharBoundary_tail (c : Char) :
    ∀ byte ∈ (String.utf8EncodeChar c).tail, isUtf8CharBoundary byte = false := by
  intro byte hbyte
  simp only [String.utf8EncodeChar] at hbyte
  split_ifs at hbyte <;>
    simp only [List.tail_cons, List.mem_cons, List.not_mem_nil, or_false] at hbyte
  · rw [hbyte]
    exact isUtf8CharBoundary_continuation _
  · rcases hbyte with rfl | rfl <;> exact isUtf8CharBoundary_continuation _
  · rcases hbyte with rfl | rfl | rfl <;> exact isUtf8CharBoundary_continuation _

/-- On a byte of a string, Rust's test and the one of `String.Pos.Raw.IsValid` agree. -/
theorem isUtf8CharBoundary_iff {message : String} {byte : UInt8} (h : byte ∈ messageBytes message) :
    isUtf8CharBoundary byte = true ↔ byte.IsUTF8FirstByte := by
  refine ⟨fun htest => ?_, isUtf8CharBoundary_first byte⟩
  rw [messageBytes_eq] at h
  obtain ⟨c, -, hbyte⟩ := List.mem_flatMap.mp h
  obtain ⟨first, rest, hsplit⟩ : ∃ first rest, String.utf8EncodeChar c = first :: rest := by
    apply List.exists_cons_of_length_pos
    rw [String.length_utf8EncodeChar]
    exact c.utf8Size_pos
  have hfirst : first.IsUTF8FirstByte := by
    have hzero := @UInt8.isUTF8FirstByte_getElem_zero_utf8EncodeChar c
    simp only [hsplit, List.getElem_cons_zero] at hzero
    exact hzero
  have htail := isUtf8CharBoundary_tail c
  rw [hsplit] at hbyte htail
  rcases List.mem_cons.mp hbyte with rfl | hmem
  · exact hfirst
  · rw [htail byte hmem] at htest
    cases htest

/-- The test of the source at an index of a string. -/
theorem isCharBoundary_eq (message : String) (index : Nat) :
    isCharBoundary (messageBytes message) index = String.Pos.Raw.isValid message ⟨index⟩ := by
  rw [Bool.eq_iff_iff, String.Pos.Raw.isValid_eq_true_iff]
  -- the start is a boundary, the end is one, between them the byte decides
  by_cases hzero : index = 0
  · subst hzero
    simp only [isCharBoundary, if_pos]
    exact iff_of_true trivial String.Pos.Raw.isValid_zero
  rw [String.Pos.Raw.isValid_iff_isUTF8FirstByte]
  simp only [isCharBoundary, if_neg hzero]
  by_cases hindex : index < (messageBytes message).length
  · have hbyte : (messageBytes message)[index] = message.getUTF8Byte ⟨index⟩ hindex := by
      rfl
    have hend : (⟨index⟩ : String.Pos.Raw) ≠ message.rawEndPos := by
      intro heq
      have hsize : index = message.utf8ByteSize := congrArg String.Pos.Raw.byteIdx heq
      rw [length_messageBytes] at hindex
      omega
    rw [List.getElem?_eq_getElem hindex]
    show isUtf8CharBoundary (messageBytes message)[index] = true ↔ _
    rw [isUtf8CharBoundary_iff (List.getElem_mem hindex), hbyte]
    constructor
    · intro hfirst
      exact Or.inr ⟨hindex, hfirst⟩
    · rintro (heq | ⟨_, hfirst⟩)
      · exact absurd heq hend
      · exact hfirst
  · have hnone : (messageBytes message)[index]? = none := by
      rw [List.getElem?_eq_none_iff]
      omega
    rw [hnone]
    simp only [decide_eq_true_eq]
    rw [length_messageBytes] at hindex ⊢
    constructor
    · intro heq
      exact Or.inl (String.Pos.Raw.ext heq)
    · rintro (heq | ⟨hlt, -⟩)
      · exact congrArg String.Pos.Raw.byteIdx heq
      · exact absurd hlt hindex

/-- The loop does not underflow and finds what `charBoundaryBelow` does. -/
theorem walkBack_eq (message : String) (n : Nat) :
    walkBack (messageBytes message) n = some (charBoundaryBelow message n) := by
  induction n with
  | zero => rfl
  | succ n ih =>
    rw [walkBack, charBoundaryBelow, isCharBoundary_eq]
    split
    · rfl
    · exact ih

/-- Two bytes of room end inside the second character. -/
example : walkBack (messageBytes "aé") 2 = some 1 := by decide +kernel

/-! ## The cut -/

/-- A position of `message` in front of which lies valid UTF-8. -/
theorem charBoundaryBelow_spec (message : String) (n : Nat) :
    charBoundaryBelow message n ≤ n ∧
    String.Pos.Raw.IsValid message ⟨charBoundaryBelow message n⟩ ∧
    ∀ k ≤ n, String.Pos.Raw.IsValid message ⟨k⟩ → k ≤ charBoundaryBelow message n := by
  induction n with
  | zero => exact ⟨Nat.le_refl 0, String.Pos.Raw.isValid_zero, fun k hk _ => hk⟩
  | succ n ih =>
    obtain ⟨hle, hvalid, hlast⟩ := ih
    rw [charBoundaryBelow]
    split
    · rename_i hhere
      rw [String.Pos.Raw.isValid_eq_true_iff] at hhere
      exact ⟨Nat.le_refl _, hhere, fun k hk _ => hk⟩
    · rename_i hhere
      rw [String.Pos.Raw.isValid_eq_true_iff] at hhere
      refine ⟨by omega, hvalid, fun k hk hposition => ?_⟩
      rcases Nat.lt_or_eq_of_le hk with hlt | rfl
      · exact hlast k (by omega) hposition
      · exact absurd hposition hhere

/-- The longest prefix of a message that is valid UTF-8 and leaves room for the NUL. -/
structure LongestPrefix (message : String) (capacity : Nat) (text : List UInt8) : Prop where
  isPrefix : text <+: messageBytes message
  valid : text.toByteArray.IsValidUTF8
  fits : text.length + 1 ≤ capacity
  longest : ∀ other : List UInt8, other <+: messageBytes message →
    other.toByteArray.IsValidUTF8 → other.length + 1 ≤ capacity → other <+: text

/-- A position is valid when the bytes before it are. -/
theorem isValid_iff_take (message : String) {k : Nat} (hk : k ≤ (messageBytes message).length) :
    String.Pos.Raw.IsValid message ⟨k⟩ ↔
      ((messageBytes message).take k).toByteArray.IsValidUTF8 := by
  have hextract : ((messageBytes message).take k).toByteArray
      = message.toByteArray.extract 0 k := by
    apply ByteArray.ext
    rw [List.data_toByteArray, ByteArray.data_extract, messageBytes]
    apply Array.ext'
    rw [Array.toList_extract, List.extract_eq_take_drop]
    rfl
  rw [String.Pos.Raw.isValid_iff_isValidUTF8_extract_zero, hextract]
  exact and_iff_right hk

/-- The cut is the longest prefix that fits. -/
theorem longestPrefix_cut (message : String) {capacity : Nat} (hcapacity : capacity ≠ 0) :
    LongestPrefix message capacity ((messageBytes message).take
      (charBoundaryBelow message (min message.utf8ByteSize (capacity - 1)))) := by
  obtain ⟨hle, hvalid, hlast⟩ :=
    charBoundaryBelow_spec message (min message.utf8ByteSize (capacity - 1))
  generalize charBoundaryBelow message (min message.utf8ByteSize (capacity - 1)) = cut at *
  have hcut : cut ≤ (messageBytes message).length := by
    rw [length_messageBytes]
    omega
  refine ⟨List.take_prefix _ _, ?_, ?_, ?_⟩
  · exact (isValid_iff_take message hcut).mp hvalid
  · rw [List.length_take]
    omega
  · intro other hother hutf8 hfits
    have htake : other = (messageBytes message).take other.length :=
      List.prefix_iff_eq_take.mp hother
    have hlength : other.length ≤ (messageBytes message).length := hother.length_le
    rw [htake] at hutf8
    have hposition := (isValid_iff_take message hlength).mpr hutf8
    rw [length_messageBytes] at hlength
    have hshort := hlast other.length (by omega) hposition
    rw [htake]
    exact List.take_prefix_take_left hshort

/-! ## The buffer -/

/-- What was copied is there. -/
theorem chars_copyChars_inside (m : Memory) (pointer k : Nat) (bytes : List UInt8) :
    (m.copyChars pointer bytes).chars (pointer + k) = bytes.getD k (m.chars (pointer + k)) := by
  show (if pointer ≤ pointer + k then bytes.getD (pointer + k - pointer) (m.chars (pointer + k))
    else m.chars (pointer + k)) = _
  rw [if_pos (Nat.le_add_right pointer k), Nat.add_sub_cancel_left]

/-- Nothing else is written. -/
theorem chars_copyChars_outside (m : Memory) {pointer address : Nat} {bytes : List UInt8}
    (h : address < pointer ∨ pointer + bytes.length ≤ address) :
    (m.copyChars pointer bytes).chars address = m.chars address := by
  show (if pointer ≤ address then bytes.getD (address - pointer) (m.chars address)
    else m.chars address) = _
  split
  · exact List.getD_eq_default _ _ (by omega)
  · rfl

/-- **Error messages in C buffers are safe.** A null pointer or an empty buffer is left alone.
Any other buffer starts with the longest prefix of the message that is valid UTF-8 and fits, then
one NUL, and nothing else in the caller's memory is written. The loop that looks for the cut ends
at the prefix's length and does not underflow. -/
theorem writeErrorBuffer_safe (m : Memory) (pointer capacity : Nat) (message : String) :
    (pointer = 0 ∨ capacity = 0 → m.writeErrorBuffer pointer capacity message = m) ∧
    (pointer ≠ 0 → capacity ≠ 0 → ∃ text,
      walkBack (messageBytes message) (min (messageBytes message).length (capacity - 1))
        = some text.length ∧
      LongestPrefix message capacity text ∧
      m.writeErrorBuffer pointer capacity message = m.copyChars pointer (text ++ [0]) ∧
      (∀ k (hk : k < text.length),
        (m.writeErrorBuffer pointer capacity message).chars (pointer + k) = text[k]) ∧
      (m.writeErrorBuffer pointer capacity message).chars (pointer + text.length) = 0 ∧
      (∀ k < text.length, (m.writeErrorBuffer pointer capacity message).chars (pointer + k) = 0 →
        (messageBytes message)[k]? = some 0) ∧
      ∀ address, address < pointer ∨ pointer + text.length < address →
        (m.writeErrorBuffer pointer capacity message).chars address = m.chars address) := by
  constructor
  · intro h
    exact if_pos h
  intro hpointer hcapacity
  have hprefix := longestPrefix_cut message hcapacity
  have hloop := walkBack_eq message (min message.utf8ByteSize (capacity - 1))
  have hbelow := (charBoundaryBelow_spec message (min message.utf8ByteSize (capacity - 1))).1
  -- the text that is copied is the prefix the loop finds
  have hwrite : m.writeErrorBuffer pointer capacity message = m.copyChars pointer
      ((messageBytes message).take
        (charBoundaryBelow message (min message.utf8ByteSize (capacity - 1))) ++ [0]) := by
    rw [Memory.writeErrorBuffer, if_neg (by omega)]
    rfl
  have hlength : ((messageBytes message).take
      (charBoundaryBelow message (min message.utf8ByteSize (capacity - 1)))).length
        = charBoundaryBelow message (min message.utf8ByteSize (capacity - 1)) := by
    rw [List.length_take, length_messageBytes]
    omega
  rw [← hlength] at hloop
  generalize (messageBytes message).take
    (charBoundaryBelow message (min message.utf8ByteSize (capacity - 1))) = text at *
  -- below the terminator the buffer holds the text
  have hchars : ∀ k (hk : k < text.length),
      (m.writeErrorBuffer pointer capacity message).chars (pointer + k) = text[k] := by
    intro k hk
    rw [hwrite, chars_copyChars_inside, List.getD_append _ _ _ _ hk, List.getD_eq_getElem _ _ hk]
  refine ⟨text, hloop, hprefix, hwrite, hchars, ?_, ?_, ?_⟩
  · rw [hwrite, chars_copyChars_inside, List.getD_append_right _ _ _ _ (Nat.le_refl _),
      Nat.sub_self]
    rfl
  · intro k hk hnul
    rw [hchars k hk, hprefix.isPrefix.getElem hk] at hnul
    rw [List.getElem?_eq_getElem (Nat.lt_of_lt_of_le hk hprefix.isPrefix.length_le), hnul]
  · intro address houtside
    rw [hwrite]
    apply chars_copyChars_outside
    rw [List.length_append, List.length_singleton]
    omega

end Qwen3Tts.Runtime
