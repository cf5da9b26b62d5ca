import Qwen3Tts.Bench.Http
import Qwen3Tts.Lib.Delimiter
import Qwen3Tts.Lib.Json

/-!
# Bench — the text of a response head

The string functions of the parser on texts that were written for it: lines without a carriage
return are split again, and the blank line stands behind them and nowhere before
(`splitCrLf_intercalate`, `firstAt_intercalate`); a numeral is read back (`fromStrRadix_numeral`);
blanks around a value are trimmed (`trimText_blanks`).
-/

namespace Qwen3Tts.Bench

open Qwen3Tts.Lib Qwen3Tts.Server

/-! ## UTF-8 -/

/-- A text is read back. -/
theorem fromUtf8_utf8 (text : Text) : fromUtf8 (utf8 text) = some text := by
  have hbytes : (utf8 text).toByteArray = text.utf8Encode := rfl
  rw [fromUtf8, hbytes, List.utf8Decode?_utf8Encode]
  rfl

/-- A byte below 128 stands for its own character only. -/
theorem not_mem_utf8 {c : Char} {byte : UInt8} {text : Text} (hbyte : byte.toNat < 128)
    (hc : c.toNat = byte.toNat) (h : c ∉ text) : byte ∉ utf8 text := by
  intro hmem
  obtain ⟨d, hd, hin⟩ := List.mem_flatMap.mp hmem
  have hsame : d = c := by
    apply Char.ext
    apply UInt32.toNat_inj.mp
    exact (Json.eq_of_mem_utf8EncodeChar hbyte hin).trans hc.symm
  exact h (hsame ▸ hd)

/-- The end of a line is ASCII. -/
theorem utf8_crlf : utf8 ['\r', '\n'] = crlf := by decide

/-- A character takes at least one byte. -/
theorem utf8_ne_nil {text : Text} (h : text ≠ []) : utf8 text ≠ [] := by
  obtain ⟨c, rest, rfl⟩ := List.exists_cons_of_ne_nil h
  have hsize : 0 < (String.utf8EncodeChar c).length := by
    rw [String.length_utf8EncodeChar]
    exact c.utf8Size_pos
  rw [utf8, List.flatMap_cons]
  exact fun hnil => absurd (List.append_eq_nil_iff.mp hnil).1 (List.ne_nil_of_length_pos hsize)

/-! ## Lines -/

/-- The parser's lines are the writer's. -/
theorem splitCrLf_intercalate {line : Text} {lines : List Text} (hline : '\r' ∉ line)
    (hlines : ∀ l ∈ lines, '\r' ∉ l) :
    splitCrLf (List.intercalate ['\r', '\n'] (line :: lines)) = line :: lines := by
  -- a text without a return goes to the front of the next line
  have hfront : ∀ {line : Text} (rest : Text) {first : Text} {others : List Text}, '\r' ∉ line →
      splitCrLf rest = first :: others →
      splitCrLf (line ++ rest) = (line ++ first) :: others := by
    intro line rest first others hline hrest
    induction line with
    | nil => exact hrest
    | cons c line ih =>
      have hc : c ≠ '\r' := fun heq => hline (heq ▸ List.mem_cons_self)
      have htail := ih fun h => hline (List.mem_cons_of_mem c h)
      rw [List.cons_append, splitCrLf, htail]
      · rfl
      · intro tail heq
        exact absurd heq hc
  induction lines generalizing line with
  | nil =>
    have hend := hfront [] hline rfl
    rw [List.append_nil] at hend
    rw [List.intercalate_singleton]
    exact hend
  | cons next lines ih =>
    have hrest := ih (hlines next List.mem_cons_self) fun l hl =>
      hlines l (List.mem_cons_of_mem next hl)
    rw [List.intercalate_cons_cons, List.append_assoc]
    -- and the line end starts a new one
    have hbreak : splitCrLf (['\r', '\n'] ++ List.intercalate ['\r', '\n'] (next :: lines))
        = [] :: next :: lines := by
      show splitCrLf ('\r' :: '\n' :: List.intercalate ['\r', '\n'] (next :: lines)) = _
      rw [splitCrLf, hrest]
    rw [hfront _ hline hbreak, List.append_nil]

/-- The blank line is behind the last line and nowhere before. -/
theorem firstAt_intercalate {line : Text} {lines : List Text} (rest : Bytes)
    (hlines : ∀ l ∈ line :: lines, l ≠ [] ∧ '\r' ∉ l) :
    firstAt headEnd (utf8 (List.intercalate ['\r', '\n'] (line :: lines)) ++ (headEnd ++ rest))
      = some (utf8 (List.intercalate ['\r', '\n'] (line :: lines))).length := by
  have hheadEnd : headEnd = 0x0d :: [0x0a, 0x0d, 0x0a] := rfl
  have hreturn : ∀ {l : Text}, l ∈ line :: lines → 0x0d ∉ utf8 l :=
    fun hl => not_mem_utf8 (by decide) (by decide) (hlines _ hl).2
  induction lines generalizing line with
  | nil =>
    rw [List.intercalate_singleton, hheadEnd, firstAt_skip (hreturn List.mem_cons_self)]
    show (firstAt (0x0d :: [0x0a, 0x0d, 0x0a]) (0x0d :: ([0x0a, 0x0d, 0x0a] ++ rest))).map _ = _
    rw [firstAt_here ⟨rest, rfl⟩]
    rfl
  | cons next lines ih =>
    have hrest := @ih next (fun l hl => hlines l (List.mem_cons_of_mem line hl))
      (fun hl => hreturn (List.mem_cons_of_mem line hl))
    generalize hjoined : utf8 (List.intercalate ['\r', '\n'] (next :: lines)) = joined at hrest
    -- behind the line break stands a byte of the next line
    have hnext : ∃ byte tail, joined ++ (headEnd ++ rest) = byte :: tail ∧ byte ≠ 0x0d := by
      have hmem : next ∈ line :: next :: lines := List.mem_cons_of_mem line List.mem_cons_self
      obtain ⟨byte, tail, hencode⟩ :=
        List.exists_cons_of_ne_nil (utf8_ne_nil (hlines next hmem).1)
      have hbyte : byte ≠ 0x0d := by
        rintro rfl
        apply hreturn hmem
        rw [hencode]
        exact List.mem_cons_self
      have hstart : ∃ more, joined = byte :: more := by
        rw [← hjoined]
        cases lines with
        | nil =>
          rw [List.intercalate_singleton, hencode]
          exact ⟨tail, rfl⟩
        | cons other lines =>
          rw [List.intercalate_cons_cons, List.append_assoc, utf8_append, hencode]
          exact ⟨_, rfl⟩
      obtain ⟨more, hmore⟩ := hstart
      exact ⟨byte, more ++ (headEnd ++ rest), by rw [hmore]; rfl, hbyte⟩
    obtain ⟨byte, tail, hbytes, hbyte⟩ := hnext
    rw [List.intercalate_cons_cons, utf8_append, utf8_append, utf8_crlf, hjoined]
    rw [List.append_assoc, List.append_assoc, hheadEnd, firstAt_skip (hreturn List.mem_cons_self),
      ← hheadEnd, hbytes]
    have hmiss : ¬ headEnd <+: 0x0d :: 0x0a :: byte :: tail := by
      rw [hheadEnd, List.cons_prefix_cons, List.cons_prefix_cons, List.cons_prefix_cons]
      exact fun heq => hbyte heq.2.2.1.symm
    have hmiss' : ¬ headEnd <+: 0x0a :: byte :: tail := by
      rw [hheadEnd, List.cons_prefix_cons]
      exact fun heq => absurd heq.1 (by decide)
    show (firstAt headEnd (0x0d :: 0x0a :: byte :: tail)).map _ = _
    rw [firstAt_miss hmiss, firstAt_miss hmiss', ← hbytes, hrest, List.length_append,
      List.length_append]
    show some ((utf8 line).length + (joined.length + 1 + 1)) = _
    have htwo : crlf.length = 2 := rfl
    congr 1
    omega

/-! ## Numerals -/

/-- The number that digits denote, the first one first. -/
def numeral (radix : Nat) (digits : List Nat) : Nat :=
  digits.foldl (fun value digit => value * radix + digit) 0

/-- More digits make no smaller number. -/
theorem le_foldl_digits {radix : Nat} (hradix : 1 ≤ radix) (digits : List Nat) (value : Nat) :
    value ≤ digits.foldl (fun value digit => value * radix + digit) value := by
  induction digits generalizing value with
  | nil => exact Nat.le_refl value
  | cons digit digits ih =>
    calc value ≤ value * radix := Nat.le_mul_of_pos_right value hradix
      _ ≤ value * radix + digit := Nat.le_add_right _ _
      _ ≤ _ := ih (value * radix + digit)

section
variable {δ : Type} {digits : List δ} {render : δ → Char} {value : δ → Nat} {radix bits : Nat}

/-- The checked loop does not overflow on the way to a number that fits. -/
theorem foldlM_digits (hradix : 1 ≤ radix)
    (hdigit : ∀ d ∈ digits, toDigit radix (render d) = some (value d)) (start : Nat)
    (hfits : (digits.map value).foldl (fun n d => n * radix + d) start < 2 ^ bits) :
    (digits.map render).foldlM (fun n c => do
        let digit ← toDigit radix c
        if n * radix + digit < 2 ^ bits then some (n * radix + digit) else none) start
      = some ((digits.map value).foldl (fun n d => n * radix + d) start) := by
  induction digits generalizing start with
  | nil => rfl
  | cons d digits ih =>
    have hprefix := le_foldl_digits hradix (digits.map value) (start * radix + value d)
    rw [List.map_cons, List.foldl_cons] at hfits
    rw [List.map_cons, List.foldlM_cons, hdigit d List.mem_cons_self]
    show (if start * radix + value d < 2 ^ bits then some (start * radix + value d) else none) >>= _
      = _
    rw [if_pos (Nat.lt_of_le_of_lt hprefix hfits)]
    exact ih (fun d' hd' => hdigit d' (List.mem_cons_of_mem d hd')) _ hfits

/-- Digits that fit are read as their number. -/
theorem fromStrRadix_numeral (hradix : 1 ≤ radix) (hsome : digits ≠ [])
    (hdigit : ∀ d ∈ digits, toDigit radix (render d) = some (value d))
    (hplus : ∀ d ∈ digits, render d ≠ '+') (hfits : numeral radix (digits.map value) < 2 ^ bits) :
    fromStrRadix radix bits (digits.map render) = some (numeral radix (digits.map value)) := by
  have hhead : (digits.map render).head? ≠ some '+' := by
    intro h
    obtain ⟨d, hd, heq⟩ := List.mem_map.mp (List.mem_of_mem_head? h)
    exact hplus d hd heq
  unfold fromStrRadix
  dsimp only
  rw [if_neg hhead, if_neg (fun h => hsome (List.map_eq_nil_iff.mp h))]
  exact foldlM_digits hradix hdigit 0 hfits

end

/-- A digit as a character. -/
def decimalDigit (d : Fin 10) : Char := Char.ofNat (48 + d)

/-- A digit and whether it is written in upper case. -/
def hexDigit (d : Fin 16 × Bool) : Char :=
  if d.1 < 10 then Char.ofNat (48 + d.1) else Char.ofNat ((if d.2 then 55 else 87) + d.1)

/-- It is read back. -/
theorem toDigit_decimalDigit : ∀ d : Fin 10, toDigit 10 (decimalDigit d) = some d.1 := by decide

theorem toDigit_hexDigit (d : Fin 16 × Bool) : toDigit 16 (hexDigit d) = some d.1.1 := by
  have hall : ∀ (n : Fin 16) (upper : Bool), toDigit 16 (hexDigit (n, upper)) = some n.1 := by
    decide
  exact hall d.1 d.2

/-! ## Blanks -/

def blank (c : Char) : Bool := c = ' ' ∨ c = '\t'

theorem isWhitespace_of_blank {c : Char} (h : blank c = true) : isWhitespace c = true := by
  rcases of_decide_eq_true h with rfl | rfl <;> decide

theorem dropWhile_blanks {before rest : Text} (hbefore : ∀ c ∈ before, blank c = true)
    (hrest : ∀ c ∈ rest.head?, isWhitespace c = false) :
    (before ++ rest).dropWhile isWhitespace = rest := by
  rw [List.dropWhile_append_of_pos fun c hc => isWhitespace_of_blank (hbefore c hc)]
  cases rest with
  | nil => rfl
  | cons c rest =>
    rw [List.dropWhile_cons_of_neg]
    rw [hrest c rfl]
    decide

/-- Blanks on either side of a value without any are trimmed. -/
theorem trimText_blanks {before value after : Text} (hbefore : ∀ c ∈ before, blank c = true)
    (hafter : ∀ c ∈ after, blank c = true) (hvalue : ∀ c ∈ value, isWhitespace c = false)
    (hsome : value ≠ []) : trimText (before ++ value ++ after) = value := by
  have hfirst : ∀ c ∈ (value ++ after).head?, isWhitespace c = false := by
    intro c hc
    rw [List.head?_append_of_ne_nil _ hsome] at hc
    exact hvalue c (List.mem_of_mem_head? hc)
  have hlast : ∀ c ∈ value.reverse.head?, isWhitespace c = false := by
    intro c hc
    exact hvalue c (List.mem_reverse.mp (List.mem_of_mem_head? hc))
  rw [trimText, List.append_assoc, dropWhile_blanks hbefore hfirst, List.reverse_append,
    dropWhile_blanks (fun c hc => hafter c (List.mem_reverse.mp hc)) hlast, List.reverse_reverse]

end Qwen3Tts.Bench
