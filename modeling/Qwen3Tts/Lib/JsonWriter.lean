import Mathlib.Data.Nat.Digits.Lemmas
import Qwen3Tts.Lib.Json

/-!
# Lib — writing JSON

The forms a compact writer chooses: a character stands for itself where it may, has its short
escape where there is one, and is a code unit in lower-case digits otherwise. A string denotes the
text it was written from (`Str.value_ofString`).
-/

namespace Qwen3Tts.Lib.Json

/-- A code unit below `0x100`. -/
def CodeUnit.byte (n : Nat) : CodeUnit where
  first := ⟨0, false⟩
  second := ⟨0, false⟩
  third := ⟨Fin.ofNat 16 (n / 16), false⟩
  fourth := ⟨Fin.ofNat 16 n, false⟩

theorem CodeUnit.value_byte (n : Nat) : (CodeUnit.byte n).value = n % 256 := by
  show ((0 * 16 + 0) * 16 + n / 16 % 16) * 16 + n % 16 = n % 256
  omega

theorem CodeUnit.byte_scalar (n : Nat) : (CodeUnit.byte n).value.isValidChar := by
  rw [value_byte]
  left
  omega

/-- A character in a string. -/
def Written.ofChar (c : Char) : Written :=
  if h : 0x20 ≤ c.toNat ∧ c ≠ '"' ∧ c ≠ '\\' then .literal c h
  else if c = '"' then .short .quote
  else if c = '\\' then .short .backslash
  else if c = '\x08' then .short .backspace
  else if c = '\t' then .short .tab
  else if c = '\n' then .short .newline
  else if c = '\x0C' then .short .formFeed
  else if c = '\r' then .short .carriageReturn
  else .unit (.byte c.toNat) (CodeUnit.byte_scalar _)

/-- Writing a character and reading it gives the character. -/
theorem Written.char_ofChar (c : Char) : (Written.ofChar c).char = c := by
  unfold Written.ofChar
  split
  · rfl
  · rename_i hplain
    split_ifs with hquote hbackslash _ _ _ _ _
    all_goals try exact Eq.symm ‹c = _›
    have hlow : c.toNat < 0x20 := by
      by_contra hhigh
      exact hplain ⟨Nat.le_of_not_lt hhigh, hquote, hbackslash⟩
    show Char.ofNat (CodeUnit.byte c.toNat).value = c
    rw [CodeUnit.value_byte, Nat.mod_eq_of_lt (by omega), Char.ofNat_toNat]

def Str.ofString (text : String) : Str := text.toList.map Written.ofChar

/-- Writing a string and reading it gives the string. -/
@[simp] theorem Str.value_ofString (text : String) : (Str.ofString text).value = text := by
  have hchars : (Str.ofString text).chars = text.toList := by
    unfold Str.chars Str.ofString
    rw [List.map_map]
    exact (List.map_congr_left fun c _ => Written.char_ofChar c).trans (List.map_id _)
  rw [Str.value, hchars, String.ofList_toList]

/-- The digits of a number, most significant first. -/
def decimal (n : Nat) : List (Fin 10) :=
  if n = 0 then [0] else (Nat.digits 10 n).reverse.map (Fin.ofNat 10)

/-- A number has at least one digit. -/
theorem decimal_ne_nil (n : Nat) : decimal n ≠ [] := by
  unfold decimal
  split
  · exact List.cons_ne_nil _ _
  · rename_i hpos
    simpa [Nat.digits_eq_nil_iff_eq_zero] using hpos

/-- Only zero starts with the digit zero. -/
theorem head_decimal {n : Nat} (h : (decimal n).head? = some 0) : (decimal n).length = 1 := by
  unfold decimal at h ⊢
  split at h
  · rename_i hzero
    rw [if_pos hzero]
    rfl
  · rename_i hpos
    have hsome : Nat.digits 10 n ≠ [] := Nat.digits_ne_nil_iff_ne_zero.mpr hpos
    rw [List.head?_map, List.head?_reverse, List.getLast?_eq_some_getLast hsome] at h
    have hlast := Nat.getLast_digit_ne_zero 10 hpos
    have hlt := Nat.digits_lt_base (by decide : 1 < 10) (List.getLast_mem hsome)
    have hzero : (Nat.digits 10 n).getLast hsome % 10 = 0 := congrArg Fin.val (Option.some.inj h)
    rw [Nat.mod_eq_of_lt hlt] at hzero
    exact absurd hzero hlast

def Number.ofNat (n : Nat) : Number where
  negative := false
  whole := decimal n
  whole_ne_nil := decimal_ne_nil n
  no_leading_zero := head_decimal
  fraction := []
  exponent := none

def Document.ofString (text : String) : Document := .string (.ofString text)

def Document.ofNat (n : Nat) : Document := .number (.ofNat n)

/-- The members of an object. -/
def Document.record (members : List (String × Document)) : Document :=
  .object (members.map fun member => (.ofString member.1, member.2))

end Qwen3Tts.Lib.Json
