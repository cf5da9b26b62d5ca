import Mathlib.Algebra.Ring.Nat
import Qwen3Tts.Lib.Chunks
import Qwen3Tts.Lib.Fallible
import Qwen3Tts.Lib.Json

/-!
# Lib — bytes as lower-case hexadecimal text

`encode` writes two digits for each byte, the high half first; `decode` reads the bytes of such a
text two at a time. `decode_encode` is the round trip, `isLowerDigit_encode` says that the text
passes a check for lower-case digits.
-/

namespace Qwen3Tts.Lib.Hex

/-- The digit of a half byte. -/
def digit (n : Nat) : Char := if n < 10 then Char.ofNat (0x30 + n) else Char.ofNat (0x57 + n)

/-- Two lower-case digits for each byte. -/
def encode (bytes : List UInt8) : List Char :=
  bytes.flatMap fun byte => [digit (byte.toNat / 16), digit (byte.toNat % 16)]

/-- `u8::is_ascii_hexdigit` and not `u8::is_ascii_uppercase`. -/
def isLowerDigit (byte : UInt8) : Bool :=
  (0x30 ≤ byte && byte ≤ 0x39) || (0x61 ≤ byte && byte ≤ 0x66)

/-- The value of a digit, in either case. -/
def digitValue (byte : UInt8) : Option Nat :=
  if 0x30 ≤ byte ∧ byte ≤ 0x39 then some (byte.toNat - 0x30)
  else if 0x61 ≤ byte ∧ byte ≤ 0x66 then some (byte.toNat - 0x57)
  else if 0x41 ≤ byte ∧ byte ≤ 0x46 then some (byte.toNat - 0x37)
  else none

/-- Two digits. -/
def pairValue (pair : List UInt8) : Option UInt8 := do
  let high ← digitValue (← pair[0]?)
  let low ← digitValue (← pair[1]?)
  return UInt8.ofNat (16 * high + low)

/-- The bytes of pairs of digits. -/
def decode (text : List UInt8) : Option (List UInt8) := (asChunks 2 text).1.mapM pairValue

/-! ## The round trip -/

/-- A digit is one byte and reads back as its value. -/
theorem utf8_digit {n : Nat} (hn : n < 16) :
    String.utf8EncodeChar (digit n) = [UInt8.ofNat (digit n).toNat]
      ∧ isLowerDigit (UInt8.ofNat (digit n).toNat) = true
      ∧ digitValue (UInt8.ofNat (digit n).toNat) = some n := by
  have hall : ∀ n < 16, String.utf8EncodeChar (digit n) = [UInt8.ofNat (digit n).toNat]
      ∧ isLowerDigit (UInt8.ofNat (digit n).toNat) = true
      ∧ digitValue (UInt8.ofNat (digit n).toNat) = some n := by decide
  exact hall n hn

theorem half_lt (byte : UInt8) : byte.toNat / 16 < 16 ∧ byte.toNat % 16 < 16 := by
  have hlt := byte.toNat_lt
  omega

theorem utf8_encode_cons (byte : UInt8) (bytes : List UInt8) :
    utf8 (encode (byte :: bytes))
      = [UInt8.ofNat (digit (byte.toNat / 16)).toNat, UInt8.ofNat (digit (byte.toNat % 16)).toNat]
        ++ utf8 (encode bytes) := by
  show utf8 ([digit (byte.toNat / 16), digit (byte.toNat % 16)] ++ encode bytes) = _
  rw [utf8, List.flatMap_append, List.flatMap_cons, List.flatMap_cons, List.flatMap_nil,
    (utf8_digit (half_lt byte).1).1, (utf8_digit (half_lt byte).2).1]
  rfl

/-- The text is twice as long as the bytes. -/
theorem length_utf8_encode (bytes : List UInt8) :
    (utf8 (encode bytes)).length = 2 * bytes.length := by
  induction bytes with
  | nil => rfl
  | cons byte bytes ih =>
    rw [utf8_encode_cons, List.length_append, ih, List.length_cons, List.length_cons,
      List.length_cons, List.length_nil]
    omega

/-- Every character is a lower-case digit. -/
theorem isLowerDigit_encode (bytes : List UInt8) :
    (utf8 (encode bytes)).all isLowerDigit = true := by
  induction bytes with
  | nil => rfl
  | cons byte bytes ih =>
    rw [utf8_encode_cons, List.all_append, ih, List.all_cons, List.all_cons, List.all_nil,
      (utf8_digit (half_lt byte).1).2.1, (utf8_digit (half_lt byte).2).2.1]
    rfl

/-- Two digits of a byte are the byte. -/
theorem pairValue_digits (byte : UInt8) :
    pairValue [UInt8.ofNat (digit (byte.toNat / 16)).toNat,
      UInt8.ofNat (digit (byte.toNat % 16)).toNat] = some byte := by
  have hjoin : 16 * (byte.toNat / 16) + byte.toNat % 16 = byte.toNat := by omega
  unfold pairValue
  show ((digitValue (UInt8.ofNat (digit (byte.toNat / 16)).toNat)).bind fun high =>
    (digitValue (UInt8.ofNat (digit (byte.toNat % 16)).toNat)).bind fun low =>
      some (UInt8.ofNat (16 * high + low))) = some byte
  rw [(utf8_digit (half_lt byte).1).2.2, (utf8_digit (half_lt byte).2).2.2]
  show some (UInt8.ofNat (16 * (byte.toNat / 16) + byte.toNat % 16)) = some byte
  rw [hjoin, UInt8.ofNat_toNat]

/-- **What was written is read back.** -/
theorem decode_encode (bytes : List UInt8) : decode (utf8 (encode bytes)) = some bytes := by
  induction bytes with
  | nil => rfl
  | cons byte bytes ih =>
    unfold decode at ih ⊢
    rw [utf8_encode_cons, asChunks_cons (by decide) (by rfl), List.mapM_cons, pairValue_digits, ih]
    rfl

end Qwen3Tts.Lib.Hex
