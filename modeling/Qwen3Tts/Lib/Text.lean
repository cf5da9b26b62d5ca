import Mathlib.Data.List.Basic

/-!
# Lib — texts

A text is the list of its characters. Its bytes are those of UTF-8, and white space is what Unicode
says it is.
-/

namespace Qwen3Tts.Lib

abbrev Text := List Char

/-- `str::as_bytes`. -/
def utf8 (text : Text) : List UInt8 := text.flatMap String.utf8EncodeChar

theorem utf8_append (a b : Text) : utf8 (a ++ b) = utf8 a ++ utf8 b := List.flatMap_append

/-- `char::is_whitespace`, the `White_Space` property. -/
def isWhitespace (c : Char) : Bool :=
  let n := c.toNat
  (0x9 ≤ n && n ≤ 0xd) || n == 0x20 || n == 0x85 || n == 0xa0 || n == 0x1680 ||
    (0x2000 ≤ n && n ≤ 0x200a) || n == 0x2028 || n == 0x2029 || n == 0x202f || n == 0x205f ||
    n == 0x3000

/-- `str::split_whitespace`. -/
def splitWhitespace (text : Text) : List Text :=
  (text.splitOnP isWhitespace).filter (· ≠ [])

end Qwen3Tts.Lib
