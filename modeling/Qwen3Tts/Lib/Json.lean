import Mathlib.Algebra.Ring.Nat
import Mathlib.Data.List.Basic
import Mathlib.Tactic.Common
import Qwen3Tts.Lib.Text

/-!
# Lib — JSON documents as they are written

A document without insignificant whitespace, with everything its writer is free to choose: each
character of a string stands for itself or is escaped, in any of the forms that denote it, and a
number has the digits it was given. A string takes as many bytes as the characters it denotes and
its escapes add (`Str.utf8Length_text`).
-/

namespace Qwen3Tts.Lib.Json

/-- How many bytes a text takes. -/
def utf8Length (text : List Char) : Nat := (text.map Char.utf8Size).sum

@[simp] theorem utf8Length_nil : utf8Length [] = 0 := rfl

@[simp] theorem utf8Length_cons (c : Char) (text : List Char) :
    utf8Length (c :: text) = c.utf8Size + utf8Length text := by
  rw [utf8Length, List.map_cons, List.sum_cons, utf8Length]

@[simp] theorem utf8Length_append (a b : List Char) :
    utf8Length (a ++ b) = utf8Length a + utf8Length b := by
  rw [utf8Length, List.map_append, List.sum_append, utf8Length, utf8Length]

/-- The encoding of a text has its length. -/
theorem length_utf8 (text : List Char) : (utf8 text).length = utf8Length text := by
  induction text with
  | nil => rfl
  | cons c text ih =>
    rw [utf8, List.flatMap_cons, List.length_append, String.length_utf8EncodeChar,
      utf8Length_cons]
    exact congrArg (c.utf8Size + ·) ih

theorem utf8ByteSize_ofList (text : List Char) :
    (String.ofList text).utf8ByteSize = utf8Length text := by
  have hbytes : (utf8 text).toByteArray = text.utf8Encode := rfl
  rw [← length_utf8]
  show (String.ofList text).toByteArray.size = _
  rw [String.toByteArray_ofList, ← hbytes, List.size_toByteArray]

/-- An ASCII byte stands for its own character only. -/
theorem eq_of_mem_utf8EncodeChar {c : Char} {byte : UInt8} (hbyte : byte.toNat < 128)
    (h : byte ∈ String.utf8EncodeChar c) : c.toNat = byte.toNat := by
  have hof : ∀ n : Nat, byte = UInt8.ofNat n → byte.toNat = n % 256 := by
    intro n heq
    rw [heq, UInt8.toNat_ofNat']
  unfold String.utf8EncodeChar at h
  dsimp only at h
  split at h
  · rename_i hone
    have hvalue := hof _ (List.mem_singleton.mp h)
    show c.val.toNat = byte.toNat
    omega
  · -- every byte of a longer encoding has its top bit set
    exfalso
    split at h
    · simp only [List.mem_cons, List.not_mem_nil, or_false] at h
      rcases h with h | h <;> have hvalue := hof _ h <;> omega
    · split at h <;> simp only [List.mem_cons, List.not_mem_nil, or_false] at h
      · rcases h with h | h | h <;> have hvalue := hof _ h <;> omega
      · rcases h with h | h | h | h <;> have hvalue := hof _ h <;> omega

/-! ## Strings -/

-- A literal digit then names its bound's proof and makes none of its own.
instance neZero_ten : NeZero 10 := ⟨by decide⟩

instance neZero_sixteen : NeZero 16 := ⟨by decide⟩

/-- A hexadecimal digit, in either case. -/
structure HexDigit where
  value : Fin 16
  upper : Bool

def HexDigit.char (d : HexDigit) : Char :=
  if d.value < 10 then Char.ofNat (0x30 + d.value)
  else Char.ofNat ((if d.upper then 0x41 else 0x61) + (d.value - 10))

/-- The four digits behind `\u`, a UTF-16 code unit. -/
structure CodeUnit where
  first : HexDigit
  second : HexDigit
  third : HexDigit
  fourth : HexDigit

namespace CodeUnit

def value (u : CodeUnit) : Nat :=
  ((u.first.value * 16 + u.second.value) * 16 + u.third.value) * 16 + u.fourth.value

def text (u : CodeUnit) : List Char :=
  ['\\', 'u', u.first.char, u.second.char, u.third.char, u.fourth.char]

/-- A code unit has sixteen bits. -/
theorem value_lt (u : CodeUnit) : u.value < 0x10000 := by
  unfold value
  omega

end CodeUnit

/-- The escapes of two characters. -/
inductive ShortEscape where
  | quote | backslash | slash | backspace | formFeed | newline | carriageReturn | tab
  deriving DecidableEq, Repr

def ShortEscape.letter : ShortEscape → Char
  | .quote => '"'
  | .backslash => '\\'
  | .slash => '/'
  | .backspace => 'b'
  | .formFeed => 'f'
  | .newline => 'n'
  | .carriageReturn => 'r'
  | .tab => 't'

def ShortEscape.char : ShortEscape → Char
  | .quote => '"'
  | .backslash => '\\'
  | .slash => '/'
  | .backspace => '\x08'
  | .formFeed => '\x0C'
  | .newline => '\n'
  | .carriageReturn => '\r'
  | .tab => '\t'

/-- One character of a string, in a form that denotes it. -/
inductive Written where
  | literal (c : Char) (plain : 0x20 ≤ c.toNat ∧ c ≠ '"' ∧ c ≠ '\\')
  | short (e : ShortEscape)
  | unit (u : CodeUnit) (scalar : u.value.isValidChar)
  /-- A surrogate pair. -/
  | pair (high low : CodeUnit) (leads : 0xD800 ≤ high.value ∧ high.value < 0xDC00)
      (trails : 0xDC00 ≤ low.value ∧ low.value < 0xE000)

namespace Written

/-- The character that is denoted. -/
def char : Written → Char
  | .literal c _ => c
  | .short e => e.char
  | .unit u _ => Char.ofNat u.value
  | .pair high low _ _ =>
    Char.ofNat (0x10000 + (high.value - 0xD800) * 0x400 + (low.value - 0xDC00))

def text : Written → List Char
  | .literal c _ => [c]
  | .short e => ['\\', e.letter]
  | .unit u _ => u.text
  | .pair high low _ _ => high.text ++ low.text

/-- The bytes it takes beyond those of the character: an escape of six bytes stands for a
character of one, two or three, and a surrogate pair of twelve for one of four. -/
def expansion : Written → Nat
  | .literal _ _ => 0
  | .short _ => 1
  | .unit u _ => if u.value ≤ 0x7F then 5 else if u.value ≤ 0x7FF then 4 else 3
  | .pair _ _ _ _ => 8

end Written

/-- A string between its quotes. -/
abbrev Str := List Written

namespace Str

/-- The characters that are denoted. -/
def chars (s : Str) : List Char := s.map Written.char

def value (s : Str) : String := .ofList s.chars

def text (s : Str) : List Char := s.flatMap Written.text

def expansion (s : Str) : Nat := (s.map Written.expansion).sum

/-- The string with its quotes. -/
def quoted (s : Str) : List Char := '"' :: s.text ++ ['"']

/-- The characters of a text that need no escape, each as itself. -/
def plain (text : List Char) : Str :=
  text.filterMap fun c =>
    if h : 0x20 ≤ c.toNat ∧ c ≠ '"' ∧ c ≠ '\\' then some (.literal c h) else none

end Str

/-! ### Sizes -/

theorem utf8Size_eq (c : Char) :
    c.utf8Size = if c.toNat ≤ 0x7F then 1 else if c.toNat ≤ 0x7FF then 2
      else if c.toNat ≤ 0xFFFF then 3 else 4 := by
  unfold Char.utf8Size
  simp only [UInt32.le_iff_toNat_le]
  rfl

theorem toNat_ofNat {n : Nat} (h : n.isValidChar) : (Char.ofNat n).toNat = n := by
  rw [Char.ofNat, dif_pos h]
  rfl

theorem HexDigit.utf8Size_char (d : HexDigit) : d.char.utf8Size = 1 := by
  have hall : ∀ (value : Fin 16) (upper : Bool),
      (HexDigit.char ⟨value, upper⟩).utf8Size = 1 := by decide
  exact hall d.value d.upper

/-- A code unit is written with six bytes. -/
theorem CodeUnit.utf8Length_text (u : CodeUnit) : utf8Length u.text = 6 := by
  rw [CodeUnit.text]
  simp only [utf8Length_cons, utf8Length_nil, HexDigit.utf8Size_char]
  decide

namespace Written

/-- A surrogate pair denotes a character above `U+FFFF`. -/
theorem toNat_pair (high low : CodeUnit) (leads : 0xD800 ≤ high.value ∧ high.value < 0xDC00)
    (trails : 0xDC00 ≤ low.value ∧ low.value < 0xE000) :
    (pair high low leads trails).char.toNat
      = 0x10000 + (high.value - 0xD800) * 0x400 + (low.value - 0xDC00) := by
  apply toNat_ofNat
  right
  omega

/-- An escape takes the bytes of its character and those the table of `expansion` names. -/
theorem utf8Length_text (w : Written) : utf8Length w.text = w.char.utf8Size + w.expansion := by
  cases w with
  | literal c plain =>
    show utf8Length [c] = c.utf8Size + 0
    rw [utf8Length_cons, utf8Length_nil]
  | short e => cases e <;> decide
  | unit u scalar =>
    show utf8Length u.text = (Char.ofNat u.value).utf8Size + _
    have hbelow := u.value_lt
    rw [u.utf8Length_text, utf8Size_eq, toNat_ofNat scalar, expansion]
    split
    · rfl
    · split
      · rfl
      · rw [if_pos (by omega)]
  | pair high low leads trails =>
    show utf8Length (high.text ++ low.text) = _ + 8
    have hvalue := toNat_pair high low leads trails
    rw [utf8Length_append, high.utf8Length_text, low.utf8Length_text, utf8Size_eq,
      if_neg (by omega), if_neg (by omega), if_neg (by omega)]

/-- No form takes more than six bytes for one. -/
theorem expansion_le (w : Written) : w.expansion ≤ 5 * w.char.utf8Size := by
  have hpos := w.char.utf8Size_pos
  cases w with
  | literal c plain => exact Nat.zero_le _
  | short e =>
    show 1 ≤ _
    omega
  | unit u scalar =>
    rw [expansion]
    split
    · omega
    · split <;> omega
  | pair high low leads trails =>
    show 8 ≤ _
    have hvalue := toNat_pair high low leads trails
    rw [utf8Size_eq, if_neg (by omega), if_neg (by omega), if_neg (by omega)]
    decide

end Written

namespace Str

@[simp] theorem utf8ByteSize_cons (w : Written) (s : Str) :
    (value (w :: s)).utf8ByteSize = w.char.utf8Size + s.value.utf8ByteSize := by
  rw [value, value, utf8ByteSize_ofList, utf8ByteSize_ofList, chars, List.map_cons,
    utf8Length_cons, chars]

@[simp] theorem expansion_cons (w : Written) (s : Str) :
    expansion (w :: s) = w.expansion + s.expansion := by
  rw [expansion, expansion, List.map_cons, List.sum_cons]

/-- **The size of a string.** What it denotes, and what its escapes add. -/
theorem utf8Length_text (s : Str) :
    utf8Length s.text = s.value.utf8ByteSize + s.expansion := by
  induction s with
  | nil => decide
  | cons w s ih =>
    have htext : text (w :: s) = w.text ++ text s := List.flatMap_cons
    rw [htext, utf8Length_append, w.utf8Length_text, ih, utf8ByteSize_cons, expansion_cons]
    omega

theorem expansion_le (s : Str) : s.expansion ≤ 5 * s.value.utf8ByteSize := by
  induction s with
  | nil => decide
  | cons w s ih =>
    have hone := w.expansion_le
    rw [utf8ByteSize_cons, expansion_cons]
    omega

theorem utf8Length_quoted (s : Str) : utf8Length s.quoted = utf8Length s.text + 2 := by
  have hquote : ('"' : Char).utf8Size = 1 := by decide
  rw [quoted, List.cons_append, utf8Length_cons, utf8Length_append, utf8Length_cons,
    utf8Length_nil]
  omega

end Str

/-! ## Documents -/

def digits (ds : List (Fin 10)) : List Char := ds.map fun d => Char.ofNat (0x30 + d)

structure Exponent where
  upper : Bool
  /-- `some true` is a minus. -/
  sign : Option Bool
  digits : List (Fin 10)
  digits_ne_nil : digits ≠ []

def Exponent.text (e : Exponent) : List Char :=
  (if e.upper then 'E' else 'e')
    :: (match e.sign with | none => [] | some minus => [if minus then '-' else '+'])
    ++ Json.digits e.digits

structure Number where
  negative : Bool
  whole : List (Fin 10)
  whole_ne_nil : whole ≠ []
  no_leading_zero : whole.head? = some 0 → whole.length = 1
  /-- The digits behind the point; without any there is no point. -/
  fraction : List (Fin 10)
  exponent : Option Exponent

def Number.text (n : Number) : List Char :=
  (if n.negative then ['-'] else []) ++ digits n.whole
    ++ (if n.fraction = [] then [] else '.' :: digits n.fraction)
    ++ (match n.exponent with | none => [] | some e => e.text)

/-- A document without insignificant whitespace. -/
inductive Document where
  | null
  | bool (value : Bool)
  | number (n : Number)
  | string (s : Str)
  | array (items : List Document)
  | object (members : List (Str × Document))

mutual

def Document.text : Document → List Char
  | .null => ['n', 'u', 'l', 'l']
  | .bool value => if value then ['t', 'r', 'u', 'e'] else ['f', 'a', 'l', 's', 'e']
  | .number n => n.text
  | .string s => s.quoted
  | .array items => '[' :: itemsText items ++ [']']
  | .object members => '{' :: membersText members ++ ['}']

def itemsText : List Document → List Char
  | [] => []
  | [item] => item.text
  | item :: next :: rest => item.text ++ ',' :: itemsText (next :: rest)

def membersText : List (Str × Document) → List Char
  | [] => []
  | [(key, value)] => key.quoted ++ ':' :: value.text
  | (key, value) :: next :: rest =>
    key.quoted ++ ':' :: value.text ++ ',' :: membersText (next :: rest)

end

/-! ### Replacing a part -/

/-- The comma and what stands behind it. -/
theorem utf8Length_itemsText (item : Document) (rest : List Document) :
    utf8Length (itemsText (item :: rest))
      = utf8Length item.text + if rest = [] then 0 else 1 + utf8Length (itemsText rest) := by
  have hcomma : (',' : Char).utf8Size = 1 := by decide
  cases rest with
  | nil => rfl
  | cons next rest =>
    rw [itemsText, utf8Length_append, utf8Length_cons, hcomma, if_neg (List.cons_ne_nil _ _)]

/-- The size of the members with one more. -/
theorem utf8Length_membersText (member : Str × Document) (rest : List (Str × Document)) :
    utf8Length (membersText (member :: rest))
      = utf8Length member.1.quoted + 1 + utf8Length member.2.text
        + if rest = [] then 0 else 1 + utf8Length (membersText rest) := by
  have hcomma : (',' : Char).utf8Size = 1 := by decide
  have hcolon : (':' : Char).utf8Size = 1 := by decide
  cases member with
  | mk key value =>
    cases rest with
    | nil =>
      show utf8Length (key.quoted ++ ':' :: value.text) = _
      rw [utf8Length_append, utf8Length_cons, hcolon, if_pos rfl]
      dsimp only
      omega
    | cons next rest =>
      rw [membersText, utf8Length_append, utf8Length_append, utf8Length_cons, utf8Length_cons,
        hcomma, hcolon, if_neg (List.cons_ne_nil _ _)]
      dsimp only
      omega

/-- Replacing an item changes the size by the difference. -/
theorem utf8Length_set {items : List Document} {i : Nat} {item : Document} (new : Document)
    (h : items[i]? = some item) :
    utf8Length (itemsText items) + utf8Length new.text
      = utf8Length (itemsText (items.set i new)) + utf8Length item.text := by
  induction items generalizing i with
  | nil =>
    rw [List.getElem?_nil] at h
    cases h
  | cons front items ih =>
    cases i with
    | zero =>
      have hfront : front = item := Option.some.inj h
      rw [List.set_cons_zero, utf8Length_itemsText, utf8Length_itemsText, hfront]
      omega
    | succ i =>
      rw [List.getElem?_cons_succ] at h
      have hitems : items ≠ [] := List.ne_nil_of_mem (List.mem_of_getElem? h)
      have hset : items.set i new ≠ [] := by
        intro hnil
        exact hitems ((List.set_eq_nil_iff i new).mp hnil)
      have hrest := ih h
      rw [List.set_cons_succ, utf8Length_itemsText, utf8Length_itemsText, if_neg hitems,
        if_neg hset]
      omega

def keys (members : List (Str × Document)) : List String :=
  members.map fun member => member.1.value

/-- The key denotes this name. -/
def named (name : String) (member : Str × Document) : Bool := member.1.value = name

/-- The members with the value under a name replaced. -/
def replaced (name : String) (new : Document) (members : List (Str × Document)) :
    List (Str × Document) :=
  members.map fun member => if named name member then (member.1, new) else member

theorem utf8Length_replaced {name : String} {members : List (Str × Document)}
    {member : Str × Document} (new : Document)
    (hnodup : (keys members).Nodup)
    (h : members.find? (named name) = some member) :
    utf8Length (membersText members) + utf8Length new.text
      = utf8Length (membersText (replaced name new members)) + utf8Length member.2.text := by
  induction members with
  | nil =>
    rw [List.find?_nil] at h
    cases h
  | cons front members ih =>
    obtain ⟨hfresh, hnodup⟩ := List.nodup_cons.mp hnodup
    have hcons : replaced name new (front :: members)
        = (if named name front then (front.1, new) else front) :: replaced name new members :=
      List.map_cons
    rw [hcons, utf8Length_membersText, utf8Length_membersText]
    cases hfront : named name front with
    | true =>
      -- the key does not come again, so the others stay
      have hname : front.1.value = name := of_decide_eq_true hfront
      have hothers : replaced name new members = members := by
        apply (List.map_congr_left _).trans (List.map_id _)
        intro other hmem
        apply if_neg
        intro hsame
        apply hfresh
        show front.1.value ∈ _
        rw [hname, ← of_decide_eq_true hsame]
        exact List.mem_map_of_mem hmem
      rw [List.find?_cons_of_pos hfront] at h
      have hmember : front = member := Option.some.inj h
      rw [if_pos rfl, hothers, hmember]
      dsimp only
      omega
    | false =>
      rw [List.find?_cons_of_neg (by rw [hfront]; decide)] at h
      have hmembers : members ≠ [] := List.ne_nil_of_mem (List.mem_of_find?_eq_some h)
      have hreplaced : replaced name new members ≠ [] := by
        intro hnil
        exact hmembers (List.map_eq_nil_iff.mp hnil)
      have hrest := ih hnodup h
      rw [if_neg hmembers, if_neg hreplaced, if_neg Bool.false_ne_true]
      omega

/-! ## Records -/

namespace Document

/-- What is read as a record with these fields: an object whose keys are among them, none twice,
or an array with a value for each. -/
def isRecord (names : List String) : Document → Bool
  | .object members =>
    decide (keys members).Nodup && (keys members).all (· ∈ names)
  | .array items => items.length = names.length
  | _ => false

/-- The value of a field. -/
def field (names : List String) (name : String) : Document → Option Document
  | .object members => (members.find? (named name)).map (·.2)
  | .array items => items[names.idxOf name]?
  | _ => none

/-- The document with the value of a field replaced. -/
def replace (names : List String) (name : String) : Document → Document → Document
  | .object members, new => .object (replaced name new members)
  | .array items, new => .array (items.set (names.idxOf name) new)
  | document, _ => document

end Document

namespace Document

/-- **Replacing a value.** The document changes its size by what the value does. -/
theorem utf8Length_replace {names : List String} {name : String}
    {document value : Document} (new : Document) (hrecord : document.isRecord names = true)
    (h : document.field names name = some value) :
    utf8Length document.text + utf8Length new.text
      = utf8Length (document.replace names name new).text + utf8Length value.text := by
  cases document with
  | object members =>
    obtain ⟨member, hfind, hvalue⟩ := Option.map_eq_some_iff.mp h
    have hnodup := of_decide_eq_true (Bool.and_eq_true_iff.mp hrecord).1
    have hsize := utf8Length_replaced new hnodup hfind
    show utf8Length ('{' :: membersText members ++ ['}']) + _
      = utf8Length ('{' :: membersText (replaced name new members) ++ ['}']) + _
    rw [← hvalue]
    simp only [utf8Length_cons, utf8Length_append, List.cons_append]
    omega
  | array items =>
    have hsize := utf8Length_set new h
    show utf8Length ('[' :: itemsText items ++ [']']) + _
      = utf8Length ('[' :: itemsText (items.set (names.idxOf name) new) ++ [']']) + _
    simp only [utf8Length_cons, utf8Length_append, List.cons_append]
    omega
  | null | bool | number | string => cases h

/-- The other fields keep their values. -/
theorem field_replace {names : List String} {name other : String} {document : Document}
    (new : Document) (hname : name ∈ names) (hne : name ≠ other) :
    (document.replace names name new).field names other = document.field names other := by
  cases document with
  | object members =>
    show ((replaced name new members).find? (named other)).map (·.2)
      = (members.find? (named other)).map (·.2)
    induction members with
    | nil => rfl
    | cons front members ih =>
      have hcons : replaced name new (front :: members)
          = (if named name front then (front.1, new) else front) :: replaced name new members :=
        List.map_cons
      rw [hcons]
      -- the first member is the one replaced, or it is kept
      cases hfront : named name front with
      | true =>
        have hother : named other front = false := by
          apply decide_eq_false
          rw [of_decide_eq_true hfront]
          exact hne
        have hkey : ¬ named other (front.1, new) = true := by
          show ¬ named other front = true
          rw [hother]
          exact Bool.false_ne_true
        rw [if_pos rfl, List.find?_cons_of_neg hkey,
          List.find?_cons_of_neg (by rw [hother]; exact Bool.false_ne_true), ih]
      | false =>
        rw [if_neg Bool.false_ne_true, List.find?_cons, List.find?_cons]
        cases named other front with
        | true => rfl
        | false => exact ih
  | array items =>
    apply List.getElem?_set_ne
    intro hsame
    exact hne ((List.idxOf_inj hname).mp hsame)
  | null | bool | number | string => rfl

/-- A record stays one when a field is replaced. -/
theorem isRecord_replace {names : List String} {name : String} {document : Document}
    (new : Document) (h : document.isRecord names = true) :
    (document.replace names name new).isRecord names = true := by
  cases document with
  | object members =>
    have hkeys : keys (replaced name new members) = keys members := by
      rw [replaced, keys, keys, List.map_map]
      apply List.map_congr_left
      intro member _
      show (if named name member then (member.1, new) else member).1.value = _
      split <;> rfl
    show (decide (keys (replaced name new members)).Nodup
      && (keys (replaced name new members)).all (· ∈ names)) = true
    rw [hkeys]
    exact h
  | array items =>
    show decide ((items.set _ new).length = names.length) = true
    rw [List.length_set]
    exact h
  | null | bool | number | string => exact h

end Document

end Qwen3Tts.Lib.Json
