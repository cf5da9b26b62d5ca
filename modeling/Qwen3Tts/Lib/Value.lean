import Mathlib.Algebra.Ring.Nat
import Mathlib.Tactic.Common
import Qwen3Tts.Lib.Assoc

/-!
# Lib — JSON values

`serde_json::Value` with the accessors that a validator uses: the typed views, `value[key]`, which
is null where there is no such member, and the lookup along a pointer.
-/

namespace Qwen3Tts.Lib

/-- `serde_json::Number`. -/
inductive JsonNumber where
  | posInt (n : UInt64)
  /-- A number below zero. -/
  | negInt (n : Int)
  | float (bits : UInt64)
  deriving DecidableEq, Repr

inductive Value where
  | null
  | bool (value : Bool)
  | number (value : JsonNumber)
  | string (value : String)
  | array (items : List Value)
  /-- A map; the first of two members with one name is the member. -/
  | object (members : List (String × Value))

namespace Value

def u64 (n : UInt64) : Value := .number (.posInt n)

/-! ## Views -/

def asU64 : Value → Option UInt64
  | .number (.posInt n) => some n
  | _ => none

def asStr : Value → Option String
  | .string value => some value
  | _ => none

def asBool : Value → Option Bool
  | .bool value => some value
  | _ => none

def asArray : Value → Option (List Value)
  | .array items => some items
  | _ => none

def asObject : Value → Option (List (String × Value))
  | .object members => some members
  | _ => none

/-- `Map::get`. -/
def get? : Value → String → Option Value
  | .object members, key => assoc members key
  | _, _ => none

/-- `value[key]`. -/
def index (value : Value) (key : String) : Value := (value.get? key).getD .null

/-- `parse_index`: the digits of a `usize`, without a sign or a leading zero. -/
def parseIndex (token : String) : Option Nat :=
  let digits := token.toList
  let n := digits.foldl (fun n digit => 10 * n + (digit.toNat - 0x30)) 0
  if digits = [] ∨ ¬ digits.all Char.isDigit ∨ (digits.head? = some '0' ∧ digits.length ≠ 1)
      ∨ 2 ^ 64 ≤ n then none
  else some n

/-- `Value::pointer`; the pointer is given by its tokens. -/
def pointer : Value → List String → Option Value
  | value, [] => some value
  | .object members, token :: rest => (assoc members token).bind fun value => value.pointer rest
  | .array items, token :: rest =>
    ((parseIndex token).bind fun k => items[k]?).bind fun value => value.pointer rest
  | _, _ :: _ => none

variable {members : List (String × Value)} {key token : String} {rest : List String}

theorem pointer_object :
    (object members).pointer (token :: rest) = (assoc members token).bind (·.pointer rest) := by
  rw [pointer]

@[simp] theorem pointer_nil (value : Value) : value.pointer [] = some value := by rw [pointer]

@[simp] theorem index_object : (object members).index key = (assoc members key).getD null := rfl

/-! A member is found by walking along the list. -/

theorem assoc_self {value : Value} : assoc ((key, value) :: members) key = some value :=
  if_pos rfl

theorem assoc_of_ne {value : Value} (h : token ≠ key) :
    assoc ((key, value) :: members) token = assoc members token := if_neg h

@[simp] theorem asU64_u64 (n : UInt64) : (u64 n).asU64 = some n := rfl

@[simp] theorem asStr_string (text : String) : (string text).asStr = some text := rfl

@[simp] theorem asBool_bool (b : Bool) : (bool b).asBool = some b := rfl

@[simp] theorem asArray_array (items : List Value) : (array items).asArray = some items := rfl

@[simp] theorem asObject_object (members : List (String × Value)) :
    (object members).asObject = some members := rfl

end Value

end Qwen3Tts.Lib
