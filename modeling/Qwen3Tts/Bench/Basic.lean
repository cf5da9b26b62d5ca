import Qwen3Tts.Lib.Fallible
import Qwen3Tts.Lib.LittleEndian
import Qwen3Tts.Server.Response

/-!
# Bench — bytes and failures of the HTTP client

What the readers of the benchmark client share: byte strings, the errors of `error.rs` that they
return, and the slice accesses that panic when they leave the slice.
-/

namespace Qwen3Tts.Bench

open Qwen3Tts.Lib

abbrev Bytes := List UInt8

/-- `b".."`. -/
def ascii (text : String) : Bytes := text.toUTF8.data.toList

/-- The variants of `BenchError` that a reader returns. -/
inductive BenchError where
  | io
  | http (message : String)
  | multipart (message : String)
  | wav (message : String)
  deriving DecidableEq, Repr

/-- Why a reader has no result. -/
inductive Failure where
  | error (error : BenchError)
  /-- An index outside a slice, or an `expect` that fails. -/
  | panic
  deriving DecidableEq, Repr

/-- `&bytes[first..last]`. -/
def slice (bytes : Bytes) (first last : Nat) : Except Failure Bytes :=
  if first ≤ last ∧ last ≤ bytes.length then .ok ((bytes.drop first).take (last - first))
  else .error .panic

/-- `usize::checked_add`. -/
def checkedAdd (a b : Nat) (error : BenchError) : Except Failure Nat :=
  if a + b < 2 ^ 64 then .ok (a + b) else .error (.error error)

theorem slice_ok {bytes : Bytes} {first last : Nat} (hfirst : first ≤ last)
    (hlast : last ≤ bytes.length) :
    slice bytes first last = .ok ((bytes.drop first).take (last - first)) := if_pos ⟨hfirst, hlast⟩

theorem checkedAdd_ok {a b : Nat} {error : BenchError} (h : a + b < 2 ^ 64) :
    checkedAdd a b error = .ok (a + b) := if_pos h

theorem checkedAdd_eq_ok {a b c : Nat} {error : BenchError} :
    checkedAdd a b error = .ok c ↔ a + b < 2 ^ 64 ∧ a + b = c :=
  ite_ok_eq_ok

theorem checkedAdd_ne_panic (a b : Nat) (error : BenchError) :
    checkedAdd a b error ≠ .error .panic := by
  unfold checkedAdd
  split <;> exact nofun

theorem failIf_of_not {ε : Type} {p : Prop} [Decidable p] {e : ε} (h : ¬ p) :
    failIf p e = .ok () := failIf_eq_ok.mpr h

/-! ## The bytes of the server -/

theorem toList_loop_eq (bytes : ByteArray) {i : Nat} (r : Bytes) (hi : i ≤ bytes.size) :
    ByteArray.toList.loop bytes i r = r.reverse ++ bytes.data.toList.drop i := by
  induction hk : bytes.size - i generalizing i r with
  | zero =>
    have hend : bytes.data.toList.length ≤ i := by
      show bytes.size ≤ i
      omega
    rw [ByteArray.toList.loop, if_neg (by omega), List.drop_of_length_le hend, List.append_nil]
  | succ k ih =>
    have hlt : i < bytes.data.toList.length := by
      show i < bytes.size
      omega
    have hget : bytes.get! i = bytes.data.toList[i] := by
      show bytes.data[i]! = _
      rw [getElem!_pos bytes.data i hlt]
      rfl
    rw [ByteArray.toList.loop, if_pos (by omega), ih _ hlt (by omega), List.reverse_cons,
      List.append_assoc, hget, List.drop_eq_getElem_cons hlt]
    rfl

theorem toList_eq_data (bytes : ByteArray) : bytes.toList = bytes.data.toList := by
  rw [ByteArray.toList, toList_loop_eq _ _ (Nat.zero_le _)]
  rfl

theorem asBytes_eq_ascii (text : String) : Server.asBytes text = ascii text := toList_eq_data _

theorem leBytes_eq (width n : Nat) : Server.leBytes width n = littleEndian width n := by
  induction width generalizing n with
  | zero => rfl
  | succ width ih =>
    rw [littleEndian, ← ih, Server.leBytes, Server.leBytes, List.range_succ_eq_map, List.map_cons,
      List.map_map]
    congr 1
    · apply UInt8.toNat_inj.mp
      rw [UInt8.toNat_ofNat', UInt8.toNat_ofNat']
      omega
    · apply List.map_congr_left
      intro i _
      show UInt8.ofNat (n / 256 ^ (i + 1) % 256) = UInt8.ofNat (n / 256 / 256 ^ i % 256)
      rw [Nat.div_div_eq_div_mul, Nat.pow_succ, Nat.mul_comm]

end Qwen3Tts.Bench
