import Mathlib.Algebra.Ring.Nat
import Mathlib.Data.List.Basic
import Mathlib.Tactic.Common

/-!
# Lib — little-endian numbers

A number below `256 ^ width` and its `width` bytes determine each other.
-/

namespace Qwen3Tts.Lib

/-- The low bytes of a number, least significant first. -/
def littleEndian : Nat → Nat → List UInt8
  | 0, _ => []
  | width + 1, n => UInt8.ofNat n :: littleEndian width (n / 256)

/-- The number written by the bytes. -/
def ofLittleEndian : List UInt8 → Nat
  | [] => 0
  | byte :: rest => byte.toNat + 256 * ofLittleEndian rest

theorem length_littleEndian (width n : Nat) : (littleEndian width n).length = width := by
  induction width generalizing n with
  | zero => rfl
  | succ width ih => rw [littleEndian, List.length_cons, ih]

/-- Bytes write a number below their range. -/
theorem ofLittleEndian_lt (bytes : List UInt8) : ofLittleEndian bytes < 256 ^ bytes.length := by
  induction bytes with
  | nil => decide
  | cons byte rest ih =>
    have hbyte := byte.toNat_lt
    rw [ofLittleEndian, List.length_cons, Nat.pow_succ]
    omega

/-- Writing and reading gives the number. -/
theorem ofLittleEndian_littleEndian {width n : Nat} (h : n < 256 ^ width) :
    ofLittleEndian (littleEndian width n) = n := by
  induction width generalizing n with
  | zero =>
    rw [Nat.pow_zero] at h
    show 0 = n
    omega
  | succ width ih =>
    have hrest : n / 256 < 256 ^ width := by
      apply Nat.div_lt_of_lt_mul
      rw [Nat.mul_comm, ← Nat.pow_succ]
      exact h
    rw [littleEndian, ofLittleEndian, ih hrest, UInt8.toNat_ofNat']
    omega

/-- Reading and writing gives the bytes. -/
theorem littleEndian_ofLittleEndian (bytes : List UInt8) :
    littleEndian bytes.length (ofLittleEndian bytes) = bytes := by
  induction bytes with
  | nil => rfl
  | cons byte rest ih =>
    have hbyte := byte.toNat_lt
    have hfirst : UInt8.ofNat (byte.toNat + 256 * ofLittleEndian rest) = byte := by
      apply UInt8.toNat_inj.mp
      rw [UInt8.toNat_ofNat']
      omega
    have hrest : (byte.toNat + 256 * ofLittleEndian rest) / 256 = ofLittleEndian rest := by
      omega
    rw [List.length_cons, ofLittleEndian, littleEndian, hfirst, hrest, ih]

/-- Bytes that hold a number of their width. -/
theorem ofLittleEndian_eq_iff {bytes : List UInt8} {n : Nat} (h : n < 256 ^ bytes.length) :
    ofLittleEndian bytes = n ↔ bytes = littleEndian bytes.length n := by
  constructor
  · rintro rfl
    exact (littleEndian_ofLittleEndian bytes).symm
  · intro hbytes
    rw [hbytes, ofLittleEndian_littleEndian h]

end Qwen3Tts.Lib
