import Mathlib.Data.Nat.Find
import Mathlib.Data.Nat.Prime.Basic
import Qwen3Tts.Lib.Chunks

/-!
# Lib — SHA-256 as FIPS 180-4 defines it

The functions, the constants, the padding and the computation of the standard, for messages of whole
bytes. The constants are what the standard says they are, the first bits of the fractional parts of
roots of the first primes, and not a table.
-/

namespace Qwen3Tts.Lib.Fips180

/-! ## Words of 32 bits -/

/-- The number that bytes spell, most significant first. -/
def ofBeBytes (bytes : List UInt8) : Nat := bytes.foldl (fun n byte => n * 256 + byte.toNat) 0

/-- A number as `count` bytes, most significant first. -/
def toBeBytes (count value : Nat) : List UInt8 :=
  (List.range count).map fun k => UInt8.ofNat (value / 256 ^ (count - 1 - k))

/-- The circular right shift. -/
def rotr (n x : UInt32) : UInt32 := (x >>> n) ||| (x <<< (32 - n))

/-! ## Functions -/

def ch (x y z : UInt32) : UInt32 := (x &&& y) ^^^ (~~~x &&& z)

def maj (x y z : UInt32) : UInt32 := (x &&& y) ^^^ (x &&& z) ^^^ (y &&& z)

/-- `Σ₀` -/
def bigSigma0 (x : UInt32) : UInt32 := rotr 2 x ^^^ rotr 13 x ^^^ rotr 22 x

/-- `Σ₁` -/
def bigSigma1 (x : UInt32) : UInt32 := rotr 6 x ^^^ rotr 11 x ^^^ rotr 25 x

/-- `σ₀` -/
def smallSigma0 (x : UInt32) : UInt32 := rotr 7 x ^^^ rotr 18 x ^^^ (x >>> 3)

/-- `σ₁` -/
def smallSigma1 (x : UInt32) : UInt32 := rotr 17 x ^^^ rotr 19 x ^^^ (x >>> 10)

/-! ## Constants -/

/-- The first 32 bits of the fractional part of the `k`-th root of `p`: the integer part of
`2 ^ 32` times the root, without the bits in front of the point. -/
def rootBits (k p : Nat) : UInt32 :=
  UInt32.ofNat (Nat.findGreatest (fun r => r ^ k ≤ p * 2 ^ (32 * k)) (p * 2 ^ (32 * k)))

/-- The first sixty-four primes. -/
def primes : List Nat :=
  [2, 3, 5, 7, 11, 13, 17, 19, 23, 29, 31, 37, 41, 43, 47, 53, 59, 61, 67, 71, 73, 79, 83, 89, 97,
    101, 103, 107, 109, 113, 127, 131, 137, 139, 149, 151, 157, 163, 167, 173, 179, 181, 191, 193,
    197, 199, 211, 223, 227, 229, 233, 239, 241, 251, 257, 263, 269, 271, 277, 281, 283, 293, 307,
    311]

/-- `Kₜ` -/
def roundConstant (t : Nat) : UInt32 := rootBits 3 (primes.getD t 0)

/-- The eight words of a hash value, and the working variables. -/
structure Words where
  (a b c d e f g h : UInt32)
  deriving DecidableEq, Repr

/-- `H⁽⁰⁾` -/
def initial : Words where
  a := rootBits 2 2
  b := rootBits 2 3
  c := rootBits 2 5
  d := rootBits 2 7
  e := rootBits 2 11
  f := rootBits 2 13
  g := rootBits 2 17
  h := rootBits 2 19

/-! ## The computation -/

/-- `Mₜ`, a word of a block. -/
def word (block : List UInt8) (t : Nat) : UInt32 :=
  UInt32.ofNat (ofBeBytes ((block.drop (4 * t)).take 4))

/-- `Wₜ`, the message schedule. -/
def schedule (block : List UInt8) (t : Nat) : UInt32 :=
  if t < 16 then word block t
  else smallSigma1 (schedule block (t - 2)) + schedule block (t - 7)
    + smallSigma0 (schedule block (t - 15)) + schedule block (t - 16)
termination_by t

def round (block : List UInt8) (v : Words) (t : Nat) : Words :=
  let t1 := v.h + bigSigma1 v.e + ch v.e v.f v.g + roundConstant t + schedule block t
  let t2 := bigSigma0 v.a + maj v.a v.b v.c
  { a := t1 + t2, b := v.a, c := v.b, d := v.c, e := v.d + t1, f := v.e, g := v.f, h := v.g }

def Words.add (x y : Words) : Words where
  a := x.a + y.a
  b := x.b + y.b
  c := x.c + y.c
  d := x.d + y.d
  e := x.e + y.e
  f := x.f + y.f
  g := x.g + y.g
  h := x.h + y.h

/-- A block of the message, from one hash value to the next. -/
def compress (value : Words) (block : List UInt8) : Words :=
  ((List.range 64).foldl (round block) value).add value

/-- The zero bytes of the padding. -/
def zeroBytes (length : Nat) : Nat := (119 - length % 64) % 64

/-- The message, a bit that is one, bits that are zero and the length in bits. -/
def pad (message : List UInt8) : List UInt8 :=
  message ++ 0x80 :: (List.replicate (zeroBytes message.length) 0
    ++ toBeBytes 8 (8 * message.length))

def Words.toBytes (value : Words) : List UInt8 :=
  [value.a, value.b, value.c, value.d, value.e, value.f, value.g, value.h].flatMap
    fun x => toBeBytes 4 x.toNat

/-- **The digest of a message.** -/
def digest (message : List UInt8) : List UInt8 :=
  (absorb 64 compress initial (pad message)).1.toBytes

/-! ## The constants and the padding are those of the standard -/

theorem length_primes : primes.length = 64 := by decide

theorem mem_primes : ∀ n < 312, n ∈ primes ↔ n.Prime := by
  -- below 18 ^ 2 it is enough to try the divisors below 18
  have htable : primes = (List.range 312).filter fun n =>
      2 ≤ n && (List.range 18).all fun m => m < 2 || n < m * m || n % m != 0 := by
    decide
  intro n hn
  rw [htable, List.mem_filter, Nat.prime_def_le_sqrt]
  simp only [List.mem_range, Bool.and_eq_true, decide_eq_true_eq, List.all_eq_true, Bool.or_eq_true,
    bne_iff_ne, ne_eq, hn, true_and, ← Nat.dvd_iff_mod_eq_zero]
  refine and_congr_right fun _ => ?_
  constructor
  · intro h m hm hroot hdvd
    have hsquare : m * m ≤ n := Nat.le_sqrt.mp hroot
    have hsmall : m < 18 := by
      by_contra hge
      have hlarge : 18 * 18 ≤ m * m := Nat.mul_le_mul (not_lt.mp hge) (not_lt.mp hge)
      omega
    rcases h m hsmall with (hlt | hlt) | hnot
    · omega
    · omega
    · exact hnot hdvd
  · intro h m _
    by_cases hm : m < 2
    · exact .inl (.inl hm)
    · by_cases hsquare : n < m * m
      · exact .inl (.inr hsquare)
      · exact .inr (h m (not_lt.mp hm) (Nat.le_sqrt.mpr (not_lt.mp hsquare)))

/-- A root by its defining inequalities. -/
theorem rootBits_eq {k p r : Nat} (hk : 0 < k) (hle : r ^ k ≤ p * 2 ^ (32 * k))
    (hlt : p * 2 ^ (32 * k) < (r + 1) ^ k) : rootBits k p = UInt32.ofNat r := by
  have hroot : Nat.findGreatest (fun r => r ^ k ≤ p * 2 ^ (32 * k)) (p * 2 ^ (32 * k)) = r := by
    refine Nat.findGreatest_eq_iff.mpr ⟨?_, fun _ => hle, fun n hn _ hpow => ?_⟩
    · exact Nat.le_trans (Nat.le_self_pow (by omega) r) hle
    · have hmono : (r + 1) ^ k ≤ n ^ k := Nat.pow_le_pow_left hn k
      omega
  rw [rootBits, hroot]

/-- The one bit is followed by the least number of zero bits that fills a block but for its last 64
bits. -/
theorem zeroBytes_least (length : Nat) :
    (8 * length + 1 + (8 * zeroBytes length + 7)) % 512 = 448
      ∧ ∀ k < 8 * zeroBytes length + 7, (8 * length + 1 + k) % 512 ≠ 448 := by
  unfold zeroBytes
  constructor
  · omega
  · intro k hk
    omega

end Qwen3Tts.Lib.Fips180
