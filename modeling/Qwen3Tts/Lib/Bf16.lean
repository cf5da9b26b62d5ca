import Mathlib.Algebra.Order.Field.Basic
import Mathlib.Algebra.Order.Ring.Rat
import Mathlib.Data.Rat.Cast.Order
import Mathlib.Tactic.Linarith
import Mathlib.Tactic.Ring

/-!
# Lib — binary32 and the format of its upper halves

A binary32 number is a sign and a magnitude, a pattern of 31 bits; a bfloat16 number is the upper
half of such a pattern. Between two patterns that differ in one unit of the last place lies the same
distance everywhere inside a binade, and the next binade goes on where one ends, so the patterns
from one upper half to the next are equidistant (`scaled_add`): to round a pattern is to round the
number it spells. `nearestEven_of_pattern` is that argument.
-/

namespace Qwen3Tts.Lib.Bf16

/-! ## Numbers -/

/-- The number of a magnitude, in units of the least positive binary32 number `2 ^ -149`. -/
def scaled (magnitude : Nat) : Nat :=
  let exponent := magnitude / 2 ^ 23
  let mantissa := magnitude % 2 ^ 23
  if exponent = 0 then mantissa else (2 ^ 23 + mantissa) * 2 ^ (exponent - 1)

/-- The number of a binary32 pattern, in the same units. -/
def signed (pattern : Nat) : ℤ :=
  if pattern < 2 ^ 31 then scaled pattern else -scaled (pattern - 2 ^ 31)

/-- A pattern whose exponent is not that of the infinities. -/
def Finite (pattern : Nat) : Prop := pattern / 2 ^ 23 % 2 ^ 8 ≠ 255

instance (pattern : Nat) : Decidable (Finite pattern) := inferInstanceAs (Decidable (_ ≠ _))

/-- The binary32 number of a pattern. -/
def value32 (pattern : Nat) : ℚ := signed pattern / 2 ^ 149

/-- The bfloat16 number of a pattern. -/
def value16 (half : Nat) : ℚ := value32 (half * 2 ^ 16)

/-- `half` is the finite bfloat16 number nearest to `pattern`, the even one of two that are; a zero
keeps its sign. -/
structure NearestEven (pattern half : Nat) : Prop where
  inRange : half < 2 ^ 16
  finite : Finite (half * 2 ^ 16)
  sign : half / 2 ^ 15 = pattern / 2 ^ 31
  nearest : ∀ other < 2 ^ 16, Finite (other * 2 ^ 16) →
    |value16 half - value32 pattern| ≤ |value16 other - value32 pattern|
  even : ∀ other < 2 ^ 16, Finite (other * 2 ^ 16) →
    |value16 other - value32 pattern| = |value16 half - value32 pattern| →
    value16 other ≠ value16 half → half % 2 = 0

/-! ## Equidistant patterns -/

/-- A unit of the last place. -/
def ulp (magnitude : Nat) : Nat := 2 ^ (magnitude / 2 ^ 23 - 1)

theorem ulp_pos (magnitude : Nat) : 0 < ulp magnitude := Nat.two_pow_pos _

/-- Neighbouring patterns are one unit in the last place apart. -/
theorem scaled_succ (magnitude : Nat) :
    scaled (magnitude + 1) = scaled magnitude + ulp magnitude := by
  unfold scaled ulp
  dsimp only
  rcases Nat.lt_or_ge (magnitude % 2 ^ 23 + 1) (2 ^ 23) with hinside | hend
  · -- the same binade
    have hexponent : (magnitude + 1) / 2 ^ 23 = magnitude / 2 ^ 23 := by omega
    have hmantissa : (magnitude + 1) % 2 ^ 23 = magnitude % 2 ^ 23 + 1 := by omega
    rw [hexponent, hmantissa]
    by_cases hzero : magnitude / 2 ^ 23 = 0
    · rw [if_pos hzero, if_pos hzero, hzero]
      rfl
    · rw [if_neg hzero, if_neg hzero]
      ring
  · -- the first pattern of the next binade
    have hexponent : (magnitude + 1) / 2 ^ 23 = magnitude / 2 ^ 23 + 1 := by omega
    have hmantissa : (magnitude + 1) % 2 ^ 23 = 0 := by omega
    have hlast : magnitude % 2 ^ 23 = 2 ^ 23 - 1 := by omega
    rw [hexponent, hmantissa, hlast, if_neg (Nat.succ_ne_zero _)]
    by_cases hzero : magnitude / 2 ^ 23 = 0
    · rw [if_pos hzero, hzero]
      rfl
    · rw [if_neg hzero]
      obtain ⟨e, he⟩ := Nat.exists_eq_succ_of_ne_zero hzero
      rw [he, Nat.succ_eq_add_one, Nat.add_sub_cancel, Nat.add_sub_cancel, pow_succ]
      ring_nf

/-- A greater pattern is a greater number. -/
theorem scaled_strictMono : StrictMono scaled := by
  refine strictMono_nat_of_lt_succ fun magnitude => ?_
  have hpos := ulp_pos magnitude
  rw [scaled_succ]
  omega

/-- From one upper half to the next, the numbers are equidistant. -/
theorem scaled_add (half : Nat) {rest : Nat} (hrest : rest ≤ 2 ^ 16) :
    scaled (half * 2 ^ 16 + rest) = scaled (half * 2 ^ 16) + rest * ulp (half * 2 ^ 16) := by
  induction rest with
  | zero => rw [Nat.zero_mul, Nat.add_zero, Nat.add_zero]
  | succ rest ih =>
    have hsame : ulp (half * 2 ^ 16 + rest) = ulp (half * 2 ^ 16) := by
      have hbinade : (half * 2 ^ 16 + rest) / 2 ^ 23 = half * 2 ^ 16 / 2 ^ 23 := by omega
      unfold ulp
      rw [hbinade]
    rw [← Nat.add_assoc, scaled_succ, ih (by omega), hsame, Nat.succ_mul, Nat.add_assoc]

/-! ## Rounding a pattern -/

/-- The magnitude that the upper half of a magnitude is rounded to: up from more than half of a
step, and from half of one to the even neighbour. -/
def roundedHalf (half rest : Nat) : Nat :=
  if rest + 0x7fff + half % 2 < 2 ^ 16 then half else half + 1

/-- Of two neighbours on a line, the nearer one is nearest among all points outside of them. -/
theorem nearest_of_neighbours {lo hi x other : ℤ} (hlo : lo ≤ x) (hhi : x ≤ hi)
    (houtside : other ≤ lo ∨ hi ≤ other) :
    (x - lo ≤ hi - x → |lo - x| ≤ |other - x|
        ∧ (|other - x| = |lo - x| → other ≠ lo → x - lo = hi - x))
      ∧ (hi - x ≤ x - lo → |hi - x| ≤ |other - x|
        ∧ (|other - x| = |hi - x| → other ≠ hi → x - lo = hi - x)) := by
  rw [abs_of_nonpos (by omega : lo - x ≤ 0), abs_of_nonneg (by omega : 0 ≤ hi - x)]
  rcases houtside with hbelow | habove
  · rw [abs_of_nonpos (by omega : other - x ≤ 0)]
    omega
  · rw [abs_of_nonneg (by omega : 0 ≤ other - x)]
    omega

/-- How far a pattern is between two upper halves, in numbers. -/
theorem step_cmp {unit : Nat} (hunit : 0 < unit) (rest : Nat) :
    (rest ≤ 2 ^ 15 → 2 * (rest * unit) ≤ 2 ^ 16 * unit)
      ∧ (2 ^ 15 ≤ rest → 2 ^ 16 * unit ≤ 2 * (rest * unit))
      ∧ (2 * (rest * unit) = 2 ^ 16 * unit → rest = 2 ^ 15) := by
  rw [← Nat.mul_assoc]
  refine ⟨fun h => Nat.mul_le_mul_right unit (by omega),
    fun h => Nat.mul_le_mul_right unit (by omega), fun h => ?_⟩
  have hcancel := Nat.eq_of_mul_eq_mul_right hunit h
  omega

/-- A number between two neighbours `lo` and `hi`, rounded to the nearer one, and half way between
them to the even one. -/
theorem nearest_of_step (half : Nat) {lo hi x unit rest : Nat} {w : ℤ} (hunit : 0 < unit)
    (hrest : rest < 2 ^ 16) (hx : x = lo + rest * unit) (hhi : hi = lo + 2 ^ 16 * unit)
    (houtside : w ≤ lo ∨ (hi : ℤ) ≤ w) :
    (rest + 0x7fff + half % 2 < 2 ^ 16 → |(lo : ℤ) - x| ≤ |w - x|
        ∧ (|w - x| = |(lo : ℤ) - x| → w ≠ lo → half % 2 = 0))
      ∧ (¬ rest + 0x7fff + half % 2 < 2 ^ 16 → |(hi : ℤ) - x| ≤ |w - x|
        ∧ (|w - x| = |(hi : ℤ) - x| → w ≠ hi → (half + 1) % 2 = 0)) := by
  have hstep : rest * unit ≤ 2 ^ 16 * unit := Nat.mul_le_mul_right unit hrest.le
  obtain ⟨hdownward, hupward, htie⟩ := step_cmp hunit rest
  generalize rest * unit = first at hx hstep hdownward hupward htie
  generalize 2 ^ 16 * unit = step at hhi hstep hdownward hupward htie
  obtain ⟨hdown, hup⟩ := nearest_of_neighbours (show (lo : ℤ) ≤ x by omega)
    (show (x : ℤ) ≤ hi by omega) houtside
  constructor
  · intro hround
    have hnear := hdownward (by omega)
    obtain ⟨hle, heven⟩ := hdown (by omega)
    refine ⟨hle, fun heq hne => ?_⟩
    have hmiddle := heven heq hne
    have hhalf := htie (by omega)
    omega
  · intro hround
    have hnear := hupward (by omega)
    obtain ⟨hle, heven⟩ := hup (by omega)
    refine ⟨hle, fun heq hne => ?_⟩
    have hmiddle := heven heq hne
    have hhalf := htie (by omega)
    omega

/-- The integers behind `NearestEven`, for a candidate on either side of zero. -/
theorem nearest_rounded {half rest : Nat} (hrest : rest < 2 ^ 16) {other : Nat} {w : ℤ}
    (hw : w = scaled (other * 2 ^ 16) ∨ w = -scaled (other * 2 ^ 16)) :
    |(scaled (roundedHalf half rest * 2 ^ 16) : ℤ) - scaled (half * 2 ^ 16 + rest)|
        ≤ |w - scaled (half * 2 ^ 16 + rest)|
      ∧ (|w - scaled (half * 2 ^ 16 + rest)|
          = |(scaled (roundedHalf half rest * 2 ^ 16) : ℤ) - scaled (half * 2 ^ 16 + rest)| →
        w ≠ scaled (roundedHalf half rest * 2 ^ 16) → roundedHalf half rest % 2 = 0) := by
  have hhi : scaled ((half + 1) * 2 ^ 16)
      = scaled (half * 2 ^ 16) + 2 ^ 16 * ulp (half * 2 ^ 16) := by
    rw [Nat.succ_mul]
    exact scaled_add half (le_refl _)
  -- a candidate is one of the two neighbours or lies outside of them
  have houtside : w ≤ scaled (half * 2 ^ 16) ∨ (scaled ((half + 1) * 2 ^ 16) : ℤ) ≤ w := by
    rcases hw with rfl | rfl
    · rcases Nat.lt_or_ge half other with hlt | hge
      · right
        exact_mod_cast scaled_strictMono.monotone (Nat.mul_le_mul_right _ hlt)
      · left
        exact_mod_cast scaled_strictMono.monotone (Nat.mul_le_mul_right _ hge)
    · left
      omega
  obtain ⟨hdown, hup⟩ := nearest_of_step half (ulp_pos (half * 2 ^ 16)) hrest
    (scaled_add half hrest.le) hhi houtside
  unfold roundedHalf
  by_cases hround : rest + 0x7fff + half % 2 < 2 ^ 16
  · rw [if_pos hround]
    exact hdown hround
  · rw [if_neg hround]
    exact hup hround

/-- The sign of a number in front of its magnitude. -/
theorem signed_pattern {sign magnitude : Nat} (hsign : sign < 2) (h : magnitude < 2 ^ 31) :
    signed (sign * 2 ^ 31 + magnitude) = (-1) ^ sign * (scaled magnitude : ℤ) := by
  unfold signed
  rcases Nat.lt_or_ge sign 1 with hpositive | hnegative
  · have hzero : sign = 0 := by omega
    rw [hzero, Nat.zero_mul, Nat.zero_add, if_pos h, pow_zero, one_mul]
  · have hone : sign = 1 := by omega
    rw [hone, if_neg (by omega), Nat.one_mul, Nat.add_sub_cancel_left, pow_one, neg_one_mul]

/-- The distance of two patterns, from their places on the scale. -/
theorem abs_value_sub (half pattern : Nat) : |value16 half - value32 pattern|
    = (|signed (half * 2 ^ 16) - signed pattern| : ℤ) / 2 ^ 149 := by
  unfold value16 value32
  rw [← sub_div, abs_div, abs_of_pos (by positivity : (0 : ℚ) < 2 ^ 149)]
  push_cast
  rfl

theorem finite_half {sign half : Nat} (hhalf : half < 2 ^ 15) :
    Finite ((sign * 2 ^ 15 + half) * 2 ^ 16) ↔ half < 0x7f80 := by
  unfold Finite
  omega

theorem abs_sign_mul (sign : Nat) (a b : ℤ) :
    |(-1) ^ sign * a - (-1) ^ sign * b| = |a - b| := by
  rw [← mul_sub, abs_mul, abs_neg_one_pow, one_mul]

/-- A candidate, seen from the side of a number: the sign of the number times the candidate is a
magnitude or the opposite of one. -/
theorem sign_mul_signed (sign : Nat) {other : Nat} (hother : other < 2 ^ 16) : ∃ half w,
    signed (other * 2 ^ 16) = (-1) ^ sign * w
      ∧ (w = scaled (half * 2 ^ 16) ∨ w = -scaled (half * 2 ^ 16)) := by
  have hsplit : other * 2 ^ 16 = other / 2 ^ 15 * 2 ^ 31 + other % 2 ^ 15 * 2 ^ 16 := by omega
  have hsigned := signed_pattern (show other / 2 ^ 15 < 2 by omega)
    (show other % 2 ^ 15 * 2 ^ 16 < 2 ^ 31 by omega)
  have hsquare : ((-1) ^ sign * (-1) ^ sign : ℤ) = 1 := by
    rw [← pow_add, Even.neg_one_pow ⟨sign, rfl⟩]
  refine ⟨other % 2 ^ 15, (-1) ^ sign * signed (other * 2 ^ 16), ?_, ?_⟩
  · rw [← mul_assoc, hsquare, one_mul]
  · rw [hsplit, hsigned, ← mul_assoc, ← pow_add]
    rcases neg_one_pow_eq_or ℤ (sign + other / 2 ^ 15) with hone | hone
    · rw [hone, one_mul]
      exact .inl rfl
    · rw [hone, neg_one_mul]
      exact .inr rfl

/-- The fields of a rounded pattern. -/
theorem rounded_fields {sign magnitude rounded : Nat} (hsign : sign < 2)
    (h : magnitude < 0x7f7f8000) (hrounded : rounded < 0x7f80) :
    sign * 2 ^ 15 + rounded < 2 ^ 16 ∧ Finite ((sign * 2 ^ 15 + rounded) * 2 ^ 16)
      ∧ (sign * 2 ^ 15 + rounded) / 2 ^ 15 = (sign * 2 ^ 31 + magnitude) / 2 ^ 31
      ∧ signed ((sign * 2 ^ 15 + rounded) * 2 ^ 16)
        = (-1) ^ sign * (scaled (rounded * 2 ^ 16) : ℤ)
      ∧ (rounded % 2 = 0 → (sign * 2 ^ 15 + rounded) % 2 = 0) := by
  have hsplit : (sign * 2 ^ 15 + rounded) * 2 ^ 16 = sign * 2 ^ 31 + rounded * 2 ^ 16 := by ring
  refine ⟨by omega, (finite_half (by omega)).mpr hrounded, by omega, ?_, by omega⟩
  rw [hsplit]
  exact signed_pattern hsign (by omega)

/-- **Rounding the pattern rounds the number.** -/
theorem nearestEven_of_pattern {sign half rest : Nat} (hsign : sign < 2) (hrest : rest < 2 ^ 16)
    (h : half * 2 ^ 16 + rest < 0x7f7f8000) :
    NearestEven (sign * 2 ^ 31 + (half * 2 ^ 16 + rest))
      (sign * 2 ^ 15 + roundedHalf half rest) := by
  have hmagnitude : half * 2 ^ 16 + rest < 2 ^ 31 := by omega
  have hpattern := signed_pattern hsign hmagnitude
  have hrounded : roundedHalf half rest < 0x7f80 := by
    unfold roundedHalf
    split <;> omega
  obtain ⟨hrange, hfinite, hsame, hhalf, hparity⟩ := rounded_fields hsign h hrounded
  refine ⟨hrange, hfinite, hsame, fun other hother _ => ?_,
    fun other hother _ heq hne => ?_⟩
  · obtain ⟨magnitude, w, hsigned, hw⟩ := sign_mul_signed sign hother
    rw [abs_value_sub, abs_value_sub, hhalf, hpattern, hsigned, abs_sign_mul, abs_sign_mul]
    refine div_le_div_of_nonneg_right ?_ (by positivity)
    exact_mod_cast (nearest_rounded hrest hw).1
  · obtain ⟨magnitude, w, hsigned, hw⟩ := sign_mul_signed sign hother
    have heven : roundedHalf half rest % 2 = 0 := by
      refine (nearest_rounded hrest hw).2 ?_ ?_
      · rw [abs_value_sub, abs_value_sub, hhalf, hpattern, hsigned, abs_sign_mul,
          abs_sign_mul] at heq
        exact_mod_cast (div_left_inj' (by positivity)).mp heq
      · intro hw'
        refine hne ?_
        unfold value16 value32
        rw [hsigned, hhalf, hw']
    exact hparity heven

/-- Above half of the last step of the finite numbers, the rounded half is an infinity. -/
theorem not_finite_of_pattern {sign half rest : Nat} (h : 0x7f7f8000 ≤ half * 2 ^ 16 + rest)
    (hfinite : half * 2 ^ 16 + rest < 0x7f800000) (hrest : rest < 2 ^ 16) :
    ¬ Finite ((sign * 2 ^ 15 + roundedHalf half rest) * 2 ^ 16) := by
  have hinfinite : roundedHalf half rest = 0x7f80 := by
    unfold roundedHalf
    rw [if_neg (by omega)]
    omega
  unfold Finite
  rw [hinfinite]
  omega

end Qwen3Tts.Lib.Bf16
