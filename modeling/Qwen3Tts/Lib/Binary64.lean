import Mathlib

/-!
# Lib — binary64 products and ceilings are monotone

The logical model of `Float` rounds a product by shifting its mantissa and keeping a round and a
sticky bit. Over the rationals this is one function, `nearest`: the nearest multiple of the ulp
of the number, ties to even. It is monotone, and so is everything that a program computes from a
positive float by products with a positive constant and conversions to an integer.

Only positive normal floats are treated.
-/

namespace Qwen3Tts.Lib.Binary64

open Float.Model Float.Model.UnpackedFloat

/-! ## Rounding half to even -/

def roundEven (q : ℚ) : ℤ :=
  if Int.fract q < 1 / 2 then ⌊q⌋
  else if Int.fract q = 1 / 2 then ⌊q⌋ + ⌊q⌋ % 2
  else ⌊q⌋ + 1

theorem floor_le_roundEven (q : ℚ) : ⌊q⌋ ≤ roundEven q := by
  unfold roundEven
  split
  · exact le_rfl
  split <;> omega

theorem roundEven_le_floor (q : ℚ) : roundEven q ≤ ⌊q⌋ + 1 := by
  unfold roundEven
  split
  · omega
  split <;> omega

/-- Rounding is monotone. -/
theorem roundEven_mono {p q : ℚ} (h : p ≤ q) : roundEven p ≤ roundEven q := by
  rcases (Int.floor_le_floor h).lt_or_eq with hlt | heq
  · have hp := roundEven_le_floor p
    have hq := floor_le_roundEven q
    omega
  -- in one unit interval the fractional parts decide
  have hfract : Int.fract p ≤ Int.fract q := by
    rw [Int.fract, Int.fract, heq]
    linarith
  rcases lt_trichotomy (Int.fract p) (1 / 2) with hp | hp | hp
  · rw [roundEven, if_pos hp, heq]
    exact floor_le_roundEven q
  · rw [roundEven, if_neg (by rw [hp]; exact lt_irrefl _), if_pos hp, heq, roundEven,
      if_neg (by rw [← hp]; exact not_lt.mpr hfract)]
    split <;> omega
  · have hq := lt_of_lt_of_le hp hfract
    rw [roundEven, if_neg hp.not_gt, if_neg hp.ne', heq, roundEven, if_neg hq.not_gt,
      if_neg hq.ne']

/-- An integer is not moved. -/
theorem roundEven_intCast (n : ℤ) : roundEven n = n := by
  simp [roundEven]

/-! ## Rounding to the ulp -/

/-- The exponent of the last bit of a 53-bit mantissa. -/
def ulpExponent (q : ℚ) : ℤ := Int.log 2 q - 52

/-- The nearest number with a 53-bit mantissa. -/
def nearest (q : ℚ) : ℚ := roundEven (q / 2 ^ ulpExponent q) * 2 ^ ulpExponent q

theorem two_zpow_pos (e : ℤ) : (0 : ℚ) < 2 ^ e := zpow_pos (by norm_num) e

/-- A positive number measured in its ulps. -/
theorem ulps_bounds {q : ℚ} (hq : 0 < q) :
    2 ^ 52 ≤ q / 2 ^ ulpExponent q ∧ q / 2 ^ ulpExponent q < 2 ^ 53 := by
  have hlow : (2 : ℚ) ^ Int.log 2 q ≤ q := Int.zpow_log_le_self (by decide) hq
  have hhigh : q < (2 : ℚ) ^ (Int.log 2 q + 1) := Int.lt_zpow_succ_log_self (by decide) q
  have hpow := two_zpow_pos (ulpExponent q)
  have h52 : (2 : ℚ) ^ Int.log 2 q = 2 ^ 52 * 2 ^ ulpExponent q := by
    rw [← zpow_natCast, ← zpow_add₀ (by norm_num)]
    congr 1
    unfold ulpExponent
    omega
  have h53 : (2 : ℚ) ^ (Int.log 2 q + 1) = 2 ^ 53 * 2 ^ ulpExponent q := by
    rw [← zpow_natCast, ← zpow_add₀ (by norm_num)]
    congr 1
    unfold ulpExponent
    omega
  exact ⟨(le_div_iff₀ hpow).mpr (h52 ▸ hlow), (div_lt_iff₀ hpow).mpr (h53 ▸ hhigh)⟩

/-- In units of its ulp a number rounds into its binade, or to the next power of two. -/
theorem roundEven_ulps {q : ℚ} (hq : 0 < q) :
    2 ^ 52 ≤ roundEven (q / 2 ^ ulpExponent q) ∧ roundEven (q / 2 ^ ulpExponent q) ≤ 2 ^ 53 := by
  obtain ⟨hlow, hhigh⟩ := ulps_bounds hq
  constructor
  · have h := roundEven_mono hlow
    rwa [show ((2 : ℚ) ^ 52) = ((2 ^ 52 : ℤ) : ℚ) by norm_num, roundEven_intCast] at h
  · have h := roundEven_mono hhigh.le
    rwa [show ((2 : ℚ) ^ 53) = ((2 ^ 53 : ℤ) : ℚ) by norm_num, roundEven_intCast] at h

/-- Rounding is monotone. -/
theorem nearest_mono {p q : ℚ} (hp : 0 < p) (h : p ≤ q) : nearest p ≤ nearest q := by
  have hexp : ulpExponent p ≤ ulpExponent q := by
    have := Int.log_mono_right (b := 2) hp h
    unfold ulpExponent
    omega
  unfold nearest
  rcases hexp.lt_or_eq with hlt | heq
  · -- the smaller number rounds at most to the next power of two
    have hup : (roundEven (p / 2 ^ ulpExponent p) : ℚ) ≤ 2 ^ 53 := by
      exact_mod_cast (roundEven_ulps hp).2
    have hdown : (2 : ℚ) ^ 52 ≤ roundEven (q / 2 ^ ulpExponent q) := by
      exact_mod_cast (roundEven_ulps (lt_of_lt_of_le hp h)).1
    calc (roundEven (p / 2 ^ ulpExponent p) : ℚ) * 2 ^ ulpExponent p
        ≤ 2 ^ 53 * 2 ^ ulpExponent p := mul_le_mul_of_nonneg_right hup (two_zpow_pos _).le
      _ = 2 ^ 52 * 2 ^ (ulpExponent p + 1) := by
        rw [zpow_add_one₀ (by norm_num)]
        ring
      _ ≤ 2 ^ 52 * 2 ^ ulpExponent q := by
        refine mul_le_mul_of_nonneg_left ?_ (by positivity)
        exact zpow_le_zpow_right₀ (by norm_num) (by omega)
      _ ≤ roundEven (q / 2 ^ ulpExponent q) * 2 ^ ulpExponent q :=
        mul_le_mul_of_nonneg_right hdown (two_zpow_pos _).le
  · rw [heq]
    refine mul_le_mul_of_nonneg_right ?_ (two_zpow_pos _).le
    exact_mod_cast roundEven_mono (div_le_div_of_nonneg_right h (two_zpow_pos _).le)

/-- A positive number rounds to a positive one. -/
theorem nearest_pos {q : ℚ} (hq : 0 < q) : 0 < nearest q := by
  have hdown : (2 : ℚ) ^ 52 ≤ roundEven (q / 2 ^ ulpExponent q) := by
    exact_mod_cast (roundEven_ulps hq).1
  exact mul_pos (lt_of_lt_of_le (by norm_num) hdown) (two_zpow_pos _)

/-! ## Shifting a mantissa -/

/-- The number whose integer part is the mantissa, and of whose fraction the two residual bits
tell on which side of one half it lies. -/
def Represents (em : ExtendedMantissa) (q : ℚ) : Prop :=
  ∃ rest : ℚ, q = em.mantissa + (if em.roundBit then 1 / 2 else 0) + rest ∧
    0 ≤ rest ∧ rest < 1 / 2 ∧ (em.stickyBit = false ↔ rest = 0)

/-- One shift halves the number that is represented. -/
theorem represents_shift {em : ExtendedMantissa} {q : ℚ} (h : Represents em q) :
    Represents em.shiftRightOne (q / 2) := by
  obtain ⟨rest, hq, hnonneg, hlt, hsticky⟩ := h
  have hsplit : (em.mantissa : ℚ) = 2 * (em.mantissa / 2 : ℕ) + (em.mantissa % 2 : ℕ) := by
    exact_mod_cast (Nat.div_add_mod em.mantissa 2).symm
  refine ⟨(if em.roundBit then 1 / 4 else 0) + rest / 2, ?_, ?_, ?_, ?_⟩
  · show q / 2 = ((em.mantissa / 2 : ℕ) : ℚ) + (if (em.mantissa % 2 != 0) = true then 1 / 2 else 0) + _
    rcases Nat.mod_two_eq_zero_or_one em.mantissa with hbit | hbit
    · rw [hbit] at hsplit ⊢
      rw [hq, hsplit]
      split <;> simp <;> ring
    · rw [hbit] at hsplit ⊢
      rw [hq, hsplit]
      split <;> simp <;> ring
  · split <;> linarith
  · split <;> linarith
  · show (em.roundBit || em.stickyBit) = false ↔ _
    cases em.roundBit with
    | true =>
      simp only [Bool.true_or, Bool.true_eq_false, if_true, false_iff]
      linarith
    | false =>
      simp only [Bool.false_or, Bool.false_eq_true, if_false, hsticky]
      constructor <;> intro h <;> linarith

/-- So do many. -/
theorem represents_shifts {em : ExtendedMantissa} {q : ℚ} (h : Represents em q) (k : ℕ) :
    Represents (em >>> k) (q / 2 ^ k) := by
  induction k with
  | zero =>
    show Represents em (q / 2 ^ 0)
    rwa [pow_zero, div_one]
  | succ k ih =>
    have hstep := represents_shift ih
    rwa [div_div, ← pow_succ] at hstep

/-- A mantissa represents itself. -/
theorem represents_exact (m : ℕ) :
    Represents (ExtendedMantissa.ofMantissaAndAccuracy m .exact) m :=
  ⟨0, by simp [ExtendedMantissa.ofMantissaAndAccuracy]⟩

/-- The mantissa is the integer part. -/
theorem floor_of_represents {em : ExtendedMantissa} {q : ℚ} (h : Represents em q) :
    ⌊q⌋ = em.mantissa := by
  obtain ⟨rest, hq, hnonneg, hlt, -⟩ := h
  rw [Int.floor_eq_iff, hq]
  constructor
  · split <;> simp <;> linarith
  · split <;> simp <;> linarith

/-- The rounded mantissa is the number rounded half to even. -/
theorem roundedMantissa_eq {em : ExtendedMantissa} {q : ℚ} (h : Represents em q) :
    (em.roundedMantissa : ℤ) = roundEven q := by
  have hfloor := floor_of_represents h
  obtain ⟨rest, hq, hnonneg, hlt, hsticky⟩ := h
  have hfract : Int.fract q = (if em.roundBit then 1 / 2 else 0) + rest := by
    rw [Int.fract, hfloor, hq]
    simp only [Int.cast_natCast]
    ring
  obtain ⟨m, round, sticky⟩ := em
  simp only at hfloor hfract hsticky
  rw [roundEven, hfloor, hfract]
  cases round with
  | false =>
    rw [if_pos (by simpa using hlt)]
    cases sticky <;> rfl
  | true =>
    rw [if_neg (by simpa using hnonneg)]
    cases sticky with
    | false =>
      rw [if_pos (by simpa using hsticky)]
      rfl
    | true =>
      rw [if_neg (by simpa using hsticky)]
      rfl

/-! ## The rounding of the model -/

/-- The value of a positive finite float. -/
def value (m : ℕ) (e : ℤ) : ℚ := m * 2 ^ e

theorem value_pos {m : ℕ} (hm : 0 < m) (e : ℤ) : 0 < value m e :=
  mul_pos (by exact_mod_cast hm) (two_zpow_pos e)

/-- The binade of a number. -/
theorem log_value {m : ℕ} (hm : 0 < m) (e : ℤ) : Int.log 2 (value m e) = m.log2 + e := by
  have hlow : (2 : ℚ) ^ ((m.log2 : ℤ) + e) ≤ value m e := by
    rw [zpow_add₀ (by norm_num), zpow_natCast]
    refine mul_le_mul_of_nonneg_right ?_ (two_zpow_pos e).le
    exact_mod_cast Nat.log2_self_le hm.ne'
  have hhigh : value m e < (2 : ℚ) ^ ((m.log2 : ℤ) + e + 1) := by
    rw [add_right_comm, zpow_add₀ (by norm_num)]
    refine mul_lt_mul_of_pos_right ?_ (two_zpow_pos e)
    exact_mod_cast Nat.lt_log2_self (n := m)
  have hle := (Int.zpow_le_iff_le_log (b := 2) (by decide) (value_pos hm e)).mp hlow
  have hlt := (Int.lt_zpow_iff_log_lt (b := 2) (by decide) (value_pos hm e)).mp hhigh
  omega

theorem shiftToTargetExponent_eq {m j : ℕ} {e : ℤ} (a : Accuracy) (hm : m.log2 = 52 + j)
    (he : -1074 ≤ e) : shiftToTargetExponent .binary64 m e a =
      (ExtendedMantissa.ofMantissaAndAccuracy m a >>> j, e + j) := by
  have htarget : Format.binary64.targetExponent (totalExponent m e) = e + j := by
    show max ((m.log2 : ℤ) + 1 + e - (1 + 52 : ℕ)) (-1074) = e + j
    omega
  have hshift : (e + j - e).toNat = j := by omega
  unfold shiftToTargetExponent shiftToExponent
  simp only [htarget, hshift]

theorem roundWithAccuracy_of_shifts {m : ℕ} {e e₁ e₂ : ℤ} {em₁ em₂ : ExtendedMantissa}
    {a : Accuracy} {s : Sign} (hfirst : shiftToTargetExponent .binary64 m e a = (em₁, e₁))
    (hsecond : shiftToTargetExponent .binary64 em₁.roundedMantissa e₁ .exact = (em₂, e₂))
    (hpos : 0 < em₂.mantissa) :
    roundWithAccuracy .binary64 s m e a = .finite s em₂.mantissa e₂ hpos := by
  unfold roundWithAccuracy
  simp only [hfirst, hsecond, hpos.ne', dite_false]

/-- A mantissa of at least 53 bits is shifted to 53 bits, rounded, and shifted once more when
rounding carried into the 54th. -/
theorem roundWithAccuracy_eq {m : ℕ} {e : ℤ} (s : Sign) (hm : 52 ≤ m.log2) (he : -1074 ≤ e) :
    ∃ r t h, roundWithAccuracy .binary64 s m e .exact = .finite s r t h ∧
      2 ^ 52 ≤ r ∧ r < 2 ^ 53 ∧ e ≤ t ∧ t ≤ e + m.log2 - 51 ∧
      value r t = nearest (value m e) := by
  have hpos : 0 < m := Nat.pos_of_ne_zero (by rintro rfl; exact absurd hm (by decide))
  obtain ⟨j, hj⟩ := Nat.exists_eq_add_of_le hm
  have hulp : ulpExponent (value m e) = e + j := by
    rw [ulpExponent, log_value hpos, hj]
    omega
  have hulps : value m e / 2 ^ ulpExponent (value m e) = m / 2 ^ j := by
    rw [hulp, value, zpow_add₀ (by norm_num), zpow_natCast]
    have := two_zpow_pos e
    field_simp
  have hrounded := roundedMantissa_eq (represents_shifts (represents_exact m) j)
  obtain ⟨hlow, hhigh⟩ := roundEven_ulps (value_pos hpos e)
  rw [hulps, ← hrounded] at hlow hhigh
  have hnearest : nearest (value m e) = value
      (ExtendedMantissa.ofMantissaAndAccuracy m .exact >>> j).roundedMantissa (e + j) := by
    rw [nearest, hulps, hulp, ← hrounded, value]
    simp
  rw [hnearest]
  generalize hfirst : ExtendedMantissa.ofMantissaAndAccuracy m .exact >>> j = em at *
  have hshift : shiftToTargetExponent .binary64 m e .exact = (em, e + j) := by
    rw [shiftToTargetExponent_eq .exact hj he, hfirst]
  have hlow' : 2 ^ 52 ≤ em.roundedMantissa := by exact_mod_cast hlow
  have hhigh' : em.roundedMantissa ≤ 2 ^ 53 := by exact_mod_cast hhigh
  rcases hhigh'.lt_or_eq with hlt | heq
  · have hlog : em.roundedMantissa.log2 = 52 + 0 :=
      (Nat.log2_eq_iff (by omega)).mpr ⟨hlow', hlt⟩
    have hsecond : shiftToTargetExponent .binary64 em.roundedMantissa (e + j) .exact =
        (⟨em.roundedMantissa, false, false⟩, e + j) := by
      rw [shiftToTargetExponent_eq .exact hlog (by omega), Nat.cast_zero, add_zero]
      rfl
    exact ⟨em.roundedMantissa, e + j, by omega,
      roundWithAccuracy_of_shifts hshift hsecond (lt_of_lt_of_le (by decide) hlow'), hlow', hlt,
      by omega, by omega, rfl⟩
  · -- the carry into the 54th bit
    have hlog : em.roundedMantissa.log2 = 52 + 1 := by
      rw [heq]
      exact Nat.log2_two_pow
    have hsecond : shiftToTargetExponent .binary64 em.roundedMantissa (e + j) .exact =
        (⟨2 ^ 52, false, false⟩, e + j + 1) := by
      rw [shiftToTargetExponent_eq .exact hlog (by omega), heq]
      rfl
    refine ⟨2 ^ 52, e + j + 1, by decide,
      roundWithAccuracy_of_shifts hshift hsecond (by decide), le_rfl, by decide, by omega,
      by omega, ?_⟩
    rw [heq, value, value, zpow_add_one₀ (by norm_num)]
    push_cast
    ring

/-! ## Positive normal floats -/

/-- `x` is the positive normal number `m * 2 ^ e`. -/
structure Normal (x : Float) (m : ℕ) (e : ℤ) : Prop where
  unpack : ∃ h, x.toModel.unpack = .finite .positive m e h
  low : 2 ^ 52 ≤ m
  high : m < 2 ^ 53
  exponent : -1074 ≤ e ∧ e ≤ 971

theorem Normal.pos {x : Float} {m : ℕ} {e : ℤ} (h : Normal x m e) : 0 < m :=
  lt_of_lt_of_le (by decide) h.low

theorem Normal.value_pos {x : Float} {m : ℕ} {e : ℤ} (h : Normal x m e) : 0 < value m e :=
  Binary64.value_pos h.pos e

theorem unpackSign_packComponents {spec : Format} {sign : Sign}
    {exponent : BitVec spec.exponentBits} {mantissa : BitVec spec.mantissaBitsWithoutImplicit} :
    unpackSign (packComponents spec sign exponent mantissa) = sign.toBitVec := by
  ext i hi
  obtain rfl : i = 0 := by omega
  simp [unpackSign, packComponents, BitVec.getLsbD_eq_getElem, BitVec.getLsbD_append,
    BitVec.getElem_append]

theorem ofBitVec_toBitVec (sign : Sign) : Sign.ofBitVec sign.toBitVec = sign := by
  cases sign <;> rfl

/-- The mantissa field of a normal number lacks its leading bit. -/
theorem leading_bit {m : ℕ} (hlow : 2 ^ 52 ≤ m) (hhigh : m < 2 ^ 53) :
    (1#1 ++ BitVec.ofNat 52 m).toNat = m := by
  have hmod : m % 2 ^ 52 = m - 2 ^ 52 := by omega
  have hfield : (BitVec.ofNat 52 m).toNat = m - 2 ^ 52 := by
    rw [BitVec.toNat_ofNat, hmod]
  rw [BitVec.toNat_append, hfield, ← Nat.shiftLeft_add_eq_or_of_lt (by omega)]
  show 1 <<< 52 + (m - 2 ^ 52) = m
  rw [Nat.shiftLeft_eq]
  omega

theorem finite_congr {s : Sign} {m k : ℕ} {e t : ℤ} {hm : 0 < m} {hk : 0 < k} (h : m = k)
    (h' : e = t) : UnpackedFloat.finite s m e hm = .finite s k t hk := by
  subst h h'
  rfl

/-- Packing keeps a normal number. -/
theorem normal_pack {m : ℕ} {e : ℤ} (hpos : 0 < m) (hlow : 2 ^ 52 ≤ m) (hhigh : m < 2 ^ 53)
    (he : -1074 ≤ e ∧ e ≤ 971) :
    Normal (.ofModel (.pack (.finite .positive m e hpos))) m e := by
  refine ⟨⟨hpos, ?_⟩, hlow, hhigh, he⟩
  have hlog : m.log2 = 52 := (Nat.log2_eq_iff hpos.ne').mpr ⟨hlow, hhigh⟩
  obtain ⟨b, hb⟩ := Int.eq_ofNat_of_zero_le (show 0 ≤ e + 1075 by omega)
  have hbiased : (e + (1023 : ℕ) + (52 : ℕ)).toNat = b := by omega
  have hpack : UnpackedFloat.pack .binary64 (.finite .positive m e hpos) =
      packComponents .binary64 .positive (BitVec.ofNat 11 b) (BitVec.ofNat 52 m) := by
    show (if 2 ^ 11 ≤ (e + (1023 : ℕ) + (52 : ℕ)).toNat + 1 then _ else _) = _
    rw [hbiased, if_neg (by omega)]
    show (if m.log2 + 1 = 53 then _ else _) = _
    rw [if_pos (by omega)]
    show packComponents .binary64 .positive
      (BitVec.ofNat 11 (e + (1023 : ℕ) + (52 : ℕ)).toNat) (BitVec.ofNat 52 m) = _
    rw [hbiased]
  -- the biased exponent fits, and is neither of the two reserved ones
  have hexponent : (BitVec.ofNat 11 b).toNat = b := by
    rw [BitVec.toNat_ofNat]
    omega
  have hmax : BitVec.ofNat 11 b ≠ -1#11 := fun h => by
    have := congrArg BitVec.toNat h
    rw [hexponent] at this
    exact absurd (this.trans (by rfl : (-1#11 : BitVec 11).toNat = 2047)) (by omega)
  have hzero : BitVec.ofNat 11 b ≠ 0#11 := fun h => by
    have := congrArg BitVec.toNat h
    rw [hexponent] at this
    exact absurd (this.trans (by rfl : (0#11 : BitVec 11).toNat = 0)) (by omega)
  show UnpackedFloat.unpack .binary64 (UnpackedFloat.pack .binary64 _) = _
  rw [hpack]
  simp only [UnpackedFloat.unpack, unpackExponent_packComponents, unpackMantissa_packComponents,
    unpackSign_packComponents, ofBitVec_toBitVec]
  rw [if_neg hmax, if_neg hzero]
  have hvalue : ((BitVec.ofNat 11 b).toNat : ℤ) - ((1023 : ℕ) + (52 : ℕ)) = e := by
    rw [hexponent]
    omega
  exact finite_congr (leading_bit hlow hhigh) hvalue

/-! ## Order -/

/-- The mantissa field of the bits. -/
def mantissaField (x : Float) : BitVec 52 := @unpackMantissa .binary64 x.toModel.toBits.toBitVec

/-- The exponent field of the bits. -/
def exponentField (x : Float) : BitVec 11 := @unpackExponent .binary64 x.toModel.toBits.toBitVec

/-- What unpacking yields for a finite number: a 53-bit mantissa, or the least exponent. -/
theorem unpack_canonical {x : Float} {s : Sign} {m : ℕ} {e : ℤ} {h : 0 < m}
    (hx : x.toModel.unpack = .finite s m e h) :
    m < 2 ^ 53 ∧ -1074 ≤ e ∧ e ≤ 971 ∧ (2 ^ 52 ≤ m ∨ e = -1074) := by
  have hmantissa : (mantissaField x).toNat < 2 ^ 52 := (mantissaField x).isLt
  have hexponent : (exponentField x).toNat < 2 ^ 11 := (exponentField x).isLt
  unfold Float.Model.unpack UnpackedFloat.unpack at hx
  dsimp only at hx
  split at hx
  · split at hx <;> cases hx
  rename_i hmax
  have hbounded : (exponentField x).toNat ≠ 2047 := fun h => hmax (BitVec.eq_of_toNat_eq h)
  split at hx
  · rename_i hzero
    have hfield : (exponentField x).toNat = 0 := congrArg BitVec.toNat hzero
    split at hx
    · cases hx
    · -- subnormal
      cases hx
      show (mantissaField x).toNat < 2 ^ 53 ∧
        -1074 ≤ ((exponentField x).toNat : ℤ) - ((1023 : ℕ) + (52 : ℕ)) + 1 ∧
        ((exponentField x).toNat : ℤ) - ((1023 : ℕ) + (52 : ℕ)) + 1 ≤ 971 ∧
        (2 ^ 52 ≤ (mantissaField x).toNat ∨
          ((exponentField x).toNat : ℤ) - ((1023 : ℕ) + (52 : ℕ)) + 1 = -1074)
      omega
  · rename_i hzero
    have hpositive : (exponentField x).toNat ≠ 0 := fun h => hzero (BitVec.eq_of_toNat_eq h)
    cases hx
    have hlead : (1#1 ++ mantissaField x).toNat = 2 ^ 52 + (mantissaField x).toNat := by
      rw [BitVec.toNat_append, ← Nat.shiftLeft_add_eq_or_of_lt hmantissa]
      rfl
    show (1#1 ++ mantissaField x).toNat < 2 ^ 53 ∧
      -1074 ≤ ((exponentField x).toNat : ℤ) - ((1023 : ℕ) + (52 : ℕ)) ∧
      ((exponentField x).toNat : ℤ) - ((1023 : ℕ) + (52 : ℕ)) ≤ 971 ∧
      (2 ^ 52 ≤ (1#1 ++ mantissaField x).toNat ∨
        ((exponentField x).toNat : ℤ) - ((1023 : ℕ) + (52 : ℕ)) = -1074)
    omega

/-- A larger exponent makes a larger number, whatever the mantissas. -/
theorem value_lt_of_exponent {m k : ℕ} {e t : ℤ} (hm : m < 2 ^ 53) (hk : 2 ^ 52 ≤ k)
    (h : e < t) : value m e < value k t := by
  have hm' : (m : ℚ) < 2 ^ 53 := by exact_mod_cast hm
  have hk' : (2 : ℚ) ^ 52 ≤ k := by exact_mod_cast hk
  calc value m e < 2 ^ 53 * 2 ^ e := mul_lt_mul_of_pos_right hm' (two_zpow_pos e)
    _ = 2 ^ 52 * 2 ^ (e + 1) := by
      rw [zpow_add_one₀ (by norm_num)]
      ring
    _ ≤ 2 ^ 52 * 2 ^ t := by
      refine mul_le_mul_of_nonneg_left ?_ (by norm_num)
      exact zpow_le_zpow_right₀ (by norm_num) (by omega)
    _ ≤ value k t := mul_le_mul_of_nonneg_right hk' (two_zpow_pos t).le

/-- At one exponent the mantissas are compared. -/
theorem value_lt_iff {m k : ℕ} {e : ℤ} : value m e < value k e ↔ m < k := by
  rw [value, value, mul_lt_mul_iff_left₀ (two_zpow_pos e)]
  exact Nat.cast_lt

theorem lt_iff_unpack {x y : Float} :
    x < y ↔ x.toModel.unpack.compare y.toModel.unpack = some .lt := by
  show (decide (UnpackedFloat.lt _ _ = true) = true) ↔ _
  rw [decide_eq_true_iff]
  exact beq_iff_eq

/-- Normal floats compare as their values do. -/
theorem normal_lt {x y : Float} {m k : ℕ} {e t : ℤ} (hx : Normal x m e) (hy : Normal y k t) :
    x < y ↔ value m e < value k t := by
  obtain ⟨hm, hxu⟩ := hx.unpack
  obtain ⟨hk, hyu⟩ := hy.unpack
  have hcompare : x < y ↔ e < t ∨ e = t ∧ m < k := by
    rw [lt_iff_unpack, hxu, hyu]
    show some ((compare e t).then (compare m k)) = some .lt ↔ _
    rw [Option.some.injEq, Ordering.then_eq_lt, compare_lt_iff_lt, compare_eq_iff_eq,
      compare_lt_iff_lt]
  rw [hcompare]
  rcases lt_trichotomy e t with h | rfl | h
  · simp only [h, true_or, true_iff]
    exact value_lt_of_exponent hx.high hy.low h
  · simp only [lt_irrefl, true_and, false_or, value_lt_iff]
  · simp only [h.not_gt, h.ne', false_and, or_self, false_iff]
    exact (value_lt_of_exponent hy.high hx.low h).not_gt

theorem Normal.isFinite {x : Float} {m : ℕ} {e : ℤ} (h : Normal x m e) : x.isFinite = true := by
  obtain ⟨hm, hx⟩ := h.unpack
  show x.toModel.unpack.isFinite = true
  rw [hx]
  rfl

theorem Normal.not_le_zero {x : Float} {m : ℕ} {e : ℤ} (h : Normal x m e) : ¬ x ≤ 0 := by
  obtain ⟨hm, hx⟩ := h.unpack
  have hzero : (0 : Float).toModel.unpack = .zero .positive := rfl
  show ¬ (decide (x.toModel.unpack.le (0 : Float).toModel.unpack = true) = true)
  rw [hx, hzero]
  exact Bool.false_ne_true

/-- A finite number that is not below a positive normal one is positive and normal. -/
theorem normal_of_not_lt {x c : Float} {m : ℕ} {e : ℤ} (hc : Normal c m e)
    (hexp : -1074 < e) (hfinite : x.isFinite = true) (h : ¬ x < c) : ∃ k t, Normal x k t := by
  obtain ⟨hm, hcu⟩ := hc.unpack
  rw [lt_iff_unpack, hcu] at h
  change x.toModel.unpack.isFinite = true at hfinite
  cases hx : x.toModel.unpack with
  | infinity s =>
    rw [hx] at hfinite
    cases hfinite
  | notANumber =>
    rw [hx] at hfinite
    cases hfinite
  | zero s =>
    rw [hx] at h
    exact absurd rfl h
  | finite s k t hk =>
    cases s with
    | negative =>
      rw [hx] at h
      exact absurd rfl h
    | positive =>
      obtain ⟨hhigh, hlow, htop, hnormal⟩ := unpack_canonical hx
      rcases hnormal with hnormal | rfl
      · exact ⟨k, t, ⟨hk, hx⟩, hnormal, hhigh, hlow, htop⟩
      · -- a subnormal number is below `c`
        rw [hx] at h
        have hlt : (compare (-1074) e).then (compare k m) = .lt := by
          rw [compare_lt_iff_lt.mpr hexp]
          rfl
        exact absurd (congrArg some hlt) h

/-! ## Products -/

/-- Values multiply. -/
theorem value_mul (m k : ℕ) (e t : ℤ) : value m e * value k t = value (m * k) (e + t) := by
  rw [value, value, value, zpow_add₀ (by norm_num)]
  push_cast
  ring

/-- A product that neither underflows nor overflows is the exact one, rounded. -/
theorem normal_mul {x y : Float} {m k : ℕ} {e t : ℤ} (hx : Normal x m e) (hy : Normal y k t)
    (hlow : -1074 ≤ e + t) (hhigh : e + t ≤ 910) :
    ∃ r u, Normal (x * y) r u ∧ value r u = nearest (value m e * value k t) := by
  obtain ⟨hm, hxu⟩ := hx.unpack
  obtain ⟨hk, hyu⟩ := hy.unpack
  have hlarge : 2 ^ 52 * 2 ^ 52 ≤ m * k := Nat.mul_le_mul hx.low hy.low
  have hsmall : m * k < 2 ^ 53 * 2 ^ 53 := Nat.mul_lt_mul'' hx.high hy.high
  have hlog : 52 ≤ (m * k).log2 := (Nat.le_log2 (by omega)).mpr (by omega)
  have hlog' : (m * k).log2 < 106 := (Nat.log2_lt (by omega)).mpr (by omega)
  obtain ⟨r, u, hr, hround, hlow', hhigh', hu, hu', hvalue⟩ :=
    roundWithAccuracy_eq .positive hlog hlow
  refine ⟨r, u, ?_, by rw [hvalue, value_mul]⟩
  have hproduct : x * y = .ofModel (.pack (.finite .positive r u hr)) := by
    show Float.ofModel (.pack (UnpackedFloat.mul .binary64 x.toModel.unpack y.toModel.unpack)) = _
    rw [hxu, hyu, ← hround]
    rfl
  rw [hproduct]
  exact normal_pack hr hlow' hhigh' (by omega)

/-! ## Conversions to and from integers -/

theorem toUInt64_eq {x : Float} {m : ℕ} {e : ℤ} (hx : Normal x m e)
    (hlt : value m e < 2 ^ 53) : (x.toUInt64.toNat : ℤ) = ⌊value m e⌋ := by
  obtain ⟨hm, hxu⟩ := hx.unpack
  have he : e ≤ 0 := by
    by_contra he
    have hlow : (2 : ℚ) ^ 52 ≤ m := by exact_mod_cast hx.low
    have hpow : (2 : ℚ) ^ (1 : ℤ) ≤ 2 ^ e := zpow_le_zpow_right₀ (by norm_num) (by omega)
    have hle : (2 : ℚ) ^ 52 * 2 ^ (1 : ℤ) ≤ value m e :=
      mul_le_mul hlow hpow (by norm_num) (by positivity)
    norm_num at hle
    linarith
  obtain ⟨n, hn⟩ := Int.eq_ofNat_of_zero_le (show 0 ≤ -e by omega)
  have hvalue : value m e = m / 2 ^ n := by
    rw [value, show e = -(n : ℤ) by omega, zpow_neg, zpow_natCast]
    rfl
  have hfloor := floor_of_represents (represents_shifts (represents_exact m) n)
  rw [← hvalue] at hfloor
  rw [hfloor]
  have hint : x.toModel.unpack.toInt 0 (UInt64.size - 1) =
      (ExtendedMantissa.ofMantissaAndAccuracy m .exact >>> n).mantissa := by
    rw [hxu]
    show ((ExtendedMantissa.ofMantissaAndAccuracy (m <<< (e - 0).toNat) .exact
      >>> (0 - (e - ((e - 0).toNat : ℤ))).toNat).mantissa : ℤ) = _
    rw [show (e - 0).toNat = 0 by omega, show (0 - (e - ((0 : ℕ) : ℤ))).toNat = n by omega,
      Nat.shiftLeft_zero]
  have hbound : (ExtendedMantissa.ofMantissaAndAccuracy m .exact >>> n).mantissa < 2 ^ 53 := by
    have h : ((⌊value m e⌋ : ℤ) : ℚ) < 2 ^ 53 := lt_of_le_of_lt (Int.floor_le _) hlt
    rw [hfloor] at h
    exact_mod_cast h
  show ((UInt64.ofNatClamp (x.toModel.unpack.toInt 0 (UInt64.size - 1)).toNat).toNat : ℤ) = _
  rw [hint, Int.toNat_natCast, UInt64.toNat_ofNatClamp_of_lt (lt_trans hbound (by decide))]

/-- A value with a normal mantissa is its own rounding. -/
theorem nearest_value {m : ℕ} {e : ℤ} (hlow : 2 ^ 52 ≤ m) (hhigh : m < 2 ^ 53) :
    nearest (value m e) = value m e := by
  have hpos : 0 < m := lt_of_lt_of_le (by decide) hlow
  have hulp : ulpExponent (value m e) = e := by
    rw [ulpExponent, log_value hpos, (Nat.log2_eq_iff hpos.ne').mpr ⟨hlow, hhigh⟩]
    omega
  rw [nearest, hulp, value, mul_div_cancel_right₀ _ (two_zpow_pos e).ne']
  congr 1
  exact_mod_cast roundEven_intCast m

/-- The conversion shifts an integer of at most 53 bits to the left and rounds nothing. -/
theorem toFloat_eq {n : UInt64} {j : ℕ} (hpos : 0 < n.toNat) (hj : 52 = n.toNat.log2 + j) :
    n.toFloat = .ofModel (.pack (roundWithAccuracy .binary64 .positive (n.toNat <<< j) (-j)
      .exact)) := by
  have hcompare : compare (n.toNat : ℤ) 0 = .gt := compare_gt_iff_gt.mpr (by omega)
  have htarget : Format.binary64.targetExponent (totalExponent n.toNat 0) = -(j : ℤ) := by
    show max ((n.toNat.log2 : ℤ) + 1 + 0 - (1 + 52 : ℕ)) (-1074) = -(j : ℤ)
    omega
  have hshift : (0 - -(j : ℤ)).toNat = j := by omega
  show Float.ofModel (.pack (UnpackedFloat.normalize .binary64 (n.toNat : ℤ) 0 .positive)) = _
  unfold UnpackedFloat.normalize
  rw [hcompare]
  show Float.ofModel (.pack (UnpackedFloat.round .binary64 .positive n.toNat 0)) = _
  unfold UnpackedFloat.round decreaseExponent
  simp only [htarget, hshift]
  rw [Int.zero_sub]

/-- An integer below `2 ^ 53` is a float. -/
theorem normal_toFloat {n : UInt64} (hpos : 0 < n.toNat) (hlt : n.toNat < 2 ^ 53) :
    ∃ m e, Normal n.toFloat m e ∧ value m e = n.toNat := by
  have hlog : n.toNat.log2 < 53 := (Nat.log2_lt hpos.ne').mpr hlt
  obtain ⟨j, hj⟩ := Nat.exists_eq_add_of_le (show n.toNat.log2 ≤ 52 by omega)
  have hlow : 2 ^ 52 ≤ n.toNat <<< j := by
    rw [Nat.shiftLeft_eq, hj, pow_add]
    exact Nat.mul_le_mul_right _ (Nat.log2_self_le hpos.ne')
  have hhigh : n.toNat <<< j < 2 ^ 53 := by
    rw [Nat.shiftLeft_eq, show 53 = n.toNat.log2 + 1 + j by omega, pow_add]
    exact Nat.mul_lt_mul_of_pos_right Nat.lt_log2_self (Nat.two_pow_pos j)
  have hshifted : (n.toNat <<< j).log2 = 52 :=
    (Nat.log2_eq_iff (by omega)).mpr ⟨hlow, hhigh⟩
  obtain ⟨r, t, hr, hround, hlow', hhigh', ht, ht', hvalue⟩ :=
    roundWithAccuracy_eq (m := n.toNat <<< j) (e := -j) .positive (by omega) (by omega)
  have hexact : value (n.toNat <<< j) (-j) = n.toNat := by
    rw [value, Nat.shiftLeft_eq, zpow_neg, zpow_natCast]
    push_cast
    field_simp
  refine ⟨r, t, ?_, by rw [hvalue, nearest_value hlow hhigh, hexact]⟩
  rw [toFloat_eq hpos hj, hround]
  exact normal_pack hr hlow' hhigh' (by omega)

/-! ## Ceilings -/

/-- The ceiling of a positive normal number, from its truncation. -/
theorem ceil_eq {x : Float} {m : ℕ} {e : ℤ} (hx : Normal x m e) (hlt : value m e < 2 ^ 53) :
    (if x.toUInt64.toFloat < x then x.toUInt64.toNat + 1 else x.toUInt64.toNat) =
      ⌈value m e⌉₊ := by
  have hfloor := toUInt64_eq hx hlt
  have hle : (x.toUInt64.toNat : ℚ) ≤ value m e := by
    have := Int.floor_le (value m e)
    rw [← hfloor] at this
    exact_mod_cast this
  have hgt : value m e < x.toUInt64.toNat + 1 := by
    have := Int.lt_floor_add_one (value m e)
    rw [← hfloor] at this
    exact_mod_cast this
  have hless : x.toUInt64.toFloat < x ↔ (x.toUInt64.toNat : ℚ) < value m e := by
    by_cases hzero : x.toUInt64.toNat = 0
    · -- the zero float is below every positive one
      have hword : x.toUInt64 = 0 := UInt64.toNat_inj.mp hzero
      rw [hzero, hword]
      obtain ⟨hm, hxu⟩ := hx.unpack
      have hlt : (0 : UInt64).toFloat < x := by
        rw [lt_iff_unpack, hxu]
        rfl
      simpa [hlt] using hx.value_pos
    · have hbound : x.toUInt64.toNat < 2 ^ 53 := by
        exact_mod_cast lt_of_le_of_lt hle hlt
      obtain ⟨k, t, hk, hvalue⟩ := normal_toFloat (Nat.pos_of_ne_zero hzero) hbound
      rw [normal_lt hk hx, hvalue]
  split
  case isTrue h =>
    symm
    rw [Nat.ceil_eq_iff (by omega)]
    exact ⟨by simpa using hless.mp h, by push_cast; exact hgt.le⟩
  case isFalse h =>
    have heq : value m e = x.toUInt64.toNat := le_antisymm (not_lt.mp (mt hless.mpr h)) hle
    rw [heq, Nat.ceil_natCast]

end Qwen3Tts.Lib.Binary64
