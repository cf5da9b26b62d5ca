import Mathlib

/-!
# Lib — binary32 numbers are ordered as their patterns

The logical model of `Float32` compares numbers by unpacking them. The comparison is that of the
signed magnitudes, a magnitude being the pattern without its sign bit (`compare_eq`), so every
monotone function of the signed magnitude orders the numbers that are not NaN. A product with a
positive finite number is not NaN, and neither is a quotient.
-/

namespace Qwen3Tts.Lib.Binary32

open Float.Model Float.Model.UnpackedFloat

/-! ## Patterns -/

/-- The pattern without its sign bit. -/
def magnitude (x : Float32) : Nat := x.toBits.toNat % 2 ^ 31

/-- The pattern as a signed number. -/
def level (x : Float32) : Int :=
  if x.toBits.toNat < 2 ^ 31 then magnitude x else -magnitude x

/-- An unpacked number, its sign and its magnitude. The exponent of the least numbers is `-149`, and
from there on the magnitude of a number is its mantissa in the binade of its exponent. -/
inductive Shape : UnpackedFloat → Sign → Nat → Prop
  | zero (s : Sign) : Shape (.zero s) s 0
  | finite (s : Sign) (m k : Nat) (h : 0 < m) (hm : m < 2 ^ 24) (hlead : 2 ^ 23 ≤ m ∨ k = 0)
      (hk : k < 254) : Shape (.finite s m (k - 149) h) s (k * 2 ^ 23 + m)
  | infinity (s : Sign) : Shape (.infinity s) s (255 * 2 ^ 23)

section Fields

variable (b : BitVec 32)

/-- The mantissa field of a pattern. -/
def mantissaField : BitVec 23 := @unpackMantissa .binary32 b

/-- The exponent field of a pattern. -/
def exponentField : BitVec 8 := @unpackExponent .binary32 b

/-- The sign field of a pattern. -/
def signField : BitVec 1 := @unpackSign .binary32 b

theorem mantissaField_toNat : (mantissaField b).toNat = b.toNat % 2 ^ 23 := by
  simp [mantissaField, unpackMantissa, BitVec.extractLsb]

theorem exponentField_toNat : (exponentField b).toNat = b.toNat / 2 ^ 23 % 2 ^ 8 := by
  simp [exponentField, unpackExponent, BitVec.extractLsb, Nat.shiftRight_eq_div_pow]

theorem signField_toNat : (signField b).toNat = b.toNat / 2 ^ 31 % 2 := by
  simp [signField, unpackSign, BitVec.extractLsb, Nat.shiftRight_eq_div_pow]

/-- The mantissa field behind its leading bit. -/
theorem lead_toNat : (1#1 ++ mantissaField b).toNat = 2 ^ 23 + b.toNat % 2 ^ 23 := by
  have hmantissa : (mantissaField b).toNat < 2 ^ 23 := (mantissaField b).isLt
  rw [BitVec.toNat_append, ← Nat.shiftLeft_add_eq_or_of_lt hmantissa, mantissaField_toNat]
  rfl

/-- The sign of a pattern. -/
theorem sign_eq : Sign.ofBitVec (signField b)
    = if b.toNat < 2 ^ 31 then Sign.positive else Sign.negative := by
  have hsign := signField_toNat b
  have hword : b.toNat < 2 ^ 32 := b.isLt
  unfold Sign.ofBitVec
  by_cases hzero : signField b = 0#1
  · have hfield : (signField b).toNat = 0 := congrArg BitVec.toNat hzero
    rw [if_pos hzero, if_pos (by omega)]
  · have hfield : (signField b).toNat ≠ 0 := fun h => hzero (BitVec.eq_of_toNat_eq h)
    rw [if_neg hzero, if_neg (by omega)]

end Fields

theorem finite_congr {s : Sign} {m k : Nat} {e t : Int} {hm : 0 < m} {hk : 0 < k} (h : m = k)
    (h' : e = t) : UnpackedFloat.finite s m e hm = .finite s k t hk := by
  subst h h'
  rfl

/-- What unpacking yields for a number. -/
theorem shape_unpack {b : BitVec 32} (hb : (UnpackedFloat.unpack .binary32 b).isNaN = false) :
    Shape (UnpackedFloat.unpack .binary32 b) (Sign.ofBitVec (signField b)) (b.toNat % 2 ^ 31) := by
  have hmantissa := mantissaField_toNat b
  have hexponent := exponentField_toNat b
  generalize hu : UnpackedFloat.unpack .binary32 b = u at hb ⊢
  unfold UnpackedFloat.unpack at hu
  dsimp only at hu
  split at hu
  · rename_i hmax
    have hfield : (exponentField b).toNat = 255 := congrArg BitVec.toNat hmax
    split at hu
    · -- an infinity
      rename_i hzero
      have hfield' : (mantissaField b).toNat = 0 := congrArg BitVec.toNat hzero
      have hmagnitude : b.toNat % 2 ^ 31 = 255 * 2 ^ 23 := by omega
      rw [hmagnitude, ← hu]
      exact .infinity _
    · rw [← hu] at hb
      cases hb
  · rename_i hmax
    have hbounded : (exponentField b).toNat ≠ 255 := fun h => hmax (BitVec.eq_of_toNat_eq h)
    split at hu
    · rename_i hzero
      have hfield : (exponentField b).toNat = 0 := congrArg BitVec.toNat hzero
      split at hu
      · rename_i hnull
        have hfield' : (mantissaField b).toNat = 0 := congrArg BitVec.toNat hnull
        have hmagnitude : b.toNat % 2 ^ 31 = 0 := by omega
        rw [hmagnitude, ← hu]
        exact .zero _
      · -- a subnormal number
        rename_i hnull
        have hpositive : (mantissaField b).toNat ≠ 0 := fun h => hnull (BitVec.eq_of_toNat_eq h)
        have hmagnitude : b.toNat % 2 ^ 31 = 0 * 2 ^ 23 + (mantissaField b).toNat := by omega
        rw [hmagnitude, ← hu]
        have hexp : ((exponentField b).toNat : Int) - ((127 : Nat) + (23 : Nat)) + 1
            = ((0 : Nat) : Int) - 149 := by omega
        have hshape := Shape.finite (Sign.ofBitVec (signField b)) (mantissaField b).toNat 0
          (Nat.pos_of_ne_zero hpositive) (by omega) (.inr rfl) (by decide)
        rw [← finite_congr rfl hexp] at hshape
        exact hshape
    · -- a normal number
      rename_i hzero
      have hpositive : (exponentField b).toNat ≠ 0 := fun h => hzero (BitVec.eq_of_toNat_eq h)
      have hlead := lead_toNat b
      have hmagnitude : b.toNat % 2 ^ 31
          = ((exponentField b).toNat - 1) * 2 ^ 23 + (1#1 ++ mantissaField b).toNat := by omega
      have hexp : ((exponentField b).toNat : Int) - ((127 : Nat) + (23 : Nat))
          = (((exponentField b).toNat - 1 : Nat) : Int) - 149 := by omega
      rw [hmagnitude, ← hu]
      have hshape := Shape.finite (Sign.ofBitVec (signField b)) (1#1 ++ mantissaField b).toNat
        ((exponentField b).toNat - 1) (by omega) (by omega) (.inl (by omega)) (by omega)
      rw [← finite_congr rfl hexp] at hshape
      exact hshape

/-! ## Order -/

/-- Exponent and mantissa are compared as the magnitude. -/
theorem compare_magnitudes {m m' k k' : Nat} (hm : m < 2 ^ 24) (hm' : m' < 2 ^ 24)
    (hlead : 2 ^ 23 ≤ m ∨ k = 0) (hlead' : 2 ^ 23 ≤ m' ∨ k' = 0) :
    (compare ((k : Int) - 149) ((k' : Int) - 149)).then (compare m m')
      = compare (k * 2 ^ 23 + m) (k' * 2 ^ 23 + m') := by
  rcases Nat.lt_trichotomy k k' with hlt | rfl | hgt
  · rw [compare_lt_iff_lt.mpr (show (k : Int) - 149 < k' - 149 by omega),
      compare_lt_iff_lt.mpr (show k * 2 ^ 23 + m < k' * 2 ^ 23 + m' by omega)]
    rfl
  · rw [compare_eq_iff_eq.mpr rfl]
    show compare m m' = _
    rcases Nat.lt_trichotomy m m' with hlt | rfl | hgt
    · rw [compare_lt_iff_lt.mpr hlt,
        compare_lt_iff_lt.mpr (show k * 2 ^ 23 + m < k * 2 ^ 23 + m' by omega)]
    · rw [compare_eq_iff_eq.mpr rfl, compare_eq_iff_eq.mpr rfl]
    · rw [compare_gt_iff_gt.mpr hgt,
        compare_gt_iff_gt.mpr (show k * 2 ^ 23 + m' < k * 2 ^ 23 + m by omega)]
  · rw [compare_gt_iff_gt.mpr (show (k' : Int) - 149 < k - 149 by omega),
      compare_gt_iff_gt.mpr (show k' * 2 ^ 23 + m' < k * 2 ^ 23 + m by omega)]
    rfl

theorem compare_cast (n k : Nat) : compare (n : Int) (k : Int) = compare n k := by
  rcases Nat.lt_trichotomy n k with hlt | rfl | hgt
  · rw [compare_lt_iff_lt.mpr hlt, compare_lt_iff_lt.mpr (show (n : Int) < k by omega)]
  · rw [compare_eq_iff_eq.mpr rfl, compare_eq_iff_eq.mpr rfl]
  · rw [compare_gt_iff_gt.mpr hgt, compare_gt_iff_gt.mpr (show (k : Int) < n by omega)]

theorem compare_neg_cast (n k : Nat) : compare (-(n : Int)) (-(k : Int)) = (compare n k).swap := by
  rcases Nat.lt_trichotomy n k with hlt | rfl | hgt
  · rw [compare_lt_iff_lt.mpr hlt, compare_gt_iff_gt.mpr (show -(k : Int) < -n by omega)]
    rfl
  · rw [compare_eq_iff_eq.mpr rfl, compare_eq_iff_eq.mpr rfl]
    rfl
  · rw [compare_gt_iff_gt.mpr hgt, compare_lt_iff_lt.mpr (show -(n : Int) < -k by omega)]
    rfl

/-- Unpacked numbers are compared as their signed magnitudes. -/
theorem compare_shapes {u v : UnpackedFloat} {s t : Sign} {n k : Nat} (hu : Shape u s n)
    (hv : Shape v t k) : u.compare v = some (compare (s.apply n) (t.apply k)) := by
  have hlt : ∀ {a b : Int}, a < b → some Ordering.lt = some (compare a b) :=
    fun h => by rw [compare_lt_iff_lt.mpr h]
  have hgt : ∀ {a b : Int}, b < a → some Ordering.gt = some (compare a b) :=
    fun h => by rw [compare_gt_iff_gt.mpr h]
  have heq : ∀ {a b : Int}, a = b → some Ordering.eq = some (compare a b) :=
    fun h => by rw [compare_eq_iff_eq.mpr h]
  -- one case for each pair of shapes; the sign decides unless both are finite
  cases hu with
  | zero =>
    cases hv with
    | zero => cases s <;> cases t <;> exact heq (by simp [Sign.apply])
    | finite m =>
      cases t
      · cases s <;> exact hgt (by simp only [Sign.apply]; omega)
      · cases s <;> exact hlt (by simp only [Sign.apply]; omega)
    | infinity =>
      cases t
      · cases s <;> exact hgt (by simp only [Sign.apply]; omega)
      · cases s <;> exact hlt (by simp only [Sign.apply]; omega)
  | finite s m k hpos hm hlead =>
    cases hv with
    | zero =>
      cases s
      · cases t <;> exact hlt (by simp only [Sign.apply]; omega)
      · cases t <;> exact hgt (by simp only [Sign.apply]; omega)
    | finite t m' k' hpos' hm' hlead' =>
      -- two finite numbers compare by exponent and then by mantissa
      have hmagnitudes := compare_magnitudes hm hm' hlead hlead'
      cases s
      · cases t
        · show some (((compare ((k : Int) - 149) ((k' : Int) - 149)).then (compare m m')).swap) = _
          rw [hmagnitudes, ← compare_neg_cast]
          rfl
        · exact hlt (by simp only [Sign.apply]; omega)
      · cases t
        · exact hgt (by simp only [Sign.apply]; omega)
        · show some ((compare ((k : Int) - 149) ((k' : Int) - 149)).then (compare m m')) = _
          rw [hmagnitudes, ← compare_cast]
          rfl
    | infinity =>
      cases t
      · cases s <;> exact hgt (by simp only [Sign.apply]; omega)
      · cases s <;> exact hlt (by simp only [Sign.apply]; omega)
  | infinity =>
    cases hv with
    | zero =>
      cases s
      · cases t <;> exact hlt (by simp only [Sign.apply]; omega)
      · cases t <;> exact hgt (by simp only [Sign.apply]; omega)
    | finite m =>
      cases s
      · cases t <;> exact hlt (by simp only [Sign.apply]; omega)
      · cases t <;> exact hgt (by simp only [Sign.apply]; omega)
    | infinity =>
      cases s
      · cases t
        · exact heq rfl
        · exact hlt (by simp only [Sign.apply]; omega)
      · cases t
        · exact hgt (by simp only [Sign.apply]; omega)
        · exact heq rfl

theorem Shape.le {u : UnpackedFloat} {s : Sign} {n : Nat} (h : Shape u s n) : n ≤ 255 * 2 ^ 23 := by
  cases h with
  | zero => omega
  | finite => omega
  | infinity => omega

/-- No number has a larger magnitude than the infinities. -/
theorem magnitude_le {x : Float32} (hx : x.isNaN = false) : magnitude x ≤ 255 * 2 ^ 23 :=
  (shape_unpack hx).le

/-- **Numbers are compared as their patterns.** -/
theorem compare_eq {x y : Float32} (hx : x.isNaN = false) (hy : y.isNaN = false) :
    x.toModel.unpack.compare y.toModel.unpack = some (compare (level x) (level y)) := by
  have hlevel : ∀ z : Float32,
      (Sign.ofBitVec (signField z.toBits.toBitVec)).apply (magnitude z) = level z := by
    intro z
    unfold level
    rw [sign_eq]
    show (if z.toBits.toNat < 2 ^ 31 then Sign.positive else Sign.negative).apply _ = _
    split <;> rfl
  rw [← hlevel, ← hlevel]
  exact compare_shapes (shape_unpack hx) (shape_unpack hy)

/-- Comparing floats compares their keys. -/
theorem lt_iff {x y : Float32} (hx : x.isNaN = false) (hy : y.isNaN = false) :
    x < y ↔ level x < level y := by
  have hcompare : x < y ↔ x.toModel.unpack.compare y.toModel.unpack = some .lt := by
    show (decide (UnpackedFloat.lt _ _ = true) = true) ↔ _
    rw [decide_eq_true_iff]
    exact beq_iff_eq
  rw [hcompare, compare_eq hx hy, Option.some.injEq, compare_lt_iff_lt]

/-- Floats are equal when their keys are. -/
theorem beq_iff {x y : Float32} (hx : x.isNaN = false) (hy : y.isNaN = false) :
    (x == y) = true ↔ level x = level y := by
  have hcompare : (x == y) = true ↔ x.toModel.unpack.compare y.toModel.unpack = some .eq := by
    show (x.toModel.unpack.compare y.toModel.unpack == some .eq) = true ↔ _
    exact beq_iff_eq
  rw [hcompare, compare_eq hx hy, Option.some.injEq, compare_eq_iff_eq]

/-! ## Products and quotients -/

theorem unpack_isNaN {b : BitVec 32}
    (h : @unpackExponent .binary32 b ≠ -1#8 ∨ @unpackMantissa .binary32 b = 0#23) :
    (UnpackedFloat.unpack .binary32 b).isNaN = false := by
  unfold UnpackedFloat.unpack
  dsimp only
  split
  · rename_i hmax
    rw [if_pos (h.resolve_left fun h => h hmax)]
    rfl
  · split
    · split <;> rfl
    · rfl

/-- Packing does not make a NaN. -/
theorem pack_isNaN {u : UnpackedFloat} (hu : u.isNaN = false) :
    (Float32.ofModel (.pack u)).isNaN = false := by
  show (UnpackedFloat.unpack .binary32 (UnpackedFloat.pack .binary32 u)).isNaN = false
  apply unpack_isNaN
  cases u with
  | infinity s => exact .inr unpackMantissa_packComponents
  | notANumber => cases hu
  | zero s => exact .inr unpackMantissa_packComponents
  | finite s m e hm =>
    unfold UnpackedFloat.pack
    dsimp only
    split
    · exact .inr unpackMantissa_packComponents
    · rename_i hexponent
      left
      split
      · -- normal: the biased exponent is too small for the field to be full
        rw [unpackExponent_packComponents]
        intro h
        have hfield := congrArg BitVec.toNat h
        rw [BitVec.toNat_ofNat] at hfield
        change _ = 255 at hfield
        change ¬ 256 ≤ _ at hexponent
        rw [Nat.mod_eq_of_lt (by omega)] at hfield
        omega
      · rw [unpackExponent_packComponents]
        decide

theorem roundWithAccuracy_isNaN {s : Sign} {m : Nat} {e : Int} {a : Accuracy} :
    (roundWithAccuracy .binary32 s m e a).isNaN = false := by
  unfold roundWithAccuracy
  dsimp only
  split <;> rfl

/-- `x` is finite and larger than zero. -/
def PositiveFinite (x : Float32) : Prop := ∃ m e h, x.toModel.unpack = .finite .positive m e h

/-- A product with a positive finite factor is a number. -/
theorem mul_isNaN {x y : Float32} (hx : x.isNaN = false) (hy : PositiveFinite y) :
    (x * y).isNaN = false := by
  obtain ⟨m, e, hm, hy⟩ := hy
  apply pack_isNaN
  change x.toModel.unpack.isNaN = false at hx
  rw [hy]
  cases hu : x.toModel.unpack with
  | notANumber =>
    rw [hu] at hx
    cases hx
  | infinity s => rfl
  | zero s => rfl
  | finite s m' e' hm' => exact roundWithAccuracy_isNaN

/-- A quotient by a positive finite number is a number. -/
theorem div_isNaN {x y : Float32} (hx : x.isNaN = false) (hy : PositiveFinite y) :
    (x / y).isNaN = false := by
  obtain ⟨m, e, hm, hy⟩ := hy
  apply pack_isNaN
  change x.toModel.unpack.isNaN = false at hx
  rw [hy]
  cases hu : x.toModel.unpack with
  | notANumber =>
    rw [hu] at hx
    cases hx
  | infinity s => rfl
  | zero s => rfl
  | finite s m' e' hm' => exact roundWithAccuracy_isNaN

/-! ## Patterns given as words -/

/-- The pattern as a word. -/
theorem packComponents_toNat (s : Sign) (e : BitVec 8) (m : BitVec 23) :
    (packComponents .binary32 s e m).toNat % 2 ^ 31 = e.toNat * 2 ^ 23 + m.toNat
      ∧ (packComponents .binary32 s e m).toNat / 2 ^ 31 = s.toBitVec.toNat := by
  have hm : m.toNat < 2 ^ 23 := m.isLt
  have he : e.toNat < 2 ^ 8 := e.isLt
  have hword : (packComponents .binary32 s e m).toNat
      = (s.toBitVec.toNat * 2 ^ 8 + e.toNat) * 2 ^ 23 + m.toNat := by
    show (s.toBitVec ++ e ++ m).toNat = _
    rw [BitVec.toNat_append, BitVec.toNat_append, ← Nat.shiftLeft_add_eq_or_of_lt hm,
      ← Nat.shiftLeft_add_eq_or_of_lt he, Nat.shiftLeft_eq, Nat.shiftLeft_eq]
  rw [hword]
  omega

/-- Packing keeps the sign and the magnitude. -/
theorem pack_fields {u : UnpackedFloat} {s : Sign} {n : Nat} (hu : Shape u s n) :
    (UnpackedFloat.pack .binary32 u).toNat % 2 ^ 31 = n
      ∧ (UnpackedFloat.pack .binary32 u).toNat / 2 ^ 31 = s.toBitVec.toNat := by
  cases hu with
  | zero s => exact packComponents_toNat s 0#8 0#23
  | infinity s => exact packComponents_toNat s (-1#8) 0#23
  | finite s m k hpos hm hlead hk =>
    have hbiased : ((k : Int) - 149 + (127 : Nat) + (23 : Nat)).toNat = k + 1 := by omega
    have hpack : UnpackedFloat.pack .binary32 (.finite s m ((k : Int) - 149) hpos)
        = if m.log2 + 1 = 24 then packComponents .binary32 s (BitVec.ofNat 8 (k + 1)) (BitVec.ofNat 23 m)
          else packComponents .binary32 s 0#8 (BitVec.ofNat 23 m) := by
      show (if 2 ^ 8 ≤ ((k : Int) - 149 + (127 : Nat) + (23 : Nat)).toNat + 1 then _
        else if m.log2 + 1 = 24 then packComponents .binary32 s
          (BitVec.ofNat 8 ((k : Int) - 149 + (127 : Nat) + (23 : Nat)).toNat) (BitVec.ofNat 23 m)
        else packComponents .binary32 s 0#8 (BitVec.ofNat 23 m)) = _
      rw [hbiased, if_neg (by omega)]
    rw [hpack]
    rcases Nat.lt_or_ge m (2 ^ 23) with hsmall | hlarge
    · -- subnormal, as no leading bit is there
      have hlog : m.log2 < 23 := (Nat.log2_lt hpos.ne').mpr hsmall
      obtain ⟨hfields, hsign⟩ := packComponents_toNat s 0#8 (BitVec.ofNat 23 m)
      rw [if_neg (by omega), hfields, hsign, BitVec.toNat_ofNat, BitVec.toNat_ofNat]
      omega
    · have hlog : m.log2 = 23 := (Nat.log2_eq_iff hpos.ne').mpr ⟨hlarge, hm⟩
      obtain ⟨hfields, hsign⟩ := packComponents_toNat s (BitVec.ofNat 8 (k + 1)) (BitVec.ofNat 23 m)
      rw [if_pos (by omega), hfields, hsign, BitVec.toNat_ofNat, BitVec.toNat_ofNat]
      omega

theorem Shape.positiveFinite {u : UnpackedFloat} {n : Nat} (h : Shape u .positive n) (hpos : 0 < n)
    (hfinite : n < 255 * 2 ^ 23) : ∃ m e hm, u = .finite .positive m e hm := by
  cases h with
  | zero => omega
  | finite s m k hm => exact ⟨m, (k : Int) - 149, hm, rfl⟩
  | infinity => omega

/-- A word between zero and the infinity is a positive finite number. -/
theorem positiveFinite_ofBits {w : UInt32} (hpos : 0 < w.toNat) (hfinite : w.toNat < 255 * 2 ^ 23) :
    PositiveFinite (Float32.ofBits w) := by
  have hnumber : (UnpackedFloat.unpack .binary32 w.toBitVec).isNaN = false := by
    apply unpack_isNaN
    left
    intro h
    have hfield := exponentField_toNat w.toBitVec
    rw [show exponentField w.toBitVec = -1#8 from h] at hfield
    change 255 = w.toNat / 2 ^ 23 % 2 ^ 8 at hfield
    omega
  have hword := shape_unpack hnumber
  rw [sign_eq, if_pos (show w.toBitVec.toNat < 2 ^ 31 by show w.toNat < 2 ^ 31; omega)] at hword
  obtain ⟨hmagnitude, hsign⟩ := pack_fields hword
  have hpacked := @shape_unpack (UnpackedFloat.pack .binary32 (UnpackedFloat.unpack .binary32 w.toBitVec))
    (pack_isNaN hnumber)
  change _ = 0 at hsign
  rw [sign_eq, if_pos (by omega), hmagnitude] at hpacked
  apply hpacked.positiveFinite
  · show 0 < w.toNat % 2 ^ 31
    omega
  · show w.toNat % 2 ^ 31 < 255 * 2 ^ 23
    omega

end Qwen3Tts.Lib.Binary32
