import Qwen3Tts.Lib.Binary32
import Qwen3Tts.Lib.Fallible
import Qwen3Tts.Lib.Ranked
import Qwen3Tts.Talker.Sampler
import Mathlib.Data.Prod.Lex

/-!
# Talker — the order of the sampler, and its argmax

The sampler compares entries by `sort_before`, which is the order of a rank as long as no value is
NaN (`sortBefore_iff`). For an accepted configuration an adjusted logit is NaN only if its logit is
(`adjustedLogit_number`). The argmax finds the first entry of the order (`argmax_first`): a thread
or a turn of the reduction that has seen some tokens holds one that ranks before them (`Covers`).
-/

namespace Qwen3Tts.Talker.Sampler

open Lib Lib.Block Lib.Binary32

/-! ## Keys -/

/-- **`order_key` is a monotone function of the signed pattern.** -/
theorem orderKey_toNat (v : Float32) : ((orderKey v).toNat : Int)
    = if 0 ≤ level v then 2 ^ 31 + level v else 2 ^ 31 - 1 + level v := by
  have hword : v.toBits.toNat < 2 ^ 32 := v.toBits.toNat_lt
  unfold orderKey level magnitude
  dsimp only
  by_cases hminus : v.toBits = 0x80000000
  · -- the negative zero
    rw [if_pos hminus, hminus]
    decide
  · have hne : v.toBits.toNat ≠ 2 ^ 31 := fun h => hminus (UInt32.toNat_inj.mp h)
    have hsign : v.toBits &&& 0x80000000 ≠ 0 ↔ 2 ^ 31 ≤ v.toBits.toNat := by
      rw [← UInt32.toNat_inj.ne, UInt32.toNat_and]
      show v.toBits.toNat &&& 2 ^ 31 ≠ 0 ↔ _
      rw [Ne, Lib.Bitonic.and_eq_zero_iff]
      omega
    rw [if_neg hminus]
    rcases Nat.lt_or_ge v.toBits.toNat (2 ^ 31) with hlow | hhigh
    · have hor : v.toBits.toNat ||| 2 ^ 31 = 2 ^ 31 + v.toBits.toNat := by
        have h := Nat.two_pow_add_eq_or_of_lt hlow 1
        rw [Nat.or_comm, ← Nat.mul_one (2 ^ 31), ← h]
      rw [if_neg (by rw [hsign]; omega), if_pos hlow, UInt32.toNat_or]
      show ((v.toBits.toNat ||| 2 ^ 31 : Nat) : Int) = _
      rw [hor]
      omega
    · rw [if_pos (hsign.mpr hhigh), if_neg (by omega), UInt32.toNat_not]
      show ((2 ^ 32 - 1 - v.toBits.toNat : Nat) : Int) = _
      omega

/-- Keys compare as the levels do. -/
theorem orderKey_le_iff {v w : Float32} :
    (orderKey v).toNat ≤ (orderKey w).toNat ↔ level v ≤ level w := by
  have hv := orderKey_toNat v
  have hw := orderKey_toNat w
  split at hv <;> split at hw <;> omega

/-! ## The order -/

/-- The place of an entry in the order: the larger value first, and the smaller index of two. -/
def rank (e : Entry) : Int ×ₗ Int := toLex (-level e.value, e.index)

/-- The greater value comes first, and among equal values the smaller index. -/
theorem rank_lt_iff {a b : Entry} : rank a < rank b
    ↔ level b.value < level a.value ∨ level a.value = level b.value ∧ a.index < b.index := by
  unfold rank
  rw [Prod.Lex.toLex_lt_toLex]
  dsimp only
  omega

/-- The same with equality. -/
theorem rank_le_iff {a b : Entry} : rank a ≤ rank b
    ↔ level b.value < level a.value ∨ level a.value = level b.value ∧ a.index ≤ b.index := by
  unfold rank
  rw [Prod.Lex.toLex_le_toLex]
  dsimp only
  omega

/-- The rank determines the index. -/
theorem index_of_rank {a b : Entry} (h : rank a = rank b) : a.index = b.index :=
  (Prod.mk.inj (toLex.injective h)).2

/-- An entry that holds a number. -/
def Number (e : Entry) : Prop := e.value.isNaN = false

/-- `sort_before` is the order of the ranks. -/
theorem sortBefore_iff {a b : Entry} (ha : Number a) (hb : Number b) :
    sortBefore a b = true ↔ rank a < rank b := by
  unfold sortBefore
  rw [rank_lt_iff, Bool.or_eq_true, decide_eq_true_iff, Bool.and_eq_true, decide_eq_true_iff,
    beq_iff ha hb]
  show b.value < a.value ∨ _ ↔ _
  rw [lt_iff hb ha]

/-! ## Numbers -/

theorem kNegInf_number : kNegInf.isNaN = false := by decide

theorem level_kNegInf : level kNegInf = -(255 * 2 ^ 23) := by decide

/-- No number is below the negative infinity. -/
theorem level_kNegInf_le {v : Float32} (hv : v.isNaN = false) : level kNegInf ≤ level v := by
  have hmagnitude := magnitude_le hv
  rw [level_kNegInf]
  unfold level
  split <;> omega

/-- The configuration is one half of generation parameters that `validate_generation` accepts. -/
def Accepted (config : SamplingConfig) : Prop :=
  ∃ generation, Runtime.validateGeneration generation = .ok () ∧
    (config = talkerSampling generation ∨ config = predictorSampling generation)

/-- A word that passes the check of the penalty is a positive finite number. -/
theorem positiveFinite_of_check {x : Runtime.F32} (h : x.notFinitePositive = false) :
    PositiveFinite (Float32.ofBits x.bits) := by
  have hword : x.bits.toNat < 2 ^ 32 := x.bits.toNat_lt
  unfold Runtime.F32.notFinitePositive at h
  rw [Bool.or_eq_false_iff, Bool.not_eq_false'] at h
  obtain ⟨hfinite, hpositive⟩ := h
  unfold Runtime.F32.isFinite Runtime.F32.magnitude at hfinite
  have hmagnitude := of_decide_eq_true hfinite
  unfold Runtime.F32.le Runtime.F32.isNaN Runtime.F32.key Runtime.F32.isNegative
    Runtime.F32.magnitude at hpositive
  simp only [Runtime.F32.zero, Bool.and_eq_false_iff, Bool.not_eq_false', decide_eq_true_iff,
    decide_eq_false_iff_not, UInt32.toNat_zero, Nat.zero_mod] at hpositive
  by_cases hnegative : 2 ^ 31 ≤ x.bits.toNat
  · rw [if_pos hnegative, if_neg (by decide)] at hpositive
    omega
  · rw [if_neg hnegative, if_neg (by decide)] at hpositive
    exact positiveFinite_ofBits (by omega) (by omega)

/-- What the sampler relies on of an accepted configuration. -/
theorem Accepted.spec {config : SamplingConfig} (h : Accepted config) :
    PositiveFinite (float config.repetitionPenalty)
      ∧ (config.topK ≠ 0 → 0 < config.topK.toNatClampNeg) := by
  have hpositive : ∀ k : Nat, k ≤ 3072 → Int32.ofNat k ≠ 0 → 0 < (Int32.ofNat k).toNatClampNeg := by
    intro k hk hne
    rw [Int32.toNatClampNeg_ofNat_of_lt (by omega)]
    apply Nat.pos_of_ne_zero
    rintro rfl
    exact hne rfl
  obtain ⟨generation, hvalid, hconfig⟩ := h
  unfold Runtime.validateGeneration at hvalid
  simp only [ite_error_eq_ok] at hvalid
  obtain ⟨-, -, -, -, -, -, -, -, hpenalty, -, htopK, -⟩ := hvalid
  rcases hconfig with rfl | rfl
  · exact ⟨positiveFinite_of_check (Bool.eq_false_iff.mpr hpenalty), hpositive _ (by omega)⟩
  · exact ⟨positiveFinite_of_check (show Runtime.F32.one.notFinitePositive = false by decide),
      hpositive _ (by omega)⟩

section
variable {launch : Launch} (hpenalty : PositiveFinite (float launch.config.repetitionPenalty))
  (hlogits : ∀ t < launch.vocabulary, (bfloat162float (launch.logits t)).isNaN = false)
include hpenalty hlogits

/-- Adjusting a number leaves a number. -/
theorem adjustedLogit_number {t : Nat} (ht : t < launch.vocabulary) :
    (adjustedLogit launch t).isNaN = false := by
  have hvalue := hlogits t ht
  unfold adjustedLogit
  split
  · exact kNegInf_number
  · dsimp only
    split
    · split
      · exact mul_isNaN hvalue hpenalty
      · exact div_isNaN hvalue hpenalty
    · exact hvalue

/-- What is sorted is never a NaN. -/
theorem filled_number (t : Nat) : Number (filled launch t) := by
  unfold filled
  split
  · exact adjustedLogit_number hpenalty hlogits ‹_›
  · exact kNegInf_number

/-! ## Argmax -/

/-- An entry that no token has been put into. -/
def unset : Entry := ⟨kNegInf, -1⟩

/-- What a thread holds: nothing, or the entry of a token. -/
def Held (launch : Launch) (l : Entry) : Prop :=
  l = unset ∨ ∃ t < launch.vocabulary, l = filled launch t

/-- The entry is one of a token and ranks before the entry of token `t`, or is it. -/
def Covers (launch : Launch) (l : Entry) (t : Nat) : Prop :=
  0 ≤ l.index ∧ rank l ≤ rank (filled launch t)

omit hpenalty hlogits in
/-- Within the vocabulary the entry is that of a token. -/
theorem filled_token {t : Nat} (ht : t < launch.vocabulary) :
    filled launch t = ⟨adjustedLogit launch t, t⟩ :=
  if_pos ht

omit hpenalty hlogits in
theorem filled_index {t : Nat} (ht : t < launch.vocabulary) : (filled launch t).index = t := by
  rw [filled_token ht]

/-- The test of both argmax loops: whether `e` replaces `best`. -/
def replaces (best e : Entry) : Bool :=
  e.value > best.value || (e.value == best.value && 0 ≤ e.index
    && (best.index < 0 || e.index < best.index))

omit hpenalty hlogits in
/-- Nothing does not replace anything. -/
theorem replaces_unset {best : Entry} (hbest : Number best) : replaces best unset = false := by
  unfold replaces unset
  have hbottom : ¬ kNegInf > best.value := by
    show ¬ best.value < kNegInf
    rw [lt_iff hbest kNegInf_number]
    exact not_lt.mpr (level_kNegInf_le hbest)
  rw [decide_eq_false hbottom]
  simp

omit hpenalty hlogits in
/-- A token replaces nothing, and an entry that it ranks before. -/
theorem replaces_iff {best e : Entry} (he : Number e) (hindex : 0 ≤ e.index)
    (hbest : best = unset ∨ Number best ∧ 0 ≤ best.index) :
    replaces best e = true ↔ best = unset ∨ rank e < rank best := by
  have hnumber : Number best := by
    rcases hbest with rfl | h
    · exact kNegInf_number
    · exact h.1
  unfold replaces
  rw [Bool.or_eq_true, Bool.and_eq_true, Bool.and_eq_true, Bool.or_eq_true, decide_eq_true_iff,
    decide_eq_true_iff, decide_eq_true_iff, decide_eq_true_iff, beq_iff he hnumber, rank_lt_iff]
  have hgt : e.value > best.value ↔ level best.value < level e.value := lt_iff hnumber he
  rw [hgt]
  rcases hbest with rfl | ⟨-, hindex'⟩
  · have hbottom : level kNegInf ≤ level e.value := level_kNegInf_le he
    simp only [true_or, iff_true]
    show level kNegInf < level e.value ∨ (level e.value = level kNegInf ∧ 0 ≤ e.index)
      ∧ ((-1 : Int) < 0 ∨ e.index < -1)
    omega
  · have hset : best ≠ unset := by
      rintro rfl
      exact absurd hindex' (by decide)
    simp only [hset, false_or]
    omega

/-- Choosing between what two threads hold. -/
theorem choose_spec {a b : Entry} (ha : Held launch a) (hb : Held launch b) :
    Held launch (if replaces a b then b else a)
      ∧ ∀ t, Covers launch a t ∨ Covers launch b t → Covers launch (if replaces a b then b else a) t := by
  have hnumber := @filled_number launch hpenalty hlogits
  have hindex : ∀ {t}, t < launch.vocabulary → 0 ≤ (filled launch t).index := by
    intro t ht
    rw [filled_index ht]
    omega
  have hshape : a = unset ∨ Number a ∧ 0 ≤ a.index := by
    rcases ha with rfl | ⟨t, ht, rfl⟩
    · exact .inl rfl
    · exact .inr ⟨hnumber t, hindex ht⟩
  have hnothing : ∀ t, ¬ Covers launch unset t := fun t h => absurd h.1 (by decide)
  rcases hb with rfl | ⟨s, hs, rfl⟩
  · have ha' : Number a := by
      rcases hshape with rfl | h
      · exact kNegInf_number
      · exact h.1
    rw [replaces_unset ha', if_neg Bool.false_ne_true]
    exact ⟨ha, fun t h => h.resolve_right (hnothing t)⟩
  · -- `replaces` compares the ranks
    have hiff := replaces_iff (hnumber s) (hindex hs) hshape
    by_cases hreplaced : replaces a (filled launch s) = true
    · rw [if_pos hreplaced]
      refine ⟨.inr ⟨s, hs, rfl⟩, fun t h => ?_⟩
      rcases h with h | h
      · rcases hiff.mp hreplaced with rfl | hlt
        · exact absurd h (hnothing t)
        · exact ⟨hindex hs, hlt.le.trans h.2⟩
      · exact h
    · rw [if_neg hreplaced]
      have hkept := not_or.mp (mt hiff.mpr hreplaced)
      refine ⟨ha, fun t h => ?_⟩
      rcases h with h | h
      · exact h
      · exact ⟨(hshape.resolve_left hkept.1).2, (not_lt.mp hkept.2).trans h.2⟩

omit hpenalty hlogits in
/-- One step of the loop of a thread. -/
theorem threadArgmax_step {t : Nat} (ht : t < launch.vocabulary) (best : Entry) :
    threadArgmax (filled launch) launch.vocabulary t best
      = threadArgmax (filled launch) launch.vocabulary (t + kSampleThreads)
          (if replaces best (filled launch t) then filled launch t else best) := by
  have hindex : decide (0 ≤ (t : Int)) = true := decide_eq_true (by omega)
  rw [threadArgmax, if_pos ht]
  unfold replaces
  rw [filled_token ht]
  dsimp only
  rw [hindex, Bool.and_true]

/-- **One thread** ends with an entry that covers its tokens. -/
theorem threadArgmax_spec (left : Nat) {t : Nat} {best : Entry} (hbest : Held launch best)
    (hleft : launch.vocabulary ≤ t + left) :
    Held launch (threadArgmax (filled launch) launch.vocabulary t best)
      ∧ ∀ s, Covers launch best s
          ∨ t ≤ s ∧ s % kSampleThreads = t % kSampleThreads ∧ s < launch.vocabulary →
        Covers launch (threadArgmax (filled launch) launch.vocabulary t best) s := by
  induction left using Nat.strong_induction_on generalizing t best with
  | _ left ih =>
    rcases Nat.lt_or_ge t launch.vocabulary with ht | ht
    · rw [threadArgmax_step ht]
      obtain ⟨hheld, hcovers⟩ := choose_spec hpenalty hlogits hbest (.inr ⟨t, ht, rfl⟩)
      obtain ⟨hheld', hcovers'⟩ := @ih (left - 1) (by omega) (t + kSampleThreads) _ hheld
        (by unfold kSampleThreads; omega)
      refine ⟨hheld', fun s hs => hcovers' s ?_⟩
      rcases hs with hs | ⟨hle, hmod, hlt⟩
      · exact .inl (hcovers s (.inl hs))
      · rcases Nat.eq_or_lt_of_le hle with rfl | hlater
        · -- the token of this turn
          left
          apply hcovers t (.inr ⟨?_, le_refl _⟩)
          rw [filled_index ht]
          omega
        · right
          unfold kSampleThreads at hmod ⊢
          omega
    · rw [threadArgmax, if_neg (by omega)]
      refine ⟨hbest, fun s hs => ?_⟩
      rcases hs with hs | hs
      · exact hs
      · omega

/-! ## The tree -/

omit hpenalty hlogits in
/-- A turn of the reduction writes the cell of its thread. -/
theorem separate_reduceTurn (stride : Nat) :
    Separate (fun p => if p < stride then p else p - stride) (reduceTurn stride) where
  frame i a p hp := by
    unfold reduceTurn
    split
    · rename_i hi
      dsimp only
      split
      · apply Function.update_of_ne
        rintro rfl
        exact hp (if_pos hi)
      · rfl
    · rfl
  own i a b hab p hp := by
    have hcell := hab p hp
    unfold reduceTurn
    split
    · rename_i hi
      have hmine : a i = b i := hab i (if_pos hi)
      -- the turn reads its own two cells only
      have hother : a (i + stride) = b (i + stride) := by
        apply hab
        rw [if_neg (by omega)]
        omega
      dsimp only
      rw [hmine, hother]
      split
      · by_cases hself : p = i
        · rw [hself, Function.update_self, Function.update_self]
        · rw [Function.update_of_ne hself, Function.update_of_ne hself]
          exact hcell
      · exact hcell
    · exact hcell

omit hpenalty hlogits in
/-- One round of the tree, whatever the order of the threads. -/
theorem reduce_round {schedule : Schedule Round} {stride i : Nat} (hi : i < stride)
    (hstride : stride ≤ kSampleThreads) (r : Nat → Entry) :
    round (reduceTurn stride) (schedule.order (.reduce stride) kSampleThreads) r i
      = if replaces (r i) (r (i + stride)) then r (i + stride) else r i := by
  have howner : (if i < stride then i else i - stride) = i := if_pos hi
  rw [round_apply (separate_reduceTurn stride) (schedule.perm _ _) r (by rw [howner]; omega), howner]
  unfold reduceTurn replaces
  rw [if_pos hi]
  split
  · exact Function.update_self ..
  · rfl

/-- The first `n` cells hold entries that together cover the vocabulary. -/
def CoverAll (launch : Launch) (n : Nat) (r : Nat → Entry) : Prop :=
  (∀ i < n, Held launch (r i)) ∧ ∀ t < launch.vocabulary, ∃ i < n, Covers launch (r i) t

/-- A round halves the number of entries that cover everything. -/
theorem coverAll_round {schedule : Schedule Round} {stride : Nat} {r : Nat → Entry}
    (hstride : stride ≤ kSampleThreads) (h : CoverAll launch (stride + stride) r) :
    CoverAll launch stride
      (round (reduceTurn stride) (schedule.order (.reduce stride) kSampleThreads) r) := by
  obtain ⟨hheld, hcovers⟩ := h
  have hchoose := fun i (hi : i < stride) => choose_spec hpenalty hlogits (hheld i (by omega))
    (hheld (i + stride) (by omega))
  refine ⟨fun i hi => ?_, fun t ht => ?_⟩
  · rw [reduce_round hi hstride]
    exact (hchoose i hi).1
  · obtain ⟨i, hi, hcover⟩ := hcovers t ht
    rcases Nat.lt_or_ge i stride with hlow | hhigh
    · refine ⟨i, hlow, ?_⟩
      rw [reduce_round hlow hstride]
      exact (hchoose i hlow).2 t (.inl hcover)
    · obtain ⟨i', rfl⟩ := Nat.exists_eq_add_of_le' hhigh
      refine ⟨i', by omega, ?_⟩
      rw [reduce_round (by omega) hstride]
      exact (hchoose i' (by omega)).2 t (.inr hcover)

/-- After all rounds the first entry covers everything. -/
theorem coverAll_reduce {schedule : Schedule Round} {k : Nat} {r : Nat → Entry}
    (hk : 2 ^ k ≤ kSampleThreads) (h : CoverAll launch (2 ^ k) r) :
    CoverAll launch 1 (reduce schedule (2 ^ k / 2) r) := by
  induction k generalizing r with
  | zero =>
    show CoverAll launch 1 (reduce schedule 0 r)
    rw [reduce]
    exact h
  | succ k ih =>
    have hdouble : 2 ^ (k + 1) = 2 ^ k + 2 ^ k := by rw [Nat.pow_succ, Nat.mul_two]
    have hhalf : 2 ^ (k + 1) / 2 = 2 ^ k := by omega
    have hround := @coverAll_round launch hpenalty hlogits schedule (2 ^ k) r (by omega)
      (by rw [← hdouble]; exact h)
    rw [hhalf]
    obtain ⟨j, hj⟩ := Nat.exists_eq_succ_of_ne_zero (Nat.two_pow_pos k).ne'
    rw [hj, Nat.succ_eq_add_one, reduce, ← Nat.succ_eq_add_one, ← hj]
    exact ih (by omega) hround

/-- **The argmax** is the first token of the order, in every order of the turns. -/
theorem argmax_first (hvocabulary : 0 < launch.vocabulary) (schedule : Schedule Round) :
    ∃ t < launch.vocabulary, argmax schedule launch = filled launch t
      ∧ ∀ s < launch.vocabulary, rank (filled launch t) ≤ rank (filled launch s) := by
  have hthread := fun tid => @threadArgmax_spec launch hpenalty hlogits launch.vocabulary tid unset
    (.inl rfl) (by omega)
  have hstart : CoverAll launch (2 ^ 10)
      (fun tid => threadArgmax (filled launch) launch.vocabulary tid unset) := by
    refine ⟨fun tid _ => (hthread tid).1, fun t ht => ?_⟩
    refine ⟨t % kSampleThreads, Nat.mod_lt t (by decide), ?_⟩
    exact (hthread _).2 t (.inr ⟨Nat.mod_le t _, (Nat.mod_mod t _).symm, ht⟩)
  obtain ⟨hheld, hcovers⟩ := @coverAll_reduce launch hpenalty hlogits schedule 10 _ (by decide) hstart
  have hargmax : argmax schedule launch = reduce schedule (2 ^ 10 / 2)
      (fun tid => threadArgmax (filled launch) launch.vocabulary tid unset) 0 := rfl
  have hfirst : ∀ s < launch.vocabulary, Covers launch (argmax schedule launch) s := by
    intro s hs
    obtain ⟨i, hi, hcover⟩ := hcovers s hs
    obtain rfl : i = 0 := by omega
    exact hcover
  have hholds := hheld 0 (by decide)
  rw [← hargmax] at hholds
  rcases hholds with hunset | ⟨t, ht, heq⟩
  · have hindex := (hfirst 0 hvocabulary).1
    rw [hunset] at hindex
    exact absurd hindex (by decide)
  · refine ⟨t, ht, heq, fun s hs => ?_⟩
    rw [← heq]
    exact (hfirst s hs).2

end

end Qwen3Tts.Talker.Sampler
