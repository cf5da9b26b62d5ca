import Qwen3Tts.Lib.Block
import Mathlib.Data.Nat.Bitwise
import Mathlib.Logic.Equiv.Basic
import Mathlib.Data.List.Perm.Subperm
import Mathlib.Order.Lattice

/-!
# Lib — bitonic sorting in a thread block

The sorting network of a power-of-two array, as the rounds of a thread block: at stage `k` and
distance `j`, the turn of `i` orders the cells `i` and `i ^^^ j`, upwards or downwards by the bit
`k` of `i`. `sort_sorted` says that the result is in order, whatever the order of the turns.

The proof looks at an array through thresholds: for a rank `c`, the cells whose element has rank
`c` or more. Taken negatively in the blocks that sort downwards (`Signed`), a pass is everywhere a
half-cleaner (`HalfCleaned`), and a half-cleaner splits a window of cells into two windows of which
one is constant.
-/

namespace Qwen3Tts.Lib.Bitonic

open Block

variable {α β γ : Type*}

section Network

variable (before : α → α → Bool)

/-- Whether a pair is to be swapped that holds `x` in its lower cell `i` and `y` in the upper. -/
def misplaced (k i : Nat) (x y : α) : Bool :=
  let ascending := i &&& k = 0
  if ascending then before y x else before x y

/-- The turn of index `i` in the pass of distance `j` at stage `k`. -/
def exchange (k j i : Nat) (a : Nat → α) : Nat → α :=
  let ixj := i ^^^ j
  if i < ixj then
    if misplaced before k i (a i) (a ixj) then
      Function.update (Function.update a i (a ixj)) ixj (a i)
    else a
  else a

/-- The passes of stage `k` from distance `j` on, each half as far as the one before. -/
def passes (order : Nat → Nat → List Nat) (k : Nat) : Nat → (Nat → α) → Nat → α
  | 0, a => a
  | j + 1, a => passes order k ((j + 1) / 2) (round (exchange before k (j + 1)) (order k (j + 1)) a)
  termination_by j => j
  decreasing_by omega

/-- The stages up to `m` from `k` on, each twice as large as the one before. -/
def stages (order : Nat → Nat → List Nat) (m k : Nat) (a : Nat → α) : Nat → α :=
  if 0 < k ∧ k ≤ m then stages order m (2 * k) (passes before order k (k / 2) a) else a
  termination_by m + 1 - k
  decreasing_by omega

/-- The whole network on the first `m` cells. -/
def sort (order : Nat → Nat → List Nat) (m : Nat) (a : Nat → α) : Nat → α :=
  stages before order m 2 a

end Network

/-! ## Distances and stages are powers of two -/

section
variable {before : α → α → Bool} {order : Nat → Nat → List Nat}

theorem passes_zero (k : Nat) (a : Nat → α) : passes before order k (2 ^ 0 / 2) a = a := by
  show passes before order k 0 a = a
  rw [passes]

/-- The passes from one distance go on with the next smaller one. -/
theorem passes_succ (k r : Nat) (a : Nat → α) :
    passes before order k (2 ^ (r + 1) / 2) a
      = passes before order k (2 ^ r / 2) (round (exchange before k (2 ^ r)) (order k (2 ^ r)) a) := by
  have hhalf : 2 ^ (r + 1) / 2 = 2 ^ r := by
    rw [Nat.pow_succ]
    omega
  obtain ⟨j, hj⟩ := Nat.exists_eq_succ_of_ne_zero (Nat.two_pow_pos r).ne'
  rw [hhalf, hj, Nat.succ_eq_add_one, passes]

theorem stages_done {m k : Nat} (h : m < k) (a : Nat → α) : stages before order m k a = a := by
  rw [stages, if_neg (by omega)]

theorem stages_next {m q : Nat} (h : 2 ^ q ≤ m) (a : Nat → α) :
    stages before order m (2 ^ q) a
      = stages before order m (2 ^ (q + 1)) (passes before order (2 ^ q) (2 ^ q / 2) a) := by
  rw [stages, if_pos ⟨Nat.two_pow_pos q, h⟩, Nat.pow_succ, Nat.mul_comm]

end

/-- The bits of `i ^^^ 2 ^ r` other than bit `r` are those of `i`. -/
theorem xor_bits (i r : Nat) : (i ^^^ 2 ^ r) % 2 ^ r = i % 2 ^ r
    ∧ (i ^^^ 2 ^ r) / 2 ^ r / 2 = i / 2 ^ r / 2
    ∧ (i ^^^ 2 ^ r) / 2 ^ r % 2 = 1 - i / 2 ^ r % 2 := by
  have hlow : (i ^^^ 2 ^ r) % 2 ^ r = i % 2 ^ r := by
    rw [Nat.xor_mod_two_pow, Nat.mod_self, Nat.xor_zero]
  have hhigh : (i ^^^ 2 ^ r) / 2 ^ r = i / 2 ^ r ^^^ 1 := by
    rw [Nat.xor_div_two_pow, Nat.div_self (Nat.two_pow_pos r)]
  rw [hhigh]
  generalize i / 2 ^ r = x
  have hhalf : (x ^^^ 1) / 2 = x / 2 := by
    have h := @Nat.xor_div_two_pow x 1 1
    rwa [Nat.pow_one, Nat.xor_zero] at h
  have hodd := @Nat.xor_mod_two_eq x 1
  omega

/-- The partner of the lower cell of a pair is the upper one. -/
theorem xor_of_clear {i r : Nat} (h : i / 2 ^ r % 2 = 0) : i ^^^ 2 ^ r = i + 2 ^ r := by
  obtain ⟨hlow, hhigh, hbit⟩ := xor_bits i r
  have hnew := Nat.div_add_mod (i ^^^ 2 ^ r) (2 ^ r)
  have hold := Nat.div_add_mod i (2 ^ r)
  have hquotient : (i ^^^ 2 ^ r) / 2 ^ r = i / 2 ^ r + 1 := by omega
  rw [hquotient, hlow, Nat.mul_succ] at hnew
  omega

/-- Testing a bit with a mask. -/
theorem and_eq_zero_iff (i q : Nat) : i &&& 2 ^ q = 0 ↔ i / 2 ^ q % 2 = 0 := by
  have hlow : (i &&& 2 ^ q) % 2 ^ q = 0 := by
    rw [Nat.and_mod_two_pow, Nat.mod_self, Nat.and_zero]
  have hhigh : (i &&& 2 ^ q) / 2 ^ q = i / 2 ^ q % 2 := by
    rw [Nat.and_div_two_pow, Nat.div_self (Nat.two_pow_pos q), Nat.and_one_is_mod]
  have hvalue := Nat.div_add_mod (i &&& 2 ^ q) (2 ^ q)
  rw [hlow, hhigh, Nat.add_zero] at hvalue
  rw [← hvalue, Nat.mul_eq_zero]
  have hpos := Nat.two_pow_pos q
  omega

/-! ## One pass -/

section
variable {before : α → α → Bool}

/-- The turn that orders a cell: that of the lower index of its pair. -/
def owner (j p : Nat) : Nat := if p < p ^^^ j then p else p ^^^ j

theorem xor_xor_cancel (p j : Nat) : p ^^^ j ^^^ j = p := by
  rw [Nat.xor_assoc, Nat.xor_self, Nat.xor_zero]

/-- A turn writes the two cells of its pair. -/
theorem exchange_frame {k j i p : Nat} (a : Nat → α) (hi : p ≠ i) (hixj : p ≠ i ^^^ j) :
    exchange before k j i a p = a p := by
  unfold exchange
  by_cases hlower : i < i ^^^ j
  · rw [if_pos hlower]
    split
    · rw [Function.update_of_ne hixj, Function.update_of_ne hi]
    · rfl
  · rw [if_neg hlower]

/-- The exchanges of one pass do not interfere. -/
theorem separate_exchange (k j : Nat) : Separate (owner j) (exchange before k j) where
  frame i a p hp := by
    by_cases hlower : i < i ^^^ j
    · apply exchange_frame
      · rintro rfl
        exact hp (if_pos hlower)
      · rintro rfl
        rw [owner, xor_xor_cancel, if_neg (by omega)] at hp
        exact hp rfl
    · unfold exchange
      rw [if_neg hlower]
  own i a b hab p hp := by
    by_cases hlower : i < i ^^^ j
    · have hi : a i = b i := hab i (if_pos hlower)
      have hixj : a (i ^^^ j) = b (i ^^^ j) := by
        apply hab
        rw [owner, xor_xor_cancel, if_neg (by omega)]
      have hp' := hab p hp
      unfold exchange
      rw [if_pos hlower, if_pos hlower, hi, hixj]
      -- both turns decide the same
      split
      · by_cases hupper : p = i ^^^ j
        · rw [hupper, Function.update_self, Function.update_self]
        · rw [Function.update_of_ne hupper, Function.update_of_ne hupper]
          by_cases hself : p = i
          · rw [hself, Function.update_self, Function.update_self]
          · rw [Function.update_of_ne hself, Function.update_of_ne hself]
            exact hp'
      · exact hp'
    · unfold exchange
      rw [if_neg hlower, if_neg hlower]
      exact hab p hp

/-- What a pass leaves in the two cells of a pair. -/
theorem round_pair {k r m i : Nat} {order : List Nat} (hperm : order.Perm (List.range m))
    (hlower : i / 2 ^ r % 2 = 0) (him : i + 2 ^ r < m) (a : Nat → α) :
    round (exchange before k (2 ^ r)) order a i
        = (if misplaced before k i (a i) (a (i + 2 ^ r)) then a (i + 2 ^ r) else a i)
      ∧ round (exchange before k (2 ^ r)) order a (i + 2 ^ r)
        = (if misplaced before k i (a i) (a (i + 2 ^ r)) then a i else a (i + 2 ^ r)) := by
  have hpos := Nat.two_pow_pos r
  have hixj : i ^^^ 2 ^ r = i + 2 ^ r := xor_of_clear hlower
  have hback : (i + 2 ^ r) ^^^ 2 ^ r = i := by rw [← hixj, xor_xor_cancel]
  have hself : owner (2 ^ r) i = i := if_pos (by omega)
  have hother : owner (2 ^ r) (i + 2 ^ r) = i := by
    rw [owner, hback, if_neg (by omega)]
  rw [round_apply (separate_exchange k (2 ^ r)) hperm a (by omega), hself,
    round_apply (separate_exchange k (2 ^ r)) hperm a (by omega), hother]
  unfold exchange
  rw [hixj, if_pos (by omega)]
  split
  · rw [Function.update_of_ne (by omega), Function.update_self, Function.update_self]
    exact ⟨rfl, rfl⟩
  · exact ⟨rfl, rfl⟩

end

/-! ## Thresholds -/

/-- The cells whose element has rank `c` or more. -/
def Reaches [LE β] (rank : α → β) (c : β) (a : Nat → α) (i : Nat) : Prop := c ≤ rank (a i)

/-- A set of cells, taken negatively in the blocks of size `2 ^ q` with an odd number. -/
def Signed (q : Nat) (f : Nat → Prop) (i : Nat) : Prop := i / 2 ^ q % 2 = 0 ↔ f i

/-- In every pair at distance `2 ^ r`, the lower cell is in the new set when both cells were in the
old one, and the upper cell when one of them was. -/
structure HalfCleaned (r m : Nat) (f f' : Nat → Prop) : Prop where
  low : ∀ i, i / 2 ^ r % 2 = 0 → i + 2 ^ r < m → (f' i ↔ f i ∧ f (i + 2 ^ r))
  high : ∀ i, i / 2 ^ r % 2 = 0 → i + 2 ^ r < m → (f' (i + 2 ^ r) ↔ f i ∨ f (i + 2 ^ r))

/-- The cells of a pair lie in the same block of a later stage. -/
theorem same_block {i r q : Nat} (hrq : r < q) (hlower : i / 2 ^ r % 2 = 0) :
    (i + 2 ^ r) / 2 ^ q = i / 2 ^ q := by
  obtain ⟨d, rfl⟩ := Nat.exists_eq_add_of_lt hrq
  have hsplit : 2 ^ (r + d + 1) = 2 ^ r * (2 * 2 ^ d) := by
    rw [Nat.pow_succ, Nat.pow_add, Nat.mul_assoc, Nat.mul_comm (2 ^ d)]
  rw [hsplit, ← Nat.div_div_eq_div_mul, ← Nat.div_div_eq_div_mul, ← Nat.div_div_eq_div_mul,
    ← Nat.div_div_eq_div_mul, Nat.add_div_right _ (Nat.two_pow_pos r)]
  have heven : (i / 2 ^ r).succ / 2 = i / 2 ^ r / 2 := by omega
  rw [heven]

theorem misplaced_up {before : α → α → Bool} {q i : Nat} (h : i / 2 ^ q % 2 = 0) (x y : α) :
    misplaced before (2 ^ q) i x y = before y x :=
  if_pos ((and_eq_zero_iff i q).mpr h)

theorem misplaced_down {before : α → α → Bool} {q i : Nat} (h : i / 2 ^ q % 2 ≠ 0) (x y : α) :
    misplaced before (2 ^ q) i x y = before x y :=
  if_neg (mt (and_eq_zero_iff i q).mp h)

section
variable [LinearOrder β] {before : α → α → Bool} {rank : α → β}
  (hbefore : ∀ x y, before x y = true ↔ rank x < rank y)
include hbefore

theorem le_rank_smaller (c : β) (x y : α) :
    c ≤ rank (if before y x then y else x) ↔ c ≤ rank x ∧ c ≤ rank y := by
  by_cases hswap : before y x = true
  · have hlt := (hbefore y x).mp hswap
    rw [if_pos hswap]
    exact ⟨fun h => ⟨h.trans hlt.le, h⟩, fun h => h.2⟩
  · have hle := not_lt.mp (mt (hbefore y x).mpr hswap)
    rw [if_neg hswap]
    exact ⟨fun h => ⟨h, h.trans hle⟩, fun h => h.1⟩

theorem le_rank_larger (c : β) (x y : α) :
    c ≤ rank (if before y x then x else y) ↔ c ≤ rank x ∨ c ≤ rank y := by
  by_cases hswap : before y x = true
  · have hlt := (hbefore y x).mp hswap
    rw [if_pos hswap]
    exact ⟨.inl, fun h => h.elim id fun h => h.trans hlt.le⟩
  · have hle := not_lt.mp (mt (hbefore y x).mpr hswap)
    rw [if_neg hswap]
    exact ⟨.inr, fun h => h.elim (fun h => h.trans hle) id⟩

/-- A pass cleans the signed thresholds in halves. -/
theorem halfCleaned_round {q r m : Nat} (hrq : r < q) {order : List Nat}
    (hperm : order.Perm (List.range m)) (c : β) (a : Nat → α) :
    HalfCleaned r m (Signed q (Reaches rank c a))
      (Signed q (Reaches rank c (round (exchange before (2 ^ q) (2 ^ r)) order a))) := by
  constructor
  all_goals
    intro i hlower him
    obtain ⟨hlow, hhigh⟩ := @round_pair α before (2 ^ q) r m i order hperm hlower him a
    unfold Signed Reaches
    rw [same_block hrq hlower]
    by_cases hup : i / 2 ^ q % 2 = 0
    -- upwards, the smaller element goes to the lower cell, and downwards the larger one
    · rw [misplaced_up hup] at hlow hhigh
      have hsmaller := le_rank_smaller hbefore c (a i) (a (i + 2 ^ r))
      have hlarger := le_rank_larger hbefore c (a i) (a (i + 2 ^ r))
      rw [← hlow] at hsmaller
      rw [← hhigh] at hlarger
      simp only [hup, true_iff]
      first
        | exact hsmaller
        | exact hlarger
    · rw [misplaced_down hup] at hlow hhigh
      have hsmaller := le_rank_smaller hbefore c (a (i + 2 ^ r)) (a i)
      have hlarger := le_rank_larger hbefore c (a (i + 2 ^ r)) (a i)
      rw [← hhigh] at hsmaller
      rw [← hlow] at hlarger
      simp only [hup, false_iff]
      first
        | rw [hlarger, or_comm, not_or]
        | rw [hsmaller, and_comm, not_and_or]

end

/-! ## Windows -/

/-- Of the first `n` cells, those in the set are an interval, or those outside of it are. -/
def Window (f : Nat → Prop) (n : Nat) : Prop :=
  ∃ u v, (∀ t < n, f t ↔ u ≤ t ∧ t < v) ∨ ∀ t < n, f t ↔ ¬ (u ≤ t ∧ t < v)

theorem Window.not {f : Nat → Prop} {n : Nat} (h : Window f n) : Window (fun t => ¬ f t) n := by
  obtain ⟨u, v, hinside | houtside⟩ := h
  · exact ⟨u, v, .inr fun t ht => not_congr (hinside t ht)⟩
  · exact ⟨u, v, .inl fun t ht => (not_congr (houtside t ht)).trans not_not⟩

theorem Window.of_not {f : Nat → Prop} {n : Nat} (h : Window (fun t => ¬ f t) n) : Window f n := by
  have hnot := h.not
  simp only [not_not] at hnot
  exact hnot

/-- Of the first `n` cells, those in the set come last. -/
def Ascending (f : Nat → Prop) (n : Nat) : Prop := ∀ t t', t ≤ t' → t' < n → f t → f t'

/-- Where the set ends below its complement, it begins at one cell. -/
theorem Ascending.threshold {f : Nat → Prop} {n : Nat} (h : Ascending f n) :
    ∃ u ≤ n, ∀ t < n, f t ↔ u ≤ t := by
  induction n with
  | zero => exact ⟨0, Nat.le_refl 0, fun t ht => absurd ht (Nat.not_lt_zero t)⟩
  | succ n ih =>
    obtain ⟨u, hu, hf⟩ := ih fun t t' htt' ht' => h t t' htt' (by omega)
    by_cases hlast : f n
    · refine ⟨u, by omega, fun t ht => ?_⟩
      rcases Nat.lt_succ_iff_lt_or_eq.mp ht with hlt | rfl
      · exact hf t hlt
      · exact iff_of_true hlast hu
    · -- then no cell is in the set
      refine ⟨n + 1, Nat.le_refl _, fun t ht => iff_of_false (fun hft => ?_) (by omega)⟩
      exact hlast (h t n (by omega) (by omega) hft)

/-- The half-cleaner on an interval. -/
theorem clean_interval {f low high : Nat → Prop} {n u v : Nat}
    (hlow : ∀ t < n, low t ↔ f t ∧ f (n + t)) (hhigh : ∀ t < n, high t ↔ f t ∨ f (n + t))
    (hf : ∀ t < n + n, f t ↔ u ≤ t ∧ t < v) :
    Window low n ∧ Window high n ∧ ((∀ t < n, ¬ low t) ∨ ∀ t < n, high t) := by
  have hlow' : ∀ t < n, low t ↔ u ≤ t ∧ t < v - n := by
    intro t ht
    rw [hlow t ht, hf t (by omega), hf (n + t) (by omega)]
    omega
  have hhigh' : ∀ t < n, high t ↔ u ≤ t ∧ t < v ∨ u ≤ n + t ∧ n + t < v := by
    intro t ht
    rw [hhigh t ht, hf t (by omega), hf (n + t) (by omega)]
  refine ⟨⟨u, v - n, .inl hlow'⟩, ?_, ?_⟩
  · by_cases hfirst : v ≤ n
    · refine ⟨u, v, .inl fun t ht => ?_⟩
      rw [hhigh' t ht]
      omega
    by_cases hsecond : n ≤ u
    · refine ⟨u - n, v - n, .inl fun t ht => ?_⟩
      rw [hhigh' t ht]
      omega
    · -- the interval goes across the middle
      refine ⟨v - n, u, .inr fun t ht => ?_⟩
      rw [hhigh' t ht]
      omega
  · by_cases hlong : u < v - n ∧ u < n
    · right
      intro t ht
      rw [hhigh' t ht]
      omega
    · left
      intro t ht
      rw [hlow' t ht]
      omega

/-- **The half-cleaner** makes two windows of one, and one of the two is constant. -/
theorem clean_window {f low high : Nat → Prop} {n : Nat}
    (hlow : ∀ t < n, low t ↔ f t ∧ f (n + t)) (hhigh : ∀ t < n, high t ↔ f t ∨ f (n + t))
    (hf : Window f (n + n)) :
    Window low n ∧ Window high n ∧ ((∀ t < n, ¬ low t) ∨ ∀ t < n, high t) := by
  obtain ⟨u, v, hinside | houtside⟩ := hf
  · exact clean_interval hlow hhigh hinside
  · -- for the complement, the two halves change places
    have hlow' : ∀ t < n, ¬ high t ↔ ¬ f t ∧ ¬ f (n + t) := by
      intro t ht
      rw [hhigh t ht, not_or]
    have hhigh' : ∀ t < n, ¬ low t ↔ ¬ f t ∨ ¬ f (n + t) := by
      intro t ht
      rw [hlow t ht, Classical.not_and_iff_not_or_not]
    have hf' : ∀ t < n + n, ¬ f t ↔ u ≤ t ∧ t < v := by
      intro t ht
      rw [houtside t ht, not_not]
    obtain ⟨hwindow, hwindow', hconstant⟩ := clean_interval hlow' hhigh' hf'
    refine ⟨hwindow'.of_not, hwindow.of_not, hconstant.symm.imp id fun h t ht => ?_⟩
    exact not_not.mp (h t ht)

/-! ## Blocks -/

/-- The cells of the block with number `b` among the blocks of size `2 ^ r`. -/
def cells (f : Nat → Prop) (r b t : Nat) : Prop := f (b * 2 ^ r + t)

theorem block_start (r b : Nat) : b * 2 ^ (r + 1) = 2 * b * 2 ^ r := by
  rw [Nat.pow_succ, Nat.mul_comm (2 ^ r), ← Nat.mul_assoc, Nat.mul_comm b]

/-- A block begins with the even one of its halves. -/
theorem cells_low (f : Nat → Prop) (r b t : Nat) :
    cells f (r + 1) b t ↔ cells f r (2 * b) t := by
  unfold cells
  rw [block_start]

/-- The upper half of a block is a block. -/
theorem cells_high (f : Nat → Prop) (r b t : Nat) :
    cells f (r + 1) b (2 ^ r + t) ↔ cells f r (2 * b + 1) t := by
  have hupper : (2 * b + 1) * 2 ^ r = 2 * b * 2 ^ r + 2 ^ r := Nat.succ_mul _ _
  unfold cells
  rw [block_start, hupper, Nat.add_assoc]

theorem block_div {r b t : Nat} (ht : t < 2 ^ r) : (b * 2 ^ r + t) / 2 ^ r = b := by
  rw [Nat.add_comm, Nat.add_mul_div_right t b (Nat.two_pow_pos r), Nat.div_eq_of_lt ht,
    Nat.zero_add]

/-- A cleaned block, in halves. -/
theorem HalfCleaned.block {r m b t : Nat} {f f' : Nat → Prop} (h : HalfCleaned r m f f')
    (hb : (b + 1) * 2 ^ (r + 1) ≤ m) (ht : t < 2 ^ r) :
    (cells f' r (2 * b) t ↔ cells f r (2 * b) t ∧ cells f r (2 * b + 1) t)
      ∧ (cells f' r (2 * b + 1) t ↔ cells f r (2 * b) t ∨ cells f r (2 * b + 1) t) := by
  have hlower : (2 * b * 2 ^ r + t) / 2 ^ r % 2 = 0 := by
    rw [block_div ht]
    omega
  have hend : 2 * b * 2 ^ r + t + 2 ^ r < m := by
    rw [Nat.succ_mul, block_start, Nat.pow_succ] at hb
    omega
  have hupper : (2 * b + 1) * 2 ^ r + t = 2 * b * 2 ^ r + t + 2 ^ r := by
    rw [Nat.succ_mul]
    omega
  unfold cells
  rw [hupper]
  exact ⟨h.low _ hlower hend, h.high _ hlower hend⟩

/-- The halves of a cleaned window are windows, and one of them is constant. -/
theorem HalfCleaned.windows {r m b : Nat} {f f' : Nat → Prop} (h : HalfCleaned r m f f')
    (hb : (b + 1) * 2 ^ (r + 1) ≤ m) (hf : Window (cells f (r + 1) b) (2 ^ (r + 1))) :
    Window (cells f' r (2 * b)) (2 ^ r) ∧ Window (cells f' r (2 * b + 1)) (2 ^ r)
      ∧ ((∀ t < 2 ^ r, ¬ cells f' r (2 * b) t) ∨ ∀ t < 2 ^ r, cells f' r (2 * b + 1) t) := by
  rw [Nat.pow_succ, Nat.mul_two] at hf
  apply clean_window _ _ hf
  · intro t ht
    rw [cells_low, cells_high]
    exact (h.block hb ht).1
  · intro t ht
    rw [cells_low, cells_high]
    exact (h.block hb ht).2

/-- The halves of a block lie below the bound of the block. -/
theorem halves_le {r m b : Nat} (hb : (b + 1) * 2 ^ (r + 1) ≤ m) :
    (2 * b + 1) * 2 ^ r ≤ m ∧ (2 * b + 1 + 1) * 2 ^ r ≤ m := by
  rw [block_start, show 2 * (b + 1) = 2 * b + 1 + 1 by omega] at hb
  exact ⟨le_trans (Nat.mul_le_mul_right _ (Nat.le_succ _)) hb, hb⟩

/-! ## One stage -/

section
variable [LinearOrder β] {before : α → α → Bool} {rank : α → β} {order : Nat → Nat → List Nat}
  {m : Nat} (hbefore : ∀ x y, before x y = true ↔ rank x < rank y)
  (horder : ∀ k j, (order k j).Perm (List.range m))
include hbefore horder

/-- The passes within a block keep it constant. -/
theorem passes_constant {q r b : Nat} (hrq : r ≤ q) (c : β) (x : Prop) (a : Nat → α)
    (hb : (b + 1) * 2 ^ r ≤ m)
    (ha : ∀ t < 2 ^ r, cells (Signed q (Reaches rank c a)) r b t ↔ x) :
    ∀ t < 2 ^ r, cells (Signed q (Reaches rank c (passes before order (2 ^ q) (2 ^ r / 2) a))) r b t
      ↔ x := by
  induction r generalizing b a with
  | zero =>
    rw [passes_zero]
    exact ha
  | succ r ih =>
    rw [passes_succ]
    have hclean := halfCleaned_round hbefore (show r < q by omega) (horder (2 ^ q) (2 ^ r)) c a
    obtain ⟨hfirst, hsecond⟩ := halves_le hb
    have hpow : 2 ^ (r + 1) = 2 ^ r + 2 ^ r := by rw [Nat.pow_succ, Nat.mul_two]
    have hlow : ∀ t < 2 ^ r, cells (Signed q (Reaches rank c a)) r (2 * b) t ↔ x := by
      intro t ht
      rw [← cells_low]
      exact ha t (by omega)
    have hhigh : ∀ t < 2 ^ r, cells (Signed q (Reaches rank c a)) r (2 * b + 1) t ↔ x := by
      intro t ht
      rw [← cells_high]
      exact ha (2 ^ r + t) (by omega)
    intro t ht
    rcases Nat.lt_or_ge t (2 ^ r) with hinside | houtside
    · rw [cells_low]
      apply ih (by omega) _ hfirst (fun t' ht' => ?_) t hinside
      rw [(hclean.block hb ht').1, hlow t' ht', hhigh t' ht', and_self_iff]
    · obtain ⟨t', rfl⟩ := Nat.exists_eq_add_of_le houtside
      rw [cells_high]
      apply ih (by omega) _ hsecond (fun t'' ht'' => ?_) t' (by omega)
      rw [(hclean.block hb ht'').2, hlow t'' ht'', hhigh t'' ht'', or_self_iff]

/-- The passes within a block put a window in order. -/
theorem passes_ascending {q r b : Nat} (hrq : r ≤ q) (c : β) (a : Nat → α)
    (hb : (b + 1) * 2 ^ r ≤ m)
    (ha : Window (cells (Signed q (Reaches rank c a)) r b) (2 ^ r)) :
    Ascending (cells (Signed q (Reaches rank c (passes before order (2 ^ q) (2 ^ r / 2) a))) r b)
      (2 ^ r) := by
  induction r generalizing b a with
  | zero =>
    intro t t' htt' ht' ht
    have hsame : t = t' := by omega
    rwa [← hsame]
  | succ r ih =>
    have hclean := halfCleaned_round hbefore (show r < q by omega) (horder (2 ^ q) (2 ^ r)) c a
    obtain ⟨hfirst, hsecond⟩ := halves_le hb
    have hpow : 2 ^ (r + 1) = 2 ^ r + 2 ^ r := by rw [Nat.pow_succ, Nat.mul_two]
    obtain ⟨hlow, hhigh, hconstant⟩ := hclean.windows hb ha
    have hlow' := ih (show r ≤ q by omega) _ hfirst hlow
    have hhigh' := ih (show r ≤ q by omega) _ hsecond hhigh
    rw [passes_succ]
    intro t t' htt' ht' ht
    rcases Nat.lt_or_ge t' (2 ^ r) with hinside | houtside
    · -- both in the first half
      rw [cells_low] at ht ⊢
      exact hlow' t t' htt' hinside ht
    · obtain ⟨u', rfl⟩ := Nat.exists_eq_add_of_le houtside
      rw [cells_high]
      rcases Nat.lt_or_ge t (2 ^ r) with hacross | houtside'
      · -- across the middle: one of the halves is constant
        rw [cells_low] at ht
        rcases hconstant with hnone | hall
        · have hstays := passes_constant hbefore horder (show r ≤ q by omega) c False _ hfirst
            (fun t ht => iff_of_false (hnone t ht) id) t hacross
          exact absurd ht (hstays.mp)
        · have hstays := passes_constant hbefore horder (show r ≤ q by omega) c True _ hsecond
            (fun t ht => iff_of_true (hall t ht) trivial) u' (by omega)
          exact hstays.mpr trivial
      · obtain ⟨u, rfl⟩ := Nat.exists_eq_add_of_le houtside'
        rw [cells_high] at ht
        exact hhigh' u u' (by omega) (by omega) ht

/-! ## All stages -/

omit hbefore horder in
theorem cells_signed {q b t : Nat} {f : Nat → Prop} (ht : t < 2 ^ q) :
    cells (Signed q f) q b t ↔ (b % 2 = 0 ↔ cells f q b t) := by
  unfold cells Signed
  rw [block_div ht]

/-- After the stage of size `2 ^ q`, the blocks of that size are in order, upwards and downwards by
turns. -/
def Ordered (rank : α → β) (m q : Nat) (a : Nat → α) : Prop :=
  ∀ c b, (b + 1) * 2 ^ q ≤ m → Ascending (cells (Signed q (Reaches rank c a)) q b) (2 ^ q)

omit hbefore horder in
theorem ordered_zero (a : Nat → α) : Ordered rank m 0 a := by
  intro c b hb t t' htt' ht' ht
  have hsame : t = t' := by omega
  rwa [← hsame]

omit hbefore horder in
/-- A block whose halves are in opposite orders is a window. -/
theorem Ordered.window {q b : Nat} {a : Nat → α} (h : Ordered rank m q a) (c : β)
    (hb : (b + 1) * 2 ^ (q + 1) ≤ m) :
    Window (cells (Signed (q + 1) (Reaches rank c a)) (q + 1) b) (2 ^ (q + 1)) := by
  obtain ⟨hfirst, hsecond⟩ := halves_le hb
  obtain ⟨u, hu, hup⟩ := (h c (2 * b) hfirst).threshold
  obtain ⟨v, hv, hdown⟩ := (h c (2 * b + 1) hsecond).threshold
  have hpow : 2 ^ (q + 1) = 2 ^ q + 2 ^ q := by rw [Nat.pow_succ, Nat.mul_two]
  -- the threshold set itself is an interval across the middle
  have hinside : ∀ t < 2 ^ (q + 1),
      cells (Reaches rank c a) (q + 1) b t ↔ u ≤ t ∧ t < 2 ^ q + v := by
    intro t ht
    rcases Nat.lt_or_ge t (2 ^ q) with hlow | hhigh
    · have hcell := hup t hlow
      rw [cells_signed hlow] at hcell
      rw [cells_low]
      have heven : 2 * b % 2 = 0 := by omega
      rw [iff_true_left heven] at hcell
      rw [hcell]
      omega
    · obtain ⟨t', rfl⟩ := Nat.exists_eq_add_of_le hhigh
      have hcell := hdown t' (by omega)
      rw [cells_signed (by omega)] at hcell
      rw [cells_high]
      have hodd : ¬ (2 * b + 1) % 2 = 0 := by omega
      rw [iff_false_left hodd, not_iff_comm] at hcell
      rw [← hcell]
      omega
  by_cases heven : b % 2 = 0
  · refine ⟨u, 2 ^ q + v, .inl fun t ht => ?_⟩
    rw [cells_signed ht, iff_true_left heven]
    exact hinside t ht
  · refine ⟨u, 2 ^ q + v, .inr fun t ht => ?_⟩
    rw [cells_signed ht, iff_false_left heven]
    exact not_congr (hinside t ht)

/-- A stage puts the blocks of its size in order. -/
theorem Ordered.passes {q : Nat} {a : Nat → α} (h : Ordered rank m q a) :
    Ordered rank m (q + 1) (passes before order (2 ^ (q + 1)) (2 ^ (q + 1) / 2) a) := by
  intro c b hb
  exact passes_ascending hbefore horder (le_refl (q + 1)) c a hb (h.window c hb)

/-- The stages that remain order the whole array. -/
theorem Ordered.stages {e q : Nat} (hm : m = 2 ^ e) (hq : q ≤ e) {a : Nat → α}
    (h : Ordered rank m q a) : Ordered rank m e (stages before order m (2 ^ (q + 1)) a) := by
  obtain ⟨left, rfl⟩ := Nat.exists_eq_add_of_le hq
  induction left generalizing q a with
  | zero =>
    rw [stages_done (by rw [hm]; exact Nat.pow_lt_pow_right (by decide) (Nat.lt_succ_self _))]
    exact h
  | succ left ih =>
    rw [stages_next (by rw [hm]; exact Nat.pow_le_pow_right (by decide) (by omega))]
    have hsame : q + 1 + left = q + (left + 1) := by omega
    have hnext := ih (h.passes hbefore horder) (by rw [hm, hsame]) (by omega)
    rwa [hsame] at hnext

/-- **The network sorts**, in every order of the turns. -/
theorem sort_sorted {e : Nat} (hm : m = 2 ^ e) (a : Nat → α) {i i' : Nat} (hii' : i ≤ i')
    (hi' : i' < m) : rank (sort before order m a i) ≤ rank (sort before order m a i') := by
  have hordered : Ordered rank m e (sort before order m a) :=
    (ordered_zero a).stages hbefore horder hm (Nat.zero_le e)
  have hblock := hordered (rank (sort before order m a i)) 0 (by rw [hm]; omega)
  have hcell : ∀ {t}, t < 2 ^ e →
      (cells (Signed e (Reaches rank (rank (sort before order m a i)) (sort before order m a))) e 0 t
        ↔ rank (sort before order m a i) ≤ rank (sort before order m a t)) := by
    intro t ht
    rw [cells_signed ht, iff_true_left (Nat.zero_mod 2)]
    unfold cells Reaches
    rw [Nat.zero_mul, Nat.zero_add]
  rw [hm] at hi'
  exact (hcell hi').mp (hblock i i' hii' hi' ((hcell (by omega)).mpr (le_refl _)))

end

/-! ## What every turn keeps -/

section
variable {before : α → α → Bool} {before' : γ → γ → Bool} {order : Nat → Nat → List Nat} {e : Nat}
  (horder : ∀ k j, (order k j).Perm (List.range (2 ^ e)))
  {R : (Nat → α) → (Nat → γ) → Prop}
  (hturn : ∀ k r i a b, r < e → i < 2 ^ e → R a b →
    R (exchange before k (2 ^ r) i a) (exchange before' k (2 ^ r) i b))
include horder hturn

theorem passes_rel {k r : Nat} (hr : r ≤ e) {a : Nat → α} {b : Nat → γ} (h : R a b) :
    R (passes before order k (2 ^ r / 2) a) (passes before' order k (2 ^ r / 2) b) := by
  induction r generalizing a b with
  | zero =>
    rw [passes_zero, passes_zero]
    exact h
  | succ r ih =>
    rw [passes_succ, passes_succ]
    apply ih (by omega)
    apply round_rel R _ h
    intro i hi a b hab
    have hi' : i < 2 ^ e := List.mem_range.mp ((horder k (2 ^ r)).mem_iff.mp hi)
    exact hturn k r i a b (by omega) hi' hab

theorem stages_rel {q : Nat} (hq : q ≤ e) {a : Nat → α} {b : Nat → γ} (h : R a b) :
    R (stages before order (2 ^ e) (2 ^ (q + 1)) a) (stages before' order (2 ^ e) (2 ^ (q + 1)) b) := by
  obtain ⟨left, hleft⟩ := Nat.exists_eq_add_of_le hq
  induction left generalizing q a b with
  | zero =>
    have hlast : 2 ^ e < 2 ^ (q + 1) := Nat.pow_lt_pow_right (by decide) (by omega)
    rw [stages_done hlast, stages_done hlast]
    exact h
  | succ left ih =>
    have hnext : 2 ^ (q + 1) ≤ 2 ^ e := Nat.pow_le_pow_right (by decide) (by omega)
    rw [stages_next hnext, stages_next hnext]
    apply ih (by omega) _ (by omega)
    exact passes_rel horder hturn (by omega) h

/-- A relation between two arrays that the turns keep, the network keeps. -/
theorem sort_rel {a : Nat → α} {b : Nat → γ} (h : R a b) :
    R (sort before order (2 ^ e) a) (sort before' order (2 ^ e) b) :=
  stages_rel horder hturn (Nat.zero_le e) h

end

theorem pair_lt {e i r : Nat} (hr : r < e) (hi : i < 2 ^ e) : i ^^^ 2 ^ r < 2 ^ e :=
  Nat.xor_lt_two_pow hi (Nat.pow_lt_pow_right (by decide) hr)

/-- The network does not look at the elements beyond what `before` says of them, nor beyond the
first `2 ^ e` cells. -/
theorem sort_map {before : α → α → Bool} {before' : γ → γ → Bool} {order : Nat → Nat → List Nat}
    {e : Nat} (horder : ∀ k j, (order k j).Perm (List.range (2 ^ e))) {f : γ → α}
    (hf : ∀ x y, before (f x) (f y) = before' x y) {a : Nat → α} {b : Nat → γ}
    (h : ∀ p < 2 ^ e, a p = f (b p)) :
    ∀ p < 2 ^ e, sort before order (2 ^ e) a p = f (sort before' order (2 ^ e) b p) := by
  apply @sort_rel α γ before before' order e horder (fun a b => ∀ p < 2 ^ e, a p = f (b p)) _ a b h
  intro k r i a b hr hi hab p hp
  have hmisplaced : misplaced before k i (a i) (a (i ^^^ 2 ^ r))
      = misplaced before' k i (b i) (b (i ^^^ 2 ^ r)) := by
    unfold misplaced
    rw [hab i hi, hab _ (pair_lt hr hi), hf, hf]
  unfold exchange
  rw [hmisplaced]
  split
  · split
    · by_cases hupper : p = i ^^^ 2 ^ r
      · rw [hupper, Function.update_self, Function.update_self]
        exact hab i hi
      · rw [Function.update_of_ne hupper, Function.update_of_ne hupper]
        by_cases hself : p = i
        · rw [hself, Function.update_self, Function.update_self]
          exact hab _ (pair_lt hr hi)
        · rw [Function.update_of_ne hself, Function.update_of_ne hself]
          exact hab p hp
    · exact hab p hp
  · exact hab p hp

/-! ## The elements stay -/

/-- The first `m` cells hold what they held before, at other places. -/
def Shuffled (m : Nat) (a a' : Nat → α) : Prop :=
  ∃ σ : Equiv.Perm Nat, (∀ p < m, σ p < m) ∧ ∀ p, a' p = a (σ p)

theorem Shuffled.refl (m : Nat) (a : Nat → α) : Shuffled m a a :=
  ⟨Equiv.refl Nat, fun _ hp => hp, fun _ => rfl⟩

/-- Shuffling twice is shuffling. -/
theorem Shuffled.trans {m : Nat} {a b c : Nat → α} (hab : Shuffled m a b) (hbc : Shuffled m b c) :
    Shuffled m a c := by
  obtain ⟨σ, hσ, hb⟩ := hab
  obtain ⟨τ, hτ, hc⟩ := hbc
  refine ⟨τ.trans σ, fun p hp => hσ _ (hτ p hp), fun p => ?_⟩
  rw [hc, hb]
  rfl

/-- Shuffled cells hold the same list, up to its order. -/
theorem Shuffled.perm {m : Nat} {a a' : Nat → α} (h : Shuffled m a a') :
    ((List.range m).map a').Perm ((List.range m).map a) := by
  obtain ⟨σ, hσ, ha'⟩ := h
  have hmap : (List.range m).map a' = ((List.range m).map σ).map a := by
    rw [List.map_map]
    exact List.map_congr_left fun p _ => ha' p
  have hnodup : ((List.range m).map σ).Nodup := List.nodup_range.map σ.injective
  have hsub : (List.range m).map σ ⊆ List.range m := by
    intro p hp
    obtain ⟨p', hp', rfl⟩ := List.mem_map.mp hp
    exact List.mem_range.mpr (hσ p' (List.mem_range.mp hp'))
  rw [hmap]
  apply List.Perm.map
  apply (List.Nodup.subperm hnodup hsub).perm_of_length_le
  simp

section
variable {before : α → α → Bool} {order : Nat → Nat → List Nat} {e : Nat}

/-- A turn swaps two of the first `2 ^ e` cells. -/
theorem shuffled_exchange {k i r : Nat} (hr : r < e) (hi : i < 2 ^ e) (a : Nat → α) :
    Shuffled (2 ^ e) a (exchange before k (2 ^ r) i a) := by
  have hixj := pair_lt hr hi
  unfold exchange
  dsimp only
  split
  · split
    · refine ⟨Equiv.swap i (i ^^^ 2 ^ r), fun p hp => ?_, fun p => ?_⟩
      · rw [Equiv.swap_apply_def]
        split
        · exact hixj
        split
        · exact hi
        · exact hp
      · rw [Equiv.swap_apply_def]
        by_cases hupper : p = i ^^^ 2 ^ r
        · rw [hupper, Function.update_self]
          split
          · rename_i hsame
            rw [hsame]
          · rw [if_pos rfl]
        · rw [Function.update_of_ne hupper]
          by_cases hself : p = i
          · rw [hself, Function.update_self, if_pos rfl]
          · rw [Function.update_of_ne hself, if_neg hself, if_neg hupper]
    · exact Shuffled.refl _ _
  · exact Shuffled.refl _ _

/-- **The network keeps the elements.** -/
theorem sort_perm (horder : ∀ k j, (order k j).Perm (List.range (2 ^ e))) (a : Nat → α) :
    ((List.range (2 ^ e)).map (sort before order (2 ^ e) a)).Perm ((List.range (2 ^ e)).map a) := by
  apply Shuffled.perm
  apply @sort_rel α α before before order e horder (fun b _ => Shuffled (2 ^ e) a b) _ a a
    (Shuffled.refl _ _)
  intro k r i b _ hr hi hb
  exact hb.trans (shuffled_exchange hr hi b)

end

/-! ## Arrays on which the comparison is an order -/

/-- The network sorts an array also when `before` is an order on its elements only. -/
theorem sort_sorted_of_valid [LinearOrder β] {before : α → α → Bool} {rank : α → β}
    {order : Nat → Nat → List Nat} {e : Nat} {valid : α → Prop}
    (hbefore : ∀ x y, valid x → valid y → (before x y = true ↔ rank x < rank y))
    (horder : ∀ k j, (order k j).Perm (List.range (2 ^ e))) {a : Nat → α}
    (ha : ∀ p < 2 ^ e, valid (a p)) {i i' : Nat} (hii' : i ≤ i') (hi' : i' < 2 ^ e) :
    rank (sort before order (2 ^ e) a i) ≤ rank (sort before order (2 ^ e) a i') := by
  let b : Nat → {x // valid x} := fun p =>
    if hp : p < 2 ^ e then ⟨a p, ha p hp⟩ else ⟨a 0, ha 0 (Nat.two_pow_pos e)⟩
  have hab : ∀ p < 2 ^ e, a p = (b p).val := by
    intro p hp
    show a p = (if hp : p < 2 ^ e then _ else _ : {x // valid x}).val
    rw [dif_pos hp]
  have hsame := @sort_map α {x // valid x} before (fun x y => before x.val y.val) order e horder
    Subtype.val (fun _ _ => rfl) a b hab
  rw [hsame i (by omega), hsame i' hi']
  exact @sort_sorted {x // valid x} β _ (fun x y => before x.val y.val) (fun x => rank x.val) order
    (2 ^ e) (fun x y => hbefore x.val y.val x.property y.property) horder e rfl b i i' hii' hi'

end Qwen3Tts.Lib.Bitonic
