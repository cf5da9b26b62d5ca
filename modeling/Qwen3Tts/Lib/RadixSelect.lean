import Mathlib.Data.Nat.Bitwise
import Mathlib.Data.List.Basic
import Mathlib.Tactic.Ring

/-!
# Lib — radix selection of a threshold

To find the `selections` largest of a list of keys without sorting it, one reads the keys digit by
digit from the top: the keys with the digits found so far are counted by their next digit, and a
scan of the counts from the largest digit down finds the digit at which the count of the larger
keys first gets to `selections`. `Narrowed` is the invariant; at the last digit it says that at
least `selections` keys reach the threshold.
-/

namespace Qwen3Tts.Lib.RadixSelect

/-- Scans the counts of the digits below `b` from the largest down; `cum` counts what lies above.
It returns the count above the digit it stops at, and the digit. -/
def scan (hist : Nat → Nat) (selections : Nat) : (b cum : Nat) → Nat × Nat
  | 0, cum => (cum, 0)
  | b + 1, cum =>
    if selections ≤ cum + hist b then (cum, b) else scan hist selections b (cum + hist b)

/-! ## Counting -/

variable {ι : Type*}

/-- Elements that satisfy exactly one of two tests. -/
theorem countP_add {l : List ι} {p q r : ι → Bool} (h : ∀ x ∈ l, (r x = true ↔ p x = true ∨ q x = true))
    (hdisjoint : ∀ x ∈ l, ¬ (p x = true ∧ q x = true)) : l.countP p + l.countP q = l.countP r := by
  induction l with
  | nil => rfl
  | cons x l ih =>
    have hrest := ih (fun y hy => h y (List.mem_cons_of_mem x hy))
      (fun y hy => hdisjoint y (List.mem_cons_of_mem x hy))
    have hx := h x List.mem_cons_self
    have hx' := hdisjoint x List.mem_cons_self
    simp only [List.countP_cons]
    cases hp : p x <;> cases hq : q x <;> cases hr : r x <;> simp_all <;> omega

/-- Where the scan stops, the count gets to `selections`. -/
theorem scan_spec {l : List ι} {test : ι → Bool} {digit : ι → Nat} {hist : Nat → Nat}
    {selections base : Nat} (hhist : ∀ b, hist b = l.countP fun x => test x && digit x == b)
    (hreach : selections ≤ base + l.countP test) {b cum : Nat}
    (hcum : cum = base + l.countP fun x => test x && decide (b ≤ digit x)) (hlow : cum < selections) :
    (scan hist selections b cum).1
        = base + l.countP (fun x => test x && decide ((scan hist selections b cum).2 < digit x))
      ∧ (scan hist selections b cum).1 < selections ∧ (scan hist selections b cum).2 < b
      ∧ selections
        ≤ base + l.countP (fun x => test x && decide ((scan hist selections b cum).2 ≤ digit x)) := by
  induction b generalizing cum with
  | zero =>
    -- nothing is left to scan, but everything was counted
    have hall : (l.countP fun x => test x && decide (0 ≤ digit x)) = l.countP test :=
      List.countP_congr fun x _ => by simp
    omega
  | succ b ih =>
    have hsplit : (l.countP fun x => test x && digit x == b)
        + (l.countP fun x => test x && decide (b + 1 ≤ digit x))
        = l.countP fun x => test x && decide (b ≤ digit x) := by
      apply countP_add
      · intro x _
        simp only [Bool.and_eq_true, beq_iff_eq, decide_eq_true_iff]
        have hcases : b ≤ digit x ↔ digit x = b ∨ b + 1 ≤ digit x := by omega
        tauto
      · intro x _
        simp only [Bool.and_eq_true, beq_iff_eq, decide_eq_true_iff]
        omega
    have hnext := hhist b
    rw [scan]
    by_cases hstop : selections ≤ cum + hist b
    · rw [if_pos hstop]
      refine ⟨hcum, hlow, Nat.lt_succ_self b, ?_⟩
      dsimp only
      omega
    · rw [if_neg hstop]
      obtain ⟨habove, hbelow, hdigit, hreaches⟩ := @ih (cum + hist b) (by omega) (by omega)
      exact ⟨habove, hbelow, by omega, hreaches⟩

/-! ## Narrowing the threshold -/

/-- What is known of the threshold `prefix` when its digits from bit `hs` on are found: `above`
counts the keys that are larger in these digits, and together with the keys that agree in them they
get to `selections`. -/
structure Narrowed (keys : List Nat) (selections hs found above : Nat) : Prop where
  above_eq : above = keys.countP fun key => decide (found / 2 ^ hs < key / 2 ^ hs)
  above_lt : above < selections
  reaches : selections ≤ keys.countP fun key => decide (found / 2 ^ hs ≤ key / 2 ^ hs)
  aligned : found % 2 ^ hs = 0

theorem narrowed_start {keys : List Nat} {selections hs : Nat} (hkeys : ∀ key ∈ keys, key < 2 ^ hs)
    (hpos : 0 < selections) (hle : selections ≤ keys.length) :
    Narrowed keys selections hs 0 0 where
  above_eq := by
    symm
    rw [List.countP_eq_zero]
    intro key hkey
    rw [decide_eq_true_iff, Nat.div_eq_of_lt (hkeys key hkey), Nat.zero_div]
    omega
  above_lt := hpos
  reaches := by
    rw [Nat.zero_div]
    simpa using hle
  aligned := Nat.zero_mod _

/-- A key, from the digit at `shift` up. -/
theorem div_digit (key shift width : Nat) :
    key / 2 ^ shift = key / 2 ^ (shift + width) * 2 ^ width + key / 2 ^ shift % 2 ^ width := by
  rw [Nat.pow_add, ← Nat.div_div_eq_div_mul]
  exact (Nat.div_add_mod' (key / 2 ^ shift) (2 ^ width)).symm

/-- The threshold with one more digit. -/
theorem or_digit {found chosen shift width : Nat} (haligned : found % 2 ^ (shift + width) = 0)
    (hchosen : chosen < 2 ^ width) :
    found ||| chosen <<< shift = found + chosen * 2 ^ shift := by
  obtain ⟨high, rfl⟩ := Nat.dvd_of_mod_eq_zero haligned
  have hlt : chosen * 2 ^ shift < 2 ^ (shift + width) := by
    rw [Nat.pow_add, Nat.mul_comm]
    exact Nat.mul_lt_mul_of_pos_left hchosen (Nat.two_pow_pos shift)
  rw [Nat.shiftLeft_eq, ← Nat.two_pow_add_eq_or_of_lt hlt]

/-- Numbers of two digits are ordered by the first and then by the second. -/
theorem two_digits {base high high' low low' : Nat} (hlow : low < base) (hlow' : low' < base) :
    (high * base + low < high' * base + low' ↔ high < high' ∨ high' = high ∧ low < low')
      ∧ (high * base + low ≤ high' * base + low' ↔ high < high' ∨ high' = high ∧ low ≤ low') := by
  rcases Nat.lt_trichotomy high high' with hlt | rfl | hgt
  · have hstep := Nat.mul_le_mul_right base hlt
    rw [Nat.succ_mul] at hstep
    omega
  · omega
  · have hstep := Nat.mul_le_mul_right base hgt
    rw [Nat.succ_mul] at hstep
    omega

/-- **One pass** finds one more digit. -/
theorem Narrowed.pass {keys : List Nat} {selections shift width found above : Nat} {hist : Nat → Nat}
    (h : Narrowed keys selections (shift + width) found above)
    (hhist : ∀ b, hist b = keys.countP fun key =>
      key / 2 ^ (shift + width) == found / 2 ^ (shift + width)
        && key / 2 ^ shift % 2 ^ width == b) :
    Narrowed keys selections shift
      (found ||| (scan hist selections (2 ^ width) above).2 <<< shift)
      (scan hist selections (2 ^ width) above).1 := by
  have hcount : (keys.countP fun key => decide (found / 2 ^ (shift + width) < key / 2 ^ (shift + width)))
      + (keys.countP fun key => key / 2 ^ (shift + width) == found / 2 ^ (shift + width))
      = keys.countP fun key => decide (found / 2 ^ (shift + width) ≤ key / 2 ^ (shift + width)) := by
    apply countP_add
    · intro key _
      simp only [beq_iff_eq, decide_eq_true_iff]
      omega
    · intro key _
      simp only [beq_iff_eq, decide_eq_true_iff]
      omega
  have hempty : (keys.countP fun key =>
      key / 2 ^ (shift + width) == found / 2 ^ (shift + width)
        && decide (2 ^ width ≤ key / 2 ^ shift % 2 ^ width)) = 0 := by
    rw [List.countP_eq_zero]
    intro key _
    have hdigit := Nat.mod_lt (key / 2 ^ shift) (Nat.two_pow_pos width)
    simp only [Bool.and_eq_true, decide_eq_true_iff]
    omega
  have habove := h.above_eq
  have hreaches := h.reaches
  obtain ⟨hcum, hbelow, hchosen, hnext⟩ := @scan_spec Nat keys
    (fun key => key / 2 ^ (shift + width) == found / 2 ^ (shift + width))
    (fun key => key / 2 ^ shift % 2 ^ width) hist selections above hhist (by omega) (2 ^ width) above
    (by omega) h.above_lt
  generalize scan hist selections (2 ^ width) above = scanned at hcum hbelow hchosen hnext ⊢
  obtain ⟨cum, chosen⟩ := scanned
  dsimp only at hcum hbelow hchosen hnext ⊢
  have hpos := Nat.two_pow_pos shift
  rw [or_digit h.aligned hchosen]
  -- the digits of the new threshold, from the digit at `shift` up
  have hfound : (found + chosen * 2 ^ shift) / 2 ^ shift
      = found / 2 ^ (shift + width) * 2 ^ width + chosen := by
    obtain ⟨high, rfl⟩ := Nat.dvd_of_mod_eq_zero h.aligned
    rw [Nat.mul_div_cancel_left high (Nat.two_pow_pos _), Nat.add_mul_div_right _ _ hpos, Nat.pow_add,
      Nat.mul_assoc, Nat.mul_div_cancel_left _ hpos, Nat.mul_comm high]
  have hsplit : ∀ key : Nat,
      key / 2 ^ shift
        = key / 2 ^ (shift + width) * 2 ^ width + key / 2 ^ shift % 2 ^ width :=
    fun key => div_digit key shift width
  have hdigit : ∀ key : Nat, key / 2 ^ shift % 2 ^ width < 2 ^ width :=
    fun key => Nat.mod_lt _ (Nat.two_pow_pos width)
  constructor
  · rw [hcum, habove]
    apply countP_add
    · intro key _
      simp only [Bool.and_eq_true, beq_iff_eq, decide_eq_true_iff]
      rw [hfound, hsplit key, (two_digits hchosen (hdigit key)).1, ← hsplit key]
    · intro key _
      simp only [Bool.and_eq_true, beq_iff_eq, decide_eq_true_iff]
      omega
  · exact hbelow
  · rw [habove, countP_add] at hnext
    · exact hnext
    · intro key _
      simp only [Bool.and_eq_true, beq_iff_eq, decide_eq_true_iff]
      rw [hfound, hsplit key, (two_digits hchosen (hdigit key)).2, ← hsplit key]
    · intro key _
      simp only [Bool.and_eq_true, beq_iff_eq, decide_eq_true_iff]
      omega
  · obtain ⟨high, rfl⟩ := Nat.dvd_of_mod_eq_zero h.aligned
    rw [Nat.add_mul_mod_self_right, Nat.pow_add, Nat.mul_assoc, Nat.mul_mod_right]

/-- At the last digit, at least `selections` keys reach the threshold. -/
theorem Narrowed.threshold {keys : List Nat} {selections found above : Nat}
    (h : Narrowed keys selections 0 found above) :
    selections ≤ keys.countP fun key => decide (found ≤ key) := by
  have hreaches := h.reaches
  simp only [Nat.pow_zero, Nat.div_one] at hreaches
  exact hreaches

end Qwen3Tts.Lib.RadixSelect
