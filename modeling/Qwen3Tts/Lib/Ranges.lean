import Mathlib.Algebra.BigOperators.Group.List.Basic
import Mathlib.Algebra.Ring.Nat
import Mathlib.Order.Interval.Finset.Nat

/-!
# Lib — disjoint ranges of addresses

A range is a first address with a length. Ranges that lie apart in an address space are together
no longer than the space.
-/

namespace Qwen3Tts.Lib

/-- Two ranges share no address. -/
def Apart (r s : Nat × Nat) : Prop := r.1 + r.2 ≤ s.1 ∨ s.1 + s.2 ≤ r.1

instance (r s : Nat × Nat) : Decidable (Apart r s) := inferInstanceAs (Decidable (_ ∨ _))

theorem Apart.symm {r s : Nat × Nat} (h : Apart r s) : Apart s r := Or.symm h

/-- The addresses of a range. -/
def addresses (r : Nat × Nat) : Finset Nat := Finset.Ico r.1 (r.1 + r.2)

/-- Ranges that lie apart share no address. -/
theorem disjoint_addresses {r s : Nat × Nat} (h : Apart r s) :
    Disjoint (addresses r) (addresses s) := by
  refine Finset.disjoint_left.mpr fun x hr hs => ?_
  have hr' := Finset.mem_Ico.mp hr
  have hs' := Finset.mem_Ico.mp hs
  rcases h with h | h
  · omega
  · omega

/-- The addresses of several ranges. -/
def covered (rs : List (Nat × Nat)) : Finset Nat := rs.foldr (fun r s => addresses r ∪ s) ∅

/-- A range apart from all others shares no address with them. -/
theorem disjoint_covered {r : Nat × Nat} {rs : List (Nat × Nat)} (h : ∀ s ∈ rs, Apart r s) :
    Disjoint (addresses r) (covered rs) := by
  induction rs with
  | nil => exact Finset.disjoint_empty_right _
  | cons s rs ih =>
    obtain ⟨hs, hrs⟩ := List.forall_mem_cons.mp h
    exact Finset.disjoint_union_right.mpr ⟨disjoint_addresses hs, ih hrs⟩

/-- Ranges that lie apart have as many addresses as their lengths say. -/
theorem card_covered {rs : List (Nat × Nat)} (h : rs.Pairwise Apart) :
    (covered rs).card = (rs.map Prod.snd).sum := by
  induction rs with
  | nil => rfl
  | cons r rs ih =>
    obtain ⟨hr, hrs⟩ := List.pairwise_cons.mp h
    have hlength : (addresses r).card = r.2 := by
      rw [addresses, Nat.card_Ico]
      omega
    show (addresses r ∪ covered rs).card = _
    rw [Finset.card_union_of_disjoint (disjoint_covered hr), ih hrs, hlength, List.map_cons,
      List.sum_cons]

/-- **Ranges that lie apart fit into their space.** -/
theorem sum_le_of_apart {rs : List (Nat × Nat)} (h : rs.Pairwise Apart) {first last : Nat}
    (hspace : ∀ r ∈ rs, first ≤ r.1 ∧ r.1 + r.2 ≤ last) :
    (rs.map Prod.snd).sum ≤ last - first := by
  -- every range lies in the space
  have hsub : covered rs ⊆ Finset.Ico first last := by
    clear h
    induction rs with
    | nil => exact Finset.empty_subset _
    | cons r rs ih =>
      obtain ⟨hr, hrs⟩ := List.forall_mem_cons.mp hspace
      refine Finset.union_subset (fun x hx => ?_) (ih hrs)
      have hx' := Finset.mem_Ico.mp hx
      exact Finset.mem_Ico.mpr ⟨by omega, by omega⟩
  have hcard := Finset.card_le_card hsub
  rwa [card_covered h, Nat.card_Ico] at hcard

end Qwen3Tts.Lib
