import Mathlib.Data.List.Perm.Basic
import Mathlib.Order.Lattice

/-!
# Lib — what a list begins with when it is put in order

Lists in ascending order of a rank. When a list is put in order and one part of its elements ranks
before the rest, it begins with that part in order (`ranks_take`), whatever the rest is: two lists
that share the part begin alike (`take_eq_take`).
-/

namespace Qwen3Tts.Lib.Ranked

variable {α β : Type*} [LinearOrder β] {rank : α → β}

/-- Every list has an order of its elements by rank. -/
theorem exists_sorted (rank : α → β) (l : List α) :
    ∃ s : List α, s.Perm l ∧ s.Pairwise fun a b => rank a ≤ rank b := by
  refine ⟨l.mergeSort fun a b => decide (rank a ≤ rank b), List.mergeSort_perm _ _, ?_⟩
  have hsorted := @List.pairwise_mergeSort α (fun a b => decide (rank a ≤ rank b))
    (fun a b c hab hbc => by
      rw [decide_eq_true_iff] at hab hbc ⊢
      exact le_trans hab hbc)
    (fun a b => by
      rw [Bool.or_eq_true, decide_eq_true_iff, decide_eq_true_iff]
      exact le_total _ _) l
  exact hsorted.imp fun h => of_decide_eq_true h

/-- The ranks that a list in order begins with. -/
theorem ranks_take {l x y s : List α} (hsorted : l.Pairwise fun a b => rank a ≤ rank b)
    (hperm : l.Perm (x ++ y)) (hxy : ∀ a ∈ x, ∀ b ∈ y, rank a ≤ rank b)
    (hs : s.Perm x) (hordered : s.Pairwise fun a b => rank a ≤ rank b) :
    (l.take x.length).map rank = s.map rank := by
  obtain ⟨t, ht, htordered⟩ := exists_sorted rank y
  -- the part in order, followed by the rest in order, is an order of the whole list
  have hjoined : ((s ++ t).map rank).Pairwise (· ≤ ·) := by
    rw [List.pairwise_map, List.pairwise_append]
    refine ⟨hordered, htordered, fun a ha b hb => ?_⟩
    exact hxy a (hs.mem_iff.mp ha) b (ht.mem_iff.mp hb)
  have hranks : l.map rank = (s ++ t).map rank := by
    apply List.Perm.eq_of_pairwise (fun a b _ _ hab hba => le_antisymm hab hba)
      (List.pairwise_map.mpr hsorted) hjoined
    exact (hperm.trans (hs.append ht).symm).map rank
  rw [List.map_take, hranks, List.map_append, ← hs.length_eq, ← @List.length_map _ _ s rank,
    List.take_left]

omit [LinearOrder β] in
theorem eq_of_ranks {l l' : List α} (hinj : ∀ a ∈ l, ∀ b ∈ l', rank a = rank b → a = b)
    (h : l.map rank = l'.map rank) : l = l' := by
  induction l generalizing l' with
  | nil =>
    cases l' with
    | nil => rfl
    | cons b l' => cases h
  | cons a l ih =>
    cases l' with
    | nil => cases h
    | cons b l' =>
      rw [List.map_cons, List.map_cons, List.cons.injEq] at h
      rw [hinj a List.mem_cons_self b List.mem_cons_self h.1,
        ih (fun a ha b hb => hinj a (List.mem_cons_of_mem _ ha) b (List.mem_cons_of_mem _ hb)) h.2]

/-- **Two lists in order that share a part which ranks before the rest begin alike.** -/
theorem take_eq_take {l l' x y y' : List α} (hsorted : l.Pairwise fun a b => rank a ≤ rank b)
    (hsorted' : l'.Pairwise fun a b => rank a ≤ rank b) (hperm : l.Perm (x ++ y))
    (hperm' : l'.Perm (x ++ y')) (hxy : ∀ a ∈ x, ∀ b ∈ y, rank a ≤ rank b)
    (hxy' : ∀ a ∈ x, ∀ b ∈ y', rank a ≤ rank b)
    (hinj : ∀ a ∈ l, ∀ b ∈ l', rank a = rank b → a = b) :
    l.take x.length = l'.take x.length := by
  obtain ⟨s, hs, hordered⟩ := exists_sorted rank x
  apply eq_of_ranks (fun a ha b hb => hinj a (List.mem_of_mem_take ha) b (List.mem_of_mem_take hb))
  rw [ranks_take hsorted hperm hxy hs hordered, ranks_take hsorted' hperm' hxy' hs hordered]

end Qwen3Tts.Lib.Ranked
