import Mathlib.Data.List.Perm.Basic
import Mathlib.Data.List.Nodup

/-!
# Lib — `Vec::swap_remove` on lists

`swapRemove xs i` is the vector after `swap_remove(i)`: the element at `i` is replaced by the
last one and the vector is one shorter. A scan that removes elements this way re-examines
position `i`, so what matters about the operation is what it leaves before `i`, what it leaves
from `i` on, and that nothing but the removed element is lost.
-/

namespace Qwen3Tts.Lib

variable {α β : Type*}

def swapRemove (xs : List α) (i : Nat) : List α :=
  match xs.getLast? with
  | none => []
  | some last => (xs.set i last).dropLast

/-- Removing the last position drops it; any other position receives the last element. -/
theorem swapRemove_eq {xs ys : List α} {x : α} :
    swapRemove (xs ++ x :: ys) xs.length
      = xs ++ (match ys.getLast? with
          | none => []
          | some last => last :: ys.dropLast) := by
  unfold swapRemove
  have hne : xs ++ x :: ys ≠ [] := by simp
  rw [List.getLast?_eq_some_getLast hne]
  cases hy : ys.getLast? with
  | none =>
    have hnil : ys = [] := by simpa using hy
    subst hnil
    simp
  | some last =>
    obtain ⟨init, rfl⟩ : ∃ init, ys = init ++ [last] := by
      rw [List.getLast?_eq_some_iff] at hy
      exact hy
    have hset : (xs ++ x :: (init ++ [last])).set xs.length last
        = (xs ++ last :: init) ++ [last] := by simp
    have hlast : (xs ++ x :: (init ++ [last])).getLast hne = last := by simp
    rw [hlast]
    simp only [hset, List.dropLast_concat]

/-- Nothing but the removed element is lost, and the prefix is untouched. -/
theorem swapRemove_split (xs : List α) (x : α) (ys : List α) :
    ∃ ys', swapRemove (xs ++ x :: ys) xs.length = xs ++ ys' ∧ ys'.Perm ys := by
  rw [swapRemove_eq]
  cases hy : ys.getLast? with
  | none =>
    have hnil : ys = [] := by simpa using hy
    exact ⟨[], rfl, by simp [hnil]⟩
  | some last =>
    obtain ⟨init, rfl⟩ := List.getLast?_eq_some_iff.mp hy
    refine ⟨_, rfl, ?_⟩
    simpa using (List.perm_append_singleton last init).symm

theorem split_at_getElem? {xs : List α} {i : Nat} {x : α} (h : xs[i]? = some x) :
    ∃ ys zs, xs = ys ++ x :: zs ∧ ys.length = i := by
  obtain ⟨hi, rfl⟩ := List.getElem?_eq_some_iff.mp h
  exact ⟨xs.take i, xs.drop (i + 1), by simp, by simp; omega⟩

/-- The removed element and what is left are what there was. -/
theorem swapRemove_perm {xs : List α} {i : Nat} {x : α} (h : xs[i]? = some x) :
    xs.Perm (x :: swapRemove xs i) := by
  obtain ⟨before, after, rfl, rfl⟩ := split_at_getElem? h
  obtain ⟨after', heq, hperm⟩ := swapRemove_split before x after
  rw [heq]
  exact List.perm_middle.trans ((hperm.symm.append_left before).cons x)

end Qwen3Tts.Lib
