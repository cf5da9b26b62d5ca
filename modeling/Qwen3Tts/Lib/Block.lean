import Mathlib.Data.List.Perm.Basic
import Mathlib.Data.List.Nodup
import Mathlib.Logic.Function.Basic

/-!
# Lib — rounds of a thread block

The threads of a block work on one shared array in rounds with a barrier after each. Within a round
every index gets one turn, and nothing fixes the order of the turns: `round` runs them in an order
that it is given. Where each turn writes only to cells of its own, and reads only those of them
that it writes or that nobody writes, the order does not matter (`round_apply`).
-/

namespace Qwen3Tts.Lib.Block

variable {ι α σ τ : Type*}

/-- For each round of a program, the order in which the indices below a bound get their turns. -/
structure Schedule (ι : Type*) where
  order : ι → Nat → List Nat
  perm : ∀ round count, (order round count).Perm (List.range count)

/-- The schedule of a block with a single thread. -/
def Schedule.sequential : Schedule ι where
  order _ count := List.range count
  perm _ _ := .refl _

def round (turn : Nat → σ → σ) (order : List Nat) (s : σ) : σ :=
  order.foldl (fun s i => turn i s) s

@[simp] theorem round_nil (turn : Nat → σ → σ) (s : σ) : round turn [] s = s := rfl

@[simp] theorem round_cons (turn : Nat → σ → σ) (i : Nat) (order : List Nat) (s : σ) :
    round turn (i :: order) s = round turn order (turn i s) := rfl

/-- A relation that every turn keeps, a round keeps. -/
theorem round_rel {turn : Nat → σ → σ} {turn' : Nat → τ → τ} {order : List Nat} (R : σ → τ → Prop)
    (hturn : ∀ i ∈ order, ∀ s t, R s t → R (turn i s) (turn' i t)) {s : σ} {t : τ} (h : R s t) :
    R (round turn order s) (round turn' order t) := by
  induction order generalizing s t with
  | nil => exact h
  | cons i order ih =>
    apply ih (fun j hj => hturn j (List.mem_cons_of_mem i hj))
    exact hturn i List.mem_cons_self s t h

/-- Every cell belongs to one turn, and a turn computes its own cells from its own cells. -/
structure Separate (owner : Nat → Nat) (turn : Nat → (Nat → α) → Nat → α) : Prop where
  frame : ∀ i a p, owner p ≠ i → turn i a p = a p
  own : ∀ i a b, (∀ p, owner p = i → a p = b p) → ∀ p, owner p = i → turn i a p = turn i b p

/-- After a round of separate turns, a cell holds what its own turn makes of the array that the
round began with. -/
theorem round_of_nodup {owner : Nat → Nat} {turn : Nat → (Nat → α) → Nat → α}
    (h : Separate owner turn) {order : List Nat} (hnodup : order.Nodup) (a : Nat → α) (p : Nat) :
    round turn order a p = if owner p ∈ order then turn (owner p) a p else a p := by
  induction order generalizing a with
  | nil => rw [round_nil, if_neg List.not_mem_nil]
  | cons i order ih =>
    obtain ⟨hfresh, hrest⟩ := List.nodup_cons.mp hnodup
    rw [round_cons, ih hrest]
    by_cases hi : owner p = i
    · -- the turn of `i` is the only one that writes `p`
      rw [if_neg (by rw [hi]; exact hfresh), if_pos (by rw [hi]; exact List.mem_cons_self), hi]
    · by_cases hlater : owner p ∈ order
      · rw [if_pos hlater, if_pos (List.mem_cons_of_mem i hlater)]
        -- the cells of a later turn are as they were
        apply h.own _ _ _ (fun q hq => ?_) p rfl
        exact h.frame i a q (by rw [hq]; exact hi)
      · rw [if_neg hlater, if_neg (by simp [hi, hlater])]
        exact h.frame i a p hi

theorem round_apply {owner : Nat → Nat} {turn : Nat → (Nat → α) → Nat → α}
    (h : Separate owner turn) {order : List Nat} {count : Nat}
    (hperm : order.Perm (List.range count)) (a : Nat → α) {p : Nat} (hp : owner p < count) :
    round turn order a p = turn (owner p) a p := by
  have hnodup : order.Nodup := hperm.nodup_iff.mpr List.nodup_range
  rw [round_of_nodup h hnodup, if_pos (hperm.mem_iff.mpr (List.mem_range.mpr hp))]

end Qwen3Tts.Lib.Block
