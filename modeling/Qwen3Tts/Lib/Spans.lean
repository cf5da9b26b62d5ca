import Mathlib.Algebra.Ring.Nat
import Mathlib.Data.List.Basic
import Mathlib.Tactic.Common

/-!
# Lib — ranges that tile an arena

`Tiled start spans last` lays ranges one behind the other: the first begins at `start`, each at the
end of the one before it, and the last ends at `last`. Such ranges do not overlap and leave no gap.
-/

namespace Qwen3Tts.Lib

/-- A block of consecutive positions. -/
structure Span where
  first : Nat
  size : Nat
  deriving DecidableEq, Repr

/-- The position behind the block. -/
def Span.stop (s : Span) : Nat := s.first + s.size

/-- The spans follow one another from `start` to `last`. -/
def Tiled : Nat → List Span → Nat → Prop
  | start, [], last => start = last
  | start, s :: spans, last => s.first = start ∧ Tiled s.stop spans last

namespace Tiled

variable {start last : Nat} {spans : List Span}

theorem le (h : Tiled start spans last) : start ≤ last := by
  induction spans generalizing start with
  | nil => exact Nat.le_of_eq h
  | cons s spans ih =>
    have hrest := ih h.2
    have hfirst := h.1
    unfold Span.stop at hrest
    omega

/-- What lies behind the start begins behind it. -/
theorem le_first (h : Tiled start spans last) : ∀ s ∈ spans, start ≤ s.first := by
  induction spans generalizing start with
  | nil => exact List.forall_mem_nil _
  | cons s spans ih =>
    have hfirst := h.1
    refine List.forall_mem_cons.mpr ⟨Nat.le_of_eq hfirst.symm, fun t ht => ?_⟩
    have hbehind := ih h.2 t ht
    unfold Span.stop at hbehind
    omega

/-- **No two ranges overlap**, and they lie in the order of the list. -/
theorem ordered (h : Tiled start spans last) :
    spans.Pairwise fun s t => s.stop ≤ t.first := by
  induction spans generalizing start with
  | nil => exact .nil
  | cons s spans ih => exact .cons (le_first h.2) (ih h.2)

/-- **There is no gap** and nothing outside. -/
theorem covers (h : Tiled start spans last) (p : Nat) :
    (∃ s ∈ spans, s.first ≤ p ∧ p < s.stop) ↔ start ≤ p ∧ p < last := by
  induction spans generalizing start with
  | nil =>
    have heq : start = last := h
    constructor
    · rintro ⟨s, hs, -⟩
      exact absurd hs List.not_mem_nil
    · intro hp
      omega
  | cons s spans ih =>
    have hfirst := h.1
    have hstop : s.first ≤ s.stop := Nat.le_add_right _ _
    have hle := le h.2
    -- a position lies in the first span or in one of the rest
    have hsplit : (∃ t ∈ s :: spans, t.first ≤ p ∧ p < t.stop)
        ↔ (s.first ≤ p ∧ p < s.stop) ∨ ∃ t ∈ spans, t.first ≤ p ∧ p < t.stop := by
      simp only [List.mem_cons, exists_eq_or_imp]
    rw [hsplit, ih h.2]
    omega

end Tiled

end Qwen3Tts.Lib
