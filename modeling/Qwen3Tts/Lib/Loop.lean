import Mathlib.Logic.Relation
import Mathlib.Tactic.Common

/-!
# Lib — loops that need not end

A loop is its body: a function from the loop's state to either the result the loop ends with or
the state of the next iteration. `loop body fuel s` runs at most `fuel` iterations, and `none`
means that they were not enough. A loop ends when some fuel is enough (`Ends`), and then the
result does not depend on the fuel (`loop_mono`). `ends_of_measure` is the rule for loops that
end, and `loop_induction` carries an invariant to the result. A loop whose iterations all lower a
measure is a function (`loopResult`).
-/

namespace Qwen3Tts.Lib

variable {σ ρ : Type*}

def loop (body : σ → ρ ⊕ σ) : Nat → σ → Option ρ
  | 0, _ => none
  | fuel + 1, s =>
    match body s with
    | .inl result => some result
    | .inr next => loop body fuel next

/-- Some number of iterations is enough. -/
def Ends (body : σ → ρ ⊕ σ) (s : σ) : Prop := ∃ fuel, (loop body fuel s).isSome

/-- The states at the head of the loop, from a state on. -/
def Visits (body : σ → ρ ⊕ σ) : σ → σ → Prop :=
  Relation.ReflTransGen fun s next => body s = .inr next

section
variable {body : σ → ρ ⊕ σ} {s s' : σ} {fuel : Nat} {result : ρ}

theorem loop_done (h : body s = .inl result) : loop body (fuel + 1) s = some result := by
  simp [loop, h]

theorem loop_next (h : body s = .inr s') : loop body (fuel + 1) s = loop body fuel s' := by
  simp [loop, h]

/-- More fuel does not change the result. -/
theorem loop_mono {more : Nat} (h : loop body fuel s = some result) (hmore : fuel ≤ more) :
    loop body more s = some result := by
  induction fuel generalizing s more with
  | zero => cases h
  | succ fuel ih =>
    cases more with
    | zero => omega
    | succ more =>
      cases hbody : body s with
      | inl out =>
        rw [loop_done hbody] at h ⊢
        exact h
      | inr next =>
        rw [loop_next hbody] at h ⊢
        exact ih h (by omega)

/-- Two runs of the same loop that both end agree. -/
theorem loop_unique {other : Nat} {result' : ρ} (h : loop body fuel s = some result)
    (h' : loop body other s = some result') : result = result' := by
  have hmax := loop_mono h (Nat.le_max_left fuel other)
  rw [loop_mono h' (Nat.le_max_right fuel other)] at hmax
  exact (Option.some.inj hmax).symm

/-- The loop goes on from a state it visits. -/
theorem loop_of_visits (hvisits : Visits body s s') (h : loop body fuel s' = some result) :
    ∃ more, loop body more s = some result := by
  induction hvisits using Relation.ReflTransGen.head_induction_on with
  | refl => exact ⟨fuel, h⟩
  | head hstep _ ih =>
    obtain ⟨more, hmore⟩ := ih
    exact ⟨more + 1, by rw [loop_next hstep]; exact hmore⟩

/-- A measure that every iteration lowers bounds the number of iterations. -/
theorem loop_of_measure (μ : σ → Nat)
    (hdown : ∀ a b, Visits body s a → body a = .inr b → μ b < μ a) (hfuel : μ s < fuel) :
    (loop body fuel s).isSome := by
  induction fuel generalizing s with
  | zero => omega
  | succ fuel ih =>
    cases hbody : body s with
    | inl out => simp [loop_done hbody]
    | inr next =>
      rw [loop_next hbody]
      have hlower : μ next < μ s := hdown s next Relation.ReflTransGen.refl hbody
      refine ih (fun a b hvisits hstep => ?_) (by omega)
      exact hdown a b (Relation.ReflTransGen.head hbody hvisits) hstep

theorem ends_of_measure (μ : σ → Nat)
    (hdown : ∀ a b, Visits body s a → body a = .inr b → μ b < μ a) : Ends body s :=
  ⟨μ s + 1, loop_of_measure μ hdown (Nat.lt_succ_self _)⟩

/-- An invariant of the iterations, and what it gives where the loop ends. -/
theorem loop_induction (I : σ → Prop) (Q : ρ → Prop)
    (hstep : ∀ a b, I a → body a = .inr b → I b)
    (hdone : ∀ a r, I a → body a = .inl r → Q r) (hs : I s) (h : loop body fuel s = some result) :
    Q result := by
  induction fuel generalizing s with
  | zero => cases h
  | succ fuel ih =>
    cases hbody : body s with
    | inl out =>
      rw [loop_done hbody] at h
      cases h
      exact hdone s _ hs hbody
    | inr next =>
      rw [loop_next hbody] at h
      exact ih (hstep s next hs hbody) h

end

/-! ## Loops that a measure bounds -/

section
variable {body : σ → ρ ⊕ σ} {μ : σ → Nat} {hdown : ∀ a b, body a = .inr b → μ b < μ a} {s s' : σ}

/-- The result of a loop whose iterations lower a measure. -/
def loopResult (body : σ → ρ ⊕ σ) (μ : σ → Nat) (hdown : ∀ a b, body a = .inr b → μ b < μ a)
    (s : σ) : ρ :=
  (loop body (μ s + 1) s).get
    (loop_of_measure μ (fun a b _ h => hdown a b h) (Nat.lt_succ_self (μ s)))

theorem loop_eq_loopResult : loop body (μ s + 1) s = some (loopResult body μ hdown s) :=
  (Option.some_get _).symm

theorem loopResult_done {result : ρ} (h : body s = .inl result) :
    loopResult body μ hdown s = result := by
  have hloop := @loop_eq_loopResult _ _ body μ hdown s
  rw [loop_done h] at hloop
  exact (Option.some.inj hloop).symm

theorem loopResult_next (h : body s = .inr s') :
    loopResult body μ hdown s = loopResult body μ hdown s' := by
  have hloop := @loop_eq_loopResult _ _ body μ hdown s
  rw [loop_next h] at hloop
  exact loop_unique hloop loop_eq_loopResult

theorem loopResult_of_loop {fuel : Nat} {result : ρ} (h : loop body fuel s = some result) :
    loopResult body μ hdown s = result :=
  loop_unique loop_eq_loopResult h

theorem loopResult_induction (I : σ → Prop) (Q : ρ → Prop)
    (hstep : ∀ a b, I a → body a = .inr b → I b)
    (hdone : ∀ a r, I a → body a = .inl r → Q r) (hs : I s) : Q (loopResult body μ hdown s) :=
  loop_induction I Q hstep hdone hs loop_eq_loopResult

end

end Qwen3Tts.Lib
