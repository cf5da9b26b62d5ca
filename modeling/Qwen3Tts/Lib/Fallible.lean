import Mathlib.Data.List.Basic

/-!
# Lib — computations that may fail

Inversion rules for `Except`: a sequence succeeds when each of its steps does, a guard when its
test is false, a traversal when every element passes. With them a monadic definition is taken
apart by `obtain`, step by step, and never unfolded into nested matches.
-/

namespace Qwen3Tts.Lib

variable {ε : Type*} {α β : Type _}

/-- A sequence returns exactly when both parts do. -/
theorem bind_eq_ok {x : Except ε α} {f : α → Except ε β} {b : β} :
    x >>= f = .ok b ↔ ∃ a, x = .ok a ∧ f a = .ok b := by
  cases x with
  | error e => exact ⟨nofun, fun ⟨a, ha, _⟩ => by cases ha⟩
  | ok a => exact ⟨fun h => ⟨a, rfl, h⟩, fun ⟨a', ha', h⟩ => by cases ha'; exact h⟩

theorem ok_bind {a : α} {f : α → Except ε β} : (.ok a : Except ε α) >>= f = f a := rfl

theorem pure_eq_ok {a b : α} : (pure a : Except ε α) = .ok b ↔ a = b := Except.ok.injEq a b ▸ .rfl

/-- Mapping the error does not change a success. -/
theorem mapError_eq_ok {ε' : Type*} {x : Except ε α} {f : ε → ε'} {a : α} :
    x.mapError f = .ok a ↔ x = .ok a := by
  cases x with
  | error e => exact ⟨nofun, nofun⟩
  | ok b =>
    show Except.ok b = .ok a ↔ _
    rw [Except.ok.injEq, Except.ok.injEq]

/-- An early return of the error `e`. -/
def failIf (p : Prop) [Decidable p] (e : ε) : Except ε Unit := if p then .error e else .ok ()

/-- A guard returns exactly when its condition is false. -/
theorem failIf_eq_ok {p : Prop} [Decidable p] {e : ε} {u : Unit} :
    failIf p e = .ok u ↔ ¬ p := by
  unfold failIf
  split
  · exact ⟨nofun, fun h => absurd ‹p› h⟩
  · exact ⟨fun _ => ‹¬ p›, fun _ => rfl⟩

/-- An error that neither the first check of a sequence nor the rest of it returns. -/
theorem failIf_bind_ne {p : Prop} [Decidable p] {e e' : ε} {f : Unit → Except ε β}
    (h : ¬ p ∨ e ≠ e') (hf : f () ≠ .error e') : failIf p e >>= f ≠ .error e' := by
  unfold failIf
  split
  · rcases h with h | h
    · exact absurd ‹p› h
    · exact fun heq => h (Except.error.inj heq)
  · exact hf

/-- A result that depends on a test. -/
theorem ite_ok_eq_ok {p : Prop} [Decidable p] {e : ε} {a b : α} :
    (if p then .ok a else .error e : Except ε α) = .ok b ↔ p ∧ a = b := by
  split
  · rename_i h
    exact ⟨fun heq => ⟨h, Except.ok.inj heq⟩, fun heq => congrArg Except.ok heq.2⟩
  · rename_i h
    refine ⟨fun heq => ?_, fun heq => absurd heq.1 h⟩
    cases heq

/-- An early return written as a branch. -/
theorem ite_error_eq_ok {p : Prop} [Decidable p] {e : ε} {x : Except ε α} {a : α} :
    (if p then .error e else x) = .ok a ↔ ¬ p ∧ x = .ok a := by
  split
  · exact ⟨nofun, fun h => absurd ‹p› h.1⟩
  · exact ⟨fun h => ⟨‹¬ p›, h⟩, fun h => h.2⟩

/-- An error that neither the first branch nor the rest returns. -/
theorem ite_error_ne {p : Prop} [Decidable p] {e e' : ε} {x : Except ε α} (he : e ≠ e')
    (hx : x ≠ .error e') : (if p then .error e else x) ≠ .error e' := by
  split
  · exact fun h => he (Except.error.inj h)
  · exact hx

/-- A map that returns has a result for each element. -/
theorem mapM_length {f : α → Except ε β} {xs : List α} {ys : List β}
    (h : xs.mapM f = .ok ys) : ys.length = xs.length := by
  induction xs generalizing ys with
  | nil =>
    cases h
    rfl
  | cons x xs ih =>
    rw [List.mapM_cons] at h
    obtain ⟨y, -, h⟩ := bind_eq_ok.mp h
    obtain ⟨rest, hrest, h⟩ := bind_eq_ok.mp h
    cases h
    rw [List.length_cons, List.length_cons, ih hrest]

/-- A loop of checks succeeds when each of them does. -/
theorem forM_eq_ok {f : α → Except ε PUnit} {xs : List α} :
    xs.forM f = .ok ⟨⟩ ↔ ∀ x ∈ xs, f x = .ok ⟨⟩ := by
  induction xs with
  | nil => exact ⟨fun _ => nofun, fun _ => rfl⟩
  | cons x xs ih =>
    show (f x >>= fun _ => xs.forM f) = .ok ⟨⟩ ↔ _
    rw [bind_eq_ok, List.forall_mem_cons]
    exact ⟨fun ⟨_, hx, hxs⟩ => ⟨hx, ih.mp hxs⟩, fun ⟨hx, hxs⟩ => ⟨⟨⟩, hx, ih.mpr hxs⟩⟩

/-- A loop of checks fails in one of them. -/
theorem forM_eq_error {f : α → Except ε PUnit} {xs : List α} {e : ε}
    (h : xs.forM f = .error e) : ∃ x ∈ xs, f x = .error e := by
  induction xs with
  | nil => cases h
  | cons x xs ih =>
    replace h : (f x >>= fun _ => xs.forM f) = .error e := h
    cases hx : f x with
    | error e' =>
      rw [hx] at h
      cases h
      exact ⟨x, List.mem_cons_self, hx⟩
    | ok u =>
      rw [hx] at h
      obtain ⟨y, hy, hfy⟩ := ih h
      exact ⟨y, List.mem_cons_of_mem x hy, hfy⟩

/-! ## Loops that succeed -/

theorem mapM_eq_map {f : α → Except ε β} {g : α → β} {xs : List α} (h : ∀ x ∈ xs, f x = .ok (g x)) :
    xs.mapM f = .ok (xs.map g) := by
  induction xs with
  | nil => rfl
  | cons x xs ih =>
    obtain ⟨hx, hxs⟩ := List.forall_mem_cons.mp h
    rw [List.mapM_cons, hx, ih hxs]
    rfl

/-- A loop with an accumulator, where the invariant `I` counts the rounds. -/
theorem foldlM_eq_foldl {γ : Type _} {f : γ → α → Except ε γ} {g : γ → α → γ} {I : Nat → γ → Prop}
    {xs : List α} {c : γ} (hc : I 0 c)
    (h : ∀ i (hi : i < xs.length) c, I i c → f c xs[i] = .ok (g c xs[i]) ∧ I (i + 1) (g c xs[i])) :
    xs.foldlM f c = .ok (xs.foldl g c) ∧ I xs.length (xs.foldl g c) := by
  induction xs generalizing c I with
  | nil => exact ⟨rfl, hc⟩
  | cons x xs ih =>
    obtain ⟨hx, hnext⟩ := h 0 (Nat.zero_lt_succ _) c hc
    obtain ⟨hrest, hlast⟩ := @ih (fun i => I (i + 1)) (g c x) hnext fun i hi c hI =>
      h (i + 1) (Nat.succ_lt_succ hi) c hI
    refine ⟨?_, hlast⟩
    rw [List.foldlM_cons, show f c x = .ok (g c x) from hx]
    exact hrest

/-- The same where a round has no result known beforehand. -/
theorem foldlM_invariant {γ : Type _} {f : γ → α → Except ε γ} {I : Nat → γ → Prop} {xs : List α}
    {c : γ} (hc : I 0 c)
    (h : ∀ i (hi : i < xs.length) c, I i c → ∃ c', f c xs[i] = .ok c' ∧ I (i + 1) c') :
    ∃ c', xs.foldlM f c = .ok c' ∧ I xs.length c' := by
  induction xs generalizing c I with
  | nil => exact ⟨c, rfl, hc⟩
  | cons x xs ih =>
    obtain ⟨c', hx, hnext⟩ := h 0 (Nat.zero_lt_succ _) c hc
    obtain ⟨last, hrest, hlast⟩ := @ih (fun i => I (i + 1)) c' hnext fun i hi c hI =>
      h (i + 1) (Nat.succ_lt_succ hi) c hI
    refine ⟨last, ?_, hlast⟩
    rw [List.foldlM_cons, show f c x = .ok c' from hx]
    exact hrest

end Qwen3Tts.Lib
