import Mathlib.Data.List.Induction

/-!
# Lib — properties of histories

A history is the list of the events of a run, oldest first. `Always P h` says that every event
of `h` satisfies `P` together with the history that precedes it: the shape of "no later event
contradicts an earlier one".
-/

namespace Qwen3Tts.Lib

variable {ε : Type*}

/-- Every event stands in the relation to what was before it. -/
def Always (P : List ε → ε → Prop) (h : List ε) : Prop :=
  ∀ before event after, h = before ++ event :: after → P before event

variable {P Q : List ε → ε → Prop}

theorem always_nil : Always P [] := by
  intro before event after h
  simp at h

/-- Extending a history adds one obligation: the new event against the old history. -/
theorem always_concat {h : List ε} {e : ε} : Always P (h ++ [e]) ↔ Always P h ∧ P h e := by
  constructor
  · intro hall
    refine ⟨fun before event after heq => ?_, hall h e [] rfl⟩
    exact hall before event (after ++ [e]) (by simp [heq])
  · rintro ⟨hall, hlast⟩ before event after heq
    rcases List.eq_nil_or_concat after with rfl | ⟨init, last, rfl⟩
    · obtain ⟨rfl, hevent⟩ := List.append_inj' heq rfl
      cases hevent
      exact hlast
    · rw [List.concat_eq_append, ← List.cons_append, ← List.append_assoc] at heq
      obtain ⟨hpre, -⟩ := List.append_inj' heq rfl
      exact hall before event init hpre

/-- Events that satisfy `P` after any history add no obligation. -/
theorem always_append {h h' : List ε} (hfree : ∀ e ∈ h', ∀ before, P before e) :
    Always P (h ++ h') ↔ Always P h := by
  induction h' using List.reverseRecOn with
  | nil => rw [List.append_nil]
  | append_singleton init e ih =>
    have hinit : ∀ e' ∈ init, ∀ before, P before e' :=
      fun e' he' => hfree e' (List.mem_append_left _ he')
    have hlast : P (h ++ init) e := hfree e (by simp) _
    rw [← List.append_assoc, always_concat, ih hinit]
    exact and_iff_left hlast

/-- What holds of a history holds of each of its prefixes. -/
theorem Always.of_prefix {h h' : List ε} (hpre : h' <+: h) (hP : Always P h) : Always P h' := by
  obtain ⟨rest, rfl⟩ := hpre
  intro before event after heq
  exact hP before event (after ++ rest) (by simp [heq])

theorem Always.mono (hPQ : ∀ h e, P h e → Q h e) {h : List ε} (hP : Always P h) : Always Q h :=
  fun before event after heq => hPQ _ _ (hP before event after heq)

end Qwen3Tts.Lib
