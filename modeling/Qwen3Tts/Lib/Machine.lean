import Mathlib.Logic.Basic

/-!
# Lib — runs of a machine whose steps are chosen by an action

A machine is a partial function `step : σ → α → Option σ`: the action resolves every choice
(which thread moves, what the environment answers), and `none` means that the action is not
possible. A run is a list of actions. `Along P` restricts a run to steps whose source state and
action satisfy `P`, so that a property of all runs, a property of the runs that avoid some
step, and a single concrete run are all stated with the same definitions.
-/

namespace Qwen3Tts.Lib

variable {σ α : Type*}

def run (step : σ → α → Option σ) : σ → List α → Option σ
  | s, [] => some s
  | s, a :: as => (step s a).bind (run step · as)

/-- Every step of the run satisfies `P`. -/
def Along (step : σ → α → Option σ) (P : σ → α → Prop) : σ → List α → Prop
  | _, [] => True
  | s, a :: as => P s a ∧ ∀ s', step s a = some s' → Along step P s' as

section
variable {step : σ → α → Option σ} {P Q : σ → α → Prop}

/-- A concrete run can be checked by evaluation. -/
instance Along.decidable [∀ s a, Decidable (P s a)] : ∀ s as, Decidable (Along step P s as)
  | _, [] => .isTrue trivial
  | s, a :: as =>
    have : DecidablePred (Along step P · as) := (Along.decidable · as)
    inferInstanceAs (Decidable (P s a ∧ ∀ s' ∈ step s a, Along step P s' as))

theorem run_cons {s s' : σ} {a : α} {as : List α} :
    run step s (a :: as) = some s' ↔ ∃ m, step s a = some m ∧ run step m as = some s' := by
  simp [run, Option.bind_eq_some_iff]

theorem run_append {s : σ} {as bs : List α} :
    run step s (as ++ bs) = (run step s as).bind (run step · bs) := by
  induction as generalizing s with
  | nil => simp [run]
  | cons a as ih =>
    cases h : step s a with
    | none => simp [run, h]
    | some m => simp [run, h, ih]

theorem Along.mono (h : ∀ s a, P s a → Q s a) {s : σ} {as : List α}
    (hP : Along step P s as) : Along step Q s as := by
  induction as generalizing s with
  | nil => trivial
  | cons a as ih => exact ⟨h s a hP.1, fun m hm => ih (hP.2 m hm)⟩

/-- Actions that satisfy `P` in any state. -/
theorem along_of_forall {as : List α} (h : ∀ a ∈ as, ∀ s, P s a) (s : σ) : Along step P s as := by
  induction as generalizing s with
  | nil => trivial
  | cons a as ih =>
    obtain ⟨ha, has⟩ := List.forall_mem_cons.mp h
    exact ⟨ha s, fun m _ => ih has m⟩

theorem along_trivial (h : ∀ s a, P s a) (s : σ) (as : List α) : Along step P s as :=
  along_of_forall (fun a _ s => h s a) s

/-- A run that goes through a list of actions goes through each part of it. -/
theorem run_split {s s' : σ} {as bs : List α} (h : run step s (as ++ bs) = some s') :
    ∃ m, run step s as = some m ∧ run step m bs = some s' := by
  rw [run_append] at h
  exact Option.bind_eq_some_iff.mp h

/-- `Along`, one position of the run at a time. -/
theorem along_iff {s : σ} {as : List α} : Along step P s as ↔
    ∀ before a after m, as = before ++ a :: after → run step s before = some m → P m a := by
  induction as generalizing s with
  | nil =>
    refine ⟨fun _ before a after m hsplit _ => ?_, fun _ => trivial⟩
    cases before <;> cases hsplit
  | cons x as ih =>
    constructor
    · rintro ⟨hx, hrest⟩ before a after m hsplit hm
      cases before with
      | nil =>
        cases hsplit
        cases hm
        exact hx
      | cons y before =>
        cases hsplit
        obtain ⟨s', hs', hbefore⟩ := run_cons.mp hm
        exact ih.mp (hrest s' hs') before a after m rfl hbefore
    · intro hall
      refine ⟨hall [] x as s rfl rfl, fun s' hs' => ih.mpr fun before a after m hsplit hm => ?_⟩
      exact hall (x :: before) a after m (by rw [hsplit]; rfl) (run_cons.mpr ⟨s', hs', hm⟩)

theorem Along.append {s : σ} {as bs : List α} (h : Along step P s (as ++ bs)) :
    Along step P s as ∧ ∀ m, run step s as = some m → Along step P m bs := by
  rw [along_iff] at h
  refine ⟨along_iff.mpr fun before a after m hsplit hm => ?_,
    fun m hm => along_iff.mpr fun before a after m' hsplit hm' => ?_⟩
  · exact h before a (after ++ bs) m (by rw [hsplit]; simp) hm
  · refine h (as ++ before) a after m' (by rw [hsplit]; simp) ?_
    rw [run_append, hm]
    exact hm'

/-- **The invariant rule.** What a step satisfying `P` preserves, a run along `P` preserves. -/
theorem invariant_of_step {I : σ → Prop}
    (hstep : ∀ s a s', I s → P s a → step s a = some s' → I s')
    {s s' : σ} {as : List α} (hI : I s) (hP : Along step P s as)
    (hrun : run step s as = some s') : I s' := by
  induction as generalizing s with
  | nil => cases hrun; exact hI
  | cons a as ih =>
    obtain ⟨m, hm, hrest⟩ := run_cons.mp hrun
    exact ih (hstep s a m hI hP.1 hm) (hP.2 m hm) hrest

/-- A reflexive and transitive relation that every step respects, in states where an invariant
holds, relates the two ends of a run. -/
theorem relation_of_step {I : σ → Prop} {R : σ → σ → Prop}
    (hrefl : ∀ s, R s s) (htrans : ∀ s m s', R s m → R m s' → R s s')
    (hinv : ∀ s a s', I s → step s a = some s' → I s')
    (hrel : ∀ s a s', I s → step s a = some s' → R s s')
    {s s' : σ} {as : List α} (hI : I s) (hrun : run step s as = some s') : R s s' := by
  induction as generalizing s with
  | nil => cases hrun; exact hrefl _
  | cons a as ih =>
    obtain ⟨m, hm, hrest⟩ := run_cons.mp hrun
    exact htrans s m s' (hrel s a m hI hm) (ih (hinv s a m hI hm) hrest)

end

end Qwen3Tts.Lib
