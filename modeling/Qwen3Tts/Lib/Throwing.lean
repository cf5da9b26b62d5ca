import Mathlib.Logic.Basic

/-!
# Lib — programs that throw and keep what they wrote

`EStateM ε σ` is the monad of code that changes a state in place and may throw: what was written
before the throw stays written. Two ways to say what such a program does, with one rule for each
way of composing programs:

* `Triple P x Q E` — from a state in `P` the program returns in `Q` or throws in `E`;
* `Related R V x y` — from two states that `R` relates both return values that `V` relates, or both
  throw the same, in states that `R` relates.
-/

namespace Qwen3Tts.Lib

variable {ε σ α β : Type}

/-! ## Guards -/

/-- An early `throw`. -/
def throwIf (p : Prop) [Decidable p] (e : ε) : EStateM ε σ Unit := if p then throw e else pure ()

theorem throwIf_of_not {p : Prop} [Decidable p] {e : ε} (h : ¬ p) (s : σ) :
    (throwIf p e : EStateM ε σ Unit) s = .ok () s := by
  unfold throwIf
  rw [if_neg h]
  rfl

/-! ## Programs that return -/

/-- A program behind one that is known to return. -/
theorem bind_of_ok {x : EStateM ε σ α} {f : α → EStateM ε σ β} {s t : σ} {a : α}
    (h : x s = .ok a t) : (x >>= f) s = f a t := by
  show EStateM.bind x f s = f a t
  unfold EStateM.bind
  rw [h]

theorem get_apply (s : σ) : (get : EStateM ε σ σ) s = .ok s s := rfl

theorem get_bind {f : σ → EStateM ε σ β} {s : σ} : ((get : EStateM ε σ σ) >>= f) s = f s s := rfl

/-! ## Triples -/

/-- From a state in `P`, `x` returns in `Q` or throws in `E`. -/
def Triple (P : σ → Prop) (x : EStateM ε σ α) (Q : α → σ → Prop) (E : ε → σ → Prop) : Prop :=
  ∀ s, P s → match x s with
    | .ok a t => Q a t
    | .error e t => E e t

section
variable {P : σ → Prop} {Q : α → σ → Prop} {E : ε → σ → Prop}

/-- The postcondition of a run that returns. -/
theorem Triple.ok {x : EStateM ε σ α} (h : Triple P x Q E) {s t : σ} {a : α} (hs : P s)
    (hx : x s = .ok a t) : Q a t := by
  have hpost := h s hs
  rwa [hx] at hpost

/-- The postcondition of a run that throws. -/
theorem Triple.error {x : EStateM ε σ α} (h : Triple P x Q E) {s t : σ} {e : ε} (hs : P s)
    (hx : x s = .error e t) : E e t := by
  have hpost := h s hs
  rwa [hx] at hpost

theorem Triple.pure {a : α} (h : ∀ s, P s → Q a s) : Triple P (pure a : EStateM ε σ α) Q E :=
  fun s hs => h s hs

theorem Triple.throw {e : ε} (h : ∀ s, P s → E e s) : Triple P (throw e : EStateM ε σ α) Q E :=
  fun s hs => h s hs

theorem Triple.get {Q : σ → σ → Prop} (h : ∀ s, P s → Q s s) :
    Triple P (get : EStateM ε σ σ) Q E :=
  fun s hs => h s hs

theorem Triple.modify {f : σ → σ} {Q : Unit → σ → Prop} (h : ∀ s, P s → Q () (f s)) :
    Triple P (modify f : EStateM ε σ Unit) Q E :=
  fun s hs => h s hs

/-- One program behind the other; what either throws is thrown. -/
theorem Triple.bind {x : EStateM ε σ α} {f : α → EStateM ε σ β} {R : β → σ → Prop}
    (hx : Triple P x Q E) (hf : ∀ a, Triple (Q a) (f a) R E) : Triple P (x >>= f) R E := by
  intro s hs
  have hpost := hx s hs
  show match EStateM.bind x f s with
    | .ok b t => R b t
    | .error e t => E e t
  unfold EStateM.bind
  -- the first part returns and the second goes on, or it throws
  cases hr : x s with
  | ok a t =>
    rw [hr] at hpost
    exact hf a t hpost
  | error e t =>
    rw [hr] at hpost
    exact hpost

/-- The rule of consequence. -/
theorem Triple.weaken {x : EStateM ε σ α} {P' : σ → Prop} {Q' : α → σ → Prop} {E' : ε → σ → Prop}
    (h : Triple P x Q E) (hP : ∀ s, P' s → P s) (hQ : ∀ a s, Q a s → Q' a s)
    (hE : ∀ e s, E e s → E' e s) : Triple P' x Q' E' := by
  intro s hs
  have hpost := h s (hP s hs)
  split at hpost
  · exact hQ _ _ hpost
  · exact hE _ _ hpost

/-- A guard throws or leaves its negation behind. -/
theorem Triple.throwIf {p : Prop} [Decidable p] {e : ε} {Q : Unit → σ → Prop}
    (hyes : ∀ s, P s → p → E e s) (hno : ∀ s, P s → ¬ p → Q () s) :
    Triple P (throwIf p e) Q E := by
  unfold Lib.throwIf
  split
  · exact Triple.throw fun s hs => hyes s hs ‹p›
  · exact Triple.pure fun s hs => hno s hs ‹¬ p›

/-- A `Result` that does not look at the state. -/
theorem Triple.ofExcept {x : Except ε α} (hok : ∀ a, x = .ok a → ∀ s, P s → Q a s)
    (herror : ∀ e, x = .error e → ∀ s, P s → E e s) :
    Triple P (MonadExcept.ofExcept x : EStateM ε σ α) Q E := by
  cases x with
  | ok a => exact Triple.pure (hok a rfl)
  | error e => exact Triple.throw (herror e rfl)

/-- Where the state is known, so is what is read from it. -/
theorem Triple.get_at {s : σ} {f : σ → EStateM ε σ α} (h : Triple (· = s) (f s) Q E) :
    Triple (· = s) (MonadState.get >>= f) Q E := by
  intro t ht
  subst ht
  exact h t rfl

/-- **The loop rule.** The invariant speaks of the elements that are done. -/
theorem Triple.forM {xs : List α} {f : α → EStateM ε σ PUnit} {I : List α → σ → Prop}
    (h : ∀ done x rest, xs = done ++ x :: rest →
      Triple (I done) (f x) (fun _ => I (done ++ [x])) E) :
    Triple (I []) (xs.forM f) (fun _ => I xs) E := by
  -- by induction on the elements still to come, with those done in the invariant
  have hgeneral : ∀ rest done, xs = done ++ rest →
      Triple (I done) (rest.forM f) (fun _ => I xs) E := by
    intro rest
    induction rest with
    | nil =>
      intro done hsplit
      rw [List.append_nil] at hsplit
      subst hsplit
      exact Triple.pure fun _ hs => hs
    | cons x rest ih =>
      intro done hsplit
      refine Triple.bind (h done x rest hsplit) fun _ => ih (done ++ [x]) ?_
      rw [hsplit, List.append_assoc]
      rfl
  exact hgeneral xs [] rfl

/-- The rule of a traversal: the invariant also speaks of the values that were returned. -/
theorem Triple.mapM {xs : List α} {f : α → EStateM ε σ β} {I : List α → List β → σ → Prop}
    (h : ∀ done x rest ys, xs = done ++ x :: rest →
      Triple (I done ys) (f x) (fun y => I (done ++ [x]) (ys ++ [y])) E) :
    Triple (I [] []) (xs.mapM f) (I xs) E := by
  -- by induction on the elements still to come, with those done and their results in the invariant
  have hgeneral : ∀ (rest done : List α) ys, xs = done ++ rest →
      Triple (I done ys) (rest.mapM f) (fun zs => I xs (ys ++ zs)) E := by
    intro rest
    induction rest with
    | nil =>
      intro done ys hsplit
      rw [List.append_nil] at hsplit
      subst hsplit
      exact Triple.pure fun s hs => by rwa [List.reverse_nil, List.append_nil]
    | cons x rest ih =>
      intro done ys hsplit
      have hnext : xs = (done ++ [x]) ++ rest := by
        rw [hsplit, List.append_assoc]
        rfl
      rw [List.mapM_cons]
      refine Triple.bind (h done x rest ys hsplit) fun y =>
        Triple.bind (ih (done ++ [x]) (ys ++ [y]) hnext) fun zs => ?_
      refine Triple.pure fun s hs => ?_
      rwa [List.append_assoc] at hs
  exact hgeneral xs [] [] rfl

/-- A precondition with a witness. -/
theorem Triple.any {γ : Sort*} {P : γ → σ → Prop} {x : EStateM ε σ α}
    (h : ∀ w, Triple (P w) x Q E) : Triple (fun s => ∃ w, P w s) x Q E :=
  fun s ⟨w, hs⟩ => h w s hs

/-- What the precondition says about no state can be assumed. -/
theorem Triple.fact {x : EStateM ε σ α} {φ : Prop} (h : φ → Triple P x Q E) :
    Triple (fun s => P s ∧ φ) x Q E :=
  fun s hs => h hs.2 s hs.1

end

/-! ## Programs on related states -/

/-- From related states both return related values, or both throw the same, in related states. -/
def Related (R : σ → σ → Prop) (V : α → β → Prop) (x : EStateM ε σ α) (y : EStateM ε σ β) : Prop :=
  ∀ s t, R s t → match x s, y t with
    | .ok a s', .ok b t' => V a b ∧ R s' t'
    | .error e s', .error e' t' => e = e' ∧ R s' t'
    | _, _ => False

section
variable {R : σ → σ → Prop} {V : α → β → Prop}

theorem Related.pure {a : α} {b : β} (h : V a b) :
    Related R V (pure a : EStateM ε σ α) (pure b) :=
  fun _ _ hR => ⟨h, hR⟩

theorem Related.throw {e : ε} : Related R V (throw e : EStateM ε σ α) (throw e) :=
  fun _ _ hR => ⟨rfl, hR⟩

theorem Related.get : Related R R (get : EStateM ε σ σ) get :=
  fun _ _ hR => ⟨hR, hR⟩

theorem Related.modify {f g : σ → σ} (hf : ∀ s t, R s t → R (f s) (g t)) :
    Related R Eq (modify f : EStateM ε σ Unit) (modify g) :=
  fun s t hR => ⟨rfl, hf s t hR⟩

/-- Related programs in sequence are related. -/
theorem Related.bind {α' β' : Type} {W : α' → β' → Prop} {x : EStateM ε σ α} {y : EStateM ε σ β}
    {f : α → EStateM ε σ α'} {g : β → EStateM ε σ β'} (hx : Related R V x y)
    (hf : ∀ a b, V a b → Related R W (f a) (g b)) : Related R W (x >>= f) (y >>= g) := by
  intro s t hR
  have hpost := hx s t hR
  show match EStateM.bind x f s, EStateM.bind y g t with
    | .ok a s', .ok b t' => W a b ∧ R s' t'
    | .error e s', .error e' t' => e = e' ∧ R s' t'
    | _, _ => False
  unfold EStateM.bind
  -- both first parts return, or both throw the same
  cases hs : x s with
  | ok a s' =>
    cases ht : y t with
    | ok b t' =>
      rw [hs, ht] at hpost
      exact hf a b hpost.1 s' t' hpost.2
    | error e t' =>
      rw [hs, ht] at hpost
      exact hpost.elim
  | error e s' =>
    cases ht : y t with
    | ok b t' =>
      rw [hs, ht] at hpost
      exact hpost.elim
    | error e' t' =>
      rw [hs, ht] at hpost
      exact hpost

/-- Guards with the same condition are related. -/
theorem Related.throwIf {p q : Prop} [Decidable p] [Decidable q] (h : p ↔ q) {e : ε} :
    Related R Eq (Lib.throwIf p e : EStateM ε σ Unit) (Lib.throwIf q e) := by
  unfold Lib.throwIf
  by_cases hp : p
  · rw [if_pos hp, if_pos (h.mp hp)]
    exact Related.throw
  · rw [if_neg hp, if_neg fun hq => hp (h.mpr hq)]
    exact Related.pure rfl

/-- So are loops with related bodies. -/
theorem Related.forM {γ : Type} {xs : List γ} {f g : γ → EStateM ε σ PUnit}
    (h : ∀ x, Related R Eq (f x) (g x)) : Related R Eq (xs.forM f) (xs.forM g) := by
  induction xs with
  | nil => exact Related.pure rfl
  | cons x xs ih => exact Related.bind (h x) fun _ _ _ => ih

/-- So are maps with related bodies. -/
theorem Related.mapM {γ : Type} {xs : List γ} {f g : γ → EStateM ε σ α}
    (h : ∀ x, Related R Eq (f x) (g x)) : Related R Eq (xs.mapM f) (xs.mapM g) := by
  induction xs with
  | nil => exact Related.pure rfl
  | cons x xs ih =>
    rw [List.mapM_cons, List.mapM_cons]
    refine Related.bind (h x) fun a b hab => Related.bind ih fun as bs habs => ?_
    rw [hab, habs]
    exact Related.pure rfl

end

end Qwen3Tts.Lib
