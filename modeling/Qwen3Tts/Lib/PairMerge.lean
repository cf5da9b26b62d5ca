import Qwen3Tts.Lib.Loop
import Mathlib.Data.List.MinMax
import Mathlib.Data.List.Infix

/-!
# Lib — merging adjacent pairs by rank

A list of symbols is rewritten by merging adjacent pairs `l, r` into `merge l r`, always a pair of
the lowest rank that occurs. `mergePass` merges every occurrence of one pair, going from left to
right, `mergeFirst` only the leftmost one.

When a merge can only make pairs that rank behind it (`WellRanked`), the order of the merges of
one pair does not matter, and repeated passes compute what repeated single merges compute
(`loop_single_of_loop_pass`).
-/

namespace Qwen3Tts.Lib

variable {σ : Type*} [DecidableEq σ]

/-- `windows(2)` -/
def pairs (xs : List σ) : List (σ × σ) := xs.zip xs.tail

/-- Merges every occurrence of the pair from left to right. -/
def mergePass (merge : σ → σ → σ) (l r : σ) : List σ → List σ
  | [] => []
  | [x] => [x]
  | x :: y :: rest =>
    if x = l ∧ y = r then merge l r :: mergePass merge l r rest
    else x :: mergePass merge l r (y :: rest)

/-- Merges the first occurrence of the pair. -/
def mergeFirst (merge : σ → σ → σ) (l r : σ) : List σ → List σ
  | [] => []
  | [x] => [x]
  | x :: y :: rest =>
    if x = l ∧ y = r then merge l r :: rest else x :: mergeFirst merge l r (y :: rest)

/-- The ranked pairs of a list, from the left. -/
def rankedPairs (rank : σ × σ → Option Nat) (xs : List σ) : List (Nat × σ × σ) :=
  (pairs xs).filterMap fun p => (rank p).map (·, p)

/-- The first of the pairs with the lowest rank. -/
def bestPair (rank : σ × σ → Option Nat) (xs : List σ) : Option (Nat × σ × σ) :=
  (rankedPairs rank xs).argmin Prod.fst

/-- Merge a pair of the lowest rank with `merging`, and stop where no pair has a rank. -/
def mergeRound (rank : σ × σ → Option Nat) (merging : σ → σ → List σ → List σ) (xs : List σ) :
    List σ ⊕ List σ :=
  match bestPair rank xs with
  | none => .inl xs
  | some (_, l, r) => .inr (merging l r xs)

section
omit [DecidableEq σ]
variable {xs : List σ} {x y : σ}

@[simp] theorem pairs_nil : pairs ([] : List σ) = [] := rfl

@[simp] theorem pairs_singleton : pairs [x] = [] := rfl

@[simp] theorem pairs_cons_cons : pairs (x :: y :: xs) = (x, y) :: pairs (y :: xs) := rfl

/-- The pairs of a list cut at an element. -/
theorem pairs_append_cons (as : List σ) (x : σ) (xs : List σ) :
    pairs (as ++ x :: xs) = pairs (as ++ [x]) ++ pairs (x :: xs) := by
  induction as with
  | nil => simp
  | cons a as ih =>
    cases as with
    | nil => simp
    | cons b as => simpa using ih

/-- A pair occurs where its two symbols are neighbours. -/
theorem mem_pairs_iff {p : σ × σ} : p ∈ pairs xs ↔ ∃ as bs, xs = as ++ p.1 :: p.2 :: bs := by
  constructor
  · intro hp
    induction xs with
    | nil => cases hp
    | cons a rest ih =>
      cases rest with
      | nil => cases hp
      | cons b rest =>
        rcases List.mem_cons.mp hp with rfl | hp
        · exact ⟨[], rest, rfl⟩
        · obtain ⟨as, bs, hsplit⟩ := ih hp
          exact ⟨a :: as, bs, by rw [hsplit, List.cons_append]⟩
  · rintro ⟨as, bs, rfl⟩
    rw [pairs_append_cons]
    simp

/-- A part of a list has only pairs of the list. -/
theorem pairs_subset {ys : List σ} (h : ys <:+: xs) : pairs ys ⊆ pairs xs := by
  intro p hp
  obtain ⟨before, behind, rfl⟩ := h
  obtain ⟨as, bs, rfl⟩ := mem_pairs_iff.mp hp
  exact mem_pairs_iff.mpr ⟨before ++ as, bs ++ behind, by simp⟩

/-- A pair starts at the first symbol or lies behind it. -/
theorem mem_pairs_cons {p : σ × σ} (h : p ∈ pairs (x :: xs)) : p.1 = x ∨ p ∈ pairs xs := by
  cases xs with
  | nil => cases h
  | cons y xs =>
    rcases List.mem_cons.mp h with rfl | h
    · exact .inl rfl
    · exact .inr h

/-- A pair ends at the last symbol or lies before it. -/
theorem mem_pairs_append_singleton {p : σ × σ} (h : p ∈ pairs (xs ++ [x])) :
    p ∈ pairs xs ∨ p.2 = x := by
  induction xs with
  | nil => cases h
  | cons a xs ih =>
    cases xs with
    | nil =>
      have hp : p = (a, x) := by simpa using h
      exact .inr (by rw [hp])
    | cons b xs =>
      rcases List.mem_cons.mp h with rfl | h
      · exact .inl (by simp)
      · exact (ih h).imp_left fun hmem => List.mem_cons_of_mem _ hmem

end

section
variable {rank : σ × σ → Option Nat} {merge : σ → σ → σ} {xs : List σ} {k : Nat} {l r : σ}

omit [DecidableEq σ] in
theorem mem_rankedPairs {p : σ × σ} :
    (k, p) ∈ rankedPairs rank xs ↔ p ∈ pairs xs ∧ rank p = some k := by
  simp [rankedPairs]

omit [DecidableEq σ] in
/-- The pair that is chosen occurs, and no pair ranks in front of it. -/
theorem bestPair_spec (h : bestPair rank xs = some (k, l, r)) :
    (l, r) ∈ pairs xs ∧ rank (l, r) = some k ∧ ∀ p ∈ pairs xs, ∀ m, rank p = some m → k ≤ m := by
  have hmem := mem_rankedPairs.mp (List.argmin_mem h)
  refine ⟨hmem.1, hmem.2, fun p hp m hm => ?_⟩
  exact List.le_of_mem_argmin (mem_rankedPairs.mpr ⟨hp, hm⟩) h

omit [DecidableEq σ] in
/-- There is no best pair exactly when no pair has a rank. -/
theorem bestPair_eq_none : bestPair rank xs = none ↔ ∀ p ∈ pairs xs, rank p = none := by
  rw [bestPair, List.argmin_eq_none, rankedPairs, List.filterMap_eq_nil_iff]
  simp

/-- Every pass over a list in which the pair occurs makes it shorter. -/
theorem length_mergePass_le (merge : σ → σ → σ) (l r : σ) (xs : List σ) :
    (mergePass merge l r xs).length ≤ xs.length := by
  fun_induction mergePass merge l r xs with
  | case1 => simp
  | case2 x => simp
  | case3 x y rest hpair ih => simp only [List.length_cons]; omega
  | case4 x y rest hpair ih => simp only [List.length_cons] at ih ⊢; omega

/-- A pass that finds its pair makes the list shorter. -/
theorem length_mergePass_lt (h : (l, r) ∈ pairs xs) :
    (mergePass merge l r xs).length < xs.length := by
  fun_induction mergePass merge l r xs with
  | case1 => cases h
  | case2 x => cases h
  | case3 x y rest hpair ih =>
    have hle := length_mergePass_le merge l r rest
    simp only [List.length_cons]
    omega
  | case4 x y rest hpair ih =>
    have hrest : (l, r) ∈ pairs (y :: rest) := by
      rw [pairs_cons_cons, List.mem_cons] at h
      rcases h with heq | hrest
      · cases heq
        exact absurd ⟨rfl, rfl⟩ hpair
      · exact hrest
    have hlt := ih hrest
    simp only [List.length_cons] at hlt ⊢
    omega

end

/-! ## Passes and single merges -/

/-- Ranks are distinct, and a merge makes only pairs that rank behind it. -/
structure WellRanked (rank : σ × σ → Option Nat) (merge : σ → σ → σ) : Prop where
  injective : ∀ p q k, rank p = some k → rank q = some k → p = q
  left : ∀ l r x k m, rank (l, r) = some k → rank (merge l r, x) = some m → k < m
  right : ∀ l r x k m, rank (l, r) = some k → rank (x, merge l r) = some m → k < m

section
variable {rank : σ × σ → Option Nat} {merge : σ → σ → σ} {xs : List σ} {k : Nat} {l r : σ}

/-- The first occurrence is merged. -/
theorem mergeFirst_append (as rest : List σ) (h : (l, r) ∉ pairs (as ++ [l])) :
    mergeFirst merge l r (as ++ l :: r :: rest) = as ++ merge l r :: rest := by
  induction as with
  | nil => simp [mergeFirst]
  | cons a as ih =>
    cases as with
    | nil =>
      have hne : ¬ (a = l ∧ l = r) := by
        rintro ⟨rfl, rfl⟩
        simp at h
      have hfirst : mergeFirst merge l r (l :: r :: rest) = merge l r :: rest := ih (by simp)
      show mergeFirst merge l r (a :: l :: r :: rest) = _
      rw [mergeFirst, if_neg hne, hfirst]
      rfl
    | cons b as =>
      simp only [List.cons_append, pairs_cons_cons, List.mem_cons, not_or] at h
      have hne : ¬ (a = l ∧ b = r) := by
        rintro ⟨rfl, rfl⟩
        exact h.1 rfl
      have hrest := ih h.2
      simp only [List.cons_append] at hrest ⊢
      rw [mergeFirst, if_neg hne, hrest]

omit [DecidableEq σ] in
/-- A pair of the lowest possible rank is chosen wherever it occurs. -/
theorem bestPair_of_mem (hw : WellRanked rank merge) (hk : rank (l, r) = some k)
    (hmem : (l, r) ∈ pairs xs) (hleast : ∀ p ∈ pairs xs, ∀ m, rank p = some m → k ≤ m) :
    bestPair rank xs = some (k, l, r) := by
  cases hbest : bestPair rank xs with
  | none =>
    have hnone := bestPair_eq_none.mp hbest (l, r) hmem
    rw [hk] at hnone
    cases hnone
  | some best =>
    obtain ⟨m, a, b⟩ := best
    obtain ⟨hab, hm, hleast'⟩ := bestPair_spec hbest
    have heq : m = k := Nat.le_antisymm (hleast' (l, r) hmem k hk) (hleast (a, b) hab m hm)
    subst heq
    -- no other pair has this rank
    have hpair : (a, b) = (l, r) := hw.injective _ _ _ hm hk
    cases hpair
    rfl

omit [DecidableEq σ] in
/-- The pairs after a merge rank no lower than the merge: one that touches the new symbol ranks
behind it, and any other was there before. -/
theorem least_of_merge (hw : WellRanked rank merge) (hk : rank (l, r) = some k) {as rest : List σ}
    (hleast : ∀ p ∈ pairs (as ++ l :: r :: rest), ∀ m, rank p = some m → k ≤ m) :
    ∀ p ∈ pairs (as ++ merge l r :: rest), ∀ m, rank p = some m → k ≤ m := by
  intro p hp m hm
  have hinto : pairs as ⊆ pairs (as ++ l :: r :: rest) := pairs_subset ⟨[], l :: r :: rest, rfl⟩
  have hback : pairs rest ⊆ pairs (as ++ l :: r :: rest) :=
    pairs_subset ⟨as ++ [l, r], [], by simp⟩
  rw [pairs_append_cons] at hp
  -- a pair before the merge, behind it, or at one of its ends; those have a greater rank
  rcases List.mem_append.mp hp with hfront | hbehind
  · rcases mem_pairs_append_singleton hfront with hold | hnew
    · exact hleast p (hinto hold) m hm
    · have hrank : rank (p.1, merge l r) = some m := by rw [← hnew]; exact hm
      exact (hw.right l r p.1 k m hk hrank).le
  · rcases mem_pairs_cons hbehind with hnew | hold
    · have hrank : rank (merge l r, p.2) = some m := by rw [← hnew]; exact hm
      exact (hw.left l r p.2 k m hk hrank).le
    · exact hleast p (hback hold) m hm

omit [DecidableEq σ] in
/-- Nor does a merge make the pair that it merged. -/
theorem not_mem_pairs_merge (hw : WellRanked rank merge) (hk : rank (l, r) = some k) {as : List σ}
    (x : σ) (h : (l, r) ∉ pairs (as ++ [l])) : (l, r) ∉ pairs (as ++ [merge l r, x]) := by
  -- the merged pair has a greater rank than the pair itself
  have hleft : (l, r) ≠ (merge l r, x) := by
    intro heq
    have hrank : rank (merge l r, x) = some k := by rw [← heq]; exact hk
    exact Nat.lt_irrefl k (hw.left l r x k k hk hrank)
  intro hmem
  rw [pairs_append_cons] at hmem
  rcases List.mem_append.mp hmem with hfront | hbehind
  · rcases mem_pairs_append_singleton hfront with hold | hnew
    · exact h (pairs_subset ⟨[], [l], rfl⟩ hold)
    · have hr : r = merge l r := hnew
      have hrank : rank (l, merge l r) = some k := by rw [← hr]; exact hk
      exact Nat.lt_irrefl k (hw.right l r l k k hk hrank)
  · simp only [pairs_cons_cons, pairs_singleton, List.mem_singleton] at hbehind
    exact hleft hbehind

/-- While the pair has the lowest rank, single merges get to the list that one pass makes of the
part `rest`, in front of which the pair does not occur any more. -/
theorem visits_mergePass (hw : WellRanked rank merge) (hk : rank (l, r) = some k) (rest as : List σ)
    (hleast : ∀ p ∈ pairs (as ++ rest), ∀ m, rank p = some m → k ≤ m)
    (hnone : (l, r) ∉ pairs (as ++ rest.take 1)) :
    Visits (mergeRound rank (mergeFirst merge)) (as ++ rest) (as ++ mergePass merge l r rest) := by
  fun_induction mergePass merge l r rest generalizing as with
  | case1 => exact Relation.ReflTransGen.refl
  | case2 x => exact Relation.ReflTransGen.refl
  | case3 x y rest hpair ih =>
    -- an occurrence: the single merge comes first, and then the pass goes on behind it
    obtain ⟨rfl, rfl⟩ := hpair
    have hoccurs : (x, y) ∈ pairs (as ++ x :: y :: rest) := mem_pairs_iff.mpr ⟨as, rest, rfl⟩
    have hfirst : mergeRound rank (mergeFirst merge) (as ++ x :: y :: rest)
        = .inr (as ++ merge x y :: rest) := by
      rw [mergeRound, bestPair_of_mem hw hk hoccurs hleast]
      show Sum.inr (mergeFirst merge x y (as ++ x :: y :: rest)) = _
      rw [mergeFirst_append as rest hnone]
    -- the pair does not come back at the seam
    have hgone : (x, y) ∉ pairs ((as ++ [merge x y]) ++ rest.take 1) := by
      cases rest with
      | nil =>
        have hmerged := not_mem_pairs_merge hw hk x hnone
        intro hmem
        refine hmerged (pairs_subset ⟨[], [x], ?_⟩ hmem)
        simp
      | cons z rest => simpa using not_mem_pairs_merge hw hk z hnone
    have hleast' : ∀ p ∈ pairs ((as ++ [merge x y]) ++ rest), ∀ m, rank p = some m → k ≤ m := by
      simpa using least_of_merge hw hk hleast
    have hrest := ih (as ++ [merge x y]) hleast' hgone
    simp only [List.append_assoc, List.singleton_append] at hrest
    exact Relation.ReflTransGen.head hfirst hrest
  | case4 x y rest hpair ih =>
    have hgone : (l, r) ∉ pairs ((as ++ [x]) ++ (y :: rest).take 1) := by
      intro hmem
      have hsplit : pairs ((as ++ [x]) ++ (y :: rest).take 1) = pairs (as ++ [x]) ++ [(x, y)] := by
        simpa using pairs_append_cons as x [y]
      rw [hsplit, List.mem_append, List.mem_singleton] at hmem
      rcases hmem with hold | heq
      · exact hnone hold
      · cases heq
        exact hpair ⟨rfl, rfl⟩
    have hrest := ih (as ++ [x]) (by simpa using hleast) hgone
    simpa using hrest

/-- **Passes and single merges have the same result.** -/
theorem loop_single_of_loop_pass (hw : WellRanked rank merge) {fuel : Nat} {out : List σ}
    (h : loop (mergeRound rank (mergePass merge)) fuel xs = some out) :
    ∃ more, loop (mergeRound rank (mergeFirst merge)) more xs = some out := by
  induction fuel generalizing xs with
  | zero => cases h
  | succ fuel ih =>
    cases hbest : bestPair rank xs with
    | none =>
      have hdone : ∀ merging, mergeRound rank merging xs = .inl xs := by
        intro merging
        rw [mergeRound, hbest]
      rw [loop_done (hdone _)] at h
      exact ⟨1, by rw [loop_done (hdone _)]; exact h⟩
    | some best =>
      obtain ⟨k, l, r⟩ := best
      have hpass : mergeRound rank (mergePass merge) xs = .inr (mergePass merge l r xs) := by
        rw [mergeRound, hbest]
      rw [loop_next hpass] at h
      obtain ⟨more, hmore⟩ := ih h
      obtain ⟨_, hk, hleast⟩ := bestPair_spec hbest
      -- nothing stands in front of the first symbol, so the pass starts with no pair behind it
      have hnone : (l, r) ∉ pairs ([] ++ xs.take 1) := by
        cases xs with
        | nil => simp
        | cons x xs => simp
      exact loop_of_visits (visits_mergePass hw hk xs [] hleast hnone) hmore

/-- The loop of passes ends, since every pass merges the pair it was chosen for. -/
theorem loop_pass_isSome {fuel : Nat} (hfuel : xs.length < fuel) :
    (loop (mergeRound rank (mergePass merge)) fuel xs).isSome := by
  refine loop_of_measure List.length (fun a b _ hround => ?_) hfuel
  unfold mergeRound at hround
  cases hbest : bestPair rank a with
  | none =>
    rw [hbest] at hround
    cases hround
  | some best =>
    obtain ⟨k, l, r⟩ := best
    rw [hbest] at hround
    cases hround
    exact length_mergePass_lt (bestPair_spec hbest).1

omit [DecidableEq σ] in
/-- It ends where no adjacent pair has a rank. -/
theorem bestPair_of_loop {merging : σ → σ → List σ → List σ} {fuel : Nat} {out : List σ}
    (h : loop (mergeRound rank merging) fuel xs = some out) : ∀ p ∈ pairs out, rank p = none := by
  refine loop_induction (fun _ => True) (fun out => ∀ p ∈ pairs out, rank p = none)
    (fun _ _ _ _ => trivial) (fun a out _ hround => ?_) trivial h
  unfold mergeRound at hround
  cases hbest : bestPair rank a with
  | none =>
    rw [hbest] at hround
    cases hround
    exact bestPair_eq_none.mp hbest
  | some best =>
    rw [hbest] at hround
    cases hround

/-- What a merge leaves unchanged, the whole loop leaves unchanged. -/
theorem loop_pass_preserves {β : Type*} (value : List σ → β)
    (hmerge : ∀ l r xs, value (mergePass merge l r xs) = value xs) {fuel : Nat} {out : List σ}
    (h : loop (mergeRound rank (mergePass merge)) fuel xs = some out) : value out = value xs := by
  refine loop_induction (fun ys => value ys = value xs) (fun out => value out = value xs)
    (fun a b ha hround => ?_) (fun a out ha hround => ?_) rfl h
  · unfold mergeRound at hround
    cases hbest : bestPair rank a with
    | none =>
      rw [hbest] at hround
      cases hround
    | some best =>
      rw [hbest] at hround
      cases hround
      rw [hmerge]
      exact ha
  · unfold mergeRound at hround
    cases hbest : bestPair rank a with
    | none =>
      rw [hbest] at hround
      cases hround
      exact ha
    | some best =>
      rw [hbest] at hround
      cases hround

end

end Qwen3Tts.Lib
