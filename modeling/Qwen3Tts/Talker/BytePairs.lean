import Qwen3Tts.Talker.Tokenizer

/-!
# Talker — byte-pair encoding

The code merges all occurrences of the best pair in one pass. Under a rank order in which a
symbol is made before it is merged further (`WellFormed`), this is the usual one-at-a-time
procedure: `Lib.loop_single_of_loop_pass` at strings.

* `bytePairEncode_spec` — the symbols join to the token, no merge is left to do, and the
  reference procedure ends with the same symbols.
-/

namespace Qwen3Tts.Talker.Tokenizer

open Qwen3Tts.Lib

/-- Each merge whose left or right symbol is more than one character ranks behind every merge
that produces that symbol. -/
def WellFormed (ranks : MergeRanks) : Prop :=
  ∀ left right rank, ranks.get (left, right) = some rank →
    ∀ symbol, symbol = left ∨ symbol = right → 1 < symbol.length →
      ∀ l r k, ranks.get (l, r) = some k → l ++ r = symbol → k < rank

/-- The reference procedure: merge the leftmost occurrence of the lowest-ranked adjacent pair, as
long as there is one. -/
def referenceEncode (ranks : MergeRanks) (fuel : Nat) (token : Text) : Option (List Text) :=
  loop (mergeRound ranks.get (mergeFirst (· ++ ·))) fuel (token.map fun c => [c])

section
variable {ranks : MergeRanks} {pair pair' : Text × Text} {rank : Nat}

theorem MergeRanks.mem_of_get (h : ranks.get pair = some rank) : (pair, rank) ∈ ranks.entries :=
  mem_of_assoc h

/-- Every line of the file has a rank of its own. -/
theorem MergeRanks.get_injective (h : ranks.get pair = some rank)
    (h' : ranks.get pair' = some rank) : pair = pair' := by
  have hmem := MergeRanks.mem_of_get h
  have hmem' := MergeRanks.mem_of_get h'
  have hord := ranks.ordered
  generalize ranks.entries = entries at hmem hmem' hord
  induction entries with
  | nil => cases hmem
  | cons e entries ih =>
    rw [List.pairwise_cons] at hord
    rcases List.mem_cons.mp hmem with rfl | hold
    · rcases List.mem_cons.mp hmem' with heq | hold'
      · exact (Prod.ext_iff.mp heq).1.symm
      · exact absurd (hord.1 _ hold') (Nat.lt_irrefl _)
    · rcases List.mem_cons.mp hmem' with rfl | hold'
      · exact absurd (hord.1 _ hold) (Nat.lt_irrefl _)
      · exact ih hold hold' hord.2

/-- Two symbols make one of more than one character. -/
theorem MergeRanks.one_lt_length {l r : Text} (h : ranks.get (l, r) = some rank) :
    1 < (l ++ r).length := by
  obtain ⟨hl, hr⟩ := ranks.nonempty _ (MergeRanks.mem_of_get h)
  have hl' : 0 < l.length := List.length_pos_iff.mpr hl
  have hr' : 0 < r.length := List.length_pos_iff.mpr hr
  rw [List.length_append]
  omega

theorem WellFormed.wellRanked (h : WellFormed ranks) : WellRanked ranks.get (· ++ ·) where
  injective _ _ _ hp hq := MergeRanks.get_injective hp hq
  left l r x k m hk hm := h _ x m hm (l ++ r) (.inl rfl) (MergeRanks.one_lt_length hk) l r k hk rfl
  right l r x k m hk hm :=
    h x _ m hm (l ++ r) (.inr rfl) (MergeRanks.one_lt_length hk) l r k hk rfl

/-- The condition need only be checked on the entries. -/
theorem wellFormed_of_entries
    (h : ∀ e ∈ ranks.entries, ∀ e' ∈ ranks.entries,
      e'.1.1 ++ e'.1.2 = e.1.1 ∨ e'.1.1 ++ e'.1.2 = e.1.2 → e'.2 < e.2) : WellFormed ranks := by
  intro left right m hm symbol hsymbol _ l r k hk heq
  refine h _ (MergeRanks.mem_of_get hm) _ (MergeRanks.mem_of_get hk) ?_
  rw [heq]
  exact hsymbol

end

/-- A pass of merges keeps the characters. -/
theorem flatten_mergePass (l r : Text) (symbols : List Text) :
    (mergePass (· ++ ·) l r symbols).flatten = symbols.flatten := by
  fun_induction mergePass (fun a b : Text => a ++ b) l r symbols with
  | case1 => rfl
  | case2 x => rfl
  | case3 x y rest hpair ih =>
    obtain ⟨rfl, rfl⟩ := hpair
    simp [ih]
  | case4 x y rest hpair ih => simp [ih]

theorem flatten_singletons (token : Text) : (token.map fun c => [c]).flatten = token := by
  induction token with
  | nil => rfl
  | cons c token ih => simp [ih]

/-- What the function returns is what the loop ends with, also where it returns at once. -/
theorem loop_bytePairEncode (ranks : MergeRanks) (token : Text) :
    ∃ fuel, loop (mergeRound ranks.get (mergePass (· ++ ·))) fuel (token.map fun c => [c])
      = some (bytePairEncode ranks token) := by
  unfold bytePairEncode
  -- fewer than two symbols have no pair, so the loop ends at once
  by_cases hshort : (token.map fun c => [c]).length < 2
  · refine ⟨1, ?_⟩
    rw [if_pos hshort]
    apply loop_done
    have hpairs : pairs (token.map fun c => [c]) = [] := by
      cases token with
      | nil => rfl
      | cons c rest =>
        cases rest with
        | nil => rfl
        | cons d rest =>
          simp only [List.map_cons, List.length_cons] at hshort
          omega
    rw [mergeRound, bestPair_eq_none.mpr (by simp [hpairs])]
  · exact ⟨_, by rw [if_neg hshort, Option.some_get]⟩

/-- **The encoding is the reference's.** -/
theorem bytePairEncode_spec (ranks : MergeRanks) (h : WellFormed ranks) (token : Text) :
    (bytePairEncode ranks token).flatten = token ∧
    (∀ pair ∈ pairs (bytePairEncode ranks token), ranks.get pair = none) ∧
    ∃ fuel, referenceEncode ranks fuel token = some (bytePairEncode ranks token) := by
  obtain ⟨fuel, hloop⟩ := loop_bytePairEncode ranks token
  refine ⟨?_, bestPair_of_loop hloop, loop_single_of_loop_pass h.wellRanked hloop⟩
  have hvalue := loop_pass_preserves List.flatten flatten_mergePass hloop
  rw [hvalue, flatten_singletons]

/-- `a a`, then `aa a`: in a run of five the first pass merges two pairs and leaves one `a`. -/
def runRanks : MergeRanks where
  entries := [((['a', 'a'], ['a']), 1), ((['a'], ['a']), 0)]
  ordered := by decide
  nonempty := by decide

theorem bytePairEncode_run :
    bytePairEncode runRanks ['a', 'a', 'a', 'a', 'a'] = [['a', 'a'], ['a', 'a', 'a']] ∧
    (∀ pair ∈ pairs [['a', 'a'], ['a', 'a', 'a']], runRanks.get pair = none) ∧
    ∃ fuel, referenceEncode runRanks fuel ['a', 'a', 'a', 'a', 'a']
      = some [['a', 'a'], ['a', 'a', 'a']] := by
  have hspec := bytePairEncode_spec runRanks (wellFormed_of_entries (by decide))
    ['a', 'a', 'a', 'a', 'a']
  have hrun : bytePairEncode runRanks ['a', 'a', 'a', 'a', 'a'] = [['a', 'a'], ['a', 'a', 'a']] := by
    decide
  rw [hrun] at hspec
  exact ⟨hrun, hspec.2⟩

end Qwen3Tts.Talker.Tokenizer
