import Qwen3Tts.Talker.SamplerOrder
import Mathlib.Data.List.Perm.Lattice

/-!
# Talker — the candidates of the sampler

Whichever way the kernel takes, its candidate array begins with the first tokens of the order
(`candidates_eq`): the radix selection leaves a threshold that enough values reach
(`threshold_reached`), the compaction gathers the tokens that reach it in the order of the turns
(`compact_cells`), the padding ranks behind every token, and the bitonic sort does the rest. The
token that is drawn is then the same for every order of the turns.
-/

namespace Qwen3Tts.Talker.Sampler

open Lib Lib.Block Lib.Binary32 Lib.RadixSelect

/-! ## The radix selection -/

/-- The key of a token. -/
def key (launch : Launch) (t : Nat) : Nat := (orderKey (filled launch t).value).toNat

theorem key_lt (launch : Launch) (t : Nat) : key launch t < 2 ^ 32 :=
  (orderKey (filled launch t).value).toNat_lt

theorem histogramTurn_eq (launch : Launch) (found shift t : Nat) (hist : Nat → Nat) :
    histogramTurn launch found shift t hist
      = if 32 ≤ shift + 8 ∨ key launch t >>> (shift + 8) = found >>> (shift + 8) then
          Function.update hist (key launch t >>> shift &&& 0xff)
            (hist (key launch t >>> shift &&& 0xff) + 1)
        else hist :=
  rfl

/-- A histogram counts, in every order. -/
theorem histogram_round (launch : Launch) (found shift : Nat) (order : List Nat) (hist : Nat → Nat)
    (b : Nat) : round (histogramTurn launch found shift) order hist b
      = hist b + order.countP fun t =>
          decide (32 ≤ shift + 8 ∨ key launch t >>> (shift + 8) = found >>> (shift + 8))
            && (key launch t >>> shift &&& 0xff) == b := by
  induction order generalizing hist with
  | nil => rfl
  | cons t order ih =>
    rw [round_cons, ih, List.countP_cons, histogramTurn_eq]
    by_cases hmatch : 32 ≤ shift + 8 ∨ key launch t >>> (shift + 8) = found >>> (shift + 8)
    · rw [if_pos hmatch, decide_eq_true hmatch, Bool.true_and]
      by_cases hdigit : (key launch t >>> shift &&& 0xff) = b
      · rw [hdigit, Function.update_self, if_pos (beq_self_eq_true _)]
        omega
      · rw [Function.update_of_ne (Ne.symm hdigit), if_neg (by simpa using hdigit)]
        omega
    · rw [if_neg hmatch, decide_eq_false hmatch, Bool.false_and, if_neg Bool.false_ne_true]
      omega

/-- The keys of the vocabulary. -/
def keys (launch : Launch) : List Nat := (List.range launch.vocabulary).map (key launch)

/-- A pass of the kernel narrows the threshold by one digit. -/
theorem narrowed_radixPass {schedule : Schedule Round} {launch : Launch} {shift : Nat}
    {state : Nat × Nat} (h : Narrowed (keys launch) (selections launch) (shift + 8) state.1 state.2)
    (hstart : 32 ≤ shift + 8 → shift = 24 ∧ state.1 = 0) :
    Narrowed (keys launch) (selections launch) shift (radixPass schedule launch state shift).1
      (radixPass schedule launch state shift).2 := by
  obtain ⟨found, above⟩ := state
  -- after the round each bin counts the keys with the prefix and that digit
  have hhist : ∀ b, round (histogramTurn launch found shift)
      (schedule.order (.histogram shift) launch.vocabulary) (fun _ => 0) b
      = (keys launch).countP fun k =>
          k / 2 ^ (shift + 8) == found / 2 ^ (shift + 8) && k / 2 ^ shift % 2 ^ 8 == b := by
    intro b
    rw [histogram_round, Nat.zero_add, (schedule.perm _ _).countP_eq]
    unfold keys
    rw [List.countP_map]
    apply List.countP_congr
    intro t _
    have hkey := key_lt launch t
    have hdigit : key launch t >>> shift &&& 0xff = key launch t / 2 ^ shift % 2 ^ 8 := by
      rw [Nat.shiftRight_eq_div_pow]
      exact Nat.and_two_pow_sub_one_eq_mod _ 8
    have hmatch : (32 ≤ shift + 8 ∨ key launch t >>> (shift + 8) = found >>> (shift + 8))
        ↔ key launch t / 2 ^ (shift + 8) = found / 2 ^ (shift + 8) := by
      rw [Nat.shiftRight_eq_div_pow, Nat.shiftRight_eq_div_pow]
      -- in the first pass the prefix is empty
      by_cases hfirst : 32 ≤ shift + 8
      · obtain ⟨rfl, hzero⟩ := hstart hfirst
        dsimp only at hzero
        subst hzero
        refine iff_of_true (.inl (by decide)) ?_
        rw [Nat.div_eq_of_lt hkey]
        rfl
      · simp only [hfirst, false_or]
    simp only [Function.comp_apply, Bool.and_eq_true, decide_eq_true_iff, beq_iff_eq, hmatch, hdigit]
  exact @Narrowed.pass (keys launch) (selections launch) shift 8 found above _ h hhist

/-- **At least `selections` tokens reach the threshold.** -/
theorem threshold_reached (schedule : Schedule Round) {launch : Launch} (hpos : 0 < selections launch)
    (hle : selections launch ≤ launch.vocabulary) : selections launch
      ≤ (List.range launch.vocabulary).countP
          fun t => decide (threshold schedule launch ≤ key launch t) := by
  have hbound : ∀ k ∈ keys launch, k < 2 ^ (24 + 8) := by
    intro k hk
    obtain ⟨t, -, rfl⟩ := List.mem_map.mp hk
    exact key_lt launch t
  have hlength : selections launch ≤ (keys launch).length := by
    unfold keys
    rw [List.length_map, List.length_range]
    exact hle
  have hstart := narrowed_start hbound hpos hlength
  have hfirst := @narrowed_radixPass schedule launch 24 (0, 0) hstart fun _ => ⟨rfl, rfl⟩
  have hsecond := @narrowed_radixPass schedule launch 16 _ hfirst (by omega)
  have hthird := @narrowed_radixPass schedule launch 8 _ hsecond (by omega)
  have hfourth := @narrowed_radixPass schedule launch 0 _ hthird (by omega)
  have hreached := hfourth.threshold
  unfold keys at hreached
  rw [List.countP_map] at hreached
  exact hreached

/-! ## The compaction -/

/-- The survivor array holds the entries `w`, as far as it reaches. -/
structure Gathered (w : List Entry) (s : Compaction) : Prop where
  counter : s.counter = w.length
  fallback : s.fallback = decide (kCandidateCap < w.length)
  cells : ∀ i, i < kCandidateCap → i < w.length → w[i]? = some (s.cells i)

theorem compactTurn_eq (launch : Launch) (okeyT t : Nat) (s : Compaction) :
    compactTurn launch okeyT t s
      = if okeyT ≤ key launch t then
          if s.counter < kCandidateCap then
            { s with
              counter := s.counter + 1
              cells := Function.update s.cells s.counter (filled launch t) }
          else { s with counter := s.counter + 1, fallback := true }
        else s :=
  rfl

theorem Gathered.turn {launch : Launch} {okeyT t : Nat} {w : List Entry} {s : Compaction}
    (h : Gathered w s) (hreach : okeyT ≤ key launch t) :
    Gathered (w ++ [filled launch t]) (compactTurn launch okeyT t s) := by
  have hlength : (w ++ [filled launch t]).length = w.length + 1 := by simp
  rw [compactTurn_eq, if_pos hreach]
  -- there is room for the candidate, or the overflow is recorded
  by_cases hfits : s.counter < kCandidateCap
  · rw [if_pos hfits]
    have hcount := h.counter
    refine ⟨?_, ?_, fun i hi hw => ?_⟩
    · rw [hlength]
      exact congrArg (· + 1) hcount
    · rw [hlength]
      show s.fallback = _
      rw [h.fallback, decide_eq_decide]
      omega
    · show _ = some (Function.update s.cells s.counter (filled launch t) i)
      by_cases hlast : i = s.counter
      · rw [hlast, Function.update_self, hcount, List.getElem?_append_right (le_refl _)]
        simp
      · have hbefore : i < w.length := by omega
        rw [Function.update_of_ne hlast, List.getElem?_append_left hbefore]
        exact h.cells i hi hbefore
  · rw [if_neg hfits]
    have hcount := h.counter
    refine ⟨?_, ?_, fun i hi hw => ?_⟩
    · rw [hlength]
      exact congrArg (· + 1) hcount
    · rw [hlength]
      show true = _
      rw [decide_eq_true (by omega)]
    · have hbefore : i < w.length := by omega
      show _ = some (s.cells i)
      rw [List.getElem?_append_left hbefore]
      exact h.cells i hi hbefore

/-- The tokens that reach a threshold, in the order of the turns. -/
def reaching (launch : Launch) (okeyT : Nat) (order : List Nat) : List Entry :=
  (order.filter fun t => decide (okeyT ≤ key launch t)).map (filled launch)

theorem Gathered.round {launch : Launch} {okeyT : Nat} (order : List Nat) {w : List Entry}
    {s : Compaction} (h : Gathered w s) :
    Gathered (w ++ reaching launch okeyT order) (Block.round (compactTurn launch okeyT) order s) := by
  induction order generalizing w s with
  | nil =>
    show Gathered (w ++ []) s
    rw [List.append_nil]
    exact h
  | cons t order ih =>
    unfold reaching
    rw [round_cons]
    by_cases hreach : okeyT ≤ key launch t
    · rw [List.filter_cons, if_pos (decide_eq_true hreach), List.map_cons, List.append_cons]
      exact ih (h.turn hreach)
    · rw [List.filter_cons, if_neg (by simpa using hreach), compactTurn_eq, if_neg hreach]
      exact ih h

/-- **The compaction** gathers the tokens that reach the threshold. -/
theorem gathered_compact (schedule : Schedule Round) (stale : Nat → Entry) (launch : Launch) :
    Gathered (reaching launch (threshold schedule launch) (schedule.order .compact launch.vocabulary))
      (compact schedule stale launch) := by
  have hstart : Gathered [] ⟨0, stale, false⟩ :=
    ⟨rfl, rfl, fun i _ hi => absurd hi (Nat.not_lt_zero i)⟩
  exact hstart.round _

/-! ## The sort -/

/-- Doubling from one ends at a power of two. -/
theorem doubled_pow (bound e : Nat) : ∃ e', doubled bound (2 ^ e) = 2 ^ e' ∧ bound ≤ 2 ^ e' := by
  by_cases hlt : 2 ^ e < bound
  · have hstep := doubled_pow bound (e + 1)
    rw [doubled, if_pos ⟨Nat.two_pow_pos e, hlt⟩]
    rw [Nat.pow_succ, Nat.mul_comm] at hstep
    exact hstep
  · refine ⟨e, ?_, by omega⟩
    rw [doubled, if_neg (fun h => hlt h.2)]
  termination_by bound - 2 ^ e
  decreasing_by
    have hpos := Nat.two_pow_pos e
    rw [Nat.pow_succ]
    omega

/-- The sorted array as a list. -/
def sortedList (schedule : Schedule Round) (m : Nat) (a : Nat → Entry) : List Entry :=
  (List.range m).map (bitonicSortShared schedule m a)

theorem sortedList_spec {schedule : Schedule Round} {e : Nat} {a : Nat → Entry}
    (ha : ∀ p < 2 ^ e, Number (a p)) :
    (sortedList schedule (2 ^ e) a).Perm ((List.range (2 ^ e)).map a)
      ∧ (sortedList schedule (2 ^ e) a).Pairwise fun x y => rank x ≤ rank y := by
  have horder : ∀ k j, (schedule.order (.exchange k j) (2 ^ e)).Perm (List.range (2 ^ e)) :=
    fun k j => schedule.perm _ _
  constructor
  · exact @Bitonic.sort_perm Entry sortBefore (fun k j => schedule.order (.exchange k j) (2 ^ e)) e
      horder a
  · unfold sortedList
    rw [List.pairwise_map]
    apply List.pairwise_lt_range.imp_of_mem
    intro i i' hi hi' hlt
    exact @Bitonic.sort_sorted_of_valid Entry _ _ sortBefore rank
      (fun k j => schedule.order (.exchange k j) (2 ^ e)) e Number
      (fun x y hx hy => sortBefore_iff hx hy) horder a ha i i' hlt.le (List.mem_range.mp hi')

theorem getElem?_sortedList {schedule : Schedule Round} {m r : Nat} (a : Nat → Entry) (hr : r < m) :
    (sortedList schedule m a)[r]? = some (bitonicSortShared schedule m a r) := by
  unfold sortedList
  rw [List.getElem?_map, List.getElem?_range hr]
  rfl

/-! ## The candidates -/

/-- The tokens in order: the larger adjusted value first, and of two equal ones the smaller index. -/
structure Ranking (launch : Launch) (tokens : List Nat) : Prop where
  perm : tokens.Perm (List.range launch.vocabulary)
  order : tokens.Pairwise fun s t => adjustedLogit launch s > adjustedLogit launch t
    ∨ (adjustedLogit launch s == adjustedLogit launch t) = true ∧ s < t

section
variable {launch : Launch} (hpenalty : PositiveFinite (float launch.config.repetitionPenalty))
  (hlogits : ∀ t < launch.vocabulary, (bfloat162float (launch.logits t)).isNaN = false)
include hpenalty hlogits

omit hpenalty hlogits in
/-- Entries of tokens are in the order of their ranks exactly when the tokens are in order. -/
theorem Ranking.sorted {tokens : List Nat} (hnumber : ∀ t, Number (filled launch t))
    (h : Ranking launch tokens) :
    (tokens.map (filled launch)).Pairwise fun x y => rank x ≤ rank y := by
  rw [List.pairwise_map]
  apply h.order.imp_of_mem
  intro s t hs ht hst
  have hs' := List.mem_range.mp (h.perm.mem_iff.mp hs)
  have ht' := List.mem_range.mp (h.perm.mem_iff.mp ht)
  have hnumber_s := hnumber s
  have hnumber_t := hnumber t
  rw [filled_token hs'] at hnumber_s ⊢
  rw [filled_token ht'] at hnumber_t ⊢
  rw [rank_le_iff]
  rcases hst with hgt | ⟨heq, hlt⟩
  · exact .inl ((lt_iff hnumber_t hnumber_s).mp hgt)
  · exact .inr ⟨(beq_iff hnumber_s hnumber_t).mp heq, by show (s : Int) ≤ t; omega⟩

/-- The tokens have an order. -/
theorem exists_ranking : ∃ tokens, Ranking launch tokens := by
  obtain ⟨tokens, hperm, hsorted⟩ :=
    Ranked.exists_sorted (fun t => rank (filled launch t)) (List.range launch.vocabulary)
  refine ⟨tokens, hperm, ?_⟩
  have hnodup : tokens.Nodup := hperm.nodup_iff.mpr List.nodup_range
  apply (hsorted.and hnodup).imp_of_mem
  intro s t hs ht hst
  have hs' := List.mem_range.mp (hperm.mem_iff.mp hs)
  have ht' := List.mem_range.mp (hperm.mem_iff.mp ht)
  have hnumber_s := filled_number hpenalty hlogits s
  have hnumber_t := filled_number hpenalty hlogits t
  obtain ⟨hle, hne⟩ := hst
  rw [filled_token hs'] at hnumber_s hle
  rw [filled_token ht'] at hnumber_t hle
  rcases rank_le_iff.mp hle with hgt | ⟨heq, hindex⟩
  · exact .inl ((lt_iff hnumber_t hnumber_s).mpr hgt)
  · refine .inr ⟨(beq_iff hnumber_s hnumber_t).mpr heq, ?_⟩
    have hindex' : (s : Int) ≤ t := hindex
    omega

omit hpenalty hlogits in
/-- An entry of padding. -/
def Padding (launch : Launch) (x : Entry) : Prop :=
  x.value = kNegInf ∧ (launch.vocabulary : Int) ≤ x.index

/-- **A sorted array of chosen tokens and padding begins as the ranking does**, when the chosen
tokens rank before the rest. -/
theorem sorted_front {schedule : Schedule Round} {e : Nat} {a : Nat → Entry}
    (ha : ∀ p < 2 ^ e, Number (a p)) {chosen rest : List Nat} {pad : List Entry}
    (hperm : ((List.range (2 ^ e)).map a).Perm (chosen.map (filled launch) ++ pad))
    (hsplit : (List.range launch.vocabulary).Perm (chosen ++ rest))
    (hpad : ∀ x ∈ pad, Padding launch x)
    (hrest : ∀ s ∈ chosen, ∀ t ∈ rest, rank (filled launch s) ≤ rank (filled launch t))
    {tokens : List Nat} (hranking : Ranking launch tokens) {r : Nat} (hr : r < chosen.length) :
    (tokens.map (filled launch))[r]? = some (bitonicSortShared schedule (2 ^ e) a r) := by
  have hnumber := @filled_number launch hpenalty hlogits
  obtain ⟨hsortedPerm, hsorted⟩ := @sortedList_spec schedule e a ha
  have hlisted := hsortedPerm.trans hperm
  have hchosen : ∀ s ∈ chosen, s < launch.vocabulary := fun s hs =>
    List.mem_range.mp (hsplit.mem_iff.mpr (List.mem_append_left rest hs))
  have htokens : (tokens.map (filled launch)).Perm
      (chosen.map (filled launch) ++ rest.map (filled launch)) := by
    rw [← List.map_append]
    exact (hranking.perm.trans hsplit).map _
  have hbefore : ∀ x ∈ chosen.map (filled launch), ∀ y ∈ pad, rank x ≤ rank y := by
    intro x hx y hy
    obtain ⟨s, hs, rfl⟩ := List.mem_map.mp hx
    obtain ⟨hvalue, hindex⟩ := hpad y hy
    have hbottom := level_kNegInf_le (hnumber s)
    have hlt := hchosen s hs
    rw [rank_le_iff, hvalue, filled_index hlt]
    omega
  have hbefore' : ∀ x ∈ chosen.map (filled launch), ∀ y ∈ rest.map (filled launch),
      rank x ≤ rank y := by
    intro x hx y hy
    obtain ⟨s, hs, rfl⟩ := List.mem_map.mp hx
    obtain ⟨t, ht, rfl⟩ := List.mem_map.mp hy
    exact hrest s hs t ht
  -- the index tells the entries of the two lists apart
  have hinj : ∀ x ∈ sortedList schedule (2 ^ e) a, ∀ y ∈ tokens.map (filled launch),
      rank x = rank y → x = y := by
    intro x hx y hy hrank
    obtain ⟨t, ht, rfl⟩ := List.mem_map.mp hy
    have ht' := List.mem_range.mp (hranking.perm.mem_iff.mp ht)
    have hindex := index_of_rank hrank
    rw [filled_index ht'] at hindex
    rcases List.mem_append.mp (hlisted.mem_iff.mp hx) with hx' | hx'
    · obtain ⟨s, hs, rfl⟩ := List.mem_map.mp hx'
      rw [filled_index (hchosen s hs)] at hindex
      rw [Int.ofNat_inj.mp hindex]
    · have hbound := (hpad x hx').2
      omega
  have htake := Ranked.take_eq_take hsorted (hranking.sorted hnumber) hlisted htokens hbefore
    hbefore' hinj
  rw [List.length_map] at htake
  have hlength := hperm.length_eq
  rw [List.length_map, List.length_range, List.length_append, List.length_map] at hlength
  rw [← getElem?_sortedList a (show r < 2 ^ e by omega), ← List.getElem?_take_of_lt hr, ← htake,
    List.getElem?_take_of_lt hr]

/-- The sort of the whole padded vocabulary. -/
theorem full_prefix (schedule : Schedule Round) {tokens : List Nat} (hranking : Ranking launch tokens)
    {r : Nat} (hr : r < launch.vocabulary) : (tokens.map (filled launch))[r]?
      = some (bitonicSortShared schedule (doubled launch.vocabulary 1) (filled launch) r) := by
  obtain ⟨e, hpow, hle⟩ := doubled_pow launch.vocabulary 0
  change doubled launch.vocabulary 1 = 2 ^ e at hpow
  obtain ⟨d, hd⟩ := Nat.exists_eq_add_of_le hle
  rw [hpow]
  apply @sorted_front launch hpenalty hlogits schedule e (filled launch)
    (fun p _ => filled_number hpenalty hlogits p) (List.range launch.vocabulary) []
    ((List.range d).map fun i => filled launch (launch.vocabulary + i)) _ _ _ _ tokens hranking r
    (by rw [List.length_range]; exact hr)
  · rw [hd, List.range_add, List.map_append, List.map_map]
    rfl
  · rw [List.append_nil]
  · intro x hx
    obtain ⟨i, -, rfl⟩ := List.mem_map.mp hx
    unfold filled Padding
    rw [if_neg (by omega)]
    exact ⟨rfl, by show (launch.vocabulary : Int) ≤ (launch.vocabulary + (launch.vocabulary + i) : Nat); omega⟩
  · intro s _ t ht
    exact absurd ht List.not_mem_nil

/-- The sort of the survivors. -/
theorem survivors_prefix (schedule : Schedule Round) (stale : Nat → Entry)
    (hfits : (compact schedule stale launch).fallback = false) {tokens : List Nat}
    (hranking : Ranking launch tokens) {r : Nat}
    (hr : r < ((List.range launch.vocabulary).countP
      fun t => decide (threshold schedule launch ≤ key launch t))) :
    (tokens.map (filled launch))[r]?
      = some (survivors schedule launch (compact schedule stale launch) r) := by
  have hnumber := @filled_number launch hpenalty hlogits
  have hgathered := gathered_compact schedule stale launch
  generalize compact schedule stale launch = s at hfits hgathered ⊢
  obtain ⟨hcounter, hfallback, hcells⟩ := hgathered
  rw [hfits] at hfallback
  have hsmall := of_decide_eq_false hfallback.symm
  obtain ⟨e, hpow, hle⟩ := doubled_pow s.counter 0
  change doubled s.counter 1 = 2 ^ e at hpow
  obtain ⟨d, hd⟩ := Nat.exists_eq_add_of_le hle
  have horder := schedule.perm .compact launch.vocabulary
  generalize schedule.order .compact launch.vocabulary = order at horder hcounter hsmall hcells
  generalize threshold schedule launch = okeyT at hr hcounter hsmall hcells
  -- the cells below the counter hold the tokens that reach the threshold
  have hlisted : (List.range s.counter).map s.cells = reaching launch okeyT order := by
    apply List.ext_getElem?
    intro i
    rcases Nat.lt_or_ge i s.counter with hi | hi
    · rw [List.getElem?_map, List.getElem?_range hi, hcells i (by omega) (by omega)]
      rfl
    · rw [List.getElem?_eq_none (by simpa using hi), List.getElem?_eq_none (by omega)]
  unfold survivors
  rw [hpow]
  apply @sorted_front launch hpenalty hlogits schedule e
    (fun i => if s.counter ≤ i ∧ i < 2 ^ e then ⟨kNegInf, (launch.vocabulary + i : Nat)⟩ else s.cells i)
    _ (order.filter fun t => decide (okeyT ≤ key launch t))
    ((List.range launch.vocabulary).filter fun t => !decide (okeyT ≤ key launch t))
    ((List.range d).map fun i => ⟨kNegInf, (launch.vocabulary + (s.counter + i) : Nat)⟩)
    _ _ _ _ tokens hranking r
  · rw [← List.countP_eq_length_filter, horder.countP_eq]
    exact hr
  · intro p hp
    rcases Nat.lt_or_ge p s.counter with hlow | hhigh
    · have hmem : s.cells p ∈ reaching launch okeyT order :=
        List.mem_of_getElem? (hcells p (by omega) (by omega))
      obtain ⟨t, -, ht⟩ := List.mem_map.mp hmem
      rw [if_neg (by omega), ← ht]
      exact hnumber t
    · rw [if_pos ⟨hhigh, hp⟩]
      exact kNegInf_number
  · rw [hd, List.range_add, List.map_append, List.map_map]
    apply List.Perm.of_eq
    congr 1
    · refine Eq.trans (List.map_congr_left fun i hi => ?_) hlisted
      have hi' := List.mem_range.mp hi
      rw [if_neg (by omega)]
    · apply List.map_congr_left
      intro i hi
      have hi' := List.mem_range.mp hi
      show (if s.counter ≤ s.counter + i ∧ s.counter + i < s.counter + d then _ else _) = _
      rw [if_pos (by omega)]
  · have hsame := horder.filter fun t => decide (okeyT ≤ key launch t)
    refine (List.filter_append_perm _ _).symm.trans (hsame.symm.append_right _)
  · intro x hx
    obtain ⟨i, -, rfl⟩ := List.mem_map.mp hx
    exact ⟨rfl, by show (launch.vocabulary : Int) ≤ (launch.vocabulary + (s.counter + i) : Nat); omega⟩
  · intro u hu t ht
    have hu' := of_decide_eq_true (List.mem_filter.mp hu).2
    have ht' := (List.mem_filter.mp ht).2
    rw [Bool.not_eq_true', decide_eq_false_iff_not] at ht'
    have hlevel : level (filled launch t).value < level (filled launch u).value := by
      have hkeys : key launch t < key launch u := by omega
      exact not_le.mp (mt orderKey_le_iff.mpr (not_le.mpr hkeys))
    exact rank_le_iff.mpr (.inl hlevel)

/-- **The candidate array begins with the tokens in order**, whichever way the kernel takes. -/
theorem candidates_eq (schedule : Schedule Round) (stale : Nat → Entry)
    (hpos : 0 < selections launch) (hle : selections launch ≤ launch.vocabulary) {tokens : List Nat}
    (hranking : Ranking launch tokens) {r : Nat} (hr : r < selections launch) :
    (tokens.map (filled launch))[r]? = some (candidates schedule stale launch r) := by
  have hreached := threshold_reached schedule hpos hle
  unfold candidates
  dsimp only
  split
  · exact full_prefix hpenalty hlogits schedule hranking (by omega)
  · split
    · exact full_prefix hpenalty hlogits schedule hranking (by omega)
    · rename_i hfallback
      exact survivors_prefix hpenalty hlogits schedule stale (Bool.eq_false_iff.mpr hfallback) hranking
        (by omega)

end

end Qwen3Tts.Talker.Sampler
