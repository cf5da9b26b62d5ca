import Qwen3Tts.Talker.SamplerCandidates

/-!
# Talker — the sampled token

The draws read the candidates below `selections` and nothing else of the candidate array
(`drawCandidate_congr`), and each takes one random number. So the token does not depend on the order
of the turns, and without sampling it is the first token of the order
(`sampleLogits_ordered`).
-/

namespace Qwen3Tts.Talker.Sampler

open Lib.Block Lib.Binary32

/-! ## The draws -/

/-- The sum reads only the weights it counts. -/
theorem sum_congr {weights weights' : Nat → Float} {count : Nat}
    (h : ∀ r < count, weights r = weights' r) : sum weights count = sum weights' count := by
  unfold sum
  induction count with
  | zero => rfl
  | succ count ih =>
    rw [List.range_succ, List.foldl_append, List.foldl_append, ih fun r hr => h r (by omega)]
    show _ + weights count = _ + weights' count
    rw [h count (Nat.lt_succ_self count)]

/-- So does the search for the target. -/
theorem firstReaching_congr {weights weights' : Nat → Float} {target : Float} {left r : Nat}
    {cumulative : Float} (h : ∀ i, r ≤ i → i < r + left → weights i = weights' i) :
    firstReaching weights target left r cumulative
      = firstReaching weights' target left r cumulative := by
  induction left generalizing r cumulative with
  | zero => rfl
  | succ left ih =>
    have hrest := fun cumulative => @ih (r + 1) cumulative fun i hi hi' => h i (by omega) (by omega)
    unfold firstReaching
    rw [h r (le_refl r) (by omega)]
    dsimp only
    rw [hrest]

/-- The search does not go further than the indices it is given. -/
theorem firstReaching_lt {weights : Nat → Float} {target : Float} {left r i : Nat}
    {cumulative : Float} (h : firstReaching weights target left r cumulative = some i) :
    i < r + left := by
  induction left generalizing r cumulative with
  | zero => cases h
  | succ left ih =>
    unfold firstReaching at h
    dsimp only at h
    split at h
    · cases h
      omega
    · have hlater := ih h
      omega

/-- So does the count of what is kept. -/
theorem retainedCount_congr {weights weights' : Nat → Float} {topP : Float} {selections : Nat}
    (h : ∀ r < selections, weights r = weights' r) :
    retainedCount weights topP selections = retainedCount weights' topP selections := by
  unfold retainedCount
  dsimp only
  rw [sum_congr h, @firstReaching_congr _ (fun r => weights' r / sum weights' selections) topP
    selections 0 0 fun i _ hi => by rw [h i (by omega)]]

/-- At least one candidate is retained, and no more than there are. -/
theorem retainedCount_bounds {weights : Nat → Float} {topP : Float} {selections : Nat}
    (hpos : 0 < selections) : 0 < retainedCount weights topP selections
      ∧ retainedCount weights topP selections ≤ selections := by
  unfold retainedCount
  dsimp only
  split
  · rename_i r hr
    have hlt := firstReaching_lt hr
    omega
  · omega

/-- **The tail reads the candidates below `selections` only.** -/
theorem drawCandidate_congr (exp : Float → Float) {launch : Launch} {s s' : Nat → Entry}
    (hpos : 0 < selections launch) (h : ∀ r < selections launch, s r = s' r) (state : UInt64) :
    drawCandidate exp launch s state = drawCandidate exp launch s' state := by
  -- the weights depend on the entries through the first of them and their own
  have hweights : ∀ r < selections launch,
      candidateWeight exp launch s r = candidateWeight exp launch s' r := by
    intro r hr
    unfold candidateWeight
    rw [h r hr, h 0 hpos]
  unfold drawCandidate
  dsimp only
  rw [retainedCount_congr hweights]
  obtain ⟨hretained, hbound⟩ := @retainedCount_bounds (candidateWeight exp launch s')
    (float launch.config.topP).toFloat _ hpos
  generalize retainedCount (candidateWeight exp launch s') (float launch.config.topP).toFloat
    (selections launch) = retained at hretained hbound ⊢
  have hsame : ∀ r < retained, candidateWeight exp launch s r = candidateWeight exp launch s' r :=
    fun r hr => hweights r (by omega)
  rw [sum_congr hsame, @firstReaching_congr _ (candidateWeight exp launch s') _ retained 0 0
    fun i _ hi => hsame i (by omega)]
  split
  · rename_i r hr
    have hlt := firstReaching_lt hr
    rw [h r (by omega)]
  · rw [h (retained - 1) (by omega)]

/-- Each draw takes one random number. -/
theorem drawCandidate_state (exp : Float → Float) (launch : Launch) (s : Nat → Entry)
    (state : UInt64) : (drawCandidate exp launch s state).randomState = (nextRandom state).2 := by
  unfold drawCandidate
  dsimp only
  split <;> rfl

/-- The direct draw advances the generator once. -/
theorem drawDirect_state (exp : Float → Float) (launch : Launch) (best : Entry) (state : UInt64) :
    (drawDirect exp launch best state).randomState = (nextRandom state).2 := by
  unfold drawDirect
  dsimp only
  split <;> rfl

/-! ## The kernel -/

/-- At least one token is selected, and at most the vocabulary. -/
theorem selections_bounds {launch : Launch} (hvocabulary : 0 < launch.vocabulary)
    (hconfig : Accepted launch.config) :
    0 < selections launch ∧ selections launch ≤ launch.vocabulary := by
  have htopK := hconfig.spec.2
  unfold selections
  split
  · exact ⟨Nat.one_pos, hvocabulary⟩
  · split
    · exact ⟨hvocabulary, le_refl _⟩
    · rename_i hlimited
      have hlimit := htopK hlimited
      omega

section
variable {launch : Launch} (hpenalty : PositiveFinite (float launch.config.repetitionPenalty))
  (hlogits : ∀ t < launch.vocabulary, (bfloat162float (launch.logits t)).isNaN = false)
include hpenalty hlogits

/-- The argmax is the head of the ranking. -/
theorem argmax_eq (hvocabulary : 0 < launch.vocabulary) (schedule : Schedule Round)
    {tokens : List Nat} (hranking : Ranking launch tokens) :
    ∃ t, tokens.head? = some t ∧ argmax schedule launch = filled launch t := by
  obtain ⟨t, ht, hargmax, hfirst⟩ := argmax_first hpenalty hlogits hvocabulary schedule
  have hsorted := hranking.sorted (filled_number hpenalty hlogits)
  have hmem := hranking.perm.mem_iff.mpr (List.mem_range.mpr ht)
  cases tokens with
  | nil => cases hmem
  | cons head tokens =>
    refine ⟨head, rfl, ?_⟩
    have hhead := List.mem_range.mp (hranking.perm.mem_iff.mp List.mem_cons_self)
    rw [hargmax]
    -- nothing ranks before the head, and nothing before the argmax
    have hle : rank (filled launch head) ≤ rank (filled launch t) := by
      rcases List.mem_cons.mp hmem with rfl | hmem
      · exact le_refl _
      · rw [List.map_cons] at hsorted
        exact (List.pairwise_cons.mp hsorted).1 _ (List.mem_map_of_mem hmem)
    have hindex := index_of_rank (le_antisymm (hfirst head hhead) hle)
    rw [filled_index ht, filled_index hhead] at hindex
    rw [Int.ofNat_inj.mp hindex]

end

/-- **The sampler selects in the sequential order**, whatever the order of its turns. For logits
without a NaN and an accepted configuration, the tokens have a ranking by adjusted value and index,
and the candidates are its first tokens, the greedy token is its head, the token that is drawn does
not depend on the order of the turns or on what shared memory held before, and the random state
advances by one draw, or by none. -/
theorem sampleLogits_ordered (exp : Float → Float) {launch : Launch}
    (hvocabulary : 0 < launch.vocabulary)
    (hlogits : ∀ t < launch.vocabulary, (bfloat162float (launch.logits t)).isNaN = false)
    (hconfig : Accepted launch.config) :
    ∃ tokens, Ranking launch tokens ∧ ∀ schedule stale state,
      (∀ r < selections launch, ∃ t < launch.vocabulary, tokens[r]? = some t
          ∧ candidates schedule stale launch r = ⟨adjustedLogit launch t, t⟩)
        ∧ (launch.config.doSample = 0 → ∃ t, tokens.head? = some t
          ∧ (sampleLogits exp schedule stale launch state).selectedToken = t)
        ∧ (∀ schedule' stale', (sampleLogits exp schedule' stale' launch state).selectedToken
          = (sampleLogits exp schedule stale launch state).selectedToken)
        ∧ (sampleLogits exp schedule stale launch state).randomState
          = if launch.config.doSample = 0 then state else (nextRandom state).2 := by
  have hpenalty := hconfig.spec.1
  obtain ⟨hpos, hle⟩ := selections_bounds hvocabulary hconfig
  obtain ⟨tokens, hranking⟩ := exists_ranking hpenalty hlogits
  have hcandidates := fun schedule stale r (hr : r < selections launch) =>
    candidates_eq hpenalty hlogits schedule stale hpos hle hranking hr
  refine ⟨tokens, hranking, fun schedule stale state => ⟨fun r hr => ?_, fun hgreedy => ?_,
    fun schedule' stale' => ?_, ?_⟩⟩
  · have hcandidate := hcandidates schedule stale r hr
    rw [List.getElem?_map, Option.map_eq_some_iff] at hcandidate
    obtain ⟨t, htoken, hentry⟩ := hcandidate
    have ht := List.mem_range.mp (hranking.perm.mem_iff.mp (List.mem_of_getElem? htoken))
    refine ⟨t, ht, htoken, ?_⟩
    rw [← hentry, filled_token ht]
  · obtain ⟨t, hhead, hargmax⟩ := argmax_eq hpenalty hlogits hvocabulary schedule hranking
    have ht := List.mem_range.mp (hranking.perm.mem_iff.mp (List.mem_of_head? hhead))
    refine ⟨t, hhead, ?_⟩
    unfold sampleLogits
    rw [if_pos hgreedy, hargmax]
    exact filled_index ht
  · -- both runs see the same best entry and the same candidates
    obtain ⟨t, hhead, hargmax⟩ := argmax_eq hpenalty hlogits hvocabulary schedule hranking
    obtain ⟨t', hhead', hargmax'⟩ := argmax_eq hpenalty hlogits hvocabulary schedule' hranking
    have hbest : argmax schedule' launch = argmax schedule launch := by
      rw [hargmax, hargmax', Option.some.inj (hhead'.symm.trans hhead)]
    have hsame : ∀ r < selections launch,
        candidates schedule' stale' launch r = candidates schedule stale launch r := by
      intro r hr
      have hleft := hcandidates schedule' stale' r hr
      rw [hcandidates schedule stale r hr] at hleft
      exact (Option.some.inj hleft).symm
    unfold sampleLogits
    rw [hbest, drawCandidate_congr exp hpos hsame]
  · unfold sampleLogits
    split
    · rfl
    · split
      · exact drawDirect_state exp launch _ state
      · exact drawCandidate_state exp launch _ state

/-- Three tokens, two of which tie, for the default generation parameters. -/
def tiedLaunch : Launch where
  logits t := if t = 1 then 0x3f80 else 0x4000
  vocabulary := 3
  suppressTalkerReserved := true
  codecEosToken := 2150
  semanticHistory := [1]
  config := talkerSampling .default

theorem sampleLogits_ordered_tied : ∃ tokens, Ranking tiedLaunch tokens ∧
    ∀ schedule stale state,
      (∀ r < selections tiedLaunch, ∃ t < 3, tokens[r]? = some t
          ∧ candidates schedule stale tiedLaunch r = ⟨adjustedLogit tiedLaunch t, t⟩)
        ∧ (sampleLogits (fun x => x) schedule stale tiedLaunch state).randomState
          = (nextRandom state).2 := by
  obtain ⟨tokens, hranking, h⟩ := @sampleLogits_ordered (fun x => x) tiedLaunch (by decide)
    (by decide) ⟨.default, by decide, .inl rfl⟩
  refine ⟨tokens, hranking, fun schedule stale state => ⟨(h schedule stale state).1, ?_⟩⟩
  exact (h schedule stale state).2.2.2

end Qwen3Tts.Talker.Sampler
