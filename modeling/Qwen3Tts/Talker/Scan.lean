import Qwen3Tts.Talker.BytePairs

/-!
# Talker — the scan for added tokens

`encode` cuts the normalised text at added tokens. Where it cuts is `Chosen`: the leftmost
occurrence of any added token, there the longest one, of these the smallest id.

* `encode_ends_iff` — the scan ends, and every iteration moves the cursor, unless an added token
  is empty: an empty token matches at the cursor, and the iteration that takes it does not move.
  Then only a text that longer tokens cover from end to end is ever finished.
-/

namespace Qwen3Tts.Talker.Tokenizer

open Qwen3Tts.Lib

/-! ## Searching -/

/-- The first place at which the token occurs. -/
theorem find_eq_some {token text : Text} {k : Nat} :
    find token text = some k ↔
      k ≤ text.length ∧ token <+: text.drop k ∧ ∀ j < k, ¬ token <+: text.drop j := by
  induction text generalizing k with
  | nil =>
    cases token with
    | nil =>
      simp only [find, List.length_nil, List.drop_nil]
      constructor
      · intro h
        cases h
        exact ⟨Nat.le_refl 0, List.prefix_rfl, fun j hj => by omega⟩
      · rintro ⟨hk, -⟩
        rw [show k = 0 by omega]
        rfl
    | cons c token => simp [find]
  | cons c rest ih =>
    unfold find
    -- it occurs at the head, or the search goes on behind it
    by_cases hhead : token.isPrefixOf (c :: rest)
    · have hstarts : token <+: c :: rest := List.isPrefixOf_iff_prefix.mp hhead
      rw [if_pos hhead]
      constructor
      · intro h
        cases h
        exact ⟨Nat.zero_le _, hstarts, fun j hj => by omega⟩
      · rintro ⟨-, -, hfirst⟩
        cases k with
        | zero => rfl
        | succ k => exact absurd hstarts (hfirst 0 (Nat.succ_pos k))
    · have hstarts : ¬ token <+: c :: rest := fun h => hhead (List.isPrefixOf_iff_prefix.mpr h)
      rw [if_neg hhead]
      cases k with
      | zero => simp [hstarts]
      | succ k =>
        simp only [Option.map_eq_some_iff, Nat.add_right_cancel_iff, exists_eq_right, ih,
          List.length_cons, List.drop_succ_cons, Nat.add_le_add_iff_right]
        refine and_congr_right fun _ => and_congr_right fun _ => ⟨fun h j hj => ?_, fun h j hj => ?_⟩
        · cases j with
          | zero => exact hstarts
          | succ j => exact h j (by omega)
        · exact h (j + 1) (by omega)

/-- The token does not occur. -/
theorem find_eq_none {token text : Text} : find token text = none ↔ ¬ token <:+: text := by
  induction text with
  | nil =>
    cases token with
    | nil => simp [find]
    | cons c token => simp [find]
  | cons c rest ih =>
    unfold find
    rw [List.infix_cons_iff, not_or, ← ih]
    by_cases hhead : token.isPrefixOf (c :: rest)
    · simp [hhead, List.isPrefixOf_iff_prefix.mp hhead]
    · have hstarts : ¬ token <+: c :: rest := fun h => hhead (List.isPrefixOf_iff_prefix.mpr h)
      simp [hhead, hstarts]

/-- The length in bytes. -/
theorem byteLength_append (a b : Text) : byteLength (a ++ b) = byteLength a + byteLength b := by
  simp [byteLength, utf8]

/-- A character has at least one. -/
theorem byteLength_pos {a : Text} (h : a ≠ []) : 0 < byteLength a := by
  obtain ⟨c, rest, rfl⟩ := List.exists_cons_of_ne_nil h
  have hc : 0 < (String.utf8EncodeChar c).length := by
    rw [String.length_utf8EncodeChar]
    exact Char.utf8Size_pos c
  rw [byteLength, utf8, List.flatMap_cons, List.length_append]
  omega

/-- Tokens that start at the same place compare alike in bytes and in characters. -/
theorem byteLength_le_iff {a b text : Text} (ha : a <+: text) (hb : b <+: text) :
    byteLength a ≤ byteLength b ↔ a.length ≤ b.length := by
  constructor
  · intro hle
    by_contra hlonger
    obtain ⟨tail, rfl⟩ := List.prefix_of_prefix_length_le hb ha (by omega)
    have htail : tail ≠ [] := by
      rintro rfl
      simp at hlonger
    have hpos := byteLength_pos htail
    rw [byteLength_append] at hle
    omega
  · intro hle
    obtain ⟨tail, rfl⟩ := List.prefix_of_prefix_length_le ha hb hle
    rw [byteLength_append]
    omega

/-! ## The next added token -/

namespace Qwen2Tokenizer

variable (t : Qwen2Tokenizer)

/-- The occurrence at which the text is cut next. -/
structure Chosen (text : Text) (offset : Nat) (token : Text) (id : UInt32) : Prop where
  mem : (token, id) ∈ t.addedTokens
  inside : offset ≤ text.length
  occurs : token <+: text.drop offset
  leftmost : ∀ a ∈ t.addedTokens, ∀ k < offset, ¬ a.1 <+: text.drop k
  longest : ∀ a ∈ t.addedTokens, a.1 <+: text.drop offset → a.1.length ≤ token.length
  smallest : ∀ i, (token, i) ∈ t.addedTokens → id.toNat ≤ i.toNat

variable {t} {text token : Text} {offset : Nat} {id : UInt32}

/-- The token's place in the text. -/
theorem Chosen.split (h : t.Chosen text offset token id) :
    text = text.take offset ++ token ++ text.drop (offset + token.length) := by
  obtain ⟨tail, htail⟩ := h.occurs
  have hdrop : text.drop (offset + token.length) = tail := by
    rw [← List.drop_drop, ← htail, List.drop_left]
  rw [hdrop, List.append_assoc, htail, List.take_append_drop]

/-- There is one such occurrence only. -/
theorem Chosen.unique {offset' : Nat} {token' : Text} {id' : UInt32}
    (h : t.Chosen text offset token id) (h' : t.Chosen text offset' token' id') :
    offset = offset' ∧ token = token' ∧ id = id' := by
  have hoffset : offset = offset' := by
    have hle : ¬ offset' < offset := fun hlt => h.leftmost _ h'.mem offset' hlt h'.occurs
    have hge : ¬ offset < offset' := fun hlt => h'.leftmost _ h.mem offset hlt h.occurs
    omega
  subst hoffset
  have hlength : token.length = token'.length :=
    Nat.le_antisymm (h'.longest _ h.mem h.occurs) (h.longest _ h'.mem h'.occurs)
  have htoken : token = token' := by
    rw [List.prefix_iff_eq_take.mp h.occurs, List.prefix_iff_eq_take.mp h'.occurs, hlength]
  subst htoken
  have hid : id.toNat = id'.toNat :=
    Nat.le_antisymm (h.smallest _ h'.mem) (h'.smallest _ h.mem)
  exact ⟨rfl, rfl, UInt32.toNat.inj hid⟩

/-- The earliest match wins, then the longest, then the smallest id. -/
theorem matchKey_le_iff {m m' : Nat × Text × UInt32} :
    matchKey m ≤ matchKey m' ↔ m.1 < m'.1 ∨ m.1 = m'.1 ∧
      (byteLength m'.2.1 < byteLength m.2.1 ∨
        byteLength m'.2.1 = byteLength m.2.1 ∧ m.2.2.toNat ≤ m'.2.2.toNat) := by
  unfold matchKey
  rw [Prod.Lex.toLex_le_toLex, Prod.Lex.toLex_le_toLex]
  simp only [OrderDual.toDual_lt_toDual, EmbeddingLike.apply_eq_iff_eq]
  constructor <;> rintro (h | ⟨h, h' | ⟨h', hid⟩⟩)
  · exact .inl h
  · exact .inr ⟨h, .inl h'⟩
  · exact .inr ⟨h, .inr ⟨h'.symm, hid⟩⟩
  · exact .inl h
  · exact .inr ⟨h, .inl h'⟩
  · exact .inr ⟨h, .inr ⟨h'.symm, hid⟩⟩

/-- The matches of the added tokens. -/
theorem mem_matches {m : Nat × Text × UInt32} :
    m ∈ (t.addedTokens.filterMap fun added => (find added.1 text).map (·, added)) ↔
      m.2 ∈ t.addedTokens ∧ find m.2.1 text = some m.1 := by
  obtain ⟨k, added⟩ := m
  simp only [List.mem_filterMap, Option.map_eq_some_iff, Prod.mk.injEq]
  constructor
  · rintro ⟨a, ha, j, hj, rfl, rfl⟩
    exact ⟨ha, hj⟩
  · rintro ⟨ha, hk⟩
    exact ⟨added, ha, k, hk, rfl, rfl⟩

/-- No added token occurs in the text. -/
theorem nextAddedToken_eq_none :
    t.nextAddedToken text = none ↔ ∀ a ∈ t.addedTokens, ¬ a.1 <:+: text := by
  rw [nextAddedToken, List.argmin_eq_none, List.filterMap_eq_nil_iff]
  simp only [Option.map_eq_none_iff, find_eq_none]

/-- The least match is the chosen one. -/
theorem chosen_of_nextAddedToken (h : t.nextAddedToken text = some (offset, token, id)) :
    t.Chosen text offset token id := by
  obtain ⟨hmem, hfind⟩ := mem_matches.mp (List.argmin_mem h)
  have hfirst := find_eq_some.mp hfind
  have hleast : ∀ a ∈ t.addedTokens, ∀ k, find a.1 text = some k →
      matchKey (offset, token, id) ≤ matchKey (k, a) := fun a ha k hk =>
    List.le_of_mem_argmin (mem_matches (m := (k, a)).mpr ⟨ha, hk⟩) h
  -- an occurrence at `k` bounds the first occurrence, and that one does not go before `offset`
  have hbound : ∀ a ∈ t.addedTokens, ∀ k, k ≤ text.length → a.1 <+: text.drop k →
      ∃ j ≤ k, find a.1 text = some j := by
    intro a ha k hk hoccurs
    cases hj : find a.1 text with
    | none =>
      refine absurd ?_ (find_eq_none.mp hj)
      exact hoccurs.isInfix.trans (List.drop_suffix k text).isInfix
    | some j =>
      refine ⟨j, ?_, rfl⟩
      by_contra hlater
      exact (find_eq_some.mp hj).2.2 k (by omega) hoccurs
  refine ⟨hmem, hfirst.1, hfirst.2.1, fun a ha k hk hoccurs => ?_, fun a ha hoccurs => ?_,
    fun i hi => ?_⟩
  · obtain ⟨j, hjk, hj⟩ := hbound a ha k (by omega) hoccurs
    rcases matchKey_le_iff.mp (hleast a ha j hj) with hlt | ⟨heq, -⟩
    · simp only at hlt
      omega
    · simp only at heq
      omega
  · obtain ⟨j, hjk, hj⟩ := hbound a ha offset hfirst.1 hoccurs
    have hle : byteLength a.1 ≤ byteLength token := by
      rcases matchKey_le_iff.mp (hleast a ha j hj) with hlt | ⟨-, hlt | ⟨heq, -⟩⟩
      · simp only at hlt
        omega
      · exact hlt.le
      · exact heq.le
    exact (byteLength_le_iff hoccurs hfirst.2.1).mp hle
  · rcases matchKey_le_iff.mp (hleast (token, i) hi offset hfind) with hlt | ⟨-, hlt | ⟨-, hle⟩⟩
    · exact absurd hlt (Nat.lt_irrefl _)
    · exact absurd hlt (Nat.lt_irrefl _)
    · exact hle

/-- It is chosen by the same order. -/
theorem nextAddedToken_eq_some :
    t.nextAddedToken text = some (offset, token, id) ↔ t.Chosen text offset token id := by
  constructor
  · exact chosen_of_nextAddedToken
  · intro h
    cases hnext : t.nextAddedToken text with
    | none =>
      refine absurd ?_ (nextAddedToken_eq_none.mp hnext _ h.mem)
      exact h.occurs.isInfix.trans (List.drop_suffix offset text).isInfix
    | some m =>
      obtain ⟨offset', token', id'⟩ := m
      obtain ⟨rfl, rfl, rfl⟩ := h.unique (chosen_of_nextAddedToken hnext)
      rfl

/-! ## One iteration -/

/-- What an iteration that goes on does: it cuts at the chosen token, or takes all that is left. -/
theorem encodeStep_cases {s s' : Text × List UInt32} (h : t.encodeStep s = .inr s') :
    s.1 ≠ [] ∧
    ((∃ offset token id ids, t.Chosen s.1 offset token id ∧
        t.encodeBefore s.1 offset s.2 = .ok ids ∧
        s' = (s.1.drop (offset + token.length), ids ++ [id])) ∨
      (∃ ids, (∀ a ∈ t.addedTokens, ¬ a.1 <:+: s.1) ∧
        t.encodeOrdinary s.1 s.2 = .ok ids ∧ s' = ([], ids))) := by
  obtain ⟨rest, ids⟩ := s
  simp only [encodeStep] at h
  by_cases hrest : rest = []
  · rw [if_pos hrest] at h
    cases h
  · refine ⟨hrest, ?_⟩
    rw [if_neg hrest] at h
    -- an added token cuts the text, or it is ordinary to its end
    cases hnext : t.nextAddedToken rest with
    | none =>
      simp only [hnext] at h
      cases hencode : t.encodeOrdinary rest ids with
      | error e =>
        rw [hencode] at h
        cases h
      | ok out =>
        rw [hencode] at h
        cases h
        exact .inr ⟨out, nextAddedToken_eq_none.mp hnext, rfl, rfl⟩
    | some m =>
      obtain ⟨offset, token, id⟩ := m
      simp only [hnext] at h
      cases hbefore : t.encodeBefore rest offset ids with
      | error e =>
        rw [hbefore] at h
        cases h
      | ok out =>
        rw [hbefore] at h
        cases h
        exact .inl ⟨offset, token, id, out, chosen_of_nextAddedToken hnext, hbefore, rfl⟩

/-- A token at the cursor is cut out at once. -/
theorem encodeStep_of_chosen_zero (ids : List UInt32) (hne : text ≠ [])
    (h : t.Chosen text 0 token id) :
    t.encodeStep (text, ids) = .inr (text.drop token.length, ids ++ [id]) := by
  have hbefore : t.encodeBefore text 0 ids = .ok ids := if_neg (Nat.lt_irrefl 0)
  simp only [encodeStep, if_neg hne, nextAddedToken_eq_some.mpr h, hbefore, Nat.zero_add]

/-! ## The cuts of a text -/

/-- A stretch of ordinary text, or an added token. -/
inductive Segment where
  | ordinary (text : Text)
  | added (token : Text) (id : UInt32)

/-- The segments of a text: it is cut at the leftmost added token, there at the longest, of these
at the one of the smallest id, and what is behind it is cut in the same way. -/
inductive Cuts (t : Qwen2Tokenizer) : Text → List Segment → Prop where
  | done : Cuts t [] []
  | last {text : Text} (hne : text ≠ []) (hnone : ∀ a ∈ t.addedTokens, ¬ a.1 <:+: text) :
      Cuts t text [.ordinary text]
  | first {text token : Text} {id : UInt32} {segments : List Segment} (hne : text ≠ [])
      (hcut : t.Chosen text 0 token id) (hrest : Cuts t (text.drop token.length) segments) :
      Cuts t text (.added token id :: segments)
  | later {text token : Text} {offset : Nat} {id : UInt32} {segments : List Segment}
      (hpos : 0 < offset) (hcut : t.Chosen text offset token id)
      (hrest : Cuts t (text.drop (offset + token.length)) segments) :
      Cuts t text (.ordinary (text.take offset) :: .added token id :: segments)

/-- The ids of a segment. -/
def EncodesAs (t : Qwen2Tokenizer) : Segment → List UInt32 → Prop
  | .ordinary text, ids => t.encodeOrdinary text [] = .ok ids
  | .added _ id, ids => ids = [id]

/-- A text is cut in one way. -/
theorem Cuts.unique {segments segments' : List Segment} (h : Cuts t text segments)
    (h' : Cuts t text segments') : segments = segments' := by
  -- by induction on one of the two; the chosen cut is the same
  induction h generalizing segments' with
  | done =>
    cases h' with
    | done => rfl
    | last hne => exact absurd rfl hne
    | first hne => exact absurd rfl hne
    | later hpos hcut =>
      have hin := hcut.inside
      rw [List.length_nil] at hin
      omega
  | @last text hne hnone =>
    have hnot : ∀ {offset token id}, ¬ t.Chosen text offset token id := fun hcut =>
      hnone _ hcut.mem (hcut.occurs.isInfix.trans (List.drop_suffix _ text).isInfix)
    cases h' with
    | done => exact absurd rfl hne
    | last => rfl
    | first _ hcut => exact absurd hcut hnot
    | later _ hcut => exact absurd hcut hnot
  | @first text token id segments hne hcut hrest ih =>
    cases h' with
    | done => exact absurd rfl hne
    | last _ hnone =>
      exact absurd (hcut.occurs.isInfix.trans (List.drop_suffix _ text).isInfix)
        (hnone _ hcut.mem)
    | first _ hcut' hrest' =>
      obtain ⟨-, rfl, rfl⟩ := hcut.unique hcut'
      rw [ih hrest']
    | later hpos hcut' =>
      obtain ⟨hzero, -⟩ := hcut.unique hcut'
      omega
  | @later text token offset id segments hpos hcut hrest ih =>
    cases h' with
    | done =>
      have hin := hcut.inside
      rw [List.length_nil] at hin
      omega
    | last _ hnone =>
      exact absurd (hcut.occurs.isInfix.trans (List.drop_suffix _ text).isInfix)
        (hnone _ hcut.mem)
    | first _ hcut' =>
      obtain ⟨hzero, -⟩ := hcut.unique hcut'
      omega
    | later _ hcut' hrest' =>
      obtain ⟨rfl, rfl, rfl⟩ := hcut.unique hcut'
      rw [ih hrest']

/-! ## Ordinary text -/

/-- The parts that belong to the two parts of a list. -/
theorem forall₂_append_left {α β : Type} {R : α → β → Prop} {as bs : List α} {cs : List β}
    (h : List.Forall₂ R (as ++ bs) cs) :
    ∃ front behind, List.Forall₂ R as front ∧ List.Forall₂ R bs behind ∧ cs = front ++ behind := by
  induction as generalizing cs with
  | nil => exact ⟨[], cs, .nil, h, rfl⟩
  | cons a as ih =>
    obtain ⟨c, cs, hac, hrest, rfl⟩ := List.forall₂_cons_left_iff.mp h
    obtain ⟨front, behind, hfront, hbehind, rfl⟩ := ih hrest
    exact ⟨c :: front, behind, .cons hac hfront, hbehind, rfl⟩

/-- The ids of a list of symbols. -/
def Spells (t : Qwen2Tokenizer) (symbols : List Text) (ids : List UInt32) : Prop :=
  List.Forall₂ (fun symbol id => assoc t.vocabulary symbol = some id) symbols ids

/-- The symbols of a piece of the pre-tokenizer. -/
def pieceSymbols (t : Qwen2Tokenizer) (piece : Text) : List Text :=
  bytePairEncode t.mergeRanks ((utf8 piece).map (encodeByte t.byteEncoder))

/-- Every symbol has an id, and the ids are appended. -/
theorem foldlM_pushSymbol {symbols : List Text} {output out : List UInt32} :
    symbols.foldlM t.pushSymbol output = .ok out ↔
      ∃ ids, Spells t symbols ids ∧ out = output ++ ids := by
  induction symbols generalizing output with
  | nil =>
    simp only [Spells, List.forall₂_nil_left_iff, exists_eq_left, List.append_nil]
    exact ⟨fun h => by cases h; rfl, fun h => by rw [h]; rfl⟩
  | cons symbol symbols ih =>
    rw [List.foldlM_cons, bind_eq_ok]
    constructor
    · rintro ⟨middle, hpush, hrest⟩
      unfold pushSymbol at hpush
      cases hid : assoc t.vocabulary symbol with
      | none =>
        rw [hid] at hpush
        cases hpush
      | some id =>
        rw [hid] at hpush
        cases hpush
        obtain ⟨ids, hids, rfl⟩ := ih.mp hrest
        exact ⟨id :: ids, .cons hid hids, by simp⟩
    · rintro ⟨ids, hids, rfl⟩
      cases hids with
      | @cons _ id _ ids hid hids =>
        refine ⟨output ++ [id], ?_, ih.mpr ⟨ids, hids, by simp⟩⟩
        unfold pushSymbol
        rw [hid]

/-- Ordinary text: every piece of the pattern is there, and its symbols are spelled. -/
theorem encodeOrdinary_eq_ok {text : Text} {output out : List UInt32} :
    t.encodeOrdinary text output = .ok out ↔
      ∃ (pieces : List Text) (ids : List UInt32), t.pattern text = pieces.map some ∧
        Spells t (pieces.flatMap t.pieceSymbols) ids ∧ out = output ++ ids := by
  unfold encodeOrdinary
  generalize t.pattern text = found
  -- by induction on the pieces of the pattern
  induction found generalizing output with
  | nil =>
    constructor
    · intro h
      cases h
      exact ⟨[], [], rfl, .nil, by simp⟩
    · rintro ⟨pieces, ids, hpieces, hids, rfl⟩
      have hnil : pieces = [] := List.map_eq_nil_iff.mp hpieces.symm
      subst hnil
      cases hids
      rw [List.append_nil]
      rfl
  | cons x found ih =>
    rw [List.foldlM_cons, bind_eq_ok]
    constructor
    · rintro ⟨middle, hpiece, hrest⟩
      cases x with
      | none => cases hpiece
      | some piece =>
        obtain ⟨ids, hids, rfl⟩ := foldlM_pushSymbol.mp hpiece
        obtain ⟨pieces, ids', hpieces, hids', rfl⟩ := ih.mp hrest
        refine ⟨piece :: pieces, ids ++ ids', by rw [hpieces]; rfl, ?_, by simp⟩
        rw [List.flatMap_cons]
        exact List.rel_append hids hids'
    · rintro ⟨pieces, ids, hpieces, hids, rfl⟩
      cases pieces with
      | nil => cases hpieces
      | cons piece pieces =>
        cases hpieces
        rw [List.flatMap_cons] at hids
        obtain ⟨front, behind, hfront, hbehind, rfl⟩ := forall₂_append_left hids
        refine ⟨output ++ front, foldlM_pushSymbol.mpr ⟨front, hfront, rfl⟩, ?_⟩
        exact ih.mpr ⟨pieces, behind, rfl, hbehind, by simp⟩

/-- The ids are appended to what is there. -/
theorem encodeOrdinary_append {text : Text} {output out : List UInt32} :
    t.encodeOrdinary text output = .ok out ↔
      ∃ ids, t.encodeOrdinary text [] = .ok ids ∧ out = output ++ ids := by
  simp only [encodeOrdinary_eq_ok, List.nil_append]
  constructor
  · rintro ⟨pieces, ids, hpieces, hids, rfl⟩
    exact ⟨ids, ⟨pieces, ids, hpieces, hids, rfl⟩, rfl⟩
  · rintro ⟨ids, ⟨pieces, ids, hpieces, hids, rfl⟩, rfl⟩
    exact ⟨pieces, ids, hpieces, hids, rfl⟩

/-! ## The whole text -/

/-- Nothing is left. -/
theorem encodeStep_nil {ids : List UInt32} : t.encodeStep ([], ids) = .inl (.ok ids) := by
  simp only [encodeStep, if_pos]

/-- The scan returns only when nothing is left. -/
theorem encodeStep_done {s : Text × List UInt32} {out : List UInt32}
    (h : t.encodeStep s = .inl (.ok out)) : s = ([], out) := by
  obtain ⟨rest, ids⟩ := s
  simp only [encodeStep] at h
  by_cases hrest : rest = []
  · rw [if_pos hrest] at h
    cases h
    rw [hrest]
  · rw [if_neg hrest] at h
    cases hnext : t.nextAddedToken rest with
    | none =>
      simp only [hnext] at h
      cases hencode : t.encodeOrdinary rest ids with
      | error e =>
        rw [hencode] at h
        cases h
      | ok out =>
        rw [hencode] at h
        cases h
    | some m =>
      obtain ⟨offset, token, id⟩ := m
      simp only [hnext] at h
      cases hbefore : t.encodeBefore rest offset ids with
      | error e =>
        rw [hbefore] at h
        cases h
      | ok out =>
        rw [hbefore] at h
        cases h

/-- The ids of a text are those of its segments. -/
theorem loop_encodeStep {fuel : Nat} {rest : Text} {ids out : List UInt32}
    (h : loop t.encodeStep fuel (rest, ids) = some (.ok out)) :
    ∃ segments parts, Cuts t rest segments ∧ List.Forall₂ (EncodesAs t) segments parts ∧
      out = ids ++ parts.flatten := by
  -- by induction on the steps, each a cut or the rest of the text
  induction fuel generalizing rest ids with
  | zero => cases h
  | succ fuel ih =>
    cases hstep : t.encodeStep (rest, ids) with
    | inl result =>
      rw [loop_done hstep] at h
      cases h
      cases encodeStep_done hstep
      exact ⟨[], [], .done, .nil, by simp⟩
    | inr next =>
      rw [loop_next hstep] at h
      obtain ⟨hne, hcases⟩ := encodeStep_cases hstep
      rcases hcases with ⟨offset, token, id, middle, hcut, hbefore, rfl⟩ | ⟨middle, hnone, hall, rfl⟩
      · obtain ⟨segments, parts, hsegments, hparts, rfl⟩ := ih h
        unfold encodeBefore at hbefore
        by_cases hpos : offset > 0
        · rw [if_pos hpos, encodeOrdinary_append] at hbefore
          obtain ⟨part, hpart, rfl⟩ := hbefore
          refine ⟨_, part :: [id] :: parts, .later hpos hcut hsegments, ?_, by simp⟩
          exact .cons hpart (.cons rfl hparts)
        · have hzero : offset = 0 := by omega
          subst hzero
          rw [if_neg hpos] at hbefore
          cases hbefore
          rw [Nat.zero_add] at hsegments
          refine ⟨_, [id] :: parts, .first hne hcut hsegments, .cons rfl hparts, by simp⟩
      · obtain ⟨segments, parts, hsegments, hparts, rfl⟩ := ih h
        have hdone : segments = [] := hsegments.unique .done
        subst hdone
        cases hparts
        obtain ⟨part, hpart, rfl⟩ := encodeOrdinary_append.mp hall
        exact ⟨_, [part], .last hne hnone, .cons hpart .nil, by simp⟩

/-- A text that can be cut is encoded. -/
theorem loop_of_cuts {rest : Text} {segments : List Segment} (h : Cuts t rest segments)
    {parts : List (List UInt32)} (hparts : List.Forall₂ (EncodesAs t) segments parts)
    (ids : List UInt32) :
    ∃ fuel, loop t.encodeStep fuel (rest, ids) = some (.ok (ids ++ parts.flatten)) := by
  -- by induction on the cuts
  induction h generalizing parts ids with
  | done =>
    cases hparts
    exact ⟨1, by rw [loop_done encodeStep_nil]; simp⟩
  | @last text hne hnone =>
    obtain ⟨part, none, hpart, hnone', rfl⟩ := List.forall₂_cons_left_iff.mp hparts
    cases hnone'
    have hstep : t.encodeStep (text, ids) = .inr ([], ids ++ part) := by
      have hencode : t.encodeOrdinary text ids = .ok (ids ++ part) :=
        encodeOrdinary_append.mpr ⟨part, hpart, rfl⟩
      simp only [encodeStep, if_neg hne, nextAddedToken_eq_none.mpr hnone, hencode]
    exact ⟨2, by rw [loop_next hstep, loop_done encodeStep_nil]; simp⟩
  | @first text token id segments hne hcut hrest ih =>
    obtain ⟨part, behind, hpart, hbehind, rfl⟩ := List.forall₂_cons_left_iff.mp hparts
    cases hpart
    obtain ⟨fuel, hfuel⟩ := ih hbehind (ids ++ [id])
    refine ⟨fuel + 1, ?_⟩
    rw [loop_next (encodeStep_of_chosen_zero ids hne hcut), hfuel]
    simp
  | @later text token offset id segments hpos hcut hrest ih =>
    obtain ⟨part, more, hpart, hmore, rfl⟩ := List.forall₂_cons_left_iff.mp hparts
    obtain ⟨cut, behind, hcutpart, hbehind, rfl⟩ := List.forall₂_cons_left_iff.mp hmore
    cases hcutpart
    obtain ⟨fuel, hfuel⟩ := ih hbehind (ids ++ part ++ [id])
    have hne : text ≠ [] := by
      rintro rfl
      have hin := hcut.inside
      rw [List.length_nil] at hin
      omega
    have hstep : t.encodeStep (text, ids)
        = .inr (text.drop (offset + token.length), ids ++ part ++ [id]) := by
      have hbefore : t.encodeBefore text offset ids = .ok (ids ++ part) := by
        rw [encodeBefore, if_pos hpos]
        exact encodeOrdinary_append.mpr ⟨part, hpart, rfl⟩
      simp only [encodeStep, if_neg hne, nextAddedToken_eq_some.mpr hcut, hbefore]
    refine ⟨fuel + 1, ?_⟩
    rw [loop_next hstep, hfuel]
    simp

/-- `encode` succeeds with the ids of the segments, and with no others. -/
theorem encode_ok_iff {nfc : Text → Text} {text : Text} {ids : List UInt32} :
    (∃ fuel, t.encode nfc fuel text = some (.ok ids)) ↔
      ∃ segments parts, Cuts t (nfc text) segments ∧
        List.Forall₂ (EncodesAs t) segments parts ∧ ids = parts.flatten := by
  constructor
  · rintro ⟨fuel, h⟩
    exact loop_encodeStep h
  · rintro ⟨segments, parts, hcuts, hparts, rfl⟩
    exact loop_of_cuts hcuts hparts []

/-! ## Termination -/

/-- The text is covered by added tokens, each the longest that begins where the last one ends. -/
inductive GreedilyTiled (t : Qwen2Tokenizer) : Text → Prop where
  | nil : GreedilyTiled t []
  | cons {token rest : Text} {id : UInt32} (hmem : (token, id) ∈ t.addedTokens)
      (hne : token ≠ [])
      (hlongest : ∀ a ∈ t.addedTokens, a.1 <+: token ++ rest → a.1.length ≤ token.length)
      (hrest : GreedilyTiled t rest) : GreedilyTiled t (token ++ rest)

/-- Every iteration that goes on moves the cursor. -/
def Advances (t : Qwen2Tokenizer) (text : Text) : Prop :=
  ∀ s s', Visits t.encodeStep (text, []) s → t.encodeStep s = .inr s' → s'.1.length < s.1.length

/-- With an empty added token every cut is at the cursor. -/
theorem chosen_zero_of_empty (text : Text) {a : Text × UInt32} (ha : a ∈ t.addedTokens) (hempty : a.1 = []) :
    ∃ token id, t.Chosen text 0 token id := by
  cases hnext : t.nextAddedToken text with
  | none =>
    refine absurd ?_ (nextAddedToken_eq_none.mp hnext a ha)
    rw [hempty]
    exact List.nil_infix
  | some m =>
    obtain ⟨offset, token, id⟩ := m
    have hchosen := chosen_of_nextAddedToken hnext
    have hzero : offset = 0 := by
      by_contra hpos
      refine hchosen.leftmost a ha 0 (by omega) ?_
      rw [hempty]
      exact List.nil_prefix
    subst hzero
    exact ⟨token, id, hchosen⟩

/-- With an empty added token the scan ends only on a text that longer tokens cover. -/
theorem greedilyTiled_of_ends {a : Text × UInt32} (ha : a ∈ t.addedTokens) (hempty : a.1 = [])
    {fuel : Nat} {ids : List UInt32} (h : (loop t.encodeStep fuel (text, ids)).isSome) :
    GreedilyTiled t text := by
  induction fuel generalizing text ids with
  | zero => cases h
  | succ fuel ih =>
    by_cases hne : text = []
    · rw [hne]
      exact .nil
    · obtain ⟨token, id, hchosen⟩ := chosen_zero_of_empty text ha hempty
      have hstep := encodeStep_of_chosen_zero ids hne hchosen
      have hrest : GreedilyTiled t (text.drop token.length) := by
        apply ih
        rw [loop_next hstep] at h
        exact h
      by_cases htoken : token = []
      · -- the cursor has not moved, and the rest is the text itself
        rw [htoken] at hrest
        exact hrest
      · obtain ⟨tail, htail⟩ := hchosen.occurs
        rw [List.drop_zero] at htail
        have hdrop : text.drop token.length = tail := by rw [← htail, List.drop_left]
        rw [hdrop] at hrest
        rw [← htail]
        refine .cons hchosen.mem htoken (fun a ha hoccurs => ?_) hrest
        refine hchosen.longest a ha ?_
        rw [List.drop_zero, ← htail]
        exact hoccurs

/-- The scan of such a text takes the tokens that cover it. -/
theorem chosen_of_greedilyTiled (h : GreedilyTiled t text) (hne : text ≠ []) :
    ∃ token id, token ≠ [] ∧ t.Chosen text 0 token id ∧
      GreedilyTiled t (text.drop token.length) := by
  cases h with
  | nil => exact absurd rfl hne
  | @cons token rest id hmem htoken hlongest hrest =>
    have hfind : find token (token ++ rest) = some 0 := by
      rw [find_eq_some]
      refine ⟨Nat.zero_le _, List.prefix_append token rest, fun j hj => by omega⟩
    cases hnext : t.nextAddedToken (token ++ rest) with
    | none =>
      exact absurd (List.prefix_append token rest).isInfix (nextAddedToken_eq_none.mp hnext _ hmem)
    | some m =>
      obtain ⟨offset, token', id'⟩ := m
      have hchosen := chosen_of_nextAddedToken hnext
      have hzero : offset = 0 := by
        by_contra hpos
        exact hchosen.leftmost _ hmem 0 (by omega) (List.prefix_append token rest)
      subst hzero
      -- the covering token is the longest at this place, so it is the one that is chosen
      have hoccurs : token' <+: token ++ rest := hchosen.occurs
      have hlength : token'.length = token.length :=
        Nat.le_antisymm (hlongest _ hchosen.mem hoccurs)
          (hchosen.longest _ hmem (List.prefix_append token rest))
      have heq : token' = token := by
        rw [List.prefix_iff_eq_take.mp hoccurs, hlength, List.take_left]
      subst heq
      refine ⟨token', id', htoken, hchosen, ?_⟩
      rw [List.drop_left]
      exact hrest

/-- Where the chosen token is not empty, the iteration moves the cursor. -/
theorem length_lt_of_step {s s' : Text × List UInt32} (h : t.encodeStep s = .inr s')
    (hchosen : ∀ offset token id, t.Chosen s.1 offset token id → token ≠ []) :
    s'.1.length < s.1.length := by
  obtain ⟨hne, hstep⟩ := encodeStep_cases h
  have hpos : 0 < s.1.length := List.length_pos_iff.mpr hne
  rcases hstep with ⟨offset, token, id, ids, hcut, -, rfl⟩ | ⟨ids, -, -, rfl⟩
  · have htoken : 0 < token.length := List.length_pos_iff.mpr (hchosen offset token id hcut)
    show (s.1.drop (offset + token.length)).length < s.1.length
    rw [List.length_drop]
    omega
  · exact hpos

/-- A token with a character moves the loop on. -/
theorem advances_of_nonempty (h : ∀ a ∈ t.addedTokens, a.1 ≠ []) : Advances t text :=
  fun _ _ _ hstep => length_lt_of_step hstep fun _ _ _ hcut => h _ hcut.mem

/-- So does one whose text is tiled by the greedy choices. -/
theorem advances_of_greedilyTiled (h : GreedilyTiled t text) : Advances t text := by
  intro s s' hvisits hstep
  -- every state of the scan is again at the front of a covered text
  have hinv : ∀ s, Visits t.encodeStep (text, []) s → GreedilyTiled t s.1 := by
    intro s hvisits
    induction hvisits with
    | refl => exact h
    | @tail a b _ hab ih =>
      obtain ⟨hne, -⟩ := encodeStep_cases hab
      obtain ⟨token, id, -, hcut, hrest⟩ := chosen_of_greedilyTiled ih hne
      have hnext : t.encodeStep a = .inr (a.1.drop token.length, a.2 ++ [id]) :=
        encodeStep_of_chosen_zero _ hne hcut
      rw [hab] at hnext
      cases hnext
      exact hrest
  refine length_lt_of_step hstep fun offset token id hcut => ?_
  obtain ⟨hne, -⟩ := encodeStep_cases hstep
  obtain ⟨token', id', htoken', hcut', -⟩ := chosen_of_greedilyTiled (hinv s hvisits) hne
  rw [(hcut.unique hcut').2.1]
  exact htoken'

/-- **The scan ends, moving the cursor in every iteration, exactly when no added token is empty or
longer ones cover the whole text.** The merge loop always ends. -/
theorem encode_ends_iff (t : Qwen2Tokenizer) (nfc : Text → Text) (text : Text) :
    ((∃ fuel, (t.encode nfc fuel text).isSome) ∧ Advances t (nfc text) ∧
        ∀ symbols, Ends (mergeRound t.mergeRanks.get (mergePass (· ++ ·))) symbols) ↔
      (∀ a ∈ t.addedTokens, a.1 ≠ []) ∨ GreedilyTiled t (nfc text) := by
  constructor
  · rintro ⟨⟨fuel, hends⟩, -⟩
    by_cases hempty : ∀ a ∈ t.addedTokens, a.1 ≠ []
    · exact .inl hempty
    · push Not at hempty
      obtain ⟨a, ha, hnil⟩ := hempty
      exact .inr (greedilyTiled_of_ends ha hnil hends)
  · intro hcond
    have hadvances : Advances t (nfc text) :=
      hcond.elim advances_of_nonempty advances_of_greedilyTiled
    refine ⟨?_, hadvances, fun symbols => ⟨symbols.length + 1, ?_⟩⟩
    · exact ends_of_measure (fun s => s.1.length) hadvances
    · exact loop_pass_isSome (Nat.lt_succ_self _)

/-- A `tokenizer_config.json` whose only added token is the empty string. -/
def emptyTokenFiles : Files where
  vocabulary := .ok [(['x'], 5)]
  merges := .ok []
  addedTokensDecoder := .ok [(['0'], [])]

/-- It is loaded, and `x` is never encoded. -/
theorem encode_empty_token :
    ∃ t, Qwen2Tokenizer.load (fun text => [some text]) emptyTokenFiles = .ok t ∧
      ¬ ∃ fuel, (t.encode (fun text => text) fuel ['x']).isSome := by
  let t : Qwen2Tokenizer :=
    { pattern := fun text => [some text], vocabulary := [(['x'], 5)]
      mergeRanks := MergeReader.empty.toMergeRanks, byteEncoder := buildByteEncoder
      addedTokens := [([], 0)] }
  refine ⟨t, rfl, ?_⟩
  rintro ⟨fuel, hends⟩
  have htiled : GreedilyTiled t ['x'] :=
    greedilyTiled_of_ends (a := ([], 0)) (List.mem_singleton.mpr rfl) rfl hends
  obtain ⟨token, id, htoken, hcut, -⟩ := chosen_of_greedilyTiled htiled (by simp)
  -- the only added token is empty
  have hmem := List.mem_singleton.mp hcut.mem
  exact htoken (Prod.ext_iff.mp hmem).1

end Qwen2Tokenizer

end Qwen3Tts.Talker.Tokenizer
