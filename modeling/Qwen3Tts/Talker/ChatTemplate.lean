import Qwen3Tts.Talker.Prompt
import Qwen3Tts.Talker.Lossless
import Qwen3Tts.Talker.Pretokenizer

/-!
# Talker — the chat template around a text

`VoiceDesignPrompt::tokenize` puts the text between the markers of the chat template, and
`from_token_ids` cuts the three ids of the opening and the five of the end off by their number. The
tokenizer does not know the template: to it, the line break in front of the text and the white
space that the text begins with are one string.
-/

namespace Qwen3Tts.Talker.Tokenizer

open Qwen3Tts.Lib

def imStart : Text := "<|im_start|>".toList

def imEnd : Text := "<|im_end|>".toList

def role : Text := "assistant".toList

/-- What `format!` puts in front of the text. -/
def opening : Text := imStart ++ (role ++ ['\n'])

/-- What it puts behind the text. -/
def closing : Text := imEnd ++ ('\n' :: (imStart ++ (role ++ ['\n'])))

/-- The prompt around the text. -/
def assistantText (text : Text) : Text := opening ++ (text ++ closing)

def instructionText (instruction : Text) : Text :=
  imStart ++ "user\n".toList ++ instruction ++ imEnd ++ ['\n']

def encodeInstruction (t : Qwen2Tokenizer) (nfc : Text → Text) (fuel : Nat) (instruction : Text) :
    Option (Except Message (List UInt32)) :=
  if instruction = [] then some (.ok []) else t.encode nfc fuel (instructionText instruction)

/-- `VoiceDesignPrompt::tokenize`; `none` means that a scan did not end with this fuel. -/
def tokenize (t : Qwen2Tokenizer) (nfc : Text → Text) (fuel : Nat) (config : ModelConfig)
    (text instruction : Text) (language : String) (mode : TextMode) :
    Option (Except (Message ⊕ Abort) VoiceDesignPrompt) :=
  (encodeInstruction t nfc fuel instruction).bind fun
    | .error e => some (.error (.inl e))
    | .ok instructionIds =>
      (t.encode nfc fuel (assistantText text)).bind fun
        | .error e => some (.error (.inl e))
        | .ok assistantIds =>
          some ((VoiceDesignPrompt.fromTokenIds config (instructionIds.map UInt32.toNat)
            (assistantIds.map UInt32.toNat) language mode).mapError .inr)

/-! ## What an id was written for -/

/-- An id of the encoding, with the added token or the symbol that it was written for. -/
inductive Item where
  | added (token : Text) (id : UInt32)
  | symbol (symbol : Text) (id : UInt32)

def Item.id : Item → UInt32
  | .added _ id => id
  | .symbol _ id => id

def Item.text : Item → Text
  | .added token _ => token
  | .symbol written _ => written

namespace Qwen2Tokenizer

/-- The item of a symbol carries the id the vocabulary has for it. -/
def SymbolItem (t : Qwen2Tokenizer) (symbol : Text) (item : Item) : Prop :=
  ∃ id, assoc t.vocabulary symbol = some id ∧ item = .symbol symbol id

/-- The items of a segment. -/
def ItemsOf (t : Qwen2Tokenizer) : Segment → List Item → Prop
  | .added token id, items => items = [.added token id]
  | .ordinary text, items =>
    ∃ pieces : List Text, t.pattern text = pieces.map some ∧
      List.Forall₂ (SymbolItem t) (pieces.flatMap t.pieceSymbols) items

/-- The items of a text. -/
def Itemized (t : Qwen2Tokenizer) (text : Text) (items : List Item) : Prop :=
  ∃ segments parts, Cuts t text segments ∧ List.Forall₂ (ItemsOf t) segments parts ∧
    items = parts.flatten

/-- The three items in front of the text: marker, role word, line break. -/
def openingItems (s r n : UInt32) : List Item :=
  [.added imStart s, .symbol role r, .symbol ['Ċ'] n]

/-- The five items behind it. -/
def closingItems (s r n e : UInt32) : List Item :=
  [.added imEnd e, .symbol ['Ċ'] n, .added imStart s, .symbol role r, .symbol ['Ċ'] n]

/-- The ids begin and end with those of the template, and these were written for the template. -/
def Framed (t : Qwen2Tokenizer) (normalized : Text) (ids : List Nat) (s r n e : UInt32) : Prop :=
  ∃ middle, Itemized t normalized (openingItems s r n ++ middle ++ closingItems s r n e) ∧
    ids = (openingItems s r n ++ middle ++ closingItems s r n e).map fun item => item.id.toNat

end Qwen2Tokenizer

/-! ## The pieces of the template -/

/-- The piece with the template's line break: with the white space that the text begins with, up
to the last line break in it. -/
def breakPiece (behind : Text) : Text :=
  (('\n' :: behind).takeWhile isWhitespace).rdropWhile fun c => !isLineBreak c

theorem isWhitespace_newline : isWhitespace '\n' = true := by decide

/-- The piece is the start of what is left. -/
theorem breakPiece_isPrefix (behind : Text) : breakPiece behind <+: '\n' :: behind :=
  (List.rdropWhile_prefix _ _).trans (List.takeWhile_prefix _)

theorem breakPiece_ne_nil (behind : Text) : breakPiece behind ≠ [] := by
  rw [breakPiece, List.takeWhile_cons_of_pos isWhitespace_newline, Ne, List.rdropWhile_eq_nil_iff]
  intro h
  have hbreak := h '\n' List.mem_cons_self
  exact absurd hbreak (by decide)

/-- Without a line break in that white space the piece is the template's alone. -/
theorem breakPiece_of_no_break {behind : Text}
    (h : ∀ c ∈ behind.takeWhile isWhitespace, isLineBreak c = false) :
    breakPiece behind = ['\n'] := by
  rw [breakPiece, List.takeWhile_cons_of_pos isWhitespace_newline]
  have hafter : ∀ c ∈ (behind.takeWhile isWhitespace).reverse, (!isLineBreak c) = true := by
    intro c hc
    rw [h c (List.mem_reverse.mp hc)]
    rfl
  rw [List.rdropWhile, List.reverse_cons, List.dropWhile_append_of_pos hafter]
  decide

namespace CharClasses

variable (classes : CharClasses)

/-- A line break matches with the white space behind it. -/
theorem matchLength_newline (behind : Text) :
    classes.matchLength ('\n' :: behind) = some (breakPiece behind).length := by
  have hletter := classes.letter_space '\n' isWhitespace_newline
  have hnumber := classes.number_space '\n' isWhitespace_newline
  have hother : classes.other '\n' = false := by
    simp [other, isWhitespace_newline]
  have hword : classes.word ('\n' :: behind) = none := by
    simp only [word]
    have hbreak : isLineBreak '\n' = true := by decide
    rw [if_neg (by simp [hbreak]), runMatch_of_neg hletter]
  have hdigit : classes.digit ('\n' :: behind) = none := by
    simp only [digit]
    rw [if_neg (Bool.eq_false_iff.mp hnumber)]
  have hpunctuation : classes.punctuation ('\n' :: behind) = none := by
    show classes.symbols ('\n' :: behind) = none
    rw [symbols, runMatch_of_neg hother]
    rfl
  have hbreaks : lineBreaks ('\n' :: behind) = some (breakPiece behind).length :=
    if_neg (breakPiece_ne_nil behind)
  have hcontraction : contraction ('\n' :: behind) = none := rfl
  unfold matchLength
  rw [hcontraction, hword, hdigit, hpunctuation, hbreaks]
  rfl

/-- The letters of the role end at the line break. -/
theorem takeWhile_letter_role (behind : Text) :
    (role ++ '\n' :: behind).takeWhile classes.letter = role := by
  have hall : ∀ c ∈ role, classes.letter c = true := by
    intro c hc
    have hrole : role = ['a', 's', 's', 'i', 's', 't', 'a', 'n', 't'] := rfl
    have hrange : ∀ c ∈ role, 'a' ≤ c ∧ c ≤ 'z' := by
      rw [hrole]
      simp
    exact classes.letter_ascii c (hrange c hc).1 (hrange c hc).2
  have hstop := Bool.eq_false_iff.mp (classes.letter_space '\n' isWhitespace_newline)
  rw [List.takeWhile_append_of_pos hall, List.takeWhile_cons_of_neg hstop, List.append_nil]

/-- The role is one match. -/
theorem matchLength_role (behind : Text) :
    classes.matchLength (role ++ '\n' :: behind) = some role.length := by
  have hfirst : classes.letter 'a' = true := classes.letter_ascii 'a' (by decide) (by decide)
  have hword : classes.word (role ++ '\n' :: behind) = some role.length := by
    have hrun : runLength classes.letter (role ++ '\n' :: behind) = role.length := by
      rw [runLength, takeWhile_letter_role]
    have hcons : role ++ '\n' :: behind = 'a' :: ("ssistant".toList ++ '\n' :: behind) := rfl
    rw [hcons] at hrun ⊢
    simp only [word, hfirst]
    rw [if_neg (by simp), runMatch, hrun]
    exact if_neg (by decide)
  have hcontraction : contraction (role ++ '\n' :: behind) = none := rfl
  unfold matchLength
  rw [hcontraction, hword]
  rfl

/-- The pieces of `assistant`, the line break and what comes behind. -/
theorem pretokenize_role (behind : Text) :
    classes.pretokenize (role ++ '\n' :: behind) = role :: breakPiece behind ::
      classes.findIter (8 + behind.length) (('\n' :: behind).drop (breakPiece behind).length) := by
  have hrole := classes.matchLength_role behind
  have hbreak := classes.matchLength_newline behind
  have hlength : (role ++ '\n' :: behind).length = 8 + behind.length + 1 + 1 := by
    rw [List.length_append, List.length_cons]
    show 9 + _ = _
    omega
  have htake : (role ++ '\n' :: behind).take role.length = role := List.take_left
  have hdrop : (role ++ '\n' :: behind).drop role.length = '\n' :: behind := List.drop_left
  have hpiece : ('\n' :: behind).take (breakPiece behind).length = breakPiece behind :=
    (List.prefix_iff_eq_take.mp (breakPiece_isPrefix behind)).symm
  rw [pretokenize, hlength]
  have hcons : role ++ '\n' :: behind = 'a' :: ("ssistant".toList ++ '\n' :: behind) := rfl
  rw [hcons] at hrole htake hdrop ⊢
  rw [findIter, hrole]
  show List.take role.length _ :: classes.findIter (8 + behind.length + 1) (List.drop role.length _) = _
  rw [htake, hdrop, findIter, hbreak]
  show role :: List.take _ _ :: _ = _
  rw [hpiece]

theorem pretokenize_newline : classes.pretokenize ['\n'] = [['\n']] := by
  have hbreak := classes.matchLength_newline []
  show classes.findIter 1 ['\n'] = _
  rw [findIter, hbreak]
  rfl

theorem pretokenize_role_newline : classes.pretokenize (role ++ ['\n']) = [role, ['\n']] := by
  rw [pretokenize_role, breakPiece_of_no_break (by simp)]
  rfl

end CharClasses

namespace Qwen2Tokenizer

section
variable {t : Qwen2Tokenizer} {text token : Text} {id : UInt32} {segments : List Segment}
  {parts : List (List Item)}

/-! ## Cuts and items -/

/-- The id is the smallest of its token. -/
theorem Cuts.smallest (h : Cuts t text segments) (hmem : Segment.added token id ∈ segments) :
    ∀ i, (token, i) ∈ t.addedTokens → id.toNat ≤ i.toNat := by
  induction h with
  | done => cases hmem
  | last => simp at hmem
  | first _ hcut _ ih =>
    rcases List.mem_cons.mp hmem with heq | hrest
    · cases heq
      exact hcut.smallest
    · exact ih hrest
  | later _ hcut _ ih =>
    simp only [List.mem_cons, reduceCtorEq, false_or] at hmem
    rcases hmem with heq | hrest
    · cases heq
      exact hcut.smallest
    · exact ih hrest

/-- What is behind a token is cut on its own. -/
theorem Cuts.behind {front behind : List Segment}
    (h : Cuts t text (front ++ .added token id :: behind)) :
    ∃ rest, Cuts t rest behind ∧ text = front.flatMap Segment.content ++ (token ++ rest) := by
  obtain ⟨all, hall⟩ : ∃ all, all = front ++ .added token id :: behind := ⟨_, rfl⟩
  have hjoin := h.join
  rw [← hall] at h
  -- the text follows from the join of the segments
  suffices hrest : ∃ rest, Cuts t rest behind by
    obtain ⟨rest, hrest⟩ := hrest
    refine ⟨rest, hrest, ?_⟩
    rw [List.flatMap_append, List.flatMap_cons, hrest.join] at hjoin
    exact hjoin.symm
  clear hjoin
  induction h generalizing front with
  | done => simp at hall
  | last =>
    cases front with
    | nil => cases hall
    | cons segment front => simp at hall
  | @first text' _ _ _ _ _ hrest ih =>
    cases front with
    | nil =>
      cases hall
      exact ⟨_, hrest⟩
    | cons segment front =>
      rw [List.cons_append, List.cons.injEq] at hall
      exact ih hall.2
  | @later text' _ _ _ _ _ _ hrest ih =>
    cases front with
    | nil => cases hall
    | cons segment front =>
      rw [List.cons_append, List.cons.injEq] at hall
      cases front with
      | nil =>
        have htail := hall.2
        cases htail
        exact ⟨_, hrest⟩
      | cons segment' front =>
        have htail := hall.2
        rw [List.cons_append, List.cons.injEq] at htail
        exact ih htail.2

/-- Every element on the right has its partner. -/
theorem exists_of_forall₂ {α β : Type} {R : α → β → Prop} {as : List α} {bs : List β} {b : β}
    (h : List.Forall₂ R as bs) (hb : b ∈ bs) : ∃ a ∈ as, R a b := by
  induction h with
  | nil => cases hb
  | cons hab _ ih =>
    rcases List.mem_cons.mp hb with rfl | hb
    · exact ⟨_, List.mem_cons_self, hab⟩
    · obtain ⟨a, ha, hR⟩ := ih hb
      exact ⟨a, List.mem_cons_of_mem _ ha, hR⟩

/-- An ordinary text has only symbols. -/
theorem symbols_of_ordinary {items : List Item} (h : ItemsOf t (.ordinary text) items) :
    ∀ item ∈ items, ∃ symbol id, item = .symbol symbol id := by
  obtain ⟨pieces, -, hitems⟩ := h
  intro item hitem
  obtain ⟨symbol, -, id, -, rfl⟩ := exists_of_forall₂ hitems hitem
  exact ⟨symbol, id, rfl⟩

/-- An item that stands for an added token is a cut. -/
theorem split_added {front behind : List Item} (h : List.Forall₂ (ItemsOf t) segments parts)
    (hflat : parts.flatten = front ++ .added token id :: behind) :
    ∃ before after p q, segments = before ++ .added token id :: after ∧
      List.Forall₂ (ItemsOf t) before p ∧ List.Forall₂ (ItemsOf t) after q ∧
      p.flatten = front ∧ q.flatten = behind := by
  induction h generalizing front with
  | nil =>
    rw [List.flatten_nil] at hflat
    exact absurd hflat.symm (by simp)
  | @cons segment part segments parts hpart hparts ih =>
    rw [List.flatten_cons] at hflat
    cases segment with
    | added token' id' =>
      cases hpart
      cases front with
      | nil =>
        rw [List.nil_append, List.singleton_append, List.cons.injEq] at hflat
        obtain ⟨heq, hbehind⟩ := hflat
        cases heq
        exact ⟨[], segments, [], parts, rfl, .nil, hparts, rfl, hbehind⟩
      | cons item front =>
        rw [List.singleton_append, List.cons_append, List.cons.injEq] at hflat
        obtain ⟨rfl, hrest⟩ := hflat
        obtain ⟨before, after, p, q, rfl, hbefore, hafter, hp, hq⟩ := ih hrest
        refine ⟨_ :: before, after, _ :: p, q, rfl, .cons rfl hbefore, hafter, ?_, hq⟩
        rw [List.flatten_cons, hp]
        rfl
    | ordinary text' =>
      -- the items of ordinary text are in front of the one that is looked for
      rcases List.append_eq_append_iff.mp hflat with ⟨front', rfl, hrest⟩ | ⟨part', rfl, hrest⟩
      · obtain ⟨before, after, p, q, rfl, hbefore, hafter, hp, hq⟩ := ih hrest
        refine ⟨_ :: before, after, _ :: p, q, rfl, .cons hpart hbefore, hafter, ?_, hq⟩
        rw [List.flatten_cons, hp]
      · cases part' with
        | nil =>
          rw [List.nil_append] at hrest
          have hnext : parts.flatten = [] ++ .added token id :: behind := hrest.symm
          obtain ⟨before, after, p, q, rfl, hbefore, hafter, hp, hq⟩ := ih hnext
          refine ⟨_ :: before, after, _ :: p, q, rfl, .cons hpart hbefore, hafter, ?_, hq⟩
          rw [List.flatten_cons, hp, List.append_nil, List.append_nil]
        | cons item part' =>
          rw [List.cons_append, List.cons.injEq] at hrest
          have hin : Item.added token id ∈ front ++ item :: part' := by
            rw [hrest.1]
            simp
          obtain ⟨symbol, id', heq⟩ := symbols_of_ordinary hpart _ hin
          cases heq

/-- Symbols that stand next to each other are of one ordinary segment. -/
theorem ordinary_of_symbols {rest : List Segment}
    (hcuts : Cuts t text (segments ++ rest)) (h : List.Forall₂ (ItemsOf t) segments parts)
    (hne : parts.flatten ≠ [])
    (hsymbols : ∀ item ∈ parts.flatten, ∃ symbol id, item = .symbol symbol id) :
    ∃ text', segments = [.ordinary text'] ∧ ItemsOf t (.ordinary text') parts.flatten := by
  have hadded : ∀ token id, Segment.added token id ∉ segments := by
    intro token id hmem
    have hitem : Item.added token id ∈ parts.flatten := by
      clear hcuts hne hsymbols
      induction h with
      | nil => cases hmem
      | cons hpart _ ih =>
        rcases List.mem_cons.mp hmem with heq | hmem
        · subst heq
          cases hpart
          simp
        · rw [List.flatten_cons]
          exact List.mem_append_right _ (ih hmem)
    obtain ⟨symbol, id', heq⟩ := hsymbols _ hitem
    cases heq
  cases h with
  | nil => exact absurd rfl hne
  | @cons segment part segments parts hpart hparts =>
    cases segment with
    | added token id => exact absurd List.mem_cons_self (hadded token id)
    | ordinary text' =>
      cases hparts with
      | nil => exact ⟨text', rfl, by simpa using hpart⟩
      | @cons segment' _ segments _ _ _ =>
        -- behind an ordinary segment comes a cut
        rw [List.cons_append, List.cons_append] at hcuts
        cases hcuts with
        | later _ _ _ => exact absurd (List.mem_cons_of_mem _ List.mem_cons_self) (hadded _ _)

end

/-! ## The items and the text -/

section
variable {t : Qwen2Tokenizer} {classes : CharClasses} {text : Text} {items : List Item}

/-- What the items of the template need of a tokenizer: the byte encoder is the code's, and the
pre-tokenizer finds the matches of its expression when the engine does not fail. -/
structure Splits (t : Qwen2Tokenizer) (classes : CharClasses) : Prop where
  encoder : t.byteEncoder = buildByteEncoder
  pattern : ∀ text (pieces : List Text), t.pattern text = pieces.map some →
    pieces = classes.pretokenize text

/-- The items of an ordinary text are those of its symbols, in order. -/
theorem Splits.symbols (h : Splits t classes) (hitems : ItemsOf t (.ordinary text) items) :
    List.Forall₂ (SymbolItem t) ((classes.pretokenize text).flatMap t.pieceSymbols) items := by
  obtain ⟨pieces, hpieces, hitems⟩ := hitems
  rw [← h.pattern text pieces hpieces]
  exact hitems

/-- The symbols of the items join to the bytes of the text. -/
theorem length_flatten_symbols {symbols : List Text}
    (hsymbols : (classes.pretokenize text).flatMap t.pieceSymbols = symbols) :
    symbols.flatten.length = byteLength text := by
  rw [← hsymbols, flatten_symbols, classes.flatten_pretokenize, List.length_map]
  rfl

theorem encode_role : (utf8 role).map (encodeByte buildByteEncoder) = role := by
  rw [buildByteEncoder_eq]
  decide

theorem encode_newline : (utf8 ['\n']).map (encodeByte buildByteEncoder) = ['Ċ'] := by
  rw [buildByteEncoder_eq]
  decide

theorem Splits.pieceSymbols_newline (h : Splits t classes) : t.pieceSymbols ['\n'] = [['Ċ']] := by
  rw [pieceSymbols, h.encoder, encode_newline]
  rfl

theorem Splits.pieceSymbols_role (h : Splits t classes) :
    t.pieceSymbols role = bytePairEncode t.mergeRanks role := by
  rw [pieceSymbols, h.encoder, encode_role]

end

/-! ## Survival -/

/-- What the template needs around the normal form of a text: `assistant` is one symbol, the scan
cuts the text at the template's markers and its other cuts leave the template whole, and the line
break in front of the text stays a symbol of its own. -/
def Survives (t : Qwen2Tokenizer) (body : Text) : Prop :=
  bytePairEncode t.mergeRanks role = [role] ∧
  ∃ behind s e inner,
    Cuts t (opening ++ (body ++ closing))
      ([.added imStart s, .ordinary (role ++ '\n' :: behind)] ++ inner ++
        [.added imEnd e, .ordinary ['\n'], .added imStart s, .ordinary (role ++ ['\n'])]) ∧
    (t.pieceSymbols (breakPiece behind)).head? = some ['Ċ']

section
variable {t : Qwen2Tokenizer} {classes : CharClasses} {body : Text} {s r n e : UInt32}

/-- Two suffixes of a text with the same number of bytes are the same. -/
theorem eq_of_suffix {a b text : Text} (ha : a <:+ text) (hb : b <:+ text)
    (hlength : byteLength a = byteLength b) : a = b := by
  have hle : ∀ {a b : Text}, a <:+ text → b <:+ text → byteLength a = byteLength b →
      a.length ≤ b.length → a = b := by
    intro a b ha hb hlength hle
    obtain ⟨front, rfl⟩ := List.suffix_of_suffix_length_le ha hb hle
    cases front with
    | nil => rfl
    | cons c front =>
      have hpos := byteLength_pos (List.cons_ne_nil c front)
      rw [byteLength_append] at hlength
      omega
  rcases Nat.le_total a.length b.length with h | h
  · exact hle ha hb hlength h
  · exact (hle hb ha hlength.symm h).symm

/-- Two symbols, read off two items. -/
theorem symbols_of_items {symbols : List Text} {a b : Text} {i j : UInt32} {more : List Item}
    (h : List.Forall₂ (SymbolItem t) symbols (.symbol a i :: .symbol b j :: more)) :
    ∃ rest, symbols = a :: b :: rest := by
  obtain ⟨a', tail, ⟨i', -, ha⟩, htail, rfl⟩ := List.forall₂_cons_right_iff.mp h
  obtain ⟨b', rest, ⟨j', -, hb⟩, -, rfl⟩ := List.forall₂_cons_right_iff.mp htail
  cases ha
  cases hb
  exact ⟨rest, rfl⟩

/-- When the symbols go on with the role and the line break, the role is one symbol. -/
theorem role_of_symbols {ranks : MergeRanks} {more rest : List Text}
    (h : bytePairEncode ranks role ++ more = role :: ['Ċ'] :: rest) :
    bytePairEncode ranks role = [role] ∧ more = ['Ċ'] :: rest := by
  have hjoin := flatten_bytePairEncode ranks role
  cases hsymbols : bytePairEncode ranks role with
  | nil =>
    rw [hsymbols] at hjoin
    exact absurd hjoin (by decide)
  | cons first others =>
    rw [hsymbols] at h hjoin
    rw [List.cons_append, List.cons.injEq] at h
    obtain ⟨rfl, h⟩ := h
    cases others with
    | nil => exact ⟨rfl, h⟩
    | cons second others =>
      -- the symbols of the role word have no character left for the line break
      rw [List.cons_append, List.cons.injEq] at h
      have hlength := congrArg List.length hjoin
      rw [h.1] at hlength
      simp only [List.flatten_cons, List.length_append, List.length_singleton] at hlength
      omega

/-- No ordinary segment is empty. -/
theorem Cuts.ne_nil {text text' : Text} {segments : List Segment} (h : Cuts t text segments)
    (hmem : Segment.ordinary text' ∈ segments) : text' ≠ [] := by
  induction h with
  | done => cases hmem
  | last hne =>
    cases List.mem_singleton.mp hmem
    exact hne
  | first _ _ _ ih =>
    simp only [List.mem_cons, reduceCtorEq, false_or] at hmem
    exact ih hmem
  | @later text _ offset _ _ hpos hcut _ ih =>
    simp only [List.mem_cons, reduceCtorEq, false_or] at hmem
    rcases hmem with heq | hmem
    · cases heq
      have hin := hcut.inside
      rw [← List.length_pos_iff, List.length_take]
      omega
    · exact ih hmem

/-- Every segment has an item. -/
theorem items_ne_nil (h : Splits t classes) {segment : Segment} {items : List Item}
    (hordinary : ∀ text, segment = .ordinary text → text ≠ []) (hitems : ItemsOf t segment items) :
    items ≠ [] := by
  cases segment with
  | added token id =>
    rw [show items = [.added token id] from hitems]
    simp
  | ordinary text =>
    rintro rfl
    have hnil := List.forall₂_nil_right_iff.mp (h.symbols hitems)
    have hlength := length_flatten_symbols hnil
    have hpos := byteLength_pos (hordinary text rfl)
    simp only [List.flatten_nil, List.length_nil] at hlength
    omega

/-- Only the empty text has no items. -/
theorem segments_eq_nil (h : Splits t classes) {segments : List Segment} {parts : List (List Item)}
    (hordinary : ∀ text, Segment.ordinary text ∈ segments → text ≠ [])
    (hparts : List.Forall₂ (ItemsOf t) segments parts) (hflat : parts.flatten = []) :
    segments = [] := by
  cases hparts with
  | nil => rfl
  | @cons segment part segments parts hpart _ =>
    have hpartNil : part = [] := (List.flatten_eq_nil_iff.mp hflat) part List.mem_cons_self
    refine absurd hpartNil (items_ne_nil h (fun text heq => ?_) hpart)
    exact hordinary text (by rw [heq]; exact List.mem_cons_self)

/-- The first ordinary segment, when its items begin with those of the role word and the line
break. -/
theorem first_segment (h : Splits t classes) {rest tail : Text} {main behind : List Segment}
    {parts : List (List Item)} {middle : List Item} (htail : rest = role ++ '\n' :: tail)
    (hcuts : Cuts t rest (main ++ behind)) (hparts : List.Forall₂ (ItemsOf t) main parts)
    (hflat : parts.flatten = .symbol role r :: .symbol ['Ċ'] n :: middle) :
    ∃ text inner, main = .ordinary (role ++ '\n' :: text) :: inner ∧
      bytePairEncode t.mergeRanks role = [role] ∧
      (t.pieceSymbols (breakPiece text)).head? = some ['Ċ'] := by
  cases hparts with
  | nil => cases hflat
  | @cons segment part inner others hpart hothers =>
    rw [List.flatten_cons] at hflat
    cases segment with
    | added token id =>
      cases hpart
      cases hflat
    | ordinary text =>
      have hne : part ≠ [] := by
        refine items_ne_nil h (fun text' heq => ?_) hpart
        cases heq
        exact hcuts.ne_nil (by simp)
      obtain ⟨more, hmore⟩ : ∃ more, part = .symbol role r :: .symbol ['Ċ'] n :: more := by
        cases part with
        | nil => exact absurd rfl hne
        | cons first part =>
          rw [List.cons_append, List.cons.injEq] at hflat
          obtain ⟨rfl, hflat⟩ := hflat
          cases part with
          | cons second part =>
            rw [List.cons_append, List.cons.injEq] at hflat
            obtain ⟨rfl, -⟩ := hflat
            exact ⟨part, rfl⟩
          | nil =>
            -- the next segment would be a cut, and its item an added token
            cases hothers with
            | nil => cases hflat
            | @cons segment' part' _ _ hpart' _ =>
              rw [List.cons_append, List.cons_append] at hcuts
              cases hcuts with
              | later _ _ _ =>
                cases hpart'
                cases hflat
      rw [hmore] at hpart
      have hitems := h.symbols hpart
      obtain ⟨symbols, hsymbols⟩ := symbols_of_items hitems
      have hlength := length_flatten_symbols hsymbols
      -- the segment covers the role word and the line break
      have hstart : text <+: rest := by
        have hjoin := hcuts.join
        rw [List.cons_append, List.flatMap_cons] at hjoin
        exact ⟨_, hjoin⟩
      have htemplate : role ++ ['\n'] <+: rest := ⟨tail, by rw [htail]; simp⟩
      have hbytes : byteLength (role ++ ['\n']) = 10 := by decide
      have hrole : role.length = 9 := by decide
      have hle : (role ++ ['\n']).length ≤ text.length := by
        rw [← byteLength_le_iff htemplate hstart, hbytes, ← hlength]
        simp only [List.flatten_cons, List.length_append, List.length_singleton, hrole]
        omega
      obtain ⟨behind', rfl⟩ := List.prefix_of_prefix_length_le htemplate hstart hle
      rw [List.append_assoc, List.singleton_append] at hsymbols ⊢
      rw [classes.pretokenize_role, List.flatMap_cons, List.flatMap_cons, h.pieceSymbols_role]
        at hsymbols
      obtain ⟨hwhole, hbreak⟩ := role_of_symbols hsymbols
      refine ⟨behind', inner, rfl, hwhole, ?_⟩
      cases hpiece : t.pieceSymbols (breakPiece behind') with
      | nil =>
        have hjoin := flatten_pieceSymbols t (breakPiece behind')
        rw [hpiece] at hjoin
        have hnil := congrArg List.length hjoin
        rw [List.length_map] at hnil
        have hpos := byteLength_pos (breakPiece_ne_nil behind')
        unfold byteLength at hpos
        simp only [List.flatten_nil, List.length_nil] at hnil
        omega
      | cons first others =>
        rw [hpiece, List.cons_append, List.cons.injEq] at hbreak
        rw [hbreak.1]
        rfl

/-- An ordinary segment is as long as its items say. -/
theorem byteLength_of_items (h : Splits t classes) {text : Text} {items : List Item}
    (hitems : ItemsOf t (.ordinary text) items) :
    byteLength text = (items.map Item.text).flatten.length := by
  have htexts : ∀ {symbols : List Text} {items : List Item},
      List.Forall₂ (SymbolItem t) symbols items → symbols = items.map Item.text := by
    intro symbols items hall
    induction hall with
    | nil => rfl
    | cons hitem _ ih =>
      obtain ⟨id, -, rfl⟩ := hitem
      rw [List.map_cons, ← ih]
      rfl
  exact (length_flatten_symbols (htexts (h.symbols hitems))).symm

/-- Where the first and the last items are those of the template, they were cut from it. -/
theorem survives_of_itemized (h : Splits t classes) {middle : List Item}
    (hitems : Itemized t (opening ++ (body ++ closing))
      (openingItems s r n ++ middle ++ closingItems s r n e)) : Survives t body := by
  obtain ⟨segments, parts, hcuts, hparts, hflat⟩ := hitems
  have hlastItem : parts.flatten =
      (openingItems s r n ++ middle ++ [.added imEnd e, .symbol ['Ċ'] n]) ++
        .added imStart s :: [.symbol role r, .symbol ['Ċ'] n] := by
    rw [← hflat]
    simp [closingItems]
  obtain ⟨before, last, p, q, rfl, hbefore, hlast, hp, hq⟩ := split_added hparts hlastItem
  have hendItem : p.flatten = (openingItems s r n ++ middle) ++
      .added imEnd e :: [.symbol ['Ċ'] n] := by
    rw [hp]
  obtain ⟨front, between, p', q', rfl, hfront, hbetween, hp', hq'⟩ := split_added hbefore hendItem
  have hfirstItem : p'.flatten = [] ++ .added imStart s ::
      (.symbol role r :: .symbol ['Ċ'] n :: middle) := hp'
  obtain ⟨none, main, p'', q'', rfl, hnone, hmain, hp'', hq''⟩ := split_added hfront hfirstItem
  have hnil : none = [] := by
    refine segments_eq_nil h (fun text hmem => hcuts.ne_nil ?_) hnone hp''
    simp [hmem]
  subst hnil
  have hend : opening ++ (body ++ closing)
      = opening ++ body ++ imEnd ++ ['\n'] ++ imStart ++ (role ++ ['\n']) := by
    simp [closing]
  -- the last segment is the role word and the line break
  obtain ⟨text₄, rfl, htext₄⟩ : ∃ text', last = [.ordinary text'] ∧
      ItemsOf t (.ordinary text') q.flatten := by
    obtain ⟨rest, hrest, -⟩ := hcuts.behind
    rw [← List.append_nil last] at hrest
    refine ordinary_of_symbols hrest hlast (by rw [hq]; simp) ?_
    rw [hq]
    simp
  obtain ⟨rest₄, hrest₄, hjoin₄⟩ := hcuts.behind
  have hrest₄' : text₄ = rest₄ := by simpa [Segment.content] using hrest₄.join
  subst hrest₄'
  have heq₄ : text₄ = role ++ ['\n'] := by
    have hsuffix : text₄ <:+ opening ++ (body ++ closing) := by
      rw [hjoin₄, ← List.append_assoc]
      exact List.suffix_append _ _
    have htemplate : role ++ ['\n'] <:+ opening ++ (body ++ closing) := by
      rw [hend]
      exact List.suffix_append _ _
    refine eq_of_suffix hsuffix htemplate ?_
    rw [byteLength_of_items h htext₄, hq]
    rfl
  subst heq₄
  -- the segment between the two markers is the line break
  have hcuts₃ : Cuts t (opening ++ (body ++ closing)) ((.added imStart s :: main) ++
      .added imEnd e :: (between ++ [.added imStart s, .ordinary (role ++ ['\n'])])) := by
    simpa using hcuts
  obtain ⟨rest₃, hrest₃, hjoin₃⟩ := hcuts₃.behind
  obtain ⟨text₃, rfl, htext₃⟩ : ∃ text', between = [.ordinary text'] ∧
      ItemsOf t (.ordinary text') q'.flatten := by
    refine ordinary_of_symbols hrest₃ hbetween (by rw [hq']; simp) ?_
    rw [hq']
    simp
  have hrest₃' : text₃ ++ (imStart ++ (role ++ ['\n'])) = rest₃ := by
    simpa [Segment.content] using hrest₃.join
  have hcancel : opening ++ body ++ imEnd ++ ['\n']
      = List.flatMap Segment.content (.added imStart s :: main) ++ imEnd ++ text₃ := by
    have hboth := hend.symm.trans hjoin₃
    rw [← hrest₃', List.append_assoc _ imStart] at hboth
    simp only [← List.append_assoc] at hboth ⊢
    exact List.append_cancel_right (List.append_cancel_right (List.append_cancel_right hboth))
  have heq₃ : text₃ = ['\n'] := by
    have hsuffix : text₃ <:+ opening ++ body ++ imEnd ++ ['\n'] := by
      rw [hcancel]
      exact List.suffix_append _ _
    refine eq_of_suffix hsuffix (List.suffix_append _ _) ?_
    rw [byteLength_of_items h htext₃, hq']
    rfl
  subst heq₃
  -- the first segment begins with the role word and the line break
  have hcuts₁ : Cuts t (opening ++ (body ++ closing)) ([] ++ .added imStart s :: (main ++
      [.added imEnd e, .ordinary ['\n'], .added imStart s, .ordinary (role ++ ['\n'])])) := by
    simpa using hcuts
  obtain ⟨rest₁, hrest₁, hjoin₁⟩ := hcuts₁.behind
  have hrest₁' : rest₁ = role ++ '\n' :: (body ++ closing) := by
    have hsame : imStart ++ (role ++ '\n' :: (body ++ closing)) = imStart ++ rest₁ := by
      rw [← List.nil_append (imStart ++ rest₁)]
      refine Eq.trans ?_ hjoin₁
      simp [opening]
    exact (List.append_cancel_left hsame).symm
  obtain ⟨behind, inner, rfl, hwhole, hbreak⟩ :=
    first_segment h hrest₁' hrest₁ hmain hq''
  exact ⟨hwhole, behind, s, e, inner, by simpa using hcuts, hbreak⟩

theorem items_of_added {token : Text} {id : UInt32} {items : List Item}
    (h : ItemsOf t (.added token id) items) : items = [.added token id] := h

/-- Where the template survives, the items begin and end with its own. -/
theorem itemized_of_survives (h : Splits t classes) (hsurvives : Survives t body) {items : List Item}
    (hitems : Itemized t (opening ++ (body ++ closing)) items) :
    ∃ s r n e middle, items = openingItems s r n ++ middle ++ closingItems s r n e := by
  obtain ⟨hwhole, behind, s, e, inner, hcuts, hbreak⟩ := hsurvives
  obtain ⟨segments, parts, hcuts', hparts, rfl⟩ := hitems
  have heq := hcuts'.unique hcuts
  subst heq
  obtain ⟨front, last, hfront, hlast, rfl⟩ := forall₂_append_left hparts
  obtain ⟨first, middle, hfirst, -, rfl⟩ := forall₂_append_left hfront
  -- the marker, and the segment that begins with the role word
  obtain ⟨mark, others, hmark, hothers, rfl⟩ := List.forall₂_cons_left_iff.mp hfirst
  obtain ⟨main, none, hmain, hnone, rfl⟩ := List.forall₂_cons_left_iff.mp hothers
  cases hnone
  cases items_of_added hmark
  have hsymbols := h.symbols hmain
  rw [classes.pretokenize_role, List.flatMap_cons, List.flatMap_cons, h.pieceSymbols_role, hwhole]
    at hsymbols
  obtain ⟨broken, hbroken⟩ : ∃ broken, t.pieceSymbols (breakPiece behind) = ['Ċ'] :: broken := by
    cases hpiece : t.pieceSymbols (breakPiece behind) with
    | nil =>
      rw [hpiece] at hbreak
      cases hbreak
    | cons symbol broken =>
      rw [hpiece] at hbreak
      cases hbreak
      exact ⟨broken, rfl⟩
  rw [hbroken] at hsymbols
  obtain ⟨item, broken', ⟨r, hr, rfl⟩, hfeedSymbols, rfl⟩ := List.forall₂_cons_left_iff.mp hsymbols
  obtain ⟨item, more, ⟨n, hn, rfl⟩, -, rfl⟩ := List.forall₂_cons_left_iff.mp hfeedSymbols
  -- the end of the template
  obtain ⟨stop, last₁, hstop, hlast₁, rfl⟩ := List.forall₂_cons_left_iff.mp hlast
  obtain ⟨feed, last₂, hfeed, hlast₂, rfl⟩ := List.forall₂_cons_left_iff.mp hlast₁
  obtain ⟨mark', last₃, hmark', hlast₃, rfl⟩ := List.forall₂_cons_left_iff.mp hlast₂
  obtain ⟨turn, last₄, hturn, hlast₄, rfl⟩ := List.forall₂_cons_left_iff.mp hlast₃
  cases hlast₄
  cases items_of_added hstop
  cases items_of_added hmark'
  have hfeedItems := h.symbols hfeed
  rw [classes.pretokenize_newline, List.flatMap_singleton, h.pieceSymbols_newline] at hfeedItems
  obtain ⟨item, none, ⟨n', hn', rfl⟩, hnone, rfl⟩ := List.forall₂_cons_left_iff.mp hfeedItems
  cases hnone
  have hturnItems := h.symbols hturn
  rw [classes.pretokenize_role_newline, List.flatMap_cons, List.flatMap_singleton,
    h.pieceSymbols_role, hwhole, h.pieceSymbols_newline] at hturnItems
  obtain ⟨item, turn', ⟨r', hr', rfl⟩, hturn', rfl⟩ := List.forall₂_cons_left_iff.mp hturnItems
  obtain ⟨item, none, ⟨n'', hn'', rfl⟩, hnone, rfl⟩ := List.forall₂_cons_left_iff.mp hturn'
  cases hnone
  -- the vocabulary has one id for each of the two symbols
  rw [hr] at hr'
  rw [hn] at hn' hn''
  cases hr'
  cases hn'
  cases hn''
  refine ⟨s, r, n, e, more ++ middle.flatten, ?_⟩
  simp [openingItems, closingItems]

/-! ## The ids of two texts -/

/-- What an item says about its id. -/
theorem id_of_item {text : Text} {items : List Item} (h : Itemized t text items) :
    (∀ token id, Item.added token id ∈ items →
      (token, id) ∈ t.addedTokens ∧ ∀ i, (token, i) ∈ t.addedTokens → id.toNat ≤ i.toNat) ∧
    ∀ symbol id, Item.symbol symbol id ∈ items → assoc t.vocabulary symbol = some id := by
  obtain ⟨segments, parts, hcuts, hparts, rfl⟩ := h
  -- every item comes from one segment
  have hpart : ∀ item ∈ parts.flatten, ∃ segment part, segment ∈ segments ∧
      ItemsOf t segment part ∧ item ∈ part := by
    intro item hitem
    obtain ⟨part, hpart, hitem⟩ := List.mem_flatten.mp hitem
    obtain ⟨segment, hsegment, hitems⟩ := exists_of_forall₂ hparts hpart
    exact ⟨segment, part, hsegment, hitems, hitem⟩
  constructor
  · intro token id hitem
    obtain ⟨segment, part, hsegment, hitems, hitem⟩ := hpart _ hitem
    cases segment with
    | added token' id' =>
      rw [items_of_added hitems, List.mem_singleton] at hitem
      cases hitem
      exact ⟨hcuts.mem hsegment, hcuts.smallest hsegment⟩
    | ordinary text' =>
      obtain ⟨symbol, id', heq⟩ := symbols_of_ordinary hitems _ hitem
      cases heq
  · intro symbol id hitem
    obtain ⟨segment, part, hsegment, hitems, hitem⟩ := hpart _ hitem
    cases segment with
    | added token' id' =>
      rw [items_of_added hitems, List.mem_singleton] at hitem
      cases hitem
    | ordinary text' =>
      obtain ⟨pieces, -, hall⟩ := hitems
      obtain ⟨symbol', -, id', hid, heq⟩ := exists_of_forall₂ hall hitem
      cases heq
      exact hid

/-- The ids of the template do not depend on the text. -/
theorem template_ids_unique {text text' : Text} {middle middle' : List Item} {s' r' n' e' : UInt32}
    (h : Itemized t text (openingItems s r n ++ middle ++ closingItems s r n e))
    (h' : Itemized t text' (openingItems s' r' n' ++ middle' ++ closingItems s' r' n' e')) :
    s' = s ∧ r' = r ∧ n' = n ∧ e' = e := by
  obtain ⟨hadded, hsymbol⟩ := id_of_item h
  obtain ⟨hadded', hsymbol'⟩ := id_of_item h'
  have hstart := hadded imStart s (by simp [openingItems])
  have hstart' := hadded' imStart s' (by simp [openingItems])
  have hend := hadded imEnd e (by simp [closingItems])
  have hend' := hadded' imEnd e' (by simp [closingItems])
  have hrole := hsymbol role r (by simp [openingItems])
  have hrole' := hsymbol' role r' (by simp [openingItems])
  have hfeed := hsymbol ['Ċ'] n (by simp [openingItems])
  have hfeed' := hsymbol' ['Ċ'] n' (by simp [openingItems])
  rw [hrole] at hrole'
  rw [hfeed] at hfeed'
  refine ⟨UInt32.toNat.inj ?_, (Option.some.inj hrole').symm, (Option.some.inj hfeed').symm,
    UInt32.toNat.inj ?_⟩
  · exact Nat.le_antisymm (hstart'.2 s hstart.1) (hstart.2 s' hstart'.1)
  · exact Nat.le_antisymm (hend'.2 e hend.1) (hend.2 e' hend'.1)

/-- The ids of a segment are those of items. -/
theorem itemsOf_of_encodesAs {segment : Segment} {ids : List UInt32}
    (h : EncodesAs t segment ids) : ∃ items, ItemsOf t segment items ∧ ids = items.map Item.id := by
  cases segment with
  | added token id =>
    cases h
    exact ⟨[.added token id], rfl, rfl⟩
  | ordinary text =>
    obtain ⟨pieces, spelled, hpieces, hspells, rfl⟩ := encodeOrdinary_eq_ok.mp h
    have hitems : ∀ {symbols : List Text} {ids : List UInt32}, Spells t symbols ids →
        ∃ items, List.Forall₂ (SymbolItem t) symbols items ∧ ids = items.map Item.id := by
      intro symbols ids hspells
      induction hspells with
      | nil => exact ⟨[], .nil, rfl⟩
      | @cons symbol id _ _ hid _ ih =>
        obtain ⟨items, hitems, rfl⟩ := ih
        exact ⟨.symbol symbol id :: items, .cons ⟨id, hid, rfl⟩ hitems, rfl⟩
    obtain ⟨items, hitems, rfl⟩ := hitems hspells
    exact ⟨items, ⟨pieces, hpieces, hitems⟩, rfl⟩

/-- The ids of an encoding are those of its items. -/
theorem itemized_of_encode {nfc : Text → Text} {fuel : Nat} {text : Text} {ids : List UInt32}
    (h : t.encode nfc fuel text = some (.ok ids)) :
    ∃ items, Itemized t (nfc text) items ∧ ids = items.map Item.id := by
  obtain ⟨segments, parts, hcuts, hparts, rfl⟩ := encode_ok_iff.mp ⟨fuel, h⟩
  suffices hitems : ∃ itemParts, List.Forall₂ (ItemsOf t) segments itemParts ∧
      parts.flatten = itemParts.flatten.map Item.id by
    obtain ⟨itemParts, hitems, hids⟩ := hitems
    exact ⟨itemParts.flatten, ⟨segments, itemParts, hcuts, hitems, rfl⟩, hids⟩
  clear hcuts h
  induction hparts with
  | nil => exact ⟨[], .nil, rfl⟩
  | cons hpart _ ih =>
    obtain ⟨items, hitems, rfl⟩ := itemsOf_of_encodesAs hpart
    obtain ⟨itemParts, hrest, hids⟩ := ih
    refine ⟨items :: itemParts, .cons hitems hrest, ?_⟩
    rw [List.flatten_cons, hids, List.flatten_cons, List.map_append]

/-- A symbol has one item. -/
theorem symbolItems_unique {symbols : List Text} {items items' : List Item}
    (h : List.Forall₂ (SymbolItem t) symbols items)
    (h' : List.Forall₂ (SymbolItem t) symbols items') : items = items' := by
  induction h generalizing items' with
  | nil =>
    cases h'
    rfl
  | cons hitem _ ih =>
    obtain ⟨item', rest, hitem', hrest, rfl⟩ := List.forall₂_cons_left_iff.mp h'
    obtain ⟨id, hid, rfl⟩ := hitem
    obtain ⟨id', hid', rfl⟩ := hitem'
    rw [hid] at hid'
    cases hid'
    rw [ih hrest]

/-- A text has one list of items. -/
theorem itemized_unique {text : Text} {items items' : List Item} (h : Itemized t text items)
    (h' : Itemized t text items') : items = items' := by
  obtain ⟨segments, parts, hcuts, hparts, rfl⟩ := h
  obtain ⟨segments', parts', hcuts', hparts', rfl⟩ := h'
  cases hcuts.unique hcuts'
  congr 1
  clear hcuts hcuts'
  induction hparts generalizing parts' with
  | nil =>
    cases hparts'
    rfl
  | @cons segment part segments parts hpart _ ih =>
    obtain ⟨part', others, hpart', hothers, rfl⟩ := List.forall₂_cons_left_iff.mp hparts'
    rw [ih _ hothers]
    congr 1
    cases segment with
    | added token id => rw [items_of_added hpart, items_of_added hpart']
    | ordinary text' =>
      obtain ⟨pieces, hpieces, hall⟩ := hpart
      obtain ⟨pieces', hpieces', hall'⟩ := hpart'
      have hsame : pieces = pieces' := by
        rw [hpieces] at hpieces'
        exact List.map_injective_iff.mpr (Option.some_injective _) hpieces'
      subst hsame
      exact symbolItems_unique hall hall'

/-! ## The cut of `from_token_ids` -/

/-- The two ends that are cut off. -/
theorem Framed.ends {text : Text} {ids : List Nat} (h : Framed t text ids s r n e) :
    ids.take 3 = [s.toNat, r.toNat, n.toNat] ∧
    ids.drop (ids.length - 5) = [e.toNat, n.toNat, s.toNat, r.toNat, n.toNat] := by
  obtain ⟨middle, -, rfl⟩ := h
  constructor
  · rfl
  · obtain ⟨front, hfront⟩ : ∃ front, front = openingItems s r n ++ middle := ⟨_, rfl⟩
    rw [← hfront]
    have hlength : ((front ++ closingItems s r n e).map fun item => item.id.toNat).length - 5
        = (front.map fun item => item.id.toNat).length := by
      simp [closingItems]
    rw [hlength, List.map_append, List.drop_left]
    rfl

/-- The plan keeps the ids it was made from. -/
theorem fromTokenIds_assistantIds {config : ModelConfig} {instructionIds assistantIds : List Nat}
    {language : String} {mode : TextMode} {plan : VoiceDesignPrompt}
    (h : VoiceDesignPrompt.fromTokenIds config instructionIds assistantIds language mode = .ok plan) :
    plan.assistantIds = assistantIds := by
  unfold VoiceDesignPrompt.fromTokenIds at h
  obtain ⟨-, -, h⟩ := bind_eq_ok.mp h
  obtain ⟨languageId, -, h⟩ := bind_eq_ok.mp h
  obtain ⟨opened, -, h⟩ := bind_eq_ok.mp h
  cases mode with
  | streaming =>
    obtain ⟨first, -, h⟩ := bind_eq_ok.mp h
    obtain ⟨rest, -, h⟩ := bind_eq_ok.mp h
    cases h
    rfl
  | nonStreaming =>
    obtain ⟨text, -, h⟩ := bind_eq_ok.mp h
    cases h
    rfl

/-- They are the ids of the prompt. -/
theorem assistantIds_of_tokenize {nfc : Text → Text} {fuel : Nat} {config : ModelConfig}
    {text instruction : Text} {language : String} {mode : TextMode} {plan : VoiceDesignPrompt}
    (h : tokenize t nfc fuel config text instruction language mode = some (.ok plan)) :
    ∃ ids, t.encode nfc fuel (assistantText text) = some (.ok ids) ∧
      plan.assistantIds = ids.map UInt32.toNat := by
  obtain ⟨instructionIds, -, h⟩ := Option.bind_eq_some_iff.mp h
  cases instructionIds with
  | error message => cases h
  | ok instructionIds =>
    obtain ⟨assistantIds, hencode, h⟩ := Option.bind_eq_some_iff.mp h
    cases assistantIds with
    | error message => cases h
    | ok ids =>
      refine ⟨ids, hencode, ?_⟩
      cases hplan : VoiceDesignPrompt.fromTokenIds config (instructionIds.map UInt32.toNat)
          (ids.map UInt32.toNat) language mode with
      | error abort =>
        simp only [hplan] at h
        cases h
      | ok plan' =>
        simp only [hplan] at h
        cases h
        exact fromTokenIds_assistantIds hplan

/-- One text: its ids are framed by some ids exactly when the template survives. -/
theorem framed_iff (h : Splits t classes) {nfc : Text → Text} {text : Text}
    (hnfc : nfc (assistantText text) = opening ++ (nfc text ++ closing)) {fuel : Nat}
    {config : ModelConfig} {instruction : Text} {language : String} {mode : TextMode}
    {plan : VoiceDesignPrompt}
    (hplan : tokenize t nfc fuel config text instruction language mode = some (.ok plan)) :
    (∃ s r n e, Framed t (nfc (assistantText text)) plan.assistantIds s r n e) ↔
      Survives t (nfc text) := by
  obtain ⟨ids, hencode, hids⟩ := assistantIds_of_tokenize hplan
  obtain ⟨items, hitems, rfl⟩ := itemized_of_encode hencode
  rw [hids, hnfc]
  rw [hnfc] at hitems
  constructor
  · rintro ⟨s, r, n, e, middle, hframed, -⟩
    exact survives_of_itemized h hframed
  · intro hsurvives
    obtain ⟨s, r, n, e, middle, rfl⟩ := itemized_of_survives h hsurvives hitems
    exact ⟨s, r, n, e, middle, hitems, by rw [List.map_map]; rfl⟩

/-- **The template survives around both texts exactly when it survives around each.** -/
theorem template_survives_iff {pattern : Text → List (Option Text)} {files : Files}
    (hload : load pattern files = .ok t)
    (hpattern : ∀ text (pieces : List Text), pattern text = pieces.map some →
      pieces = classes.pretokenize text)
    {nfc : Text → Text} (hnfc : ∀ text, nfc (assistantText text) = opening ++ (nfc text ++ closing))
    {fuel : Nat} {config : ModelConfig} {instruction instruction' text text' : Text}
    {language language' : String} {mode mode' : TextMode} {plan plan' : VoiceDesignPrompt}
    (hplan : tokenize t nfc fuel config text instruction language mode = some (.ok plan))
    (hplan' : tokenize t nfc fuel config text' instruction' language' mode' = some (.ok plan')) :
    (∃ s r n e, Framed t (nfc (assistantText text)) plan.assistantIds s r n e ∧
        Framed t (nfc (assistantText text')) plan'.assistantIds s r n e) ↔
      Survives t (nfc text) ∧ Survives t (nfc text') := by
  have hsplits : Splits t classes := by
    obtain ⟨hloaded, hencoder⟩ := fields_of_load hload
    refine ⟨hencoder, ?_⟩
    rw [hloaded]
    exact hpattern
  rw [← framed_iff hsplits (hnfc text) hplan, ← framed_iff hsplits (hnfc text') hplan']
  constructor
  · rintro ⟨s, r, n, e, hframed, hframed'⟩
    exact ⟨⟨s, r, n, e, hframed⟩, s, r, n, e, hframed'⟩
  · rintro ⟨⟨s, r, n, e, hframed⟩, s', r', n', e', hframed'⟩
    obtain ⟨middle, hitems, hids⟩ := id hframed
    obtain ⟨middle', hitems', hids'⟩ := id hframed'
    obtain ⟨rfl, rfl, rfl, rfl⟩ := template_ids_unique hitems hitems'
    exact ⟨_, _, _, _, hframed, hframed'⟩

end

/-! ## Samples -/

/-- The merges of the role word, and one of two line breaks. -/
def chatMerges : Text :=
  "a s\nas s\nass i\nassi s\nassis t\nassist a\nassista n\nassistan t\nĊ Ċ\n".toList

def chatFiles : Files where
  vocabulary := .ok [(role, 10), (['Ċ'], 11), (['Ċ', 'Ċ'], 12), (['x'], 13)]
  merges := .ok chatMerges
  addedTokensDecoder := .ok [(['0'], imStart), (['1'], imEnd)]

def chatRanks : MergeRanks where
  entries := [((['Ċ'], ['Ċ']), 8), (("assistan".toList, ['t']), 7), (("assista".toList, ['n']), 6),
    (("assist".toList, ['a']), 5), (("assis".toList, ['t']), 4), (("assi".toList, ['s']), 3),
    (("ass".toList, ['i']), 2), (("as".toList, ['s']), 1), ((['a'], ['s']), 0)]
  ordered := by decide
  nonempty := by decide

def chatPattern (text : Text) : List (Option Text) := (asciiClasses.pretokenize text).map some

def chatTokenizer : Qwen2Tokenizer where
  pattern := chatPattern
  vocabulary := [(role, 10), (['Ċ'], 11), (['Ċ', 'Ċ'], 12), (['x'], 13)]
  mergeRanks := chatRanks
  byteEncoder := byteCodes.map Char.ofNat
  addedTokens := [(imStart, 0), (imEnd, 1)]

def chatConfig : ModelConfig := ⟨1, 2, 3, 4, [], 5, 6, 7, 8, 9⟩

theorem readMerges_chat : readMerges chatMerges = .ok chatRanks := by rfl

theorem load_chatFiles : load chatPattern chatFiles = .ok chatTokenizer := by
  unfold chatTokenizer
  rw [← buildByteEncoder_eq]
  unfold load chatFiles
  simp only [ok_bind, readMerges_chat]
  rfl

theorem chatPattern_eq (text : Text) (pieces : List Text)
    (h : chatPattern text = pieces.map some) : pieces = asciiClasses.pretokenize text :=
  (List.map_injective_iff.mpr (Option.some_injective _) h).symm

/-- A plan with the ids that were computed. -/
theorem exists_plan {ε : Type} {result : Option (Except ε VoiceDesignPrompt)} {ids : List Nat}
    (h : (result.map fun r => r.map VoiceDesignPrompt.assistantIds) = some (.ok ids)) :
    ∃ plan, result = some (.ok plan) ∧ plan.assistantIds = ids := by
  cases result with
  | none => cases h
  | some result =>
    cases result with
    | error e => cases h
    | ok plan =>
      cases h
      exact ⟨plan, rfl, rfl⟩

theorem tokenize_x :
    ∃ plan, tokenize chatTokenizer (fun text => text) 6 chatConfig ['x'] [] "auto" .nonStreaming
        = some (.ok plan) ∧ plan.assistantIds = [0, 10, 11, 13, 1, 11, 0, 10, 11] :=
  exists_plan (by decide +kernel)

theorem survives_x : Survives chatTokenizer ['x'] := by
  have hcut : ∀ {text token : Text} {offset : Nat} {id : UInt32},
      chatTokenizer.nextAddedToken text = some (offset, token, id) →
        Chosen chatTokenizer text offset token id := chosen_of_nextAddedToken
  refine ⟨by decide, ['x'], 0, 1, [], ?_, by decide⟩
  have hnone : ∀ a ∈ chatTokenizer.addedTokens, ¬ a.1 <:+: role ++ ['\n'] := by decide
  have hlast : Cuts chatTokenizer (role ++ ['\n']) [.ordinary (role ++ ['\n'])] :=
    .last (by decide) hnone
  have hturn : Cuts chatTokenizer ('\n' :: (imStart ++ (role ++ ['\n'])))
      [.ordinary ['\n'], .added imStart 0, .ordinary (role ++ ['\n'])] :=
    .later (Nat.succ_pos 0) (hcut (by decide)) hlast
  have hmain : Cuts chatTokenizer (role ++ '\n' :: (['x'] ++ closing))
      [.ordinary (role ++ '\n' :: ['x']), .added imEnd 1, .ordinary ['\n'], .added imStart 0,
        .ordinary (role ++ ['\n'])] :=
    .later (Nat.succ_pos 10) (hcut (by decide)) hturn
  exact .first (by decide) (hcut (by decide)) hmain

theorem template_survives_sample :
    ∃ plan, tokenize chatTokenizer (fun text => text) 6 chatConfig ['x'] [] "auto" .nonStreaming
        = some (.ok plan) ∧
      ∃ s r n e, Framed chatTokenizer (assistantText ['x']) plan.assistantIds s r n e ∧
        Framed chatTokenizer (assistantText ['x']) plan.assistantIds s r n e := by
  obtain ⟨plan, hplan, -⟩ := tokenize_x
  refine ⟨plan, hplan, ?_⟩
  exact (template_survives_iff load_chatFiles chatPattern_eq (fun _ => rfl) hplan hplan).mpr
    ⟨survives_x, survives_x⟩

/-- Behind a text that begins with a line break, the third id is that of two line breaks. -/
theorem template_newline_text :
    load chatPattern chatFiles = .ok chatTokenizer ∧
    (imStart, 0) ∈ chatTokenizer.addedTokens ∧ (imEnd, 1) ∈ chatTokenizer.addedTokens ∧
    (∀ a ∈ chatTokenizer.addedTokens, ¬ a.1 <:+: ['x'] ∧ ¬ a.1 <:+: ['\n', 'x']) ∧
    ∃ plan plan',
      tokenize chatTokenizer (fun text => text) 6 chatConfig ['x'] [] "auto" .nonStreaming
        = some (.ok plan) ∧
      tokenize chatTokenizer (fun text => text) 6 chatConfig ['\n', 'x'] [] "auto" .nonStreaming
        = some (.ok plan') ∧
      plan.assistantIds.take 3 = [0, 10, 11] ∧ plan'.assistantIds.take 3 = [0, 10, 12] := by
  obtain ⟨plan, hplan, hids⟩ := tokenize_x
  obtain ⟨plan', hplan', hids'⟩ : ∃ plan,
      tokenize chatTokenizer (fun text => text) 6 chatConfig ['\n', 'x'] [] "auto" .nonStreaming
        = some (.ok plan) ∧ plan.assistantIds = [0, 10, 12, 13, 1, 11, 0, 10, 11] :=
    exists_plan (by decide +kernel)
  refine ⟨load_chatFiles, by decide, by decide, by decide, plan, plan', hplan, hplan', ?_, ?_⟩
  · rw [hids]
    rfl
  · rw [hids']
    rfl

end Qwen2Tokenizer

end Qwen3Tts.Talker.Tokenizer
