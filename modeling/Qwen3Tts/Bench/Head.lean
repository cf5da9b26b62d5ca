import Qwen3Tts.Bench.HeadText

/-!
# Bench — response heads

`Head` is a status line and header fields as RFC grammar has them, with what makes them well formed
in the fields, and `Head.block` writes one. The parser reads every such block
(`Head.parseHead_block`): under the name of a single field it has that field's value, under a name
that no field has it has nothing (`Head.header_single`, `Head.header_absent`).
-/

namespace Qwen3Tts.Bench

open Qwen3Tts.Lib Qwen3Tts.Server

/-! ## The grammar -/

/-- `tchar`. -/
def tokenChar (c : Char) : Bool := c.isAlphanum || "!#$%&'*+-.^_`|~".toList.contains c

/-- A header field. -/
structure Field where
  name : Text
  before : Text
  value : Text
  after : Text
  name_ne : name ≠ []
  name_token : ∀ c ∈ name, tokenChar c = true
  before_blank : ∀ c ∈ before, blank c = true
  after_blank : ∀ c ∈ after, blank c = true
  value_line : '\r' ∉ value

/-- A field as it is written, and the lines of a head. -/
def Field.line (field : Field) : Text :=
  field.name ++ ':' :: (field.before ++ field.value ++ field.after)

structure Head where
  version : Text
  status : List (Fin 10)
  reason : Text
  fields : List Field
  version_eq : version = "HTTP/1.0".toList ∨ version = "HTTP/1.1".toList
  status_length : status.length = 3
  reason_line : '\r' ∉ reason

def Head.statusLine (head : Head) : Text :=
  head.version ++ ' ' :: (head.status.map decimalDigit ++ ' ' :: head.reason)

def Head.text (head : Head) : Text :=
  List.intercalate ['\r', '\n'] (head.statusLine :: head.fields.map Field.line)

/-- The header block with its blank line. -/
def Head.block (head : Head) : Bytes := utf8 head.text ++ headEnd

/-- The fields of a name, whatever its case. -/
def Head.named (head : Head) (name : Text) : List Field :=
  head.fields.filter fun field => lowercase field.name = name

/-! ## The lines of a head -/

/-- A character of a name is none of the separators. -/
theorem not_tokenChar {c d : Char} (h : tokenChar c = true) (hd : tokenChar d = false) : c ≠ d := by
  rintro rfl
  rw [h] at hd
  cases hd

/-- It is ASCII. -/
theorem toNat_tokenChar {c : Char} (h : tokenChar c = true) : c.toNat < 128 := by
  rcases Bool.or_eq_true_iff.mp h with halpha | hother
  · unfold Char.isAlphanum Char.isAlpha Char.isUpper Char.isLower Char.isDigit at halpha
    simp only [Bool.or_eq_true, Bool.and_eq_true, decide_eq_true_eq, UInt32.le_iff_toNat_le]
      at halpha
    show c.val.toNat < 128
    have hlast : 'Z'.val.toNat < 128 ∧ 'z'.val.toNat < 128 ∧ '9'.val.toNat < 128 := by decide
    omega
  · have hall : ("!#$%&'*+-.^_`|~".toList.all fun d => d.toNat < 128) = true := by decide
    exact of_decide_eq_true (List.all_eq_true.mp hall c (List.contains_iff_mem.mp hother))

/-- The tokens of the grammar are those of the code. -/
theorem isHeaderNameByte_utf8 {name : Text} (h : ∀ c ∈ name, tokenChar c = true) :
    (utf8 name).all isHeaderNameByte = true := by
  have hall : ∀ n < 128, tokenChar (Char.ofNat n) = true →
      (String.utf8EncodeChar (Char.ofNat n)).all isHeaderNameByte = true := by
    decide
  apply List.all_eq_true.mpr
  intro byte hbyte
  obtain ⟨c, hc, hin⟩ := List.mem_flatMap.mp hbyte
  have hchar := hall c.toNat (toNat_tokenChar (h c hc))
  rw [Char.ofNat_toNat] at hchar
  exact List.all_eq_true.mp (hchar (h c hc)) byte hin

/-- Blanks hold nothing else. -/
theorem not_mem_of_blank {c : Char} {text : Text} (h : ∀ d ∈ text, blank d = true)
    (hc : blank c = false) : c ∉ text := by
  intro hmem
  rw [h c hmem] at hc
  cases hc

/-- A field is a line of its own. -/
theorem Field.line_ok (field : Field) : field.line ≠ [] ∧ '\r' ∉ field.line := by
  constructor
  · exact fun hnil => field.name_ne (List.append_eq_nil_iff.mp hnil).1
  · intro hmem
    rcases List.mem_append.mp hmem with hname | hmem
    · exact not_tokenChar (field.name_token _ hname) (by decide) rfl
    · rcases List.mem_cons.mp hmem with hcolon | hmem
      · exact absurd hcolon (by decide)
      · rcases List.mem_append.mp hmem with hmem | hafter
        · rcases List.mem_append.mp hmem with hbefore | hvalue
          · exact not_mem_of_blank field.before_blank (by decide) hbefore
          · exact field.value_line hvalue
        · exact not_mem_of_blank field.after_blank (by decide) hafter

/-- A digit is neither white space, nor an end of line, nor a sign. -/
theorem decimalDigit_ok : ∀ d : Fin 10,
    isWhitespace (decimalDigit d) = false ∧ decimalDigit d ≠ '\r' ∧ decimalDigit d ≠ '+' := by
  decide

/-- The version is one word. -/
theorem Head.version_ok (head : Head) :
    head.version ≠ [] ∧ ∀ c ∈ head.version, isWhitespace c = false := by
  have hvisible : ∀ {text : Text}, (text.all fun c => !isWhitespace c) = true →
      ∀ c ∈ text, isWhitespace c = false := by
    intro text htext c hc
    exact Bool.not_eq_true' _ ▸ List.all_eq_true.mp htext c hc
  rcases head.version_eq with h | h <;> rw [h]
  · exact ⟨by decide, hvisible (by decide)⟩
  · exact ⟨by decide, hvisible (by decide)⟩

/-- The status line is a line of its own. -/
theorem Head.statusLine_ok (head : Head) : head.statusLine ≠ [] ∧ '\r' ∉ head.statusLine := by
  constructor
  · exact fun hnil => head.version_ok.1 (List.append_eq_nil_iff.mp hnil).1
  · intro hmem
    rcases List.mem_append.mp hmem with hversion | hmem
    · have hspace := head.version_ok.2 _ hversion
      exact absurd hspace (by decide)
    · rcases List.mem_cons.mp hmem with hspace | hmem
      · exact absurd hspace (by decide)
      · rcases List.mem_append.mp hmem with hstatus | hmem
        · obtain ⟨d, _, hd⟩ := List.mem_map.mp hstatus
          exact (decimalDigit_ok d).2.1 hd
        · rcases List.mem_cons.mp hmem with hspace | hreason
          · exact absurd hspace (by decide)
          · exact head.reason_line hreason

/-- So is every line of the head. -/
theorem Head.lines_ok (head : Head) :
    ∀ line ∈ head.statusLine :: head.fields.map Field.line, line ≠ [] ∧ '\r' ∉ line := by
  intro line hline
  rcases List.mem_cons.mp hline with rfl | hline
  · exact head.statusLine_ok
  · obtain ⟨field, _, rfl⟩ := List.mem_map.mp hline
    exact field.line_ok

/-- The blank line ends the block. -/
theorem Head.firstAt_block (head : Head) (rest : Bytes) :
    firstAt headEnd (head.block ++ rest) = some (head.block.length - 4) := by
  rw [block, List.append_assoc, text, firstAt_intercalate rest head.lines_ok, List.length_append]
  rfl

/-! ## The parser on a block -/

/-- The first separator splits. -/
theorem splitOnce_cons {separator : Char} {before after : Text} (h : separator ∉ before) :
    splitOnce separator (before ++ separator :: after) = some (before, after) := by
  have hfront : ∀ c ∈ before, decide (c ≠ separator) = true := by
    intro c hc
    exact decide_eq_true fun heq => h (heq ▸ hc)
  unfold splitOnce
  rw [List.span_eq_takeWhile_dropWhile, List.takeWhile_append_of_pos hfront,
    List.dropWhile_append_of_pos hfront, List.dropWhile_cons_of_neg (by simp),
    List.takeWhile_cons_of_neg (by simp), List.append_nil]

/-- The entry that the parser makes of a field. -/
def Field.entry (field : Field) : Text × Text :=
  (lowercase field.name, trimText (field.before ++ field.value ++ field.after))

/-- A field is read back, without the blanks around its value. -/
theorem parseHeaderLine_field (headers : List (Text × Text)) (field : Field) :
    parseHeaderLine headers field.line
      = .ok (insertHeader headers field.entry.1 field.entry.2) := by
  have hcolon : ':' ∉ field.name := fun hmem =>
    not_tokenChar (field.name_token _ hmem) (by decide) rfl
  have hfolded : ¬ (field.line.head? = some ' ' ∨ field.line.head? = some '\t') := by
    obtain ⟨c, name, hname⟩ := List.exists_cons_of_ne_nil field.name_ne
    have hc : tokenChar c = true := by
      apply field.name_token
      rw [hname]
      exact List.mem_cons_self
    rw [Field.line, hname]
    rintro (h | h)
    · exact not_tokenChar hc (by decide) (Option.some.inj h)
    · exact not_tokenChar hc (by decide) (Option.some.inj h)
  have hname : ¬ (field.name = [] ∨ (utf8 field.name).all isHeaderNameByte = false) := by
    rw [isHeaderNameByte_utf8 field.name_token]
    exact fun h => h.elim field.name_ne (by decide)
  rw [parseHeaderLine, failIf_of_not hfolded, ok_bind, Field.line, splitOnce_cons hcolon]
  dsimp only
  rw [failIf_of_not hname, ok_bind]
  rfl

/-- The fields are read one after the other. -/
theorem foldlM_fields (fields : List Field) (headers : List (Text × Text)) :
    (fields.map Field.line).foldlM parseHeaderLine headers
      = .ok (fields.foldl (fun headers field =>
        insertHeader headers field.entry.1 field.entry.2) headers) := by
  induction fields generalizing headers with
  | nil => rfl
  | cons field fields ih =>
    rw [List.map_cons, List.foldlM_cons, parseHeaderLine_field, ok_bind]
    exact ih _

/-- The first two words of the status line are the version and the status. -/
theorem splitWhitespace_statusLine (head : Head) :
    splitWhitespace head.statusLine
      = head.version :: head.status.map decimalDigit :: splitWhitespace head.reason := by
  have hspace : isWhitespace ' ' = true := by decide
  have hstatus : ∀ c ∈ head.status.map decimalDigit, isWhitespace c = false := by
    intro c hc
    obtain ⟨d, _, rfl⟩ := List.mem_map.mp hc
    exact (decimalDigit_ok d).1
  have hdigits : head.status.map decimalDigit ≠ [] := by
    intro hnil
    have hlength := congrArg List.length hnil
    rw [List.length_map, head.status_length] at hlength
    cases hlength
  unfold splitWhitespace Head.statusLine
  rw [List.splitOnP_append_cons_of_forall_mem head.version_ok.2 ' ' hspace,
    List.splitOnP_append_cons_of_forall_mem hstatus ' ' hspace,
    List.filter_cons_of_pos (by simpa using head.version_ok.1),
    List.filter_cons_of_pos (by simpa using hdigits)]

/-- **The parser reads every head that is written.** -/
theorem Head.parseHead_block (head : Head) : parseHead head.block = .ok
    ⟨numeral 10 (head.status.map Fin.val), head.fields.foldl (fun headers field =>
      insertHeader headers field.entry.1 field.entry.2) []⟩ := by
  have hheadEnd : headEnd = utf8 ['\r', '\n', '\r', '\n'] := by decide
  have hwhole : head.block = utf8 (head.text ++ ['\r', '\n', '\r', '\n']) := by
    rw [utf8_append, ← hheadEnd]
    rfl
  have hlength : head.block.length = (utf8 head.text).length + 4 := List.length_append
  have hfront : head.block.take (head.block.length - 4) = utf8 head.text := by
    rw [hlength, Nat.add_sub_cancel, block, List.take_left]
  -- the block is cut at its line ends
  have hlines : splitCrLf head.text = head.statusLine :: head.fields.map Field.line := by
    apply splitCrLf_intercalate head.statusLine_ok.2
    intro line hline
    exact (head.lines_ok line (List.mem_cons_of_mem _ hline)).2
  have hversion : ¬ (head.version ≠ "HTTP/1.0".toList ∧ head.version ≠ "HTTP/1.1".toList) := by
    intro h
    rcases head.version_eq with heq | heq
    · exact h.1 heq
    · exact h.2 heq
  -- three digits fit into sixteen bits
  have hstatus : fromStrRadix 10 16 (head.status.map decimalDigit)
      = some (numeral 10 (head.status.map Fin.val)) := by
    obtain ⟨a, b, c, habc⟩ := List.length_eq_three.mp head.status_length
    apply fromStrRadix_numeral (by decide)
    · rw [habc]
      exact List.cons_ne_nil _ _
    · exact fun d _ => toDigit_decimalDigit d
    · exact fun d _ => (decimalDigit_ok d).2.2
    · rw [habc]
      show ((0 * 10 + a.1) * 10 + b.1) * 10 + c.1 < 2 ^ 16
      omega
  have hdecoded : fromUtf8 head.block ≠ none := by
    rw [hwhole, fromUtf8_utf8]
    exact fun h => by cases h
  -- the checks of `parse_head` in their order
  rw [parseHead, failIf_of_not hdecoded, ok_bind, failIf_of_not (by omega), ok_bind, hfront,
    fromUtf8_utf8]
  dsimp only
  rw [hlines]
  dsimp only
  rw [splitWhitespace_statusLine, List.head?_cons, Option.getD_some, failIf_of_not hversion,
    ok_bind, List.tail_cons, List.head?_cons]
  dsimp only
  rw [hstatus]
  dsimp only
  rw [foldlM_fields]
  rfl

/-! ## The headers of a block -/

/-- A header under a new name. -/
theorem assoc_append_single {headers : List (Text × Text)} {name key value : Text}
    (h : assoc headers name = none) :
    assoc (headers ++ [(name, value)]) key
      = if key = name then some value else assoc headers key := by
  induction headers with
  | nil => rfl
  | cons entry headers ih =>
    obtain ⟨k, v⟩ := entry
    have hne : name ≠ k := by
      rintro rfl
      rw [assoc, if_pos rfl] at h
      cases h
    rw [assoc, if_neg hne] at h
    rw [List.cons_append, assoc, ih h, assoc]
    by_cases hkey : key = k
    · rw [if_pos hkey, if_pos hkey, if_neg (hkey ▸ hne.symm)]
    · rw [if_neg hkey, if_neg hkey]

/-- Another name keeps its value. -/
theorem assoc_insertHeader_of_ne {headers : List (Text × Text)} {name key value : Text}
    (h : key ≠ name) : assoc (insertHeader headers name value) key = assoc headers key := by
  unfold insertHeader
  split
  · rw [assoc_modifyAt, if_neg h]
  · rename_i hnone
    rw [assoc_append_single (Option.not_isSome_iff_eq_none.mp hnone), if_neg h]

/-- A header that is inserted for the first time is found. -/
theorem assoc_insertHeader_self {headers : List (Text × Text)} {name value : Text}
    (h : assoc headers name = none) :
    assoc (insertHeader headers name value) name = some value := by
  unfold insertHeader
  rw [h, if_neg (by decide), assoc_append_single h, if_pos rfl]

section
variable {name : Text}

/-- Fields of other names change nothing for a name. -/
theorem assoc_fields_absent {fields : List Field} {headers : List (Text × Text)}
    (h : (fields.filter fun field => lowercase field.name = name) = []) :
    assoc (fields.foldl (fun headers field =>
      insertHeader headers field.entry.1 field.entry.2) headers) name = assoc headers name := by
  induction fields generalizing headers with
  | nil => rfl
  | cons field fields ih =>
    have hall := List.filter_eq_nil_iff.mp h
    have hne : name ≠ lowercase field.name :=
      fun heq => hall field List.mem_cons_self (decide_eq_true heq.symm)
    have hrest : (fields.filter fun field => lowercase field.name = name) = [] :=
      List.filter_eq_nil_iff.mpr fun f hf => hall f (List.mem_cons_of_mem field hf)
    rw [List.foldl_cons, ih hrest]
    exact assoc_insertHeader_of_ne hne

/-- The only field of a name is what is found under it. -/
theorem assoc_fields_single {fields : List Field} {headers : List (Text × Text)} {field : Field}
    (h : (fields.filter fun field => lowercase field.name = name) = [field])
    (hnone : assoc headers name = none) :
    assoc (fields.foldl (fun headers field =>
      insertHeader headers field.entry.1 field.entry.2) headers) name = some field.entry.2 := by
  induction fields generalizing headers with
  | nil => cases h
  | cons first fields ih =>
    rw [List.foldl_cons]
    by_cases hname : lowercase first.name = name
    · rw [List.filter_cons, if_pos (decide_eq_true hname)] at h
      obtain ⟨hfirst, hrest⟩ := List.cons.inj h
      subst hfirst
      rw [assoc_fields_absent hrest]
      show assoc (insertHeader headers (lowercase first.name) _) name = _
      rw [hname]
      exact assoc_insertHeader_self hnone
    · rw [List.filter_cons, if_neg fun h => hname (of_decide_eq_true h)] at h
      apply ih h
      rw [← hnone]
      exact assoc_insertHeader_of_ne (Ne.symm hname)

end

/-- A header that the head does not have, -/
theorem Head.header_absent {head : Head} {parsed : ResponseHead}
    (hparsed : parseHead head.block = .ok parsed) {name : Text} (hname : lowercase name = name)
    (h : head.named name = []) : parsed.header name = none := by
  rw [head.parseHead_block] at hparsed
  cases hparsed
  unfold ResponseHead.header
  rw [hname]
  exact assoc_fields_absent h

/-- or has once. -/
theorem Head.header_single {head : Head} {parsed : ResponseHead}
    (hparsed : parseHead head.block = .ok parsed) {name : Text} (hname : lowercase name = name)
    {field : Field} (h : head.named name = [field]) : parsed.header name = some field.entry.2 := by
  rw [head.parseHead_block] at hparsed
  cases hparsed
  unfold ResponseHead.header
  rw [hname]
  exact assoc_fields_single h rfl

end Qwen3Tts.Bench
