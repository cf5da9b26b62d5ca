import Mathlib.Data.List.DropRight
import Mathlib.Data.List.Induction
import Qwen3Tts.Bench.Multipart

/-!
# Bench — the boundary of a multipart response

`boundary_from_content_type` of `multipart.rs`: the fields of a `Content-Type` are split at the
semicolons outside of quoted strings, and one of the parameters has to be a boundary. What is
accepted is described by the text itself (`ContentType`): whole fields, the media type, and one
boundary among other parameters. Every valid boundary is accepted in each of its quoted forms.
-/

namespace Qwen3Tts.Bench

open Qwen3Tts.Lib Qwen3Tts.Server

/-! ## `multipart.rs` -/

/-- The locals of the loop of `split_parameters`. -/
structure ParameterScan where
  fields : List Text := []
  current : Text := []
  quoted : Bool := false
  escaped : Bool := false

def ParameterScan.push (s : ParameterScan) (character : Char) : ParameterScan :=
  if s.escaped then { s with current := s.current ++ [character], escaped := false }
  else if character = '\\' ∧ s.quoted then
    { s with current := s.current ++ [character], escaped := true }
  else if character = '"' then
    { s with quoted := !s.quoted, current := s.current ++ [character] }
  else if character = ';' ∧ !s.quoted then
    { s with fields := s.fields ++ [trimText s.current], current := [] }
  else { s with current := s.current ++ [character] }

def splitParameters (value : Text) : Except Failure (List Text) :=
  let s := value.foldl ParameterScan.push {}
  if s.quoted ∨ s.escaped then
    .error (multipartError "unterminated quoted Content-Type parameter")
  else .ok (s.fields ++ [trimText s.current])

/-- The loop of `unquote_parameter` behind the opening quote, with its `escaped`. -/
def unquoteLoop : Bool → Text → Except Failure Text
  | true, [] => .error (multipartError "quoted boundary ends with an escape")
  | false, [] => .ok []
  | true, character :: rest => (character :: ·) <$> unquoteLoop false rest
  | false, character :: rest =>
    if character = '\\' then unquoteLoop true rest
    else (character :: ·) <$> unquoteLoop false rest

def unquoteParameter (value : Text) : Except Failure Text :=
  if value.head? ≠ some '"' then .ok value
  else if value.getLast? ≠ some '"' ∨ (utf8 value).length < 2 then
    .error (multipartError "unterminated quoted boundary")
  else unquoteLoop false value.tail.dropLast

/-- The bytes that `validate_boundary` accepts, all of them ASCII. -/
def isBoundaryCharacter (c : Char) : Bool :=
  c.isAlphanum || "'()+_,-./:=? ".toList.contains c

def validateBoundary (boundary : Text) : Except Failure Unit :=
  if boundary = [] ∨ 70 < (utf8 boundary).length then
    .error (multipartError "boundary length must be in 1..=70 bytes")
  else if boundary.getLast? = some ' ' ∨ ¬ boundary.all isBoundaryCharacter then
    .error (multipartError "boundary contains invalid characters")
  else .ok ()

/-- The loop over the parameters. -/
def boundaryParameter (boundary : Option Text) (parameter : Text) :
    Except Failure (Option Text) :=
  match splitOnce '=' parameter with
  | none => .error (multipartError "malformed Content-Type parameter")
  | some (name, value) =>
    if lowercase (trimText name) = "boundary".toList then
      if boundary.isSome then
        .error (multipartError "Content-Type contains multiple boundary parameters")
      else some <$> unquoteParameter (trimText value)
    else .ok boundary

def boundaryFromContentType (contentType : Text) : Except Failure Text := do
  match ← splitParameters contentType with
  | [] => .error (multipartError "Content-Type is empty")
  | mediaType :: parameters => do
    failIf (lowercase (trimText mediaType) ≠ "multipart/mixed".toList)
      (multipartError "streaming response must use multipart/mixed")
    match ← parameters.foldlM boundaryParameter none with
    | none => .error (multipartError "multipart Content-Type has no boundary")
    | some boundary => do
      validateBoundary boundary
      pure boundary

/-! ## Statement -/

/-- Whether the text goes on within quotes, and behind a backslash there; none at a semicolon
outside of quotes. -/
def quoteStep : Bool × Bool → Char → Option (Bool × Bool)
  | (quoted, true), _ => some (quoted, false)
  | (quoted, false), c =>
    if c = '\\' ∧ quoted then some (quoted, true)
    else if c = '"' then some (!quoted, false)
    else if c = ';' ∧ !quoted then none
    else some (quoted, false)

/-- A text that is one field. -/
def Whole (field : Text) : Prop := field.foldlM quoteStep (false, false) = some (false, false)

/-- The parameter has another name. -/
def IsOther (parameter : Text) : Prop :=
  ∃ name value, splitOnce '=' parameter = some (name, value) ∧
    lowercase (trimText name) ≠ "boundary".toList

/-- The parameter gives the boundary. -/
def IsBoundary (boundary parameter : Text) : Prop :=
  ∃ name value, splitOnce '=' parameter = some (name, value) ∧
    lowercase (trimText name) = "boundary".toList ∧
    unquoteParameter (trimText value) = .ok boundary

/-- Fields with semicolons between them. -/
def joined : List Text → Text
  | [] => []
  | first :: rest => first ++ rest.flatMap (';' :: ·)

/-- A content type with this boundary, by its fields. -/
structure ContentType (boundary : Text) where
  mediaType : Text
  before : List Text
  parameter : Text
  after : List Text
  whole : ∀ field ∈ mediaType :: (before ++ parameter :: after), Whole field
  mixed : lowercase (trimText mediaType) = "multipart/mixed".toList
  others : ∀ field ∈ before ++ after, IsOther (trimText field)
  isBoundary : IsBoundary boundary (trimText parameter)
  valid : validateBoundary boundary = .ok ()

/-- The value of the header. -/
def ContentType.text {boundary : Text} (c : ContentType boundary) : Text :=
  joined (c.mediaType :: (c.before ++ c.parameter :: c.after))

/-! ## Fields -/

/-- A character ends a field outside quotes only. -/
theorem push_eq (s : ParameterScan) (c : Char) :
    s.push c = match quoteStep (s.quoted, s.escaped) c with
      | some (quoted, escaped) =>
        { s with current := s.current ++ [c], quoted := quoted, escaped := escaped }
      | none => { s with fields := s.fields ++ [trimText s.current], current := [] } := by
  obtain ⟨fields, current, quoted, escaped⟩ := s
  cases escaped with
  | true => rfl
  | false =>
    unfold ParameterScan.push quoteStep
    dsimp only
    by_cases hescape : c = '\\' ∧ quoted
    · simp [hescape.1, hescape.2]
    · rw [if_neg hescape, if_neg hescape]
      by_cases hquote : c = '"'
      · simp [hquote]
      · rw [if_neg hquote, if_neg hquote]
        by_cases hsplit : c = ';' ∧ !quoted
        · rw [if_pos hsplit, if_pos hsplit]
          rfl
        · rw [if_neg hsplit, if_neg hsplit]
          rfl

/-- A trimmed text does not start with white space. -/
theorem dropWhile_trimText (text : Text) :
    (trimText text).dropWhile isWhitespace = trimText text := by
  have hprefix : trimText text <+: text.dropWhile isWhitespace := by
    unfold trimText
    rw [← List.reverse_suffix, List.reverse_reverse]
    exact List.dropWhile_suffix _
  cases htrim : trimText text with
  | nil => rfl
  | cons c rest =>
    obtain ⟨blanks, hblanks⟩ := hprefix
    rw [htrim] at hblanks
    -- the first character is one at which the blanks in front stopped
    have hhead : isWhitespace c = false := by
      by_contra hblank
      have hfirst := List.head_dropWhile_not isWhitespace (w := by rw [← hblanks]; simp)
      simp only [← hblanks, List.cons_append, List.head_cons] at hfirst
      exact hblank hfirst
    rw [List.dropWhile_cons, hhead, if_neg Bool.false_ne_true]

/-- Trimming twice is trimming once. -/
theorem trimText_trimText (text : Text) : trimText (trimText text) = trimText text := by
  have hdrop := dropWhile_trimText text
  conv_lhs => rw [trimText, hdrop]
  unfold trimText
  rw [List.reverse_reverse, List.dropWhile_idempotent]

/-- Within a field the scan takes what it is given. -/
theorem foldl_push {field : Text} {fields : List Text} {current : Text} {q e q' e' : Bool}
    (h : field.foldlM quoteStep (q, e) = some (q', e')) :
    field.foldl ParameterScan.push ⟨fields, current, q, e⟩
      = ⟨fields, current ++ field, q', e'⟩ := by
  induction field generalizing current q e with
  | nil =>
    cases h
    rw [List.append_nil]
    rfl
  | cons c field ih =>
    rw [List.foldlM_cons, Option.bind_eq_bind, Option.bind_eq_some_iff] at h
    obtain ⟨⟨quoted, escaped⟩, hstep, h⟩ := h
    rw [List.foldl_cons, push_eq]
    dsimp only
    rw [hstep]
    dsimp only
    rw [ih h, List.append_assoc]
    rfl

/-- One more field, -/
theorem joined_append {raw : List Text} (field : Text) (hsome : raw ≠ []) :
    joined (raw ++ [field]) = joined raw ++ ';' :: field := by
  cases raw with
  | nil => exact absurd rfl hsome
  | cons first rest => simp [joined]

/-- or one more character of the last one. -/
theorem joined_extend (raw : List Text) (field : Text) (c : Char) :
    joined (raw ++ [field ++ [c]]) = joined (raw ++ [field]) ++ [c] := by
  cases raw with
  | nil => simp [joined]
  | cons first rest => simp [joined]

/-- The scan of a text is the scan of its fields. -/
theorem parameters_scan_sound (text : Text) : ∃ done current quoted escaped,
    text = joined (done ++ [current]) ∧ (∀ field ∈ done, Whole field) ∧
    text.foldl ParameterScan.push {} = ⟨done.map trimText, current, quoted, escaped⟩ ∧
    current.foldlM quoteStep (false, false) = some (quoted, escaped) := by
  induction text using List.reverseRecOn with
  | nil => exact ⟨[], [], false, false, rfl, fun _ h => absurd h List.not_mem_nil, rfl, rfl⟩
  | append_singleton text c ih =>
    obtain ⟨done, current, quoted, escaped, htext, hdone, hscan, hcurrent⟩ := ih
    rw [List.foldl_append, hscan, List.foldl_cons, List.foldl_nil, push_eq]
    dsimp only
    cases hstep : quoteStep (quoted, escaped) c with
    | some next =>
      refine ⟨done, current ++ [c], next.1, next.2, ?_, hdone, rfl, ?_⟩
      · rw [joined_extend, ← htext]
      · rw [List.foldlM_append, hcurrent]
        show List.foldlM quoteStep (quoted, escaped) [c] = _
        rw [List.foldlM_cons, hstep]
        rfl
    | none =>
      -- a semicolon outside of quotes
      have hopen : quoted = false ∧ escaped = false ∧ c = ';' := by
        unfold quoteStep at hstep
        cases escaped with
        | true => cases hstep
        | false =>
          dsimp only at hstep
          split_ifs at hstep with _ _ hsplit
          exact ⟨by simpa using hsplit.2, rfl, hsplit.1⟩
      obtain ⟨rfl, rfl, rfl⟩ := hopen
      refine ⟨done ++ [current], [], false, false, ?_, ?_, ?_, rfl⟩
      · rw [joined_append _ (by simp), ← htext]
      · intro field hfield
        rcases List.mem_append.mp hfield with hfield | hfield
        · exact hdone field hfield
        · rw [List.mem_singleton.mp hfield]
          exact hcurrent
      · rw [List.map_append]
        rfl

/-- The scan cuts a joined line at its separators. -/
theorem scan_joined {first : Text} {rest : List Text} (h : ∀ field ∈ first :: rest, Whole field)
    (fields : List Text) :
    (joined (first :: rest)).foldl ParameterScan.push ⟨fields, [], false, false⟩
      = ⟨fields ++ (first :: rest).dropLast.map trimText,
        (first :: rest).getLast (List.cons_ne_nil _ _), false, false⟩ := by
  induction rest generalizing first fields with
  | nil =>
    rw [joined, List.flatMap_nil, List.append_nil, foldl_push (h first List.mem_cons_self)]
    simp
  | cons second rest ih =>
    have hsplit : joined (first :: second :: rest) = first ++ ';' :: joined (second :: rest) := by
      simp [joined]
    have hrest := ih (fun field hfield => h field (List.mem_cons_of_mem _ hfield))
      (fields ++ [trimText first])
    rw [hsplit, List.foldl_append, foldl_push (h first List.mem_cons_self), List.foldl_cons]
    -- the semicolon ends the field outside of quotes
    have hpush : ParameterScan.push ⟨fields, [] ++ first, false, false⟩ ';'
        = ⟨fields ++ [trimText first], [], false, false⟩ := rfl
    rw [hpush, hrest]
    simp

/-- **The fields** of a text are those between its semicolons outside of quotes. -/
theorem splitParameters_eq_ok {text : Text} {fields : List Text} :
    splitParameters text = .ok fields ↔ ∃ first rest, text = joined (first :: rest) ∧
      (∀ field ∈ first :: rest, Whole field) ∧ fields = (first :: rest).map trimText := by
  constructor
  · intro h
    obtain ⟨done, current, quoted, escaped, htext, hdone, hscan, hcurrent⟩ := parameters_scan_sound text
    unfold splitParameters at h
    rw [hscan] at h
    dsimp only at h
    split at h
    · cases h
    · rename_i hclosed
      cases h
      -- the last field is whole because no quote is open at the end
      have hquoted : quoted = false ∧ escaped = false := by simpa using hclosed
      have hwhole : ∀ field ∈ done ++ [current], Whole field := by
        intro field hfield
        rcases List.mem_append.mp hfield with hfield | hfield
        · exact hdone field hfield
        · rw [List.mem_singleton.mp hfield]
          unfold Whole
          rw [hcurrent, hquoted.1, hquoted.2]
      obtain ⟨first, rest, hraw⟩ : ∃ first rest, done ++ [current] = first :: rest :=
        List.exists_cons_of_ne_nil (by simp)
      refine ⟨first, rest, by rw [← hraw]; exact htext, by rw [← hraw]; exact hwhole, ?_⟩
      rw [← hraw, List.map_append]
      rfl
  · rintro ⟨first, rest, rfl, hwhole, rfl⟩
    unfold splitParameters
    rw [show ({} : ParameterScan) = ⟨[], [], false, false⟩ from rfl, scan_joined hwhole]
    dsimp only
    rw [if_neg (by simp), List.nil_append, ← List.map_singleton, ← List.map_append,
      List.dropLast_append_getLast]

/-! ## The boundary -/

/-- Parameters of other names are passed over. -/
theorem foldlM_others {boundary : Option Text} {fields : List Text}
    (h : ∀ field ∈ fields, IsOther field) :
    fields.foldlM boundaryParameter boundary = .ok boundary := by
  induction fields with
  | nil => rfl
  | cons field fields ih =>
    obtain ⟨name, value, hsplit, hname⟩ := h field List.mem_cons_self
    have hfield : boundaryParameter boundary field = .ok boundary := by
      unfold boundaryParameter
      rw [hsplit]
      exact if_neg hname
    rw [List.foldlM_cons, hfield]
    exact ih fun field hfield => h field (List.mem_cons_of_mem _ hfield)

/-- A second boundary is refused. -/
theorem boundaryParameter_eq_ok {boundary result : Option Text} {field : Text}
    (h : boundaryParameter boundary field = .ok result) :
    (IsOther field ∧ result = boundary) ∨
      ∃ b, IsBoundary b field ∧ boundary = none ∧ result = some b := by
  unfold boundaryParameter at h
  split at h
  · cases h
  · rename_i name value hsplit
    split at h
    · rename_i hname
      split at h
      · cases h
      · rename_i hnone
        cases hvalue : unquoteParameter (trimText value) with
        | error e =>
          rw [hvalue] at h
          cases h
        | ok b =>
          rw [hvalue] at h
          cases h
          refine .inr ⟨b, ⟨name, value, hsplit, hname, hvalue⟩, ?_, rfl⟩
          simpa using hnone
    · rename_i hname
      cases h
      exact .inl ⟨⟨name, value, hsplit, hname⟩, rfl⟩

/-- Behind a boundary there are only other parameters. -/
theorem others_of_foldlM {boundary result : Text} {fields : List Text}
    (h : fields.foldlM boundaryParameter (some boundary) = .ok (some result)) :
    (∀ field ∈ fields, IsOther field) ∧ result = boundary := by
  induction fields with
  | nil =>
    cases h
    exact ⟨fun _ hfield => absurd hfield List.not_mem_nil, rfl⟩
  | cons field fields ih =>
    rw [List.foldlM_cons, bind_eq_ok] at h
    obtain ⟨next, hfield, h⟩ := h
    rcases boundaryParameter_eq_ok hfield with ⟨hother, rfl⟩ | ⟨b, -, hnone, -⟩
    · obtain ⟨hrest, heq⟩ := ih h
      exact ⟨List.forall_mem_cons.mpr ⟨hother, hrest⟩, heq⟩
    · cases hnone

/-- The boundary is found when exactly one field gives it. -/
theorem foldlM_boundaryParameter {boundary : Text} {fields : List Text} :
    fields.foldlM boundaryParameter none = .ok (some boundary) ↔
      ∃ before field after, fields = before ++ field :: after ∧
        (∀ other ∈ before ++ after, IsOther other) ∧ IsBoundary boundary field := by
  constructor
  · intro h
    induction fields with
    | nil => cases h
    | cons field fields ih =>
      rw [List.foldlM_cons, bind_eq_ok] at h
      obtain ⟨next, hfield, h⟩ := h
      rcases boundaryParameter_eq_ok hfield with ⟨hother, rfl⟩ | ⟨b, hb, -, rfl⟩
      · obtain ⟨before, found, after, rfl, hothers, hfound⟩ := ih h
        exact ⟨field :: before, found, after, rfl, List.forall_mem_cons.mpr ⟨hother, hothers⟩,
          hfound⟩
      -- a second boundary would be refused
      · obtain ⟨hrest, rfl⟩ := others_of_foldlM h
        exact ⟨[], field, fields, rfl, hrest, hb⟩
  · rintro ⟨before, field, after, rfl, hothers, name, value, hsplit, hname, hvalue⟩
    have hfield : boundaryParameter none field = .ok (some boundary) := by
      unfold boundaryParameter
      rw [hsplit]
      dsimp only
      rw [if_pos hname, if_neg (by simp), hvalue]
      rfl
    rw [List.foldlM_append, foldlM_others fun f hf => hothers f (List.mem_append_left _ hf),
      ok_bind, List.foldlM_cons, hfield]
    exact foldlM_others fun f hf => hothers f (List.mem_append_right _ hf)

/-- The boundary of such a value is found. -/
theorem ContentType.found {boundary : Text} (c : ContentType boundary) :
    boundaryFromContentType c.text = .ok boundary := by
  have hfields := splitParameters_eq_ok.mpr ⟨c.mediaType, _, rfl, c.whole, rfl⟩
  have hfound : ((c.before ++ c.parameter :: c.after).map trimText).foldlM boundaryParameter none
      = .ok (some boundary) := by
    apply foldlM_boundaryParameter.mpr
    refine ⟨c.before.map trimText, trimText c.parameter, c.after.map trimText, by simp,
      fun other hother => ?_, c.isBoundary⟩
    rw [← List.map_append] at hother
    obtain ⟨field, hfield, rfl⟩ := List.mem_map.mp hother
    exact c.others field hfield
  unfold boundaryFromContentType ContentType.text
  rw [hfields, ok_bind, List.map_cons]
  dsimp only
  rw [failIf_of_not (by rw [not_not, trimText_trimText]; exact c.mixed), ok_bind, hfound, ok_bind]
  dsimp only
  rw [c.valid]
  rfl

/-- **A boundary is found** exactly in the content types that are written out of whole fields, the
first of which is the media type, and of which one of the others is a valid boundary. -/
theorem boundary_found_iff (contentType boundary : Text) :
    boundaryFromContentType contentType = .ok boundary ↔
      ∃ c : ContentType boundary, c.text = contentType := by
  constructor
  · intro h
    obtain ⟨fields, hfields, h⟩ := bind_eq_ok.mp h
    obtain ⟨mediaType, parameters, rfl, hwhole, rfl⟩ := splitParameters_eq_ok.mp hfields
    rw [List.map_cons] at h
    obtain ⟨_, hmixed, h⟩ := bind_eq_ok.mp h
    obtain ⟨found, hfound, h⟩ := bind_eq_ok.mp h
    rw [failIf_eq_ok, not_not] at hmixed
    cases found with
    | none => cases h
    | some found =>
      obtain ⟨_, hvalid, h⟩ := bind_eq_ok.mp h
      cases pure_eq_ok.mp h
      obtain ⟨before, field, after, hparameters, hothers, hboundary⟩ :=
        foldlM_boundaryParameter.mp hfound
      -- the parameters are trimmed fields: each part of their list comes from one of the raw list
      obtain ⟨before, rest, rfl, rfl, hrest⟩ := List.map_eq_append_iff.mp hparameters
      obtain ⟨parameter, after, rfl, rfl, rfl⟩ := List.map_eq_cons_iff.mp hrest
      refine ⟨⟨mediaType, before, parameter, after, hwhole, ?_, fun other hother => ?_, hboundary,
        hvalid⟩, rfl⟩
      · rwa [trimText_trimText] at hmixed
      · apply hothers
        rw [← List.map_append]
        exact List.mem_map_of_mem hother
  · rintro ⟨c, rfl⟩
    exact c.found

/-! ## Ways to write a boundary -/

/-- A character of a quoted string, for itself or behind a backslash. -/
structure Quotable where
  char : Char
  escaped : Bool
  plain : escaped = false → char ≠ '"' ∧ char ≠ '\\'

/-- A character between quotes, as it is written. -/
def Quotable.text (q : Quotable) : Text := if q.escaped then ['\\', q.char] else [q.char]

def quotedText (written : List Quotable) : Text := '"' :: (written.flatMap Quotable.text ++ ['"'])

/-- What is written between quotes does not end them. -/
theorem foldlM_quotable (written : List Quotable) :
    (written.flatMap Quotable.text).foldlM quoteStep (true, false) = some (true, false) := by
  induction written with
  | nil => rfl
  | cons q written ih =>
    obtain ⟨c, escaped, plain⟩ := q
    rw [List.flatMap_cons, List.foldlM_append]
    have hone : (Quotable.text ⟨c, escaped, plain⟩).foldlM quoteStep (true, false)
        = some (true, false) := by
      cases escaped with
      | true => rfl
      | false =>
        obtain ⟨hquote, hescape⟩ := plain rfl
        show (quoteStep (true, false) c >>= fun s => [].foldlM quoteStep s) = _
        unfold quoteStep
        dsimp only
        rw [if_neg (fun h => hescape h.1), if_neg hquote, if_neg (fun h => by cases h.2)]
        rfl
    rw [hone]
    exact ih

/-- It is read back without its escapes. -/
theorem unquoteLoop_written (written : List Quotable) :
    unquoteLoop false (written.flatMap Quotable.text) = .ok (written.map Quotable.char) := by
  induction written with
  | nil => rfl
  | cons q written ih =>
    obtain ⟨c, escaped, plain⟩ := q
    rw [List.flatMap_cons, List.map_cons]
    cases escaped with
    | true =>
      show (c :: ·) <$> unquoteLoop false (written.flatMap Quotable.text) = _
      rw [ih]
      rfl
    | false =>
      show (if c = '\\' then unquoteLoop true (written.flatMap Quotable.text)
        else (c :: ·) <$> unquoteLoop false (written.flatMap Quotable.text)) = _
      rw [if_neg (plain rfl).2, ih]
      rfl

/-- Unquoting reads what was quoted. -/
theorem unquoteParameter_quoted (written : List Quotable) :
    unquoteParameter (quotedText written) = .ok (written.map Quotable.char) := by
  have hlast : (quotedText written).getLast? = some '"' := by
    unfold quotedText
    rw [← List.cons_append, List.getLast?_concat]
  -- the source compares bytes, and a quote is one of them
  have hlength : ¬ (utf8 (quotedText written)).length < 2 := by
    unfold quotedText utf8
    rw [List.flatMap_cons, List.flatMap_append, List.length_append, List.length_append]
    have hquote : (String.utf8EncodeChar '"').length = 1 := by decide
    rw [hquote, List.flatMap_singleton, hquote]
    omega
  have hfirst : (quotedText written).head? = some '"' := rfl
  unfold unquoteParameter
  rw [if_neg (not_not_intro hfirst), if_neg (not_or.mpr ⟨not_not_intro hlast, hlength⟩)]
  unfold quotedText
  rw [List.tail_cons, List.dropLast_concat]
  exact unquoteLoop_written written

/-- Blanks in front of a text that neither begins nor ends with one are trimmed. -/
theorem trimText_behind {blanks text : Text} (hblanks : ∀ c ∈ blanks, isWhitespace c = true)
    (hfirst : ∀ c ∈ text.head?, isWhitespace c = false)
    (hlast : ∀ c ∈ text.getLast?, isWhitespace c = false) : trimText (blanks ++ text) = text := by
  have hstay : ∀ text : Text, (∀ c ∈ text.head?, isWhitespace c = false) →
      text.dropWhile isWhitespace = text := by
    intro text h
    cases text with
    | nil => rfl
    | cons c rest =>
      rw [List.dropWhile_cons, h c rfl, if_neg Bool.false_ne_true]
  unfold trimText
  rw [List.dropWhile_append_of_pos hblanks, hstay text hfirst, hstay text.reverse,
    List.reverse_reverse]
  intro c hc
  rw [List.head?_reverse] at hc
  exact hlast c hc

/-- The content type with one parameter behind its media type. -/
def mixedType (value : Text) : Text := "multipart/mixed; boundary=".toList ++ value

/-- The boundary of a content type is found. -/
theorem mixedType_found {value boundary : Text}
    (hwhole : Whole value) (hsome : value ≠ [])
    (hfirst : ∀ c ∈ value.head?, isWhitespace c = false)
    (hlast : ∀ c ∈ value.getLast?, isWhitespace c = false)
    (hvalue : unquoteParameter value = .ok boundary)
    (hvalid : validateBoundary boundary = .ok ()) :
    boundaryFromContentType (mixedType value) = .ok boundary := by
  have htrim : trimText value = value :=
    @trimText_behind [] value (fun _ h => absurd h List.not_mem_nil) hfirst hlast
  have hparameter : trimText (" boundary=".toList ++ value) = "boundary=".toList ++ value := by
    have hsplit : " boundary=".toList ++ value = [' '] ++ ("boundary=".toList ++ value) := rfl
    rw [hsplit]
    apply trimText_behind
    · exact List.forall_mem_singleton.mpr (by decide)
    · intro c hc
      cases hc
      decide
    · intro c hc
      rw [List.getLast?_append_of_ne_nil _ hsome] at hc
      exact hlast c hc
  -- the media type and one parameter, as a content type of the statement above
  suffices hwritten : ∃ c : ContentType boundary, c.text = mixedType value by
    obtain ⟨c, hc⟩ := hwritten
    rw [← hc]
    exact c.found
  refine ⟨⟨"multipart/mixed".toList, [], " boundary=".toList ++ value, [], ?_, by decide,
    fun _ h => absurd h List.not_mem_nil, ⟨"boundary".toList, value, ?_, by decide, ?_⟩,
    hvalid⟩, ?_⟩
  · rw [List.nil_append, List.forall_mem_cons, List.forall_mem_singleton]
    unfold Whole at hwhole ⊢
    refine ⟨by decide, ?_⟩
    rw [List.foldlM_append]
    have hname : " boundary=".toList.foldlM quoteStep (false, false) = some (false, false) := by
      decide
    rw [hname]
    exact hwhole
  · rw [hparameter]
    rfl
  · rw [htrim]
    exact hvalue
  · show "multipart/mixed".toList ++ [" boundary=".toList ++ value].flatMap (';' :: ·) = _
    rw [List.flatMap_singleton]
    rfl

/-- What `validate_boundary` lets through. -/
theorem validBoundary {boundary : Text} (h : validateBoundary boundary = .ok ()) :
    boundary ≠ [] ∧ boundary.getLast? ≠ some ' ' ∧
      ∀ c ∈ boundary, isBoundaryCharacter c = true := by
  unfold validateBoundary at h
  obtain ⟨hlength, h⟩ := ite_error_eq_ok.mp h
  obtain ⟨hcharacters, -⟩ := ite_error_eq_ok.mp h
  rw [not_or] at hlength hcharacters
  exact ⟨hlength.1, hcharacters.1, List.all_eq_true.mp (not_not.mp hcharacters.2)⟩

/-- A boundary holds no quote, no backslash and no semicolon, and of the blanks only the space. -/
theorem plain_of_boundaryCharacter {c : Char} (h : isBoundaryCharacter c = true) :
    c ≠ '"' ∧ c ≠ '\\' ∧ c ≠ ';' ∧ (c ≠ ' ' → isWhitespace c = false) := by
  have hrange : ∀ n < 128, isBoundaryCharacter (Char.ofNat n) = true →
      Char.ofNat n ≠ '"' ∧ Char.ofNat n ≠ '\\' ∧ Char.ofNat n ≠ ';' ∧
        (Char.ofNat n ≠ ' ' → isWhitespace (Char.ofNat n) = false) := by
    decide
  -- boundary characters are ASCII, and those are checked one by one
  have hascii : c.toNat < 128 := by
    unfold isBoundaryCharacter at h
    rcases Bool.or_eq_true_iff.mp h with h | h
    · unfold Char.isAlphanum Char.isAlpha Char.isUpper Char.isLower Char.isDigit at h
      simp only [Bool.or_eq_true, Bool.and_eq_true, decide_eq_true_eq, UInt32.le_iff_toNat_le] at h
      show c.val.toNat < 128
      rcases h with (⟨-, h⟩ | ⟨-, h⟩) | ⟨-, h⟩
      · exact lt_of_le_of_lt h (by decide)
      · exact lt_of_le_of_lt h (by decide)
      · exact lt_of_le_of_lt h (by decide)
    · have hall : "'()+_,-./:=? ".toList.all (fun d => d.toNat < 128) = true := rfl
      exact of_decide_eq_true (List.all_eq_true.mp hall c (by simpa using h))
  have hchar : Char.ofNat c.toNat = c := Char.ofNat_toNat c
  rw [← hchar] at h ⊢
  exact hrange c.toNat hascii h

/-- A boundary between quotes is found, however its characters are written. -/
theorem quoted_found {boundary : Text} (hvalid : validateBoundary boundary = .ok ())
    (written : List Quotable) (hwritten : written.map Quotable.char = boundary) :
    boundaryFromContentType (mixedType (quotedText written)) = .ok boundary := by
  have hlast : (quotedText written).getLast? = some '"' := by
    unfold quotedText
    rw [← List.cons_append, List.getLast?_concat]
  apply mixedType_found
  · unfold quotedText
    show List.foldlM quoteStep (true, false) (written.flatMap Quotable.text ++ ['"']) = _
    rw [List.foldlM_append, foldlM_quotable]
    rfl
  · exact List.cons_ne_nil _ _
  · intro c hc
    cases hc
    decide
  · intro c hc
    rw [hlast] at hc
    cases hc
    decide
  · rw [unquoteParameter_quoted, hwritten]
  · exact hvalid

/-- A field without quotes, escapes and separators. -/
theorem whole_of_plain {field : Text} (h : ∀ c ∈ field, c ≠ '"' ∧ c ≠ '\\' ∧ c ≠ ';') :
    Whole field := by
  unfold Whole
  induction field with
  | nil => rfl
  | cons c field ih =>
    obtain ⟨hquote, hescape, hsplit⟩ := h c List.mem_cons_self
    have hstep : quoteStep (false, false) c = some (false, false) := by
      unfold quoteStep
      dsimp only
      rw [if_neg (fun h => hescape h.1), if_neg hquote, if_neg (fun h => hsplit h.1)]
    rw [List.foldlM_cons, hstep]
    exact ih fun d hd => h d (List.mem_cons_of_mem _ hd)

/-- A boundary without quotes is found unless it starts with a blank. -/
theorem bare_found {boundary : Text} (hvalid : validateBoundary boundary = .ok ())
    (hfirst : boundary.head? ≠ some ' ') :
    boundaryFromContentType (mixedType boundary) = .ok boundary := by
  obtain ⟨hsome, hend, hcharacters⟩ := validBoundary hvalid
  have hplain : ∀ c ∈ boundary, c ≠ '"' ∧ c ≠ '\\' ∧ c ≠ ';' ∧
      (c ≠ ' ' → isWhitespace c = false) := by
    intro c hc
    exact plain_of_boundaryCharacter (hcharacters c hc)
  apply mixedType_found
  · apply whole_of_plain
    intro c hc
    obtain ⟨hquote, hescape, hsplit, -⟩ := hplain c hc
    exact ⟨hquote, hescape, hsplit⟩
  · exact hsome
  · -- it starts and ends with no blank, so that it survives the trim
    intro c hc
    refine (hplain c (List.mem_of_mem_head? hc)).2.2.2 ?_
    rintro rfl
    exact hfirst hc
  · intro c hc
    refine (hplain c (List.mem_of_mem_getLast? hc)).2.2.2 ?_
    rintro rfl
    exact hend hc
  · unfold unquoteParameter
    rw [if_pos]
    intro hquote
    exact (hplain '"' (List.mem_of_mem_head? hquote)).1 rfl
  · exact hvalid

/-- **Every valid boundary is read back**: in each of its quoted forms, and as it stands when it
does not begin with a space. -/
theorem boundary_round_trip (boundary : Text) (hvalid : validateBoundary boundary = .ok ()) :
    (∀ written : List Quotable, written.map Quotable.char = boundary →
      boundaryFromContentType (mixedType (quotedText written)) = .ok boundary) ∧
    (boundary.head? ≠ some ' ' → boundaryFromContentType (mixedType boundary) = .ok boundary) :=
  ⟨quoted_found hvalid, bare_found hvalid⟩

/-- A boundary with a space in it, quoted with an escape and bare. -/
theorem boundary_round_trip_spaced :
    boundaryFromContentType "multipart/mixed; boundary=\"a \\b\"".toList = .ok "a b".toList ∧
      boundaryFromContentType "multipart/mixed; boundary=a b".toList = .ok "a b".toList := by
  have hvalid : validateBoundary "a b".toList = .ok () := by decide
  obtain ⟨hquoted, hbare⟩ := boundary_round_trip "a b".toList hvalid
  exact ⟨hquoted [⟨'a', false, by decide⟩, ⟨' ', false, by decide⟩, ⟨'b', true, by decide⟩] rfl,
    hbare (by decide)⟩

end Qwen3Tts.Bench
