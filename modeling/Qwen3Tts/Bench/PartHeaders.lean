import Qwen3Tts.Bench.Head
import Qwen3Tts.Bench.Multipart
import Qwen3Tts.Server.Response

/-!
# Bench — the parts that the server writes

`multipart.rs` of the server, as the client meets it: a part is its boundary line, a header block, a
payload and, at the end of a response, the closing boundary (`encode_part`). The block ends at its
first blank line (`firstAt_headerBlock`) and the client's parser makes of it the headers that were
written (`parsePartHeaders_block`), with the length of the payload among them
(`payloadLength_received`).
-/

namespace Qwen3Tts.Bench

open Qwen3Tts.Lib Qwen3Tts.Server

/-! ## The texts of the encoder -/

/-- The server's bytes are the UTF-8 text. -/
theorem asBytes_eq (text : String) : Server.asBytes text = utf8 text.toList := by
  have hbytes : (utf8 text.toList).toByteArray = text.toList.utf8Encode := rfl
  have htext : text.toUTF8 = (utf8 text.toList).toByteArray := by
    rw [hbytes, ← String.toByteArray_ofList, String.ofList_toList]
    rfl
  rw [Server.asBytes, htext, toList_eq_data, List.toList_data_toByteArray]

/-! ## Numbers -/

/-- A number is written with digits, at least one. -/
theorem digits_toString (n : Nat) :
    (toString n).toList ≠ [] ∧ ∀ c ∈ (toString n).toList, c.isDigit = true := by
  have hdigits : (toString n).toList = Nat.toDigits 10 n := Nat.toList_repr
  rw [hdigits]
  exact ⟨Nat.toDigits_ne_nil, fun c hc => Nat.isDigit_of_mem_toDigits (by decide) (by decide) hc⟩

/-- A decimal digit has its value. -/
theorem toDigit_of_isDigit {c : Char} (h : c.isDigit = true) :
    toDigit 10 c = some (c.toNat - '0'.toNat) := by
  unfold Char.isDigit at h
  rw [Bool.and_eq_true, decide_eq_true_iff, decide_eq_true_iff] at h
  have hrange : '0' ≤ c ∧ c ≤ '9' := h
  have hvalue : c.toNat - '0'.toNat < 10 := by
    have hhigh : c.toNat ≤ 57 := h.2
    show c.toNat - 48 < 10
    omega
  unfold toDigit
  dsimp only
  rw [if_pos hrange, if_pos hvalue]

/-- A length is read back. -/
theorem fromStrRadix_toString {n : Nat} (h : n < 2 ^ 64) :
    fromStrRadix 10 64 (toString n).toList = some n := by
  have hdigits : (toString n).toList = Nat.toDigits 10 n := Nat.toList_repr
  -- both fold over the digits from the left
  have hvalue : numeral 10 ((Nat.toDigits 10 n).map fun c => c.toNat - '0'.toNat) = n := by
    have hread := @Nat.ofDigitChars_ten_toDigits n
    rw [Nat.ofDigitChars_eq_foldl] at hread
    rw [numeral, List.foldl_map]
    simp only [Nat.mul_comm 10] at hread
    exact hread
  have hnumeral := @fromStrRadix_numeral Char (Nat.toDigits 10 n) id
    (fun c => c.toNat - '0'.toNat) 10 64 (by decide) Nat.toDigits_ne_nil
    (fun c hc => toDigit_of_isDigit (Nat.isDigit_of_mem_toDigits (by decide) (by decide) hc))
    (fun c hc heq => by
      have hdigit := Nat.isDigit_of_mem_toDigits (by decide) (by decide) hc
      rw [show c = '+' from heq] at hdigit
      exact absurd hdigit (by decide))
    (by rw [hvalue]; exact h)
  rw [List.map_id, hvalue] at hnumeral
  rw [hdigits]
  exact hnumeral

/-! ## The header block -/

/-- The headers of a part as the encoder writes them. -/
def writtenHeaders (serialize : Server.Part → Bytes) (p : Server.Part) : List (Text × Text) :=
  (("Content-Type", p.contentType)
    :: ("Content-Length", toString (p.payload serialize).length)
    :: p.headers).map fun header => (header.1.toList, header.2.toList)

/-- The headers as the reader returns them. -/
def receivedHeaders (serialize : Server.Part → Bytes) (p : Server.Part) : List (Text × Text) :=
  (writtenHeaders serialize p).map fun header => (lowercase header.1, header.2)

/-- A header as it is written. -/
def headerLine (header : Text × Text) : Text := header.1 ++ ':' :: ' ' :: header.2

/-- A header without blanks in its value. -/
structure PlainHeader (header : Text × Text) : Prop where
  name_ne : header.1 ≠ []
  name_token : ∀ c ∈ header.1, tokenChar c = true
  value_ne : header.2 ≠ []
  value_plain : ∀ c ∈ header.2, isWhitespace c = false

/-- It is a line of the block, and not the empty one. -/
theorem PlainHeader.line_ok {header : Text × Text} (h : PlainHeader header) :
    headerLine header ≠ [] ∧ '\r' ∉ headerLine header := by
  have hblank : ∀ c ∈ [' '], blank c = true := by
    intro c hc
    rw [List.mem_singleton.mp hc]
    decide
  have hreturn : '\r' ∉ header.2 := by
    intro hmem
    have hplain := h.value_plain _ hmem
    revert hplain
    decide
  let field : Field := ⟨header.1, [' '], header.2, [], h.name_ne, h.name_token, hblank,
    fun c hc => absurd hc List.not_mem_nil, hreturn⟩
  have hfield : field.line = headerLine header := by
    show header.1 ++ ':' :: ([' '] ++ header.2 ++ []) = _
    rw [List.append_nil]
    rfl
  rw [← hfield]
  exact field.line_ok

/-- A header with a new name is added under its lower-case name. -/
theorem parsePartHeaderLine_plain {header : Text × Text} (h : PlainHeader header)
    {headers : List (Text × Text)} (hnew : lowercase header.1 ∉ headers.map Prod.fst) :
    MultipartReader.parsePartHeaderLine headers (headerLine header)
      = .ok (headers ++ [(lowercase header.1, header.2)]) := by
  have hcolon : ':' ∉ header.1 := fun hmem =>
    not_tokenChar (h.name_token _ hmem) (by decide) rfl
  -- a name does not start like a continuation
  have hfolded : ¬ ((headerLine header).head? = some ' ' ∨
      (headerLine header).head? = some '\t') := by
    obtain ⟨c, name, hname⟩ := List.exists_cons_of_ne_nil h.name_ne
    have hc : tokenChar c = true := by
      apply h.name_token
      rw [hname]
      exact List.mem_cons_self
    rw [headerLine, hname]
    rintro (h | h)
    · exact not_tokenChar hc (by decide) (Option.some.inj h)
    · exact not_tokenChar hc (by decide) (Option.some.inj h)
  -- the blank behind the colon is trimmed
  have hvalue : trimText (' ' :: header.2) = header.2 := by
    have htrim := @trimText_blanks [' '] header.2 [] (by
      intro c hc
      rw [List.mem_singleton.mp hc]
      decide) (fun c hc => absurd hc List.not_mem_nil) h.value_plain h.value_ne
    rw [List.append_nil] at htrim
    exact htrim
  have hfresh : ¬ (assoc headers (lowercase header.1)).isSome = true := by
    rw [assoc_isSome]
    exact hnew
  rw [MultipartReader.parsePartHeaderLine, failIf_of_not hfolded, ok_bind, headerLine,
    splitOnce_cons hcolon]
  dsimp only
  rw [failIf_of_not hfresh, ok_bind, hvalue]
  rfl

theorem foldlM_plain {written headers : List (Text × Text)}
    (hplain : ∀ header ∈ written, PlainHeader header)
    (hnodup : (headers.map Prod.fst ++ written.map fun header => lowercase header.1).Nodup) :
    (written.map headerLine).foldlM MultipartReader.parsePartHeaderLine headers
      = .ok (headers ++ written.map fun header => (lowercase header.1, header.2)) := by
  induction written generalizing headers with
  | nil =>
    rw [List.map_nil, List.map_nil, List.append_nil]
    rfl
  | cons header written ih =>
    rw [List.map_cons, List.append_cons] at hnodup
    have hnew : lowercase header.1 ∉ headers.map Prod.fst := by
      intro hmem
      have hfront := (List.nodup_append.mp (List.nodup_append.mp hnodup).1).2.2
      exact hfront _ hmem _ (List.mem_singleton_self _) rfl
    have hrest : ((headers ++ [(lowercase header.1, header.2)]).map Prod.fst
        ++ written.map fun header => lowercase header.1).Nodup := by
      rw [List.map_append]
      exact hnodup
    rw [List.map_cons, List.foldlM_cons, parsePartHeaderLine_plain
      (hplain header List.mem_cons_self) hnew, ok_bind,
      ih (fun h hh => hplain h (List.mem_cons_of_mem _ hh)) hrest, List.append_assoc]
    rfl

/-- The integers of a packet are within their types. -/
def Typed : Server.Part → Prop
  | .audio packet => packet.sequence < 2 ^ 64 ∧ packet.firstCodecFrame < 2 ^ 64
      ∧ packet.firstSample < 2 ^ 64 ∧ packet.codecFrames < 2 ^ 32 ∧ packet.sampleCount < 2 ^ 32
  | _ => True

/-- A plain header of a bounded length. -/
def ShortHeader (header : Text × Text) : Prop :=
  PlainHeader header ∧ header.1.length ≤ 20 ∧ header.2.length ≤ 50

theorem isWhitespace_of_isDigit {c : Char} (h : c.isDigit = true) : isWhitespace c = false := by
  unfold Char.isDigit at h
  rw [Bool.and_eq_true, decide_eq_true_iff, decide_eq_true_iff] at h
  have hlow : 48 ≤ c.toNat := h.1
  have hhigh : c.toNat ≤ 57 := h.2
  simp only [isWhitespace, Bool.or_eq_false_iff, Bool.and_eq_false_iff, decide_eq_false_iff_not,
    beq_eq_false_iff_ne]
  omega

theorem shortHeader_text {name value : String}
    (h : (name.toList ≠ [] ∧ name.toList.all tokenChar = true ∧ name.toList.length ≤ 20) ∧
      value.toList ≠ [] ∧ value.toList.all (fun c => !isWhitespace c) = true ∧
        value.toList.length ≤ 50) : ShortHeader (name.toList, value.toList) := by
  obtain ⟨⟨hname, htoken, hshort⟩, hvalue, hplain, hlength⟩ := h
  refine ⟨⟨hname, List.all_eq_true.mp htoken, hvalue, fun c hc => ?_⟩, hshort, hlength⟩
  have hc' := List.all_eq_true.mp hplain c hc
  cases hspace : isWhitespace c with
  | false => rfl
  | true =>
    rw [hspace] at hc'
    cases hc'

theorem shortHeader_number {name : String} {n : Nat} (hn : n < 2 ^ 64)
    (h : name.toList ≠ [] ∧ name.toList.all tokenChar = true ∧ name.toList.length ≤ 20) :
    ShortHeader (name.toList, (toString n).toList) := by
  obtain ⟨hne, hdigits⟩ := digits_toString n
  have hlength : (toString n).toList.length ≤ 20 := by
    have hlist : (toString n).toList = Nat.toDigits 10 n := Nat.toList_repr
    rw [hlist, Nat.length_toDigits_le_iff (by decide) (by decide)]
    omega
  refine ⟨⟨h.1, List.all_eq_true.mp h.2.1, hne, fun c hc => ?_⟩, h.2.2, ?_⟩
  · exact isWhitespace_of_isDigit (hdigits c hc)
  · show (toString n).toList.length ≤ 50
    omega

theorem writtenHeaders_short {serialize : Server.Part → Bytes} {p : Server.Part} (h : Typed p)
    (hlength : (p.payload serialize).length < 2 ^ 64) :
    ∀ header ∈ writtenHeaders serialize p, ShortHeader header := by
  have hjson : ShortHeader ("Content-Type".toList, "application/json".toList) :=
    shortHeader_text (by decide)
  have hcount : ShortHeader ("Content-Length".toList,
      (toString (p.payload serialize).length).toList) := shortHeader_number hlength (by decide)
  cases p with
  | audio packet =>
    obtain ⟨hsequence, hframe, hsample, hframes, hsamples⟩ := h
    have hfinal : ShortHeader ("X-Final".toList, (toString packet.isFinal).toList) := by
      cases packet.isFinal
      · exact shortHeader_text (by decide)
      · exact shortHeader_text (by decide)
    intro header hmem
    simp only [writtenHeaders, Server.Part.contentType, Server.Part.headers, List.map_cons,
      List.map_nil, List.mem_cons, List.not_mem_nil, or_false] at hmem
    rcases hmem with rfl | rfl | rfl | rfl | rfl | rfl | rfl | rfl
    · exact shortHeader_text (by decide)
    · exact hcount
    · exact shortHeader_number hsequence (by decide)
    · exact shortHeader_number hframe (by decide)
    · exact shortHeader_number hsample (by decide)
    · exact shortHeader_number (Nat.lt_trans hsamples (by decide)) (by decide)
    · exact shortHeader_number (Nat.lt_trans hframes (by decide)) (by decide)
    · exact hfinal
  | start | finish | error =>
    intro header hmem
    simp only [writtenHeaders, Server.Part.contentType, Server.Part.headers, List.map_cons,
      List.map_nil, List.mem_cons, List.not_mem_nil, or_false] at hmem
    rcases hmem with rfl | rfl
    · exact hjson
    · exact hcount

/-- No header is written twice. -/
theorem writtenHeaders_nodup (serialize : Server.Part → Bytes) (p : Server.Part) :
    ((writtenHeaders serialize p).map fun header => lowercase header.1).Nodup := by
  cases p with
  | audio | start | finish | error =>
    simp only [writtenHeaders, Server.Part.headers, List.map_cons, List.map_nil]
    decide

/-- The header block of a part, without the blank line. -/
def headerBlock (serialize : Server.Part → Bytes) (p : Server.Part) : Bytes :=
  utf8 (List.intercalate ['\r', '\n'] ((writtenHeaders serialize p).map headerLine))

/-- The reader parses the block to the headers that were written. -/
theorem parsePartHeaders_block {serialize : Server.Part → Bytes} {p : Server.Part} (h : Typed p)
    (hlength : (p.payload serialize).length < 2 ^ 64) :
    MultipartReader.parsePartHeaders (headerBlock serialize p)
      = .ok (receivedHeaders serialize p) := by
  have hplain : ∀ header ∈ writtenHeaders serialize p, PlainHeader header := fun header hmem =>
    (writtenHeaders_short h hlength header hmem).1
  have hlines : ∀ line ∈ (writtenHeaders serialize p).map headerLine, '\r' ∉ line := by
    intro line hmem
    obtain ⟨header, hheader, rfl⟩ := List.mem_map.mp hmem
    exact (hplain header hheader).line_ok.2
  have hsplit : splitCrLf (List.intercalate ['\r', '\n']
      ((writtenHeaders serialize p).map headerLine))
      = (writtenHeaders serialize p).map headerLine := by
    apply splitCrLf_intercalate
    · exact hlines _ List.mem_cons_self
    · exact fun line hmem => hlines line (List.mem_cons_of_mem _ hmem)
  rw [MultipartReader.parsePartHeaders, headerBlock, fromUtf8_utf8]
  dsimp only
  rw [hsplit]
  exact foldlM_plain hplain (writtenHeaders_nodup serialize p)

/-- The blank line stands behind the block and nowhere before. -/
theorem firstAt_headerBlock {serialize : Server.Part → Bytes} {p : Server.Part} (h : Typed p)
    (hlength : (p.payload serialize).length < 2 ^ 64) :
    firstAt headEnd (headerBlock serialize p ++ headEnd)
      = some (headerBlock serialize p).length := by
  have hlines : ∀ line ∈ (writtenHeaders serialize p).map headerLine,
      line ≠ [] ∧ '\r' ∉ line := by
    intro line hmem
    obtain ⟨header, hheader, rfl⟩ := List.mem_map.mp hmem
    exact (writtenHeaders_short h hlength header hheader).1.line_ok
  have hplace := @firstAt_intercalate _ _ [] hlines
  rw [List.append_nil] at hplace
  exact hplace

/-- A character takes at most four bytes. -/
theorem length_utf8_le (text : Text) : (utf8 text).length ≤ 4 * text.length := by
  induction text with
  | nil => exact Nat.zero_le _
  | cons c text ih =>
    have hsize := c.utf8Size_le_four
    rw [utf8, List.flatMap_cons, List.length_append, String.length_utf8EncodeChar,
      List.length_cons]
    rw [utf8] at ih
    omega

/-- Lines of a bounded length. -/
theorem length_intercalate_le {lines : List Text} {bound : Nat}
    (hlines : ∀ line ∈ lines, line.length ≤ bound) :
    (List.intercalate ['\r', '\n'] lines).length ≤ lines.length * (bound + 2) := by
  induction lines with
  | nil => exact Nat.zero_le _
  | cons line lines ih =>
    have hline := hlines line List.mem_cons_self
    have hrest := ih fun l hl => hlines l (List.mem_cons_of_mem line hl)
    rw [List.length_cons, Nat.succ_mul]
    cases lines with
    | nil =>
      rw [List.intercalate_singleton]
      omega
    | cons next lines =>
      rw [List.intercalate_cons_cons, List.length_append, List.length_append]
      show line.length + 2 + _ ≤ _
      omega

/-- The header block is not too long for the client. -/
theorem length_headerBlock {serialize : Server.Part → Bytes} {p : Server.Part} (h : Typed p)
    (hlength : (p.payload serialize).length < 2 ^ 64) :
    (headerBlock serialize p).length + headEnd.length ≤ maxPartHeaderBytes := by
  have hlines : ∀ line ∈ (writtenHeaders serialize p).map headerLine, line.length ≤ 72 := by
    intro line hmem
    obtain ⟨header, hheader, rfl⟩ := List.mem_map.mp hmem
    obtain ⟨-, hname, hvalue⟩ := writtenHeaders_short h hlength header hheader
    rw [headerLine, List.length_append, List.length_cons, List.length_cons]
    omega
  have hcount : ((writtenHeaders serialize p).map headerLine).length ≤ 8 := by
    cases p with
    | audio | start | finish | error =>
      simp only [writtenHeaders, Server.Part.headers, List.map_cons, List.map_nil,
        List.length_cons, List.length_nil]
      omega
  have hfour : headEnd.length = 4 := rfl
  have hmaximum : maxPartHeaderBytes = 65536 := rfl
  have hbytes := length_utf8_le
    (List.intercalate ['\r', '\n'] ((writtenHeaders serialize p).map headerLine))
  have htext := length_intercalate_le hlines
  rw [headerBlock]
  omega

/-- The declared length is that of the payload. -/
theorem payloadLength_received {serialize : Server.Part → Bytes} {p : Server.Part}
    (hlength : (p.payload serialize).length ≤ maxPartPayloadBytes) :
    MultipartReader.payloadLength (receivedHeaders serialize p)
      = .ok (p.payload serialize).length := by
  have hmaximum : maxPartPayloadBytes = 536870912 := rfl
  have hvalue : assoc (receivedHeaders serialize p) "content-length".toList
      = some (toString (p.payload serialize).length).toList := by
    have hother : "content-length".toList ≠ lowercase "Content-Type".toList := by decide
    have hname : "content-length".toList = lowercase "Content-Length".toList := by decide
    have hsecond : ∀ {k k' x v v' : Text} {headers : List (Text × Text)}, x ≠ k → x = k' →
        assoc ((k, v) :: (k', v') :: headers) x = some v' := by
      intro k k' x v v' headers hne heq
      rw [assoc, if_neg hne, assoc, if_pos heq]
    rw [receivedHeaders, writtenHeaders, List.map_cons, List.map_cons, List.map_cons,
      List.map_cons]
    dsimp only
    exact hsecond hother hname
  rw [MultipartReader.payloadLength, hvalue]
  dsimp only
  rw [fromStrRadix_toString (by omega)]
  dsimp only
  rw [failIf_of_not (by omega), ok_bind]
  rfl

/-! ## A part in bytes -/

/-- Lines in bytes. -/
theorem utf8_lines {line : Text} {lines : List Text} :
    utf8 (List.intercalate ['\r', '\n'] (line :: lines)) ++ crlf
      = (line :: lines).flatMap fun l => utf8 l ++ crlf := by
  induction lines generalizing line with
  | nil =>
    rw [List.intercalate_singleton]
    exact (List.append_nil _).symm
  | cons next lines ih =>
    rw [List.intercalate_cons_cons, List.flatMap_cons, ← ih, utf8_append, utf8_append,
      utf8_crlf]
    simp only [List.append_assoc]

/-- A header in bytes. -/
theorem utf8_headerLine (name value : String) :
    Server.asBytes name ++ Server.asBytes ": " ++ Server.asBytes value ++ Server.asBytes "\r\n"
      = utf8 (headerLine (name.toList, value.toList)) ++ crlf := by
  have hcolon : (": " : String).toList = [':', ' '] := by decide
  have hbreak : utf8 ("\r\n" : String).toList = crlf := by decide
  rw [asBytes_eq, asBytes_eq, asBytes_eq, asBytes_eq, hbreak, hcolon, ← utf8_append, ← utf8_append]
  congr 2
  rw [headerLine, List.append_assoc]
  rfl

/-- The line before a part, and the one behind the last part. -/
def boundaryLine (boundary : Text) : Bytes := utf8 ("--".toList ++ boundary)

def closingBoundaryLine (boundary : Text) : Bytes :=
  utf8 ("--".toList ++ boundary ++ "--".toList)

/-- A part behind its boundary line. -/
def partBody (serialize : Server.Part → Bytes) (p : Server.Part) : Bytes :=
  headerBlock serialize p ++ headEnd ++ (p.payload serialize ++ crlf)

/-- What the server writes for a part, in the client's terms. -/
theorem encode_part (serialize : Server.Part → Bytes) (boundary : String) (p : Server.Part) :
    p.encode serialize boundary = boundaryLine boundary.toList ++ crlf ++ (partBody serialize p
      ++ if p.close then closingBoundaryLine boundary.toList ++ crlf else []) := by
  have hbreak : utf8 ("\r\n" : String).toList = crlf := by decide
  -- the boundary lines
  have hopen : Server.asBytes s!"--{boundary}\r\n" = boundaryLine boundary.toList ++ crlf := by
    rw [asBytes_eq, boundaryLine, ← hbreak, ← utf8_append]
    congr 1
    show ("--" ++ boundary ++ "\r\n").toList = _
    rw [String.toList_append, String.toList_append]
  have hclose : Server.asBytes s!"--{boundary}--\r\n"
      = closingBoundaryLine boundary.toList ++ crlf := by
    rw [asBytes_eq, closingBoundaryLine, ← hbreak, ← utf8_append]
    congr 1
    show ("--" ++ boundary ++ "--\r\n").toList = _
    rw [String.toList_append, String.toList_append, List.append_assoc _ "--".toList]
    rfl
  -- and the headers, each of them a line
  have hheader : ∀ (name value : String), Server.asBytes (name ++ ": " ++ value ++ "\r\n")
      = utf8 (headerLine (name.toList, value.toList)) ++ crlf := by
    intro name value
    rw [← utf8_headerLine]
    simp only [asBytes_eq, String.toList_append, utf8_append]
  have htype : Server.asBytes s!"Content-Type: {p.contentType}\r\n"
      = utf8 (headerLine ("Content-Type".toList, p.contentType.toList)) ++ crlf :=
    hheader "Content-Type" p.contentType
  have hlength : Server.asBytes s!"Content-Length: {(p.payload serialize).length}\r\n"
      = utf8 (headerLine ("Content-Length".toList,
        (toString (p.payload serialize).length).toList)) ++ crlf :=
    hheader "Content-Length" (toString (p.payload serialize).length)
  have hblock : headerBlock serialize p ++ headEnd
      = utf8 (headerLine ("Content-Type".toList, p.contentType.toList)) ++ crlf
        ++ (utf8 (headerLine ("Content-Length".toList,
          (toString (p.payload serialize).length).toList)) ++ crlf)
        ++ p.headers.flatMap (fun header =>
          utf8 (headerLine (header.1.toList, header.2.toList)) ++ crlf)
        ++ crlf := by
    have hends : headEnd = crlf ++ crlf := rfl
    rw [headerBlock, hends, ← List.append_assoc, writtenHeaders, List.map_cons, List.map_cons,
      List.map_cons, List.map_cons, utf8_lines, List.flatMap_cons, List.flatMap_cons,
      List.map_map, List.flatMap_map]
    simp only [List.append_assoc, Function.comp_apply]
  rw [Server.Part.encode, hopen, htype, hlength, hclose]
  simp only [utf8_headerLine]
  rw [asBytes_eq "\r\n", hbreak, partBody, hblock]
  simp only [List.append_assoc]

end Qwen3Tts.Bench
