import Qwen3Tts.Bench.Delivered
import Qwen3Tts.Bench.Head

/-!
# Bench — decoding inverts every framing

A `Response` is a head with a body in one of the three framings that the head announces, and
`Response.bytes` writes it. Whatever the reads of the socket are, `read_head` and the loop over
`next_segment` give the body back, and on a stream that stops early they report an error
(`decodes_every_framing`). The head has to keep within `MAX_HEADER_BYTES`: a longer one is refused
by some reads (`long_head_refused`).
-/

namespace Qwen3Tts.Bench

open Qwen3Tts.Lib Qwen3Tts.Server

/-! ## Chunked messages -/

/-- A size in hexadecimal, blanks, and an extension behind `;`. -/
structure ChunkLine (size : Nat) where
  digits : List (Fin 16 × Bool)
  pad : Text
  extension : Option Bytes
  digits_ne : digits ≠ []
  value : numeral 16 (digits.map fun d => d.1.1) = size
  pad_blank : ∀ c ∈ pad, blank c = true
  extension_line : ∀ e ∈ extension, 0x0d ∉ e

/-- The line in front of a chunk. -/
def ChunkLine.line {size : Nat} (l : ChunkLine size) : Bytes :=
  utf8 (l.digits.map hexDigit ++ l.pad) ++ match l.extension with
    | none => []
    | some e => 0x3b :: e

structure BodyChunk where
  data : Bytes
  size : ChunkLine data.length
  data_ne : data ≠ []
  short : size.line.length < maxChunkLineBytes

structure ChunkedMessage where
  chunks : List BodyChunk
  last : ChunkLine 0
  trailers : List Bytes
  last_short : last.line.length < maxChunkLineBytes
  trailer_field : ∀ trailer ∈ trailers,
    0x0d ∉ trailer ∧ trailer.length < maxHeaderBytes ∧ 0x3a ∈ trailer

def ChunkedMessage.body (message : ChunkedMessage) : Bytes := message.chunks.flatMap BodyChunk.data

def ChunkedMessage.payload (message : ChunkedMessage) : Bytes :=
  message.chunks.flatMap (fun chunk => chunk.size.line ++ crlf ++ (chunk.data ++ crlf))
    ++ (message.last.line ++ crlf ++ (message.trailers.flatMap (· ++ crlf) ++ crlf))

/-- A digit is none of the characters that end the size. -/
theorem hexDigit_ok (d : Fin 16 × Bool) :
    isWhitespace (hexDigit d) = false ∧ hexDigit d ≠ '\r' ∧ hexDigit d ≠ ';' ∧
      hexDigit d ≠ '+' := by
  have hall : ∀ (n : Fin 16) (upper : Bool), isWhitespace (hexDigit (n, upper)) = false ∧
      hexDigit (n, upper) ≠ '\r' ∧ hexDigit (n, upper) ≠ ';' ∧ hexDigit (n, upper) ≠ '+' := by
    decide
  exact hall d.1 d.2

/-- The decoder reads the size of every such line. -/
theorem ChunkLine.sizeLine {size : Nat} (l : ChunkLine size)
    (hshort : l.line.length < maxChunkLineBytes) (hsize : size < 2 ^ 64) :
    HttpBody.SizeLine l.line size := by
  -- a character that is neither a digit nor blank is not in front of the extension
  have hout : ∀ {c : Char}, (∀ d, hexDigit d ≠ c) → blank c = false →
      c ∉ l.digits.map hexDigit ++ l.pad := by
    intro c hdigit hblank hmem
    rcases List.mem_append.mp hmem with hmem | hmem
    · obtain ⟨d, _, hd⟩ := List.mem_map.mp hmem
      exact hdigit d hd
    · exact not_mem_of_blank l.pad_blank hblank hmem
  have hreturn : 0x0d ∉ utf8 (l.digits.map hexDigit ++ l.pad) :=
    not_mem_utf8 (by decide) (by decide)
      (hout (c := '\r') (fun d => (hexDigit_ok d).2.1) (by decide))
  have hsemicolon : 0x3b ∉ utf8 (l.digits.map hexDigit ++ l.pad) :=
    not_mem_utf8 (by decide) (by decide)
      (hout (c := ';') (fun d => (hexDigit_ok d).2.2.1) (by decide))
  refine ⟨?_, hshort, ?_⟩
  · intro hmem
    rcases List.mem_append.mp hmem with hmem | hmem
    · exact hreturn hmem
    · cases hextension : l.extension with
      | none =>
        rw [hextension] at hmem
        exact List.not_mem_nil hmem
      | some e =>
        rw [hextension] at hmem
        rcases List.mem_cons.mp hmem with heq | hmem
        · exact absurd heq (by decide)
        · exact l.extension_line e hextension hmem
  · -- the size is what stands in front of the semicolon
    have htoken : l.line.takeWhile (· ≠ 0x3b) = utf8 (l.digits.map hexDigit ++ l.pad) := by
      have hfront : ∀ byte ∈ utf8 (l.digits.map hexDigit ++ l.pad),
          decide (byte ≠ 0x3b) = true :=
        fun byte hbyte => decide_eq_true fun heq => hsemicolon (heq ▸ hbyte)
      rw [ChunkLine.line, List.takeWhile_append_of_pos hfront]
      cases l.extension with
      | none => exact List.append_nil _
      | some e =>
        dsimp only
        rw [List.takeWhile_cons_of_neg (by decide), List.append_nil]
    have hdigits : ∀ c ∈ l.digits.map hexDigit, isWhitespace c = false := by
      intro c hc
      obtain ⟨d, _, rfl⟩ := List.mem_map.mp hc
      exact (hexDigit_ok d).1
    -- without the padding it is the digits
    have htrim : trimText (l.digits.map hexDigit ++ l.pad) = l.digits.map hexDigit :=
      trimText_blanks (fun c hc => absurd hc List.not_mem_nil) l.pad_blank hdigits
        fun hnil => l.digits_ne (List.map_eq_nil_iff.mp hnil)
    have hnumber : fromStrRadix 16 64 (l.digits.map hexDigit) = some size := by
      rw [fromStrRadix_numeral (by decide) l.digits_ne (fun d _ => toDigit_hexDigit d)
        (fun d _ => (hexDigit_ok d).2.2.2) (by rw [l.value]; exact hsize), l.value]
    rw [HttpBody.parseChunkSize, htoken, fromUtf8_utf8]
    dsimp only
    rw [htrim, hnumber]

/-! ## Responses -/

inductive Framing where
  | contentLength (body : Bytes)
  | chunked (message : ChunkedMessage)
  | closeDelimited (body : Bytes)

namespace Framing

def body : Framing → Bytes
  | contentLength body => body
  | chunked message => message.body
  | closeDelimited body => body

def payload : Framing → Bytes
  | contentLength body => body
  | chunked message => message.payload
  | closeDelimited body => body

/-- The head says which framing follows. -/
def Announced (head : Head) : Framing → Prop
  | contentLength body => head.named "transfer-encoding".toList = [] ∧
      ∃ field, head.named "content-length".toList = [field] ∧
      ∃ digits : List (Fin 10), digits ≠ [] ∧ field.value = digits.map decimalDigit ∧
        numeral 10 (digits.map Fin.val) = body.length
  | chunked _ => head.named "content-length".toList = [] ∧
      ∃ field, head.named "transfer-encoding".toList = [field] ∧
        lowercase field.value = "chunked".toList
  | closeDelimited _ => head.named "transfer-encoding".toList = [] ∧
      head.named "content-length".toList = []

def mode : Framing → TransferMode
  | contentLength body => .contentLength body.length
  | chunked _ => .chunked .size
  | closeDelimited _ => .closeDelimited

end Framing

structure Response where
  head : Head
  framing : Framing
  announced : framing.Announced head
  /-- `response_bytes` is a `u64`. -/
  counted : head.block.length + framing.payload.length < 2 ^ 64

def Response.bytes (r : Response) : Bytes := r.head.block ++ r.framing.payload

/-- `READ_BUFFER_BYTES`. -/
def readBufferBytes : Nat := 16 * 1024

/-- A division of bytes into the reads of a socket. -/
def Segmentation (stream : List TimedBytes) (bytes : Bytes) : Prop :=
  (∀ read ∈ stream, read.bytes ≠ []) ∧ stream.flatMap TimedBytes.bytes = bytes

/-- A writing of `chunked` has neither blanks nor commas. -/
theorem mem_chunked {value : Text} (h : lowercase value = "chunked".toList) :
    ∀ c ∈ value, isWhitespace c = false ∧ (c == ',') = false := by
  have hall : ∀ n < 128, (Char.ofNat n).toLower ∈ "chunked".toList →
      isWhitespace (Char.ofNat n) = false ∧ (Char.ofNat n == ',') = false := by
    decide
  have hletters : ("chunked".toList.all fun c => c.toNat < 128) = true := by decide
  intro c hc
  have hlower : c.toLower ∈ "chunked".toList := by
    rw [← h]
    exact List.mem_map_of_mem hc
  have hascii : c.toNat < 128 := by
    by_cases hupper : 'A'.val ≤ c.val ∧ c.val ≤ 'Z'.val
    · have hrange := UInt32.le_iff_toNat_le.mp hupper.2
      have hlast : 'Z'.val.toNat < 128 := by decide
      exact Nat.lt_of_le_of_lt hrange hlast
    · have hsame : c.toLower = c := dif_neg hupper
      rw [hsame] at hlower
      exact of_decide_eq_true (List.all_eq_true.mp hletters c hlower)
  have hchar := hall c.toNat hascii
  rw [Char.ofNat_toNat] at hchar
  exact hchar hlower

/-- `chunked`, in any case, as the only coding. -/
theorem selectTransfer_chunked {parsed : ResponseHead} {value : Text}
    (hcoding : parsed.header "transfer-encoding".toList = some value)
    (hlength : parsed.header "content-length".toList = none)
    (hvalue : lowercase value = "chunked".toList) :
    selectTransfer parsed = .ok (.chunked .size) := by
  have hmem := mem_chunked hvalue
  have hsome : value ≠ [] := by
    rintro rfl
    exact absurd hvalue (by decide)
  have htrim : trimText value = value := by
    have hblanks := @trimText_blanks [] value [] (fun c hc => absurd hc List.not_mem_nil)
      (fun c hc => absurd hc List.not_mem_nil) (fun c hc => (hmem c hc).1) hsome
    rw [List.nil_append, List.append_nil] at hblanks
    exact hblanks
  -- the value is a list of one item
  have hcodings : ((value.splitOnP (· == ',')).map fun item => lowercase (trimText item))
      = ["chunked".toList] := by
    rw [List.splitOnP_eq_singleton fun c hc => (hmem c hc).2, List.map_singleton, htrim, hvalue]
  have hboth : ¬ ((some value : Option Text).isSome = true ∧ (none : Option Text).isSome = true) :=
    fun h => absurd h.2 (by decide)
  have hsupported : ¬ (["chunked".toList].getLast? ≠ some "chunked".toList ∨
      ∃ coding ∈ ["chunked".toList], coding ≠ "chunked".toList) := by
    rintro (h | ⟨coding, hcoding, hne⟩)
    · exact h rfl
    · exact hne (List.mem_singleton.mp hcoding)
  unfold selectTransfer
  dsimp only
  rw [hcoding, hlength, failIf_of_not hboth, ok_bind]
  dsimp only
  rw [hcodings, failIf_of_not hsupported]
  rfl

/-- A value without blanks is kept. -/
theorem Field.entry_value {field : Field} (hvalue : ∀ c ∈ field.value, isWhitespace c = false)
    (hsome : field.value ≠ []) : field.entry.2 = field.value :=
  trimText_blanks field.before_blank field.after_blank hvalue hsome

/-- The client reads the framing that the head announces. -/
theorem Response.select (r : Response) :
    ∃ parsed, parseHead r.head.block = .ok parsed ∧
      selectTransfer parsed = .ok r.framing.mode := by
  have hparsed := r.head.parseHead_block
  refine ⟨_, hparsed, ?_⟩
  generalize (⟨_, _⟩ : ResponseHead) = parsed at hparsed
  have hcounted := r.counted
  have hannounced := r.announced
  -- each framing has its own header, or none
  cases hframing : r.framing with
  | contentLength body =>
    rw [hframing] at hannounced hcounted
    obtain ⟨hcoding, field, hfield, digits, hdigits, hvalue, hnumber⟩ := hannounced
    have hcoding := Head.header_absent hparsed (by decide) hcoding
    have hlength := Head.header_single hparsed (by decide) hfield
    have hbody : body.length < 2 ^ 64 := by
      have hpayload : body.length = (Framing.contentLength body).payload.length := rfl
      omega
    have hentry : field.entry.2 = digits.map decimalDigit := by
      rw [← hvalue]
      apply Field.entry_value
      · intro c hc
        rw [hvalue] at hc
        obtain ⟨d, _, rfl⟩ := List.mem_map.mp hc
        exact (decimalDigit_ok d).1
      · rw [hvalue]
        exact fun hnil => hdigits (List.map_eq_nil_iff.mp hnil)
    have hnumber : fromStrRadix 10 64 (digits.map decimalDigit) = some body.length := by
      rw [fromStrRadix_numeral (by decide) hdigits (fun d _ => toDigit_decimalDigit d)
        (fun d _ => (decimalDigit_ok d).2.2) (by rw [hnumber]; exact hbody), hnumber]
    rw [hentry] at hlength
    have hboth : ¬ ((none : Option Text).isSome = true ∧
        (some (digits.map decimalDigit) : Option Text).isSome = true) :=
      fun h => absurd h.1 (by decide)
    unfold selectTransfer
    dsimp only
    rw [hcoding, hlength, failIf_of_not hboth, ok_bind]
    dsimp only
    rw [hnumber]
    rfl
  | chunked message =>
    rw [hframing] at hannounced
    obtain ⟨hlength, field, hfield, hvalue⟩ := hannounced
    have hlength := Head.header_absent hparsed (by decide) hlength
    have hcoding := Head.header_single hparsed (by decide) hfield
    rw [Field.entry_value (fun c hc => (mem_chunked hvalue c hc).1) (by
      rintro hnil
      rw [hnil] at hvalue
      exact absurd hvalue (by decide))] at hcoding
    exact selectTransfer_chunked hcoding hlength hvalue
  | closeDelimited body =>
    rw [hframing] at hannounced
    have hcoding := Head.header_absent hparsed (by decide) hannounced.1
    have hlength := Head.header_absent hparsed (by decide) hannounced.2
    have hboth : ¬ ((none : Option Text).isSome = true ∧ (none : Option Text).isSome = true) :=
      fun h => absurd h.1 (by decide)
    unfold selectTransfer
    dsimp only
    rw [hcoding, hlength, failIf_of_not hboth]
    rfl

/-! ## Decoding -/

/-- Before the first read the buffer is empty. -/
theorem Segmentation.holds {stream : List TimedBytes} {bytes : Bytes}
    (h : Segmentation stream bytes) :
    (⟨stream, .default, 0⟩ : Incoming).Holds [] (stream.map TimedBytes.bytes) := by
  refine ⟨Buffered.empty, rfl, fun read hread => ?_⟩
  obtain ⟨timed, htimed, rfl⟩ := List.mem_map.mp hread
  exact h.1 timed htimed

/-- `read_head` on a stream that holds the head, or ends within it. -/
theorem Response.readHead (r : Response) (hhead : r.head.block.length ≤ maxHeaderBytes)
    {stream : List TimedBytes} {bytes missing : Bytes} (hwhole : bytes ++ missing = r.bytes)
    (hstream : Segmentation stream bytes) :
    (∃ parsed b payload, readHead stream = .ok (parsed, b) ∧ b.Pending payload ∧
      payload ++ missing = r.framing.payload ∧ b.transfer = r.framing.mode) ∨
    (Reported (readHead stream) ∧ missing ≠ []) := by
  have hflat : [] ++ (stream.map TimedBytes.bytes).flatten = bytes := hstream.2
  have htaken := headBlock_search hstream.holds
  rw [hflat] at htaken
  have hplace : firstAt headEnd (bytes ++ missing) = some (r.head.block.length - 4) := by
    rw [hwhole]
    exact r.head.firstAt_block r.framing.payload
  have hfour : headEnd.length = 4 := rfl
  have hblock : r.head.block.length - 4 + 4 = r.head.block.length := by
    have hlength : r.head.block.length = (utf8 r.head.text).length + 4 := List.length_append
    omega
  have harrived := firstAt_arrived hplace (by decide)
  rw [hfour, hblock] at harrived
  -- all of the head has arrived, or the stream ends within it
  by_cases hle : r.head.block.length ≤ bytes.length
  · left
    rw [if_pos hle] at harrived
    have hsearch : search headEnd (fun _ => False) (maxHeaderBytes ≤ ·) []
        (stream.map TimedBytes.bytes) = some (r.head.block.length - 4) := by
      rw [search_eq_some (by decide), hflat]
      refine ⟨harrived, id, fun stop _ hstop => ?_⟩
      rw [hfour, hblock] at hstop
      omega
    rw [hsearch] at htaken
    obtain ⟨s, content, reads, hread, hholds, hrest⟩ := htaken
    obtain ⟨payload, hsplit, hpayload⟩ := HttpBody.split_front hwhole.symm hle
    obtain ⟨parsed, hparsed, hselect⟩ := r.select
    dsimp only at hread hrest
    rw [hblock, hsplit, List.take_left] at hread
    rw [hblock, hsplit, List.drop_left] at hrest
    refine ⟨parsed, ⟨s, r.framing.mode, false⟩, payload, ?_, ?_, hpayload.symm, rfl⟩
    · unfold Bench.readHead
      rw [hread, ok_bind]
      dsimp only
      rw [hparsed, ok_bind, hselect]
      rfl
    · exact ⟨content, reads, ⟨hholds, fun h => absurd h Bool.false_ne_true⟩, hrest.symm⟩
  · right
    rw [if_neg hle] at harrived
    constructor
    · cases hsearch : search headEnd (fun _ => False) (maxHeaderBytes ≤ ·) []
          (stream.map TimedBytes.bytes) with
      | none =>
        rw [hsearch] at htaken
        exact Reported.bind htaken _
      | some p =>
        rw [search_eq_some (by decide), hflat, harrived] at hsearch
        cases hsearch.1
    · rintro rfl
      rw [List.append_nil] at hwhole
      rw [hwhole, Response.bytes, List.length_append] at hle
      omega

/-- A chunk is no longer than the message. -/
theorem ChunkedMessage.length_data_le {message : ChunkedMessage} {chunk : BodyChunk}
    (h : chunk ∈ message.chunks) : chunk.data.length ≤ message.payload.length := by
  obtain ⟨before, after, hchunks⟩ := List.append_of_mem h
  rw [payload, hchunks, List.flatMap_append, List.flatMap_cons]
  simp only [List.length_append]
  omega

/-- The body of a response, on a stream that may end within it. -/
theorem Response.delivers (r : Response) {b : HttpBody} {bytes missing : Bytes}
    (hmode : b.transfer = r.framing.mode) (hpending : b.Pending bytes)
    (hwhole : bytes ++ missing = r.framing.payload)
    (hclose : (∃ body, r.framing = .closeDelimited body) → missing = []) :
    b.Delivers r.framing.body missing [] := by
  have hcounted := r.counted
  cases hframing : r.framing with
  | contentLength body =>
    rw [hframing] at hmode hwhole
    exact HttpBody.delivers_contentLength hpending hwhole hmode
  | closeDelimited body =>
    rw [hframing] at hmode hwhole
    have hmissing := hclose ⟨body, hframing⟩
    subst hmissing
    rw [List.append_nil] at hwhole
    rw [hwhole] at hpending
    exact HttpBody.delivers_closeDelimited hpending hmode
  | chunked message =>
    rw [hframing] at hmode hwhole hcounted
    -- every chunk of the message has a line that fits and data
    have hchunks : ∀ chunk ∈ message.chunks.map fun chunk => (chunk.size.line, chunk.data),
        HttpBody.SizeLine chunk.1 chunk.2.length ∧ chunk.2 ≠ [] := by
      intro chunk hchunk
      obtain ⟨c, hc, rfl⟩ := List.mem_map.mp hchunk
      have hfits := ChunkedMessage.length_data_le hc
      have hpayload : message.payload.length = (Framing.chunked message).payload.length := rfl
      exact ⟨c.size.sizeLine c.short (by omega), c.data_ne⟩
    have hlast := message.last.sizeLine message.last_short (by decide)
    have hdecodes := HttpBody.decodes_chunks hchunks hlast message.trailer_field
    rw [List.flatMap_map, List.flatMap_map] at hdecodes
    apply HttpBody.delivers_of_answers
    have hcall : b.nextSegment = { b with transfer := .contentLength 0 }.nextChunked .size := by
      simp only [HttpBody.nextSegment, hmode, Framing.mode]
    rw [hcall]
    exact hdecodes (hpending.transfer _) hwhole

/-- The loop over `next_segment` behind `read_head`. -/
def CollectsFrom (stream : List TimedBytes) (r : Except Failure (List TimedBytes)) : Prop :=
  (∃ parsed b fuel, readHead stream = .ok (parsed, b) ∧
    loop HttpBody.collectBody fuel ([], b) = some r) ∨
  ∃ failure, readHead stream = .error failure ∧ r = .error failure

/-- **Decoding inverts every framing.** For a head within the limit and any reads: on the whole
response the segments join to the body, and on a proper front of a response whose framing has an
end, `read_head` or the loop reports an error. -/
theorem decodes_every_framing (r : Response) :
    (r.head.block.length ≤ maxHeaderBytes → ∀ stream, Segmentation stream r.bytes →
      ∃ segments, CollectsFrom stream (.ok segments) ∧
        segments.flatMap TimedBytes.bytes = r.framing.body) ∧
    (r.head.block.length ≤ maxHeaderBytes → (∀ body, r.framing ≠ .closeDelimited body) →
      ∀ stream bytes missing, bytes ++ missing = r.bytes → missing ≠ [] →
        Segmentation stream bytes → ∃ result, CollectsFrom stream result ∧ Reported result) := by
  constructor
  · intro hhead stream hstream
    -- nothing is missing
    rcases r.readHead hhead (List.append_nil r.bytes) hstream with
      ⟨parsed, b, payload, hread, hpending, hpayload, hmode⟩ | ⟨_, hmissing⟩
    · obtain ⟨fuel, result, hloop, hresult⟩ := r.delivers hmode hpending hpayload fun _ => rfl
      rw [if_pos rfl] at hresult
      obtain ⟨segments, hsegments, hjoined⟩ := hresult
      rw [hsegments] at hloop
      exact ⟨segments, Or.inl ⟨parsed, b, fuel, hread, hloop⟩, hjoined⟩
    · exact absurd rfl hmissing
  · intro hhead hclose stream bytes missing hwhole hmissing hstream
    -- the cut is behind the head or within it
    rcases r.readHead hhead hwhole hstream with
      ⟨parsed, b, payload, hread, hpending, hpayload, hmode⟩ | ⟨hreported, _⟩
    · obtain ⟨fuel, result, hloop, hresult⟩ := r.delivers hmode hpending hpayload
        fun h => h.elim fun body hbody => absurd hbody (hclose body)
      rw [if_neg hmissing] at hresult
      exact ⟨result, Or.inl ⟨parsed, b, fuel, hread, hloop⟩, hresult⟩
    · obtain ⟨e, he⟩ := hreported
      exact ⟨.error (.error e), Or.inr ⟨.error e, he, rfl⟩, e, rfl⟩

/-- Two chunks with an extension, blanks and leading zeros, and a trailer. -/
def trailedMessage : ChunkedMessage where
  chunks := [
    ⟨[0x0d, 0x0a, 0x30], ⟨[(0, false), (3, false)], [' '], some (utf8 "name=x".toList),
      by decide, rfl, List.all_eq_true.mp (by decide), by decide⟩, by decide, by decide⟩,
    ⟨[0x71], ⟨[(1, false)], [], none, by decide, rfl, List.all_eq_true.mp (by decide),
      by decide⟩, by decide, by decide⟩]
  last := ⟨[(0, true), (0, false)], [], none, by decide, rfl, List.all_eq_true.mp (by decide),
    by decide⟩
  trailers := [utf8 "X-Sum: 1".toList]
  last_short := by decide
  trailer_field := by decide

/-- Such a response, with a head of its own. -/
def trailedResponse : Response where
  head := {
    version := "HTTP/1.1".toList
    status := [2, 0, 0]
    reason := "OK".toList
    fields := [⟨"Transfer-Encoding".toList, [' '], "Chunked".toList, [], by decide,
      List.all_eq_true.mp (by decide), List.all_eq_true.mp (by decide),
      List.all_eq_true.mp (by decide), by decide⟩]
    version_eq := Or.inr rfl
    status_length := rfl
    reason_line := by decide }
  framing := .chunked trailedMessage
  announced := ⟨rfl, _, rfl, by decide⟩
  counted := by decide

/-- A read for each byte. -/
def byteReads (bytes : Bytes) : List TimedBytes := bytes.map fun byte => ⟨[byte], 0⟩

/-- Byte by byte. -/
theorem segmentation_byteReads (bytes : Bytes) : Segmentation (byteReads bytes) bytes := by
  constructor
  · intro read hread
    obtain ⟨byte, -, rfl⟩ := List.mem_map.mp hread
    exact List.cons_ne_nil _ _
  · rw [byteReads, List.flatMap_map]
    exact List.flatMap_singleton' bytes

/-- That response, byte by byte, whole and without its last byte. -/
theorem decodes_trailed :
    (∃ segments, CollectsFrom (byteReads trailedResponse.bytes) (.ok segments) ∧
      segments.flatMap TimedBytes.bytes = [0x0d, 0x0a, 0x30, 0x71]) ∧
    ∃ result, CollectsFrom (byteReads trailedResponse.bytes.dropLast) result ∧
      Reported result := by
  have hhead : trailedResponse.head.block.length ≤ maxHeaderBytes := by decide
  have hsome : trailedResponse.bytes ≠ [] := by decide
  obtain ⟨hwhole, hcut⟩ := decodes_every_framing trailedResponse
  exact ⟨hwhole hhead _ (segmentation_byteReads _), hcut hhead (fun body h => by cases h) _ _ _
    (List.dropLast_append_getLast hsome) (List.cons_ne_nil _ _) (segmentation_byteReads _)⟩

/-! ## Heads beyond the limit -/

/-- A read that stops behind the limit and within the head. -/
theorem Response.readHead_refused (r : Response) {stream : List TimedBytes}
    (hstream : Segmentation stream r.bytes) {stop : Nat}
    (hstop : stop ∈ stops 0 (stream.map TimedBytes.bytes)) (hlong : maxHeaderBytes ≤ stop)
    (hshort : stop < r.head.block.length) : Reported (Bench.readHead stream) := by
  have htaken := headBlock_search hstream.holds
  -- a search that found the end of the head would have met the stop before it
  cases hsearch : search headEnd (fun _ => False) (maxHeaderBytes ≤ ·) []
      (stream.map TimedBytes.bytes) with
  | none =>
    rw [hsearch] at htaken
    exact Reported.bind htaken _
  | some p =>
    obtain ⟨hplace, _, hstops⟩ := (search_eq_some (by decide)).mp hsearch
    have hflat : [] ++ (stream.map TimedBytes.bytes).flatten = r.bytes := hstream.2
    have hblock : firstAt headEnd r.bytes = some (r.head.block.length - 4) :=
      r.head.firstAt_block r.framing.payload
    rw [hflat, hblock] at hplace
    cases hplace
    have hlength : r.head.block.length = (utf8 r.head.text).length + 4 := List.length_append
    have hfour : headEnd.length = 4 := rfl
    exact absurd hlong (hstops stop hstop (by omega))

/-- The filler of the long head is ASCII. -/
theorem utf8_replicate (n : Nat) : utf8 (List.replicate n 'a') = List.replicate n 0x61 := by
  induction n with
  | zero => rfl
  | succ n ih =>
    show String.utf8EncodeChar 'a' ++ utf8 (List.replicate n 'a') = _
    rw [ih]
    rfl

/-- A head with a field of `n` bytes. -/
def longHead (n : Nat) : Head where
  version := "HTTP/1.1".toList
  status := [2, 0, 0]
  reason := "OK".toList
  fields := [
    ⟨"Content-Length".toList, [' '], ['0'], [], by decide, List.all_eq_true.mp (by decide),
      List.all_eq_true.mp (by decide), List.all_eq_true.mp (by decide), by decide⟩,
    ⟨"X".toList, [' '], List.replicate n 'a', [], by decide, List.all_eq_true.mp (by decide),
      List.all_eq_true.mp (by decide), List.all_eq_true.mp (by decide),
      fun h => absurd (List.eq_of_mem_replicate h) (by decide)⟩]
  version_eq := Or.inr rfl
  status_length := rfl
  reason_line := by decide

/-- The length of the long head. -/
theorem length_longHead (n : Nat) : (longHead n).block.length = 43 + n := by
  have htext : (longHead n).text
      = "HTTP/1.1 200 OK\r\nContent-Length: 0\r\nX: ".toList ++ List.replicate n 'a' := by
    show List.intercalate ['\r', '\n'] ["HTTP/1.1 200 OK".toList, "Content-Length: 0".toList,
      "X".toList ++ ':' :: ([' '] ++ List.replicate n 'a' ++ [])] = _
    rw [List.intercalate_cons_cons, List.intercalate_cons_cons, List.intercalate_singleton,
      List.append_nil]
    rfl
  have hfront : (utf8 "HTTP/1.1 200 OK\r\nContent-Length: 0\r\nX: ".toList).length = 39 := by
    decide
  rw [Head.block, htext, utf8_append, utf8_replicate, List.length_append, List.length_append,
    hfront, List.length_replicate]
  show 39 + n + 4 = 43 + n
  omega

/-- A response with that head. -/
def longResponse (n : Nat) (hn : n < 2 ^ 63) : Response where
  head := longHead n
  framing := .contentLength []
  announced := ⟨rfl, _, rfl, [0], List.cons_ne_nil _ _, rfl, rfl⟩
  counted := by
    rw [length_longHead]
    show 43 + n + 0 < 2 ^ 64
    omega

/-- The reads of full buffers. -/
def fullReads (bytes : Bytes) : Nat → List TimedBytes
  | 0 => [⟨bytes, 0⟩]
  | n + 1 => ⟨bytes.take readBufferBytes, 0⟩ :: fullReads (bytes.drop readBufferBytes) n

section
variable {bytes : Bytes} {n : Nat}

/-- The full reads are the bytes. -/
theorem flatMap_fullReads : (fullReads bytes n).flatMap TimedBytes.bytes = bytes := by
  induction n generalizing bytes with
  | zero => exact List.append_nil bytes
  | succ n ih => rw [fullReads, List.flatMap_cons, ih, List.take_append_drop]

/-- Every read but the last is full. -/
theorem mem_fullReads (h : n * readBufferBytes < bytes.length)
    (hlast : bytes.length ≤ (n + 1) * readBufferBytes) :
    ∀ read ∈ fullReads bytes n, read.bytes ≠ [] ∧ read.bytes.length ≤ readBufferBytes := by
  -- by induction on the number of full reads
  induction n generalizing bytes with
  | zero =>
    intro read hread
    rw [List.mem_singleton.mp hread]
    rw [Nat.zero_mul] at h
    rw [Nat.zero_add, Nat.one_mul] at hlast
    exact ⟨List.ne_nil_of_length_pos h, hlast⟩
  | succ n ih =>
    rw [Nat.succ_mul] at h hlast
    have hlong : readBufferBytes ≤ bytes.length := by omega
    have hpos : 0 < readBufferBytes := by decide
    intro read hread
    rcases List.mem_cons.mp hread with rfl | hread
    · have htake : (bytes.take readBufferBytes).length = readBufferBytes :=
        List.length_take_of_le hlong
      exact ⟨List.ne_nil_of_length_pos (by rw [htake]; exact hpos), Nat.le_of_eq htake⟩
    · apply ih _ _ read hread
      · rw [List.length_drop]
        omega
      · rw [List.length_drop]
        omega

/-- After some full reads there is a stop. -/
theorem mem_stops_fullReads {k start : Nat} (hk : k ≤ n) (h : n * readBufferBytes < bytes.length) :
    start + k * readBufferBytes
      ∈ stops start ((fullReads bytes n).map TimedBytes.bytes) := by
  induction k generalizing bytes n start with
  | zero =>
    rw [Nat.zero_mul, Nat.add_zero]
    cases n with
    | zero => exact List.mem_cons_self
    | succ n => exact List.mem_cons_self
  | succ k ih =>
    cases n with
    | zero => omega
    | succ n =>
      rw [Nat.succ_mul] at h
      have htake : (bytes.take readBufferBytes).length = readBufferBytes :=
        List.length_take_of_le (by omega)
      have hdrop : n * readBufferBytes < (bytes.drop readBufferBytes).length := by
        rw [List.length_drop]
        omega
      have hrest := @ih (bytes.drop readBufferBytes) n (start + readBufferBytes) (by omega) hdrop
      have hsum : start + (k + 1) * readBufferBytes
          = start + readBufferBytes + k * readBufferBytes := by
        rw [Nat.succ_mul]
        omega
      apply List.mem_cons_of_mem
      rw [htake, hsum]
      exact hrest

end

/-- **A head beyond the limit**, in reads of at most `READ_BUFFER_BYTES` bytes. -/
theorem long_head_refused : ∃ r : Response, ∃ stream, Segmentation stream r.bytes ∧
    (∀ read ∈ stream, read.bytes.length ≤ readBufferBytes) ∧ Reported (readHead stream) := by
  have hn : 65536 < 2 ^ 63 := by decide
  have hlength : (longResponse 65536 hn).bytes.length = 43 + 65536 := by
    show ((longHead 65536).block ++ []).length = _
    rw [List.append_nil, length_longHead]
  have hmore : 4 * readBufferBytes < (longResponse 65536 hn).bytes.length := by
    rw [hlength]
    decide
  have hreads := @mem_fullReads (longResponse 65536 hn).bytes 4 hmore (by rw [hlength]; decide)
  have hstream : Segmentation (fullReads (longResponse 65536 hn).bytes 4)
      (longResponse 65536 hn).bytes := ⟨fun read hread => (hreads read hread).1, flatMap_fullReads⟩
  refine ⟨_, _, hstream, fun read hread => (hreads read hread).2, ?_⟩
  apply Response.readHead_refused _ hstream (mem_stops_fullReads (Nat.le_refl 4) hmore)
  · decide
  · show _ < (longHead 65536).block.length
    rw [length_longHead]
    decide

end Qwen3Tts.Bench
