import Qwen3Tts.Bench.Basic
import Qwen3Tts.Lib.Assoc
import Qwen3Tts.Lib.Loop
import Qwen3Tts.Server.Api

/-!
# Bench — `http.rs`

The client's reader of a response: the buffer of timed reads, the head, and the three transfer
framings. A socket is the list of its reads, and then the end of the stream; that a read itself
fails is not in the model.

Every loop of the readers lowers a measure, so that they are functions: the loops for a head, a
line or a count of bytes take a read an iteration, the loop of the chunk decoder takes bytes
(`chunkBody_decreases`). A reader that fails gives up its body: the `ContentLength(0)` that
`next_segment` leaves behind is never looked at, since every caller returns the error.
-/

namespace Qwen3Tts.Bench

open Qwen3Tts.Lib Qwen3Tts.Server

/-! ## The buffer -/

/-- `MAX_HEADER_BYTES`. -/
def maxHeaderBytes : Nat := 64 * 1024
/-- `MAX_CHUNK_LINE_BYTES`. -/
def maxChunkLineBytes : Nat := 8 * 1024

/-- `arrived` is an `Instant`. -/
structure TimedBytes where
  bytes : Bytes
  arrived : Nat
  deriving DecidableEq, Repr

structure Segment where
  bytes : Bytes
  offset : Nat
  arrived : Nat
  deriving DecidableEq, Repr

structure TimedBuffer where
  segments : List Segment
  len : Nat
  deriving DecidableEq, Repr

/-- `&segment.bytes[segment.offset..]`. -/
def Segment.unread (segment : Segment) : Bytes := segment.bytes.drop segment.offset

/-- The two nested loops run over the bytes in their order. -/
def findFrom (needle : Bytes) : Bytes → Nat → Nat → Option Nat
  | [], _, _ => none
  | byte :: bytes, matched, position =>
    if byte = needle.getD matched 0 then
      if matched + 1 = needle.length then some (position + 1 - needle.length)
      else findFrom needle bytes (matched + 1) (position + 1)
    else findFrom needle bytes (if byte = needle.getD 0 0 then 1 else 0) (position + 1)

/-- The loop of `drain_bytes`. -/
def drainLoop : List Segment → Nat → Bytes → Except Failure (List Segment × Bytes)
  | segments, 0, output => .ok (segments, output)
  | [], _ + 1, _ => .error .panic
  | front :: rest, count + 1, output =>
    let take := min (front.bytes.length - front.offset) (count + 1)
    let output := output ++ front.unread.take take
    if front.offset + take = front.bytes.length then drainLoop rest (count + 1 - take) output
    else
      -- a segment that is not used up has covered the count
      .ok ({ front with offset := front.offset + take } :: rest, output)

namespace TimedBuffer

/-- Nothing has been read. -/
def default : TimedBuffer := ⟨[], 0⟩

def push (buffer : TimedBuffer) (bytes : Bytes) (arrived : Nat) : TimedBuffer :=
  if bytes = [] then buffer
  else ⟨buffer.segments ++ [⟨bytes, 0, arrived⟩], buffer.len + bytes.length⟩

def isEmpty (buffer : TimedBuffer) : Prop := buffer.len = 0

instance (buffer : TimedBuffer) : Decidable buffer.isEmpty := inferInstanceAs (Decidable (_ = _))

def find (buffer : TimedBuffer) (needle : Bytes) : Option Nat :=
  if needle = [] then some 0 else findFrom needle (buffer.segments.flatMap Segment.unread) 0 0

def drainBytes (buffer : TimedBuffer) (count : Nat) : Except Failure (Bytes × TimedBuffer) := do
  failIf (buffer.len < count)
    (.error (.http "internal buffer underflow while draining bytes"))
  let (segments, output) ← drainLoop buffer.segments count []
  pure (output, ⟨segments, buffer.len - count⟩)

def popSegment (buffer : TimedBuffer) (maximum : Nat) : Option (TimedBytes × TimedBuffer) :=
  match buffer.segments with
  | [] => none
  | front :: rest =>
    let take := min (front.bytes.length - front.offset) maximum
    let bytes := front.unread.take take
    let segments := if front.offset + take = front.bytes.length then rest
      else { front with offset := front.offset + take } :: rest
    some (⟨bytes, front.arrived⟩, ⟨segments, buffer.len - take⟩)

end TimedBuffer

/-! ## The head -/

/-- An error of the reader. -/
def httpError (message : String) : Failure := .error (.http message)

/-- `std::str::from_utf8`. -/
def fromUtf8 (bytes : Bytes) : Option Text :=
  (ByteArray.utf8Decode? bytes.toByteArray).map Array.toList

/-- `str::trim`. -/
def trimText (text : Text) : Text :=
  ((text.dropWhile isWhitespace).reverse.dropWhile isWhitespace).reverse

/-- `str::to_ascii_lowercase`. -/
def lowercase (text : Text) : Text := text.map Char.toLower

/-- `str::split("\r\n")`. -/
def splitCrLf : Text → List Text
  | [] => [[]]
  | '\r' :: '\n' :: rest => [] :: splitCrLf rest
  | c :: rest =>
    match splitCrLf rest with
    | [] => [[c]]
    | line :: lines => (c :: line) :: lines

/-- `str::split_once`. -/
def splitOnce (separator : Char) (text : Text) : Option (Text × Text) :=
  match text.span (· ≠ separator) with
  | (_, []) => none
  | (before, _ :: after) => some (before, after)

/-- `char::to_digit`. -/
def toDigit (radix : Nat) (c : Char) : Option Nat :=
  let digit :=
    if '0' ≤ c ∧ c ≤ '9' then c.toNat - '0'.toNat
    else if 'a' ≤ c ∧ c ≤ 'z' then c.toNat - 'a'.toNat + 10
    else if 'A' ≤ c ∧ c ≤ 'Z' then c.toNat - 'A'.toNat + 10
    else radix
  if digit < radix then some digit else none

/-- `from_str_radix` of the unsigned type of `bits` bits, and `str::parse` at radix 10. -/
def fromStrRadix (radix bits : Nat) (text : Text) : Option Nat :=
  let digits := if text.head? = some '+' then text.tail else text
  if digits = [] then none
  else digits.foldlM (fun value c => do
    let digit ← toDigit radix c
    if value * radix + digit < 2 ^ bits then some (value * radix + digit) else none) 0

/-- The headers by their entries; nothing reads the order of a `BTreeMap`. -/
structure ResponseHead where
  status : Nat
  headers : List (Text × Text)
  deriving DecidableEq, Repr

def ResponseHead.header (head : ResponseHead) (name : Text) : Option Text :=
  assoc head.headers (lowercase name)

def isHeaderNameByte (byte : UInt8) : Bool :=
  (0x30 ≤ byte && byte ≤ 0x39) || (0x41 ≤ byte && byte ≤ 0x5a) || (0x61 ≤ byte && byte ≤ 0x7a)
    || (ascii "!#$%&'*+-.^_`|~").contains byte

/-- `entry(name).and_modify(..).or_insert(value)`. -/
def insertHeader (headers : List (Text × Text)) (name value : Text) : List (Text × Text) :=
  if (assoc headers name).isSome then
    modifyAt name (fun existing => existing ++ ", ".toList ++ value) headers
  else headers ++ [(name, value)]

/-- The loop over the header lines. -/
def parseHeaderLine (headers : List (Text × Text)) (line : Text) :
    Except Failure (List (Text × Text)) := do
  failIf (line.head? = some ' ' ∨ line.head? = some '\t')
    (httpError "obsolete folded response headers are rejected")
  match splitOnce ':' line with
  | none => .error (httpError "malformed response header")
  | some (name, value) =>
    failIf (name = [] ∨ (utf8 name).all isHeaderNameByte = false)
      (httpError "invalid response header name")
    pure (insertHeader headers (lowercase name) (trimText value))

def parseHead (bytes : Bytes) : Except Failure ResponseHead := do
  failIf (fromUtf8 bytes = none) (httpError "response headers are not valid ASCII/UTF-8")
  failIf (bytes.length < 4) .panic
  match fromUtf8 (bytes.take (bytes.length - 4)) with
  -- `text[..text.len() - 4]` inside a character
  | none => .error .panic
  | some text =>
    match splitCrLf text with
    | [] => .error (httpError "response status line is missing")
    | statusLine :: lines =>
      let statusFields := splitWhitespace statusLine
      let version := statusFields.head?.getD []
      failIf (version ≠ "HTTP/1.0".toList ∧ version ≠ "HTTP/1.1".toList)
        (httpError "response is not HTTP/1.0 or HTTP/1.1")
      match statusFields.tail.head? with
      | none => .error (httpError "response status is missing")
      | some field =>
        match fromStrRadix 10 16 field with
        | none => .error (httpError "response status is invalid")
        | some status => do
          let headers ← lines.foldlM parseHeaderLine []
          pure ⟨status, headers⟩

inductive ChunkState where
  | size
  | data (remaining : Nat)
  | dataCrlf
  | trailers
  | finished
  deriving DecidableEq, Repr

inductive TransferMode where
  | contentLength (remaining : Nat)
  | chunked (state : ChunkState)
  | closeDelimited
  deriving DecidableEq, Repr

def selectTransfer (head : ResponseHead) : Except Failure TransferMode := do
  let transferEncoding := head.header "transfer-encoding".toList
  let contentLength := head.header "content-length".toList
  failIf (transferEncoding.isSome = true ∧ contentLength.isSome = true)
    (httpError "ambiguous response has both Transfer-Encoding and Content-Length")
  match transferEncoding, contentLength with
  | some value, _ =>
    let codings := (value.splitOnP (· == ',')).map fun item => lowercase (trimText item)
    failIf (codings.getLast? ≠ some "chunked".toList
        ∨ ∃ coding ∈ codings, coding ≠ "chunked".toList)
      (httpError "only chunked Transfer-Encoding is supported")
    pure (.chunked .size)
  | none, some value =>
    match fromStrRadix 10 64 value with
    | none => .error (httpError "invalid Content-Length")
    | some length => pure (.contentLength length)
  | none, none => pure .closeDelimited

/-! ## Reading -/

/-- What `read_into` changes. -/
structure Incoming where
  stream : List TimedBytes
  raw : TimedBuffer
  responseBytes : Nat
  deriving DecidableEq, Repr

structure HttpBody extends Incoming where
  transfer : TransferMode
  eof : Bool
  deriving DecidableEq, Repr

/-- `read_into`: a read of no bytes is the end of the stream. -/
def Incoming.readInto (s : Incoming) : Nat × Incoming :=
  match s.stream with
  | [] => (0, s)
  | read :: stream =>
    (read.bytes.length,
      ⟨stream, s.raw.push read.bytes read.arrived, s.responseBytes + read.bytes.length⟩)

/-- A read that gives bytes takes one from the stream. -/
theorem Incoming.readInto_decreases {s : Incoming} (h : s.readInto.1 ≠ 0) :
    s.readInto.2.stream.length < s.stream.length := by
  unfold readInto at *
  split at h
  · exact absurd rfl h
  · rename_i read stream heq
    rw [heq]
    exact Nat.lt_succ_self stream.length

/-- `b"\r\n"`. -/
def crlf : Bytes := [0x0d, 0x0a]
/-- `b"\r\n\r\n"`. -/
def headEnd : Bytes := crlf ++ crlf

/-- An iteration of `read_head` up to the bytes of the head. -/
def headBody (s : Incoming) : Except Failure (Bytes × Incoming) ⊕ Incoming :=
  match s.raw.find headEnd with
  | some position => .inl (do
      let (bytes, raw) ← s.raw.drainBytes (position + 4)
      pure (bytes, { s with raw }))
  | none =>
    if maxHeaderBytes ≤ s.raw.len then
      .inl (.error (httpError s!"response headers exceed {maxHeaderBytes} bytes"))
    else if s.readInto.1 = 0 then
      .inl (.error (httpError "connection closed before response headers completed"))
    else .inr s.readInto.2

/-- The loop over the head reads in every turn but the last. -/
theorem headBody_decreases (s s' : Incoming) (h : headBody s = .inr s') :
    s'.stream.length < s.stream.length := by
  unfold headBody at h
  split at h
  · cases h
  · split at h
    · cases h
    · split at h
      · cases h
      · rename_i hcount
        cases h
        exact Incoming.readInto_decreases hcount

def headBlock : Incoming → Except Failure (Bytes × Incoming) :=
  loopResult headBody (fun s => s.stream.length) headBody_decreases

def readHead (stream : List TimedBytes) : Except Failure (ResponseHead × HttpBody) := do
  let (bytes, incoming) ← headBlock ⟨stream, .default, 0⟩
  let head ← parseHead bytes
  let transfer ← selectTransfer head
  pure (head, ⟨incoming, transfer, false⟩)

namespace HttpBody

def readMore (b : HttpBody) : HttpBody :=
  if b.eof = true then b
  else { b with toIncoming := b.toIncoming.readInto.2, eof := b.toIncoming.readInto.1 = 0 }

/-- The same for the body, -/
theorem readMore_decreases {b : HttpBody} (h : ¬ b.readMore.eof = true) :
    b.readMore.stream.length < b.stream.length := by
  unfold readMore at *
  split at h
  · exact absurd ‹b.eof = true› h
  · rw [if_neg ‹¬ b.eof = true›]
    exact Incoming.readInto_decreases fun hzero => h (decide_eq_true hzero)

def exactBody (count : Nat) (b : HttpBody) : Except Failure (Bytes × HttpBody) ⊕ HttpBody :=
  if b.raw.len < count then
    if b.readMore.eof = true then
      .inl (.error (httpError "connection closed inside transfer framing"))
    else .inr b.readMore
  else .inl (do
    let (bytes, raw) ← b.raw.drainBytes count
    pure (bytes, { b with raw }))

/-- for the loop over a number of bytes -/
theorem exactBody_decreases (count : Nat) (b b' : HttpBody) (h : exactBody count b = .inr b') :
    b'.stream.length < b.stream.length := by
  unfold exactBody at h
  split at h
  · split at h
    · cases h
    · cases h
      exact readMore_decreases ‹_›
  · cases h

def readRawExact (count : Nat) : HttpBody → Except Failure (Bytes × HttpBody) :=
  loopResult (exactBody count) (fun b => b.stream.length) (exactBody_decreases count)

def lineBody (maximum : Nat) (b : HttpBody) : Except Failure (Bytes × HttpBody) ⊕ HttpBody :=
  match b.raw.find crlf with
  | some position =>
    if maximum < position then
      .inl (.error (httpError s!"transfer framing line exceeds {maximum} bytes"))
    else .inl (do
      let (line, raw) ← b.raw.drainBytes (position + 2)
      pure (line.take position, { b with raw }))
  | none =>
    if maximum < b.raw.len then
      .inl (.error (httpError s!"transfer framing line exceeds {maximum} bytes"))
    else if b.readMore.eof = true then
      .inl (.error (httpError "connection closed inside transfer framing line"))
    else .inr b.readMore

/-- and for the one over a line. -/
theorem lineBody_decreases (maximum : Nat) (b b' : HttpBody) (h : lineBody maximum b = .inr b') :
    b'.stream.length < b.stream.length := by
  unfold lineBody at h
  split at h
  · split at h <;> cases h
  · split at h
    · cases h
    · split at h
      · cases h
      · cases h
        exact readMore_decreases ‹_›

def readRawLine (maximum : Nat) : HttpBody → Except Failure (Bytes × HttpBody) :=
  loopResult (lineBody maximum) (fun b => b.stream.length) (lineBody_decreases maximum)

/-! ### The bytes that are left -/

/-- The bytes that no reader has taken yet. -/
def left (b : HttpBody) : Nat := b.raw.len + (b.stream.map fun read => read.bytes.length).sum

end HttpBody

/-- Pushing adds the bytes. -/
theorem TimedBuffer.len_push {buffer : TimedBuffer} {bytes : Bytes} {arrived : Nat} :
    (buffer.push bytes arrived).len = buffer.len + bytes.length := by
  unfold push
  split
  · rename_i hempty
    rw [hempty, List.length_nil, Nat.add_zero]
  · rfl

/-- Draining removes as many bytes as it was asked for. -/
theorem TimedBuffer.len_drainBytes {buffer raw : TimedBuffer} {count : Nat} {bytes : Bytes}
    (h : buffer.drainBytes count = .ok (bytes, raw)) : raw.len + count = buffer.len := by
  unfold drainBytes at h
  obtain ⟨_, hfits, h⟩ := bind_eq_ok.mp h
  rw [failIf_eq_ok] at hfits
  obtain ⟨_, _, h⟩ := bind_eq_ok.mp h
  cases h
  show buffer.len - count + count = buffer.len
  omega

namespace HttpBody

/-- A read moves bytes from the stream into the buffer. -/
theorem left_readMore {b : HttpBody} : b.readMore.left = b.left := by
  unfold readMore
  split
  · rfl
  · unfold left Incoming.readInto
    cases hstream : b.stream with
    | nil => simp only [hstream]
    | cons read stream =>
      simp only [TimedBuffer.len_push, List.map_cons, List.sum_cons]
      omega

/-- A turn that does not find the line reads on. -/
theorem lineBody_next {b b' : HttpBody} {maximum : Nat} (h : lineBody maximum b = .inr b') :
    b' = b.readMore := by
  unfold lineBody at h
  split at h
  · split at h <;> cases h
  · split at h
    · cases h
    · split at h <;> cases h
      rfl

/-- A line takes its own end with it. -/
theorem left_readRawLine {b b' : HttpBody} {maximum : Nat} {line : Bytes}
    (h : b.readRawLine maximum = .ok (line, b')) : b'.left + 2 ≤ b.left := by
  unfold readRawLine at h
  refine loopResult_induction (fun a : HttpBody => a.left = b.left)
    (fun r : Except Failure (Bytes × HttpBody) =>
      ∀ line b', r = .ok (line, b') → b'.left + 2 ≤ b.left) ?_ ?_ rfl line b' h
  · intro a next ha hnext
    rw [lineBody_next hnext, left_readMore, ha]
  · intro a r ha hdone line b' hr
    subst hr
    unfold lineBody at hdone
    split at hdone
    · rename_i position _
      split at hdone
      · cases hdone
      · obtain ⟨⟨bytes, raw⟩, hdrain, heq⟩ := bind_eq_ok.mp (Sum.inl.inj hdone)
        cases heq
        have hlen := TimedBuffer.len_drainBytes hdrain
        unfold left at *
        dsimp only
        omega
    · split at hdone
      · cases hdone
      · split at hdone <;> cases hdone

/-- Bytes that were read are gone. -/
theorem left_readRawExact {b b' : HttpBody} {count : Nat} {bytes : Bytes}
    (h : b.readRawExact count = .ok (bytes, b')) : b'.left + count ≤ b.left := by
  unfold readRawExact at h
  refine loopResult_induction (fun a : HttpBody => a.left = b.left)
    (fun r : Except Failure (Bytes × HttpBody) =>
      ∀ bytes b', r = .ok (bytes, b') → b'.left + count ≤ b.left) ?_ ?_ rfl bytes b' h
  · intro a next ha hnext
    unfold exactBody at hnext
    split at hnext
    · split at hnext <;> cases hnext
      rw [left_readMore, ha]
    · cases hnext
  · intro a r ha hdone bytes b' hr
    subst hr
    unfold exactBody at hdone
    split at hdone
    · split at hdone <;> cases hdone
    · obtain ⟨⟨taken, raw⟩, hdrain, heq⟩ := bind_eq_ok.mp (Sum.inl.inj hdone)
      cases heq
      have hlen := TimedBuffer.len_drainBytes hdrain
      unfold left at *
      dsimp only
      omega

/-! ### Segments -/

/-- `expect("a non-empty raw buffer yields a segment")`. -/
def takeSegment (b : HttpBody) (maximum : Nat) (transfer : Nat → TransferMode) :
    Except Failure (Option TimedBytes × HttpBody) :=
  match b.raw.popSegment maximum with
  | none => .error .panic
  | some (segment, raw) =>
    .ok (some segment, { b with raw, transfer := transfer segment.bytes.length })

/-- A read where nothing is buffered; the end of the stream is an error. -/
def fill (b : HttpBody) (message : String) : Except Failure HttpBody :=
  if b.raw.isEmpty then
    if b.readMore.eof = true then .error (httpError message) else .ok b.readMore
  else .ok b

def nextContentLength (b : HttpBody) (remaining : Nat) :
    Except Failure (Option TimedBytes × HttpBody) :=
  if remaining = 0 then do
    failIf (¬ b.raw.isEmpty) (httpError "bytes remain after the declared Content-Length")
    pure (none, { b with transfer := .contentLength 0 })
  else do
    let b ← b.fill "connection closed before Content-Length bytes arrived"
    b.takeSegment remaining fun taken => .contentLength (remaining - taken)

def nextCloseDelimited (b : HttpBody) : Except Failure (Option TimedBytes × HttpBody) :=
  let popped (b : HttpBody) : Option TimedBytes × HttpBody :=
    match b.raw.popSegment (2 ^ 64 - 1) with
    | none => (none, { b with transfer := .closeDelimited })
    | some (segment, raw) => (some segment, { b with raw, transfer := .closeDelimited })
  if b.raw.isEmpty then
    if b.readMore.eof = true then .ok (none, { b.readMore with transfer := .closeDelimited })
    else .ok (popped b.readMore)
  else .ok (popped b)

/-- The size in front of a line's first `;`. -/
def parseChunkSize (line : Bytes) : Except Failure Nat :=
  match fromUtf8 (line.takeWhile (· ≠ 0x3b)) with
  | none => .error (httpError "chunk size is not ASCII")
  | some token =>
    match fromStrRadix 16 64 (trimText token) with
    | none => .error (httpError "chunk size is not valid hexadecimal")
    | some size => .ok size

/-- An iteration of `next_chunked`. -/
def chunkStep : ChunkState → HttpBody →
    Except Failure ((Option TimedBytes × HttpBody) ⊕ (ChunkState × HttpBody))
  | .size, b => do
    let (line, b) ← b.readRawLine maxChunkLineBytes
    let size ← parseChunkSize line
    pure (.inr (if size = 0 then .trailers else .data size, b))
  | .data remaining, b =>
    if remaining = 0 then pure (.inr (.dataCrlf, b))
    else do
      let b ← b.fill "connection closed inside a chunk"
      let result ← b.takeSegment remaining fun taken => .chunked (.data (remaining - taken))
      pure (.inl result)
  | .dataCrlf, b => do
    let (bytes, b) ← b.readRawExact 2
    failIf (bytes ≠ crlf) (httpError "chunk data is not followed by CRLF")
    pure (.inr (.size, b))
  | .trailers, b => do
    let (line, b) ← b.readRawLine maxHeaderBytes
    if line = [] then pure (.inr (.finished, b))
    else do
      failIf (0x3a ∉ line) (httpError "malformed chunk trailer field")
      pure (.inr (.trailers, b))
  | .finished, b => do
    failIf (¬ b.raw.isEmpty) (httpError "bytes remain after the chunked message terminator")
    pure (.inl (none, { b with transfer := .chunked .finished }))

def chunkBody (s : ChunkState × HttpBody) :
    Except Failure (Option TimedBytes × HttpBody) ⊕ (ChunkState × HttpBody) :=
  match chunkStep s.1 s.2 with
  | .error e => .inl (.error e)
  | .ok (.inl result) => .inl (.ok result)
  | .ok (.inr next) => .inr next

/-- A state counts by the bytes that are left; only the empty data state takes none. -/
def chunkMeasure (s : ChunkState × HttpBody) : Nat :=
  2 * s.2.left + match s.1 with
    | .data _ => 1
    | _ => 0

/-- Every step of the chunked reader takes bytes, or goes on to a state without any. -/
theorem chunkBody_decreases (s s' : ChunkState × HttpBody) (h : chunkBody s = .inr s') :
    chunkMeasure s' < chunkMeasure s := by
  obtain ⟨state, b⟩ := s
  have hstep : chunkStep state b = .ok (.inr s') := by
    unfold chunkBody at h
    split at h
    · cases h
    · cases h
    · cases h
      assumption
  unfold chunkMeasure
  -- each state takes bytes or goes on to a later state
  cases state with
  | size =>
    obtain ⟨⟨line, b₁⟩, hline, hstep⟩ := bind_eq_ok.mp hstep
    obtain ⟨size, _, hstep⟩ := bind_eq_ok.mp hstep
    have hleft := left_readRawLine hline
    cases hstep
    dsimp only
    split <;> omega
  | data remaining =>
    rw [chunkStep] at hstep
    split at hstep
    · cases hstep
      dsimp only
      omega
    · obtain ⟨b₁, _, hstep⟩ := bind_eq_ok.mp hstep
      obtain ⟨result, _, hstep⟩ := bind_eq_ok.mp hstep
      cases hstep
  | dataCrlf =>
    obtain ⟨⟨bytes, b₁⟩, hbytes, hstep⟩ := bind_eq_ok.mp hstep
    obtain ⟨_, _, hstep⟩ := bind_eq_ok.mp hstep
    have hleft := left_readRawExact hbytes
    cases hstep
    dsimp only
    omega
  | trailers =>
    obtain ⟨⟨line, b₁⟩, hline, hstep⟩ := bind_eq_ok.mp hstep
    have hleft := left_readRawLine hline
    dsimp only at hstep
    split at hstep
    · cases hstep
      dsimp only
      omega
    · obtain ⟨_, _, hstep⟩ := bind_eq_ok.mp hstep
      cases hstep
      dsimp only
      omega
  | finished =>
    obtain ⟨_, _, hstep⟩ := bind_eq_ok.mp hstep
    cases hstep

def nextChunked (b : HttpBody) (state : ChunkState) :
    Except Failure (Option TimedBytes × HttpBody) :=
  loopResult chunkBody chunkMeasure chunkBody_decreases (state, b)

/-- The transfer mode is taken out and put back by the branch that goes on. -/
def nextSegment (b : HttpBody) : Except Failure (Option TimedBytes × HttpBody) :=
  let transfer := b.transfer
  let b := { b with transfer := .contentLength 0 }
  match transfer with
  | .contentLength remaining => b.nextContentLength remaining
  | .closeDelimited => b.nextCloseDelimited
  | .chunked state => b.nextChunked state

/-- `while let Some(segment) = body.next_segment().await?`, as its callers run it. -/
def collectBody (s : List TimedBytes × HttpBody) :
    Except Failure (List TimedBytes) ⊕ (List TimedBytes × HttpBody) :=
  match s.2.nextSegment with
  | .error e => .inl (.error e)
  | .ok (none, _) => .inl (.ok s.1)
  | .ok (some segment, b) => .inr (s.1 ++ [segment], b)

end HttpBody

end Qwen3Tts.Bench
