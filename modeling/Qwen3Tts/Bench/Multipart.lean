import Qwen3Tts.Bench.Http

/-!
# Bench — `multipart.rs`

The client's reader of a progressive response. It pulls segments from the HTTP body into a buffer
of its own and takes lines, header blocks and counted payloads out of it. Of the body it sees what
`next_segment` returns: some segments, and then the end or an error (`BodySegments`).
-/

namespace Qwen3Tts.Bench

open Qwen3Tts.Lib

/-- `MAX_PART_HEADER_BYTES`. -/
def maxPartHeaderBytes : Nat := 64 * 1024
/-- `MAX_PART_PAYLOAD_BYTES`. -/
def maxPartPayloadBytes : Nat := 512 * 1024 * 1024

/-- The answers of `next_segment`: the segments, and the error behind them if there is one. -/
structure BodySegments where
  segments : List TimedBytes
  failure : Option BenchError
  deriving DecidableEq, Repr

def BodySegments.nextSegment (body : BodySegments) :
    Except Failure (Option (TimedBytes × BodySegments)) :=
  match body.segments, body.failure with
  | segment :: segments, failure => .ok (some (segment, ⟨segments, failure⟩))
  | [], none => .ok none
  | [], some e => .error (.error e)

structure Part where
  headers : List (Text × Text)
  payload : Bytes
  firstPayloadAt : Option Nat
  deriving DecidableEq, Repr

def Part.header (part : Part) (name : Text) : Option Text := assoc part.headers (lowercase name)

structure MultipartReader where
  body : BodySegments
  buffer : TimedBuffer
  boundaryLine : Bytes
  closingBoundaryLine : Bytes
  started : Bool
  finished : Bool
  deriving DecidableEq, Repr

def multipartError (message : String) : Failure := .error (.multipart message)

namespace MultipartReader

def new (body : BodySegments) (boundary : Text) : MultipartReader where
  body := body
  buffer := .default
  boundaryLine := utf8 ("--".toList ++ boundary)
  closingBoundaryLine := utf8 ("--".toList ++ boundary ++ "--".toList)
  started := false
  finished := false

/-- One more segment in the buffer; the end of the body is an error. -/
def pull (r : MultipartReader) (message : String) : Except Failure MultipartReader :=
  match r.body.nextSegment with
  | .error failure => .error failure
  | .ok none => .error (multipartError message)
  | .ok (some (segment, body)) =>
    .ok { r with body, buffer := r.buffer.push segment.bytes segment.arrived }

theorem pull_decreases {r r' : MultipartReader} {message : String} (h : r.pull message = .ok r') :
    r'.body.segments.length < r.body.segments.length := by
  unfold pull BodySegments.nextSegment at h
  cases hsegments : r.body.segments with
  | nil =>
    rw [hsegments] at h
    cases hfailure : r.body.failure with
    | none =>
      rw [hfailure] at h
      cases h
    | some e =>
      rw [hfailure] at h
      cases h
  | cons segment segments =>
    rw [hsegments] at h
    cases h
    exact Nat.lt_succ_self segments.length

/-- A pull that the loop of a reader goes on with. -/
def pullBody {ρ : Type} (r : MultipartReader) (message : String) :
    Except Failure ρ ⊕ MultipartReader :=
  match r.pull message with
  | .error failure => .inl (.error failure)
  | .ok next => .inr next

theorem pullBody_decreases {ρ : Type} {r r' : MultipartReader} {message : String}
    (h : (r.pullBody message : Except Failure ρ ⊕ MultipartReader) = .inr r') :
    r'.body.segments.length < r.body.segments.length := by
  unfold pullBody at h
  cases hpull : r.pull message with
  | error failure =>
    rw [hpull] at h
    cases h
  | ok next =>
    rw [hpull] at h
    cases h
    exact pull_decreases hpull

def fillIfEmpty (r : MultipartReader) : Except Failure MultipartReader :=
  if r.buffer.isEmpty then r.pull "multipart body ended unexpectedly" else .ok r

def exactBody (count : Nat) (r : MultipartReader) :
    Except Failure (Bytes × MultipartReader) ⊕ MultipartReader :=
  if r.buffer.len < count then r.pullBody "multipart body ended unexpectedly"
  else .inl (do
    let (bytes, buffer) ← r.buffer.drainBytes count
    pure (bytes, { r with buffer }))

theorem exactBody_decreases (count : Nat) (r r' : MultipartReader)
    (h : exactBody count r = .inr r') : r'.body.segments.length < r.body.segments.length := by
  unfold exactBody at h
  split at h
  · exact pullBody_decreases h
  · cases h

/-- The `map_err` of `read_exact` is not reached: there are enough bytes. -/
def readExact (count : Nat) : MultipartReader → Except Failure (Bytes × MultipartReader) :=
  loopResult (exactBody count) (fun r => r.body.segments.length) (exactBody_decreases count)

def untilBody (delimiter : Bytes) (maximum : Nat) (r : MultipartReader) :
    Except Failure (Bytes × MultipartReader) ⊕ MultipartReader :=
  match r.buffer.find delimiter with
  | some position =>
    if maximum < position then
      .inl (.error (multipartError s!"multipart framing exceeds {maximum} bytes"))
    else .inl (do
      let (bytes, buffer) ← r.buffer.drainBytes (position + delimiter.length)
      pure (bytes.take position, { r with buffer }))
  | none =>
    if maximum < r.buffer.len then
      .inl (.error (multipartError s!"multipart framing exceeds {maximum} bytes"))
    else r.pullBody "multipart body ended before a delimiter"

theorem untilBody_decreases (delimiter : Bytes) (maximum : Nat) (r r' : MultipartReader)
    (h : untilBody delimiter maximum r = .inr r') :
    r'.body.segments.length < r.body.segments.length := by
  unfold untilBody at h
  split at h
  · split at h <;> cases h
  · split at h
    · cases h
    · exact pullBody_decreases h

def readUntil (delimiter : Bytes) (maximum : Nat) :
    MultipartReader → Except Failure (Bytes × MultipartReader) :=
  loopResult (untilBody delimiter maximum) (fun r => r.body.segments.length)
    (untilBody_decreases delimiter maximum)

def readLine (r : MultipartReader) (maximum : Nat) : Except Failure (Bytes × MultipartReader) :=
  r.readUntil crlf maximum

/-- The loop over the header lines of a part. -/
def parsePartHeaderLine (headers : List (Text × Text)) (line : Text) :
    Except Failure (List (Text × Text)) := do
  failIf (line.head? = some ' ' ∨ line.head? = some '\t')
    (multipartError "folded part headers are rejected")
  match splitOnce ':' line with
  | none => .error (multipartError "malformed part header")
  | some (name, value) =>
    failIf ((assoc headers (lowercase name)).isSome = true)
      (multipartError "duplicate part headers are rejected")
    pure (headers ++ [(lowercase name, trimText value)])

def parsePartHeaders (bytes : Bytes) : Except Failure (List (Text × Text)) :=
  match fromUtf8 bytes with
  | none => .error (multipartError "part headers are not valid ASCII/UTF-8")
  | some text => (splitCrLf text).foldlM parsePartHeaderLine []

/-- The locals of the payload loop. -/
structure Payload where
  reader : MultipartReader
  payload : Bytes
  remaining : Nat
  firstPayloadAt : Option Nat

/-- An iteration of the payload loop. -/
def payloadBody (p : Payload) : Except Failure Payload ⊕ Payload :=
  if p.remaining = 0 then .inl (.ok p)
  else match p.reader.fillIfEmpty with
    | .error failure => .inl (.error failure)
    | .ok reader =>
      match reader.buffer.popSegment p.remaining with
      | none => .inl (.error (multipartError "part payload is truncated"))
      | some (segment, buffer) => .inr
          ⟨{ reader with buffer }, p.payload ++ segment.bytes,
            p.remaining - segment.bytes.length, p.firstPayloadAt <|> some segment.arrived⟩

/-- Every iteration takes a byte, so that these are enough. -/
def readPayload (r : MultipartReader) (length : Nat) : Except Failure Payload :=
  (loop payloadBody (length + 1) ⟨r, [], length, none⟩).getD (.error .panic)

/-- The opening boundary, in front of the first part. -/
def readOpening (r : MultipartReader) : Except Failure MultipartReader :=
  if r.started = true then .ok r
  else do
    let (opening, r) ← r.readLine maxPartHeaderBytes
    failIf (opening ≠ r.boundaryLine)
      (multipartError "body does not begin with the declared boundary")
    pure { r with started := true }

/-- The loop behind the closing boundary; a segment of no bytes is let through. -/
def epilogue (r : MultipartReader) : Except Failure MultipartReader := do
  failIf (¬ r.buffer.isEmpty)
    (multipartError "multipart closing boundary is followed by epilogue bytes")
  failIf (∃ segment ∈ r.body.segments, segment.bytes ≠ [])
    (multipartError "multipart closing boundary is followed by epilogue bytes")
  match r.body.failure with
  | none => pure { r with body := ⟨[], none⟩ }
  | some e => .error (.error e)

/-- The value of `Content-Length`, within the limit. -/
def payloadLength (headers : List (Text × Text)) : Except Failure Nat :=
  match assoc headers "content-length".toList with
  | none => .error (multipartError "every part must declare Content-Length")
  | some value =>
    match fromStrRadix 10 64 value with
    | none => .error (multipartError "invalid part Content-Length")
    | some length => do
      failIf (maxPartPayloadBytes < length)
        (multipartError s!"part payload exceeds {maxPartPayloadBytes} bytes")
      pure length

/-- The boundary behind a part; the closing one ends the body. -/
def readBoundary (r : MultipartReader) : Except Failure MultipartReader := do
  let (nextBoundary, r) ← r.readLine maxPartHeaderBytes
  if nextBoundary = r.closingBoundaryLine then do
    let r ← r.epilogue
    pure { r with finished := true }
  else do
    failIf (nextBoundary ≠ r.boundaryLine)
      (multipartError "part is followed by an invalid boundary")
    pure r

def nextPart (r : MultipartReader) : Except Failure (Option Part × MultipartReader) :=
  if r.finished = true then .ok (none, r)
  else do
    let r ← r.readOpening
    let (headerBytes, r) ← r.readUntil headEnd maxPartHeaderBytes
    let headers ← parsePartHeaders headerBytes
    let length ← payloadLength headers
    let p ← r.readPayload length
    let (suffix, r) ← p.reader.readExact 2
    failIf (suffix ≠ crlf) (multipartError "part payload is not followed by CRLF")
    let r ← r.readBoundary
    pure (some ⟨headers, p.payload, p.firstPayloadAt⟩, r)

/-- The loop over `next_part`, as its caller runs it. -/
def collectParts (s : List Part × MultipartReader) :
    Except Failure (List Part) ⊕ (List Part × MultipartReader) :=
  match s.2.nextPart with
  | .error e => .inl (.error e)
  | .ok (none, _) => .inl (.ok s.1)
  | .ok (some part, r) => .inr (s.1 ++ [part], r)

end MultipartReader

end Qwen3Tts.Bench
