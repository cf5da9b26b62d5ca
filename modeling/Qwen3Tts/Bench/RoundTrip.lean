import Qwen3Tts.Bench.Framing
import Qwen3Tts.Bench.PartHeaders
import Qwen3Tts.Bench.PartStream
import Qwen3Tts.Bench.Segments

/-!
# Bench — a progressive response and its reader

The parts that the server writes and the reader of the client. Behind the opening boundary a
response is, for each part, its body and the boundary line behind it; `next_part` takes one of these
(`Pending.nextPart`), and the loop over it takes them all (`round_trip`). Behind any HTTP response
that carries the stream the segments are those of `next_segment`, none of which is empty
(`received_over_http`).
-/

namespace Qwen3Tts.Bench

open Qwen3Tts.Lib Qwen3Tts.Server

/-! ## The stream -/

/-- What stands behind a part: the boundary and the parts to come, or the closing boundary. -/
def following (serialize : Server.Part → Bytes) (boundary : Text) : List Server.Part → Bytes
  | [] => closingBoundaryLine boundary ++ crlf
  | p :: parts => boundaryLine boundary ++ crlf
      ++ (partBody serialize p ++ following serialize boundary parts)

/-- The same without the boundary line that the part in front is read with. -/
def behindBoundary (serialize : Server.Part → Bytes) (boundary : Text) :
    List Server.Part → Bytes
  | [] => []
  | p :: parts => partBody serialize p ++ following serialize boundary parts

/-- A boundary that is one line. -/
structure LineBoundary (boundary : Text) : Prop where
  line : '\r' ∉ boundary
  length_le : boundary.length ≤ 1000

namespace MultipartReader

/-- The frame of a reader of such a response. -/
def responseFrame (boundary : Text) (started finished : Bool) (failure : Option BenchError) :
    Frame :=
  (Bench.boundaryLine boundary, Bench.closingBoundaryLine boundary, started, finished, failure)

section

variable {boundary : Text} {started finished : Bool} {failure : Option BenchError}
  {r : MultipartReader} {bytes missing rest : Bytes}

/-- What the reader keeps while it reads. -/
theorem Pending.fields (h : Pending (responseFrame boundary started finished failure) r bytes) :
    r.boundaryLine = Bench.boundaryLine boundary ∧
      r.closingBoundaryLine = Bench.closingBoundaryLine boundary ∧ r.started = started ∧
      r.finished = finished ∧ r.body.failure = failure := by
  obtain ⟨content, segments, hholds, -, -⟩ := h
  have hframed := hholds.framed
  unfold frame responseFrame at hframed
  simp only [Prod.mk.injEq] at hframed
  exact hframed

/-- Both boundary lines are lines the client reads. -/
theorem boundary_readable (h : LineBoundary boundary) :
    (0x0d ∉ Bench.boundaryLine boundary ∧
      (Bench.boundaryLine boundary).length + 2 ≤ maxPartHeaderBytes) ∧
    (0x0d ∉ Bench.closingBoundaryLine boundary ∧
      (Bench.closingBoundaryLine boundary).length + 2 ≤ maxPartHeaderBytes) := by
  have hmaximum : maxPartHeaderBytes = 65536 := rfl
  have hdashes : ("--".toList).length = 2 := by decide
  have hlength := h.length_le
  have hopen := length_utf8_le ("--".toList ++ boundary)
  have hclose := length_utf8_le ("--".toList ++ boundary ++ "--".toList)
  simp only [List.length_append, hdashes] at hopen hclose
  have hreturn : '\r' ∉ "--".toList ++ boundary := by
    intro hmem
    rcases List.mem_append.mp hmem with hmem | hmem
    · revert hmem
      decide
    · exact h.line hmem
  have hreturn' : '\r' ∉ "--".toList ++ boundary ++ "--".toList := by
    intro hmem
    rcases List.mem_append.mp hmem with hmem | hmem
    · exact hreturn hmem
    · revert hmem
      decide
  refine ⟨⟨not_mem_utf8 (by decide) (by decide) hreturn, ?_⟩,
    not_mem_utf8 (by decide) (by decide) hreturn', ?_⟩
  · rw [Bench.boundaryLine]
    omega
  · rw [Bench.closingBoundaryLine]
    omega

/-- The closing line is longer than the boundary line. -/
theorem boundaryLine_ne (boundary : Text) :
    Bench.boundaryLine boundary ≠ Bench.closingBoundaryLine boundary := by
  intro heq
  have hlength := congrArg List.length heq
  have hdashes : (utf8 "--".toList).length = 2 := by decide
  rw [Bench.boundaryLine, Bench.closingBoundaryLine, utf8_append _ "--".toList,
    List.length_append, hdashes] at hlength
  omega

/-- Nothing follows the closing boundary. -/
theorem Pending.epilogue (h : Pending (responseFrame boundary started finished none) r []) :
    ∃ r', r.epilogue = .ok r' ∧
      Pending (responseFrame boundary started true none) { r' with finished := true } [] := by
  have hfields := h.fields
  obtain ⟨content, segments, hholds, hlive, heq⟩ := h
  obtain ⟨hcontent, hflat⟩ := List.append_eq_nil_iff.mp heq.symm
  subst hcontent
  have hsegments : segments = [] := by
    cases segments with
    | nil => rfl
    | cons segment segments =>
      rw [List.flatten_cons] at hflat
      exact absurd (List.append_eq_nil_iff.mp hflat).1 (hlive segment List.mem_cons_self)
  have hnone : r.body.segments = [] := by
    rw [hsegments] at hholds
    exact List.map_eq_nil_iff.mp hholds.segments
  refine ⟨{ r with body := ⟨[], none⟩ }, ?_, [], [], ⟨hholds.buffer, rfl, ?_⟩,
    fun s hs => absurd hs List.not_mem_nil, rfl⟩
  · rw [MultipartReader.epilogue, failIf_of_not (not_not_intro (hholds.buffer.isEmpty_iff.mpr rfl)),
      ok_bind, failIf_of_not (by rw [hnone]; rintro ⟨s, hs, -⟩; cases hs), ok_bind,
      hfields.2.2.2.2]
    rfl
  · unfold frame responseFrame
    rw [hfields.1, hfields.2.1, hfields.2.2.1]

/-- The boundary line behind a part. -/
theorem Pending.readBoundary {serialize : Server.Part → Bytes} {parts : List Server.Part}
    (hboundary : LineBoundary boundary)
    (h : Pending (responseFrame boundary true false failure) r bytes)
    (hwhole : bytes ++ missing = following serialize boundary parts)
    (hfailure : missing = [] → failure = none) :
    Reads (responseFrame boundary true parts.isEmpty failure) missing
      (behindBoundary serialize boundary parts) id (fun _ => True) r.readBoundary := by
  obtain ⟨⟨hopen, hopenShort⟩, hclose, hcloseShort⟩ := boundary_readable hboundary
  -- the closing boundary stands behind the last part
  cases parts with
  | nil =>
    have hline : bytes ++ missing = Bench.closingBoundaryLine boundary ++ crlf ++ [] := by
      rw [List.append_nil]
      exact hwhole
    apply (h.readLine hclose hcloseShort hline).bind
    intro c bytes' hc hpending hrest
    obtain ⟨hbytes, hmissing⟩ := List.append_eq_nil_iff.mp hrest
    have hnone := hfailure hmissing
    subst hnone hbytes
    -- the body must end here
    obtain ⟨r', hepilogue, hpending'⟩ := hpending.epilogue
    obtain ⟨line, after⟩ := c
    have hc' : line = Bench.closingBoundaryLine boundary := hc
    dsimp only
    rw [hc', if_pos hpending.fields.2.1.symm, hepilogue, ok_bind]
    exact Or.inl ⟨_, [], rfl, trivial, hpending', by rw [hmissing]; rfl⟩
  | cons p parts =>
    apply (h.readLine hopen hopenShort hwhole).bind
    intro c bytes' hc hpending hrest
    obtain ⟨line, after⟩ := c
    have hc' : line = Bench.boundaryLine boundary := hc
    have hfields : after.boundaryLine = Bench.boundaryLine boundary ∧
        after.closingBoundaryLine = Bench.closingBoundaryLine boundary :=
      ⟨hpending.fields.1, hpending.fields.2.1⟩
    dsimp only
    rw [hc', hfields.1, hfields.2, if_neg (boundaryLine_ne boundary),
      failIf_of_not (not_not_intro rfl), ok_bind]
    exact Or.inl ⟨_, bytes', rfl, trivial, hpending, hrest⟩

/-! ## A part -/

/-- What the client makes of a part. -/
def IsPart (serialize : Server.Part → Bytes) (p : Server.Part) (part : Bench.Part) : Prop :=
  part.headers = receivedHeaders serialize p ∧ part.payload = p.payload serialize

/-- `next_part` behind the opening boundary. -/
def readPart (r : MultipartReader) : Except Failure (Option Bench.Part × MultipartReader) := do
  let (headerBytes, r) ← r.readUntil headEnd maxPartHeaderBytes
  let headers ← parsePartHeaders headerBytes
  let length ← payloadLength headers
  let p ← r.readPayload length
  let (suffix, r) ← p.reader.readExact 2
  failIf (suffix ≠ crlf) (multipartError "part payload is not followed by CRLF")
  let r ← r.readBoundary
  pure (some ⟨headers, p.payload, p.firstPayloadAt⟩, r)

/-- The opening boundary is read before the first part. -/
theorem nextPart_eq (h : r.finished = false) : r.nextPart = r.readOpening >>= readPart := by
  rw [nextPart, if_neg (by rw [h]; exact Bool.false_ne_true)]
  rfl

variable {serialize : Server.Part → Bytes} {p : Server.Part} {parts : List Server.Part}

/-- A part is read: its headers, its payload and the boundary behind it. -/
theorem Pending.readPart (hboundary : LineBoundary boundary) (htyped : Typed p)
    (hlength : (p.payload serialize).length ≤ maxPartPayloadBytes)
    (h : Pending (responseFrame boundary true false failure) r bytes)
    (hwhole : bytes ++ missing = behindBoundary serialize boundary (p :: parts))
    (hfailure : missing = [] → failure = none) :
    Reads (responseFrame boundary true parts.isEmpty failure) missing
      (behindBoundary serialize boundary parts) Prod.snd
      (fun c => ∃ part, c.1 = some part ∧ IsPart serialize p part) r.readPart := by
  have hmaximum : maxPartPayloadBytes = 536870912 := rfl
  have hfits : (p.payload serialize).length < 2 ^ 64 := by omega
  have hblock : bytes ++ missing = headerBlock serialize p ++ headEnd
      ++ (p.payload serialize ++ crlf ++ following serialize boundary parts) := by
    rw [hwhole, behindBoundary, partBody, List.append_assoc]
  unfold MultipartReader.readPart
  -- the header block
  apply (h.readUntil (Or.inr rfl) (firstAt_headerBlock htyped hfits)
    (length_headerBlock htyped hfits) hblock).bind
  rintro ⟨block, r⟩ bytes hparsed hpending hrest
  have hblock' : block = headerBlock serialize p := hparsed
  dsimp only
  rw [hblock', parsePartHeaders_block htyped hfits, ok_bind, payloadLength_received hlength,
    ok_bind]
  rw [List.append_assoc] at hrest
  -- the payload, whose length the headers give
  apply (hpending.readPayload hrest).bind
  intro payload bytes hpayload hpending hrest
  -- the end of line behind it
  apply (hpending.readExact hrest).bind
  rintro ⟨suffix, r⟩ bytes hsuffix hpending hrest
  have hsuffix' : suffix = crlf := hsuffix
  dsimp only
  rw [hsuffix', failIf_of_not (not_not_intro rfl), ok_bind]
  -- and the next boundary
  apply (hpending.readBoundary hboundary hrest hfailure).bind
  intro r bytes _ hpending hrest
  exact Or.inl ⟨_, bytes, rfl, ⟨_, rfl, rfl, hpayload⟩, hpending, hrest⟩

/-- **A part is read**, the first one with the boundary in front of it. -/
theorem Pending.nextPart (hboundary : LineBoundary boundary) (htyped : Typed p)
    (hlength : (p.payload serialize).length ≤ maxPartPayloadBytes)
    (h : Pending (responseFrame boundary started false failure) r bytes)
    (hwhole : bytes ++ missing = (if started then [] else Bench.boundaryLine boundary ++ crlf)
      ++ behindBoundary serialize boundary (p :: parts))
    (hfailure : missing = [] → failure = none) :
    Reads (responseFrame boundary true parts.isEmpty failure) missing
      (behindBoundary serialize boundary parts) Prod.snd
      (fun c => ∃ part, c.1 = some part ∧ IsPart serialize p part) r.nextPart := by
  rw [nextPart_eq h.fields.2.2.2.1]
  have hopening : Reads (responseFrame boundary true false failure) missing
      (behindBoundary serialize boundary (p :: parts)) id (fun _ => True) r.readOpening := by
    unfold readOpening
    -- only the first part has an opening boundary before it
    cases started with
    | true =>
      rw [if_pos h.fields.2.2.1]
      exact Or.inl ⟨r, bytes, rfl, trivial, h, hwhole⟩
    | false =>
      obtain ⟨⟨hopen, hshort⟩, -⟩ := boundary_readable hboundary
      rw [if_neg (by rw [h.fields.2.2.1]; exact Bool.false_ne_true)]
      apply (h.readLine hopen hshort hwhole).bind
      rintro ⟨line, r⟩ bytes hline hpending hrest
      have hline' : line = r.boundaryLine := hline.trans hpending.fields.1.symm
      dsimp only
      rw [failIf_of_not (not_not_intro hline'), ok_bind]
      obtain ⟨content, segments, hholds, hlive, heq⟩ := hpending
      refine Or.inl ⟨_, bytes, rfl, trivial, ⟨content, segments, ⟨hholds.buffer, hholds.segments,
        ?_⟩, hlive, heq⟩, hrest⟩
      have hframed := hholds.framed
      unfold frame responseFrame at hframed ⊢
      simp only [Prod.mk.injEq] at hframed ⊢
      exact ⟨hframed.1, hframed.2.1, rfl, hframed.2.2.2⟩
  apply hopening.bind
  intro r bytes _ hpending hrest
  exact hpending.readPart hboundary htyped hlength hrest hfailure

/-! ## The run -/

/-- The loop ends with the parts behind those it has, or reports that bytes are missing. -/
def Collects (serialize : Server.Part → Bytes) (parts : List Server.Part) (missing : Bytes)
    (collected : List Bench.Part) (r : MultipartReader) : Prop :=
  ∃ fuel result, loop collectParts fuel (collected, r) = some result ∧
    if missing = [] then ∃ received, result = .ok (collected ++ received) ∧
      List.Forall₂ (IsPart serialize) parts received
    else Reported result

/-- One part, and the parts behind it. -/
theorem collects_of_reads {collected : List Bench.Part}
    (h : Reads (responseFrame boundary true parts.isEmpty failure) missing
      (behindBoundary serialize boundary parts) Prod.snd
      (fun c => ∃ part, c.1 = some part ∧ IsPart serialize p part) r.nextPart)
    (hrest : ∀ part r bytes, Pending (responseFrame boundary true parts.isEmpty failure) r bytes →
      bytes ++ missing = behindBoundary serialize boundary parts →
      Collects serialize parts missing (collected ++ [part]) r) :
    Collects serialize (p :: parts) missing collected r := by
  rcases h with ⟨⟨answer, r'⟩, bytes, hok, ⟨part, hpart, his⟩, hpending, hbytes⟩ |
    ⟨⟨e, he⟩, hmissing⟩
  · have hanswer : answer = some part := hpart
    obtain ⟨fuel, result, hloop, hresult⟩ := hrest part r' bytes hpending hbytes
    -- the part is collected and the loop goes on
    have hbody : collectParts (collected, r) = .inr (collected ++ [part], r') := by
      simp only [collectParts, hok, hanswer]
    refine ⟨fuel + 1, result, by rw [loop_next hbody]; exact hloop, ?_⟩
    split
    · rename_i hnone
      rw [if_pos hnone] at hresult
      obtain ⟨received, hreceived, hforall⟩ := hresult
      refine ⟨part :: received, ?_, List.Forall₂.cons his hforall⟩
      rw [hreceived, List.append_assoc]
      rfl
    · rename_i hsome
      rw [if_neg hsome] at hresult
      exact hresult
  · refine ⟨1, .error (.error e), loop_done ?_, ?_⟩
    · simp only [collectParts, he]
    · rw [if_neg hmissing]
      exact ⟨e, rfl⟩

/-- The parts behind a boundary, by induction on their number. -/
theorem collects_behind (hboundary : LineBoundary boundary)
    (htyped : ∀ p ∈ parts, Typed p)
    (hlength : ∀ p ∈ parts, (p.payload serialize).length ≤ maxPartPayloadBytes)
    {collected : List Bench.Part}
    (h : Pending (responseFrame boundary true parts.isEmpty failure) r bytes)
    (hwhole : bytes ++ missing = behindBoundary serialize boundary parts)
    (hfailure : missing = [] → failure = none) :
    Collects serialize parts missing collected r := by
  induction parts generalizing r bytes collected with
  | nil =>
    have hmissing : missing = [] := (List.append_eq_nil_iff.mp hwhole).2
    refine ⟨1, .ok collected, loop_done ?_, ?_⟩
    · have hdone : r.nextPart = .ok (none, r) := if_pos h.fields.2.2.2.1
      simp only [collectParts, hdone]
    · rw [if_pos hmissing]
      exact ⟨[], by rw [List.append_nil], List.Forall₂.nil⟩
  | cons p parts ih =>
    apply collects_of_reads (h.nextPart hboundary (htyped p List.mem_cons_self)
      (hlength p List.mem_cons_self) hwhole hfailure)
    intro part r bytes hpending hrest
    exact ih (fun p hp => htyped p (List.mem_cons_of_mem _ hp))
      (fun p hp => hlength p (List.mem_cons_of_mem _ hp)) hpending hrest

end

end MultipartReader

/-! ## A response -/

/-- The parts of a progressive response, of which the last one closes it. The packets have the
integers of their types, and no payload is beyond the limit of the client. -/
structure ProgressiveResponse where
  requestId : Uuid
  serialize : Server.Part → Bytes
  front : List Server.Part
  last : Server.Part
  front_open : ∀ p ∈ front, p.close = false
  last_closes : last.close = true
  typed : ∀ p ∈ front ++ [last], Typed p
  payload_le : ∀ p ∈ front ++ [last], (p.payload serialize).length ≤ maxPartPayloadBytes

namespace ProgressiveResponse

/-- The parts of a response, the last of which closes it. -/
def parts (response : ProgressiveResponse) : List Server.Part := response.front ++ [response.last]

/-- The chunks that the server sends, one behind the other. -/
def stream (response : ProgressiveResponse) : Bytes :=
  response.parts.flatMap
    (Server.Part.encode response.serialize (Server.boundary response.requestId))

/-- The client's reader of the response, over what the body delivers. -/
def reader (response : ProgressiveResponse) (body : BodySegments) : MultipartReader :=
  .new body (Server.boundary response.requestId).toList

/-- The boundary the server chooses is one line. -/
theorem lineBoundary (requestId : Uuid) : LineBoundary (Server.boundary requestId).toList := by
  have hdigit : ∀ n < 16, n.digitChar ≠ '\r' := by decide
  have hprefix : "qwen3tts-".toList.length = 9 ∧ '\r' ∉ "qwen3tts-".toList := by decide
  have htext : (Server.boundary requestId).toList = "qwen3tts-".toList
      ++ (List.range 32).map fun i => (requestId / 16 ^ (31 - i) % 16).digitChar := by
    rw [Server.boundary, String.toList_append]
    exact congrArg (_ ++ ·) String.toList_ofList
  rw [htext]
  constructor
  · intro hmem
    rcases List.mem_append.mp hmem with hmem | hmem
    · exact hprefix.2 hmem
    · obtain ⟨i, -, hi⟩ := List.mem_map.mp hmem
      exact hdigit _ (Nat.mod_lt _ (by decide)) hi
  · rw [List.length_append, hprefix.1, List.length_map, List.length_range]
    decide

/-- The stream is the opening boundary and the parts with what is behind them. -/
theorem stream_eq (response : ProgressiveResponse) :
    response.stream = boundaryLine (Server.boundary response.requestId).toList ++ crlf
      ++ behindBoundary response.serialize (Server.boundary response.requestId).toList
        response.parts := by
  have hfront : ∀ front : List Server.Part, (∀ p ∈ front, p.close = false) →
      (front ++ [response.last]).flatMap
        (Server.Part.encode response.serialize (Server.boundary response.requestId))
      = boundaryLine (Server.boundary response.requestId).toList ++ crlf
        ++ behindBoundary response.serialize (Server.boundary response.requestId).toList
          (front ++ [response.last]) := by
    intro front hopen
    -- the parts before the last one are followed by a boundary
    induction front with
    | nil =>
      rw [List.nil_append, List.flatMap_cons, List.flatMap_nil, List.append_nil, encode_part,
        if_pos response.last_closes]
      rfl
    | cons p front ih =>
      have hp := hopen p List.mem_cons_self
      have hrest := ih fun q hq => hopen q (List.mem_cons_of_mem p hq)
      have hne : ∃ q parts, front ++ [response.last] = q :: parts :=
        List.exists_cons_of_ne_nil (List.append_ne_nil_of_right_ne_nil _ (List.cons_ne_nil _ _))
      obtain ⟨q, parts, hparts⟩ := hne
      rw [List.cons_append, List.flatMap_cons, hrest, encode_part, hp,
        if_neg Bool.false_ne_true, List.append_nil, List.append_assoc]
      rw [behindBoundary, hparts, following, behindBoundary]
  exact hfront response.front response.front_open

/-- The reader before the first segment. -/
theorem pending_new (response : ProgressiveResponse) {body : BodySegments}
    (hlive : ∀ segment ∈ body.segments, segment.bytes ≠ []) :
    MultipartReader.Pending (MultipartReader.responseFrame
      (Server.boundary response.requestId).toList false false body.failure)
      (response.reader body) (body.segments.flatMap TimedBytes.bytes) := by
  refine ⟨[], body.segments.map TimedBytes.bytes, ⟨Buffered.empty, rfl, rfl⟩, ?_, ?_⟩
  · intro s hs
    obtain ⟨segment, hsegment, rfl⟩ := List.mem_map.mp hs
    exact hlive segment hsegment
  · rw [List.nil_append]
    rfl

/-- The parts of a response that may be cut. -/
theorem collects (response : ProgressiveResponse) {body : BodySegments} {missing : Bytes}
    (hlive : ∀ segment ∈ body.segments, segment.bytes ≠ [])
    (hwhole : body.segments.flatMap TimedBytes.bytes ++ missing = response.stream)
    (hfailure : missing = [] → body.failure = none) :
    MultipartReader.Collects response.serialize response.parts missing []
      (response.reader body) := by
  have hpending := response.pending_new hlive
  rw [stream_eq] at hwhole
  obtain ⟨p, parts, hparts⟩ : ∃ p parts, response.parts = p :: parts :=
    List.exists_cons_of_ne_nil (List.append_ne_nil_of_right_ne_nil _ (List.cons_ne_nil _ _))
  have htyped := response.typed
  have hlength := response.payload_le
  change ∀ p ∈ response.parts, _ at htyped
  change ∀ p ∈ response.parts, _ at hlength
  rw [hparts] at hwhole htyped hlength ⊢
  have hboundary := lineBoundary response.requestId
  apply MultipartReader.collects_of_reads (hpending.nextPart hboundary
    (htyped p List.mem_cons_self) (hlength p List.mem_cons_self) hwhole hfailure)
  intro part r bytes hbehind hrest
  exact MultipartReader.collects_behind hboundary
    (fun p hp => htyped p (List.mem_cons_of_mem _ hp))
    (fun p hp => hlength p (List.mem_cons_of_mem _ hp)) hbehind hrest hfailure

/-- Headers and payloads are what was sent. -/
theorem map_received {serialize : Server.Part → Bytes} {parts : List Server.Part}
    {received : List Bench.Part}
    (h : List.Forall₂ (MultipartReader.IsPart serialize) parts received) :
    received.map (fun part => (part.headers, part.payload))
      = parts.map fun p => (receivedHeaders serialize p, p.payload serialize) := by
  induction h with
  | nil => rfl
  | cons hpart _ ih => rw [List.map_cons, List.map_cons, ih, hpart.1, hpart.2]

/-- **The round trip.** However the stream is cut into segments, the reader returns the parts with
their headers and payloads and then the end; on a stream that stops early, whether the connection
ends or fails there, it reports an error. -/
theorem round_trip (response : ProgressiveResponse) :
    (∀ segments : List TimedBytes, (∀ segment ∈ segments, segment.bytes ≠ []) →
      segments.flatMap TimedBytes.bytes = response.stream →
      ∃ fuel received,
        loop MultipartReader.collectParts fuel ([], response.reader ⟨segments, none⟩)
          = some (.ok received) ∧
        received.map (fun part => (part.headers, part.payload))
          = response.parts.map fun p =>
            (receivedHeaders response.serialize p, p.payload response.serialize)) ∧
    ∀ (segments : List TimedBytes) (failure : Option BenchError),
      (∀ segment ∈ segments, segment.bytes ≠ []) →
      segments.flatMap TimedBytes.bytes <+: response.stream →
      segments.flatMap TimedBytes.bytes ≠ response.stream →
      ∃ fuel result,
        loop MultipartReader.collectParts fuel ([], response.reader ⟨segments, failure⟩)
          = some result ∧ Reported result := by
  constructor
  · intro segments hlive hwhole
    -- the whole response
    obtain ⟨fuel, result, hloop, hresult⟩ := @collects response ⟨segments, none⟩ [] hlive
      (by rw [List.append_nil]; exact hwhole) (fun _ => rfl)
    rw [if_pos rfl] at hresult
    obtain ⟨received, hok, hforall⟩ := hresult
    rw [List.nil_append] at hok
    exact ⟨fuel, received, by rw [hloop, hok], map_received hforall⟩
  · intro segments failure hlive hprefix hne
    -- a response that is cut
    obtain ⟨missing, hmissing⟩ := hprefix
    have hsome : missing ≠ [] := by
      rintro rfl
      rw [List.append_nil] at hmissing
      exact hne hmissing
    obtain ⟨fuel, result, hloop, hresult⟩ := @collects response ⟨segments, failure⟩ missing hlive
      hmissing (fun h => absurd h hsome)
    rw [if_neg hsome] at hresult
    exact ⟨fuel, result, hloop, hresult⟩

/-- An audio part whose samples look like the front of a boundary. -/
def dashedResponse : ProgressiveResponse where
  requestId := 1
  serialize _ := utf8 "\x7b\x7d".toList
  front := [.start 1 7, .audio {
    sequence := 0
    firstCodecFrame := 0
    firstSample := 0
    codecFrames := 1
    sampleCount := 2
    sampleRate := 24000
    channels := 1
    isFinal := true
    pcmS16le := [0x0d, 0x0a, 0x2d, 0x2d] }]
  last := .error (Server.retirementTimeoutError 1)
  front_open := by simp [Server.Part.close]
  last_closes := rfl
  typed := by simp [Typed]
  payload_le := by simp [Server.Part.payload]; decide

/-- That response, byte by byte, whole and without its last byte. -/
theorem round_trip_dashed :
    (∃ fuel received, loop MultipartReader.collectParts fuel
        ([], dashedResponse.reader ⟨byteReads dashedResponse.stream, none⟩) = some (.ok received) ∧
      received.map Bench.Part.payload
        = [[0x7b, 0x7d], [0x0d, 0x0a, 0x2d, 0x2d], [0x7b, 0x7d]]) ∧
    ∃ fuel result, loop MultipartReader.collectParts fuel
        ([], dashedResponse.reader ⟨byteReads dashedResponse.stream.dropLast, none⟩)
          = some result ∧ Reported result := by
  obtain ⟨hwhole, hcut⟩ := dashedResponse.round_trip
  obtain ⟨hlive, hflat⟩ := segmentation_byteReads dashedResponse.stream
  obtain ⟨hlive', hflat'⟩ := segmentation_byteReads dashedResponse.stream.dropLast
  have hsome : dashedResponse.stream ≠ [] := by
    rw [stream_eq]
    exact List.append_ne_nil_of_left_ne_nil
      (List.append_ne_nil_of_right_ne_nil _ (List.cons_ne_nil _ _)) _
  constructor
  · obtain ⟨fuel, received, hloop, hreceived⟩ := hwhole _ hlive hflat
    refine ⟨fuel, received, hloop, ?_⟩
    have hpayloads := congrArg (List.map Prod.snd) hreceived
    rw [List.map_map, List.map_map] at hpayloads
    exact hpayloads
  · refine hcut _ none hlive' ?_ ?_
    · rw [hflat']
      exact List.dropLast_prefix _
    · intro heq
      rw [hflat'] at heq
      have hlength := congrArg List.length heq
      rw [List.length_dropLast] at hlength
      have hpos := List.length_pos_iff.mpr hsome
      omega

/-- **From the socket to the parts.** A response in any framing that carries the stream, in any
reads: the body is collected, and the reader of its segments returns the parts. -/
theorem received_over_http (response : ProgressiveResponse) (r : Response)
    (hbody : r.framing.body = response.stream) (hhead : r.head.block.length ≤ maxHeaderBytes)
    {stream : List TimedBytes} (hstream : Segmentation stream r.bytes) :
    ∃ segments, CollectsFrom stream (.ok segments) ∧ ∃ fuel received,
      loop MultipartReader.collectParts fuel ([], response.reader ⟨segments, none⟩)
        = some (.ok received) ∧
      received.map (fun part => (part.headers, part.payload))
        = response.parts.map fun p =>
          (receivedHeaders response.serialize p, p.payload response.serialize) := by
  rcases r.readHead hhead (List.append_nil r.bytes) hstream with
    ⟨parsed, b, payload, hread, hpending, hpayload, hmode⟩ | ⟨-, hmissing⟩
  · obtain ⟨fuel, result, hloop, hresult⟩ := r.delivers hmode hpending hpayload fun _ => rfl
    rw [if_pos rfl] at hresult
    obtain ⟨segments, rfl, hjoined⟩ := hresult
    rw [List.nil_append] at hloop
    -- The collected segments have bytes, which is what the reader of the parts needs of them.
    have hlive := HttpBody.collected_live ⟨payload, hpending⟩ hloop
    obtain ⟨fuel', _, hloop', hresult'⟩ := @collects response ⟨segments, none⟩ [] hlive
      (by rw [List.append_nil]; exact hjoined.trans hbody) (fun _ => rfl)
    rw [if_pos rfl] at hresult'
    obtain ⟨received, rfl, hforall⟩ := hresult'
    exact ⟨segments, Or.inl ⟨parsed, b, fuel, hread, hloop⟩, fuel', _, hloop', map_received hforall⟩
  · exact absurd rfl hmissing

end ProgressiveResponse

end Qwen3Tts.Bench
