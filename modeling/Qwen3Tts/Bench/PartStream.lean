import Qwen3Tts.Bench.PartReaders

/-!
# Bench — reading a stream that may stop early

`Reads missing rest value` is how a reader answers on a stream that stops `missing` bytes early: it
takes what it is made for and leaves the bytes of `rest` that arrive, or it reports the end, and
then bytes are missing. The answers compose along the calls of `next_part` (`Reads.bind`), so one
lemma for each reader gives both the whole stream and every prefix of it.
-/

namespace Qwen3Tts.Bench.MultipartReader

open Qwen3Tts.Lib

/-- What a reader keeps while it reads: its delimiters, its two flags and the failure of its body.
-/
abbrev Frame := Bytes × Bytes × Bool × Bool × Option BenchError

/-- `bytes` are to come, buffered or in segments that are not empty. -/
def Pending (frame : Frame) (r : MultipartReader) (bytes : Bytes) : Prop :=
  ∃ content segments, Holds frame r content segments ∧ (∀ s ∈ segments, s ≠ []) ∧
    bytes = content ++ segments.flatten

section

variable {γ δ : Type} {frame frame' : Frame} {missing rest rest' : Bytes}

/-- The answer of a reader on a stream that stops `missing` bytes early; `state` is where its result
has the reader. -/
def Reads (frame : Frame) (missing rest : Bytes) (state : γ → MultipartReader)
    (value : γ → Prop) (result : Except Failure γ) : Prop :=
  (∃ c bytes, result = .ok c ∧ value c ∧ Pending frame (state c) bytes ∧
    bytes ++ missing = rest) ∨ (Reported result ∧ missing ≠ [])

/-- Two readers in a row. -/
theorem Reads.bind {state : γ → MultipartReader} {state' : δ → MultipartReader}
    {value : γ → Prop} {value' : δ → Prop} {result : Except Failure γ}
    {next : γ → Except Failure δ} (h : Reads frame missing rest state value result)
    (hnext : ∀ c bytes, value c → Pending frame (state c) bytes → bytes ++ missing = rest →
      Reads frame' missing rest' state' value' (next c)) :
    Reads frame' missing rest' state' value' (result >>= next) := by
  rcases h with ⟨c, bytes, hok, hvalue, hpending, hrest⟩ | ⟨hreported, hmissing⟩
  · rw [hok]
    exact hnext c bytes hvalue hpending hrest
  · exact Or.inr ⟨hreported.bind next, hmissing⟩

end

/-! ## Segments -/

/-- A segment is pulled out of the body. -/
theorem pull_segments {r r' : MultipartReader} {message : String} (h : r.pull message = .ok r') :
    ∀ s ∈ r'.body.segments, s ∈ r.body.segments := by
  unfold pull BodySegments.nextSegment at h
  cases hsegments : r.body.segments with
  | nil =>
    rw [hsegments] at h
    cases hfailure : r.body.failure with
    | none =>
      rw [hfailure] at h
      cases h
    | some e =>
      rw [hfailure] at h
      cases h
  | cons segment segments =>
    rw [hsegments] at h
    cases h
    exact fun s hs => List.mem_cons_of_mem segment hs

/-- What `read_until` leaves of the body are segments of it. -/
theorem readUntil_segments {r r' : MultipartReader} {delimiter value : Bytes} {maximum : Nat}
    (h : r.readUntil delimiter maximum = .ok (value, r')) :
    ∀ s ∈ r'.body.segments, s ∈ r.body.segments := by
  -- the loop pulls until the delimiter is there
  have hstep : ∀ a b : MultipartReader, (∀ s ∈ a.body.segments, s ∈ r.body.segments) →
      untilBody delimiter maximum a = .inr b → ∀ s ∈ b.body.segments, s ∈ r.body.segments := by
    intro a b ha hbody s hs
    unfold untilBody at hbody
    split at hbody
    · split at hbody <;> cases hbody
    · split at hbody
      · cases hbody
      · unfold pullBody at hbody
        split at hbody
        · cases hbody
        · rename_i hpull
          cases hbody
          exact ha s (pull_segments hpull s hs)
  -- and answers out of what it has
  have hdone : ∀ (a : MultipartReader) result, (∀ s ∈ a.body.segments, s ∈ r.body.segments) →
      untilBody delimiter maximum a = .inl result → ∀ value r', result = .ok (value, r') →
        ∀ s ∈ r'.body.segments, s ∈ r.body.segments := by
    intro a result ha hbody value r' hok
    unfold untilBody at hbody
    split at hbody
    · split at hbody
      · cases hbody
        cases hok
      · cases hbody
        obtain ⟨_, -, hpure⟩ := bind_eq_ok.mp hok
        cases hpure
        exact ha
    · split at hbody
      · cases hbody
        cases hok
      · unfold pullBody at hbody
        split at hbody
        · cases hbody
          cases hok
        · cases hbody
  exact loopResult_induction (fun a : MultipartReader => ∀ s ∈ a.body.segments, s ∈ r.body.segments)
    (fun result : Except Failure (Bytes × MultipartReader) => ∀ value r', result = .ok (value, r') →
      ∀ s ∈ r'.body.segments, s ∈ r.body.segments)
    hstep hdone (fun s hs => hs) value r' h

variable {frame : Frame} {r : MultipartReader} {bytes missing rest : Bytes}

/-- A text with its delimiter is taken, however the stream is cut. -/
theorem Pending.readUntil {delimiter text : Bytes} (hdelimiter : Delimiter delimiter)
    (hplace : firstAt delimiter (text ++ delimiter) = some text.length) {maximum : Nat}
    (hshort : text.length + delimiter.length ≤ maximum) (h : Pending frame r bytes)
    (hwhole : bytes ++ missing = text ++ delimiter ++ rest) :
    Reads frame missing rest Prod.snd (fun c => c.1 = text) (r.readUntil delimiter maximum) := by
  obtain ⟨content, segments, hholds, hlive, heq⟩ := h
  have htaken := readUntil_search hdelimiter maximum hholds
  have hplace' : firstAt delimiter (bytes ++ missing) = some text.length := by
    rw [hwhole]
    exact firstAt_append hplace hdelimiter.ne_nil
  have harrived := firstAt_arrived hplace' hdelimiter.ne_nil
  by_cases hthere : text.length + delimiter.length ≤ bytes.length
  · -- the delimiter is complete
    left
    rw [if_pos hthere] at harrived
    have hsearch : search delimiter (maximum < ·) (maximum < ·) content segments
        = some text.length := by
      rw [search_eq_some hdelimiter.ne_nil, ← heq]
      refine ⟨harrived, by omega, fun stop _ hstop => ?_⟩
      omega
    rw [hsearch, ← heq] at htaken
    obtain ⟨r', content', segments', hread, hholds', hrest⟩ := htaken
    have hbytes : bytes = text ++ delimiter ++ bytes.drop (text.length + delimiter.length) := by
      have htake := congrArg (List.take (text.length + delimiter.length)) hwhole
      rw [List.take_append_of_le_length hthere, ← List.length_append, List.take_left] at htake
      rw [← htake, List.length_append, List.take_append_drop]
    refine ⟨(text, r'), bytes.drop (text.length + delimiter.length), ?_, rfl,
      ⟨content', segments', hholds', ?_, hrest.symm⟩, ?_⟩
    · rw [hread]
      show Except.ok (bytes.take text.length, r') = _
      rw [hbytes, List.append_assoc, List.take_left]
    · intro s hs
      rw [← hholds'.segments] at hs
      obtain ⟨segment, hsegment, rfl⟩ := List.mem_map.mp hs
      apply hlive
      rw [← hholds.segments]
      exact List.mem_map_of_mem (readUntil_segments hread segment hsegment)
    · rw [hbytes, List.append_assoc] at hwhole
      exact List.append_cancel_left hwhole
  · right
    rw [if_neg hthere] at harrived
    constructor
    · cases hsearch : search delimiter (maximum < ·) (maximum < ·) content segments with
      | none =>
        rw [hsearch] at htaken
        exact htaken
      | some p =>
        rw [search_eq_some hdelimiter.ne_nil, ← heq, harrived] at hsearch
        cases hsearch.1
    · rintro rfl
      apply hthere
      have hlength := congrArg List.length hwhole
      rw [List.append_nil, List.length_append, List.length_append] at hlength
      omega

/-- A line is read up to its end. -/
theorem Pending.readLine {line : Bytes} (hline : 0x0d ∉ line) {maximum : Nat}
    (hshort : line.length + 2 ≤ maximum) (h : Pending frame r bytes)
    (hwhole : bytes ++ missing = line ++ crlf ++ rest) :
    Reads frame missing rest Prod.snd (fun c => c.1 = line) (r.readLine maximum) := by
  have hplace : firstAt crlf (line ++ crlf) = some line.length := by
    show firstAt (0x0d :: [0x0a]) (line ++ [0x0d, 0x0a]) = _
    rw [firstAt_skip hline]
    rfl
  exact h.readUntil (Or.inl rfl) hplace hshort hwhole

/-- `read_exact` takes bytes that are there. -/
theorem Pending.readExact {w : Bytes} (h : Pending frame r bytes)
    (hwhole : bytes ++ missing = w ++ rest) :
    Reads frame missing rest Prod.snd (fun c => c.1 = w) (r.readExact w.length) := by
  have hbuffered : ∀ {r : MultipartReader} {content : Bytes} {segments : List Bytes},
      Holds frame r content segments → (∀ s ∈ segments, s ≠ []) → w.length ≤ content.length →
      content ++ segments.flatten ++ missing = w ++ rest →
      Reads frame missing rest Prod.snd (fun c => c.1 = w) (r.readExact w.length) := by
    intro r content segments hholds hlive hcount hwhole
    obtain ⟨buffer, hdrain, hbuffer⟩ := hholds.buffer.drainBytes hcount
    have hcontent : content.take w.length = w := by
      have htake := congrArg (List.take w.length) hwhole
      rw [List.append_assoc, List.take_append_of_le_length hcount, List.take_left] at htake
      exact htake
    refine Or.inl ⟨(w, { r with buffer }), content.drop w.length ++ segments.flatten, ?_, rfl,
      ⟨_, segments, ⟨hbuffer, hholds.segments, hholds.framed⟩, hlive, rfl⟩, ?_⟩
    · apply loopResult_done
      unfold exactBody
      rw [hholds.buffer.len, if_neg (by omega), hdrain, ok_bind, hcontent]
      rfl
    · have hdrop := congrArg (List.drop w.length) hwhole
      rw [List.append_assoc, List.drop_append_of_le_length hcount, List.drop_left,
        ← List.append_assoc] at hdrop
      exact hdrop
  obtain ⟨content, segments, hholds, hlive, heq⟩ := h
  subst heq
  induction segments generalizing r content with
  | nil =>
    by_cases hcount : w.length ≤ content.length
    · exact hbuffered hholds hlive hcount hwhole
    · -- the end comes first
      obtain ⟨e, he⟩ := hholds.pull_end "multipart body ended unexpectedly"
      right
      constructor
      · refine ⟨e, loopResult_done ?_⟩
        unfold exactBody pullBody
        rw [hholds.buffer.len, if_pos (by omega), he]
      · rintro rfl
        apply hcount
        have hlength := congrArg List.length hwhole
        simp only [List.flatten_nil, List.append_nil, List.length_append] at hlength
        omega
  | cons segment segments ih =>
    by_cases hcount : w.length ≤ content.length
    · exact hbuffered hholds hlive hcount hwhole
    · obtain ⟨r', hpull, hholds'⟩ := hholds.pull "multipart body ended unexpectedly"
      have hbody : exactBody w.length r = .inr r' := by
        unfold exactBody pullBody
        rw [hholds.buffer.len, if_pos (by omega), hpull]
      have hnext : r.readExact w.length = r'.readExact w.length := loopResult_next hbody
      rw [List.flatten_cons, ← List.append_assoc] at hwhole
      rw [hnext]
      exact ih _ hholds' (fun s hs => hlive s (List.mem_cons_of_mem _ hs)) hwhole

/-! ## The payload -/

/-- A segment is taken from the front of what is to come, or the end is reported. -/
theorem Pending.pop (h : Pending frame r bytes) {maximum : Nat} (hmaximum : 0 < maximum) :
    (∃ r' segment buffer tail, r.fillIfEmpty = .ok r' ∧
      r'.buffer.popSegment maximum = some (segment, buffer) ∧ segment.bytes ≠ [] ∧
      segment.bytes.length ≤ maximum ∧ bytes = segment.bytes ++ tail ∧
      Pending frame { r' with buffer } tail) ∨ (Reported r.fillIfEmpty ∧ bytes = []) := by
  -- what the buffer holds is given out first
  have hbuffered : ∀ {r : MultipartReader} {content : Bytes} {segments : List Bytes},
      Holds frame r content segments → (∀ s ∈ segments, s ≠ []) → content ≠ [] →
      ∃ segment buffer tail, r.buffer.popSegment maximum = some (segment, buffer) ∧
        segment.bytes ≠ [] ∧ segment.bytes.length ≤ maximum ∧
        content ++ segments.flatten = segment.bytes ++ tail ∧
        Pending frame { r with buffer } tail := by
    intro r content segments hholds hlive hsome
    obtain ⟨segment, buffer, tail, hpop, hsegment, hle, hsplit, hbuffer⟩ :=
      hholds.buffer.popSegment hsome hmaximum
    refine ⟨segment, buffer, tail ++ segments.flatten, hpop, hsegment, hle, ?_, tail, segments,
      ⟨hbuffer, hholds.segments, hholds.framed⟩, hlive, rfl⟩
    rw [hsplit, List.append_assoc]
  obtain ⟨content, segments, hholds, hlive, heq⟩ := h
  subst heq
  unfold fillIfEmpty
  -- an empty buffer takes the next segment of the body, if there is one
  by_cases hempty : content = []
  · subst hempty
    rw [if_pos (hholds.buffer.isEmpty_iff.mpr rfl)]
    cases segments with
    | nil => exact Or.inr ⟨hholds.pull_end _, rfl⟩
    | cons segment segments =>
      obtain ⟨r', hpull, hholds'⟩ := hholds.pull "multipart body ended unexpectedly"
      left
      obtain ⟨taken, buffer, tail, hrest⟩ := hbuffered hholds'
        (fun s hs => hlive s (List.mem_cons_of_mem _ hs)) (hlive segment List.mem_cons_self)
      exact ⟨r', taken, buffer, tail, hpull, hrest⟩
  · rw [if_neg fun h => hempty (hholds.buffer.isEmpty_iff.mp h)]
    left
    obtain ⟨taken, buffer, tail, hrest⟩ := hbuffered hholds hlive hempty
    exact ⟨r, taken, buffer, tail, rfl, hrest⟩

/-- The payload loop takes the bytes that are counted, whatever they are. -/
theorem Pending.payloadLoop {p : Payload} {w : Bytes} (h : Pending frame p.reader bytes)
    (hwhole : bytes ++ missing = w ++ rest) (hcount : p.remaining = w.length) {fuel : Nat}
    (hfuel : w.length < fuel) :
    ∃ result, loop payloadBody fuel p = some result ∧
      Reads frame missing rest Payload.reader (fun q => q.payload = p.payload ++ w) result := by
  induction fuel generalizing p bytes w with
  | zero => exact absurd hfuel (Nat.not_lt_zero _)
  | succ fuel ih =>
    by_cases hzero : p.remaining = 0
    · have hnil : w = [] := List.length_eq_zero_iff.mp (hcount.symm.trans hzero)
      subst hnil
      have hbody : payloadBody p = .inl (.ok p) := if_pos hzero
      refine ⟨.ok p, loop_done hbody, Or.inl ⟨p, bytes, rfl, ?_, h, hwhole⟩⟩
      exact (List.append_nil _).symm
    · rcases h.pop (Nat.pos_of_ne_zero hzero) with
        ⟨r', segment, buffer, tail, hfill, hpop, hsome, hle, hbytes, hpending⟩ | ⟨hend, hbytes⟩
      · -- a segment of the payload
        have hbody : payloadBody p = .inr ⟨{ r' with buffer }, p.payload ++ segment.bytes,
            p.remaining - segment.bytes.length, p.firstPayloadAt <|> some segment.arrived⟩ := by
          unfold payloadBody
          rw [if_neg hzero, hfill]
          dsimp only
          rw [hpop]
        have hpos := List.length_pos_iff.mpr hsome
        have hfront : segment.bytes <+: w ++ rest := by
          rw [← hwhole, hbytes, List.append_assoc]
          exact List.prefix_append _ _
        have htake : segment.bytes <+: w :=
          List.prefix_of_prefix_length_le hfront (List.prefix_append w rest) (by omega)
        obtain ⟨more, hmore⟩ := htake
        have hlength := congrArg List.length hmore
        rw [List.length_append] at hlength
        have htail : tail ++ missing = more ++ rest := by
          rw [hbytes, ← hmore, List.append_assoc, List.append_assoc] at hwhole
          exact List.append_cancel_left hwhole
        have hleft : p.remaining - segment.bytes.length = more.length := by omega
        obtain ⟨result, hloop, hreads⟩ := ih (p := ⟨{ r' with buffer }, p.payload ++ segment.bytes,
          p.remaining - segment.bytes.length, p.firstPayloadAt <|> some segment.arrived⟩)
          hpending htail hleft (by omega)
        refine ⟨result, by rw [loop_next hbody]; exact hloop, ?_⟩
        rw [← hmore, ← List.append_assoc]
        exact hreads
      · -- the body ends within the payload
        obtain ⟨e, he⟩ := hend
        have hbody : payloadBody p = .inl (.error (.error e)) := by
          unfold payloadBody
          rw [if_neg hzero, he]
        refine ⟨.error (.error e), loop_done hbody, Or.inr ⟨⟨e, rfl⟩, ?_⟩⟩
        rintro rfl
        rw [hbytes] at hwhole
        have hnil := (List.append_eq_nil_iff.mp hwhole.symm).1
        rw [hnil] at hcount
        exact hzero hcount

/-- The payload of a part, over any cuts. -/
theorem Pending.readPayload {w : Bytes} (h : Pending frame r bytes)
    (hwhole : bytes ++ missing = w ++ rest) :
    Reads frame missing rest Payload.reader (fun q => q.payload = w) (r.readPayload w.length) := by
  obtain ⟨result, hloop, hreads⟩ := @payloadLoop frame bytes missing rest ⟨r, [], w.length, none⟩
    w h hwhole rfl (w.length + 1) (Nat.lt_succ_self _)
  unfold MultipartReader.readPayload
  rw [hloop]
  exact hreads

end Qwen3Tts.Bench.MultipartReader
