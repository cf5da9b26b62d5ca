import Qwen3Tts.Bench.Readers

/-!
# Bench — what the segments of a body join to

The callers' loop over `next_segment`, for the three framings. `Delivers body missing` says how the
loop ends on a stream that stops `missing` bytes early: with segments that join to `body` when
nothing is missing, and with an error otherwise. Each framing is one induction: over the bytes of a
length (`delivers_contentLength`) or of a chunk (`delivers_data`), over the chunks and trailers of a
chunked message (`delivers_chunks`).
-/

namespace Qwen3Tts.Bench.HttpBody

open Qwen3Tts.Lib

/-- The loop ends with `body` behind the segments it has, or reports that bytes are missing. -/
def Delivers (body missing : Bytes) (collected : List TimedBytes) (b : HttpBody) : Prop :=
  ∃ fuel r, loop collectBody fuel (collected, b) = some r ∧
    if missing = [] then
      ∃ segments, r = .ok (collected ++ segments) ∧ segments.flatMap TimedBytes.bytes = body
    else Reported r

/-- The same of the loop behind an answer of `next_segment`. -/
def Answers (body missing : Bytes) (collected : List TimedBytes) :
    Except Failure (Option TimedBytes × HttpBody) → Prop
  | .error (.error _) => missing ≠ []
  | .error .panic => False
  | .ok (none, _) => missing = [] ∧ body = []
  | .ok (some segment, b) => ∃ rest, body = segment.bytes ++ rest ∧
      Delivers rest missing (collected ++ [segment]) b

section
variable {body missing bytes : Bytes} {collected : List TimedBytes} {b : HttpBody}

/-- What the next segment says of the body, and the collected ones behind it. -/
theorem delivers_of_answers (h : Answers body missing collected b.nextSegment) :
    Delivers body missing collected b := by
  -- an error ends the collection, and so does the end of the body
  cases hnext : b.nextSegment with
  | error failure =>
    cases failure with
    | error e =>
      rw [hnext] at h
      refine ⟨1, .error (.error e), loop_done ?_, ?_⟩
      · simp only [collectBody, hnext]
      · rw [if_neg h]
        exact ⟨e, rfl⟩
    | panic =>
      rw [hnext] at h
      exact absurd h id
  | ok answer =>
    obtain ⟨segment, b'⟩ := answer
    rw [hnext] at h
    cases segment with
    | none =>
      refine ⟨1, .ok collected, loop_done ?_, ?_⟩
      · simp only [collectBody, hnext]
      · rw [if_pos h.1]
        exact ⟨[], by rw [List.append_nil], h.2.symm⟩
    | some segment =>
      obtain ⟨rest, hbody, fuel, r, hloop, hr⟩ := h
      refine ⟨fuel + 1, r, ?_, ?_⟩
      · have hstep : collectBody (collected, b) = .inr (collected ++ [segment], b') := by
          simp only [collectBody, hnext]
        rw [loop_next hstep]
        exact hloop
      · by_cases hmissing : missing = []
        · rw [if_pos hmissing] at hr ⊢
          obtain ⟨segments, hsegments, hjoined⟩ := hr
          refine ⟨segment :: segments, ?_, ?_⟩
          · rw [hsegments, List.append_assoc]
            rfl
          · rw [List.flatMap_cons, hjoined, hbody]
        · rw [if_neg hmissing] at hr ⊢
          exact hr

/-- An error is the right answer when bytes are missing. -/
theorem answers_of_reported {r : Except Failure (Option TimedBytes × HttpBody)} (h : Reported r)
    (hmissing : missing ≠ []) : Answers body missing collected r := by
  obtain ⟨e, rfl⟩ := h
  exact hmissing

/-- What is left of a list of known length behind its front. -/
theorem split_front {front rest tail whole : Bytes} (h : front ++ rest = whole ++ tail)
    (hle : front.length ≤ whole.length) :
    ∃ back, whole = front ++ back ∧ rest = back ++ tail := by
  rcases List.append_eq_append_iff.mp h with ⟨back, hwhole, hrest⟩ | ⟨back, hfront, htail⟩
  · exact ⟨back, hwhole, hrest⟩
  · have hnil : back = [] := by
      apply List.length_eq_zero_iff.mp
      rw [hfront, List.length_append] at hle
      omega
    subst hnil
    rw [List.append_nil] at hfront
    exact ⟨[], by rw [hfront, List.append_nil], htail.symm⟩

/-! ## Content-Length and close-delimited bodies -/

/-- A body of a known length. -/
theorem delivers_contentLength (h : b.Pending bytes) (hwhole : bytes ++ missing = body)
    (hmode : b.transfer = .contentLength body.length) : Delivers body missing collected b := by
  -- by induction on the length that is left
  induction hn : body.length using Nat.strongRecOn generalizing b bytes body collected with
  | ind n ih =>
    apply delivers_of_answers
    have hcall : b.nextSegment
        = { b with transfer := .contentLength 0 }.nextContentLength n := by
      simp only [nextSegment, hmode, hn]
    have hpending := h.transfer (.contentLength 0)
    rw [hcall, nextContentLength]
    by_cases hzero : n = 0
    · have hbody : body = [] := List.length_eq_zero_iff.mp (hn.trans hzero)
      obtain ⟨hbytes, hmissing⟩ := List.append_eq_nil_iff.mp (hwhole.trans hbody)
      subst hbytes
      rw [if_pos hzero, failIf_of_not (not_not.mpr hpending.ended.1), ok_bind]
      exact ⟨hmissing, hbody⟩
    · rw [if_neg hzero]
      -- the connection is closed early
      by_cases hempty : bytes = []
      · subst hempty
        apply answers_of_reported ((hpending.fill_end _).bind _)
        rintro rfl
        subst hwhole
        exact hzero hn.symm
      · obtain ⟨segment, b', rest, htake, hlive, _, hsplit, hrest, hmode'⟩ :=
          hpending.fill_takeSegment hempty (Nat.pos_of_ne_zero hzero)
            "connection closed before Content-Length bytes arrived"
            fun taken => .contentLength (n - taken)
        rw [htake]
        have hsome := List.length_pos_iff.mpr hlive
        have hbody : body = segment.bytes ++ (rest ++ missing) := by
          rw [← hwhole, hsplit, List.append_assoc]
        have hlength := congrArg List.length hbody
        rw [hn, List.length_append] at hlength
        refine ⟨rest ++ missing, hbody, ?_⟩
        apply ih (rest ++ missing).length (by omega) hrest rfl
        · rw [hmode']
          congr 1
          omega
        · rfl

/-- With bytes to come the close-delimited reader takes a segment like the others. -/
theorem nextCloseDelimited_eq (h : b.Pending bytes) (hsome : bytes ≠ []) :
    b.nextCloseDelimited = (do
      let b ← b.fill ""
      b.takeSegment (2 ^ 64 - 1) fun _ => .closeDelimited) := by
  obtain ⟨segment, b', rest, htake, _⟩ :=
    h.fill_takeSegment hsome (show 0 < 2 ^ 64 - 1 by decide) "" fun _ => .closeDelimited
  rw [htake]
  unfold nextCloseDelimited
  unfold fill at htake
  -- the two ways to write the taken segment
  have hpopped : ∀ a : HttpBody,
      a.takeSegment (2 ^ 64 - 1) (fun _ => .closeDelimited) = .ok (some segment, b') →
      ∃ raw, a.raw.popSegment (2 ^ 64 - 1) = some (segment, raw) ∧
        { a with raw, transfer := .closeDelimited } = b' := by
    intro a ha
    unfold takeSegment at ha
    cases hpop : a.raw.popSegment (2 ^ 64 - 1) with
    | none =>
      rw [hpop] at ha
      cases ha
    | some popped =>
      rw [hpop] at ha
      cases ha
      exact ⟨popped.2, rfl, rfl⟩
  dsimp only
  by_cases hempty : b.raw.isEmpty
  · rw [if_pos hempty] at htake ⊢
    by_cases heof : b.readMore.eof = true
    · rw [if_pos heof] at htake
      cases htake
    · rw [if_neg heof] at htake ⊢
      obtain ⟨raw, hpop, hraw⟩ := hpopped _ htake
      rw [hpop, ← hraw]
  · rw [if_neg hempty] at htake ⊢
    obtain ⟨raw, hpop, hraw⟩ := hpopped _ htake
    rw [hpop, ← hraw]

/-- A body that ends with the connection, which nothing can be missing of. -/
theorem delivers_closeDelimited (h : b.Pending body) (hmode : b.transfer = .closeDelimited) :
    Delivers body [] collected b := by
  -- by induction on the length that is left
  induction hn : body.length using Nat.strongRecOn generalizing b body collected with
  | ind n ih =>
    apply delivers_of_answers
    have hcall : b.nextSegment = { b with transfer := .contentLength 0 }.nextCloseDelimited := by
      simp only [nextSegment, hmode]
    have hpending := h.transfer (.contentLength 0)
    rw [hcall]
    by_cases hempty : body = []
    · subst hempty
      unfold nextCloseDelimited
      dsimp only
      rw [if_pos hpending.ended.1, if_pos hpending.ended.2]
      exact ⟨rfl, rfl⟩
    · rw [nextCloseDelimited_eq hpending hempty]
      obtain ⟨segment, b', rest, htake, hlive, _, hsplit, hrest, hmode'⟩ :=
        hpending.fill_takeSegment hempty (show 0 < 2 ^ 64 - 1 by decide) ""
          fun _ => .closeDelimited
      rw [htake]
      have hsome := List.length_pos_iff.mpr hlive
      have hlength := congrArg List.length hsplit
      rw [hn, List.length_append] at hlength
      exact ⟨rest, hsplit, ih rest.length (by omega) hrest hmode' rfl⟩

/-! ## Chunked bodies -/

/-- One step of the loop over the states, -/
theorem nextChunked_next {state state' : ChunkState} {b' : HttpBody}
    (h : chunkStep state b = .ok (.inr (state', b'))) :
    b.nextChunked state = b'.nextChunked state' := by
  apply loopResult_next
  simp only [chunkBody, h]

/-- the last one, -/
theorem nextChunked_answer {state : ChunkState} {answer : Option TimedBytes × HttpBody}
    (h : chunkStep state b = .ok (.inl answer)) : b.nextChunked state = .ok answer := by
  apply loopResult_done
  simp only [chunkBody, h]

/-- or one that fails. -/
theorem nextChunked_reported {state : ChunkState} (h : Reported (chunkStep state b)) :
    Reported (b.nextChunked state) := by
  obtain ⟨e, he⟩ := h
  refine ⟨e, loopResult_done ?_⟩
  simp only [chunkBody, he]

/-- The decoder in a state, on a stream that stops `missing` bytes before the end of `rest`. -/
def Decodes (state : ChunkState) (rest body : Bytes) : Prop :=
  ∀ ⦃b bytes missing collected⦄, Pending b bytes → bytes ++ missing = rest →
    Answers body missing collected (b.nextChunked state)

/-- Behind the trailers there is nothing. -/
theorem decodes_finished : Decodes .finished [] [] := by
  intro b bytes missing collected h hwhole
  obtain ⟨hbytes, hmissing⟩ := List.append_eq_nil_iff.mp hwhole
  subst hbytes
  have hstep : chunkStep .finished b
      = .ok (.inl (none, { b with transfer := .chunked .finished })) := by
    rw [chunkStep, failIf_of_not (not_not.mpr h.ended.1)]
    rfl
  rw [nextChunked_answer hstep]
  exact ⟨hmissing, rfl⟩

/-- A line of a chunked message that the decoder reads in `state`. -/
theorem decodes_line {state state' : ChunkState} {line rest body : Bytes} {maximum : Nat}
    (hline : 0x0d ∉ line) (hshort : line.length < maximum)
    (hread : ∀ b b' : HttpBody, b.readRawLine maximum = .ok (line, b') →
      chunkStep state b = .ok (.inr (state', b')))
    (hfail : ∀ b : HttpBody, Reported (b.readRawLine maximum) → Reported (chunkStep state b))
    (hrest : Decodes state' rest body) : Decodes state (line ++ crlf ++ rest) body := by
  intro b bytes missing collected h hwhole
  rcases h.line_or_cut hwhole hline hshort with ⟨b', bytes', hok, hb', hleft⟩ | ⟨hcut, hmissing⟩
  · rw [nextChunked_next (hread b b' hok)]
    exact hrest hb' hleft
  · exact answers_of_reported (nextChunked_reported (hfail b hcut)) hmissing

/-- The trailers, each of which has a colon, and the empty line behind them. -/
theorem decodes_trailers {trailers : List Bytes} (htrailers : ∀ trailer ∈ trailers,
    0x0d ∉ trailer ∧ trailer.length < maxHeaderBytes ∧ 0x3a ∈ trailer) :
    Decodes .trailers (trailers.flatMap (· ++ crlf) ++ crlf) [] := by
  have hfail : ∀ b : HttpBody, Reported (b.readRawLine maxHeaderBytes) →
      Reported (chunkStep .trailers b) := by
    intro b h
    exact h.bind _
  -- by induction on the trailers; the empty line ends them
  induction trailers with
  | nil =>
    have hread : ∀ b b' : HttpBody, b.readRawLine maxHeaderBytes = .ok ([], b') →
        chunkStep .trailers b = .ok (.inr (.finished, b')) := by
      intro b b' h
      rw [chunkStep, h]
      rfl
    exact decodes_line List.not_mem_nil (by decide) hread hfail decodes_finished
  | cons trailer trailers ih =>
    obtain ⟨hline, hshort, hcolon⟩ := htrailers trailer List.mem_cons_self
    have hread : ∀ b b' : HttpBody, b.readRawLine maxHeaderBytes = .ok (trailer, b') →
        chunkStep .trailers b = .ok (.inr (.trailers, b')) := by
      intro b b' h
      rw [chunkStep, h, ok_bind]
      dsimp only
      rw [if_neg (List.ne_nil_of_mem hcolon), failIf_of_not (not_not.mpr hcolon)]
      rfl
    rw [List.flatMap_cons, List.append_assoc]
    exact decodes_line hline hshort hread hfail
      (ih fun t ht => htrailers t (List.mem_cons_of_mem trailer ht))

/-- A line that announces a size. -/
structure SizeLine (line : Bytes) (size : Nat) : Prop where
  no_return : 0x0d ∉ line
  short : line.length < maxChunkLineBytes
  parsed : parseChunkSize line = .ok size

/-- The line with the size of a chunk. -/
theorem decodes_size {line rest body : Bytes} {size : Nat} (h : SizeLine line size)
    (hrest : Decodes (if size = 0 then .trailers else .data size) rest body) :
    Decodes .size (line ++ crlf ++ rest) body := by
  have hread : ∀ b b' : HttpBody, b.readRawLine maxChunkLineBytes = .ok (line, b') →
      chunkStep .size b = .ok (.inr (if size = 0 then .trailers else .data size, b')) := by
    intro b b' hline
    rw [chunkStep, hline, ok_bind]
    dsimp only
    rw [h.parsed]
    rfl
  have hfail : ∀ b : HttpBody, Reported (b.readRawLine maxChunkLineBytes) →
      Reported (chunkStep .size b) := by
    intro b hline
    exact hline.bind _
  exact decodes_line h.no_return h.short hread hfail hrest

/-- The end of line behind the data of a chunk. -/
theorem decodes_dataCrlf {rest body : Bytes} (hrest : Decodes .size rest body) :
    Decodes .dataCrlf (crlf ++ rest) body := by
  intro b bytes missing collected h hwhole
  by_cases htwo : 2 ≤ bytes.length
  · obtain ⟨back, hsplit, hleft⟩ := split_front hwhole.symm htwo
    obtain ⟨b', hread, hb'⟩ := h.readRawExact htwo
    have htake : bytes.take 2 = crlf := by
      rw [hsplit]
      rfl
    have hdrop : bytes.drop 2 = back := by
      rw [hsplit]
      rfl
    rw [htake] at hread
    rw [hdrop] at hb'
    have hstep : chunkStep .dataCrlf b = .ok (.inr (.size, b')) := by
      rw [chunkStep, hread, ok_bind]
      rfl
    rw [nextChunked_next hstep]
    exact hrest hb' hleft.symm
  · -- the message is cut before or within it
    have hcut : Reported (b.readRawExact 2) := h.readRawExact_cut (by omega)
    have hstep : Reported (chunkStep .dataCrlf b) := hcut.bind _
    apply answers_of_reported (nextChunked_reported hstep)
    rintro rfl
    rw [List.append_nil] at hwhole
    rw [hwhole] at htwo
    exact htwo (by rw [List.length_append]; exact Nat.le_add_right 2 _)

/-- The data of a chunk, segment by segment. -/
theorem decodes_data {data rest body : Bytes} (hrest : Decodes .size rest body) :
    Decodes (.data data.length) (data ++ (crlf ++ rest)) (data ++ body) := by
  -- by induction on the data that is left
  induction hn : data.length using Nat.strongRecOn generalizing data with
  | ind n ih =>
    intro b bytes missing collected h hwhole
    by_cases hzero : n = 0
    · have hdata : data = [] := List.length_eq_zero_iff.mp (hn.trans hzero)
      subst hdata
      have hstep : chunkStep (.data n) b = .ok (.inr (.dataCrlf, b)) := by
        rw [chunkStep, if_pos hzero]
        rfl
      rw [nextChunked_next hstep]
      exact decodes_dataCrlf hrest h hwhole
    · by_cases hempty : bytes = []
      · subst hempty
        -- the message is cut within the data
        have hstep : Reported (chunkStep (.data n) b) := by
          rw [chunkStep, if_neg hzero]
          exact (h.fill_end _).bind _
        apply answers_of_reported (nextChunked_reported hstep)
        rintro rfl
        have hdata : data = [] := (List.append_eq_nil_iff.mp hwhole.symm).1
        exact hzero (hn.symm.trans (congrArg List.length hdata))
      · obtain ⟨segment, b', left, htake, hlive, hle, hsplit, hleft, hmode⟩ :=
          h.fill_takeSegment hempty (Nat.pos_of_ne_zero hzero) "connection closed inside a chunk"
            fun taken => .chunked (.data (n - taken))
        have hstep : chunkStep (.data n) b = .ok (.inl (some segment, b')) := by
          obtain ⟨b₁, hfill, htake⟩ := bind_eq_ok.mp htake
          rw [chunkStep, if_neg hzero, hfill, ok_bind, htake]
          rfl
        rw [nextChunked_answer hstep]
        rw [hsplit, List.append_assoc] at hwhole
        obtain ⟨back, hdata, hback⟩ := split_front hwhole (by omega)
        have hsome := List.length_pos_iff.mpr hlive
        have hlength := congrArg List.length hdata
        rw [hn, List.length_append] at hlength
        refine ⟨back ++ body, by rw [hdata, List.append_assoc], ?_⟩
        apply delivers_of_answers
        -- the next call goes on with what is left of the chunk
        have hcall : b'.nextSegment
            = { b' with transfer := .contentLength 0 }.nextChunked (.data back.length) := by
          have hremaining : n - segment.bytes.length = back.length := by omega
          rw [hremaining] at hmode
          simp only [nextSegment, hmode]
        rw [hcall]
        exact ih back.length (by omega) rfl (hleft.transfer _) hback

/-- **Any division into chunks.** The induction is over the chunks; each has its line and some
data, and the last line announces no data. -/
theorem decodes_chunks {chunks : List (Bytes × Bytes)} {last : Bytes} {trailers : List Bytes}
    (hchunks : ∀ chunk ∈ chunks, SizeLine chunk.1 chunk.2.length ∧ chunk.2 ≠ [])
    (hlast : SizeLine last 0) (htrailers : ∀ trailer ∈ trailers,
      0x0d ∉ trailer ∧ trailer.length < maxHeaderBytes ∧ 0x3a ∈ trailer) :
    Decodes .size (chunks.flatMap (fun chunk => chunk.1 ++ crlf ++ (chunk.2 ++ crlf))
      ++ (last ++ crlf ++ (trailers.flatMap (· ++ crlf) ++ crlf))) (chunks.flatMap Prod.snd) := by
  induction chunks with
  | nil => exact decodes_size hlast (decodes_trailers htrailers)
  | cons chunk chunks ih =>
    obtain ⟨hline, hsome⟩ := hchunks chunk List.mem_cons_self
    have hrest := ih fun c hc => hchunks c (List.mem_cons_of_mem chunk hc)
    have hdata := @decodes_data chunk.2 _ _ hrest
    have hsize : chunk.2.length ≠ 0 := fun hzero => hsome (List.length_eq_zero_iff.mp hzero)
    rw [List.flatMap_cons, List.flatMap_cons, List.append_assoc, List.append_assoc,
      List.append_assoc, ← List.append_assoc chunk.1]
    apply decodes_size hline
    rw [if_neg hsize, List.append_assoc chunk.2]
    exact hdata

end

end Qwen3Tts.Bench.HttpBody
