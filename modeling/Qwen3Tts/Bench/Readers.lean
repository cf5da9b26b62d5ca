import Qwen3Tts.Bench.Buffered

/-!
# Bench — the readers of a stream

`Holds` is the state of a reader: the bytes that are buffered and the reads to come. The readers of
a head and of a line are the search for their delimiter (`headBlock_search`,
`readRawLine_search`); the others take bytes that are there (`Pending`), however they are cut.
-/

namespace Qwen3Tts.Bench

open Qwen3Tts.Lib

/-- A failure that is reported; none of them is a panic. -/
def Reported {α : Type} (r : Except Failure α) : Prop := ∃ e, r = .error (.error e)

/-- An error ends what follows it. -/
theorem Reported.bind {α β : Type} {r : Except Failure α} (h : Reported r)
    (f : α → Except Failure β) : Reported (r >>= f) := by
  obtain ⟨e, rfl⟩ := h
  exact ⟨e, rfl⟩

/-- `content` is buffered, and `reads` are to come. -/
structure Incoming.Holds (s : Incoming) (content : Bytes) (reads : List Bytes) : Prop where
  raw : Buffered s.raw content
  stream : s.stream.map TimedBytes.bytes = reads
  live : ∀ read ∈ reads, read ≠ []

/-- A read behind the last byte gives none. -/
theorem Incoming.Holds.readInto_end {s : Incoming} {content : Bytes} (h : s.Holds content []) :
    s.readInto.1 = 0 := by
  have hstream : s.stream = [] := List.map_eq_nil_iff.mp h.stream
  simp only [readInto, hstream]

/-- Any other read is appended to what the buffer holds. -/
theorem Incoming.Holds.readInto {s : Incoming} {content read : Bytes} {reads : List Bytes}
    (h : s.Holds content (read :: reads)) :
    s.readInto.1 ≠ 0 ∧ s.readInto.2.Holds (content ++ read) reads := by
  obtain ⟨first, stream, hstream, hread, hreads⟩ := List.map_eq_cons_iff.mp h.stream
  have hsome := h.live read List.mem_cons_self
  simp only [Incoming.readInto, hstream]
  constructor
  · rw [hread]
    exact fun hzero => hsome (List.length_eq_zero_iff.mp hzero)
  · refine ⟨?_, hreads, fun r hr => h.live r (List.mem_cons_of_mem _ hr)⟩
    rw [← hread]
    exact h.raw.push first.bytes first.arrived

/-- What a reader gives back when its delimiter is at `p`. -/
def Taken {σ : Type} (Holds : σ → Bytes → List Bytes → Prop) (size kept : Nat → Nat)
    (place : Option Nat) (bytes : Bytes) (r : Except Failure (Bytes × σ)) : Prop :=
  match place with
  | some p => ∃ s content reads, r = .ok (bytes.take (kept p), s) ∧ Holds s content reads ∧
      content ++ reads.flatten = bytes.drop (size p)
  | none => Reported r

/-- **`read_head` is the search for the blank line**, without a bound on its place. -/
theorem headBlock_search {s : Incoming} {content : Bytes} {reads : List Bytes}
    (h : s.Holds content reads) :
    Taken Incoming.Holds (· + 4) (· + 4)
      (search headEnd (fun _ => False) (maxHeaderBytes ≤ ·) content reads)
      (content ++ reads.flatten) (headBlock s) := by
  -- found: the four bytes of the end belong to the block
  have hfound : ∀ {s : Incoming} {content : Bytes} {reads : List Bytes} {p : Nat},
      s.Holds content reads → firstAt headEnd content = some p → ∃ r, headBody s = .inl r ∧
        Taken Incoming.Holds (· + 4) (· + 4) (if False then none else some p)
          (content ++ reads.flatten) r := by
    intro s content reads p h hp
    have hle : p + 4 ≤ content.length := firstAt_le hp (by decide)
    obtain ⟨raw, hdrain, hraw⟩ := h.raw.drainBytes hle
    refine ⟨.ok (content.take (p + 4), { s with raw }), ?_, ?_⟩
    · unfold headBody
      rw [h.raw.find_headEnd, hp]
      dsimp only
      rw [hdrain]
      rfl
    · rw [if_neg id]
      refine ⟨{ s with raw }, _, reads, ?_, ⟨hraw, h.stream, h.live⟩, ?_⟩
      · rw [List.take_append_of_le_length hle]
      · rw [List.drop_append_of_le_length hle]
  -- not found, and no further read
  have hlost : ∀ {s : Incoming} {content : Bytes} {reads : List Bytes}, s.Holds content reads →
      firstAt headEnd content = none → maxHeaderBytes ≤ content.length ∨ reads = [] →
      ∃ r, headBody s = .inl r ∧
        Taken Incoming.Holds (· + 4) (· + 4) none (content ++ reads.flatten) r := by
    intro s content reads h hp hend
    unfold headBody
    rw [h.raw.find_headEnd, hp]
    dsimp only
    rw [h.raw.len]
    by_cases hlong : maxHeaderBytes ≤ content.length
    · rw [if_pos hlong]
      exact ⟨_, rfl, _, rfl⟩
    · have hreads := hend.resolve_left hlong
      subst hreads
      rw [if_neg hlong, if_pos h.readInto_end]
      exact ⟨_, rfl, _, rfl⟩
  -- not found yet
  have hnext : ∀ {s : Incoming} {content read : Bytes} {reads : List Bytes},
      s.Holds content (read :: reads) → firstAt headEnd content = none →
      ¬ maxHeaderBytes ≤ content.length →
      ∃ s', headBody s = .inr s' ∧ s'.Holds (content ++ read) reads := by
    intro s content read reads h hp hshort
    refine ⟨s.readInto.2, ?_, h.readInto.2⟩
    unfold headBody
    rw [h.raw.find_headEnd, hp]
    dsimp only
    rw [h.raw.len, if_neg hshort, if_neg h.readInto.1]
  obtain ⟨fuel, r, hloop, hout⟩ := loop_of_search Incoming.Holds
    (Taken Incoming.Holds (· + 4) (· + 4)) hfound hlost hnext h
  unfold headBlock
  rw [loopResult_of_loop hloop]
  exact hout

namespace HttpBody

/-- The end of the stream has been seen when nothing is to come. -/
structure Holds (b : HttpBody) (content : Bytes) (reads : List Bytes) : Prop where
  incoming : b.toIncoming.Holds content reads
  eof : b.eof = true → reads = []

/-- A read behind the last byte sets `eof`. -/
theorem Holds.readMore_end {b : HttpBody} {content : Bytes} (h : b.Holds content []) :
    b.readMore.eof = true := by
  unfold readMore
  split
  · assumption
  · exact decide_eq_true h.incoming.readInto_end

/-- Any other read is appended to the buffer of the body. -/
theorem Holds.readMore {b : HttpBody} {content read : Bytes} {reads : List Bytes}
    (h : b.Holds content (read :: reads)) :
    ¬ b.readMore.eof = true ∧ b.readMore.Holds (content ++ read) reads := by
  have hopen : ¬ b.eof = true := by
    intro heof
    cases h.eof heof
  have hread := h.incoming.readInto
  have hgoes : ¬ b.readMore.eof = true := by
    unfold HttpBody.readMore
    rw [if_neg hopen]
    exact fun hzero => hread.1 (of_decide_eq_true hzero)
  refine ⟨hgoes, ?_, fun heof => absurd heof hgoes⟩
  unfold HttpBody.readMore
  rw [if_neg hopen]
  exact hread.2

/-- **`read_raw_line` is the search for the line's end.** -/
theorem readRawLine_search {b : HttpBody} {content : Bytes} {reads : List Bytes} (maximum : Nat)
    (h : b.Holds content reads) :
    Taken Holds (· + 2) id (search crlf (maximum < ·) (maximum < ·) content reads)
      (content ++ reads.flatten) (b.readRawLine maximum) := by
  -- found, and short enough or not
  have hfound : ∀ {b : HttpBody} {content : Bytes} {reads : List Bytes} {p : Nat},
      b.Holds content reads → firstAt crlf content = some p → ∃ r, lineBody maximum b = .inl r ∧
        Taken Holds (· + 2) id (if maximum < p then none else some p)
          (content ++ reads.flatten) r := by
    intro b content reads p h hp
    unfold lineBody
    rw [h.incoming.raw.find_crlf, hp]
    dsimp only
    by_cases hfar : maximum < p
    · rw [if_pos hfar, if_pos hfar]
      exact ⟨_, rfl, _, rfl⟩
    · have hle : p + 2 ≤ content.length := firstAt_le hp (by decide)
      obtain ⟨raw, hdrain, hraw⟩ := h.incoming.raw.drainBytes hle
      rw [if_neg hfar, if_neg hfar, hdrain]
      refine ⟨_, rfl, { b with raw }, _, reads, ?_,
        ⟨⟨hraw, h.incoming.stream, h.incoming.live⟩, h.eof⟩, ?_⟩
      · show Except.ok ((content.take (p + 2)).take p, _) = _
        have hshort : id p ≤ content.length := Nat.le_trans (Nat.le_add_right p 2) hle
        rw [List.take_take, Nat.min_eq_left (Nat.le_add_right p 2),
          List.take_append_of_le_length hshort]
        rfl
      · rw [List.drop_append_of_le_length hle]
  -- not found, and no further read
  have hlost : ∀ {b : HttpBody} {content : Bytes} {reads : List Bytes}, b.Holds content reads →
      firstAt crlf content = none → maximum < content.length ∨ reads = [] →
      ∃ r, lineBody maximum b = .inl r ∧
        Taken Holds (· + 2) id none (content ++ reads.flatten) r := by
    intro b content reads h hp hend
    unfold lineBody
    rw [h.incoming.raw.find_crlf, hp]
    dsimp only
    rw [h.incoming.raw.len]
    by_cases hlong : maximum < content.length
    · rw [if_pos hlong]
      exact ⟨_, rfl, _, rfl⟩
    · have hreads := hend.resolve_left hlong
      subst hreads
      rw [if_neg hlong, if_pos h.readMore_end]
      exact ⟨_, rfl, _, rfl⟩
  -- not found yet
  have hnext : ∀ {b : HttpBody} {content read : Bytes} {reads : List Bytes},
      b.Holds content (read :: reads) → firstAt crlf content = none →
      ¬ maximum < content.length →
      ∃ b', lineBody maximum b = .inr b' ∧ b'.Holds (content ++ read) reads := by
    intro b content read reads h hp hshort
    refine ⟨b.readMore, ?_, h.readMore.2⟩
    unfold lineBody
    rw [h.incoming.raw.find_crlf, hp]
    dsimp only
    rw [h.incoming.raw.len, if_neg hshort, if_neg h.readMore.1]
  obtain ⟨fuel, r, hloop, hout⟩ := loop_of_search Holds (Taken Holds (· + 2) id) hfound hlost
    hnext h
  unfold readRawLine
  rw [loopResult_of_loop hloop]
  exact hout

/-! ## The bytes to come -/

/-- The bytes to come are `bytes`, wherever they are. -/
def Pending (b : HttpBody) (bytes : Bytes) : Prop :=
  ∃ content reads, b.Holds content reads ∧ bytes = content ++ reads.flatten

/-- The transfer mode is no part of the bytes to come. -/
theorem Pending.transfer {b : HttpBody} {bytes : Bytes} (h : b.Pending bytes)
    (transfer : TransferMode) : { b with transfer }.Pending bytes := by
  obtain ⟨content, reads, hholds, heq⟩ := h
  exact ⟨content, reads, ⟨hholds.incoming, hholds.eof⟩, heq⟩

/-- A line that the stream ends in. -/
theorem Pending.readRawLine_cut {b : HttpBody} {bytes : Bytes} (h : b.Pending bytes)
    (maximum : Nat) (hcut : firstAt crlf bytes = none) : Reported (b.readRawLine maximum) := by
  obtain ⟨content, reads, hholds, heq⟩ := h
  have htaken := readRawLine_search maximum hholds
  cases hsearch : search crlf (maximum < ·) (maximum < ·) content reads with
  | none =>
    rw [hsearch] at htaken
    exact htaken
  | some p =>
    rw [search_eq_some (by decide), ← heq, hcut] at hsearch
    cases hsearch.1

/-- A line below the limit is read, however the stream is cut. -/
theorem Pending.readRawLine {b : HttpBody} {line rest : Bytes}
    (h : b.Pending (line ++ crlf ++ rest)) {maximum : Nat} (hline : 0x0d ∉ line) (hshort : line.length < maximum) :
    ∃ b', b.readRawLine maximum = .ok (line, b') ∧ b'.Pending rest := by
  obtain ⟨content, reads, hholds, heq⟩ := h
  -- the first end of line is that of the line
  have hplace : firstAt crlf (line ++ crlf ++ rest) = some line.length := by
    rw [List.append_assoc]
    show firstAt (0x0d :: [0x0a]) (line ++ (0x0d :: 0x0a :: rest)) = _
    rw [firstAt_skip hline, firstAt_here ⟨rest, rfl⟩]
    rfl
  -- no stop before it is beyond the limit
  have hsearch : search crlf (maximum < ·) (maximum < ·) content reads = some line.length := by
    rw [search_eq_some (by decide), ← heq]
    refine ⟨hplace, by omega, fun stop _ hstop => ?_⟩
    have htwo : crlf.length = 2 := rfl
    omega
  have htaken := readRawLine_search maximum hholds
  rw [hsearch, ← heq] at htaken
  obtain ⟨b', content', reads', hread, hholds', hrest⟩ := htaken
  refine ⟨b', ?_, content', reads', hholds', ?_⟩
  · rw [hread]
    show Except.ok ((line ++ crlf ++ rest).take line.length, b') = _
    rw [List.append_assoc, List.take_left]
  · rw [hrest]
    show rest = (line ++ crlf ++ rest).drop (line.length + 2)
    have hlength : (line ++ crlf).length = line.length + 2 := List.length_append
    rw [← hlength, List.drop_left]

/-- Bytes that may end within a line: the line is there, or the reader reports the end. -/
theorem Pending.line_or_cut {b : HttpBody} {bytes missing line rest : Bytes} (h : b.Pending bytes)
    (hwhole : bytes ++ missing = line ++ crlf ++ rest) {maximum : Nat} (hline : 0x0d ∉ line)
    (hshort : line.length < maximum) :
    (∃ b' bytes', b.readRawLine maximum = .ok (line, b') ∧ b'.Pending bytes' ∧
      bytes' ++ missing = rest) ∨
    (Reported (b.readRawLine maximum) ∧ missing ≠ []) := by
  rcases List.append_eq_append_iff.mp hwhole with ⟨front, hfront, hmissing⟩ | ⟨tail, htail, hrest⟩
  · -- `bytes ++ front` is the line with its end
    by_cases hnone : front = []
    · subst hnone
      rw [List.append_nil] at hfront
      left
      have hend : b.Pending (line ++ crlf ++ []) := by
        rw [List.append_nil, hfront]
        exact h
      obtain ⟨b', hread, hb'⟩ := hend.readRawLine hline hshort
      exact ⟨b', [], hread, hb', hmissing⟩
    · right
      constructor
      · apply h.readRawLine_cut
        have hplace : firstAt crlf (bytes ++ front) = some line.length := by
          rw [← hfront]
          show firstAt (0x0d :: [0x0a]) (line ++ [0x0d, 0x0a]) = _
          rw [firstAt_skip hline]
          rfl
        rw [firstAt_arrived hplace (by decide), if_neg]
        have hlength := congrArg List.length hfront
        have hsome := List.length_pos_iff.mpr hnone
        rw [List.length_append, List.length_append] at hlength
        have htwo : crlf.length = 2 := rfl
        omega
      · rw [hmissing]
        exact fun hnil => hnone (List.append_eq_nil_iff.mp hnil).1
  · left
    rw [htail] at h
    obtain ⟨b', hread, hb'⟩ := h.readRawLine hline hshort
    exact ⟨b', tail, hread, hb', hrest.symm⟩

/-- Bytes that have arrived. -/
theorem readRawExact_buffered {b : HttpBody} {content : Bytes} {reads : List Bytes} {count : Nat}
    (h : b.Holds content reads) (hcount : count ≤ content.length) :
    ∃ b', b.readRawExact count = .ok (content.take count, b') ∧
      b'.Holds (content.drop count) reads := by
  obtain ⟨raw, hdrain, hraw⟩ := h.incoming.raw.drainBytes hcount
  refine ⟨{ b with raw }, loopResult_done ?_, ⟨hraw, h.incoming.stream, h.incoming.live⟩, h.eof⟩
  unfold exactBody
  rw [h.incoming.raw.len, if_neg (by omega), hdrain]
  rfl

/-- `read_raw_exact` takes bytes that are there. -/
theorem readRawExact_spec {b : HttpBody} {content : Bytes} {reads : List Bytes} (count : Nat)
    (h : b.Holds content reads) :
    if count ≤ (content ++ reads.flatten).length then
      ∃ b', b.readRawExact count = .ok ((content ++ reads.flatten).take count, b') ∧
        b'.Pending ((content ++ reads.flatten).drop count)
    else Reported (b.readRawExact count) := by
  by_cases hcount : count ≤ content.length
  · rw [if_pos (by rw [List.length_append]; omega), List.take_append_of_le_length hcount,
      List.drop_append_of_le_length hcount]
    obtain ⟨b', hread, hb'⟩ := readRawExact_buffered h hcount
    exact ⟨b', hread, _, reads, hb', rfl⟩
  · -- by induction on the reads that are left
    induction reads generalizing b content with
    | nil =>
      rw [List.flatten_nil, List.append_nil, if_neg hcount]
      have hbody : exactBody count b
          = .inl (.error (httpError "connection closed inside transfer framing")) := by
        unfold exactBody
        rw [h.incoming.raw.len, if_pos (by omega), if_pos h.readMore_end]
      exact ⟨_, loopResult_done hbody⟩
    | cons read reads ih =>
      have hbody : exactBody count b = .inr b.readMore := by
        unfold exactBody
        rw [h.incoming.raw.len, if_pos (by omega), if_neg h.readMore.1]
      have hnext : b.readRawExact count = b.readMore.readRawExact count := loopResult_next hbody
      rw [hnext, List.flatten_cons, ← List.append_assoc]
      by_cases henough : count ≤ (content ++ read).length
      · rw [if_pos (by rw [List.length_append]; omega), List.take_append_of_le_length henough,
          List.drop_append_of_le_length henough]
        obtain ⟨b', hread, hb'⟩ := readRawExact_buffered h.readMore.2 henough
        exact ⟨b', hread, _, reads, hb', rfl⟩
      · exact ih h.readMore.2 henough

/-- Enough bytes are still to come, -/
theorem Pending.readRawExact {b : HttpBody} {bytes : Bytes} (h : b.Pending bytes) {count : Nat}
    (hcount : count ≤ bytes.length) :
    ∃ b', b.readRawExact count = .ok (bytes.take count, b') ∧ b'.Pending (bytes.drop count) := by
  obtain ⟨content, reads, hholds, heq⟩ := h
  have hspec := readRawExact_spec count hholds
  rw [← heq, if_pos hcount] at hspec
  exact hspec

/-- or too few. -/
theorem Pending.readRawExact_cut {b : HttpBody} {bytes : Bytes} (h : b.Pending bytes) {count : Nat}
    (hcount : bytes.length < count) : Reported (b.readRawExact count) := by
  obtain ⟨content, reads, hholds, heq⟩ := h
  have hspec := readRawExact_spec count hholds
  rw [← heq, if_neg (Nat.not_le.mpr hcount)] at hspec
  exact hspec

/-- The next segment, for a framing that expects more bytes. -/
theorem Pending.fill_takeSegment {b : HttpBody} {bytes : Bytes} (h : b.Pending bytes)
    (hsome : bytes ≠ []) {maximum : Nat} (hmaximum : 0 < maximum) (message : String)
    (transfer : Nat → TransferMode) :
    ∃ segment b' rest, (do
        let b ← b.fill message
        b.takeSegment maximum transfer) = .ok (some segment, b') ∧
      segment.bytes ≠ [] ∧ segment.bytes.length ≤ maximum ∧ bytes = segment.bytes ++ rest ∧
      b'.Pending rest ∧ b'.transfer = transfer segment.bytes.length := by
  -- what is buffered is given out first
  have hbuffered : ∀ {b : HttpBody} {content : Bytes} {reads : List Bytes},
      b.Holds content reads → content ≠ [] → ∃ segment b' rest,
        b.takeSegment maximum transfer = .ok (some segment, b') ∧ segment.bytes ≠ [] ∧
        segment.bytes.length ≤ maximum ∧ content ++ reads.flatten = segment.bytes ++ rest ∧
        b'.Pending rest ∧ b'.transfer = transfer segment.bytes.length := by
    intro b content reads h hsome
    obtain ⟨segment, raw, rest, hpop, hlive, hle, hsplit, hraw⟩ :=
      h.incoming.raw.popSegment hsome hmaximum
    refine ⟨segment, { b with raw, transfer := transfer segment.bytes.length },
      rest ++ reads.flatten, ?_, hlive, hle, ?_, ?_, rfl⟩
    · unfold takeSegment
      rw [hpop]
    · rw [hsplit, List.append_assoc]
    · exact ⟨rest, reads, ⟨⟨hraw, h.incoming.stream, h.incoming.live⟩, h.eof⟩, rfl⟩
  obtain ⟨content, reads, hholds, heq⟩ := h
  unfold fill
  -- an empty buffer is filled by one more read
  by_cases hempty : content = []
  · subst hempty
    rw [if_pos (hholds.incoming.raw.isEmpty_iff.mpr rfl)]
    cases reads with
    | nil => exact absurd heq hsome
    | cons read reads =>
      have hread := hholds.incoming.live read List.mem_cons_self
      have hmore : b.readMore.Holds read reads := hholds.readMore.2
      have hnext := hbuffered hmore hread
      rw [if_neg hholds.readMore.1, ok_bind, heq]
      exact hnext
  · rw [if_neg fun h => hempty (hholds.incoming.raw.isEmpty_iff.mp h), ok_bind, heq]
    exact hbuffered hholds hempty

/-- Nothing is buffered, and the next read is the end of the stream. -/
theorem Pending.ended {b : HttpBody} (h : b.Pending []) :
    b.raw.isEmpty ∧ b.readMore.eof = true := by
  obtain ⟨content, reads, hholds, heq⟩ := h
  obtain ⟨hcontent, hflat⟩ := List.append_eq_nil_iff.mp heq.symm
  have hreads : reads = [] := by
    cases reads with
    | nil => rfl
    | cons read reads =>
      rw [List.flatten_cons] at hflat
      exact absurd (List.append_eq_nil_iff.mp hflat).1
        (hholds.incoming.live read List.mem_cons_self)
  subst hcontent hreads
  exact ⟨hholds.incoming.raw.isEmpty_iff.mpr rfl, hholds.readMore_end⟩

/-- Behind the last byte there is none to fill the buffer with. -/
theorem Pending.fill_end {b : HttpBody} (h : b.Pending []) (message : String) :
    Reported (b.fill message) := by
  unfold fill
  rw [if_pos h.ended.1, if_pos h.ended.2]
  exact ⟨_, rfl⟩

end HttpBody

end Qwen3Tts.Bench
