import Qwen3Tts.Bench.Delivered

/-!
# Bench — the segments of a body

`next_segment` never delivers a segment without bytes (`nextSegment_live`), in any transfer mode and
on any stream, so a reader behind it may take each segment for progress. The callers' loop keeps
none either (`collected_live`).
-/

namespace Qwen3Tts.Bench.HttpBody

open Qwen3Tts.Lib

/-- Some bytes are to come, or none. -/
def Readable (b : HttpBody) : Prop := ∃ bytes, b.Pending bytes

/-- A result that has read a segment has read bytes. -/
def Live (result : Except Failure (Option TimedBytes × HttpBody)) : Prop :=
  ∀ segment b, result = .ok (some segment, b) → segment.bytes ≠ [] ∧ b.Readable

variable {b b' : HttpBody}

/-- An error is no segment. -/
theorem live_of_reported {result : Except Failure (Option TimedBytes × HttpBody)}
    (h : Reported result) : Live result := by
  intro segment b hok
  obtain ⟨e, he⟩ := h
  rw [he] at hok
  cases hok

/-- A segment is taken out of the buffer when there is one, and else out of the next read. -/
theorem Readable.fill_takeSegment (h : b.Readable) {maximum : Nat} (hmaximum : 0 < maximum)
    (message : String) (transfer : Nat → TransferMode) :
    Live (do
      let b ← b.fill message
      b.takeSegment maximum transfer) := by
  obtain ⟨bytes, hpending⟩ := h
  by_cases hempty : bytes = []
  · subst hempty
    exact live_of_reported ((hpending.fill_end message).bind _)
  · obtain ⟨segment, b', rest, htake, hlive, -, -, hrest, -⟩ :=
      hpending.fill_takeSegment hempty hmaximum message transfer
    intro other b'' hok
    rw [htake] at hok
    cases hok
    exact ⟨hlive, rest, hrest⟩

/-- A line that was read leaves the rest to be read. -/
theorem Readable.readRawLine (h : b.Readable) {maximum : Nat} {line : Bytes}
    (hok : b.readRawLine maximum = .ok (line, b')) : b'.Readable := by
  obtain ⟨bytes, content, reads, hholds, -⟩ := h
  have htaken := readRawLine_search maximum hholds
  rw [hok] at htaken
  cases hsearch : search crlf (maximum < ·) (maximum < ·) content reads with
  | none =>
    rw [hsearch] at htaken
    obtain ⟨e, he⟩ := htaken
    cases he
  | some p =>
    rw [hsearch] at htaken
    obtain ⟨s, content', reads', heq, hholds', -⟩ := htaken
    cases heq
    exact ⟨_, content', reads', hholds', rfl⟩

/-- So does a fixed number of bytes. -/
theorem Readable.readRawExact (h : b.Readable) {count : Nat} {taken : Bytes}
    (hok : b.readRawExact count = .ok (taken, b')) : b'.Readable := by
  obtain ⟨bytes, hpending⟩ := h
  by_cases hcount : count ≤ bytes.length
  · obtain ⟨next, hread, hnext⟩ := hpending.readRawExact hcount
    rw [hread] at hok
    cases hok
    exact ⟨_, hnext⟩
  · obtain ⟨e, he⟩ := hpending.readRawExact_cut (Nat.lt_of_not_le hcount)
    rw [he] at hok
    cases hok

/-- An iteration of the chunked reader goes on with the bytes to come, or ends with a segment. -/
theorem Readable.chunkStep (h : b.Readable) (state : ChunkState) :
    (∀ state' b', HttpBody.chunkStep state b = .ok (.inr (state', b')) → b'.Readable) ∧
      ∀ result, HttpBody.chunkStep state b = .ok (.inl result) → Live (.ok result) := by
  cases state with
  | size =>
    constructor
    · intro state' b' hok
      obtain ⟨⟨line, b₁⟩, hline, hok⟩ := bind_eq_ok.mp hok
      obtain ⟨size, -, hok⟩ := bind_eq_ok.mp hok
      cases hok
      exact h.readRawLine hline
    · intro result hok
      obtain ⟨⟨line, b₁⟩, -, hok⟩ := bind_eq_ok.mp hok
      obtain ⟨size, -, hok⟩ := bind_eq_ok.mp hok
      cases hok
  | data remaining =>
    simp only [HttpBody.chunkStep]
    by_cases hzero : remaining = 0
    · rw [if_pos hzero]
      constructor
      · intro state' b' hok
        cases hok
        exact h
      · intro result hok
        cases hok
    · rw [if_neg hzero]
      -- only inside a chunk does a step give a segment
      have hlive := h.fill_takeSegment (Nat.pos_of_ne_zero hzero)
        "connection closed inside a chunk" fun taken => .chunked (.data (remaining - taken))
      constructor
      · intro state' b' hok
        obtain ⟨b₁, -, hok⟩ := bind_eq_ok.mp hok
        obtain ⟨answer, -, hok⟩ := bind_eq_ok.mp hok
        cases hok
      · intro result hok
        obtain ⟨b₁, hfill, hok⟩ := bind_eq_ok.mp hok
        obtain ⟨answer, htake, hok⟩ := bind_eq_ok.mp hok
        cases hok
        rw [hfill, ok_bind, htake] at hlive
        exact hlive
  | dataCrlf =>
    constructor
    · intro state' b' hok
      obtain ⟨⟨bytes, b₁⟩, hbytes, hok⟩ := bind_eq_ok.mp hok
      obtain ⟨_, -, hok⟩ := bind_eq_ok.mp hok
      cases hok
      exact h.readRawExact hbytes
    · intro result hok
      obtain ⟨⟨bytes, b₁⟩, -, hok⟩ := bind_eq_ok.mp hok
      obtain ⟨_, -, hok⟩ := bind_eq_ok.mp hok
      cases hok
  | trailers =>
    constructor
    · intro state' b' hok
      obtain ⟨⟨line, b₁⟩, hline, hok⟩ := bind_eq_ok.mp hok
      dsimp only at hok
      split at hok
      · cases hok
        exact h.readRawLine hline
      · obtain ⟨_, -, hok⟩ := bind_eq_ok.mp hok
        cases hok
        exact h.readRawLine hline
    · intro result hok
      obtain ⟨⟨line, b₁⟩, -, hok⟩ := bind_eq_ok.mp hok
      dsimp only at hok
      split at hok
      · cases hok
      · obtain ⟨_, -, hok⟩ := bind_eq_ok.mp hok
        cases hok
  | finished =>
    constructor
    · intro state' b' hok
      obtain ⟨_, -, hok⟩ := bind_eq_ok.mp hok
      cases hok
    · intro result hok segment b' heq
      obtain ⟨_, -, hok⟩ := bind_eq_ok.mp hok
      cases hok
      cases heq

/-- The steps up to the next answer. -/
theorem Readable.nextChunked (h : b.Readable) (state : ChunkState) :
    Live (b.nextChunked state) := by
  have hstep : ∀ s s' : ChunkState × HttpBody, s.2.Readable → chunkBody s = .inr s' →
      s'.2.Readable := by
    intro s s' hs hbody
    unfold chunkBody at hbody
    split at hbody
    · cases hbody
    · cases hbody
    · rename_i hok
      cases hbody
      exact (hs.chunkStep s.1).1 _ _ hok
  have hdone : ∀ (s : ChunkState × HttpBody) result, s.2.Readable → chunkBody s = .inl result →
      Live result := by
    intro s result hs hbody
    unfold chunkBody at hbody
    split at hbody
    · cases hbody
      intro segment b' hok
      cases hok
    · rename_i hok
      cases hbody
      exact (hs.chunkStep s.1).2 _ hok
    · cases hbody
  -- by induction on the loop, with the readable body as its invariant
  exact loopResult_induction (fun s : ChunkState × HttpBody => s.2.Readable) Live hstep hdone h

/-- **No segment is empty.** -/
theorem nextSegment_live (h : b.Readable) : Live b.nextSegment := by
  have hnext : { b with transfer := .contentLength 0 }.Readable := by
    obtain ⟨bytes, hpending⟩ := h
    exact ⟨bytes, hpending.transfer _⟩
  unfold nextSegment
  dsimp only
  split
  · rename_i remaining _
    unfold nextContentLength
    -- the body has been read to its length
    by_cases hzero : remaining = 0
    · rw [if_pos hzero]
      intro segment b' hok
      obtain ⟨_, -, hok⟩ := bind_eq_ok.mp hok
      cases hok
    · rw [if_neg hzero]
      exact hnext.fill_takeSegment (Nat.pos_of_ne_zero hzero) _ _
  · obtain ⟨bytes, hpending⟩ := hnext
    -- the connection may be closed
    by_cases hempty : bytes = []
    · subst hempty
      intro segment b' hok
      unfold nextCloseDelimited at hok
      dsimp only at hok
      rw [if_pos hpending.ended.1, if_pos hpending.ended.2] at hok
      cases hok
    · rw [nextCloseDelimited_eq hpending hempty]
      exact Readable.fill_takeSegment ⟨bytes, hpending⟩ (by decide) _ _
  · exact hnext.nextChunked _

/-- The loop over `next_segment` collects no empty segment. -/
theorem collected_live (h : b.Readable) {fuel : Nat} {segments : List TimedBytes}
    (hloop : loop collectBody fuel ([], b) = some (.ok segments)) :
    ∀ segment ∈ segments, segment.bytes ≠ [] := by
  -- The invariant: the segments so far have bytes, and the body can be read on.
  have hstep : ∀ s s' : List TimedBytes × HttpBody,
      (s.2.Readable ∧ ∀ segment ∈ s.1, segment.bytes ≠ []) → collectBody s = .inr s' →
      s'.2.Readable ∧ ∀ segment ∈ s'.1, segment.bytes ≠ [] := by
    rintro ⟨collected, b⟩ s' ⟨hreadable, hcollected⟩ hbody
    unfold collectBody at hbody
    split at hbody
    · cases hbody
    · cases hbody
    · rename_i segment b' hnext
      cases hbody
      obtain ⟨hsegment, hreadable'⟩ := nextSegment_live hreadable segment b' hnext
      refine ⟨hreadable', fun other hother => ?_⟩
      rcases List.mem_append.mp hother with hother | hother
      · exact hcollected other hother
      · rw [List.mem_singleton.mp hother]
        exact hsegment
  have hdone : ∀ (s : List TimedBytes × HttpBody) (r : Except Failure (List TimedBytes)),
      (s.2.Readable ∧ ∀ segment ∈ s.1, segment.bytes ≠ []) → collectBody s = .inl r →
      ∀ segments, r = .ok segments → ∀ segment ∈ segments, segment.bytes ≠ [] := by
    rintro ⟨collected, b⟩ r ⟨-, hcollected⟩ hbody segments hok
    unfold collectBody at hbody
    split at hbody
    · cases hbody
      cases hok
    · cases hbody
      cases hok
      exact hcollected
    · cases hbody
  exact loop_induction _ _ hstep hdone ⟨h, fun segment hs => absurd hs List.not_mem_nil⟩ hloop
    segments rfl

end Qwen3Tts.Bench.HttpBody
