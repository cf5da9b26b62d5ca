import Qwen3Tts.Bench.Multipart
import Qwen3Tts.Bench.Readers

/-!
# Bench — the readers of a multipart body

The state of the multipart reader is what it has buffered and the segments to come (`Holds`), as it
is for the readers of the socket; `read_until` is the search for its delimiter
(`readUntil_search`).
-/

namespace Qwen3Tts.Bench

open Qwen3Tts.Lib

namespace MultipartReader

/-- What the reading of segments does not change. -/
def frame (r : MultipartReader) : Bytes × Bytes × Bool × Bool × Option BenchError :=
  (r.boundaryLine, r.closingBoundaryLine, r.started, r.finished, r.body.failure)

/-- `content` is buffered, and `segments` are to come. -/
structure Holds (frame : Bytes × Bytes × Bool × Bool × Option BenchError) (r : MultipartReader)
    (content : Bytes) (segments : List Bytes) : Prop where
  buffer : Buffered r.buffer content
  segments : r.body.segments.map TimedBytes.bytes = segments
  framed : r.frame = frame

variable {frame : Bytes × Bytes × Bool × Bool × Option BenchError} {r : MultipartReader}
  {content : Bytes}

theorem Holds.pull_end (h : Holds frame r content []) (message : String) :
    Reported (r.pull message) := by
  have hsegments : r.body.segments = [] := List.map_eq_nil_iff.mp h.segments
  unfold pull BodySegments.nextSegment
  rw [hsegments]
  cases r.body.failure with
  | none => exact ⟨_, rfl⟩
  | some e => exact ⟨e, rfl⟩

theorem Holds.pull {segment : Bytes} {segments : List Bytes}
    (h : Holds frame r content (segment :: segments)) (message : String) :
    ∃ r', r.pull message = .ok r' ∧ Holds frame r' (content ++ segment) segments := by
  obtain ⟨first, rest, hsegments, hfirst, hrest⟩ := List.map_eq_cons_iff.mp h.segments
  refine ⟨{ r with
    body := ⟨rest, r.body.failure⟩, buffer := r.buffer.push first.bytes first.arrived }, ?_, ?_⟩
  · unfold MultipartReader.pull BodySegments.nextSegment
    rw [hsegments]
  · refine ⟨?_, hrest, h.framed⟩
    rw [← hfirst]
    exact h.buffer.push first.bytes first.arrived

/-- The delimiters that the matcher of `find` is made for. -/
def Delimiter (delimiter : Bytes) : Prop := delimiter = crlf ∨ delimiter = headEnd

theorem Delimiter.ne_nil {delimiter : Bytes} (h : Delimiter delimiter) : delimiter ≠ [] := by
  rcases h with rfl | rfl <;> decide

theorem Delimiter.find {delimiter : Bytes} (h : Delimiter delimiter) {buffer : TimedBuffer}
    (hbuffer : Buffered buffer content) : buffer.find delimiter = firstAt delimiter content := by
  rcases h with rfl | rfl
  · exact hbuffer.find_crlf
  · exact hbuffer.find_headEnd

/-- **`read_until` is the search for its delimiter.** -/
theorem readUntil_search {delimiter : Bytes} (hdelimiter : Delimiter delimiter) (maximum : Nat)
    {segments : List Bytes} (h : Holds frame r content segments) :
    Taken (Holds frame) (· + delimiter.length) id
      (search delimiter (maximum < ·) (maximum < ·) content segments)
      (content ++ segments.flatten) (r.readUntil delimiter maximum) := by
  -- the delimiter is buffered
  have hfound : ∀ {r : MultipartReader} {content : Bytes} {segments : List Bytes} {p : Nat},
      Holds frame r content segments → firstAt delimiter content = some p →
      ∃ result, untilBody delimiter maximum r = .inl result ∧
        Taken (Holds frame) (· + delimiter.length) id (if maximum < p then none else some p)
          (content ++ segments.flatten) result := by
    intro r content segments p h hp
    unfold untilBody
    rw [hdelimiter.find h.buffer, hp]
    dsimp only
    by_cases hfar : maximum < p
    · rw [if_pos hfar, if_pos hfar]
      exact ⟨_, rfl, _, rfl⟩
    · have hle := firstAt_le hp hdelimiter.ne_nil
      obtain ⟨buffer, hdrain, hbuffer⟩ := h.buffer.drainBytes hle
      rw [if_neg hfar, if_neg hfar, hdrain]
      refine ⟨_, rfl, { r with buffer }, _, segments, ?_, ⟨hbuffer, h.segments, h.framed⟩, ?_⟩
      · show Except.ok ((content.take (p + delimiter.length)).take p, _) = _
        have hshort : id p ≤ content.length := Nat.le_trans (Nat.le_add_right p _) hle
        rw [List.take_take, Nat.min_eq_left (Nat.le_add_right p _),
          List.take_append_of_le_length hshort]
        rfl
      · rw [List.drop_append_of_le_length hle]
  -- it is not, and the limit or the end is reached
  have hlost : ∀ {r : MultipartReader} {content : Bytes} {segments : List Bytes},
      Holds frame r content segments → firstAt delimiter content = none →
      maximum < content.length ∨ segments = [] →
      ∃ result, untilBody delimiter maximum r = .inl result ∧
        Taken (Holds frame) (· + delimiter.length) id none (content ++ segments.flatten)
          result := by
    intro r content segments h hp hend
    unfold untilBody
    rw [hdelimiter.find h.buffer, hp]
    dsimp only
    rw [h.buffer.len]
    by_cases hlong : maximum < content.length
    · rw [if_pos hlong]
      exact ⟨_, rfl, _, rfl⟩
    · have hsegments := hend.resolve_left hlong
      subst hsegments
      obtain ⟨e, he⟩ := h.pull_end "multipart body ended before a delimiter"
      unfold pullBody
      rw [if_neg hlong, he]
      exact ⟨_, rfl, e, rfl⟩
  -- it is not, and the next segment is pulled
  have hnext : ∀ {r : MultipartReader} {content segment : Bytes} {segments : List Bytes},
      Holds frame r content (segment :: segments) → firstAt delimiter content = none →
      ¬ maximum < content.length →
      ∃ r', untilBody delimiter maximum r = .inr r' ∧
        Holds frame r' (content ++ segment) segments := by
    intro r content segment segments h hp hshort
    obtain ⟨r', hpull, hr'⟩ := h.pull "multipart body ended before a delimiter"
    refine ⟨r', ?_, hr'⟩
    unfold untilBody pullBody
    rw [hdelimiter.find h.buffer, hp]
    dsimp only
    rw [h.buffer.len, if_neg hshort, hpull]
  obtain ⟨fuel, result, hloop, hout⟩ := loop_of_search (Holds frame)
    (Taken (Holds frame) (· + delimiter.length) id) hfound hlost hnext h
  unfold readUntil
  rw [loopResult_of_loop hloop]
  exact hout

end MultipartReader

end Qwen3Tts.Bench
