import Qwen3Tts.Bench.Http
import Qwen3Tts.Lib.Delimiter

/-!
# Bench — what the timed buffer holds

`Buffered` says which bytes a buffer holds, whatever its segments are, and every operation is
described by it. The matcher of `find` restarts a failed match with at most one byte; for the two
delimiters of the client that is the first place all the same (`find_crlf`, `find_headEnd`).
-/

namespace Qwen3Tts.Bench

open Qwen3Tts.Lib

/-! ## The matcher -/

section
variable {bytes : Bytes} {byte : UInt8}

section
variable {needle : Bytes} {matched position : Nat}

/-- The byte goes on with the match, -/
theorem findFrom_hit (h : byte = needle.getD matched 0) (hmore : matched + 1 ≠ needle.length) :
    findFrom needle (byte :: bytes) matched position
      = findFrom needle bytes (matched + 1) (position + 1) := by
  rw [findFrom, if_pos h, if_neg hmore]

/-- or completes it. -/
theorem findFrom_last (h : byte = needle.getD matched 0) (hlast : matched + 1 = needle.length) :
    findFrom needle (byte :: bytes) matched position = some (position + 1 - needle.length) := by
  rw [findFrom, if_pos h, if_pos hlast]

/-- Any other byte starts over, and may itself be the first one of the match. -/
theorem findFrom_restart (h : byte ≠ needle.getD matched 0) :
    findFrom needle (byte :: bytes) matched position
      = findFrom needle bytes (if byte = needle.getD 0 0 then 1 else 0) (position + 1) := by
  rw [findFrom, if_neg h]

end

/-- A byte that is not the delimiter's first moves the place. -/
theorem firstAt_other {byte : UInt8} {needle : Bytes} (h : byte ≠ 0x0d) (p : Nat) :
    (firstAt (0x0d :: needle) (byte :: bytes)).map (p + ·)
      = (firstAt (0x0d :: needle) bytes).map (p + 1 + ·) := by
  rw [firstAt_miss (by rw [List.cons_prefix_cons]; exact fun heq => h heq.1.symm), Option.map_map]
  congr 1
  funext n
  show p + (n + 1) = p + 1 + n
  omega

/-- A carriage return that does not start the delimiter moves the place. -/
theorem firstAt_return {needle : Bytes} (h : ¬ needle <+: bytes) (p : Nat) :
    (firstAt (0x0d :: needle) (0x0d :: bytes)).map (p + ·)
      = (firstAt (0x0d :: needle) bytes).map (p + 1 + ·) := by
  rw [firstAt_miss (by rw [List.cons_prefix_cons]; exact fun heq => h heq.2), Option.map_map]
  congr 1
  funext n
  show p + (n + 1) = p + 1 + n
  omega

/-- The matcher with one byte matched stands behind that byte. -/
theorem findFrom_crlf (p : Nat) :
    findFrom crlf bytes 0 p = (firstAt crlf bytes).map (p + ·) ∧
    findFrom crlf bytes 1 (p + 1) = (firstAt crlf (0x0d :: bytes)).map (p + ·) := by
  unfold crlf
  induction bytes generalizing p with
  | nil => exact ⟨rfl, rfl⟩
  | cons byte bytes ih =>
    -- a mismatch goes on with `byte` matched when it is a return, with nothing otherwise
    have hrestart : ∀ p, findFrom [0x0d, 0x0a] bytes (if byte = 0x0d then 1 else 0) (p + 1)
        = (firstAt [0x0d, 0x0a] (byte :: bytes)).map (p + ·) := by
      intro p
      by_cases hreturn : byte = 0x0d
      · subst hreturn
        exact (ih p).2
      · rw [if_neg hreturn, firstAt_other hreturn]
        exact (ih (p + 1)).1
    constructor
    · by_cases hbyte : byte = 0x0d
      · rw [findFrom_hit hbyte, hbyte]
        · exact (ih p).2
        · decide
      · rw [findFrom_restart hbyte]
        exact hrestart p
    · by_cases hbyte : byte = 0x0a
      · rw [findFrom_last hbyte, hbyte, firstAt_here ⟨bytes, rfl⟩]
        · rfl
        · rfl
      · rw [findFrom_restart hbyte, firstAt_return (by
          rw [List.cons_prefix_cons]
          exact fun heq => hbyte heq.1.symm)]
        exact hrestart (p + 1)

/-- The matcher with some bytes matched stands behind those bytes. -/
theorem findFrom_headEnd (p : Nat) :
    findFrom headEnd bytes 0 p = (firstAt headEnd bytes).map (p + ·) ∧
    findFrom headEnd bytes 1 (p + 1) = (firstAt headEnd (0x0d :: bytes)).map (p + ·) ∧
    findFrom headEnd bytes 2 (p + 2) = (firstAt headEnd (0x0d :: 0x0a :: bytes)).map (p + ·) ∧
    findFrom headEnd bytes 3 (p + 3)
      = (firstAt headEnd (0x0d :: 0x0a :: 0x0d :: bytes)).map (p + ·) := by
  have hheadEnd : headEnd = [0x0d, 0x0a, 0x0d, 0x0a] := rfl
  rw [hheadEnd]
  induction bytes generalizing p with
  | nil => exact ⟨rfl, rfl, rfl, rfl⟩
  | cons byte bytes ih =>
    -- a byte that does not fit begins at most a new match
    have hrestart : ∀ p, findFrom [0x0d, 0x0a, 0x0d, 0x0a] bytes (if byte = 0x0d then 1 else 0)
        (p + 1) = (firstAt [0x0d, 0x0a, 0x0d, 0x0a] (byte :: bytes)).map (p + ·) := by
      intro p
      by_cases hreturn : byte = 0x0d
      · subst hreturn
        exact (ih p).2.1
      · rw [if_neg hreturn, firstAt_other hreturn]
        exact (ih (p + 1)).1
    refine ⟨?_, ?_, ?_, ?_⟩
    · by_cases hbyte : byte = 0x0d
      · rw [findFrom_hit hbyte, hbyte]
        · exact (ih p).2.1
        · decide
      · rw [findFrom_restart hbyte]
        exact hrestart p
    · by_cases hbyte : byte = 0x0a
      · rw [findFrom_hit hbyte, hbyte]
        · exact (ih p).2.2.1
        · decide
      · rw [findFrom_restart hbyte, firstAt_return (by
          rw [List.cons_prefix_cons]
          exact fun heq => hbyte heq.1.symm)]
        exact hrestart (p + 1)
    · by_cases hbyte : byte = 0x0d
      · rw [findFrom_hit hbyte, hbyte]
        · exact (ih p).2.2.2
        · decide
      · -- behind two matched bytes no later start fits
        have hmiss : ¬ [0x0a, 0x0d, 0x0a] <+: 0x0a :: byte :: bytes := by
          rw [List.cons_prefix_cons, List.cons_prefix_cons]
          exact fun heq => hbyte heq.2.1.symm
        rw [findFrom_restart hbyte, firstAt_return hmiss, firstAt_other (by decide)]
        exact hrestart (p + 2)
    · by_cases hbyte : byte = 0x0a
      · rw [findFrom_last hbyte, hbyte, firstAt_here ⟨bytes, rfl⟩]
        · rfl
        · rfl
      · have hmiss : ¬ [0x0a, 0x0d, 0x0a] <+: 0x0a :: 0x0d :: byte :: bytes := by
          rw [List.cons_prefix_cons, List.cons_prefix_cons, List.cons_prefix_cons]
          exact fun heq => hbyte heq.2.2.1.symm
        have hagain : ¬ [0x0a, 0x0d, 0x0a] <+: byte :: bytes := by
          rw [List.cons_prefix_cons]
          exact fun heq => hbyte heq.1.symm
        rw [findFrom_restart hbyte, firstAt_return hmiss, firstAt_other (by decide),
          firstAt_return hagain]
        exact hrestart (p + 3)

end

/-! ## The buffer -/

/-- A buffer that holds `content`. -/
structure Buffered (buffer : TimedBuffer) (content : Bytes) : Prop where
  live : ∀ segment ∈ buffer.segments, segment.offset < segment.bytes.length
  joined : buffer.segments.flatMap Segment.unread = content
  len : buffer.len = content.length

namespace Buffered

variable {buffer : TimedBuffer} {content : Bytes}

/-- Nothing is buffered. -/
theorem empty : Buffered .default [] :=
  ⟨fun _ h => absurd h List.not_mem_nil, rfl, rfl⟩

/-- A read is appended, with its time; an empty one is dropped. -/
theorem push (h : Buffered buffer content) (bytes : Bytes) (arrived : Nat) :
    Buffered (buffer.push bytes arrived) (content ++ bytes) := by
  unfold TimedBuffer.push
  split
  · rename_i hempty
    rw [hempty, List.append_nil]
    exact h
  · rename_i hsome
    refine ⟨fun segment hsegment => ?_, ?_, ?_⟩
    · rcases List.mem_append.mp hsegment with hold | hnew
      · exact h.live segment hold
      · rw [List.mem_singleton.mp hnew]
        exact List.length_pos_iff.mpr hsome
    · rw [List.flatMap_append, h.joined]
      show content ++ (bytes.drop 0 ++ []) = content ++ bytes
      rw [List.drop_zero, List.append_nil]
    · show buffer.len + bytes.length = _
      rw [h.len, List.length_append]

/-- The buffer is empty when it holds no byte. -/
theorem isEmpty_iff (h : Buffered buffer content) : buffer.isEmpty ↔ content = [] := by
  unfold TimedBuffer.isEmpty
  rw [h.len, List.length_eq_zero_iff]

/-- The search for the end of a line, -/
theorem find_crlf (h : Buffered buffer content) : buffer.find crlf = firstAt crlf content := by
  unfold TimedBuffer.find
  rw [if_neg (by decide), h.joined, (findFrom_crlf 0).1]
  simp only [Nat.zero_add, Option.map_id_fun', id_eq]

/-- and for that of a head. -/
theorem find_headEnd (h : Buffered buffer content) :
    buffer.find headEnd = firstAt headEnd content := by
  unfold TimedBuffer.find
  rw [if_neg (by decide), h.joined, (findFrom_headEnd 0).1]
  simp only [Nat.zero_add, Option.map_id_fun', id_eq]

/-- The loop of `drain_bytes` takes a segment whole, or stops within it. -/
theorem drainLoop_spec {segments : List Segment} {count : Nat} (output : Bytes)
    (hlive : ∀ segment ∈ segments, segment.offset < segment.bytes.length)
    (hcount : count ≤ (segments.flatMap Segment.unread).length) :
    ∃ rest, drainLoop segments count output
        = .ok (rest, output ++ (segments.flatMap Segment.unread).take count) ∧
      (∀ segment ∈ rest, segment.offset < segment.bytes.length) ∧
      rest.flatMap Segment.unread = (segments.flatMap Segment.unread).drop count := by
  induction segments generalizing count output with
  | nil =>
    have hzero : count = 0 := Nat.le_zero.mp hcount
    subst hzero
    exact ⟨[], by rw [drainLoop, List.take_zero, List.append_nil], hlive, rfl⟩
  | cons front segments ih =>
    cases count with
    | zero => exact ⟨_, by rw [drainLoop, List.take_zero, List.append_nil], hlive, rfl⟩
    | succ count =>
      have hfront := hlive front List.mem_cons_self
      have hunread : front.unread.length = front.bytes.length - front.offset := List.length_drop
      rw [List.flatMap_cons] at hcount ⊢
      rw [List.length_append] at hcount
      rw [drainLoop]
      by_cases hwhole : front.bytes.length - front.offset ≤ count + 1
      · -- the segment is used up
        have htake : front.unread.take (count + 1) = front.unread :=
          List.take_of_length_le (by omega)
        have hdrop : front.unread.drop (count + 1) = [] := List.drop_of_length_le (by omega)
        rw [Nat.min_eq_left hwhole]
        rw [if_pos (by omega), ← hunread, List.take_length]
        obtain ⟨rest, hloop, hrest, hjoined⟩ := @ih (count + 1 - front.unread.length)
          (output ++ front.unread) (fun s hs => hlive s (List.mem_cons_of_mem _ hs)) (by omega)
        refine ⟨rest, ?_, hrest, ?_⟩
        · rw [hloop, List.append_assoc, List.take_append, htake]
        · rw [hjoined, List.drop_append, hdrop, List.nil_append]
      · rw [Nat.min_eq_right (by omega)]
        rw [if_neg (by omega)]
        refine ⟨{ front with offset := front.offset + (count + 1) } :: segments, ?_, ?_, ?_⟩
        · rw [List.take_append_of_le_length (by omega)]
        · intro segment hsegment
          rcases List.mem_cons.mp hsegment with heq | hmem
          · subst heq
            show front.offset + (count + 1) < front.bytes.length
            omega
          · exact hlive segment (List.mem_cons_of_mem _ hmem)
        · rw [List.flatMap_cons, List.drop_append_of_le_length (by omega)]
          congr 1
          show front.bytes.drop (front.offset + (count + 1))
            = (front.bytes.drop front.offset).drop (count + 1)
          rw [List.drop_drop]

/-- Bytes are taken from the front over any number of segments. -/
theorem drainBytes (h : Buffered buffer content) {count : Nat} (hcount : count ≤ content.length) :
    ∃ raw, buffer.drainBytes count = .ok (content.take count, raw) ∧
      Buffered raw (content.drop count) := by
  have hfits : count ≤ (buffer.segments.flatMap Segment.unread).length := by
    rw [h.joined]
    exact hcount
  obtain ⟨rest, hloop, hrest, hjoined⟩ := drainLoop_spec [] h.live hfits
  rw [h.joined] at hloop hjoined
  refine ⟨⟨rest, buffer.len - count⟩, ?_, hrest, hjoined, ?_⟩
  · unfold TimedBuffer.drainBytes
    rw [failIf_of_not (by rw [h.len]; omega), ok_bind, hloop]
    rfl
  · show buffer.len - count = _
    rw [h.len, List.length_drop]

/-- A segment is the front of what is buffered. -/
theorem popSegment (h : Buffered buffer content) (hsome : content ≠ []) {maximum : Nat}
    (hmaximum : 0 < maximum) :
    ∃ segment raw rest, buffer.popSegment maximum = some (segment, raw) ∧
      segment.bytes ≠ [] ∧ segment.bytes.length ≤ maximum ∧ content = segment.bytes ++ rest ∧
      Buffered raw rest := by
  obtain ⟨segments, len⟩ := buffer
  cases segments with
  | nil => exact absurd h.joined.symm hsome
  | cons front segments =>
    have hfront := h.live front List.mem_cons_self
    have hunread : front.unread.length = front.bytes.length - front.offset := List.length_drop
    have hjoined : content = front.unread ++ segments.flatMap Segment.unread := h.joined.symm
    have hlen : len = content.length := h.len
    obtain ⟨take, htake⟩ : ∃ take, min (front.bytes.length - front.offset) maximum = take :=
      ⟨_, rfl⟩
    have hpop : (⟨front :: segments, len⟩ : TimedBuffer).popSegment maximum
        = some (⟨front.unread.take take, front.arrived⟩,
          ⟨if front.offset + take = front.bytes.length then segments
            else { front with offset := front.offset + take } :: segments, len - take⟩) := by
      rw [← htake]
      rfl
    have htaken : (front.unread.take take).length = take := by
      rw [List.length_take, hunread]
      omega
    -- the front segment goes when it is read to its end, and stays with a larger offset else
    refine ⟨_, _, front.unread.drop take ++ segments.flatMap Segment.unread, hpop, ?_, ?_, ?_, ?_⟩
    · apply List.ne_nil_of_length_pos
      show 0 < (front.unread.take take).length
      omega
    · show (front.unread.take take).length ≤ maximum
      omega
    · show content = front.unread.take take ++ _
      rw [← List.append_assoc, List.take_append_drop, hjoined]
    · have hlength : content.length
          = (front.unread.drop take ++ segments.flatMap Segment.unread).length + take := by
        rw [hjoined, List.length_append, List.length_append, List.length_drop]
        omega
      refine ⟨fun segment hsegment => ?_, ?_, ?_⟩
      · split at hsegment
        · exact h.live segment (List.mem_cons_of_mem _ hsegment)
        · rcases List.mem_cons.mp hsegment with heq | hmem
          · subst heq
            show front.offset + take < front.bytes.length
            omega
          · exact h.live segment (List.mem_cons_of_mem _ hmem)
      · split
        · rw [List.drop_of_length_le (by omega), List.nil_append]
        · rw [List.flatMap_cons]
          congr 1
          show front.bytes.drop (front.offset + take) = (front.bytes.drop front.offset).drop take
          rw [List.drop_drop]
      · show len - take = _
        omega

end Buffered

end Qwen3Tts.Bench
