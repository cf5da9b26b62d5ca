import Qwen3Tts.Bench.Framing
import Qwen3Tts.Bench.PartReaders

/-!
# Bench — limits and segmentations

Every reader of a delimiter tests its limit twice: at the place of a delimiter it has found, and at
the amount that is buffered while it has none. The two tests do not fit together. A block whose
length is within the limit is refused when a read stops behind the limit and within the block's
delimiter, and `read_head` has no test of the place at all. `limits_met_iff` says for which
segmentations the limit is kept.
-/

namespace Qwen3Tts.Bench

open Qwen3Tts.Lib

/-! ## What a reader accepts -/

/-- The reader takes a block instead of reporting an error. -/
def Accepts {α : Type} (r : Except Failure α) : Prop := ∃ result, r = .ok result

theorem accepts_iff {σ : Type} {Holds : σ → Bytes → List Bytes → Prop} {size kept : Nat → Nat}
    {place : Option Nat} {bytes : Bytes} {r : Except Failure (Bytes × σ)}
    (h : Taken Holds size kept place bytes r) : Accepts r ↔ ∃ p, place = some p := by
  cases place with
  | none =>
    obtain ⟨e, he⟩ := h
    constructor
    · intro ⟨result, hresult⟩
      rw [he] at hresult
      cases hresult
    · intro ⟨p, hp⟩
      cases hp
  | some p =>
    obtain ⟨s, content, reads, hread, _⟩ := h
    exact ⟨fun _ => ⟨p, rfl⟩, fun _ => ⟨_, hread⟩⟩

section
variable {needle content : Bytes} {parts : List Bytes} {far long : Nat → Prop} [DecidablePred far]
  [DecidablePred long]

/-- When the search keeps a limit: the two tests have to agree on the block. -/
theorem search_keeps_iff (hneedle : needle ≠ []) (limit : Nat) :
    ((∃ p, search needle far long content parts = some p) ↔
      ∃ p, firstAt needle (content ++ parts.flatten) = some p ∧ p ≤ limit) ↔
    ∀ p, firstAt needle (content ++ parts.flatten) = some p →
      (p ≤ limit ↔ ¬ far p ∧
        ∀ stop ∈ stops content.length parts, stop < p + needle.length → ¬ long stop) := by
  -- without a delimiter there is nothing to keep
  cases hplace : firstAt needle (content ++ parts.flatten) with
  | none =>
    have hsearch : ∀ p, ¬ search needle far long content parts = some p := by
      intro p hp
      rw [search_eq_some hneedle, hplace] at hp
      cases hp.1
    constructor
    · intro _ p hp
      cases hp
    · intro _
      constructor
      · intro ⟨p, hp⟩
        exact absurd hp (hsearch p)
      · intro ⟨p, hp, _⟩
        cases hp
  | some p =>
    -- the search finds the only candidate
    have hsearch : (∃ q, search needle far long content parts = some q) ↔ ¬ far p ∧
        ∀ stop ∈ stops content.length parts, stop < p + needle.length → ¬ long stop := by
      constructor
      · intro ⟨q, hq⟩
        rw [search_eq_some hneedle, hplace] at hq
        cases hq.1
        exact hq.2
      · intro h
        exact ⟨p, (search_eq_some hneedle).mpr ⟨hplace, h⟩⟩
    rw [hsearch]
    constructor
    · intro h q hq
      cases hq
      rw [h]
      constructor
      · intro hp
        exact ⟨p, rfl, hp⟩
      · intro ⟨q, hq, hle⟩
        cases hq
        exact hle
    · intro h
      rw [← h p rfl]
      constructor
      · intro hp
        exact ⟨p, rfl, hp⟩
      · intro ⟨q, hq, hle⟩
        cases hq
        exact hle

end

/-- **When the limits are kept.** On a stream in some reads, each reader accepts the blocks within
its limit and no others exactly when no stop separates its two tests: `read_head` has to stop in the
head of a block beyond the limit and in no other; a line or a block of a part within the limit
must not end its read behind the limit and in front of the delimiter's end. -/
theorem limits_kept_iff (maximum : Nat) :
    (∀ (s : Incoming) content reads, s.Holds content reads →
      ((Accepts (headBlock s) ↔
          ∃ p, firstAt headEnd (content ++ reads.flatten) = some p ∧ p ≤ maxHeaderBytes) ↔
        ∀ p, firstAt headEnd (content ++ reads.flatten) = some p →
          (p ≤ maxHeaderBytes ↔
            ∀ stop ∈ stops content.length reads, stop < p + 4 → stop < maxHeaderBytes))) ∧
    (∀ (b : HttpBody) content reads, b.Holds content reads →
      ((Accepts (b.readRawLine maximum) ↔
          ∃ p, firstAt crlf (content ++ reads.flatten) = some p ∧ p ≤ maximum) ↔
        ∀ p, firstAt crlf (content ++ reads.flatten) = some p → p ≤ maximum →
          ∀ stop ∈ stops content.length reads, stop < p + 2 → stop ≤ maximum)) ∧
    ∀ delimiter, MultipartReader.Delimiter delimiter →
      ∀ (r : MultipartReader) frame content segments,
        MultipartReader.Holds frame r content segments →
      ((Accepts (r.readUntil delimiter maximum) ↔
          ∃ p, firstAt delimiter (content ++ segments.flatten) = some p ∧ p ≤ maximum) ↔
        ∀ p, firstAt delimiter (content ++ segments.flatten) = some p → p ≤ maximum →
          ∀ stop ∈ stops content.length segments, stop < p + delimiter.length →
            stop ≤ maximum) := by
  -- these two readers also test the place itself
  have hline : ∀ (p size : Nat) (amounts : List Nat),
      (p ≤ maximum ↔ ¬ maximum < p ∧
        ∀ stop ∈ amounts, stop < p + size → ¬ maximum < stop) ↔
      (p ≤ maximum → ∀ stop ∈ amounts, stop < p + size → stop ≤ maximum) := by
    intro p size amounts
    constructor
    · intro h hp stop hstop hlt
      exact Nat.not_lt.mp ((h.mp hp).2 stop hstop hlt)
    · intro h
      constructor
      · intro hp
        exact ⟨Nat.not_lt.mpr hp, fun stop hstop hlt => Nat.not_lt.mpr (h hp stop hstop hlt)⟩
      · intro hp
        exact Nat.not_lt.mp hp.1
  refine ⟨?_, ?_, ?_⟩
  · intro s content reads h
    rw [accepts_iff (headBlock_search h), search_keeps_iff (by decide)]
    simp only [not_false_eq_true, true_and, Nat.not_le]
    rfl
  · intro b content reads h
    rw [accepts_iff (HttpBody.readRawLine_search maximum h), search_keeps_iff (by decide)]
    simp only [hline]
    rfl
  · intro delimiter hdelimiter r frame content segments h
    rw [accepts_iff (MultipartReader.readUntil_search hdelimiter maximum h),
      search_keeps_iff hdelimiter.ne_nil]
    simp only [hline]

/-! ## A line that two segmentations disagree on -/

/-- A stream of two reads, behind the head. -/
def twoReads (first second : Bytes) : HttpBody where
  stream := [⟨first, 0⟩, ⟨second, 1⟩]
  raw := .default
  responseBytes := 0
  transfer := .chunked .size
  eof := false

theorem twoReads_holds {first second : Bytes} (hfirst : first ≠ []) (hsecond : second ≠ []) :
    (twoReads first second).Holds [] [first, second] := by
  refine ⟨⟨Buffered.empty, rfl, fun read hread => ?_⟩, fun h => absurd h Bool.false_ne_true⟩
  rcases List.mem_cons.mp hread with rfl | hread
  · exact hfirst
  · rw [List.mem_singleton.mp hread]
    exact hsecond

/-- **A chunk line of exactly the limit** is read when its end arrives with it, and refused when a
read stops between its carriage return and its line feed. -/
theorem limit_depends_on_reads : ∃ first second first' second' : Bytes,
    first ++ second = first' ++ second' ∧
    (∀ read ∈ [first, second, first', second'], read ≠ [] ∧ read.length ≤ readBufferBytes) ∧
    firstAt crlf (first ++ second) = some maxChunkLineBytes ∧
    Accepts ((twoReads first second).readRawLine maxChunkLineBytes) ∧
    ¬ Accepts ((twoReads first' second').readRawLine maxChunkLineBytes) := by
  have hlength : (List.replicate maxChunkLineBytes (0x61 : UInt8)).length = maxChunkLineBytes :=
    List.length_replicate
  have hreturn : 0x0d ∉ List.replicate maxChunkLineBytes (0x61 : UInt8) := fun h =>
    absurd (List.eq_of_mem_replicate h) (by decide)
  generalize List.replicate maxChunkLineBytes (0x61 : UInt8) = line at hlength hreturn
  have hplace : ∀ rest, firstAt crlf (line ++ (crlf ++ rest)) = some maxChunkLineBytes := by
    intro rest
    show firstAt (0x0d :: [0x0a]) (line ++ (0x0d :: 0x0a :: rest)) = _
    rw [firstAt_skip hreturn, firstAt_here ⟨rest, rfl⟩, ← hlength]
    rfl
  have hlimit : maxChunkLineBytes = 8192 := rfl
  have hbuffer : readBufferBytes = 16384 := rfl
  have hsize : crlf.length = 2 := rfl
  have htwo : (line ++ crlf).length = 8194 := by
    rw [List.length_append, hlength, hlimit, hsize]
  have hone : (line ++ [0x0d]).length = 8193 := by
    rw [List.length_append, hlength, hlimit, List.length_singleton]
  have hwhole : (twoReads (line ++ crlf) [0x30]).Holds [] [line ++ crlf, [0x30]] :=
    twoReads_holds (List.ne_nil_of_length_pos (by omega)) (List.cons_ne_nil _ _)
  have hcut : (twoReads (line ++ [0x0d]) [0x0a, 0x30]).Holds [] [line ++ [0x0d], [0x0a, 0x30]] :=
    twoReads_holds (List.ne_nil_of_length_pos (by omega)) (List.cons_ne_nil _ _)
  refine ⟨line ++ crlf, [0x30], line ++ [0x0d], [0x0a, 0x30], ?_, ?_, ?_, ?_, ?_⟩
  · rw [List.append_assoc, List.append_assoc]
    rfl
  · intro read hread
    simp only [List.mem_cons, List.not_mem_nil, or_false] at hread
    rcases hread with rfl | rfl | rfl | rfl
    · exact ⟨List.ne_nil_of_length_pos (by omega), by omega⟩
    · exact ⟨List.cons_ne_nil _ _, by rw [List.length_singleton]; omega⟩
    · exact ⟨List.ne_nil_of_length_pos (by omega), by omega⟩
    · exact ⟨List.cons_ne_nil _ _, by rw [List.length_cons, List.length_singleton]; omega⟩
  · rw [List.append_assoc]
    exact hplace [0x30]
  · rw [accepts_iff (HttpBody.readRawLine_search _ hwhole)]
    refine ⟨maxChunkLineBytes, (search_eq_some (by decide)).mpr ⟨?_, ?_, ?_⟩⟩
    · show firstAt crlf ([] ++ (line ++ crlf ++ ([0x30] ++ []))) = _
      rw [List.nil_append, List.append_assoc]
      exact hplace [0x30]
    · exact Nat.lt_irrefl _
    · -- the stops are 0, 8194 and 8195
      intro stop hstop hlt
      simp only [stops, List.length_nil, Nat.zero_add, htwo, List.mem_cons, List.not_mem_nil,
        or_false] at hstop
      rcases hstop with rfl | rfl | rfl
      · omega
      · omega
      · exact absurd hlt (by omega)
  · rw [accepts_iff (HttpBody.readRawLine_search _ hcut)]
    rintro ⟨p, hp⟩
    obtain ⟨hp, _, hstops⟩ := (search_eq_some (by decide)).mp hp
    have hfirst : firstAt crlf (line ++ [0x0d] ++ [0x0a, 0x30]) = some maxChunkLineBytes := by
      rw [List.append_assoc]
      exact hplace [0x30]
    rw [List.nil_append, List.flatten_cons, List.flatten_cons, List.flatten_nil, List.append_nil,
      hfirst] at hp
    have hsame : maxChunkLineBytes = p := Option.some.inj hp
    -- 8193 bytes are buffered between the carriage return and the line feed
    have hstop : 8193 ∈ stops 0 [line ++ [0x0d], [0x0a, 0x30]] := by
      simp only [stops, Nat.zero_add, hone, List.mem_cons, true_or, or_true]
    exact hstops 8193 hstop (by omega) (by omega)

end Qwen3Tts.Bench
