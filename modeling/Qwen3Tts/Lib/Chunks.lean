import Mathlib.Data.List.Basic
import Mathlib.Tactic.Common

/-!
# Lib — a stream cut into chunks of one size

`asChunks n xs` is the list of the whole chunks of `xs` and the rest that is shorter than one
(`slice::as_chunks`). `absorb` folds a function over the whole chunks and keeps the rest, which is
what a hash function does with the part of its message that it has seen. `absorb_append` is the
rule for a stream that arrives in pieces: absorb the rest of the first piece with the second.
-/

namespace Qwen3Tts.Lib

variable {β σ : Type*} {n : Nat} {xs ys block : List β}

/-- The full blocks of `n` elements and what is left. -/
def asChunks (n : Nat) (xs : List β) : List (List β) × List β :=
  ((List.range (xs.length / n)).map fun k => (xs.drop (k * n)).take n,
    xs.drop (xs.length / n * n))

/-- Less than a block is all left over. -/
theorem asChunks_of_lt (h : xs.length < n) : asChunks n xs = ([], xs) := by
  have hnone : xs.length / n = 0 := Nat.div_eq_of_lt h
  unfold asChunks
  rw [hnone, Nat.zero_mul, List.drop_zero]
  rfl

/-- A leading block is the first chunk. -/
theorem asChunks_cons (hn : 0 < n) (hblock : block.length = n) :
    asChunks n (block ++ ys) = (block :: (asChunks n ys).1, (asChunks n ys).2) := by
  -- one block more than the rest has
  have hcount : (block ++ ys).length / n = ys.length / n + 1 := by
    rw [List.length_append, hblock, Nat.add_comm, Nat.add_div_right _ hn]
  have hbehind : ∀ k, (block ++ ys).drop ((k + 1) * n) = ys.drop (k * n) := by
    intro k
    have hsplit : (k + 1) * n = block.length + k * n := by
      rw [hblock, Nat.succ_mul, Nat.add_comm]
    rw [hsplit, List.drop_append, List.drop_of_length_le (by omega), List.nil_append,
      Nat.add_sub_cancel_left]
  have hfirst : ((block ++ ys).drop (0 * n)).take n = block := by
    rw [Nat.zero_mul, List.drop_zero, ← hblock, List.take_left]
  unfold asChunks
  rw [hcount, hbehind, List.range_succ_eq_map, List.map_cons, List.map_map, hfirst]
  refine congrArg (fun rest => (block :: rest, ys.drop (ys.length / n * n))) ?_
  refine List.map_congr_left fun k _ => ?_
  show ((block ++ ys).drop ((k + 1) * n)).take n = (ys.drop (k * n)).take n
  rw [hbehind]

/-- A list that is long enough begins with a chunk. -/
theorem exists_chunk (h : n ≤ xs.length) : ∃ block ys, xs = block ++ ys ∧ block.length = n := by
  refine ⟨xs.take n, xs.drop n, (List.take_append_drop n xs).symm, ?_⟩
  rw [List.length_take]
  omega

/-- **Chunk by chunk**: the induction that follows `asChunks`. -/
theorem chunk_induction (hn : 0 < n) {P : List β → Prop} (hshort : ∀ xs, xs.length < n → P xs)
    (hchunk : ∀ block ys, block.length = n → P ys → P (block ++ ys)) (xs : List β) : P xs := by
  induction hlength : xs.length using Nat.strongRecOn generalizing xs with
  | ind length ih =>
    rcases Nat.lt_or_ge xs.length n with hlt | hge
    · exact hshort xs hlt
    · obtain ⟨block, ys, rfl, hblock⟩ := exists_chunk hge
      rw [List.length_append] at hlength
      exact hchunk block ys hblock (ih ys.length (by omega) ys rfl)

/-- Cutting may stop and go on with what was left. -/
theorem asChunks_append (hn : 0 < n) (xs ys : List β) :
    asChunks n (xs ++ ys) = ((asChunks n xs).1 ++ (asChunks n ((asChunks n xs).2 ++ ys)).1,
      (asChunks n ((asChunks n xs).2 ++ ys)).2) := by
  induction xs using chunk_induction hn with
  | hshort xs h => rw [asChunks_of_lt h]; rfl
  | hchunk block xs h ih => rw [List.append_assoc, asChunks_cons hn h, asChunks_cons hn h, ih]; rfl

/-- What is left is shorter than a block. -/
theorem length_rest (hn : 0 < n) (xs : List β) : (asChunks n xs).2.length = xs.length % n := by
  induction xs using chunk_induction hn with
  | hshort xs h => rw [asChunks_of_lt h, Nat.mod_eq_of_lt h]
  | hchunk block xs h ih =>
    rw [asChunks_cons hn h, ih, List.length_append, h, Nat.add_mod_left]

/-- Every chunk is full. -/
theorem length_of_mem_asChunks (hn : 0 < n) (h : block ∈ (asChunks n xs).1) : block.length = n := by
  induction xs using chunk_induction hn with
  | hshort xs hlt =>
    rw [asChunks_of_lt hlt] at h
    exact absurd h List.not_mem_nil
  | hchunk first xs hfirst ih =>
    rw [asChunks_cons hn hfirst] at h
    rcases List.mem_cons.mp h with rfl | hmem
    · exact hfirst
    · exact ih hmem

/-! ## What a fold over the chunks has seen -/

variable {step : σ → List β → σ} {s : σ}

/-- The state behind the whole chunks, and the rest. -/
def absorb (n : Nat) (step : σ → List β → σ) (s : σ) (xs : List β) : σ × List β :=
  ((asChunks n xs).1.foldl step s, (asChunks n xs).2)

/-- Less than a block is kept. -/
theorem absorb_of_lt (h : xs.length < n) : absorb n step s xs = (s, xs) := by
  unfold absorb
  rw [asChunks_of_lt h]
  rfl

/-- A full block is taken in at once. -/
theorem absorb_cons (hn : 0 < n) (hblock : block.length = n) :
    absorb n step s (block ++ ys) = absorb n step (step s block) ys := by
  unfold absorb
  rw [asChunks_cons hn hblock]
  rfl

theorem absorb_block (hn : 0 < n) (hblock : block.length = n) :
    absorb n step s block = (step s block, []) := by
  have hcons : absorb n step s (block ++ []) = absorb n step (step s block) [] :=
    absorb_cons hn hblock
  rw [List.append_nil] at hcons
  rw [hcons, absorb_of_lt hn]

/-- **A stream that arrives in pieces.** -/
theorem absorb_append (hn : 0 < n) (xs ys : List β) :
    absorb n step s (xs ++ ys)
      = absorb n step (absorb n step s xs).1 ((absorb n step s xs).2 ++ ys) := by
  unfold absorb
  rw [asChunks_append hn, List.foldl_append]

end Qwen3Tts.Lib
