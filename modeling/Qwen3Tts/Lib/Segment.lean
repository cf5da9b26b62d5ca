import Mathlib.Data.List.Basic
import Mathlib.Tactic.Common

/-!
# Lib — copies into a buffer, and queues of them

`overwrite` is a copy of fixed size into a buffer (`copy_from_slice`, `memcpy`): the segment behind
an offset is replaced, the length stays. `execute` is a queue of operations that are carried out in
their order, so that a position in the queue is a point in time.
-/

namespace Qwen3Tts.Lib

variable {β : Type*} {buffer data : List β} {offset count : Nat}

/-! ## One copy -/

/-- The data replaces what was at the offset. -/
def overwrite (buffer : List β) (offset : Nat) (data : List β) : List β :=
  buffer.take offset ++ data ++ buffer.drop (offset + data.length)

/-- Overwriting keeps the length. -/
theorem length_overwrite (h : offset + data.length ≤ buffer.length) :
    (overwrite buffer offset data).length = buffer.length := by
  simp only [overwrite, List.length_append, List.length_take, List.length_drop]
  omega

/-- What lies in front of the segment is untouched. -/
theorem take_overwrite_of_le (hcount : count ≤ offset) (h : offset ≤ buffer.length) :
    (overwrite buffer offset data).take count = buffer.take count := by
  have hlength : (buffer.take offset).length = offset := by
    rw [List.length_take]
    omega
  rw [overwrite, List.append_assoc, List.take_append_of_le_length (by omega), List.take_take,
    Nat.min_eq_left hcount]

/-- The buffer up to the end of the segment. -/
theorem take_overwrite (data : List β) (h : offset ≤ buffer.length) :
    (overwrite buffer offset data).take (offset + data.length) = buffer.take offset ++ data := by
  have hlength : (buffer.take offset ++ data).length = offset + data.length := by
    rw [List.length_append, List.length_take]
    omega
  rw [overwrite, List.take_append_of_le_length (by omega), List.take_of_length_le (by omega)]

/-- The front of a buffer after a copy to it. -/
theorem front_overwrite (buffer data : List β) :
    (overwrite buffer 0 data).take data.length = data := by
  have htake := take_overwrite data (Nat.zero_le buffer.length)
  rwa [Nat.zero_add, List.take_zero, List.nil_append] at htake

/-- What lies behind the segment is untouched. -/
theorem drop_overwrite (h : offset ≤ buffer.length) (hcount : offset + data.length ≤ count) :
    (overwrite buffer offset data).drop count = buffer.drop count := by
  have hlength : (buffer.take offset ++ data).length = offset + data.length := by
    rw [List.length_append, List.length_take]
    omega
  obtain ⟨rest, rfl⟩ := Nat.exists_eq_add_of_le hcount
  rw [overwrite, ← hlength, List.drop_append, List.drop_of_length_le (by omega), List.nil_append,
    Nat.add_sub_cancel_left, List.drop_drop]

/-- The segment that was overwritten. -/
theorem segment_overwrite (h : offset ≤ buffer.length) :
    ((overwrite buffer offset data).drop offset).take data.length = data := by
  have hlength : (buffer.take offset).length = offset := by
    rw [List.length_take]
    omega
  rw [List.take_drop, take_overwrite data h, List.drop_append_of_le_length (by omega),
    List.drop_of_length_le (by omega), List.nil_append]

/-- A segment apart from the one that was overwritten. -/
theorem segment_overwrite_of_apart {first : Nat}
    (h : offset ≤ buffer.length)
    (hapart : first + count ≤ offset ∨ offset + data.length ≤ first) :
    ((overwrite buffer offset data).drop first).take count = (buffer.drop first).take count := by
  rcases hapart with hfront | hbehind
  · rw [List.take_drop, take_overwrite_of_le hfront h, ← List.take_drop]
  · rw [drop_overwrite h hbehind]

/-- Setting one element overwrites it. -/
theorem set_eq_overwrite {value : β} (h : offset < buffer.length) :
    buffer.set offset value = overwrite buffer offset [value] := by
  rw [List.set_eq_take_append_cons_drop, if_pos h, overwrite, List.append_assoc]
  rfl

/-- A copy that ends where the buffer does. -/
theorem overwrite_of_end (h : offset + data.length = buffer.length) :
    overwrite buffer offset data = buffer.take offset ++ data := by
  rw [overwrite, List.drop_of_length_le (by omega), List.append_nil]

/-! ## A queue -/

variable {σ ω : Type*} {apply : σ → ω → σ} {memory : σ} {queue more : List ω}

/-- The operations of a queue, first in first out. -/
def execute (apply : σ → ω → σ) (memory : σ) (queue : List ω) : σ := queue.foldl apply memory

theorem execute_append :
    execute apply memory (queue ++ more) = execute apply (execute apply memory queue) more :=
  List.foldl_append

/-- **What every operation of a queue keeps, the queue keeps.** -/
theorem execute_keeps {P : σ → Prop} (hkeep : ∀ m, ∀ op ∈ queue, P m → P (apply m op))
    (h : P memory) : P (execute apply memory queue) := by
  induction queue generalizing memory with
  | nil => exact h
  | cons op queue ih =>
    have hfirst : P (apply memory op) := hkeep memory op List.mem_cons_self h
    exact ih (fun m op' hop' => hkeep m op' (List.mem_cons_of_mem op hop')) hfirst

end Qwen3Tts.Lib
