import Mathlib.Data.List.Basic
import Mathlib.Data.List.GetD
import Mathlib.Tactic.Common

/-!
# Lib — flat memories

A memory is a function from addresses to cells. `store` is a copy into it, `load` a copy out of
it. A load returns what was stored when the ranges agree (`load_store`), what was there before when
they lie apart (`load_store_of_apart`), and two stores of adjacent ranges are one
(`store_append`).
-/

namespace Qwen3Tts.Lib

variable {β : Type*}

/-- Writes the data from the offset on. -/
def store (memory : Nat → β) (offset : Nat) (data : List β) : Nat → β :=
  fun address =>
    if offset ≤ address then data.getD (address - offset) (memory address) else memory address

/-- Reads `count` cells from the offset on. -/
def load (memory : Nat → β) (offset count : Nat) : List β :=
  (List.range count).map fun k => memory (offset + k)

section
variable {memory : Nat → β} {offset count address : Nat} {data : List β}

theorem length_load : (load memory offset count).length = count := by
  rw [load, List.length_map, List.length_range]

theorem store_nil : store memory offset [] = memory := by
  funext address
  rw [store, List.getD_nil, ite_self]

/-- Outside its range a store leaves the memory as it was. -/
theorem store_outside (h : address < offset ∨ offset + data.length ≤ address) :
    store memory offset data address = memory address := by
  unfold store
  split
  · exact List.getD_eq_default _ _ (by omega)
  · rfl

/-- A cell that was written holds the data. -/
theorem store_inside {k : Nat} (h : k < data.length) :
    store memory offset data (offset + k) = data[k] := by
  rw [store, if_pos (Nat.le_add_right offset k), Nat.add_sub_cancel_left,
    List.getD_eq_getElem _ _ h]

/-- Two memories agree on the cells that are read. -/
theorem load_eq_iff {other : Nat → β} : load memory offset count = load other offset count ↔
    ∀ k < count, memory (offset + k) = other (offset + k) := by
  unfold load
  rw [List.map_inj_left]
  constructor
  · intro h k hk
    exact h k (List.mem_range.mpr hk)
  · intro h k hk
    exact h k (List.mem_range.mp hk)

/-- What was written is read. -/
theorem load_store (h : data.length = count) :
    load (store memory offset data) offset count = data := by
  subst h
  apply List.ext_getElem length_load
  intro k _ hk
  simp only [load, List.getElem_map, List.getElem_range]
  exact store_inside hk

/-- A write elsewhere is not seen. -/
theorem load_store_of_apart {start : Nat}
    (h : offset + count ≤ start ∨ start + data.length ≤ offset) :
    load (store memory start data) offset count = load memory offset count := by
  apply load_eq_iff.mpr
  intro k hk
  exact store_outside (by omega)

/-- A read splits into two. -/
theorem load_add {more : Nat} :
    load memory offset (count + more) = load memory offset count
      ++ load memory (offset + count) more := by
  rw [load, List.range_add, List.map_append, List.map_map]
  congr 1
  apply List.map_congr_left
  intro k _
  show memory (offset + (count + k)) = memory (offset + count + k)
  rw [Nat.add_assoc]

/-- Two stores, one behind the other. -/
theorem store_append {more : List β} : store memory offset (data ++ more)
    = store (store memory offset data) (offset + data.length) more := by
  funext address
  -- the address lies before the end of the first part, in the second part, or outside
  by_cases hfront : address < offset + data.length
  · rw [store_outside (Or.inl hfront)]
    by_cases hinside : offset ≤ address
    · obtain ⟨k, rfl⟩ := Nat.exists_eq_add_of_le hinside
      have hk : k < data.length := by omega
      rw [store_inside hk, store_inside (by rw [List.length_append]; omega),
        List.getElem_append_left hk]
    · rw [store_outside (by omega), store_outside (by omega)]
  · by_cases hinside : address < offset + data.length + more.length
    · obtain ⟨k, rfl⟩ := Nat.exists_eq_add_of_le (Nat.le_of_not_lt hfront)
      have hk : k < more.length := by omega
      rw [store_inside hk, Nat.add_assoc, store_inside (by rw [List.length_append]; omega),
        List.getElem_append_right (by omega)]
      simp only [Nat.add_sub_cancel_left]
    · rw [store_outside (by rw [List.length_append]; omega), store_outside (by omega),
        store_outside (by omega)]

/-- A part of what a load returns. -/
theorem take_drop_load {first size : Nat} (h : first + size ≤ count) :
    ((load memory offset count).drop first).take size = load memory (offset + first) size := by
  obtain ⟨rest, rfl⟩ := Nat.exists_eq_add_of_le h
  rw [load_add, load_add, List.append_assoc, List.drop_left' length_load,
    List.take_left' length_load]

/-- A store hides the one before it when its range covers the other's. -/
theorem store_hides {other : Nat → β}
    (h : ∀ address, address < offset ∨ offset + data.length ≤ address →
      other address = memory address) :
    store other offset data = store memory offset data := by
  funext address
  by_cases hinside : offset ≤ address ∧ address < offset + data.length
  · obtain ⟨k, rfl⟩ := Nat.exists_eq_add_of_le hinside.1
    rw [store_inside (by omega), store_inside (by omega)]
  · rw [store_outside (by omega), store_outside (by omega)]
    exact h address (by omega)

end

end Qwen3Tts.Lib
