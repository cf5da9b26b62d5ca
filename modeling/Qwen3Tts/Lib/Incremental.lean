import Mathlib.Data.List.Basic

/-!
# Lib — processors of a list that may be cut anywhere

An `Incremental` processor turns a list into a list and carries a state. Its law says that a list
may be handed over in pieces: the outputs of the pieces, each from the state the one before left,
are the output of the whole, and so is the last state. Processors are built from one element at a
time, from a function that is a homomorphism, and by putting one behind another.

A stage that makes `width` outputs of each position is given by `blocks`.
-/

namespace Qwen3Tts.Lib

variable {σ τ α β γ : Type*}

structure Incremental (σ α β : Type*) where
  run : σ → List α → List β × σ
  run_nil : ∀ s, run s [] = ([], s)
  run_append : ∀ s xs ys, run s (xs ++ ys) =
    ((run s xs).1 ++ (run (run s xs).2 ys).1, (run (run s xs).2 ys).2)

namespace Incremental

/-- One element at a time. -/
def stepping (step : σ → α → List β × σ) : σ → List α → List β × σ
  | s, [] => ([], s)
  | s, x :: xs => ((step s x).1 ++ (stepping step (step s x).2 xs).1,
      (stepping step (step s x).2 xs).2)

def ofStep (step : σ → α → List β × σ) : Incremental σ α β where
  run := stepping step
  run_nil _ := rfl
  run_append s xs ys := by
    induction xs generalizing s with
    | nil => rfl
    | cons x xs ih =>
      show ((step s x).1 ++ (stepping step (step s x).2 (xs ++ ys)).1,
        (stepping step (step s x).2 (xs ++ ys)).2) = _
      rw [ih, ← List.append_assoc]
      rfl

/-- `g` behind `f`. -/
def andThen (f : Incremental σ α β) (g : Incremental τ β γ) : Incremental (σ × τ) α γ where
  run s xs := ((g.run s.2 (f.run s.1 xs).1).1, (f.run s.1 xs).2, (g.run s.2 (f.run s.1 xs).1).2)
  run_nil s := by rw [f.run_nil, g.run_nil]
  run_append s xs ys := by
    rw [f.run_append]
    show ((g.run s.2 (_ ++ _)).1, _, (g.run s.2 (_ ++ _)).2) = _
    rw [g.run_append]

/-- A function of the list alone behind `f`. -/
def post (f : Incremental σ α β) (h : List β → List γ) (h_nil : h [] = [])
    (h_append : ∀ xs ys, h (xs ++ ys) = h xs ++ h ys) : Incremental σ α γ where
  run s xs := (h (f.run s xs).1, (f.run s xs).2)
  run_nil s := by rw [f.run_nil, h_nil]
  run_append s xs ys := by
    rw [f.run_append]
    show (h (_ ++ _), _) = _
    rw [h_append]

theorem andThen_run (f : Incremental σ α β) (g : Incremental τ β γ) (s : σ × τ) (xs : List α) :
    (f.andThen g).run s xs =
      ((g.run s.2 (f.run s.1 xs).1).1, (f.run s.1 xs).2, (g.run s.2 (f.run s.1 xs).1).2) := rfl

theorem post_run (f : Incremental σ α β) (h : List β → List γ) (h_nil : h [] = [])
    (h_append : ∀ xs ys, h (xs ++ ys) = h xs ++ h ys) (s : σ) (xs : List α) :
    (f.post h h_nil h_append).run s xs = (h (f.run s xs).1, (f.run s xs).2) := rfl

end Incremental

/-! ## Blocks -/

/-- Item `k` is the item `k % width` of the position `k / width`. -/
def blocks (width : Nat) (f : Nat → Nat → β) (count : Nat) : List β :=
  (List.range (count * width)).map fun k => f (k / width) (k % width)

@[simp] theorem length_blocks (width : Nat) (f : Nat → Nat → β) (count : Nat) :
    (blocks width f count).length = count * width := by
  rw [blocks, List.length_map, List.length_range]

theorem blocks_congr {width count : Nat} {f g : Nat → Nat → β}
    (h : ∀ i < count, ∀ j < width, f i j = g i j) : blocks width f count = blocks width g count := by
  apply List.map_congr_left
  intro k hk
  have hlt : k < count * width := List.mem_range.mp hk
  have hwidth : 0 < width := Nat.pos_of_mul_pos_left (Nat.zero_lt_of_lt hlt)
  exact h _ (Nat.div_lt_of_lt_mul (Nat.mul_comm count width ▸ hlt)) _ (Nat.mod_lt k hwidth)

/-- The blocks of two runs of positions. -/
theorem blocks_add {width : Nat} (f : Nat → Nat → β) (m n : Nat) :
    blocks width f (m + n) = blocks width f m ++ blocks width (fun i => f (m + i)) n := by
  rcases Nat.eq_zero_or_pos width with rfl | hwidth
  · rfl
  unfold blocks
  rw [Nat.add_mul, List.range_add, List.map_append, List.map_map]
  congr 1
  apply List.map_congr_left
  intro k _
  show f ((m * width + k) / width) ((m * width + k) % width) = f (m + k / width) (k % width)
  rw [Nat.mul_comm m width, Nat.mul_add_div hwidth, Nat.mul_add_mod]

/-- Blocks as nested loops. -/
theorem blocks_eq_flatMap {width : Nat} (f : Nat → Nat → β) (count : Nat) :
    blocks width f count = (List.range count).flatMap fun i => (List.range width).map (f i) := by
  induction count with
  | zero => exact congrArg (List.map _ ∘ List.range) (Nat.zero_mul width)
  | succ count ih =>
    have hone : blocks width (fun i => f (count + i)) 1 = (List.range width).map (f count) := by
      unfold blocks
      rw [Nat.one_mul]
      apply List.map_congr_left
      intro k hk
      show f (count + k / width) (k % width) = _
      rw [Nat.div_eq_of_lt (List.mem_range.mp hk), Nat.mod_eq_of_lt (List.mem_range.mp hk),
        Nat.add_zero]
    rw [blocks_add, ih, hone, List.range_succ, List.flatMap_append, List.flatMap_singleton]

end Qwen3Tts.Lib
