import Mathlib.Algebra.Ring.Nat
import Mathlib.Logic.Function.Basic
import Qwen3Tts.Codec.Session
import Qwen3Tts.Lib.Memory

/-!
# Codec — sliding attention over a ring

`sliding_attention_kernel` and its twin that reads the position from device memory. The cache is a
ring of 72 rows for each layer and head, in one flat array. A cell that nothing has written since
the reset is `none`, and a launch that reads one has no result. Arithmetic is a parameter: the
kernel and `attention`, the attention over a list of rows, combine the same numbers in the same
order, so the equality needs no law of arithmetic (`attended_exactly`).
-/

namespace Qwen3Tts.Codec

open Qwen3Tts.Lib

/-! ## `codec_state.cu` -/

/-- The operations of the kernels on `float`. -/
structure Arithmetic (F : Type) where
  zero : F
  /-- `-3.402823466e+38F`. -/
  lowest : F
  /-- `0.125F`. -/
  scale : F
  add : F → F → F
  sub : F → F → F
  mul : F → F → F
  div : F → F → F
  fmaf : F → F → F → F
  fmaxf : F → F → F
  expf : F → F

def transformerLayers : Nat := 8
def kvHeads : Nat := 16
def headDim : Nat := 64

/-- `kNeuralKvElements`. -/
def neuralKvElements : Nat := 2 * transformerLayers * kvHeads * kvWindow * headDim

/-- The position of a key; that of the value lies half the array behind it. -/
def cacheIndex (layer head slot dimension : Nat) : Nat :=
  ((layer * kvHeads + head) * kvWindow + slot) * headDim + dimension

/-- `context->neural_kv`. -/
abbrev Cache (F : Type) := Nat → Option F

variable {F : Type}

/-- `first_position`. -/
def firstPosition (position : UInt64) : UInt64 :=
  if 72 < position + 1 then position + 1 - 72 else 0

/-- `count`, a `uint32_t`. -/
def attendedCount (position : UInt64) : Nat :=
  (position - firstPosition position + 1).toUInt32.toNat

/-- `source_slot`. -/
def sourceSlot (position : UInt64) (index : Nat) : Nat :=
  ((firstPosition position + UInt64.ofNat index) % 72).toNat

def storeDimension (key value : Nat → F) (layer head slot : Nat) (kv : Cache F)
    (dimension : Nat) : Cache F :=
  let index := cacheIndex layer head slot dimension
  Function.update (Function.update kv index (some (key (head * headDim + dimension))))
    (neuralKvElements / 2 + index) (some (value (head * headDim + dimension)))

/-- The loop that writes the row of the position. -/
def storeRow (key value : Nat → F) (layer head slot : Nat) (kv : Cache F) : Cache F :=
  (List.range headDim).foldl (storeDimension key value layer head slot) kv

/-- `score` of one row of the ring. -/
def scoreOf (a : Arithmetic F) (query : Nat → F) (kv : Cache F) (layer head slot : Nat) :
    Option F := do
  let score ← (List.range headDim).foldlM (fun score dimension => do
    let k ← kv (cacheIndex layer head slot dimension)
    pure (a.fmaf (query (head * headDim + dimension)) k score)) a.zero
  pure (a.mul score a.scale)

/-- The thread of one head; it writes its rows of the cache and of the output. -/
def attentionThread (a : Arithmetic F) (query key value : Nat → F) (layer : Nat)
    (position : UInt64) (s : Cache F × (Nat → F)) (head : Nat) :
    Option (Cache F × (Nat → F)) := do
  let kv := storeRow key value layer head (position % 72).toNat s.1
  let indices := List.range (attendedCount position)
  let scores ← indices.mapM fun index => scoreOf a query kv layer head (sourceSlot position index)
  let maximum := scores.foldl a.fmaxf a.lowest
  let weights := scores.map fun score => a.expf (a.sub score maximum)
  let denominator := weights.foldl a.add a.zero
  let results ← (List.range headDim).mapM fun dimension =>
    indices.foldlM (fun result index => do
      let v ← kv (neuralKvElements / 2
        + cacheIndex layer head (sourceSlot position index) dimension)
      pure (a.fmaf (a.div (weights.getD index a.zero) denominator) v result)) a.zero
  pure (kv, store s.2 (head * headDim) results)

/-- `sliding_attention_kernel<<<1, 16>>>`; the threads run in some order. -/
def slidingAttentionKernel (a : Arithmetic F) (order : List Nat) (query key value : Nat → F)
    (layer : Nat) (position : UInt64) (kv : Cache F) (output : Nat → F) :
    Option (Cache F × (Nat → F)) :=
  order.foldlM (attentionThread a query key value layer position) (kv, output)

/-- `sliding_attention_ptr_kernel<<<1, 16>>>`. -/
def slidingAttentionPtrKernel (a : Arithmetic F) (order : List Nat) (query key value : Nat → F)
    (layer : Nat) (positionPtr : Nat → UInt64) (kv : Cache F) (output : Nat → F) :
    Option (Cache F × (Nat → F)) :=
  let position := positionPtr 0
  order.foldlM (attentionThread a query key value layer position) (kv, output)

/-- What the attention of a frame is launched with, for each layer. -/
structure AttentionFrame (F : Type) where
  query : Nat → Nat → F
  key : Nat → Nat → F
  value : Nat → Nat → F
  /-- Whether the position goes through device memory. -/
  pointer : Nat → Bool
  positions : Nat → UInt64
  output : Nat → Nat → F
  /-- The order of the threads of a launch. -/
  order : Nat → List Nat
  order_perm : ∀ layer, (order layer).Perm (List.range kvHeads)

/-- The launch in `run_transformer_frame`. -/
def launchAttention (a : Arithmetic F) (frame : AttentionFrame F) (position : UInt64)
    (layer : Nat) (kv : Cache F) : Option (Cache F × (Nat → F)) :=
  if frame.pointer layer then
    slidingAttentionPtrKernel a (frame.order layer) (frame.query layer) (frame.key layer)
      (frame.value layer) layer (Function.update frame.positions 0 position) kv
      (frame.output layer)
  else
    slidingAttentionKernel a (frame.order layer) (frame.query layer) (frame.key layer)
      (frame.value layer) layer position kv (frame.output layer)

/-- The layers of a frame, with the output of each. -/
def runLayers (a : Arithmetic F) (frame : AttentionFrame F) (position : UInt64) :
    List Nat → Cache F → Option (Cache F × List (Nat → F))
  | [], kv => some (kv, [])
  | layer :: layers, kv => do
    let (kv, output) ← launchAttention a frame position layer kv
    let (kv, outputs) ← runLayers a frame position layers kv
    pure (kv, output :: outputs)

/-- Frames at consecutive positions. -/
def runFrames (a : Arithmetic F) :
    List (AttentionFrame F) → UInt64 → Cache F → Option (Cache F × List (List (Nat → F)))
  | [], _, kv => some (kv, [])
  | frame :: frames, position, kv => do
    let (kv, outputs) ← runLayers a frame position (List.range transformerLayers) kv
    let (kv, rest) ← runFrames a frames (position + 1) kv
    pure (kv, outputs :: rest)

/-- `neural_kv` behind the reset. -/
def resetCache : Cache F := fun _ => none

/-! ## Attention over a list of rows -/

/-- A key and a value, by dimension. -/
abbrev Row (F : Type) := (Nat → F) × (Nat → F)

def rowScore (a : Arithmetic F) (query : Nat → F) (row : Row F) : F :=
  a.mul ((List.range headDim).foldl (fun score d => a.fmaf (query d) (row.1 d) score) a.zero)
    a.scale

/-- Softmax attention of a query over rows, in their order. -/
def attention (a : Arithmetic F) (query : Nat → F) (rows : List (Row F)) (dimension : Nat) : F :=
  let scores := rows.map (rowScore a query)
  let maximum := scores.foldl a.fmaxf a.lowest
  let weights := scores.map fun score => a.expf (a.sub score maximum)
  let denominator := weights.foldl a.add a.zero
  (weights.zip rows).foldl
    (fun result entry => a.fmaf (a.div entry.1 denominator) (entry.2.2 dimension) result) a.zero

/-- The part of a packed vector that belongs to a head. -/
def headPart (vector : Nat → F) (head : Nat) : Nat → F := fun d => vector (head * headDim + d)

def AttentionFrame.row (frame : AttentionFrame F) (layer head : Nat) : Row F :=
  (headPart (frame.key layer) head, headPart (frame.value layer) head)

/-- The positions from `max(0, p - 71)` to `p`. -/
def window (p : Nat) : List Nat := List.range' (p - 71) (p + 1 - (p - 71))

/-! ## The layout of the cache -/

/-- Every cell of a key lies in the first half of the cache. -/
theorem cacheIndex_lt {layer head slot d : Nat} (hlayer : layer < transformerLayers)
    (hhead : head < kvHeads) (hslot : slot < kvWindow) (hd : d < headDim) :
    cacheIndex layer head slot d < neuralKvElements / 2 := by
  unfold cacheIndex neuralKvElements
  unfold transformerLayers kvHeads kvWindow headDim at *
  omega

/-- No two layers, heads, slots or dimensions share a cell. -/
theorem cacheIndex_inj {layer head slot d layer' head' slot' d' : Nat}
    (hhead : head < kvHeads) (hslot : slot < kvWindow) (hd : d < headDim)
    (hhead' : head' < kvHeads) (hslot' : slot' < kvWindow) (hd' : d' < headDim)
    (h : cacheIndex layer head slot d = cacheIndex layer' head' slot' d') :
    layer = layer' ∧ head = head' ∧ slot = slot' ∧ d = d' := by
  unfold cacheIndex at h
  unfold kvHeads kvWindow headDim at *
  omega

/-- The cells of a row hold it. -/
def RowAt (kv : Cache F) (layer head slot : Nat) (row : Row F) : Prop :=
  ∀ d < headDim, kv (cacheIndex layer head slot d) = some (row.1 d) ∧
    kv (neuralKvElements / 2 + cacheIndex layer head slot d) = some (row.2 d)

/-- What the loop has written after `n` dimensions. -/
theorem storeDimension_cells (key value : Nat → F) {layer head slot n : Nat} (kv : Cache F)
    (hlayer : layer < transformerLayers) (hhead : head < kvHeads) (hslot : slot < kvWindow)
    (hn : n ≤ headDim) {stored : Cache F}
    (hstored : stored = (List.range n).foldl (storeDimension key value layer head slot) kv) :
    (∀ d < n, stored (cacheIndex layer head slot d) = some (key (head * headDim + d)) ∧
      stored (neuralKvElements / 2 + cacheIndex layer head slot d)
        = some (value (head * headDim + d))) ∧
    ∀ cell, (∀ d < n, cell ≠ cacheIndex layer head slot d ∧
      cell ≠ neuralKvElements / 2 + cacheIndex layer head slot d) → stored cell = kv cell := by
  subst hstored
  -- by induction on the dimensions that are stored
  induction n with
  | zero => exact ⟨fun d hd => absurd hd (Nat.not_lt_zero d), fun _ _ => rfl⟩
  | succ n ih =>
    obtain ⟨hrow, hother⟩ := ih (by omega)
    have hlast := cacheIndex_lt hlayer hhead hslot (show n < headDim by omega)
    simp only [List.range_succ, List.foldl_append, List.foldl_cons, List.foldl_nil]
    rw [storeDimension]
    constructor
    · intro d hd
      have hindex := cacheIndex_lt hlayer hhead hslot (show d < headDim by omega)
      -- the dimension just stored, or one of the earlier ones
      by_cases heq : d = n
      · subst heq
        rw [Function.update_of_ne (by omega), Function.update_self, Function.update_self]
        exact ⟨rfl, rfl⟩
      · have hne : cacheIndex layer head slot d ≠ cacheIndex layer head slot n := by
          intro h
          exact heq (cacheIndex_inj hhead hslot (by omega) hhead hslot (by omega) h).2.2.2
        rw [Function.update_of_ne (by omega), Function.update_of_ne hne,
          Function.update_of_ne (by omega), Function.update_of_ne (by omega)]
        exact hrow d (by omega)
    · intro cell hcell
      obtain ⟨hkey, hvalue⟩ := hcell n (by omega)
      rw [Function.update_of_ne hvalue, Function.update_of_ne hkey]
      exact hother cell fun d hd => hcell d (by omega)

/-- The row of the position is in its slot. -/
theorem rowAt_storeRow (key value : Nat → F) {layer head slot : Nat} (kv : Cache F)
    (hlayer : layer < transformerLayers) (hhead : head < kvHeads) (hslot : slot < kvWindow) :
    RowAt (storeRow key value layer head slot kv) layer head slot
      (headPart key head, headPart value head) :=
  (storeDimension_cells key value kv hlayer hhead hslot (Nat.le_refl headDim) rfl).1

/-- Every other row is untouched. -/
theorem RowAt.storeRow {kv : Cache F} {layer' head' slot' : Nat} {row : Row F}
    (h : RowAt kv layer' head' slot' row) (key value : Nat → F) {layer head slot : Nat}
    (hlayer : layer < transformerLayers) (hhead : head < kvHeads) (hslot : slot < kvWindow)
    (hlayer' : layer' < transformerLayers) (hhead' : head' < kvHeads) (hslot' : slot' < kvWindow)
    (hne : layer' ≠ layer ∨ head' ≠ head ∨ slot' ≠ slot) :
    RowAt (storeRow key value layer head slot kv) layer' head' slot' row := by
  intro d hd
  have hother := (storeDimension_cells key value kv hlayer hhead hslot (Nat.le_refl headDim) rfl).2
  have hindex := cacheIndex_lt hlayer' hhead' hslot' hd
  -- another layer, head or slot has other cells, for the keys and for the values
  have hdifferent : ∀ e < headDim,
      cacheIndex layer' head' slot' d ≠ cacheIndex layer head slot e := by
    intro e he heq
    obtain ⟨rfl, rfl, rfl, -⟩ := cacheIndex_inj hhead' hslot' hd hhead hslot he heq
    rcases hne with h | h | h <;> exact h rfl
  have hcells : ∀ e < headDim, cacheIndex layer head slot e < neuralKvElements / 2 :=
    fun e he => cacheIndex_lt hlayer hhead hslot he
  obtain ⟨hkey, hvalue⟩ := h d hd
  constructor
  · rw [← hkey]
    apply hother
    intro e he
    have hcell := hcells e he
    exact ⟨hdifferent e he, by omega⟩
  · rw [← hvalue]
    apply hother
    intro e he
    have hcell := hcells e he
    have hne' := hdifferent e he
    exact ⟨by omega, by omega⟩

/-! ## Positions -/

/-- The first attended position is 71 before the current one, or zero. -/
theorem toNat_firstPosition {position : UInt64} (h : position.toNat + 1 < 2 ^ 64) :
    (firstPosition position).toNat = position.toNat - 71 := by
  have hnext : (position + 1).toNat = position.toNat + 1 := by
    rw [UInt64.toNat_add]
    show (position.toNat + 1) % 2 ^ 64 = _
    omega
  have h72 : (72 : UInt64).toNat = 72 := rfl
  unfold firstPosition
  split
  · rename_i hlong
    rw [UInt64.toNat_sub_of_le _ _ (Nat.le_of_lt hlong), hnext, h72]
    omega
  · rename_i hshort
    rw [UInt64.lt_iff_toNat_lt, hnext, h72] at hshort
    show 0 = _
    omega

/-- The number of attended positions. -/
theorem attendedCount_eq {position : UInt64} (h : position.toNat + 1 < 2 ^ 64) :
    attendedCount position = position.toNat + 1 - (position.toNat - 71) := by
  have hfirst := toNat_firstPosition h
  have hle : firstPosition position ≤ position := by
    rw [UInt64.le_iff_toNat_le]
    omega
  unfold attendedCount
  rw [UInt64.toNat_toUInt32, UInt64.toNat_add, UInt64.toNat_sub_of_le _ _ hle, hfirst]
  show (position.toNat - (position.toNat - 71) + 1) % 2 ^ 64 % 2 ^ 32 = _
  omega

/-- The slot of an attended position is that position modulo the window. -/
theorem sourceSlot_eq {position : UInt64} {index : Nat} (h : position.toNat + 1 < 2 ^ 64)
    (hindex : index < attendedCount position) :
    sourceSlot position index = (position.toNat - 71 + index) % 72 := by
  have hfirst := toNat_firstPosition h
  rw [attendedCount_eq h] at hindex
  unfold sourceSlot
  rw [UInt64.toNat_mod, UInt64.toNat_add, hfirst, UInt64.toNat_ofNat']
  show (position.toNat - 71 + index % 2 ^ 64) % 2 ^ 64 % 72 = _
  omega

/-! ## One thread -/

/-- A fold of steps that never fail does not fail. -/
theorem foldlM_some {α β : Type} {f : β → α → Option β} {g : β → α → β} {l : List α} {b : β}
    (h : ∀ x ∈ l, ∀ b, f b x = some (g b x)) : l.foldlM f b = some (l.foldl g b) := by
  induction l generalizing b with
  | nil => rfl
  | cons x l ih =>
    rw [List.foldlM_cons, h x List.mem_cons_self]
    exact ih fun y hy => h y (List.mem_cons_of_mem x hy)

/-- A map of steps that never fail does not fail. -/
theorem mapM_some {α β : Type} {f : α → Option β} {g : α → β} {l : List α}
    (h : ∀ x ∈ l, f x = some (g x)) : l.mapM f = some (l.map g) := by
  induction l with
  | nil => rfl
  | cons x l ih =>
    rw [List.mapM_cons, h x List.mem_cons_self, ih fun y hy => h y (List.mem_cons_of_mem x hy)]
    rfl

/-- The score of a row that is in its slot. -/
theorem scoreOf_eq {a : Arithmetic F} {query : Nat → F} {kv : Cache F} {layer head slot : Nat}
    {row : Row F} (h : RowAt kv layer head slot row) :
    scoreOf a query kv layer head slot = some (rowScore a (headPart query head) row) := by
  unfold scoreOf
  rw [foldlM_some (g := fun score d => a.fmaf (headPart query head d) (row.1 d) score)]
  · rfl
  · intro d hd score
    rw [(h d (List.mem_range.mp hd)).1]
    rfl

/-- Attention over rows that are given by their place. -/
theorem attention_map (a : Arithmetic F) (query : Nat → F) (n : Nat) (rows : Nat → Row F)
    (dimension : Nat) {scores weights : List F}
    (hscores : scores = (List.range n).map fun index => rowScore a query (rows index))
    (hweights : weights = scores.map fun score =>
      a.expf (a.sub score (scores.foldl a.fmaxf a.lowest))) :
    (List.range n).foldl (fun result index =>
        a.fmaf (a.div (weights.getD index a.zero) (weights.foldl a.add a.zero))
          ((rows index).2 dimension) result) a.zero
      = attention a query ((List.range n).map rows) dimension := by
  -- both sides sum the same terms: the weights by index on the left, zipped with the rows on the
  -- right
  have hplace : weights = (List.range n).map fun index =>
      a.expf (a.sub (rowScore a query (rows index)) (scores.foldl a.fmaxf a.lowest)) := by
    conv_lhs => rw [hweights, hscores, List.map_map]
    rw [hscores]
    rfl
  have hrows : ((List.range n).map rows).map (rowScore a query) = scores := by
    rw [hscores, List.map_map]
    rfl
  have hattention : attention a query ((List.range n).map rows) dimension
      = (weights.zip ((List.range n).map rows)).foldl (fun result entry =>
        a.fmaf (a.div entry.1 (weights.foldl a.add a.zero)) (entry.2.2 dimension) result)
          a.zero := by
    unfold attention
    dsimp only
    rw [hrows, ← hweights]
  rw [hattention]
  generalize weights.foldl a.add a.zero = denominator
  rw [hplace, List.zip_map', List.foldl_map]
  apply List.foldl_ext
  intro result index hindex
  have hlt := List.mem_range.mp hindex
  rw [List.getD_eq_getElem _ _ (by rw [List.length_map, List.length_range]; exact hlt)]
  rw [List.getElem_map, List.getElem_range]

/-- The rows that a thread reads. -/
theorem thread_spec (a : Arithmetic F) (query output : Nat → F) {key value : Nat → F}
    {layer head : Nat} {position : UInt64} {kv stored : Cache F} {rows : Nat → Row F}
    (hstored : stored = storeRow key value layer head (position % 72).toNat kv)
    (hrows : ∀ index < attendedCount position,
      RowAt stored layer head (sourceSlot position index) (rows index)) :
    attentionThread a query key value layer position (kv, output) head
      = some (stored, store output (head * headDim) ((List.range headDim).map
        (attention a (headPart query head) ((List.range (attendedCount position)).map rows)))) := by
  -- every row is in the ring, so no score is missing
  have hscores : ((List.range (attendedCount position)).mapM fun index =>
      scoreOf a query stored layer head (sourceSlot position index))
      = some ((List.range (attendedCount position)).map fun index =>
        rowScore a (headPart query head) (rows index)) := by
    apply mapM_some
    intro index hindex
    exact scoreOf_eq (hrows index (List.mem_range.mp hindex))
  unfold attentionThread
  rw [← hstored]
  dsimp only
  rw [hscores]
  simp only [Option.bind_eq_bind, Option.bind_some]
  rw [mapM_some (g := attention a (headPart query head)
    ((List.range (attendedCount position)).map rows))]
  · rfl
  · intro d hd
    rw [← attention_map a (headPart query head) (attendedCount position) rows d rfl rfl]
    apply foldlM_some
    intro index hindex result
    rw [(hrows index (List.mem_range.mp hindex) d (List.mem_range.mp hd)).2]
    rfl

/-! ## The ring -/

/-- In front of position `p` the ring of a layer and a head holds its last 72 rows. -/
def Ring (kv : Cache F) (layer head p : Nat) (rowOf : Nat → Row F) : Prop :=
  ∀ i, i < p → p ≤ i + kvWindow → RowAt kv layer head (i % kvWindow) (rowOf i)

/-- The row of position `p` takes the slot of the row that leaves the window. -/
theorem Ring.push {kv : Cache F} {layer head p : Nat} {rowOf : Nat → Row F}
    (h : Ring kv layer head p rowOf) {key value : Nat → F} (hlayer : layer < transformerLayers)
    (hhead : head < kvHeads) (hrow : rowOf p = (headPart key head, headPart value head)) :
    Ring (storeRow key value layer head (p % kvWindow) kv) layer head (p + 1) rowOf := by
  intro i hi hwindow
  have hslot : p % kvWindow < kvWindow := Nat.mod_lt p (by decide)
  by_cases hlast : i = p
  · subst hlast
    rw [hrow]
    exact rowAt_storeRow key value kv hlayer hhead hslot
  · apply RowAt.storeRow (h i (by omega) (by omega)) key value hlayer hhead hslot hlayer hhead
      (Nat.mod_lt i (by decide))
    -- fewer than 72 positions apart, hence in different slots
    right
    right
    unfold kvWindow at *
    omega

/-- Storing into another layer or head keeps the ring. -/
theorem Ring.storeRow {kv : Cache F} {layer' head' q : Nat} {rowOf : Nat → Row F}
    (h : Ring kv layer' head' q rowOf) (key value : Nat → F) {layer head slot : Nat}
    (hlayer : layer < transformerLayers) (hhead : head < kvHeads) (hslot : slot < kvWindow)
    (hlayer' : layer' < transformerLayers) (hhead' : head' < kvHeads)
    (hne : layer' ≠ layer ∨ head' ≠ head) :
    Ring (storeRow key value layer head slot kv) layer' head' q rowOf := by
  intro i hi hwindow
  apply RowAt.storeRow (h i hi hwindow) key value hlayer hhead hslot hlayer' hhead'
    (Nat.mod_lt i (by decide))
  rcases hne with hne | hne
  · exact Or.inl hne
  · exact Or.inr (Or.inl hne)

/-- The attended rows are those of the window. -/
theorem map_window {rowOf : Nat → Row F} {position : UInt64} (h : position.toNat + 1 < 2 ^ 64) :
    ((List.range (attendedCount position)).map fun index => rowOf (position.toNat - 71 + index))
      = (window position.toNat).map rowOf := by
  rw [window, ← attendedCount_eq h, List.range'_eq_map_range, List.map_map]
  rfl

/-! ## A launch -/

/-- What the threads of some heads do to the cache and the output. -/
structure Attended (a : Arithmetic F) (query : Nat → F) (layer p : Nat)
    (rowOf : Nat → Nat → Row F) (heads : List Nat) (before after : Cache F × (Nat → F)) :
    Prop where
  ring : ∀ head ∈ heads, Ring after.1 layer head (p + 1) (rowOf head)
  output : ∀ head ∈ heads, ∀ d < headDim, after.2 (head * headDim + d)
    = attention a (headPart query head) ((window p).map (rowOf head)) d
  other_ring : ∀ layer' head' q rowOf', layer' < transformerLayers → head' < kvHeads →
    (layer' ≠ layer ∨ head' ∉ heads) → Ring before.1 layer' head' q rowOf' →
    Ring after.1 layer' head' q rowOf'
  other_output : ∀ head', head' ∉ heads → ∀ d < headDim,
    after.2 (head' * headDim + d) = before.2 (head' * headDim + d)

section
variable (a : Arithmetic F) (query : Nat → F) {key value : Nat → F} {layer : Nat}
  {position : UInt64} {rowOf : Nat → Nat → Row F}

/-- One thread; all the rows it reads have been written. -/
theorem thread_attended (hlayer : layer < transformerLayers)
    (hposition : position.toNat + 1 < 2 ^ 64)
    (hrow : ∀ head, rowOf head position.toNat = (headPart key head, headPart value head))
    {head : Nat} (hhead : head < kvHeads) {s : Cache F × (Nat → F)}
    (hring : Ring s.1 layer head position.toNat (rowOf head)) :
    ∃ s', attentionThread a query key value layer position s head = some s' ∧
      Attended a query layer position.toNat rowOf [head] s s' := by
  have hslot : (position % 72).toNat = position.toNat % kvWindow := by
    rw [UInt64.toNat_mod]
    rfl
  -- storing the row of this position moves the ring on
  have hpush := hring.push hlayer hhead (hrow head)
  rw [← hslot] at hpush
  -- after that each attended index is found in its slot
  have hread : ∀ index < attendedCount position,
      RowAt (storeRow key value layer head (position % 72).toNat s.1) layer head
        (sourceSlot position index) (rowOf head (position.toNat - 71 + index)) := by
    intro index hindex
    rw [sourceSlot_eq hposition hindex]
    rw [attendedCount_eq hposition] at hindex
    apply hpush
    · omega
    · unfold kvWindow
      omega
  have hthread := thread_spec a query s.2 rfl hread
  rw [map_window hposition] at hthread
  refine ⟨_, hthread, ?_, ?_, ?_, ?_⟩
  · intro head' hhead'
    rw [List.mem_singleton] at hhead'
    subst hhead'
    exact hpush
  · intro head' hhead' d hd
    rw [List.mem_singleton] at hhead'
    subst hhead'
    show store _ _ _ _ = _
    rw [store_inside (by rw [List.length_map, List.length_range]; exact hd), List.getElem_map,
      List.getElem_range]
  · intro layer' head' q rowOf' hlayer' hhead' hne hring'
    apply hring'.storeRow key value hlayer hhead _ hlayer' hhead'
    · rcases hne with hne | hne
      · exact Or.inl hne
      · exact Or.inr fun heq => hne (List.mem_singleton.mpr heq)
    · rw [hslot]
      exact Nat.mod_lt _ (by decide)
  · intro head' hne d hd
    rw [List.mem_singleton] at hne
    apply store_outside
    rw [List.length_map, List.length_range]
    unfold headDim at *
    omega

/-- **A launch, in any order of its threads.** The induction is on the threads left to run; a
head's ring is untouched until its thread runs. -/
theorem threads_attended (hlayer : layer < transformerLayers)
    (hposition : position.toNat + 1 < 2 ^ 64)
    (hrow : ∀ head, rowOf head position.toNat = (headPart key head, headPart value head))
    {heads : List Nat} (hnodup : heads.Nodup) (hheads : ∀ head ∈ heads, head < kvHeads)
    {s : Cache F × (Nat → F)}
    (hring : ∀ head ∈ heads, Ring s.1 layer head position.toNat (rowOf head)) :
    ∃ s', heads.foldlM (attentionThread a query key value layer position) s = some s' ∧
      Attended a query layer position.toNat rowOf heads s s' := by
  -- by induction on the heads in the order the launch takes them
  induction heads generalizing s with
  | nil =>
    refine ⟨s, rfl, ?_, ?_, ?_, ?_⟩
    · intro head hhead
      exact absurd hhead List.not_mem_nil
    · intro head hhead
      exact absurd hhead List.not_mem_nil
    · intro _ _ _ _ _ _ _ hring'
      exact hring'
    · intro _ _ _ _
      rfl
  | cons head heads ih =>
    have hnot : head ∉ heads := (List.nodup_cons.mp hnodup).1
    have hhead := hheads head List.mem_cons_self
    obtain ⟨s₁, hstep, hfirst⟩ := thread_attended a query hlayer hposition hrow hhead
      (hring head List.mem_cons_self)
    -- the thread of one head leaves the rings of the others
    have hkept : ∀ head' ∈ heads, Ring s₁.1 layer head' position.toNat (rowOf head') := by
      intro head' hmem
      apply hfirst.other_ring layer head' _ _ hlayer (hheads head' (List.mem_cons_of_mem _ hmem))
      · right
        rw [List.mem_singleton]
        intro heq
        exact hnot (heq ▸ hmem)
      · exact hring head' (List.mem_cons_of_mem _ hmem)
    obtain ⟨s', hrest, hthen⟩ := ih (List.nodup_cons.mp hnodup).2
      (fun head' hmem => hheads head' (List.mem_cons_of_mem _ hmem)) hkept
    refine ⟨s', ?_, ?_, ?_, ?_, ?_⟩
    · rw [List.foldlM_cons, hstep]
      exact hrest
    · intro head' hmem
      rcases List.mem_cons.mp hmem with rfl | hmem
      · exact hthen.other_ring layer head' _ _ hlayer hhead (Or.inr hnot)
          (hfirst.ring head' (List.mem_singleton.mpr rfl))
      · exact hthen.ring head' hmem
    · intro head' hmem d hd
      rcases List.mem_cons.mp hmem with rfl | hmem
      · rw [hthen.other_output head' hnot d hd]
        exact hfirst.output head' (List.mem_singleton.mpr rfl) d hd
      · exact hthen.output head' hmem d hd
    · intro layer' head' q rowOf' hlayer' hhead' hne hring'
      rw [List.mem_cons, not_or] at hne
      apply hthen.other_ring layer' head' q rowOf' hlayer' hhead' (hne.imp_right And.right)
      apply hfirst.other_ring layer' head' q rowOf' hlayer' hhead' _ hring'
      rw [List.mem_singleton]
      exact hne.imp_right And.left
    · intro head' hne d hd
      rw [List.mem_cons, not_or] at hne
      rw [hthen.other_output head' hne.2 d hd]
      exact hfirst.other_output head' (fun h => hne.1 (List.mem_singleton.mp h)) d hd

end

/-- Both kernels do the same; the pointer's holds the position. -/
theorem launchAttention_attended (a : Arithmetic F) (frame : AttentionFrame F)
    (rowOf : Nat → Nat → Row F) {position : UInt64} (hposition : position.toNat + 1 < 2 ^ 64)
    {layer : Nat} (hlayer : layer < transformerLayers)
    (hrow : ∀ head, rowOf head position.toNat = frame.row layer head) {kv : Cache F}
    (hring : ∀ head < kvHeads, Ring kv layer head position.toNat (rowOf head)) :
    ∃ s', launchAttention a frame position layer kv = some s' ∧
      Attended a (frame.query layer) layer position.toNat rowOf (List.range kvHeads)
        (kv, frame.output layer) s' := by
  -- the order of the threads is a permutation of the heads, so nothing depends on it
  have hperm := frame.order_perm layer
  have hheads : ∀ head ∈ frame.order layer, head < kvHeads :=
    fun head hmem => List.mem_range.mp (hperm.mem_iff.mp hmem)
  have hbefore : ∀ head ∈ frame.order layer,
      Ring (kv, frame.output layer).1 layer head position.toNat (rowOf head) :=
    fun head hmem => hring head (hheads head hmem)
  obtain ⟨s', hrun, h⟩ := threads_attended a (frame.query layer) hlayer hposition hrow
    (hperm.nodup_iff.mpr List.nodup_range) hheads hbefore
  refine ⟨s', ?_, ?_, ?_, ?_, ?_⟩
  · unfold launchAttention slidingAttentionPtrKernel slidingAttentionKernel
    rw [Function.update_self, ite_self]
    exact hrun
  · intro head hmem
    exact h.ring head (hperm.mem_iff.mpr hmem)
  · intro head hmem
    exact h.output head (hperm.mem_iff.mpr hmem)
  · intro layer' head' q rowOf' hlayer' hhead' hne
    apply h.other_ring layer' head' q rowOf' hlayer' hhead'
    exact hne.imp_right fun hnot hmem => hnot (hperm.mem_iff.mp hmem)
  · intro head' hnot
    exact h.other_output head' fun hmem => hnot (hperm.mem_iff.mp hmem)

/-! ## A session -/

/-- The output of a layer at position `p` is attention over the window, for every head. -/
def LayerAttended (a : Arithmetic F) (frames : Nat → AttentionFrame F) (p layer : Nat)
    (output : Nat → F) : Prop :=
  ∀ head < kvHeads, ∀ d < headDim, output (head * headDim + d)
    = attention a (headPart ((frames p).query layer) head)
      ((window p).map fun i => (frames i).row layer head) d

section
variable (a : Arithmetic F) (frames : Nat → AttentionFrame F)

/-- The layers of a frame, one launch after the other. -/
theorem runLayers_attended (position : UInt64) (hposition : position.toNat + 1 < 2 ^ 64)
    {layers : List Nat} (hnodup : layers.Nodup)
    (hlayers : ∀ layer ∈ layers, layer < transformerLayers) {kv : Cache F}
    (hring : ∀ layer ∈ layers, ∀ head < kvHeads,
      Ring kv layer head position.toNat fun i => (frames i).row layer head) :
    ∃ kv' outputs, runLayers a (frames position.toNat) position layers kv = some (kv', outputs) ∧
      List.Forall₂ (LayerAttended a frames position.toNat) layers outputs ∧
      (∀ layer ∈ layers, ∀ head < kvHeads,
        Ring kv' layer head (position.toNat + 1) fun i => (frames i).row layer head) ∧
      ∀ layer' head' q rowOf', layer' < transformerLayers → head' < kvHeads → layer' ∉ layers →
        Ring kv layer' head' q rowOf' → Ring kv' layer' head' q rowOf' := by
  -- by induction on the layers
  induction layers generalizing kv with
  | nil =>
    refine ⟨kv, [], rfl, List.Forall₂.nil, ?_, ?_⟩
    · intro layer hmem
      exact absurd hmem List.not_mem_nil
    · intro _ _ _ _ _ _ _ hring'
      exact hring'
  | cons layer layers ih =>
    have hnot : layer ∉ layers := (List.nodup_cons.mp hnodup).1
    have hlayer := hlayers layer List.mem_cons_self
    obtain ⟨s₁, hlaunch, hfirst⟩ := launchAttention_attended a (frames position.toNat)
      (fun head i => (frames i).row layer head) hposition hlayer (fun _ => rfl)
      (hring layer List.mem_cons_self)
    -- the launch for one layer leaves the rings of the later ones
    have hkept : ∀ layer' ∈ layers, ∀ head < kvHeads,
        Ring s₁.1 layer' head position.toNat fun i => (frames i).row layer' head := by
      intro layer' hmem head hhead
      apply hfirst.other_ring layer' head _ _ (hlayers layer' (List.mem_cons_of_mem _ hmem)) hhead
      · left
        intro heq
        exact hnot (heq ▸ hmem)
      · exact hring layer' (List.mem_cons_of_mem _ hmem) head hhead
    obtain ⟨kv', outputs, hrun, houtputs, hrings, hother⟩ := ih (List.nodup_cons.mp hnodup).2
      (fun layer' hmem => hlayers layer' (List.mem_cons_of_mem _ hmem)) hkept
    refine ⟨kv', s₁.2 :: outputs, ?_, ?_, ?_, ?_⟩
    · rw [runLayers, hlaunch]
      show Option.bind (runLayers _ _ _ _ _) _ = _
      rw [hrun]
      rfl
    · apply List.Forall₂.cons _ houtputs
      intro head hhead
      exact hfirst.output head (List.mem_range.mpr hhead)
    · intro layer' hmem head hhead
      rcases List.mem_cons.mp hmem with rfl | hmem
      · exact hother layer' head _ _ hlayer hhead hnot
          (hfirst.ring head (List.mem_range.mpr hhead))
      · exact hrings layer' hmem head hhead
    · intro layer' head' q rowOf' hlayer' hhead' hne hring'
      rw [List.mem_cons, not_or] at hne
      apply hother layer' head' q rowOf' hlayer' hhead' hne.2
      exact hfirst.other_ring layer' head' q rowOf' hlayer' hhead' (Or.inl hne.1) hring'

/-- The frames from position `p` on; every ring holds the rows in front of `p`. -/
theorem runFrames_attended (n : Nat) {p : Nat} (hp : p + n < 2 ^ 64) {kv : Cache F}
    (hring : ∀ layer < transformerLayers, ∀ head < kvHeads,
      Ring kv layer head p fun i => (frames i).row layer head) :
    ∃ kv' outputs, runFrames a ((List.range' p n).map frames) (UInt64.ofNat p) kv
        = some (kv', outputs) ∧
      List.Forall₂ (fun p outputs =>
        List.Forall₂ (LayerAttended a frames p) (List.range transformerLayers) outputs)
        (List.range' p n) outputs := by
  -- by induction on the frames that are left
  induction n generalizing p kv with
  | zero => exact ⟨kv, [], rfl, List.Forall₂.nil⟩
  | succ n ih =>
    have hposition : (UInt64.ofNat p).toNat = p := by
      rw [UInt64.toNat_ofNat']
      show p % 2 ^ 64 = p
      omega
    have hbefore : ∀ layer ∈ List.range transformerLayers, ∀ head < kvHeads,
        Ring kv layer head (UInt64.ofNat p).toNat fun i => (frames i).row layer head := by
      rw [hposition]
      exact fun layer hmem => hring layer (List.mem_range.mp hmem)
    have hlayers := runLayers_attended a frames (UInt64.ofNat p) (by omega) List.nodup_range
      (fun layer hmem => List.mem_range.mp hmem) hbefore
    rw [hposition] at hlayers
    obtain ⟨kv₁, outputs, hrun, houtputs, hrings, -⟩ := hlayers
    obtain ⟨kv', rest, hthen, hrest⟩ := ih (p := p + 1) (by omega)
      fun layer hlayer => hrings layer (List.mem_range.mpr hlayer)
    refine ⟨kv', outputs :: rest, ?_, ?_⟩
    · rw [List.range'_succ, List.map_cons, runFrames, hrun]
      show Option.bind (runFrames _ _ (UInt64.ofNat p + 1) _) _ = _
      rw [show UInt64.ofNat p + 1 = UInt64.ofNat (p + 1) from (UInt64.ofNat_add p 1).symm, hthen]
      rfl
    · rw [List.range'_succ]
      exact List.Forall₂.cons houtputs hrest

/-- **The ring is a sliding window.** From a reset on, through either kernel and in any order of
the threads, no launch reads a cell that is not written, and the output of every position, layer
and head is attention over the rows of the last 72 positions, oldest first. No two layers or heads
share a cell. -/
theorem attended_exactly (count : UInt64) :
    (∃ kv outputs, runFrames a ((List.range count.toNat).map frames) 0 resetCache
        = some (kv, outputs) ∧
      List.Forall₂ (fun p outputs =>
        List.Forall₂ (LayerAttended a frames p) (List.range transformerLayers) outputs)
        (List.range count.toNat) outputs) ∧
    ∀ layer < transformerLayers, ∀ head < kvHeads, ∀ slot < kvWindow, ∀ d < headDim,
      ∀ layer' < transformerLayers, ∀ head' < kvHeads, ∀ slot' < kvWindow, ∀ d' < headDim,
        (layer ≠ layer' ∨ head ≠ head') →
          let cell := cacheIndex layer head slot d
          let cell' := cacheIndex layer' head' slot' d'
          cell ≠ cell' ∧ cell ≠ neuralKvElements / 2 + cell' ∧
            neuralKvElements / 2 + cell ≠ neuralKvElements / 2 + cell' := by
  constructor
  · have hempty : ∀ layer < transformerLayers, ∀ head < kvHeads,
        Ring resetCache layer head 0 fun i => (frames i).row layer head :=
      fun _ _ _ _ i hi => absurd hi (Nat.not_lt_zero i)
    have h := runFrames_attended a frames count.toNat (by rw [Nat.zero_add]; exact count.toNat_lt)
      hempty
    rw [← List.range_eq_range'] at h
    exact h
  · intro layer hlayer head hhead slot hslot d hd layer' hlayer' head' hhead' slot' hslot' d' hd'
      hne
    have hcell := cacheIndex_lt hlayer hhead hslot hd
    have hdifferent : cacheIndex layer head slot d ≠ cacheIndex layer' head' slot' d' := by
      intro heq
      have hsame := cacheIndex_inj hhead hslot hd hhead' hslot' hd' heq
      rcases hne with h | h
      · exact h hsame.1
      · exact h hsame.2.1
    exact ⟨hdifferent, by omega, by omega⟩

end

end Qwen3Tts.Codec
