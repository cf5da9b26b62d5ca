import Mathlib.Data.List.GetD
import Qwen3Tts.Codec.Fixture
import Qwen3Tts.Lib.Incremental

/-!
# Codec — the fixture pipeline and its reference

* `fixture_refines_reference` — packets of one to four frames, fed to a context after a reset, give
  the samples that the reference makes of the whole list, without an overflow, an assertion that
  fails or an access outside a buffer, and 1920 of them for each frame.
* `reference_panics` — on the empty list, which is cut into no packets, the reference panics.

The stages are put together as one `Incremental` processor. Both programs calculate it: the
reference on lists, the kernels on buffers where a list lies at an offset. Behind the filter every
value is within `±3071`, so nothing overflows.
-/

namespace Qwen3Tts.Codec.Fixture

open Qwen3Tts.Lib

/-! ## Lists by their positions -/

/-- A list is read back from its positions. -/
theorem eq_map_getD {α : Type} (xs : List α) (d : α) :
    xs = (List.range xs.length).map fun i => xs.getD i d := by
  apply List.ext_getElem
  · rw [List.length_map, List.length_range]
  · intro i hi _
    rw [List.getElem_map, List.getElem_range, List.getD_eq_getElem _ _ hi]

/-- The same with the positions beside the items. -/
theorem zipIdx_eq_map {α : Type} (xs : List α) (d : α) :
    xs.zipIdx = (List.range xs.length).map fun i => (xs.getD i d, i) := by
  apply List.ext_getElem
  · rw [List.length_zipIdx, List.length_map, List.length_range]
  · intro i hi _
    have hlt : i < xs.length := by rwa [List.length_zipIdx] at hi
    rw [List.getElem_map, List.getElem_range, List.getElem_zipIdx, List.getD_eq_getElem _ _ hlt,
      Nat.zero_add]

/-- A position behind the first list. -/
theorem getD_append_add {α : Type} (xs ys : List α) (d : α) (i : Nat) :
    (xs ++ ys).getD (xs.length + i) d = ys.getD i d := by
  rw [List.getD_append_right _ _ _ _ (Nat.le_add_right _ _), Nat.add_sub_cancel_left]

/-! ## The stages -/

/-- The sum of the codes of a frame, each with its weight. -/
def weighted (frame : Frame) : Int :=
  (List.range codebooks).foldl
    (fun sum k => sum + ((frame.val.getD k 0) &&& 2047).toNat * ((k : Int) + 1)) 0

/-- What the filter takes in for a frame. -/
def centered (frame : Frame) : Int := weighted frame % 4096 - 2048

/-- The filter: the two taps are the last two centered values. -/
def ingest : Incremental (Int × Int) Frame Int :=
  .ofStep fun taps frame =>
    ([(3 * centered frame + 2 * taps.1 - taps.2).tdiv 4], (centered frame, taps.1))

/-- Every item two times. -/
def twice (xs : List Int) : List Int := blocks 2 (fun i _ => xs.getD i 0) xs.length

/-- A stage without a state. -/
theorem twice_append (xs ys : List Int) : twice (xs ++ ys) = twice xs ++ twice ys := by
  unfold twice
  rw [List.length_append, blocks_add]
  congr 1
  · apply blocks_congr
    intro i hi _ _
    exact List.getD_append _ _ _ _ hi
  · apply blocks_congr
    intro i _ _ _
    exact getD_append_add xs ys 0 i

/-- The item before one of the packet; before the first it is that of the tail. -/
def previous (tail xs : List Int) (i phase : Nat) : Int :=
  if i = 0 then tail.getD phase 0 else xs.getD (i - 1) 0

/-- What the overlap puts at one position. -/
def mixed (tail xs : List Int) (i phase : Nat) : Int :=
  (3 * xs.getD i 0 + previous tail xs i phase).tdiv 4

/-- The tail a packet leaves. -/
def tailAfter (stride : Nat) (tail xs : List Int) : List Int :=
  match xs.getLast? with
  | none => tail
  | some last => List.replicate stride last

/-- A packet with items leaves its last one. -/
theorem tailAfter_of_ne {stride : Nat} {tail xs : List Int} (h : xs ≠ []) :
    tailAfter stride tail xs = List.replicate stride (xs.getLast h) := by
  unfold tailAfter
  rw [List.getLast?_eq_some_getLast h]

/-- An overlap stage: the first position is mixed with the tail, the others with the one before. -/
def overlap (stride : Nat) : Incremental (List Int) Int Int where
  run tail xs := (blocks stride (mixed tail xs) xs.length, tailAfter stride tail xs)
  run_nil _ := by
    show (blocks stride _ 0, _) = _
    unfold blocks
    rw [Nat.zero_mul]
    rfl
  run_append tail xs ys := by
    have hlast : tailAfter stride tail (xs ++ ys) =
        tailAfter stride (tailAfter stride tail xs) ys := by
      unfold tailAfter
      rw [List.getLast?_append]
      cases ys.getLast? with
      | none => rfl
      | some last => rfl
    have hleft : blocks stride (mixed tail (xs ++ ys)) xs.length =
        blocks stride (mixed tail xs) xs.length := by
      apply blocks_congr
      intro i hi phase _
      unfold mixed previous
      rw [List.getD_append _ _ _ _ hi]
      split
      · rfl
      · rw [List.getD_append _ _ _ _ (by omega)]
    have hright : blocks stride (fun i => mixed tail (xs ++ ys) (xs.length + i)) ys.length =
        blocks stride (mixed (tailAfter stride tail xs) ys) ys.length := by
      apply blocks_congr
      intro i hi phase hphase
      unfold mixed
      rw [getD_append_add]
      have hprevious : previous tail (xs ++ ys) (xs.length + i) phase =
          previous (tailAfter stride tail xs) ys i phase := by
        unfold previous
        cases i with
        | succ i =>
          -- the position before is one of `ys`
          rw [if_neg (by omega), if_neg (by omega), show xs.length + (i + 1) - 1 = xs.length + i by
            omega, getD_append_add, Nat.add_sub_cancel]
        | zero =>
          rw [if_pos rfl, Nat.add_zero]
          by_cases hxs : xs = []
          · subst hxs
            rfl
          · have hlength : 0 < xs.length := List.length_pos_iff.mpr hxs
            rw [if_neg (by omega), tailAfter_of_ne hxs, List.getD_append _ _ _ _ (by omega),
              List.getD_eq_getElem _ _ (by omega), List.getLast_eq_getElem,
              List.getD_eq_getElem _ _ (by rwa [List.length_replicate]), List.getElem_replicate]
      rw [hprevious]
    show (blocks stride (mixed tail (xs ++ ys)) (xs ++ ys).length, _) = _
    rw [List.length_append, blocks_add, hleft, hright, hlast]

/-- The PCM value, saturated. -/
def sample (value : Int) : Int16 := Int16.ofInt (max (-32768) (min (value * 8) 32767))

/-- The taps, and the tails of the four overlap stages. -/
abbrev Taps := ((((Int × Int) × List Int) × List Int) × List Int) × List Int

/-- **The pipeline** of the two programs. -/
def pipeline : Incremental Taps Frame Int16 :=
  (((((ingest.post twice rfl twice_append).post twice rfl twice_append).andThen (overlap 8)).andThen
    (overlap 5)).andThen (overlap 4)).andThen (overlap 3) |>.post (List.map sample) rfl fun _ _ =>
      List.map_append

/-! ## Bounds -/

/-- The range of a value behind the filter. -/
def Small (x : Int) : Prop := -3071 ≤ x ∧ x ≤ 3071

/-- Every item is small enough for the arithmetic of the stages. -/
def Within (xs : List Int) : Prop := ∀ x ∈ xs, Small x

/-- Zero, which stands behind the end, is small. -/
theorem Within.getD {xs : List Int} (h : Within xs) (i : Nat) : Small (xs.getD i 0) := by
  by_cases hi : i < xs.length
  · rw [List.getD_eq_getElem _ _ hi]
    exact h _ (List.getElem_mem hi)
  · rw [List.getD_eq_default _ _ (Nat.le_of_not_lt hi)]
    exact ⟨by decide, by decide⟩

/-- Items in blocks. -/
theorem within_blocks {width count : Nat} {f : Nat → Nat → Int}
    (h : ∀ i < count, ∀ j < width, Small (f i j)) : Within (blocks width f count) := by
  intro x hx
  obtain ⟨k, hk, rfl⟩ := List.mem_map.mp hx
  have hlt : k < count * width := List.mem_range.mp hk
  have hwidth : 0 < width := Nat.pos_of_mul_pos_left (Nat.zero_lt_of_lt hlt)
  exact h _ (Nat.div_lt_of_lt_mul (Nat.mul_comm count width ▸ hlt)) _ (Nat.mod_lt k hwidth)

/-- Division truncates, so the bound is kept on both sides. -/
theorem small_tdiv {x : Int} (h : -12287 ≤ x ∧ x ≤ 12287) : Small (x.tdiv 4) := by
  unfold Small
  rw [Int.tdiv_eq_ediv]
  split
  · omega
  · rw [show Int.sign 4 = 1 from rfl]
    omega

/-- The overlap makes no item larger than its two inputs. -/
theorem small_mix {value previous : Int} (hvalue : Small value) (hprevious : Small previous) :
    Small ((3 * value + previous).tdiv 4) := by
  unfold Small at hvalue hprevious
  exact small_tdiv (by omega)

/-- The input before one of the packet. -/
theorem small_previous {tail xs : List Int} (htail : Within tail) (hxs : Within xs) (i phase : Nat) :
    Small (previous tail xs i phase) := by
  unfold previous
  split
  · exact htail.getD phase
  · exact hxs.getD (i - 1)

/-- Both what an overlap puts out and the tail it leaves are small. -/
theorem within_overlap {stride : Nat} {tail xs : List Int} (htail : Within tail) (hxs : Within xs) :
    Within ((overlap stride).run tail xs).1 ∧ Within ((overlap stride).run tail xs).2 := by
  constructor
  · apply within_blocks
    intro i _ phase _
    exact small_mix (hxs.getD i) (small_previous htail hxs i phase)
  · show Within (tailAfter stride tail xs)
    by_cases h : xs = []
    · subst h
      exact htail
    · rw [tailAfter_of_ne h]
      intro x hx
      rw [List.eq_of_mem_replicate hx]
      exact hxs _ (List.getLast_mem h)

/-- The tail keeps its length. -/
theorem length_tail {stride : Nat} {tail xs : List Int} (htail : tail.length = stride) :
    ((overlap stride).run tail xs).2.length = stride := by
  show (tailAfter stride tail xs).length = stride
  unfold tailAfter
  split
  · exact htail
  · exact List.length_replicate

/-- Repetition keeps the bound. -/
theorem within_twice {xs : List Int} (hxs : Within xs) : Within (twice xs) := by
  apply within_blocks
  intro i _ _ _
  exact hxs.getD i

/-- The range of a tap. -/
def Centered (x : Int) : Prop := -2048 ≤ x ∧ x ≤ 2047

/-- A remainder of 4096, centred. -/
theorem centered_centered (frame : Frame) : Centered (centered frame) := by
  unfold Centered centered
  omega

/-- The filter adds up three centred values. -/
theorem small_filter {x previous1 previous2 : Int} (hx : Centered x) (h1 : Centered previous1)
    (h2 : Centered previous2) : Small ((3 * x + 2 * previous1 - previous2).tdiv 4) := by
  unfold Centered at hx h1 h2
  exact small_tdiv (by omega)

/-- The filter over any number of frames. -/
theorem ingest_bounds {taps : Int × Int} (h1 : Centered taps.1) (h2 : Centered taps.2)
    (frames : List Frame) :
    Within (ingest.run taps frames).1 ∧ Centered (ingest.run taps frames).2.1 ∧
      Centered (ingest.run taps frames).2.2 := by
  induction frames generalizing taps with
  | nil => exact ⟨fun _ hx => absurd hx List.not_mem_nil, h1, h2⟩
  | cons frame frames ih =>
    have hframe := centered_centered frame
    obtain ⟨hvalues, htaps⟩ := @ih (centered frame, taps.1) hframe h1
    exact ⟨List.forall_mem_cons.mpr ⟨small_filter hframe h1 h2, hvalues⟩, htaps⟩

/-- One item for each frame. -/
theorem length_ingest (taps : Int × Int) (frames : List Frame) :
    (ingest.run taps frames).1.length = frames.length := by
  induction frames generalizing taps with
  | nil => rfl
  | cons frame frames ih => exact congrArg (· + 1) (ih (centered frame, taps.1))

/-! ## Arithmetic without overflow -/

/-- A result in range. -/
theorem i32_ok {x : Int} (h : -2 ^ 31 ≤ x ∧ x < 2 ^ 31) : i32 x = .ok x := if_pos h

/-- The overlap does not overflow on small inputs. -/
theorem mix_ok {value previous : Int} (hvalue : Small value) (hprevious : Small previous) :
    mix value previous = .ok ((3 * value + previous).tdiv 4) := by
  unfold Small at *
  have hmul : mul 3 value = .ok (3 * value) := i32_ok (by omega)
  have hadd : add (3 * value) previous = .ok (3 * value + previous) := i32_ok (by omega)
  unfold mix
  rw [hmul]
  show (add (3 * value) previous >>= _) = _
  rw [hadd]
  rfl

/-- Nor does the filter on centred ones. -/
theorem preconv_ok {x previous1 previous2 : Int} (hx : Centered x) (h1 : Centered previous1)
    (h2 : Centered previous2) :
    preconv x previous1 previous2 = .ok ((3 * x + 2 * previous1 - previous2).tdiv 4) := by
  unfold Centered at *
  have hmul3 : mul 3 x = .ok (3 * x) := i32_ok (by omega)
  have hmul2 : mul 2 previous1 = .ok (2 * previous1) := i32_ok (by omega)
  have hadd : add (3 * x) (2 * previous1) = .ok (3 * x + 2 * previous1) := i32_ok (by omega)
  have hsub : sub (3 * x + 2 * previous1) previous2 = .ok (3 * x + 2 * previous1 - previous2) :=
    i32_ok (by omega)
  unfold preconv
  rw [hmul3, hmul2]
  show (add (3 * x) (2 * previous1) >>= fun sum => sub sum previous2 >>= _) = _
  rw [hadd]
  show (sub (3 * x + 2 * previous1) previous2 >>= _) = _
  rw [hsub]
  rfl

/-- Nor the conversion to PCM. -/
theorem toPcm_ok {value : Int} (h : Small value) : toPcm value = .ok (sample value) := by
  unfold Small at h
  have hmul : mul value 8 = .ok (value * 8) := i32_ok (by omega)
  unfold toPcm
  rw [hmul]
  rfl

/-- A code is masked to eleven bits. -/
theorem code_le (code : UInt16) : (code &&& 2047).toNat ≤ 2047 := by
  rw [UInt16.toNat_and]
  exact Nat.and_le_right

/-- One term of the weighted sum; `k` terms are at most `32752 * k`. -/
theorem weigh_ok {code : UInt16} {k : Nat} (hk : k < 16) {sum : Int}
    (hsum : 0 ≤ sum ∧ sum ≤ 32752 * k) :
    (do
      let term ← mul (code &&& 2047).toNat (k + 1)
      add sum term : Except Fault Int) = .ok (sum + (code &&& 2047).toNat * ((k : Int) + 1)) ∧
    0 ≤ sum + (code &&& 2047).toNat * ((k : Int) + 1) ∧
    sum + (code &&& 2047).toNat * ((k : Int) + 1) ≤ 32752 * (k + 1 : Nat) := by
  have hcode := code_le code
  have hlow : 0 ≤ ((code &&& 2047).toNat : Int) * ((k : Int) + 1) :=
    Int.mul_nonneg (by omega) (by omega)
  have hhigh : ((code &&& 2047).toNat : Int) * ((k : Int) + 1) ≤ 2047 * 16 :=
    Int.mul_le_mul (by omega) (by omega) (by omega) (by omega)
  have hmul : mul (code &&& 2047).toNat (k + 1) =
      .ok ((code &&& 2047).toNat * ((k : Int) + 1)) := i32_ok (by omega)
  have hadd : add sum ((code &&& 2047).toNat * ((k : Int) + 1)) =
      .ok (sum + (code &&& 2047).toNat * ((k : Int) + 1)) := i32_ok (by omega)
  refine ⟨?_, by omega, by omega⟩
  rw [hmul]
  exact hadd

/-- Sixteen codes of eleven bits, each with a weight of sixteen at most. -/
theorem weighted_bounds (frame : Frame) : 0 ≤ weighted frame ∧ weighted frame ≤ 32752 * 16 := by
  have hsum := @foldlM_eq_foldl Fault Nat Int
    (fun sum k => do
      let term ← mul (frame.val.getD k 0 &&& 2047).toNat (k + 1)
      add sum term)
    (fun sum k => sum + (frame.val.getD k 0 &&& 2047).toNat * ((k : Int) + 1))
    (fun k sum => 0 ≤ sum ∧ sum ≤ 32752 * k) (List.range codebooks) 0 (by decide)
    fun i hi c hc => by
      rw [List.getElem_range]
      rw [List.length_range] at hi
      exact weigh_ok hi hc
  exact hsum.2

/-- The subtraction that centres it is exact. -/
theorem centered_ok (frame : Frame) : sub (weighted frame % 4096) 2048 = .ok (centered frame) := by
  have hbounds := weighted_bounds frame
  exact i32_ok (by omega)

/-! ## Lists in buffers -/

/-- The items from `offset` on are `xs`. -/
def At {α : Type} (items : List α) (offset : Nat) (xs : List α) : Prop :=
  ∀ i (h : i < xs.length), items[offset + i]? = some xs[i]

/-- A read of an item that lies in the buffer. -/
theorem At.load {α : Type} {n offset : Nat} {buffer : Buffer α n} {xs : List α}
    (h : At buffer.val offset xs) {i : Nat} (hi : i < xs.length) (d : α) :
    load buffer (offset + i) = .ok (xs.getD i d) := by
  unfold Fixture.load
  rw [h i hi, List.getD_eq_getElem _ _ hi]

/-- The same for a list at the start of the buffer. -/
theorem At.load_zero {α : Type} {n : Nat} {buffer : Buffer α n} {xs : List α}
    (h : At buffer.val 0 xs) {i : Nat} (hi : i < xs.length) (d : α) :
    Fixture.load buffer i = .ok (xs.getD i d) := by
  have hload := h.load hi d
  rwa [Nat.zero_add] at hload

/-- A list in a buffer, cut in two. -/
theorem at_append {α : Type} {items xs ys : List α} {offset : Nat} :
    At items offset (xs ++ ys) ↔ At items offset xs ∧ At items (offset + xs.length) ys := by
  constructor
  · intro h
    constructor
    · intro i hi
      have hget := h i (by rw [List.length_append]; omega)
      rwa [List.getElem_append_left hi] at hget
    · intro i hi
      have hget := h (xs.length + i) (by rw [List.length_append]; omega)
      rw [List.getElem_append_right (Nat.le_add_right _ _)] at hget
      simpa only [Nat.add_assoc, Nat.add_sub_cancel_left] using hget
  · rintro ⟨hxs, hys⟩ i hi
    by_cases hlt : i < xs.length
    · rw [List.getElem_append_left hlt]
      exact hxs i hlt
    · have hlength : i - xs.length < ys.length := by
        rw [List.length_append] at hi
        omega
      have hget := hys (i - xs.length) hlength
      rw [List.getElem_append_right (Nat.le_of_not_lt hlt)]
      rwa [show offset + xs.length + (i - xs.length) = offset + i by omega] at hget

/-- Where two lists do not overlap. -/
def Clear (offset length offset' length' : Nat) : Prop :=
  offset + length ≤ offset' ∨ offset' + length' ≤ offset

/-- **A store writes its list and leaves what does not overlap.** -/
theorem store_spec {α : Type} {n : Nat} (buffer : Buffer α n) (offset : Nat) (values : List α)
    (h : offset + values.length ≤ n) :
    ∃ buffer', store buffer offset values = .ok buffer' ∧ At buffer'.val offset values ∧
      ∀ offset' ys, Clear offset values.length offset' ys.length → At buffer.val offset' ys →
        At buffer'.val offset' ys := by
  have hlength := buffer.property
  have htake : (buffer.val.take offset).length = offset := by
    rw [List.length_take]
    omega
  refine ⟨_, dif_pos h, fun i hi => ?_, fun offset' ys hclear hys i hi => ?_⟩
  · show (buffer.val.take offset ++ (values ++ _))[offset + i]? = _
    rw [List.getElem?_append_right (by omega), htake, Nat.add_sub_cancel_left,
      List.getElem?_append_left hi, List.getElem?_eq_getElem hi]
  · rw [← hys i hi]
    show (buffer.val.take offset ++ (values ++ _))[offset' + i]? = _
    rcases hclear with hbehind | hbefore
    · rw [List.getElem?_append_right (by omega), htake, List.getElem?_append_right (by omega),
        List.getElem?_drop]
      congr 1
      omega
    · rw [List.getElem?_append_left (by omega), List.getElem?_take_of_lt (by omega)]

/-! ## Kernels -/

/-- The threads of a launch that have an item. -/
theorem filter_range_lt {total threads : Nat} (h : total ≤ threads) :
    (List.range threads).filter (· < total) = List.range total := by
  obtain ⟨rest, rfl⟩ := Nat.exists_eq_add_of_le h
  rw [List.range_add, List.filter_append]
  have hfirst : (List.range total).filter (· < total) = List.range total :=
    List.filter_eq_self.mpr fun i hi => by simpa using hi
  have hrest : ((List.range rest).map (total + ·)).filter (· < total) = [] := by
    rw [List.filter_eq_nil_iff]
    intro i hi
    obtain ⟨j, -, rfl⟩ := List.mem_map.mp hi
    simp
  rw [hfirst, hrest, List.append_nil]

/-- The blocks of a launch cover its items. -/
theorem launch_eq {α : Type} {total : Nat} {thread : Nat → Except Fault α} {g : Nat → α}
    (h : ∀ item < total, thread item = .ok (g item)) :
    launch total thread = .ok ((List.range total).map g) := by
  unfold launch blocksFor kThreads
  rw [filter_range_lt (by omega)]
  exact mapM_eq_map fun item hitem => h item (List.mem_range.mp hitem)

/-- The repetition on the device. -/
theorem repeatKernel_spec {m n count : Nat} {input : Buffer Int m} {xs : List Int}
    (hinput : At input.val 0 xs) (hcount : count = xs.length) (output : Buffer Int n)
    (hfits : count * 2 ≤ n) :
    ∃ out, repeatKernel input count 2 output = .ok out ∧ At out.val 0 (twice xs) := by
  subst hcount
  have hvalues : launch (xs.length * 2) (fun item => load input (item / 2)) = .ok (twice xs) :=
    launch_eq fun item hitem => hinput.load_zero (by omega) 0
  obtain ⟨out, hout, hat, -⟩ := store_spec output 0 (twice xs) (by
    rw [twice, length_blocks]
    omega)
  refine ⟨out, ?_, hat⟩
  unfold repeatKernel
  rw [hvalues]
  exact hout

/-- The overlap on the device: the tail is read from the history, which the kernel does not write.
-/
theorem transposeOverlapKernel_spec {m n count stride at_ : Nat} {input : Buffer Int m}
    {xs tail : List Int} {history : History} (hinput : At input.val 0 xs)
    (hcount : count = xs.length) (htail : At history.val at_ tail) (hlength : tail.length = stride)
    (hxs : Within xs) (hsmall : Within tail) (output : Buffer Int n) (hfits : count * stride ≤ n) :
    ∃ out, transposeOverlapKernel input count stride history at_ output = .ok out ∧
      At out.val 0 ((overlap stride).run tail xs).1 := by
  subst hcount
  -- every thread reads what it needs, so the launch has a value for every item
  have hvalues : launch (xs.length * stride) (fun item => do
      let inputIndex := item / stride
      let phase := item % stride
      let previous ← previousItem input history at_ inputIndex phase
      mix (← load input inputIndex) previous) = .ok (blocks stride (mixed tail xs) xs.length) := by
    apply launch_eq
    intro item hitem
    have hstride : 0 < stride := Nat.pos_of_mul_pos_left (Nat.zero_lt_of_lt hitem)
    have hindex : item / stride < xs.length :=
      Nat.div_lt_of_lt_mul (Nat.mul_comm xs.length stride ▸ hitem)
    have hphase : item % stride < stride := Nat.mod_lt item hstride
    -- the first input item of the packet follows the tail
    have hprevious : previousItem input history at_ (item / stride) (item % stride) =
        .ok (previous tail xs (item / stride) (item % stride)) := by
      unfold previousItem previous
      split
      · exact htail.load (by omega) 0
      · exact hinput.load_zero (Nat.lt_of_le_of_lt (Nat.sub_le _ _) hindex) 0
    show (previousItem input history at_ (item / stride) (item % stride) >>= _) = _
    rw [hprevious]
    show (load input (item / stride) >>= _) = _
    rw [hinput.load_zero hindex 0]
    exact mix_ok (hxs.getD _) (small_previous hsmall hxs _ _)
  -- and the output has room for them
  obtain ⟨out, hout, hat, -⟩ := store_spec output 0
    (blocks stride (mixed tail xs) xs.length) (by
      rw [length_blocks]
      omega)
  refine ⟨out, ?_, hat⟩
  unfold transposeOverlapKernel
  rw [hvalues]
  exact hout

/-- The tail is written behind the overlap; the rest of the history keeps what it holds. -/
theorem updateTailKernel_spec {m count stride at_ : Nat} {input : Buffer Int m} {xs : List Int}
    (hinput : At input.val 0 xs) (hcount : count = xs.length) (hne : xs ≠ []) (history : History)
    (tail : List Int) (hstride : stride ≤ 32) (hfits : at_ + stride ≤ historyItems) :
    ∃ history', updateTailKernel input count stride history at_ = .ok history' ∧
      At history'.val at_ (tailAfter stride tail xs) ∧
      ∀ offset ys, Clear at_ stride offset ys.length → At history.val offset ys →
        At history'.val offset ys := by
  subst hcount
  have hpos : 0 < xs.length := List.length_pos_iff.mpr hne
  have hvalues : ((List.range 32).filter (· < stride)).mapM (fun _ => load input (xs.length - 1)) =
      .ok (List.replicate stride (xs.getLast hne)) := by
    rw [filter_range_lt hstride]
    -- every thread copies the last item
    have hload : load input (xs.length - 1) = .ok (xs.getLast hne) := by
      rw [hinput.load_zero (by omega) 0, List.getD_eq_getElem _ _ (by omega),
        List.getLast_eq_getElem]
    rw [mapM_eq_map fun _ _ => hload, List.map_const', List.length_range]
  obtain ⟨history', hstore, hat, hframe⟩ := store_spec history at_
    (List.replicate stride (xs.getLast hne)) (by rwa [List.length_replicate])
  rw [List.length_replicate] at hframe
  rw [tailAfter_of_ne hne]
  refine ⟨history', ?_, hat, hframe⟩
  unfold updateTailKernel
  rw [hvalues]
  exact hstore

/-- **One overlap stage** on the device. -/
theorem launchTranspose_spec {m n count stride at_ : Nat} {input : Buffer Int m}
    {xs tail : List Int} {history : History} (hinput : At input.val 0 xs)
    (hcount : count = xs.length) (hne : xs ≠ []) (htail : At history.val at_ tail)
    (hlength : tail.length = stride) (hxs : Within xs) (hsmall : Within tail)
    (output : Buffer Int n) (hfits : count * stride ≤ n) (hstride : stride ≤ 32)
    (hspace : at_ + stride ≤ historyItems) :
    ∃ history' out, launchTranspose input count stride history at_ output = .ok (history', out) ∧
      At out.val 0 ((overlap stride).run tail xs).1 ∧
      At history'.val at_ ((overlap stride).run tail xs).2 ∧
      ∀ offset ys, Clear at_ stride offset ys.length → At history.val offset ys →
        At history'.val offset ys := by
  obtain ⟨out, hout, hat⟩ := transposeOverlapKernel_spec hinput hcount htail hlength hxs hsmall
    output hfits
  obtain ⟨history', hhistory, htail', hframe⟩ := updateTailKernel_spec hinput hcount hne
    history tail hstride hspace
  refine ⟨history', out, ?_, hat, htail', hframe⟩
  unfold launchTranspose
  rw [hout]
  show (updateTailKernel input count stride history at_ >>= _) = _
  rw [hhistory]
  rfl

/-- The conversion on the device. -/
theorem convertPcmKernel_spec {n count : Nat} {input : Buffer Int n} {xs : List Int}
    (hinput : At input.val 0 xs) (hcount : count = xs.length) (hxs : Within xs) :
    convertPcmKernel input count = .ok (xs.map sample) := by
  subst hcount
  rw [eq_map_getD xs 0, List.map_map, List.length_map, List.length_range]
  apply launch_eq
  intro item hitem
  rw [hinput.load_zero hitem 0]
  exact toPcm_ok (hxs.getD item)

/-! ## The filter on the device -/

/-- One frame of the codes in the ring. -/
theorem at_flatMap {items : List UInt16} {offset : Nat} {frames : List Frame}
    (h : At items offset (frames.flatMap Subtype.val)) {i : Nat} (hi : i < frames.length) :
    At items (offset + i * codebooks) frames[i].val := by
  induction frames generalizing offset i with
  | nil => exact absurd hi (Nat.not_lt_zero i)
  | cons frame frames ih =>
    obtain ⟨hframe, hframes⟩ := at_append.mp h
    cases i with
    | zero =>
      rw [show offset + 0 * codebooks = offset by omega]
      exact hframe
    | succ i =>
      have hrest := ih hframes (Nat.lt_of_succ_lt_succ hi)
      rw [frame.property] at hrest
      rwa [show offset + (i + 1) * codebooks = offset + codebooks + i * codebooks by
        rw [Nat.succ_mul]
        omega]

/-- The sum on the device is that of the frame. -/
theorem weightedSum_ok {ring : Buffer UInt16 codecRingItems} {first : Nat} {frame : Frame}
    (h : At ring.val first frame.val) : weightedSum ring first = .ok (weighted frame) := by
  have hsum := @foldlM_eq_foldl Fault Nat Int
    (fun sum codebook => do
      let code ← load ring (first + codebook)
      let term ← mul (code &&& 2047).toNat (codebook + 1)
      add sum term)
    (fun sum k => sum + (frame.val.getD k 0 &&& 2047).toNat * ((k : Int) + 1))
    (fun k sum => 0 ≤ sum ∧ sum ≤ 32752 * k) (List.range codebooks) 0 (by decide)
    fun i hi c hc => by
      rw [List.getElem_range]
      rw [List.length_range] at hi
      rw [h.load (by rwa [frame.property]) 0, ok_bind]
      exact weigh_ok hi hc
  exact hsum.1

/-- The loop of the kernel after `done` frames, in a history that had `before` behind its ring. -/
structure Ingested (taps : Int × Int) (done : List Frame) (before : History) (s : Ingest) : Prop where
  output : At s.output.val 0 (ingest.run taps done).1
  taps : (s.previous1, s.previous2) = (ingest.run taps done).2
  behind : ∀ offset ys, transposeTails ≤ offset → At before.val offset ys →
    At s.history.val offset ys

/-- One more frame. -/
theorem ingest_concat (taps : Int × Int) (done : List Frame) (frame : Frame) :
    ingest.run taps (done ++ [frame]) =
      ((ingest.run taps done).1 ++ [(3 * centered frame + 2 * (ingest.run taps done).2.1 -
        (ingest.run taps done).2.2).tdiv 4], (centered frame, (ingest.run taps done).2.1)) := by
  rw [ingest.run_append]
  rfl

/-- One frame more is ingested. -/
theorem ingestFrame_spec {ring : Buffer UInt16 codecRingItems} {codecFrames : Nat}
    (position : UInt64) {taps : Int × Int} {done : List Frame} {frame : Frame} {before : History}
    {s : Ingest} (hs : Ingested taps done before s) (h1 : Centered taps.1) (h2 : Centered taps.2)
    (hcodes : At ring.val (codecFrames + done.length * codebooks) frame.val)
    (hfits : done.length < 4) :
    ∃ s', ingestFrame ring codecFrames position s done.length = .ok s' ∧
      Ingested taps (done ++ [frame]) before s' := by
  obtain ⟨-, hc1, hc2⟩ := ingest_bounds h1 h2 done
  have hlength := length_ingest taps done
  have htaps := Prod.mk.inj hs.taps
  obtain ⟨output, hstore, hat, hframe⟩ := store_spec s.output done.length
    ([(3 * centered frame + 2 * (ingest.run taps done).2.1 -
      (ingest.run taps done).2.2).tdiv 4]) (by
      rw [List.length_singleton]
      omega)
  -- the slot of the ring lies before the tails
  have hslot : ((position + done.length.toUInt64) % kvWindow.toUInt64).toNat < kvWindow := by
    rw [UInt64.toNat_mod]
    exact Nat.mod_lt _ (by decide)
  have hring : representativeKv + ((position + done.length.toUInt64) % kvWindow.toUInt64).toNat + 1 ≤
      transposeTails := by
    show 2 + _ + 1 ≤ 2 + kvWindow
    omega
  obtain ⟨history, hhistory, -, hbehind⟩ := store_spec s.history
    (representativeKv + ((position + done.length.toUInt64) % kvWindow.toUInt64).toNat)
    ([(3 * centered frame + 2 * (ingest.run taps done).2.1 -
      (ingest.run taps done).2.2).tdiv 4]) (by
      rw [List.length_singleton]
      exact Nat.le_trans hring (by decide))
  refine ⟨⟨history, output, centered frame, s.previous1⟩, ?_, ?_, ?_, ?_⟩
  · unfold ingestFrame
    rw [weightedSum_ok hcodes]
    show (sub (weighted frame % 4096) 2048 >>= _) = _
    rw [centered_ok]
    show (preconv (centered frame) s.previous1 s.previous2 >>= _) = _
    rw [htaps.1, htaps.2, preconv_ok (centered_centered frame) hc1 hc2]
    show (store s.output done.length _ >>= _) = _
    rw [hstore]
    show (store s.history _ _ >>= _) = _
    rw [hhistory]
    rfl
  · rw [ingest_concat]
    refine at_append.mpr ⟨hframe 0 _ (.inr ?_) hs.output, ?_⟩
    · omega
    · rwa [Nat.zero_add, hlength]
  · rw [ingest_concat]
    exact congrArg (Prod.mk (centered frame)) htaps.1
  · intro offset ys hoffset hys
    refine hbehind offset ys (.inl ?_) (hs.behind offset ys hoffset hys)
    rw [List.length_singleton]
    omega

/-- **The filter** on the device. -/
theorem ingestFixtureKernel_spec {ring : Buffer UInt16 codecRingItems} {codecFrames : Nat}
    {taps : Int × Int} {frames : List Frame} {history : History} (position : UInt64)
    (hcodes : At ring.val codecFrames (frames.flatMap Subtype.val))
    (htaps : At history.val 0 [taps.1, taps.2]) (h1 : Centered taps.1) (h2 : Centered taps.2)
    (hfits : frames.length ≤ 4) (output : Buffer Int 4) :
    ∃ history' out, ingestFixtureKernel ring codecFrames frames.length position history output =
        .ok (history', out) ∧ At out.val 0 (ingest.run taps frames).1 ∧
      At history'.val 0 [(ingest.run taps frames).2.1, (ingest.run taps frames).2.2] ∧
      ∀ offset ys, transposeTails ≤ offset → At history.val offset ys →
        At history'.val offset ys := by
  have hzero : load history 0 = .ok taps.1 := htaps.load_zero (Nat.zero_lt_two) 0
  have hone : load history 1 = .ok taps.2 := htaps.load_zero (Nat.one_lt_two) 0
  -- before the first frame the taps are those of the history
  have hstart : Ingested taps (frames.take 0) history ⟨history, output, taps.1, taps.2⟩ :=
    ⟨fun i hi => absurd hi (Nat.not_lt_zero i), rfl, fun _ _ _ h => h⟩
  -- the loop over the frames, each by `ingestFrame_spec`
  obtain ⟨s, hloop, hs⟩ := @foldlM_invariant Fault Nat _ (ingestFrame ring codecFrames position)
    (fun i s => Ingested taps (frames.take i) history s) (List.range frames.length) _ hstart
    fun i hi s hs => by
      rw [List.length_range] at hi
      have hlength : (frames.take i).length = i := by
        rw [List.length_take]
        omega
      rw [List.getElem_range]
      obtain ⟨s', hs', hdone⟩ := ingestFrame_spec position hs h1 h2 (by
        rw [hlength]
        exact at_flatMap hcodes hi) (by omega)
      rw [hlength] at hs'
      rw [List.take_append_getElem hi] at hdone
      exact ⟨s', hs', hdone⟩
  rw [List.length_range, List.take_length] at hs
  -- and the taps go back into the history
  obtain ⟨history', hstore, hat, hframe⟩ := store_spec s.history 0
    [s.previous1, s.previous2] (Nat.le_of_ble_eq_true rfl)
  have hlast := Prod.mk.inj hs.taps
  refine ⟨history', s.output, ?_, hs.output, ?_, fun offset ys hoffset hys => ?_⟩
  · unfold ingestFixtureKernel
    rw [hzero, hone]
    rw [ok_bind, ok_bind, hloop, ok_bind, hstore]
    rfl
  · rwa [← hlast.1, ← hlast.2]
  · refine hframe offset ys (.inl (Nat.le_trans ?_ hoffset)) (hs.behind offset ys hoffset hys)
    show 0 + 2 ≤ 2 + kvWindow
    omega

/-! ## The values of one call -/

/-- The two values the filter keeps, and the tail of each overlap. -/
def Taps.taps (st : Taps) : Int × Int := st.1.1.1.1
def Taps.tail8 (st : Taps) : List Int := st.1.1.1.2
def Taps.tail5 (st : Taps) : List Int := st.1.1.2
def Taps.tail4 (st : Taps) : List Int := st.1.2
def Taps.tail3 (st : Taps) : List Int := st.2

/-- The state between two packets is in range and of its lengths. -/
structure Bounded (st : Taps) : Prop where
  tap1 : Centered st.taps.1
  tap2 : Centered st.taps.2
  length8 : st.tail8.length = 8
  length5 : st.tail5.length = 5
  length4 : st.tail4.length = 4
  length3 : st.tail3.length = 3
  within8 : Within st.tail8
  within5 : Within st.tail5
  within4 : Within st.tail4
  within3 : Within st.tail3

/-- What the stages hand on, from the filter to the last overlap. -/
def filtered (st : Taps) (frames : List Frame) : List Int := (ingest.run st.taps frames).1
def repeated (st : Taps) (frames : List Frame) : List Int := twice (twice (filtered st frames))
def by8 (st : Taps) (frames : List Frame) : List Int :=
  ((overlap 8).run st.tail8 (repeated st frames)).1
def by5 (st : Taps) (frames : List Frame) : List Int := ((overlap 5).run st.tail5 (by8 st frames)).1
def by4 (st : Taps) (frames : List Frame) : List Int := ((overlap 4).run st.tail4 (by5 st frames)).1
def by3 (st : Taps) (frames : List Frame) : List Int := ((overlap 3).run st.tail3 (by4 st frames)).1

/-- What the composition of the stages comes to, state by state. -/
theorem pipeline_run (st : Taps) (frames : List Frame) :
    pipeline.run st frames = ((by3 st frames).map sample,
      (((((ingest.run st.taps frames).2, ((overlap 8).run st.tail8 (repeated st frames)).2),
        ((overlap 5).run st.tail5 (by8 st frames)).2), ((overlap 4).run st.tail4 (by5 st frames)).2),
        ((overlap 3).run st.tail3 (by4 st frames)).2)) := by
  unfold pipeline by3 by4 by5 by8 repeated filtered
  simp only [Incremental.post_run, Incremental.andThen_run]
  rfl

/-- Its samples. -/
theorem samples_run (st : Taps) (frames : List Frame) :
    (pipeline.run st frames).1 = (by3 st frames).map sample := by
  rw [pipeline_run]

/-- The filter's state after it, -/
theorem taps_run (st : Taps) (frames : List Frame) :
    (pipeline.run st frames).2.taps = (ingest.run st.taps frames).2 := by
  simp only [pipeline_run, Taps.taps]

/-- and the tails of the four overlaps. -/
theorem tail8_run (st : Taps) (frames : List Frame) :
    (pipeline.run st frames).2.tail8 = ((overlap 8).run st.tail8 (repeated st frames)).2 := by
  simp only [pipeline_run, Taps.tail8]

theorem tail5_run (st : Taps) (frames : List Frame) :
    (pipeline.run st frames).2.tail5 = ((overlap 5).run st.tail5 (by8 st frames)).2 := by
  simp only [pipeline_run, Taps.tail5]

theorem tail4_run (st : Taps) (frames : List Frame) :
    (pipeline.run st frames).2.tail4 = ((overlap 4).run st.tail4 (by5 st frames)).2 := by
  simp only [pipeline_run, Taps.tail4]

theorem tail3_run (st : Taps) (frames : List Frame) :
    (pipeline.run st frames).2.tail3 = ((overlap 3).run st.tail3 (by4 st frames)).2 := by
  simp only [pipeline_run, Taps.tail3]

/-- An overlap puts out its stride for every item. -/
theorem length_overlap (stride : Nat) (tail xs : List Int) :
    ((overlap stride).run tail xs).1.length = xs.length * stride := length_blocks _ _ _

/-- Each stage multiplies the positions. -/
structure Lengths (st : Taps) (frames : List Frame) : Prop where
  filtered : (filtered st frames).length = frames.length
  twice : (twice (Fixture.filtered st frames)).length = frames.length * 2
  repeated : (repeated st frames).length = frames.length * 4
  by8 : (by8 st frames).length = frames.length * 32
  by5 : (by5 st frames).length = frames.length * 160
  by4 : (by4 st frames).length = frames.length * 640
  by3 : (by3 st frames).length = frames.length * samplesPerFrame

/-- The lengths behind each stage. -/
theorem lengths (st : Taps) (frames : List Frame) : Lengths st frames := by
  have h0 : (filtered st frames).length = frames.length := length_ingest st.taps frames
  have h1 : (twice (filtered st frames)).length = frames.length * 2 := by
    rw [twice, length_blocks, h0]
  have h2 : (repeated st frames).length = frames.length * 4 := by
    rw [repeated, twice, length_blocks, h1, Nat.mul_assoc]
  have h3 : (by8 st frames).length = frames.length * 32 := by
    rw [by8, length_overlap, h2, Nat.mul_assoc]
  have h4 : (by5 st frames).length = frames.length * 160 := by
    rw [by5, length_overlap, h3, Nat.mul_assoc]
  have h5 : (by4 st frames).length = frames.length * 640 := by
    rw [by4, length_overlap, h4, Nat.mul_assoc]
  have h6 : (by3 st frames).length = frames.length * samplesPerFrame := by
    rw [by3, length_overlap, h5, Nat.mul_assoc]
    rfl
  exact ⟨h0, h1, h2, h3, h4, h5, h6⟩

/-- Every stage's output is in range. -/
structure Smalls (st : Taps) (frames : List Frame) : Prop where
  repeated : Within (repeated st frames)
  by8 : Within (by8 st frames)
  by5 : Within (by5 st frames)
  by4 : Within (by4 st frames)
  by3 : Within (by3 st frames)

/-- From a state in range. -/
theorem Bounded.smalls {st : Taps} (h : Bounded st) (frames : List Frame) : Smalls st frames := by
  have h0 : Within (filtered st frames) := (ingest_bounds h.tap1 h.tap2 frames).1
  have h1 : Within (repeated st frames) := within_twice (within_twice h0)
  have h2 := (@within_overlap 8 _ _ h.within8 h1).1
  have h3 := (@within_overlap 5 _ _ h.within5 h2).1
  have h4 := (@within_overlap 4 _ _ h.within4 h3).1
  exact ⟨h1, h2, h3, h4, (@within_overlap 3 _ _ h.within3 h4).1⟩

/-- The bounds of the state are kept. -/
theorem Bounded.run {st : Taps} (h : Bounded st) (frames : List Frame) :
    Bounded (pipeline.run st frames).2 := by
  obtain ⟨-, htap1, htap2⟩ := ingest_bounds h.tap1 h.tap2 frames
  have hsmall := h.smalls frames
  exact {
    tap1 := by
      rw [taps_run]
      exact htap1
    tap2 := by
      rw [taps_run]
      exact htap2
    -- the lengths, then the ranges, of the tails
    length8 := by
      rw [tail8_run]
      exact length_tail h.length8
    length5 := by
      rw [tail5_run]
      exact length_tail h.length5
    length4 := by
      rw [tail4_run]
      exact length_tail h.length4
    length3 := by
      rw [tail3_run]
      exact length_tail h.length3
    within8 := by
      rw [tail8_run]
      exact (within_overlap h.within8 hsmall.repeated).2
    within5 := by
      rw [tail5_run]
      exact (within_overlap h.within5 hsmall.by8).2
    within4 := by
      rw [tail4_run]
      exact (within_overlap h.within4 hsmall.by5).2
    within3 := by
      rw [tail3_run]
      exact (within_overlap h.within3 hsmall.by4).2 }

/-! ## The reference calculates the pipeline -/

/-- The reference sums a frame up in the same order. -/
theorem reference_weightedSum (frame : Frame) :
    ReferenceState.weightedSum frame = .ok (weighted frame) := by
  have hsum := @foldlM_eq_foldl Fault (UInt16 × Nat) Int
    (fun sum item => do
      let term ← mul (item.1 &&& 2047).toNat (item.2 + 1)
      add sum term)
    (fun sum item => sum + (item.1 &&& 2047).toNat * ((item.2 : Int) + 1))
    (fun k sum => 0 ≤ sum ∧ sum ≤ 32752 * k) frame.val.zipIdx 0 (by decide)
    fun i hi c hc => by
      rw [List.length_zipIdx, frame.property] at hi
      rw [List.getElem_zipIdx, Nat.zero_add]
      exact weigh_ok hi hc
  have hpure : frame.val.zipIdx.foldl
      (fun sum item => sum + (item.1 &&& 2047).toNat * ((item.2 : Int) + 1)) 0 = weighted frame := by
    rw [zipIdx_eq_map frame.val 0, List.foldl_map, frame.property]
    rfl
  rw [← hpure]
  exact hsum.1

/-- It filters frame by frame, with the two values it keeps. -/
theorem reference_filter {taps : Int × Int} (h1 : Centered taps.1) (h2 : Centered taps.2)
    (frames : List Frame) (values : List Int) :
    frames.foldlM ReferenceState.filterFrame (values, taps) =
      .ok (values ++ (ingest.run taps frames).1, (ingest.run taps frames).2) := by
  induction frames generalizing taps values with
  | nil =>
    show Except.ok (values, taps) = .ok (values ++ [], taps)
    rw [List.append_nil]
  | cons frame frames ih =>
    have hstep : ReferenceState.filterFrame (values, taps) frame =
        .ok (values ++ [(3 * centered frame + 2 * taps.1 - taps.2).tdiv 4], centered frame, taps.1) := by
      unfold ReferenceState.filterFrame
      simp only
      rw [reference_weightedSum, ok_bind, centered_ok, ok_bind,
        preconv_ok (centered_centered frame) h1 h2]
      rfl
    rw [List.foldlM_cons, hstep, ok_bind, @ih (centered frame, taps.1) (centered_centered frame) h1,
      List.append_assoc]
    rfl

/-- It repeats items in the same order. -/
theorem reference_repeat (xs : List Int) : ReferenceState.repeat xs 2 = twice xs := by
  unfold ReferenceState.repeat twice
  rw [blocks_eq_flatMap]
  conv_lhs => rw [eq_map_getD xs 0, List.flatMap_map]
  rfl

/-- It runs over items and the tail instead of over positions of the output. -/
theorem reference_transposeOverlap {stride : Nat} {xs tail : List Int} (hne : xs ≠ [])
    (hlength : tail.length = stride) (hxs : Within xs) (htail : Within tail) :
    ReferenceState.transposeOverlap xs stride tail = .ok ((overlap stride).run tail xs) := by
  -- one item: a value for each position of the tail
  have hinner : ∀ i, i < xs.length →
      tail.mapM (fun tailValue => do
        let previous ← ReferenceState.previousValue xs i tailValue
        mix (xs.getD i 0) previous) = .ok ((List.range stride).map (mixed tail xs i)) := by
    intro i hi
    have hall : ∀ t ∈ (List.range stride).map fun j => tail.getD j 0, Small t := by
      intro t ht
      obtain ⟨j, -, rfl⟩ := List.mem_map.mp ht
      exact htail.getD j
    conv_lhs => rw [eq_map_getD tail 0, hlength]
    have hmapM := @mapM_eq_map Fault Int Int (fun tailValue => do
        let previous ← ReferenceState.previousValue xs i tailValue
        mix (xs.getD i 0) previous)
      (fun tailValue => (3 * xs.getD i 0 + if i = 0 then tailValue else xs.getD (i - 1) 0).tdiv 4)
      ((List.range stride).map fun j => tail.getD j 0) fun t ht => by
        have hprevious : ReferenceState.previousValue xs i t =
            .ok (if i = 0 then t else xs.getD (i - 1) 0) := by
          unfold ReferenceState.previousValue
          split
          · rfl
          · have hlt : i - 1 < xs.length := by omega
            rw [List.getElem?_eq_getElem hlt, List.getD_eq_getElem _ _ hlt]
        rw [hprevious, ok_bind]
        refine mix_ok (hxs.getD i) ?_
        split
        · exact hall t ht
        · exact hxs.getD (i - 1)
    rw [hmapM, List.map_map]
    rfl
  -- and all of them
  have houter : xs.zipIdx.mapM (fun item => tail.mapM fun tailValue => do
      let previous ← ReferenceState.previousValue xs item.2 tailValue
      mix item.1 previous) =
      .ok ((List.range xs.length).map fun i => (List.range stride).map (mixed tail xs i)) := by
    conv_lhs => rw [zipIdx_eq_map xs 0]
    have hmapM := @mapM_eq_map Fault (Int × Nat) (List Int) (fun item => tail.mapM fun tailValue => do
        let previous ← ReferenceState.previousValue xs item.2 tailValue
        mix item.1 previous)
      (fun item => (List.range stride).map (mixed tail xs item.2))
      ((List.range xs.length).map fun i => (xs.getD i 0, i)) fun item hitem => by
        obtain ⟨i, hi, rfl⟩ := List.mem_map.mp hitem
        exact hinner i (List.mem_range.mp hi)
    rw [hmapM, List.map_map]
    rfl
  unfold ReferenceState.transposeOverlap
  rw [show failIf (xs = []) Fault.panicked = .ok () from if_neg hne, ok_bind,
    show failIf (tail.length ≠ stride) Fault.panicked = .ok () from if_neg (not_not.mpr hlength),
    ok_bind, houter, ok_bind, List.getLast?_eq_some_getLast hne]
  show Except.ok (_, _) = Except.ok (blocks stride (mixed tail xs) xs.length, tailAfter stride tail xs)
  rw [blocks_eq_flatMap, tailAfter_of_ne hne, hlength]
  rfl

/-- The state of the reference for the same taps and tails. -/
def ReferenceState.of (st : Taps) : ReferenceState :=
  ⟨st.taps, [st.tail8, st.tail5, st.tail4, st.tail3]⟩

/-- A packet with frames leaves no stage empty. -/
theorem ne_nil_of_length {α β : Type} {xs : List α} {ys : List β} {k : Nat} (hne : ys ≠ [])
    (hlength : xs.length = ys.length * (k + 1)) : xs ≠ [] := by
  have hpos : 0 < ys.length := List.length_pos_iff.mpr hne
  refine List.length_pos_iff.mp ?_
  rw [hlength]
  exact Nat.mul_pos hpos (Nat.succ_pos k)

/-- **The reference** makes the samples of the pipeline, without a panic. -/
theorem reference_process {st : Taps} (h : Bounded st) {frames : List Frame} (hne : frames ≠ []) :
    (ReferenceState.of st).process frames =
      .ok ((pipeline.run st frames).1, .of (pipeline.run st frames).2) := by
  have hlengths := lengths st frames
  have hsmall := h.smalls frames
  have hvalues : ReferenceState.repeat (ReferenceState.repeat (filtered st frames) 2) 2 =
      repeated st frames := by
    rw [reference_repeat, reference_repeat]
    rfl
  -- no stage is empty, so every overlap leaves its tail
  have h8 := reference_transposeOverlap (@ne_nil_of_length _ _ _ _ 3 hne hlengths.repeated) h.length8
    hsmall.repeated h.within8
  have h5 := reference_transposeOverlap (@ne_nil_of_length _ _ _ _ 31 hne hlengths.by8) h.length5
    hsmall.by8 h.within5
  have h4 := reference_transposeOverlap (@ne_nil_of_length _ _ _ _ 159 hne hlengths.by5) h.length4
    hsmall.by5 h.within4
  have h3 := reference_transposeOverlap (@ne_nil_of_length _ _ _ _ 639 hne hlengths.by4) h.length3
    hsmall.by4 h.within3
  -- the four overlaps, each with its own tail
  have hstages : ([8, 5, 4, 3].zip [st.tail8, st.tail5, st.tail4, st.tail3]).foldlM
      ReferenceState.stage (repeated st frames, []) =
        .ok (by3 st frames, (ReferenceState.of (pipeline.run st frames).2).transposeTails) := by
    -- one of them
    have hstage : ∀ {stride : Nat} {xs tail : List Int} {tails : List (List Int)},
        ReferenceState.transposeOverlap xs stride tail = .ok ((overlap stride).run tail xs) →
        ReferenceState.stage (xs, tails) (stride, tail) = .ok (((overlap stride).run tail xs).1,
          tails ++ [((overlap stride).run tail xs).2]) := by
      intro stride xs tail tails h
      unfold ReferenceState.stage
      simp only [h, ok_bind]
      rfl
    unfold ReferenceState.of
    rw [tail8_run, tail5_run, tail4_run, tail3_run]
    simp only [List.zip_cons_cons, List.zip_nil_left, List.foldlM_cons, List.foldlM_nil]
    rw [hstage h8, ok_bind, ← by8, hstage h5, ok_bind, ← by5, hstage h4, ok_bind, ← by4, hstage h3,
      ok_bind, ← by3]
    rfl
  -- the assertion on the length holds, and the conversion does not overflow
  have hpcm : (by3 st frames).mapM toPcm = .ok ((by3 st frames).map sample) :=
    mapM_eq_map fun x hx => toPcm_ok (hsmall.by3 x hx)
  unfold ReferenceState.process ReferenceState.of
  simp only
  rw [reference_filter h.tap1 h.tap2, ok_bind]
  simp only [List.nil_append]
  rw [show (ingest.run st.taps frames).1 = filtered st frames from rfl, hvalues, hstages, ok_bind]
  simp only
  rw [show failIf ((by3 st frames).length ≠ frames.length * samplesPerFrame) Fault.panicked = .ok ()
    from if_neg (not_not.mpr hlengths.by3), ok_bind, hpcm, ok_bind, samples_run, ← taps_run]
  rfl

/-! ## Packets calculate the pipeline -/

/-- The device holds the state of the pipeline and takes packets. -/
structure Holds (c : Context) (st : Taps) : Prop where
  bounded : Bounded st
  taps : At c.fixtureHistory.val 0 [st.taps.1, st.taps.2]
  tail8 : At c.fixtureHistory.val transposeTails st.tail8
  tail5 : At c.fixtureHistory.val (transposeTails + 8) st.tail5
  tail4 : At c.fixtureHistory.val (transposeTails + 13) st.tail4
  tail3 : At c.fixtureHistory.val (transposeTails + 17) st.tail3
  slot : c.nextRingSlot < ringSlots
  unfinished : c.finalized = false
  idle : c.devicePacketPending = false

/-- The codes of whole frames. -/
theorem length_codes (frames : List Frame) :
    (frames.flatMap Subtype.val).length = frames.length * codebooks := by
  induction frames with
  | nil => rfl
  | cons frame frames ih =>
    rw [List.flatMap_cons, List.length_append, ih, frame.property, List.length_cons, Nat.succ_mul,
      Nat.add_comm]

/-- What lies in a buffer is what is copied from it. -/
theorem At.take_drop {α : Type} {items xs : List α} {offset : Nat} (h : At items offset xs) :
    (items.drop offset).take xs.length = xs := by
  apply List.ext_getElem?
  intro i
  rw [List.getElem?_take]
  split
  · rename_i hi
    rw [List.getElem?_drop, h i hi, List.getElem?_eq_getElem hi]
  · rename_i hi
    rw [List.getElem?_eq_none (Nat.le_of_not_lt hi)]

/-- A check that passes. -/
theorem checked {p : Prop} [Decidable p] (h : ¬ p) (fault : Fault) : failIf p fault = .ok () :=
  if_neg h

/-- **One packet**: the samples of the pipeline, and its state afterwards. -/
theorem processFixture_spec {c : Context} {st : Taps} (h : Holds c st) {frames : List Frame}
    (hne : frames ≠ []) (hfits : frames.length ≤ maxPacketFrames) (isFinal : Bool) :
    ∃ result c', processFixture c frames isFinal = .ok (((pipeline.run st frames).1, result), c') ∧
      (isFinal = false → Holds c' (pipeline.run st frames).2) := by
  have hpos : 0 < frames.length := List.length_pos_iff.mpr hne
  have hcount : frames.length % 2 ^ 32 = frames.length :=
    Nat.mod_eq_of_lt (Nat.lt_of_le_of_lt hfits (by decide))
  have hmax : frames.length ≤ 4 := hfits
  have hslot : c.nextRingSlot < 3 := h.slot
  have hlengths := lengths st frames
  have hsmall := h.bounded.smalls frames
  -- the codes reach the device
  obtain ⟨codecRing, hcodecRing, hcodes, -⟩ := store_spec c.codecRing
    (c.nextRingSlot * (maxPacketFrames * codebooks)) (frames.flatMap Subtype.val) (by
      rw [length_codes]
      show c.nextRingSlot * (4 * 16) + frames.length * 16 ≤ 3 * 4 * 16
      omega)
  -- the stages, one after the other
  obtain ⟨history0, scratch0, hingest, hvalues0, htaps0, hframe0⟩ := ingestFixtureKernel_spec
    c.framePosition hcodes h.taps h.bounded.tap1 h.bounded.tap2 hmax c.scratch0
  obtain ⟨scratch1, hrepeat1, hvalues1⟩ := repeatKernel_spec hvalues0 hlengths.filtered.symm
    c.scratch1 (by omega)
  obtain ⟨scratch2, hrepeat2, hvalues2⟩ := repeatKernel_spec hvalues1 hlengths.twice.symm
    c.scratch2 (by omega)
  obtain ⟨history8, scratch3, htranspose8, hvalues3, htail8, hframe8⟩ :=
    @launchTranspose_spec _ _ _ 8 transposeTails _ (repeated st frames) st.tail8 _ hvalues2
      hlengths.repeated.symm (@ne_nil_of_length _ _ _ _ 3 hne hlengths.repeated)
      (hframe0 _ _ (Nat.le_refl _) h.tail8) h.bounded.length8 hsmall.repeated h.bounded.within8
      c.scratch3 (by omega) (by decide) (by decide)
  obtain ⟨history5, scratch4, htranspose5, hvalues4, htail5, hframe5⟩ :=
    @launchTranspose_spec _ _ _ 5 (transposeTails + 8) _ (by8 st frames) st.tail5 _ hvalues3
      hlengths.by8.symm (@ne_nil_of_length _ _ _ _ 31 hne hlengths.by8)
      (hframe8 _ _ (.inl (by decide)) (hframe0 _ _ (by decide) h.tail5))
      h.bounded.length5 hsmall.by8 h.bounded.within5 c.scratch4 (by omega) (by decide) (by decide)
  obtain ⟨history4, scratch5, htranspose4, hvalues5, htail4, hframe4⟩ :=
    @launchTranspose_spec _ _ _ 4 (transposeTails + 13) _ (by5 st frames) st.tail4 _ hvalues4
      hlengths.by5.symm (@ne_nil_of_length _ _ _ _ 159 hne hlengths.by5)
      (hframe5 _ _ (.inl (by decide)) (hframe8 _ _ (.inl (by decide))
        (hframe0 _ _ (by decide) h.tail4)))
      h.bounded.length4 hsmall.by5 h.bounded.within4 c.scratch5 (by omega) (by decide) (by decide)
  obtain ⟨history3, scratch6, htranspose3, hvalues6, htail3, hframe3⟩ :=
    @launchTranspose_spec _ _ _ 3 (transposeTails + 17) _ (by4 st frames) st.tail3 _ hvalues5
      hlengths.by4.symm (@ne_nil_of_length _ _ _ _ 639 hne hlengths.by4)
      (hframe4 _ _ (.inl (by decide)) (hframe5 _ _ (.inl (by decide))
        (hframe8 _ _ (.inl (by decide)) (hframe0 _ _ (by decide) h.tail3))))
      h.bounded.length3 hsmall.by4 h.bounded.within3 c.scratch6 (by omega) (by decide) (by decide)
  have hpcm := @convertPcmKernel_spec _ _ _ (by3 st frames) hvalues6 hlengths.by3.symm hsmall.by3
  rw [← samples_run] at hpcm
  have hsamples : (pipeline.run st frames).1.length = frames.length * samplesPerFrame := by
    rw [samples_run, List.length_map, hlengths.by3]
  -- the samples reach the host
  have hring : c.nextRingSlot * (maxPacketFrames * samplesPerFrame) +
      (pipeline.run st frames).1.length ≤ pcmRingItems := by
    rw [hsamples]
    show c.nextRingSlot * (4 * 1920) + frames.length * 1920 ≤ 3 * (4 * 1920)
    omega
  obtain ⟨pcmRing, hpcmRing, hdevice, -⟩ := store_spec c.pcmRing _ _ hring
  obtain ⟨hostPcmRing, hhostPcmRing, hhost, -⟩ := store_spec c.hostPcmRing _ _ hring
  have hdevice := hdevice.take_drop
  have hhost := hhost.take_drop
  rw [hsamples] at hdevice hhost
  have hprocess : processFixture c frames isFinal = .ok (((pipeline.run st frames).1,
      ⟨c.framePosition, c.emittedSamples, frames.length, frames.length * samplesPerFrame,
        c.nextRingSlot, if isFinal then 1 else 0⟩),
      { c with
        codecRing := codecRing, pcmRing := pcmRing, hostPcmRing := hostPcmRing
        fixtureHistory := history3, scratch0 := scratch0, scratch1 := scratch1
        scratch2 := scratch2, scratch3 := scratch3, scratch4 := scratch4, scratch5 := scratch5
        scratch6 := scratch6
        framePosition := c.framePosition + frames.length.toUInt64
        emittedSamples := c.emittedSamples + (frames.length * samplesPerFrame).toUInt64
        kvRingHead := ((c.framePosition + frames.length.toUInt64) % kvWindow.toUInt64).toNat
        nextRingSlot := (c.nextRingSlot + 1) % ringSlots
        finalized := (if isFinal then (1 : Int) else 0) ≠ 0 }) := by
    have hvalid : ¬ (frames.length = 0 ∨ maxPacketFrames < frames.length ∨
        ((if isFinal then (1 : Int) else 0) ≠ 0 ∧ (if isFinal then (1 : Int) else 0) ≠ 1)) := by
      rintro (hzero | hlarge | ⟨hnot0, hnot1⟩)
      · omega
      · exact absurd hfits (Nat.not_le_of_lt hlarge)
      · cases isFinal with
        | false => exact hnot0 rfl
        | true => exact hnot1 rfl
    have hopen : ¬ (c.finalized = true ∨ c.devicePacketPending = true) := by
      rw [h.unfinished, h.idle]
      decide
    unfold processFixture processFixturePacket
    rw [hcount, checked hvalid, ok_bind]
    simp only
    rw [checked (Nat.lt_irrefl _), ok_bind, checked hopen, ok_bind,
      List.take_of_length_le (Nat.le_of_eq (length_codes frames)), hcodecRing, ok_bind, hingest,
      ok_bind]
    simp only
    rw [hrepeat1, ok_bind, hrepeat2, ok_bind, htranspose8, ok_bind]
    simp only
    rw [htranspose5, ok_bind]
    simp only
    rw [htranspose4, ok_bind]
    simp only
    rw [htranspose3, ok_bind]
    simp only
    rw [hpcm, ok_bind, hpcmRing, ok_bind, hdevice, hhostPcmRing, ok_bind, hhost]
    rfl
  refine ⟨_, _, hprocess, fun hmore => ?_⟩
  exact {
    bounded := h.bounded.run frames
    taps := by
      have hbefore : ∀ tail, 0 + 2 ≤ transposeTails + tail := fun tail => by
        show 0 + 2 ≤ 2 + kvWindow + tail
        omega
      rw [taps_run]
      exact hframe3 _ _ (.inr (hbefore 17)) (hframe4 _ _ (.inr (hbefore 13))
        (hframe5 _ _ (.inr (hbefore 8)) (hframe8 _ _ (.inr (hbefore 0)) htaps0)))
    tail8 := by
      rw [tail8_run]
      have hlength := (h.bounded.run frames).length8
      rw [tail8_run] at hlength
      exact hframe3 _ _ (.inr (by rw [hlength]; decide)) (hframe4 _ _ (.inr (by rw [hlength]; decide))
        (hframe5 _ _ (.inr (by rw [hlength])) htail8))
    tail5 := by
      rw [tail5_run]
      have hlength := (h.bounded.run frames).length5
      rw [tail5_run] at hlength
      exact hframe3 _ _ (.inr (by rw [hlength]; decide))
        (hframe4 _ _ (.inr (by rw [hlength])) htail5)
    tail4 := by
      rw [tail4_run]
      have hlength := (h.bounded.run frames).length4
      rw [tail4_run] at hlength
      exact hframe3 _ _ (.inr (by rw [hlength])) htail4
    tail3 := by
      rw [tail3_run]
      exact htail3
    slot := Nat.mod_lt _ (by decide)
    unfinished := by
      subst hmore
      rfl
    idle := h.idle }

/-! ## Every split -/

/-- The state of the pipeline before the first frame. -/
def start : Taps :=
  (((((0, 0), List.replicate 8 0), List.replicate 5 0), List.replicate 4 0), List.replicate 3 0)

/-- Silence. -/
theorem within_zero (n : Nat) : Within (List.replicate n 0) := by
  intro x hx
  rw [List.eq_of_mem_replicate hx]
  exact ⟨by decide, by decide⟩

/-- The state of a new session. -/
theorem bounded_start : Bounded start where
  tap1 := ⟨by decide, by decide⟩
  tap2 := ⟨by decide, by decide⟩
  length8 := rfl
  length5 := rfl
  length4 := rfl
  length3 := rfl
  within8 := within_zero 8
  within5 := within_zero 5
  within4 := within_zero 4
  within3 := within_zero 3

/-- A cleared buffer holds zeros. -/
theorem at_zero {n offset count : Nat} (h : offset + count ≤ n) :
    At (Buffer.zero n : Buffer Int n).val offset (List.replicate count 0) := by
  intro i hi
  rw [List.length_replicate] at hi
  show (List.replicate n (0 : Int))[offset + i]? = _
  rw [List.getElem_replicate, List.getElem?_replicate_of_lt (by omega)]

/-- After a reset the device holds the first state. -/
theorem holds_reset (c : Context) : Holds c.reset start where
  bounded := bounded_start
  taps := @at_zero historyItems 0 2 (by decide)
  tail8 := at_zero (by decide)
  tail5 := at_zero (by decide)
  tail4 := at_zero (by decide)
  tail3 := at_zero (by decide)
  slot := by
    show 0 < 3
    decide
  unfinished := rfl
  idle := rfl

/-- Packets of one to four frames, none of which is final but perhaps the last. -/
def Packets : List (List Frame × Bool) → Prop
  | [] => True
  | (frames, isFinal) :: rest => frames ≠ [] ∧ frames.length ≤ maxPacketFrames ∧
      (isFinal = true → rest = []) ∧ Packets rest

/-- The packets calculate the pipeline. -/
theorem feed_spec {c : Context} {st : Taps} (h : Holds c st) {packets : List (List Frame × Bool)}
    (hpackets : Packets packets) :
    ∃ c', feed c packets = .ok ((pipeline.run st (packets.flatMap Prod.fst)).1, c') := by
  induction packets generalizing c st with
  | nil =>
    refine ⟨c, ?_⟩
    rw [List.flatMap_nil, pipeline.run_nil]
    rfl
  | cons packet rest ih =>
    obtain ⟨frames, isFinal⟩ := packet
    obtain ⟨hne, hfits, hlast, hrest⟩ := hpackets
    obtain ⟨result, c', hpacket, hholds⟩ := processFixture_spec h hne hfits isFinal
    unfold feed
    rw [hpacket, ok_bind, List.flatMap_cons, pipeline.run_append]
    simp only
    cases isFinal with
    | true =>
      -- nothing follows a final packet
      obtain rfl := hlast rfl
      refine ⟨c', ?_⟩
      rw [List.flatMap_nil, pipeline.run_nil]
      rfl
    | false =>
      obtain ⟨c'', hfeed⟩ := ih (hholds rfl) hrest
      refine ⟨c'', ?_⟩
      rw [hfeed, ok_bind]
      simp only [pure, Except.pure]

/-- **Incremental decoding refines the reference.** The packets of any split of a list of frames
give the samples that the reference makes of the list. -/
theorem fixture_refines_reference (c : Context) {packets : List (List Frame × Bool)}
    (hpackets : Packets packets) (hne : packets ≠ []) :
    ∃ pcm c' s', feed c.reset packets = .ok (pcm, c') ∧
      ReferenceState.new.process (packets.flatMap Prod.fst) = .ok (pcm, s') ∧
      pcm.length = samplesPerFrame * (packets.flatMap Prod.fst).length := by
  have hframes : packets.flatMap Prod.fst ≠ [] := by
    cases packets with
    | nil => exact absurd rfl hne
    | cons packet rest =>
      rw [List.flatMap_cons]
      exact List.append_ne_nil_of_left_ne_nil hpackets.1 _
  obtain ⟨c', hfeed⟩ := feed_spec (holds_reset c) hpackets
  refine ⟨_, c', _, hfeed, reference_process bounded_start hframes, ?_⟩
  rw [samples_run, List.length_map, (lengths _ _).by3, Nat.mul_comm]

/-- Two packets, of two frames and of one. -/
def twoPackets : List (List Frame × Bool) :=
  let frame : Frame := ⟨List.replicate 16 7, rfl⟩
  [([frame, frame], false), ([frame], true)]

/-- A context whose buffers are all cleared. -/
def blank : Context :=
  ⟨.zero _, .zero _, .zero _, .zero _, .zero _, .zero _, .zero _, .zero _, .zero _, .zero _,
    .zero _, 0, 0, 0, 0, false, false⟩

theorem fixture_refines_reference_two :
    ∃ pcm c' s', feed blank.reset twoPackets = .ok (pcm, c') ∧
      ReferenceState.new.process (twoPackets.flatMap Prod.fst) = .ok (pcm, s') ∧
      pcm.length = samplesPerFrame * (twoPackets.flatMap Prod.fst).length := by
  refine @fixture_refines_reference blank twoPackets ⟨?_, by decide, fun h => ?_, ?_, by decide,
    fun _ => rfl, trivial⟩ (List.cons_ne_nil _ _)
  · exact List.cons_ne_nil _ _
  · cases h
  · exact List.cons_ne_nil _ _

/-- The empty list is cut into no packets, and the reference panics on it. -/
theorem reference_panics : ¬ ∀ (c : Context) (packets : List (List Frame × Bool)), Packets packets →
    ∃ pcm c' s', feed c.reset packets = .ok (pcm, c') ∧
      ReferenceState.new.process (packets.flatMap Prod.fst) = .ok (pcm, s') ∧
      pcm.length = samplesPerFrame * (packets.flatMap Prod.fst).length := by
  intro h
  obtain ⟨pcm, c', s', -, hreference, -⟩ := h blank [] trivial
  have hpanics : ReferenceState.new.process [] = .error .panicked := rfl
  rw [List.flatMap_nil, hpanics] at hreference
  cases hreference

end Qwen3Tts.Codec.Fixture
