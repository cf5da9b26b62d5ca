import Mathlib.Data.List.Forall2
import Qwen3Tts.Lib.Bf16
import Qwen3Tts.Lib.Chunks
import Qwen3Tts.Lib.Fallible

/-!
# Artifact — packing decoder weights as BF16

`validate_decoder_finite` and `f32_bytes_to_bf16` of `artifact.rs`. A payload is a list of bytes, and
a number in it is its bit pattern. The conversion adds to a pattern so that its upper half becomes
the rounded number; a number too close to the end of the range becomes an infinity.
-/

namespace Qwen3Tts.Artifact

open Qwen3Tts.Lib

/-! ## `artifact.rs` -/

/-- `from_le_bytes`. -/
def fromLeBytes (bytes : List UInt8) : Nat := bytes.foldr (fun byte n => byte.toNat + 256 * n) 0

/-- `to_le_bytes`. -/
def toLeBytes (count value : Nat) : List UInt8 :=
  (List.range count).map fun k => UInt8.ofNat (value / 256 ^ k)

/-- The checks of one tensor. -/
def validateTensor (name : String) (data : List UInt8) : Except String Unit := do
  let (values, remainder) := asChunks 4 data
  values.zipIdx.forM fun (bytes, index) =>
    failIf (¬ Bf16.Finite (fromLeBytes bytes))
      s!"source decoder tensor {name} contains non-finite value at index {index}"
  failIf (remainder ≠ []) s!"source decoder tensor {name} has a truncated F32 payload"

/-- `source` gives the bytes of a tensor, `names` are those of the decoder contract. -/
def validateDecoderFinite (source : String → Option (List UInt8)) (names : List String) :
    Except String Unit :=
  names.forM fun name =>
    match source name with
    | none => .error s!"source speech tokenizer is missing {name}"
    | some data => validateTensor name data

/-- The upper half of the sum. -/
def roundBits (bits : UInt32) : UInt16 :=
  let lowest : UInt32 := (bits >>> 16) &&& 1
  let rounded := bits + (0x7fff + lowest)
  (rounded >>> 16).toUInt16

def f32BytesToBf16 (source : List UInt8) : List UInt8 :=
  (asChunks 4 source).1.flatMap fun bytes =>
    toLeBytes 2 (roundBits (UInt32.ofNat (fromLeBytes bytes))).toNat

/-! ## What the bytes say -/

/-- The numbers of a payload, of `size` bytes each. -/
def patterns (size : Nat) (payload : List UInt8) : List Nat :=
  (asChunks size payload).1.map fromLeBytes

/-- Value by value and in order, `packed` holds the nearest BF16 numbers, which are finite. -/
def Packs (payload packed : List UInt8) : Prop :=
  (asChunks 2 packed).2 = []
    ∧ List.Forall₂ Bf16.NearestEven (patterns 4 payload) (patterns 2 packed)

theorem length_toLeBytes (count value : Nat) : (toLeBytes count value).length = count := by
  rw [toLeBytes, List.length_map, List.length_range]

theorem fromLeBytes_toLeBytes {value : Nat} (h : value < 2 ^ 16) :
    fromLeBytes (toLeBytes 2 value) = value := by
  show (UInt8.ofNat (value / 256 ^ 0)).toNat
    + 256 * ((UInt8.ofNat (value / 256 ^ 1)).toNat + 256 * 0) = value
  rw [UInt8.toNat_ofNat', UInt8.toNat_ofNat']
  omega

theorem fromLeBytes_lt (bytes : List UInt8) : fromLeBytes bytes < 256 ^ bytes.length := by
  induction bytes with
  | nil => decide
  | cons byte bytes ih =>
    have hbyte := byte.toNat_lt
    show byte.toNat + 256 * fromLeBytes bytes < 256 ^ (bytes.length + 1)
    rw [pow_succ]
    omega

theorem pattern_lt {payload : List UInt8} {pattern : Nat} (h : pattern ∈ patterns 4 payload) :
    pattern < 2 ^ 32 := by
  obtain ⟨bytes, hbytes, rfl⟩ := List.mem_map.mp h
  have hlt := fromLeBytes_lt bytes
  rw [length_of_mem_asChunks (by decide) hbytes] at hlt
  exact hlt

/-- Halves written one after the other are read in their order. -/
theorem asChunks_flatMap {α : Type} (xs : List α) (half : α → Nat) :
    asChunks 2 (xs.flatMap fun x => toLeBytes 2 (half x))
      = (xs.map fun x => toLeBytes 2 (half x), []) := by
  induction xs with
  | nil =>
    show asChunks 2 [] = ([], [])
    rw [asChunks_of_lt (by decide)]
  | cons x xs ih =>
    rw [List.flatMap_cons, asChunks_cons (by decide) (length_toLeBytes 2 _), ih]
    rfl

/-- **The packed numbers are the rounded ones**, one for each value of the payload. -/
theorem asChunks_f32BytesToBf16 (payload : List UInt8) :
    (asChunks 2 (f32BytesToBf16 payload)).2 = []
      ∧ patterns 2 (f32BytesToBf16 payload)
        = (patterns 4 payload).map fun pattern => (roundBits (UInt32.ofNat pattern)).toNat := by
  unfold f32BytesToBf16 patterns
  rw [asChunks_flatMap]
  refine ⟨rfl, ?_⟩
  rw [List.map_map, List.map_map]
  refine List.map_congr_left fun bytes _ => ?_
  exact fromLeBytes_toLeBytes (UInt16.toNat_lt _)

/-! ## Rounding -/

theorem carry_lt {upper low : Nat} (hupper : upper + 1 < 2 ^ 16) (hlow : low < 2 ^ 17) :
    upper * 2 ^ 16 + low < 2 ^ 32 := by
  omega

theorem carry_div {upper low : Nat} (hupper : upper + 1 < 2 ^ 16) (hlow : low < 2 ^ 17) :
    (upper * 2 ^ 16 + low) / 2 ^ 16 % 2 ^ 16 = if low < 2 ^ 16 then upper else upper + 1 := by
  have hcarry : (upper * 2 ^ 16 + low) / 2 ^ 16 = upper + low / 2 ^ 16 := by omega
  rw [hcarry, Nat.mod_eq_of_lt (by omega)]
  split <;> omega

/-- The sum, in natural numbers; the lowest bit of the upper half decides a tie. -/
theorem sum_div {sign half rest : Nat} (hsign : sign < 2) (hrest : rest < 2 ^ 16)
    (h : half * 2 ^ 16 + rest < 0x7f800000) :
    (sign * 2 ^ 31 + (half * 2 ^ 16 + rest)
        + (0x7fff + (sign * 2 ^ 31 + (half * 2 ^ 16 + rest)) / 2 ^ 16 % 2) % 2 ^ 32) % 2 ^ 32
        / 2 ^ 16 % 2 ^ 16
      = sign * 2 ^ 15 + Bf16.roundedHalf half rest := by
  have hhalf : half < 0x7f80 := by omega
  clear h
  have hupper : sign * 2 ^ 15 + half + 1 < 2 ^ 16 := by omega
  have hlow : rest + 0x7fff + half % 2 < 2 ^ 17 := by omega
  have hlowest : (sign * 2 ^ 31 + (half * 2 ^ 16 + rest)) / 2 ^ 16 % 2 = half % 2 := by omega
  have hbias : (0x7fff + half % 2) % 2 ^ 32 = 0x7fff + half % 2 :=
    Nat.mod_eq_of_lt (by omega)
  have hregroup : sign * 2 ^ 31 + (half * 2 ^ 16 + rest) + (0x7fff + half % 2)
      = (sign * 2 ^ 15 + half) * 2 ^ 16 + (rest + 0x7fff + half % 2) := by ring
  have hsum : (sign * 2 ^ 31 + (half * 2 ^ 16 + rest) + (0x7fff + half % 2)) % 2 ^ 32
      = (sign * 2 ^ 15 + half) * 2 ^ 16 + (rest + 0x7fff + half % 2) := by
    rw [hregroup]
    exact Nat.mod_eq_of_lt (carry_lt hupper hlow)
  have hcarry := carry_div hupper hlow
  unfold Bf16.roundedHalf
  rw [hlowest, hbias, hsum, hcarry]
  split
  · rfl
  · rw [Nat.add_assoc]

/-- The sum on the pattern rounds the magnitude and leaves the sign: no carry goes through the
exponent of a finite number. -/
theorem roundBits_eq {sign half rest : Nat} (hsign : sign < 2) (hrest : rest < 2 ^ 16)
    (h : half * 2 ^ 16 + rest < 0x7f800000) :
    (roundBits (UInt32.ofNat (sign * 2 ^ 31 + (half * 2 ^ 16 + rest)))).toNat
      = sign * 2 ^ 15 + Bf16.roundedHalf half rest := by
  have hpattern : (UInt32.ofNat (sign * 2 ^ 31 + (half * 2 ^ 16 + rest))).toNat
      = sign * 2 ^ 31 + (half * 2 ^ 16 + rest) := by
    rw [UInt32.toNat_ofNat']
    omega
  have hshift : (16 : UInt32).toNat % 32 = 16 := rfl
  have hone : (1 : UInt32).toNat = 1 := rfl
  have hbias : (0x7fff : UInt32).toNat = 0x7fff := rfl
  unfold roundBits
  rw [UInt32.toNat_toUInt16, UInt32.toNat_shiftRight, UInt32.toNat_add, UInt32.toNat_add,
    UInt32.toNat_and, UInt32.toNat_shiftRight, hpattern, hshift, hone, hbias, Nat.and_one_is_mod,
    Nat.shiftRight_eq_div_pow, Nat.shiftRight_eq_div_pow]
  exact sum_div hsign hrest h

/-- A pattern, taken apart. -/
theorem pattern_split (pattern : Nat) : ∃ half rest, rest < 2 ^ 16
    ∧ half * 2 ^ 16 + rest = pattern % 2 ^ 31
    ∧ pattern = pattern / 2 ^ 31 * 2 ^ 31 + (half * 2 ^ 16 + rest) := by
  refine ⟨pattern % 2 ^ 31 / 2 ^ 16, pattern % 2 ^ 16, by omega, by omega, by omega⟩

/-- **One finite value is packed rightly when its magnitude is below half of the step that leads out
of the BF16 range**, and only then. -/
theorem nearestEven_roundBits_iff {pattern : Nat} (hpattern : pattern < 2 ^ 32)
    (hfinite : Bf16.Finite pattern) :
    Bf16.NearestEven pattern (roundBits (UInt32.ofNat pattern)).toNat
      ↔ pattern % 2 ^ 31 < 0x7f7f8000 := by
  have hmagnitude : pattern % 2 ^ 31 < 0x7f800000 := by
    unfold Bf16.Finite at hfinite
    omega
  have hsign : pattern / 2 ^ 31 < 2 := by omega
  obtain ⟨half, rest, hrest, heq, hsplit⟩ := pattern_split pattern
  rw [← heq] at hmagnitude ⊢
  have hround := roundBits_eq hsign hrest hmagnitude
  rw [← hsplit] at hround
  rw [hround]
  constructor
  · intro hnearest
    by_contra hlarge
    exact Bf16.not_finite_of_pattern (Nat.le_of_not_lt hlarge) hmagnitude hrest hnearest.finite
  · intro hsmall
    have hnearest := Bf16.nearestEven_of_pattern hsign hrest hsmall
    rwa [← hsplit] at hnearest

/-! ## The checks -/

/-- What is accepted has whole values, all of them finite. -/
theorem validateTensor_ok {name : String} {data : List UInt8}
    (h : validateTensor name data = .ok ()) :
    (asChunks 4 data).2 = [] ∧ ∀ pattern ∈ patterns 4 data, Bf16.Finite pattern := by
  obtain ⟨_, hvalues, hrest⟩ := bind_eq_ok.mp h
  refine ⟨not_not.mp (failIf_eq_ok.mp hrest), fun pattern hpattern => ?_⟩
  obtain ⟨bytes, hbytes, rfl⟩ := List.mem_map.mp hpattern
  obtain ⟨index, hindex⟩ := List.mem_iff_getElem?.mp hbytes
  have hcheck := forM_eq_ok.mp hvalues (bytes, index) (List.mem_zipIdx_iff_getElem?.mpr hindex)
  exact not_not.mp (failIf_eq_ok.mp hcheck)

theorem validateDecoderFinite_ok {source : String → Option (List UInt8)} {names : List String}
    (h : validateDecoderFinite source names = .ok ()) {name : String} (hname : name ∈ names)
    {data : List UInt8} (hdata : source name = some data) : validateTensor name data = .ok () := by
  have hcheck := forM_eq_ok.mp h name hname
  rwa [hdata] at hcheck

/-- **An accepted payload is packed rightly exactly when no value of it is too large for BF16.** -/
theorem packs_iff {source : String → Option (List UInt8)} {names : List String}
    (h : validateDecoderFinite source names = .ok ()) {name : String} (hname : name ∈ names)
    {data : List UInt8} (hdata : source name = some data) :
    Packs data (f32BytesToBf16 data)
      ↔ ∀ pattern ∈ patterns 4 data, pattern % 2 ^ 31 < 0x7f7f8000 := by
  obtain ⟨-, hfinite⟩ := validateTensor_ok (validateDecoderFinite_ok h hname hdata)
  obtain ⟨hrest, hpacked⟩ := asChunks_f32BytesToBf16 data
  unfold Packs
  rw [hpacked, List.forall₂_map_right_iff, List.forall₂_same]
  constructor
  · rintro ⟨-, hnearest⟩ pattern hpattern
    exact (nearestEven_roundBits_iff (pattern_lt hpattern) (hfinite pattern hpattern)).mp
      (hnearest pattern hpattern)
  · intro hsmall
    refine ⟨hrest, fun pattern hpattern => ?_⟩
    exact (nearestEven_roundBits_iff (pattern_lt hpattern) (hfinite pattern hpattern)).mpr
      (hsmall pattern hpattern)

/-- A tie, a subnormal number and the largest negative value that is packed rightly. -/
theorem packs_three :
    let data := [0x00, 0x80, 0x81, 0x3f, 0x01, 0x00, 0x00, 0x80, 0xff, 0x7f, 0x7f, 0xff]
    Packs data (f32BytesToBf16 data) := by
  intro data
  have haccepted : validateDecoderFinite (fun _ => some data) ["decoder.weight"] = .ok () := by
    decide
  exact (packs_iff haccepted (List.mem_singleton_self "decoder.weight") rfl).mpr (by decide)

/-- The largest binary32 number is accepted and packed as an infinity. -/
theorem packs_overflow :
    validateDecoderFinite (fun _ => some [0xff, 0xff, 0x7f, 0x7f]) ["decoder.weight"] = .ok ()
      ∧ f32BytesToBf16 [0xff, 0xff, 0x7f, 0x7f] = [0x80, 0x7f]
      ∧ ¬ Bf16.Finite (0x7f80 * 2 ^ 16)
      ∧ ¬ Packs [0xff, 0xff, 0x7f, 0x7f] (f32BytesToBf16 [0xff, 0xff, 0x7f, 0x7f]) := by
  have hpacked : f32BytesToBf16 [0xff, 0xff, 0x7f, 0x7f] = [0x80, 0x7f] := by decide
  have hinfinite : ¬ Bf16.Finite (0x7f80 * 2 ^ 16) := by decide
  refine ⟨by decide, hpacked, hinfinite, fun hpacks => ?_⟩
  rw [hpacked] at hpacks
  have hnumbers : patterns 2 [0x80, 0x7f] = [0x7f80] := by decide
  have hnearest := hpacks.2
  rw [hnumbers] at hnearest
  cases hnearest with
  | cons hfirst hnone => exact hinfinite hfirst.finite

end Qwen3Tts.Artifact
