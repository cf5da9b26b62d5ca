import Qwen3Tts.Talker.Tokenizer

/-!
# Talker — the byte encoder

`build_byte_encoder` in closed form: the printable bytes stand for themselves, the others for the
characters from 256 on, in their order.
-/

namespace Qwen3Tts.Talker.Tokenizer

open Qwen3Tts.Lib

/-- The code points of the bytes, in the order of the bytes. -/
def byteCodes : List Nat :=
  List.range' 256 33 ++ List.range' 33 94 ++ List.range' 289 34 ++ List.range' 161 12 ++ [323] ++
    List.range' 174 82

theorem mem_printable {b : Nat} :
    b ∈ printable ↔ (33 ≤ b ∧ b ≤ 126) ∨ (161 ≤ b ∧ b ≤ 172) ∨ (174 ≤ b ∧ b ≤ 255) := by
  simp only [printable, List.mem_append, List.mem_range'_1]
  omega

theorem foldl_add_of_printable (bytes : List Nat) (h : ∀ b ∈ bytes, b ∈ printable) (t : ByteTable) :
    bytes.foldl ByteTable.add t = t := by
  induction bytes with
  | nil => rfl
  | cons b bytes ih =>
    rw [List.forall_mem_cons] at h
    rw [List.foldl_cons, ByteTable.add, if_pos h.1]
    exact ih h.2

theorem foldl_add_of_missing (bytes : List Nat) (h : ∀ b ∈ bytes, b ∉ printable) (t : ByteTable) :
    bytes.foldl ByteTable.add t = ⟨t.values ++ bytes,
      t.mapped ++ List.range' (256 + t.offset) bytes.length, t.offset + bytes.length⟩ := by
  induction bytes generalizing t with
  | nil => simp
  | cons b bytes ih =>
    rw [List.forall_mem_cons] at h
    rw [List.foldl_cons, ByteTable.add, if_neg h.1, ih h.2]
    simp only [List.append_assoc, List.singleton_append, List.length_cons, List.range'_succ,
      ByteTable.mk.injEq, true_and]
    constructor
    · rw [Nat.add_assoc]
    · omega

/-- The table after the second loop. -/
theorem foldl_add_range :
    (List.range 256).foldl ByteTable.add ⟨printable, printable, 0⟩ =
      ⟨printable ++ List.range' 0 33 ++ List.range' 127 34 ++ [173],
        printable ++ List.range' 256 33 ++ List.range' 289 34 ++ [323], 68⟩ := by
  have hsplit : List.range 256 = List.range' 0 33 ++ List.range' 33 94 ++ List.range' 127 34 ++
      List.range' 161 12 ++ [173] ++ List.range' 174 82 := by
    set_option maxRecDepth 20000 in decide
  have hcontrol : ∀ b ∈ List.range' 0 33, b ∉ printable := by
    simp only [List.mem_range'_1, mem_printable]
    omega
  have hascii : ∀ b ∈ List.range' 33 94, b ∈ printable := by
    simp only [List.mem_range'_1, mem_printable]
    omega
  have hdelete : ∀ b ∈ List.range' 127 34, b ∉ printable := by
    simp only [List.mem_range'_1, mem_printable]
    omega
  have hlatin : ∀ b ∈ List.range' 161 12, b ∈ printable := by
    simp only [List.mem_range'_1, mem_printable]
    omega
  have hhyphen : ∀ b ∈ [173], b ∉ printable := by
    simp only [List.mem_singleton, mem_printable]
    omega
  have hletters : ∀ b ∈ List.range' 174 82, b ∈ printable := by
    simp only [List.mem_range'_1, mem_printable]
    omega
  rw [hsplit]
  simp only [List.foldl_append]
  rw [foldl_add_of_missing _ hcontrol, foldl_add_of_printable _ hascii,
    foldl_add_of_missing _ hdelete, foldl_add_of_printable _ hlatin,
    foldl_add_of_missing _ hhyphen, foldl_add_of_printable _ hletters]
  rfl

/-- The last loop on the code points instead of the characters. -/
theorem foldl_set_map (places : List (Nat × Nat)) (codes : List Nat) :
    places.foldl (fun encoder p => encoder.set p.1 (Char.ofNat p.2)) (codes.map Char.ofNat) =
      (places.foldl (fun codes p => codes.set p.1 p.2) codes).map Char.ofNat := by
  induction places generalizing codes with
  | nil => rfl
  | cons p places ih => rw [List.foldl_cons, List.foldl_cons, ← List.map_set, ih]

/-- A range of places is written as one segment. -/
theorem foldl_set_range' {codes : List Nat} {place count : Nat} (code : Nat)
    (h : place + count ≤ codes.length) :
    ((List.range' place count).zip (List.range' code count)).foldl
        (fun codes p => codes.set p.1 p.2) codes =
      codes.take place ++ List.range' code count ++ codes.drop (place + count) := by
  induction count generalizing codes place code with
  | zero =>
    show codes = codes.take place ++ [] ++ codes.drop place
    rw [List.append_nil, List.take_append_drop]
  | succ count ih =>
    have hplace : place < codes.length := by omega
    have hset : (codes.set place code).length = codes.length := List.length_set
    have hfront : (codes.set place code).take (place + 1) = codes.take place ++ [code] := by
      rw [List.set_eq_take_append_cons_drop, if_pos hplace, ← List.singleton_append,
        ← List.append_assoc, List.take_left']
      rw [List.length_append, List.length_take, List.length_singleton]
      omega
    rw [List.range'_succ, List.range'_succ, List.zip_cons_cons, List.foldl_cons,
      ih (code + 1) (by rw [hset]; omega), hfront, List.drop_set, if_pos (by omega)]
    have hlast : place + 1 + count = place + (count + 1) := by omega
    rw [hlast, List.append_assoc, List.append_assoc, List.append_assoc, List.singleton_append,
      List.cons_append]

theorem buildByteEncoder_eq : buildByteEncoder = byteCodes.map Char.ofNat := by
  have hempty : List.replicate 256 '\x00' = (List.replicate 256 0).map Char.ofNat := by
    rw [List.map_replicate]
  rw [buildByteEncoder, foldl_add_range, ByteTable.encoder, hempty, foldl_set_map]
  refine congrArg (List.map Char.ofNat) ?_
  -- the places are six ranges
  show ((List.range' 33 94 ++ List.range' 161 12 ++ List.range' 174 82 ++ List.range' 0 33 ++
      List.range' 127 34 ++ List.range' 173 1).zip (List.range' 33 94 ++ List.range' 161 12 ++
      List.range' 174 82 ++ List.range' 256 33 ++ List.range' 289 34 ++ List.range' 323 1)).foldl
    (fun codes p => codes.set p.1 p.2) (List.replicate 256 0) = byteCodes
  simp only [List.zip_append, List.length_append, List.length_range', List.foldl_append]
  rw [foldl_set_range' 33, foldl_set_range' 161, foldl_set_range' 174, foldl_set_range' 256,
    foldl_set_range' 289, foldl_set_range' 323]
  · set_option maxRecDepth 20000 in decide
  all_goals
    simp only [List.length_append, List.length_take, List.length_drop, List.length_range',
      List.length_replicate]
    omega

theorem mem_byteCodes {n : Nat} :
    n ∈ byteCodes ↔ (33 ≤ n ∧ n ≤ 126) ∨ (161 ≤ n ∧ n ≤ 172) ∨ (174 ≤ n ∧ n ≤ 323) := by
  simp only [byteCodes, List.mem_append, List.mem_range'_1, List.mem_singleton]
  omega

theorem nodup_byteCodes : byteCodes.Nodup := by
  have hrange : ∀ start count : Nat, (List.range' start count).Nodup := fun _ _ => List.nodup_range'
  simp only [byteCodes, List.nodup_append, hrange, List.nodup_singleton, List.mem_append,
    List.mem_range'_1, List.mem_singleton, true_and]
  -- what is left is that no two of the six ranges meet
  grind

/-- The code points are below the surrogates, so each is the character's own. -/
theorem toNat_ofNat_of_mem {n : Nat} (h : n ∈ byteCodes) : (Char.ofNat n).toNat = n := by
  have hvalid : n.isValidChar := .inl (by rw [mem_byteCodes] at h; omega)
  rw [Char.ofNat, dif_pos hvalid]
  rfl

theorem mem_buildByteEncoder {c : Char} (h : c.toNat ∈ byteCodes) : c ∈ buildByteEncoder := by
  rw [buildByteEncoder_eq]
  exact List.mem_map.mpr ⟨c.toNat, h, Char.ofNat_toNat c⟩

theorem toNat_of_mem_buildByteEncoder {c : Char} (h : c ∈ buildByteEncoder) :
    c.toNat ∈ byteCodes := by
  rw [buildByteEncoder_eq] at h
  obtain ⟨n, hn, rfl⟩ := List.mem_map.mp h
  rw [toNat_ofNat_of_mem hn]
  exact hn

/-- No byte is written as white space. -/
theorem not_isWhitespace_of_mem {c : Char} (h : c ∈ buildByteEncoder) : isWhitespace c = false := by
  have hcode := mem_byteCodes.mp (toNat_of_mem_buildByteEncoder h)
  simp only [isWhitespace, Bool.or_eq_false_iff, Bool.and_eq_false_iff, decide_eq_false_iff_not,
    beq_eq_false_iff_ne]
  omega

end Qwen3Tts.Talker.Tokenizer
