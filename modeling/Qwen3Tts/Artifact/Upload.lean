import Mathlib.Logic.Relation
import Qwen3Tts.Artifact.Weights

/-!
# Artifact — every byte is placed once

Chunking, upload and staging compose to one copy. A tensor's chunks join to its bytes
(`cut_chunks`); the staging loop stores its source at the offset (`uploadLoop_spec`), and so a
sequence of accepted calls stores the join of their sources (`uploadTensors_spec`). Whatever calls
were made and however CUDA answered them, the buffer starts with the sources of the accepted ones
(`Reaches.holds`). So `main` reports an upload only when the device holds the tensors
(`uploadArtifact_ok`), and its probes come back (`uploadArtifact_succeeds`).
-/

namespace Qwen3Tts.Artifact

open Qwen3Tts.Lib

/-! ## The chunks of a tensor -/

/-- Chunks that follow each other from `start` on, none of them empty. -/
def Consecutive (start : Nat) : List TensorChunk → Prop
  | [] => True
  | chunk :: chunks => chunk.offsetBytes = start ∧ chunk.bytes ≠ [] ∧
      Consecutive (start + chunk.bytes.length) chunks

/-- The chunks of a tensor, in their order and without a gap. -/
structure Cut (bytes : List UInt8) (alignment maxBytes : Nat) (chunks : List TensorChunk) :
    Prop where
  consecutive : Consecutive 0 chunks
  joined : chunks.flatMap (·.bytes) = bytes
  aligned : ∀ chunk ∈ chunks, chunk.offsetBytes % alignment = 0
  /-- Elements are not divided unless the last one is short. -/
  whole : bytes.length % alignment = 0 → ∀ chunk ∈ chunks, chunk.bytes.length % alignment = 0
  bounded : ∀ chunk ∈ chunks, chunk.bytes.length ≤ maxBytes

namespace TensorChunks

/-- The iterator is at its end, -/
theorem toList_done {it : TensorChunks} (h : it.next = none) : it.toList = [] := by
  rw [toList]
  split
  · rfl
  · rename_i heq
    rw [h] at heq
    cases heq

/-- or gives one more chunk. -/
theorem toList_next {it rest : TensorChunks} {chunk : TensorChunk}
    (h : it.next = some (chunk, rest)) : it.toList = chunk :: rest.toList := by
  rw [toList]
  split
  · rename_i heq
    rw [h] at heq
    cases heq
  · rename_i heq
    rw [h] at heq
    cases heq
    rfl

/-- A chunk takes what the size allows, and at least one byte. -/
theorem next_some {it rest : TensorChunks} {chunk : TensorChunk}
    (h : it.next = some (chunk, rest)) : rest.data = it.data ∧ rest.chunkBytes = it.chunkBytes ∧
      it.offset < rest.offset ∧
      rest.offset = min (it.offset + it.chunkBytes) it.data.length ∧
      chunk = ⟨it.offset, (it.data.drop it.offset).take (rest.offset - it.offset)⟩ := by
  have hlength := it.data_lt
  have hpos := it.chunkBytes_pos
  have hle := it.offset_le
  unfold next at h
  split at h
  · cases h
  · cases h
    have hstop : it.stop = min (it.offset + it.chunkBytes) it.data.length := by
      unfold stop
      omega
    refine ⟨rfl, rfl, ?_, hstop, rfl⟩
    show it.offset < it.stop
    omega

/-- The chunks from an offset on that is a multiple of the alignment. -/
theorem cut_toList {alignment : Nat} (it : TensorChunks) (hchunk : it.chunkBytes % alignment = 0)
    (hoffset : it.offset % alignment = 0) :
    Consecutive it.offset it.toList ∧
    it.toList.flatMap (·.bytes) = it.data.drop it.offset ∧
    (∀ chunk ∈ it.toList, chunk.offsetBytes % alignment = 0) ∧
    (it.data.length % alignment = 0 →
      ∀ chunk ∈ it.toList, chunk.bytes.length % alignment = 0) ∧
    ∀ chunk ∈ it.toList, chunk.bytes.length ≤ it.chunkBytes := by
  induction hn : it.data.length - it.offset using Nat.strongRecOn generalizing it with
  | ind n ih =>
    cases hnext : it.next with
    | none =>
      have hend : it.offset = it.data.length := by
        unfold next at hnext
        split at hnext
        · assumption
        · cases hnext
      rw [toList_done hnext, hend, List.drop_length]
      have hnone : ∀ {p : TensorChunk → Prop}, ∀ chunk ∈ ([] : List TensorChunk), p chunk :=
        fun _ hchunk => absurd hchunk List.not_mem_nil
      exact ⟨trivial, rfl, hnone, fun _ => hnone, hnone⟩
    | some pair =>
      obtain ⟨chunk, rest⟩ := pair
      have hdown := next_decreases hnext
      obtain ⟨hdata, hsize, hlt, hstop, rfl⟩ := next_some hnext
      have hlength : ((it.data.drop it.offset).take (rest.offset - it.offset)).length
          = rest.offset - it.offset := by
        rw [List.length_take, List.length_drop]
        omega
      rw [toList_next hnext]
      by_cases hlast : it.offset + it.chunkBytes ≤ it.data.length
      · -- A chunk of full size, and the iterator goes on at a multiple of the alignment.
        have hrest : rest.offset = it.offset + it.chunkBytes := by omega
        have haligned : rest.offset % alignment = 0 := by
          rw [hrest, Nat.add_mod, hoffset, hchunk, Nat.zero_mod]
        obtain ⟨hconsecutive, hjoined, hmultiple, hwhole, hbounded⟩ :=
          ih _ (by omega) rest (by rw [hsize]; exact hchunk) haligned rfl
        rw [hdata] at hjoined hwhole
        rw [hsize] at hbounded
        refine ⟨⟨rfl, ?_, ?_⟩, ?_, ?_, fun heven => ?_, ?_⟩
        · apply List.ne_nil_of_length_pos
          rw [hlength]
          omega
        · show Consecutive (it.offset + List.length _) rest.toList
          rw [hlength, Nat.add_sub_cancel' (Nat.le_of_lt hlt)]
          exact hconsecutive
        · rw [List.flatMap_cons, hjoined]
          show (it.data.drop it.offset).take _ ++ _ = _
          conv_lhs => rw [← Nat.add_sub_cancel' (Nat.le_of_lt hlt), ← List.drop_drop,
            Nat.add_sub_cancel_left]
          exact List.take_append_drop _ _
        · rw [List.forall_mem_cons]
          exact ⟨hoffset, hmultiple⟩
        · rw [List.forall_mem_cons, hlength, hrest, Nat.add_sub_cancel_left]
          exact ⟨hchunk, hwhole heven⟩
        · rw [List.forall_mem_cons, hlength]
          exact ⟨by omega, hbounded⟩
      · -- The last chunk.
        have hrest : rest.offset = it.data.length := by omega
        have hdone : rest.toList = [] := by
          apply toList_done
          rw [next, if_pos (by rw [hdata, hrest])]
        rw [hdone]
        refine ⟨⟨rfl, ?_, trivial⟩, ?_, ?_, fun heven => ?_, ?_⟩
        · apply List.ne_nil_of_length_pos
          rw [hlength]
          omega
        · rw [List.flatMap_singleton, hrest]
          exact List.take_of_length_le (Nat.le_of_eq List.length_drop)
        · rw [List.forall_mem_singleton]
          exact hoffset
        · rw [List.forall_mem_singleton, hlength, hrest]
          exact (Nat.sub_mod_eq_zero_of_mod_eq (by rw [heven, hoffset]))
        · rw [List.forall_mem_singleton, hlength]
          omega

end TensorChunks

/-- The chunks that an accepted size cuts a tensor into. -/
theorem cut_chunks {tensor : TensorRef} {maxBytes : Nat} {chunks : TensorChunks}
    (h : tensor.chunks maxBytes = .ok chunks) : ∃ alignment, tensor.alignment = .ok alignment ∧
      Cut tensor.bytes alignment maxBytes chunks.toList := by
  unfold TensorRef.chunks at h
  obtain ⟨_, -, h⟩ := bind_eq_ok.mp h
  obtain ⟨alignment, halignment, h⟩ := bind_eq_ok.mp h
  dsimp only at h
  split at h
  · cases h
  · cases h
    have hmultiple : (maxBytes - maxBytes % alignment) % alignment = 0 :=
      Nat.sub_mod_eq_zero_of_mod_eq (by rw [Nat.mod_mod])
    obtain ⟨hconsecutive, hjoined, haligned, hwhole, hbounded⟩ :=
      @TensorChunks.cut_toList alignment ⟨tensor.bytes, maxBytes - maxBytes % alignment, 0, _, _, _⟩
        hmultiple (Nat.zero_mod _)
    refine ⟨alignment, halignment, hconsecutive, hjoined, haligned, hwhole, ?_⟩
    intro chunk hchunk
    exact Nat.le_trans (hbounded chunk hchunk) (Nat.sub_le _ _)

/-! ## The staging loop of an upload -/

/-- **The staging loop is one copy.** Whatever CUDA answers, only the destination changes; when no
call fails it holds the source. -/
theorem uploadLoop_spec (b : DeviceBuffer) {offset bytes : UInt64} {source : List UInt8}
    {outcome : Nat → ChunkOutcome} (hsource : source.length = bytes.toNat)
    (hfits : offset.toNat + bytes.toNat < 2 ^ 64) (turn : Nat) (s : Transfer)
    (hcopied : s.copied.toNat ≤ bytes.toNat) :
    (∀ address, address < offset.toNat + s.copied.toNat ∨ offset.toNat + bytes.toNat ≤ address →
      (b.uploadLoop offset source bytes outcome turn s).2.target address = s.target address) ∧
    ((b.uploadLoop offset source bytes outcome turn s).1 = .ok () →
      (b.uploadLoop offset source bytes outcome turn s).2.target
        = store s.target (offset.toNat + s.copied.toNat) (source.drop s.copied.toNat)) ∧
    ((∀ t, outcome t = .done) → (b.uploadLoop offset source bytes outcome turn s).1 = .ok ()) := by
  induction hn : bytes.toNat - s.copied.toNat using Nat.strongRecOn generalizing turn s with
  | ind n ih =>
    by_cases hlt : s.copied < bytes
    · obtain ⟨hchunk, hpos, hless, hnext⟩ := toNat_chunk b hlt
      have htarget : (offset + s.copied).toNat = offset.toNat + s.copied.toNat := by
        rw [UInt64.toNat_add]
        omega
      have hlength : ((source.drop s.copied.toNat).take (b.chunk bytes s.copied).toNat).length
          = (b.chunk bytes s.copied).toNat := by
        rw [List.length_take, List.length_drop]
        omega
      -- A failure leaves anything in the destination of its chunk.
      have hframe : ∀ left : Nat → UInt8, ∀ address,
          address < offset.toNat + s.copied.toNat ∨ offset.toNat + bytes.toNat ≤ address →
          store s.target (offset + s.copied).toNat (load left 0 (b.chunk bytes s.copied).toNat)
            address = s.target address := by
        intro left address haddress
        apply store_outside
        rw [length_load, htarget]
        omega
      rw [DeviceBuffer.uploadLoop, dif_pos hlt]
      dsimp only
      cases houtcome : outcome turn with
      | copyFails failure left =>
        refine ⟨hframe left, nofun, fun hdone => ?_⟩
        rw [hdone turn] at houtcome
        cases houtcome
      | syncFails failure left =>
        refine ⟨hframe left, nofun, fun hdone => ?_⟩
        rw [hdone turn] at houtcome
        cases houtcome
      | done =>
        dsimp only
        have hstaged : load (store s.staging 0 ((source.drop s.copied.toNat).take
            (b.chunk bytes s.copied).toNat)) 0 (b.chunk bytes s.copied).toNat
              = (source.drop s.copied.toNat).take (b.chunk bytes s.copied).toNat :=
          load_store hlength
        rw [hstaged, htarget]
        obtain ⟨houtside, hstored, hdone⟩ := ih
            (bytes.toNat - (s.copied + b.chunk bytes s.copied).toNat) (by omega) (turn + 1) {
          copied := s.copied + b.chunk bytes s.copied
          target := store s.target (offset.toNat + s.copied.toNat)
            ((source.drop s.copied.toNat).take (b.chunk bytes s.copied).toNat)
          staging := store s.staging 0 ((source.drop s.copied.toNat).take
            (b.chunk bytes s.copied).toNat)
          calls := s.calls + 1 } (by dsimp only; omega) rfl
        dsimp only at houtside hstored hdone
        refine ⟨fun address haddress => ?_, fun hok => ?_, hdone⟩
        · rw [houtside address (by omega)]
          apply store_outside
          rw [hlength]
          omega
        · rw [hstored hok]
          have hsplit : source.drop s.copied.toNat
              = (source.drop s.copied.toNat).take (b.chunk bytes s.copied).toNat
                ++ source.drop (s.copied + b.chunk bytes s.copied).toNat := by
            rw [hnext, ← hchunk, ← List.drop_drop]
            exact (List.take_append_drop _ _).symm
          conv_rhs => rw [hsplit]
          rw [store_append, hlength, hnext, hchunk, Nat.add_assoc]
    · have hend : s.copied.toNat = bytes.toNat := by
        rw [UInt64.lt_iff_toNat_lt] at hlt
        omega
      have hnothing : source.drop s.copied.toNat = [] := by
        rw [hend, ← hsource, List.drop_length]
      rw [DeviceBuffer.uploadLoop, dif_neg hlt, hnothing, store_nil]
      exact ⟨fun _ _ => rfl, fun _ => rfl, fun _ => rfl⟩

/-! ## The staging loop of a read -/

/-- The readback loop copies the range out of the device. -/
theorem readLoop_spec (b : DeviceBuffer) {offset bytes : UInt64} {outcome : Nat → ChunkOutcome}
    (hfits : offset.toNat + bytes.toNat < 2 ^ 64) (turn : Nat) (s : Transfer)
    (hcopied : s.copied.toNat ≤ bytes.toNat) :
    (∀ address, bytes.toNat ≤ address →
      (b.readLoop offset bytes outcome turn s).2.target address = s.target address) ∧
    ((b.readLoop offset bytes outcome turn s).1 = .ok () →
      (b.readLoop offset bytes outcome turn s).2.target = store s.target s.copied.toNat
        (load b.device (offset.toNat + s.copied.toNat) (bytes.toNat - s.copied.toNat))) ∧
    ((∀ t, outcome t = .done) → (b.readLoop offset bytes outcome turn s).1 = .ok ()) := by
  -- by induction on the bytes that are left
  induction hn : bytes.toNat - s.copied.toNat using Nat.strongRecOn generalizing turn s with
  | ind n ih =>
    by_cases hlt : s.copied < bytes
    · obtain ⟨hchunk, hpos, hless, hnext⟩ := toNat_chunk b hlt
      have horigin : (offset + s.copied).toNat = offset.toNat + s.copied.toNat := by
        rw [UInt64.toNat_add]
        omega
      rw [DeviceBuffer.readLoop, dif_pos hlt]
      dsimp only
      -- both failures leave the target as far as it was copied
      cases houtcome : outcome turn with
      | copyFails failure left =>
        refine ⟨fun _ _ => rfl, nofun, fun hdone => ?_⟩
        rw [hdone turn] at houtcome
        cases houtcome
      | syncFails failure left =>
        refine ⟨fun _ _ => rfl, nofun, fun hdone => ?_⟩
        rw [hdone turn] at houtcome
        cases houtcome
      | done =>
        dsimp only
        -- the chunk goes through the staging buffer unchanged
        have hstaged : load (store s.staging 0 (load b.device (offset.toNat + s.copied.toNat)
            (b.chunk bytes s.copied).toNat)) 0 (b.chunk bytes s.copied).toNat
              = load b.device (offset.toNat + s.copied.toNat) (b.chunk bytes s.copied).toNat :=
          load_store length_load
        rw [horigin, hstaged]
        obtain ⟨houtside, hstored, hdone⟩ := ih
            (bytes.toNat - (s.copied + b.chunk bytes s.copied).toNat) (by omega) (turn + 1) {
          copied := s.copied + b.chunk bytes s.copied
          target := store s.target s.copied.toNat (load b.device (offset.toNat + s.copied.toNat)
            (b.chunk bytes s.copied).toNat)
          staging := store s.staging 0 (load b.device (offset.toNat + s.copied.toNat)
            (b.chunk bytes s.copied).toNat)
          calls := s.calls } (by dsimp only; omega) rfl
        dsimp only at houtside hstored hdone
        refine ⟨fun address haddress => ?_, fun hok => ?_, hdone⟩
        · rw [houtside address haddress]
          apply store_outside
          rw [length_load]
          omega
        · -- this chunk and the ones behind it are the whole range
          have hrest : n = (b.chunk bytes s.copied).toNat
              + (bytes.toNat - (s.copied + b.chunk bytes s.copied).toNat) := by
            omega
          rw [hstored hok]
          conv_rhs => rw [hrest, load_add, store_append, length_load]
          rw [hnext, hchunk, Nat.add_assoc]
    · have hend : n = 0 := by
        rw [UInt64.lt_iff_toNat_lt] at hlt
        omega
      rw [DeviceBuffer.readLoop, dif_neg hlt, hend]
      refine ⟨fun _ _ => rfl, fun _ => ?_, fun _ => rfl⟩
      exact store_nil.symm

/-! ## One call -/

/-- No CUDA call fails. -/
def CallCuda.Succeeds (cuda : CallCuda) : Prop := cuda.setDevice = none ∧ ∀ t, cuda.chunk t = .done

/-- What an upload of `data` at `offset` does to a buffer. -/
structure UploadEffect (b b' : DeviceBuffer) (offset : UInt64) (data : List UInt8)
    (answer : Except CallFailure Unit) : Prop where
  capacity_eq : b'.capacityBytes = b.capacityBytes
  /-- Only the destination may change, and only when the range is free. -/
  outside : ∀ address, address < b.uploadedBytes.toNat ∨
    b.uploadedBytes.toNat + data.length ≤ address → b'.device address = b.device address
  rejected : offset ≠ b.uploadedBytes ∨
    b.capacityBytes.toNat < b.uploadedBytes.toNat + data.length → answer ≠ .ok () ∧ b' = b
  failed : answer ≠ .ok () → b'.uploadedBytes = b.uploadedBytes
  accepted : answer = .ok () → b'.device = store b.device b.uploadedBytes.toNat data ∧
    b'.uploadedBytes.toNat = b.uploadedBytes.toNat + data.length

/-- One call of `upload`: refused, failed on the way, or complete. -/
theorem upload_effect {b b' : DeviceBuffer} {offset bytes : UInt64}
    {source : Option (List UInt8)} {cuda : CallCuda} {answer : Except CallFailure Unit}
    (hsource : (source.getD []).length = bytes.toNat)
    (h : b.upload offset source bytes cuda = (answer, b')) :
    UploadEffect b b' offset (source.getD []) answer := by
  have hcapacity := b.capacityBytes.toNat_lt
  have hle := b.uploadedBytes_le
  rw [UInt64.le_iff_toNat_le] at hle
  -- An answer in front of the first copy leaves the buffer alone.
  have hearly : ∀ failure : CallFailure, (Except.error failure, b) = (answer, b') →
      UploadEffect b b' offset (source.getD []) answer := by
    intro failure heq
    cases heq
    exact ⟨rfl, fun _ _ => rfl, fun _ => ⟨nofun, rfl⟩, fun _ => rfl, nofun⟩
  unfold DeviceBuffer.upload at h
  split at h
  · exact hearly _ h
  split at h
  · exact hearly _ h
  rename_i hoffset
  rw [Decidable.not_not] at hoffset
  subst hoffset
  split at h
  · exact hearly _ h
  rename_i hroom
  rw [UInt64.lt_iff_toNat_lt, UInt64.toNat_sub_of_le _ _ b.uploadedBytes_le] at hroom
  split at h
  · exact hearly _ h
  obtain ⟨houtside, hstored, -⟩ := @uploadLoop_spec b b.uploadedBytes bytes (source.getD [])
    cuda.chunk hsource (by omega) 0
    { copied := 0, target := b.device, staging := b.staging, calls := b.uploadCalls }
    (Nat.zero_le _)
  have hnot : ¬ (b.uploadedBytes ≠ b.uploadedBytes ∨
      b.capacityBytes.toNat < b.uploadedBytes.toNat + (source.getD []).length) := by
    rw [hsource, not_or, Decidable.not_not]
    exact ⟨rfl, by omega⟩
  dsimp only at h
  split at h
  · rename_i failure s heq
    cases h
    rw [heq] at houtside
    refine ⟨rfl, ?_, fun hbad => absurd hbad hnot, fun _ => rfl, nofun⟩
    rw [hsource]
    exact houtside
  · rename_i s heq
    cases h
    rw [heq] at houtside hstored
    refine ⟨rfl, ?_, fun hbad => absurd hbad hnot, fun hbad => absurd rfl hbad, fun _ => ?_⟩
    · rw [hsource]
      exact houtside
    · refine ⟨hstored rfl, ?_⟩
      show (b.uploadedBytes + bytes).toNat = _
      rw [UInt64.toNat_add, hsource]
      omega

/-- An upload that fits is accepted when CUDA does not fail. -/
theorem upload_succeeds {b : DeviceBuffer} {offset bytes : UInt64} {source : List UInt8}
    {cuda : CallCuda} (hsource : source.length = bytes.toNat) (hcuda : cuda.Succeeds)
    (hoffset : offset = b.uploadedBytes)
    (hroom : b.uploadedBytes.toNat + bytes.toNat ≤ b.capacityBytes.toNat) :
    (b.upload offset (some source) bytes cuda).1 = .ok () := by
  have hcapacity := b.capacityBytes.toNat_lt
  obtain ⟨hdevice, hchunks⟩ := hcuda
  have hfree : ¬ b.capacityBytes - b.uploadedBytes < bytes := by
    rw [UInt64.lt_iff_toNat_lt, UInt64.toNat_sub_of_le _ _ b.uploadedBytes_le]
    omega
  obtain ⟨-, -, hdone⟩ := @uploadLoop_spec b b.uploadedBytes bytes source
    cuda.chunk hsource (by omega) 0
    { copied := 0, target := b.device, staging := b.staging, calls := b.uploadCalls }
    (Nat.zero_le _)
  subst hoffset
  rw [DeviceBuffer.upload, if_neg (by rintro ⟨-, h⟩; cases h), dif_neg (not_not_intro rfl),
    dif_neg hfree, hdevice]
  dsimp only [Option.getD_some]
  split
  · rename_i failure s heq
    have hok := hdone hchunks
    rw [heq] at hok
    exact hok
  · rfl

/-- A range that was uploaded. -/
def DeviceBuffer.Uploaded (b : DeviceBuffer) (offset bytes : UInt64) : Prop :=
  offset.toNat + bytes.toNat ≤ b.uploadedBytes.toNat

/-- The range lies within what was uploaded; neither side overflows. -/
theorem uploaded_iff {b : DeviceBuffer} {offset bytes : UInt64} : b.Uploaded offset bytes ↔
    ¬ (b.uploadedBytes < offset ∨ b.uploadedBytes - offset < bytes) := by
  unfold DeviceBuffer.Uploaded
  rw [UInt64.lt_iff_toNat_lt, UInt64.lt_iff_toNat_lt]
  by_cases hle : offset ≤ b.uploadedBytes
  · rw [UInt64.toNat_sub_of_le _ _ hle]
    rw [UInt64.le_iff_toNat_le] at hle
    omega
  · rw [UInt64.le_iff_toNat_le] at hle
    omega

/-- A read outside the uploaded range is rejected and writes nothing. -/
theorem read_rejected {b : DeviceBuffer} {offset bytes : UInt64} {cuda : CallCuda}
    {destination : Option (Nat → UInt8)} (h : ¬ b.Uploaded offset bytes) :
    (b.read offset destination bytes cuda).1 ≠ .ok () ∧
    (b.read offset destination bytes cuda).2 = (destination, b) := by
  rw [uploaded_iff, Decidable.not_not] at h
  unfold DeviceBuffer.read
  split
  · exact ⟨nofun, rfl⟩
  · exact ⟨nofun, rfl⟩

/-- A read never changes the device. -/
theorem read_keeps (b : DeviceBuffer) (offset bytes : UInt64) (cuda : CallCuda)
    (destination : Option (Nat → UInt8)) :
    ∃ staging, (b.read offset destination bytes cuda).2.2 = { b with staging := staging } := by
  unfold DeviceBuffer.read
  split
  · exact ⟨_, rfl⟩
  split
  · exact ⟨_, rfl⟩
  split
  · exact ⟨_, rfl⟩
  · exact ⟨_, rfl⟩

/-- A read inside the uploaded range returns what the device holds there. -/
theorem read_accepted {b : DeviceBuffer} {offset bytes : UInt64} {cuda : CallCuda}
    {destination : Nat → UInt8} (h : b.Uploaded offset bytes) :
    (cuda.Succeeds → (b.read offset (some destination) bytes cuda).1 = .ok ()) ∧
    ((b.read offset (some destination) bytes cuda).1 = .ok () →
      (b.read offset (some destination) bytes cuda).2.1
        = some (store destination 0 (load b.device offset.toNat bytes.toNat))) := by
  have hfits : offset.toNat + bytes.toNat < 2 ^ 64 := by
    have hlt := b.uploadedBytes.toNat_lt
    unfold DeviceBuffer.Uploaded at h
    omega
  rw [uploaded_iff] at h
  obtain ⟨-, hstored, hdone⟩ := @readLoop_spec b offset bytes cuda.chunk hfits 0
    { copied := 0, target := destination, staging := b.staging, calls := b.uploadCalls }
    (Nat.zero_le _)
  unfold DeviceBuffer.read
  rw [if_neg (by rintro ⟨-, hnone⟩; cases hnone), if_neg h]
  cases hdevice : cuda.setDevice with
  | some failure =>
    refine ⟨fun hcuda => ?_, nofun⟩
    rw [hcuda.1] at hdevice
    cases hdevice
  | none =>
    refine ⟨fun hcuda => hdone hcuda.2, fun hok => ?_⟩
    exact congrArg some (hstored hok)

/-- `finish` needs a full buffer and a synchronisation that succeeds. -/
theorem finish_iff {b : DeviceBuffer} {sync : Option CudaFailure} :
    (∃ metrics, b.finish sync = .ok metrics) ↔
      b.uploadedBytes = b.capacityBytes ∧ sync = none := by
  unfold DeviceBuffer.finish
  split
  · rename_i hnot
    refine iff_of_false ?_ fun h => hnot h.1
    rintro ⟨metrics, h⟩
    cases h
  · rename_i heq
    rw [Decidable.not_not] at heq
    cases sync with
    | none => exact iff_of_true ⟨_, rfl⟩ ⟨heq, rfl⟩
    | some failure =>
      refine iff_of_false ?_ fun h => ?_
      · rintro ⟨metrics, h⟩
        cases h
      · cases h.2

/-! ## Runs -/

/-- The buffers that calls lead to, however CUDA answers them, with the sources of the uploads
that were accepted. A source has as many bytes as the call says. -/
inductive Reaches : DeviceBuffer → List UInt8 → Prop where
  | create {capacity stagingBytes : UInt64} {allocated : Option CallFailure}
      {device staging : Nat → UInt8} {b : DeviceBuffer}
      (h : DeviceBuffer.create capacity stagingBytes allocated device staging = .ok b) :
      Reaches b []
  | upload {b b' : DeviceBuffer} {log : List UInt8} {offset bytes : UInt64}
      {source : Option (List UInt8)} {cuda : CallCuda} (hb : Reaches b log)
      (hsource : (source.getD []).length = bytes.toNat)
      (h : b.upload offset source bytes cuda = (.ok (), b')) :
      Reaches b' (log ++ source.getD [])
  | failedUpload {b b' : DeviceBuffer} {log : List UInt8} {offset bytes : UInt64}
      {source : Option (List UInt8)} {cuda : CallCuda} {failure : CallFailure}
      (hb : Reaches b log) (hsource : (source.getD []).length = bytes.toNat)
      (h : b.upload offset source bytes cuda = (.error failure, b')) :
      Reaches b' log
  | read {b : DeviceBuffer} {log : List UInt8} (offset bytes : UInt64)
      (destination : Option (Nat → UInt8)) (cuda : CallCuda) (hb : Reaches b log) :
      Reaches (b.read offset destination bytes cuda).2.2 log

/-- The buffer starts with `log`, and that is what it counts. -/
def Holds (b : DeviceBuffer) (log : List UInt8) : Prop :=
  b.uploadedBytes.toNat = log.length ∧ load b.device 0 log.length = log

/-- **The buffer holds what was uploaded**, after any calls. -/
theorem Reaches.holds {b : DeviceBuffer} {log : List UInt8} (h : Reaches b log) : Holds b log := by
  induction h with
  | create h =>
    unfold DeviceBuffer.create at h
    split at h
    · cases h
    split at h
    · cases h
    split at h
    · cases h
    · cases h
      exact ⟨rfl, rfl⟩
  | upload _ hsource h ih =>
    obtain ⟨hcount, hload⟩ := ih
    obtain ⟨hdevice, huploaded⟩ := (upload_effect hsource h).accepted rfl
    refine ⟨by rw [huploaded, hcount, List.length_append], ?_⟩
    rw [List.length_append, load_add, hdevice, hcount,
      load_store_of_apart (Or.inl (Nat.le_of_eq (Nat.zero_add _))), hload, Nat.zero_add,
      load_store rfl]
  | failedUpload _ hsource h ih =>
    obtain ⟨hcount, hload⟩ := ih
    have heffect := upload_effect hsource h
    refine ⟨by rw [heffect.failed nofun, hcount], ?_⟩
    conv_rhs => rw [← hload]
    apply load_eq_iff.mpr
    intro k hk
    exact heffect.outside _ (Or.inl (by omega))
  | @read b log offset bytes destination cuda _ ih =>
    obtain ⟨staging, hstaging⟩ := read_keeps b offset bytes cuda destination
    rw [hstaging]
    exact ih

/-! ## Whole tensors -/

/-- A tensor that fits has a length in range. -/
theorem toNat_length {bytes : List UInt8} {capacity : UInt64} {offset : Nat}
    (h : offset + bytes.length ≤ capacity.toNat) :
    bytes.length = (UInt64.ofNat bytes.length).toNat := by
  have hcapacity := capacity.toNat_lt
  rw [UInt64.toNat_ofNat']
  omega

/-- The sum did not overflow. -/
theorem checkedAdd_ok {a b c : UInt64} {error : String} (h : checkedAdd a b error = .ok c) :
    c.toNat = a.toNat + b.toNat := by
  unfold checkedAdd at h
  split at h
  · cases h
    rw [UInt64.toNat_add]
    omega
  · cases h

/-- The wrapper's upload stores its source, or does not succeed. -/
theorem wrapped_upload {buffer buffer' : DeviceWeightBuffer} {offset : UInt64}
    {source : List UInt8} {cuda : CallCuda} (hsource : source.length < 2 ^ 64)
    (h : buffer.upload offset source cuda = (.ok (), buffer')) :
    (∀ log, Reaches buffer.handle log → Reaches buffer'.handle (log ++ source)) ∧
    buffer'.finished = buffer.finished ∧
    buffer'.handle.capacityBytes = buffer.handle.capacityBytes ∧
    buffer'.handle.uploadedBytes.toNat = buffer.handle.uploadedBytes.toNat + source.length := by
  have hlength : ((some source).getD []).length = (UInt64.ofNat source.length).toNat := by
    rw [Option.getD_some, UInt64.toNat_ofNat']
    omega
  unfold DeviceWeightBuffer.upload at h
  split at h
  · cases h
  · cases hcall : buffer.handle.upload offset (some source) (UInt64.ofNat source.length) cuda with
    | mk answer handle =>
      have heffect := upload_effect hlength hcall
      rw [hcall] at h
      cases answer with
      | error failure => cases h
      | ok u =>
        cases h
        refine ⟨fun log hlog => ?_, rfl, heffect.capacity_eq, (heffect.accepted rfl).2⟩
        exact hlog.upload hlength hcall

/-- The wrapper's upload of what fits succeeds when CUDA does not fail. -/
theorem wrapped_succeeds {buffer : DeviceWeightBuffer} {offset : UInt64} {source : List UInt8}
    {cuda : CallCuda} (hopen : buffer.finished = false) (hcuda : cuda.Succeeds)
    (hoffset : offset = buffer.handle.uploadedBytes)
    (hroom : buffer.handle.uploadedBytes.toNat + source.length
      ≤ buffer.handle.capacityBytes.toNat) :
    (buffer.upload offset source cuda).1 = .ok () := by
  have hlength := toNat_length hroom
  have hok := upload_succeeds hlength hcuda hoffset (by omega)
  rw [DeviceWeightBuffer.upload, hopen]
  show ensureSuccess (buffer.handle.upload offset (some source) (UInt64.ofNat source.length)
    cuda).1 = .ok ()
  rw [hok]
  rfl

/-- Consecutive chunks upload their join. -/
theorem uploadChunks_spec {cuda : UInt64 → CallCuda} {arenaOffset : UInt64}
    {chunks : List TensorChunk} {buffer buffer' : DeviceWeightBuffer}
    (hsmall : (chunks.flatMap (·.bytes)).length < 2 ^ 63)
    (h : uploadChunks cuda arenaOffset chunks buffer = (.ok (), buffer')) :
    (∀ log, Reaches buffer.handle log →
      Reaches buffer'.handle (log ++ chunks.flatMap (·.bytes))) ∧
    buffer'.finished = buffer.finished ∧
    buffer'.handle.capacityBytes = buffer.handle.capacityBytes ∧
    buffer'.handle.uploadedBytes.toNat
      = buffer.handle.uploadedBytes.toNat + (chunks.flatMap (·.bytes)).length := by
  induction chunks generalizing buffer with
  | nil =>
    cases h
    refine ⟨fun log hlog => ?_, rfl, rfl, rfl⟩
    rw [List.flatMap_nil, List.append_nil]
    exact hlog
  | cons chunk chunks ih =>
    rw [List.flatMap_cons, List.length_append] at hsmall
    unfold uploadChunks at h
    split at h
    · cases h
    split at h
    · cases h
    rename_i next hnext
    obtain ⟨hlog, hfinished, hcapacity, huploaded⟩ := wrapped_upload (by omega) hnext
    obtain ⟨hlog', hfinished', hcapacity', huploaded'⟩ := ih (by omega) h
    rw [List.flatMap_cons, List.length_append]
    refine ⟨fun log hreaches => ?_, by rw [hfinished', hfinished], by rw [hcapacity', hcapacity],
      by omega⟩
    rw [← List.append_assoc]
    exact hlog' _ (hlog _ hreaches)

/-- The chunks of a tensor that fits are uploaded when the calls succeed. -/
theorem uploadChunks_succeeds {cuda : UInt64 → CallCuda} {arenaOffset : UInt64} {start : Nat}
    {chunks : List TensorChunk} {buffer : DeviceWeightBuffer}
    (hconsecutive : Consecutive start chunks)
    (hsmall : start + (chunks.flatMap (·.bytes)).length < 2 ^ 63)
    (hstart : buffer.handle.uploadedBytes.toNat = arenaOffset.toNat + start)
    (hopen : buffer.finished = false) (hcuda : ∀ offset, (cuda offset).Succeeds)
    (hroom : buffer.handle.uploadedBytes.toNat + (chunks.flatMap (·.bytes)).length
      ≤ buffer.handle.capacityBytes.toNat) :
    (uploadChunks cuda arenaOffset chunks buffer).1 = .ok () := by
  induction chunks generalizing start buffer with
  | nil => rfl
  | cons chunk chunks ih =>
    obtain ⟨hoffset, -, hrest⟩ := hconsecutive
    rw [List.flatMap_cons, List.length_append] at hsmall hroom
    have hcapacity := buffer.handle.capacityBytes.toNat_lt
    have hchunk : (UInt64.ofNat chunk.offsetBytes).toNat = start := by
      rw [UInt64.toNat_ofNat', hoffset]
      omega
    have hadd : checkedAdd arenaOffset (UInt64.ofNat chunk.offsetBytes)
        "device upload offset overflowed" = .ok buffer.handle.uploadedBytes := by
      rw [checkedAdd, if_pos (by omega)]
      apply congrArg Except.ok
      apply UInt64.toNat_inj.mp
      rw [UInt64.toNat_add]
      omega
    have hok := @wrapped_succeeds buffer _ chunk.bytes _ hopen (hcuda buffer.handle.uploadedBytes)
      rfl (by omega)
    rw [uploadChunks, hadd]
    dsimp only
    split
    · rename_i message next hnext
      rw [hnext] at hok
      cases hok
    · rename_i next hnext
      obtain ⟨-, hfinished, hsame, huploaded⟩ := wrapped_upload (by omega) hnext
      apply ih hrest (by omega) (by omega) (by rw [hfinished]; exact hopen)
      rw [hsame]
      omega

/-- A tensor that was uploaded follows the ones before it. -/
theorem uploadTensor_spec {cuda : UInt64 → CallCuda} {offset : UInt64} {stagingBytes : Nat}
    {tensor : TensorRef} {buffer buffer' : DeviceWeightBuffer}
    (h : uploadTensor cuda buffer offset tensor stagingBytes = (.ok (), buffer')) :
    (∀ log, Reaches buffer.handle log → Reaches buffer'.handle (log ++ tensor.bytes)) ∧
    buffer'.finished = buffer.finished ∧
    buffer'.handle.capacityBytes = buffer.handle.capacityBytes ∧
    buffer'.handle.uploadedBytes.toNat
      = buffer.handle.uploadedBytes.toNat + tensor.bytes.length := by
  unfold uploadTensor at h
  split at h
  · cases h
  · rename_i chunks hchunks
    obtain ⟨alignment, -, hcut⟩ := cut_chunks hchunks
    have hspec := uploadChunks_spec (by rw [hcut.joined]; exact tensor.bytes_lt) h
    rw [hcut.joined] at hspec
    exact hspec

/-- The bytes of consecutive tensors. -/
def tensorBytes (tensors : List TensorRef) : List UInt8 := tensors.flatMap (·.bytes)

/-- **A sequence of tensors is one upload of their join.** -/
theorem uploadTensors_spec {cuda : UInt64 → CallCuda} {stagingBytes : Nat}
    {tensors : List TensorRef} {offset stop : UInt64} {buffer buffer' : DeviceWeightBuffer}
    (h : uploadTensors cuda stagingBytes tensors offset buffer = (.ok stop, buffer')) :
    (∀ log, Reaches buffer.handle log →
      Reaches buffer'.handle (log ++ tensorBytes tensors)) ∧
    buffer'.finished = buffer.finished ∧
    buffer'.handle.capacityBytes = buffer.handle.capacityBytes ∧
    buffer'.handle.uploadedBytes.toNat
      = buffer.handle.uploadedBytes.toNat + (tensorBytes tensors).length := by
  induction tensors generalizing offset buffer with
  | nil =>
    cases h
    refine ⟨fun log hlog => ?_, rfl, rfl, rfl⟩
    rw [tensorBytes, List.flatMap_nil, List.append_nil]
    exact hlog
  | cons tensor tensors ih =>
    unfold uploadTensors at h
    split at h
    · cases h
    rename_i next hnext
    split at h
    · cases h
    obtain ⟨hlog, hfinished, hcapacity, huploaded⟩ := uploadTensor_spec hnext
    obtain ⟨hlog', hfinished', hcapacity', huploaded'⟩ := ih h
    have hjoin : tensorBytes (tensor :: tensors) = tensor.bytes ++ tensorBytes tensors :=
      List.flatMap_cons
    rw [hjoin, List.length_append]
    refine ⟨fun log hreaches => ?_, by rw [hfinished', hfinished], by rw [hcapacity', hcapacity],
      by omega⟩
    rw [← List.append_assoc]
    exact hlog' _ (hlog _ hreaches)

/-- Tensors that fit are uploaded when CUDA does not fail. -/
theorem uploadTensors_succeeds {cuda : UInt64 → CallCuda} {stagingBytes : Nat}
    {tensors : List TensorRef} {offset : UInt64} {buffer : DeviceWeightBuffer}
    (hopen : buffer.finished = false) (hcuda : ∀ offset, (cuda offset).Succeeds)
    (hchunks : ∀ tensor ∈ tensors, ∃ chunks, tensor.chunks stagingBytes = .ok chunks)
    (hoffset : offset = buffer.handle.uploadedBytes)
    (hroom : buffer.handle.uploadedBytes.toNat + (tensorBytes tensors).length
      ≤ buffer.handle.capacityBytes.toNat) :
    ∃ stop, (uploadTensors cuda stagingBytes tensors offset buffer).1 = .ok stop := by
  induction tensors generalizing offset buffer with
  | nil => exact ⟨offset, rfl⟩
  | cons tensor tensors ih =>
    have hjoin : tensorBytes (tensor :: tensors) = tensor.bytes ++ tensorBytes tensors :=
      List.flatMap_cons
    have hcapacity := buffer.handle.capacityBytes.toNat_lt
    rw [hjoin, List.length_append] at hroom
    -- this tensor fits, so all of its chunks are uploaded
    have hone : (uploadTensor cuda buffer offset tensor stagingBytes).1 = .ok () := by
      obtain ⟨chunks, hcut⟩ := hchunks tensor List.mem_cons_self
      obtain ⟨alignment, -, hspec⟩ := cut_chunks hcut
      rw [uploadTensor, hcut]
      apply uploadChunks_succeeds hspec.consecutive
      · rw [hspec.joined, Nat.zero_add]
        exact tensor.bytes_lt
      · rw [hoffset, Nat.add_zero]
      · exact hopen
      · exact hcuda
      · rw [hspec.joined]
        omega
    have hlength : (UInt64.ofNat tensor.bytes.length).toNat = tensor.bytes.length := by
      rw [UInt64.toNat_ofNat']
      omega
    unfold uploadTensors
    split
    · rename_i message next hnext
      rw [hnext] at hone
      cases hone
    · rename_i next hnext
      obtain ⟨-, hfinished, hsame, huploaded⟩ := uploadTensor_spec hnext
      -- and the next one starts at the offset the buffer expects
      have hadd : checkedAdd offset (UInt64.ofNat tensor.bytes.length)
          "device arena offset overflowed" = .ok next.handle.uploadedBytes := by
        rw [hoffset, checkedAdd, if_pos (by omega)]
        apply congrArg Except.ok
        apply UInt64.toNat_inj.mp
        rw [UInt64.toNat_add]
        omega
      rw [hadd]
      apply ih (by rw [hfinished]; exact hopen)
      · intro other hother
        exact hchunks other (List.mem_cons_of_mem _ hother)
      · rfl
      · rw [hsame]
        omega

/-! ## Every byte once -/

/-- Each tensor lies behind those in front of it. -/
theorem placed_of_holds {b : DeviceBuffer} {log : List UInt8} {front back : List TensorRef}
    {tensor : TensorRef} (h : Holds b (log ++ tensorBytes (front ++ tensor :: back))) :
    load b.device (log.length + (tensorBytes front).length) tensor.bytes.length
      = tensor.bytes := by
  have hjoin : log ++ tensorBytes (front ++ tensor :: back)
      = (log ++ tensorBytes front) ++ (tensor.bytes ++ tensorBytes back) := by
    simp only [tensorBytes, List.flatMap_append, List.flatMap_cons, List.append_assoc]
  have hload := h.2
  rw [hjoin] at hload
  have hpart : ((load b.device 0 ((log ++ tensorBytes front) ++ (tensor.bytes
      ++ tensorBytes back)).length).drop (log ++ tensorBytes front).length).take
        tensor.bytes.length = load b.device (0 + (log ++ tensorBytes front).length)
          tensor.bytes.length := by
    apply take_drop_load
    simp only [List.length_append]
    omega
  rw [hload, List.drop_left, List.take_left, Nat.zero_add, List.length_append] at hpart
  exact hpart.symm

/-- The same upload, failing some number of times. -/
def Retried (offset : UInt64) (source : List UInt8) (bytes : UInt64) :
    DeviceBuffer → DeviceBuffer → Prop :=
  Relation.ReflTransGen fun b b' => ∃ failure cuda,
    b.upload offset (some source) bytes cuda = (.error failure, b')

/-- Calls that fail change nothing but the bytes of their own range. -/
theorem retried_effect {b b' : DeviceBuffer} {offset bytes : UInt64} {source : List UInt8}
    (hsource : source.length = bytes.toNat) (h : Retried offset source bytes b b') :
    b'.capacityBytes = b.capacityBytes ∧ b'.uploadedBytes = b.uploadedBytes ∧
    ∀ address, address < b.uploadedBytes.toNat ∨
      b.uploadedBytes.toNat + source.length ≤ address → b'.device address = b.device address := by
  induction h with
  | refl => exact ⟨rfl, rfl, fun _ _ => rfl⟩
  | tail _ hstep ih =>
    obtain ⟨failure, cuda, hcall⟩ := hstep
    obtain ⟨hcapacity, huploaded, houtside⟩ := ih
    have heffect := @upload_effect _ _ offset bytes (some source) _ _ hsource hcall
    refine ⟨by rw [heffect.capacity_eq, hcapacity], by rw [heffect.failed nofun, huploaded], ?_⟩
    intro address haddress
    rw [heffect.outside address (by rw [huploaded]; exact haddress), houtside address haddress]

/-- **Weight upload places every byte once.** The chunks of a tensor are aligned, follow each other
and join to its bytes. From any buffer that calls can lead to, consecutive tensors that fit end up
at their offsets, byte for byte; the upload can be finished when the whole capacity was uploaded; a
read of an uploaded range returns those bytes and any other read, like an upload anywhere but behind
the uploaded bytes, is rejected; and a call that does not succeed counts nothing, so that retrying
it leads to the memory that it would have led to at once. -/
theorem weights_placed_once :
    (∀ (tensor : TensorRef) (maxBytes : Nat) (chunks : TensorChunks),
      tensor.chunks maxBytes = .ok chunks → ∃ alignment, tensor.alignment = .ok alignment ∧
        Cut tensor.bytes alignment maxBytes chunks.toList) ∧
    ∀ (b : DeviceBuffer) (log : List UInt8), Reaches b log →
      Holds b log ∧
      (∀ (cuda : UInt64 → CallCuda) (stagingBytes : Nat) (tensors : List TensorRef),
        (∀ offset, (cuda offset).Succeeds) →
        (∀ tensor ∈ tensors, ∃ chunks, tensor.chunks stagingBytes = .ok chunks) →
        log.length + (tensorBytes tensors).length ≤ b.capacityBytes.toNat →
        ∃ stop b', uploadTensors cuda stagingBytes tensors b.uploadedBytes ⟨b, false⟩
            = (.ok stop, ⟨b', false⟩) ∧
          Reaches b' (log ++ tensorBytes tensors) ∧
          ∀ front tensor back, tensors = front ++ tensor :: back →
            load b'.device (log.length + (tensorBytes front).length) tensor.bytes.length
              = tensor.bytes) ∧
      (∀ sync, (∃ metrics, b.finish sync = .ok metrics) ↔
        b.uploadedBytes = b.capacityBytes ∧ sync = none) ∧
      (∀ offset bytes destination cuda,
        (offset.toNat + bytes.toNat ≤ log.length →
          (cuda.Succeeds → (b.read offset (some destination) bytes cuda).1 = .ok ()) ∧
          ((b.read offset (some destination) bytes cuda).1 = .ok () →
            (b.read offset (some destination) bytes cuda).2.1
              = some (store destination 0 ((log.drop offset.toNat).take bytes.toNat)))) ∧
        (¬ offset.toNat + bytes.toNat ≤ log.length →
          (b.read offset (some destination) bytes cuda).1 ≠ .ok () ∧
          (b.read offset (some destination) bytes cuda).2 = (some destination, b))) ∧
      ∀ (offset bytes : UInt64) (source : List UInt8), source.length = bytes.toNat →
        (∀ cuda, UploadEffect b (b.upload offset (some source) bytes cuda).2 offset source
          (b.upload offset (some source) bytes cuda).1) ∧
        (∀ cuda, cuda.Succeeds → ((b.upload offset (some source) bytes cuda).1 = .ok () ↔
          offset = b.uploadedBytes ∧ log.length + source.length ≤ b.capacityBytes.toNat)) ∧
        ∀ failing cuda cuda' b₁ b₂, Retried offset source bytes b failing →
          failing.upload offset (some source) bytes cuda = (.ok (), b₁) →
          b.upload offset (some source) bytes cuda' = (.ok (), b₂) →
          b₁.device = b₂.device ∧ b₁.uploadedBytes = b₂.uploadedBytes := by
  refine ⟨fun tensor maxBytes chunks h => cut_chunks h, fun b log hreaches => ?_⟩
  obtain ⟨hcount, hload⟩ := hreaches.holds
  refine ⟨⟨hcount, hload⟩, ?_, fun sync => finish_iff, ?_, ?_⟩
  · -- whole tensors, one after the other
    intro cuda stagingBytes tensors hcuda hchunks hroom
    obtain ⟨stop, hok⟩ := @uploadTensors_succeeds cuda stagingBytes tensors b.uploadedBytes
      ⟨b, false⟩ rfl hcuda hchunks rfl (by dsimp only; omega)
    cases hrun : uploadTensors cuda stagingBytes tensors b.uploadedBytes ⟨b, false⟩ with
    | mk answer buffer =>
      rw [hrun] at hok
      cases hok
      obtain ⟨hlog, hfinished, -, -⟩ := uploadTensors_spec hrun
      obtain ⟨handle, finished⟩ := buffer
      cases hfinished
      have hend : Reaches handle (log ++ tensorBytes tensors) := hlog log hreaches
      refine ⟨stop, handle, rfl, hend, ?_⟩
      rintro front tensor back rfl
      exact placed_of_holds hend.holds
  · -- reads, within what was uploaded and beyond
    intro offset bytes destination cuda
    constructor
    · intro hinside
      have hrange : b.Uploaded offset bytes := by
        unfold DeviceBuffer.Uploaded
        omega
      have hpart : (log.drop offset.toNat).take bytes.toNat
          = load b.device offset.toNat bytes.toNat := by
        conv_lhs => rw [← hload]
        rw [take_drop_load hinside, Nat.zero_add]
      rw [hpart]
      exact read_accepted hrange
    · intro houtside
      apply read_rejected
      unfold DeviceBuffer.Uploaded
      omega
  · -- one call of `upload`, and a retry behind failing ones
    intro offset bytes source hsource
    have heffect : ∀ cuda, UploadEffect b (b.upload offset (some source) bytes cuda).2 offset source
        (b.upload offset (some source) bytes cuda).1 := by
      intro cuda
      exact @upload_effect _ _ offset bytes (some source) _ _ hsource rfl
    refine ⟨heffect, fun cuda hcuda => ?_, ?_⟩
    · constructor
      · intro hok
        by_contra hnot
        refine ((heffect cuda).rejected ?_).1 hok
        by_cases hoffset : offset = b.uploadedBytes
        · right
          have hlong : ¬ log.length + source.length ≤ b.capacityBytes.toNat :=
            fun hle => hnot ⟨hoffset, hle⟩
          omega
        · exact Or.inl hoffset
      · rintro ⟨hoffset, hroom⟩
        exact upload_succeeds hsource hcuda hoffset (by omega)
    · intro failing cuda cuda' b₁ b₂ hretried h₁ h₂
      obtain ⟨-, huploaded, houtside⟩ := retried_effect hsource hretried
      obtain ⟨hdevice₁, hcount₁⟩ :=
        (@upload_effect _ _ offset bytes (some source) _ _ hsource h₁).accepted rfl
      obtain ⟨hdevice₂, hcount₂⟩ :=
        (@upload_effect _ _ offset bytes (some source) _ _ hsource h₂).accepted rfl
      constructor
      · rw [hdevice₁, hdevice₂, huploaded]
        exact store_hides houtside
      · apply UInt64.toNat_inj.mp
        rw [hcount₁, hcount₂, huploaded]

/-- An arena of six bytes behind a staging buffer of three. -/
def smallBuffer : DeviceBuffer where
  device _ := 9
  staging _ := 9
  capacityBytes := 6
  stagingBytes := 3
  uploadedBytes := 0
  uploadCalls := 0
  stagingBytes_pos := by decide
  uploadedBytes_le := by decide

/-- Two tensors of six bytes in all. -/
def smallTensors : List TensorRef :=
  [⟨.bf16, [1, 2, 3, 4], by decide⟩, ⟨.bf16, [5, 6], by decide⟩]

/-- The second copy of a call fails. -/
def secondCopyFails : CallCuda where
  setDevice := none
  chunk turn :=
    if turn = 1 then .copyFails ⟨719, "unspecified launch failure"⟩ fun _ => 7 else .done

/-- The second of its two copies fails. -/
theorem upload_secondCopyFails : ∃ failure,
    (smallBuffer.upload 0 (some [1, 2, 3, 4]) 4 secondCopyFails).1 = .error failure := by
  unfold DeviceBuffer.upload
  rw [if_neg (by decide), dif_neg (by decide), dif_neg (by decide)]
  dsimp only [secondCopyFails]
  rw [DeviceBuffer.uploadLoop, dif_pos (by decide)]
  dsimp only
  rw [if_neg (by decide)]
  dsimp only
  rw [DeviceBuffer.uploadLoop, dif_pos (by decide)]
  exact ⟨_, rfl⟩

/-- Two tensors in chunks of four bytes, through a staging buffer of three; and the first of them
again behind a copy that failed in its second turn. -/
theorem weights_placed_once_small :
    (∃ stop b', uploadTensors (fun _ => .success) 5 smallTensors 0 ⟨smallBuffer, false⟩
        = (.ok stop, ⟨b', false⟩) ∧ load b'.device 4 2 = [5, 6] ∧
      (∃ metrics, b'.finish none = .ok metrics) ∧
      (b'.read 3 (some fun _ => 0) 2 .success).2.1 = some (store (fun _ => 0) 0 [4, 5]) ∧
      (b'.read 5 (some fun _ => 0) 2 .success).1 ≠ .ok ()) ∧
    ∃ failure failing b₁ b₂,
      smallBuffer.upload 0 (some [1, 2, 3, 4]) 4 secondCopyFails = (.error failure, failing) ∧
      failing.upload 0 (some [1, 2, 3, 4]) 4 .success = (.ok (), b₁) ∧
      smallBuffer.upload 0 (some [1, 2, 3, 4]) 4 .success = (.ok (), b₂) ∧
      b₁.device = b₂.device := by
  have hcuda : CallCuda.success.Succeeds := ⟨rfl, fun _ => rfl⟩
  have hreaches : Reaches smallBuffer [] :=
    @Reaches.create 6 3 none (fun _ => 9) (fun _ => 9) smallBuffer rfl
  obtain ⟨-, hupload, -, -, hretry⟩ := weights_placed_once.2 smallBuffer [] hreaches
  constructor
  · have hchunks : ∀ tensor ∈ smallTensors, ∃ chunks, tensor.chunks 5 = .ok chunks := by
      intro tensor htensor
      rcases List.mem_pair.mp htensor with rfl | rfl
      · exact ⟨_, rfl⟩
      · exact ⟨_, rfl⟩
    -- the run of the two tensors
    obtain ⟨stop, b', hrun, hlog, hplaced⟩ :=
      hupload (fun _ => .success) 5 smallTensors (fun _ => hcuda) hchunks (by decide)
    obtain ⟨hholds, -, hfinish, hread, -⟩ := weights_placed_once.2 b' _ hlog
    have hcapacity : b'.capacityBytes = 6 := (uploadTensors_spec hrun).2.2.1
    have huploaded : b'.uploadedBytes = 6 := UInt64.toNat_inj.mp hholds.1
    refine ⟨stop, b', hrun, hplaced [⟨.bf16, [1, 2, 3, 4], by decide⟩] _ [] rfl, ?_, ?_, ?_⟩
    · exact (hfinish none).mpr ⟨huploaded.trans hcapacity.symm, rfl⟩
    · obtain ⟨hok, hbytes⟩ := (hread 3 2 (fun _ => 0) .success).1 (by decide)
      exact hbytes (hok hcuda)
    · exact ((hread 5 2 (fun _ => 0) .success).2 (by decide)).1
  · -- the failing call, and the retry behind it
    obtain ⟨failure, hfails⟩ := upload_secondCopyFails
    obtain ⟨heffect, hiff, hsame⟩ := hretry 0 4 [1, 2, 3, 4] rfl
    have hcall : smallBuffer.upload 0 (some [1, 2, 3, 4]) 4 secondCopyFails
        = (.error failure, (smallBuffer.upload 0 (some [1, 2, 3, 4]) 4 secondCopyFails).2) :=
      Prod.ext hfails rfl
    have hfailed := (heffect secondCopyFails).failed (by rw [hfails]; exact nofun)
    have hkept := (heffect secondCopyFails).capacity_eq
    obtain ⟨-, -, -, -, hagain⟩ := weights_placed_once.2 _ _ (hreaches.failedUpload rfl hcall)
    have hok₁ := ((hagain 0 4 [1, 2, 3, 4] rfl).2.1 .success hcuda).mpr
      ⟨hfailed.symm, by rw [hkept]; decide⟩
    have hok₂ := (hiff .success hcuda).mpr ⟨rfl, by decide⟩
    refine ⟨failure, _, _, _, hcall, Prod.ext hok₁ rfl, Prod.ext hok₂ rfl, ?_⟩
    exact (hsame _ .success .success _ _ (.single ⟨failure, _, hcall⟩) (Prod.ext hok₁ rfl)
      (Prod.ext hok₂ rfl)).1

/-! ## `main` -/

/-- `finish` sets its flag when the whole capacity was uploaded. -/
theorem wrapped_finish {buffer buffer' : DeviceWeightBuffer} {sync : Option CudaFailure}
    {metrics : UploadMetrics} (h : buffer.finish sync = (.ok metrics, buffer')) :
    buffer.handle.uploadedBytes = buffer.handle.capacityBytes ∧
      buffer' = { buffer with finished := true } := by
  unfold DeviceWeightBuffer.finish at h
  cases hfinish : buffer.handle.finish sync with
  | error failure =>
    rw [hfinish] at h
    cases h
  | ok metrics =>
    rw [hfinish] at h
    cases h
    exact ⟨(finish_iff.mp ⟨metrics, hfinish⟩).1, rfl⟩

/-- The wrapper notes that it has finished. -/
theorem wrapped_finish_succeeds {buffer : DeviceWeightBuffer}
    (h : buffer.handle.uploadedBytes = buffer.handle.capacityBytes) :
    ∃ metrics, buffer.finish none = (.ok metrics, { buffer with finished := true }) := by
  obtain ⟨metrics, hfinish⟩ := finish_iff.mpr ⟨h, rfl⟩
  refine ⟨metrics, ?_⟩
  rw [DeviceWeightBuffer.finish, hfinish]
  rfl

/-- The bytes that a probe expects are those at its place. -/
def Probe.At (probe : Probe) (bytes : List UInt8) : Prop :=
  probe.1.toNat + probe.2.length ≤ bytes.length ∧
    (bytes.drop probe.1.toNat).take probe.2.length = probe.2

/-- A probe is read without touching the device, and comes back when CUDA does not fail. -/
theorem readProbe_spec {buffer : DeviceWeightBuffer} {log : List UInt8}
    (hreaches : Reaches buffer.handle log) (probe : Probe) (cuda : CallCuda) :
    Reaches (readProbe buffer probe cuda).2.handle log ∧
    (readProbe buffer probe cuda).2.finished = buffer.finished ∧
    (readProbe buffer probe cuda).2.handle.device = buffer.handle.device ∧
    (probe.At log → cuda.Succeeds → (readProbe buffer probe cuda).1 = .ok probe.2) := by
  obtain ⟨staging, hstaging⟩ := read_keeps buffer.handle probe.1 (UInt64.ofNat probe.2.length) cuda
    (some fun _ => 0)
  refine ⟨hreaches.read _ _ _ _, rfl, ?_, ?_⟩
  · show (buffer.handle.read _ _ _ _).2.2.device = _
    rw [hstaging]
  · rintro ⟨hinside, hpart⟩ hcuda
    obtain ⟨hcount, hload⟩ := hreaches.holds
    have hlog := buffer.handle.uploadedBytes.toNat_lt
    have hbytes : (UInt64.ofNat probe.2.length).toNat = probe.2.length := by
      rw [UInt64.toNat_ofNat']
      omega
    have hrange : buffer.handle.Uploaded probe.1 (UInt64.ofNat probe.2.length) := by
      unfold DeviceBuffer.Uploaded
      omega
    obtain ⟨hok, houtput⟩ := @read_accepted buffer.handle probe.1 _ cuda (fun _ => 0) hrange
    have hanswer := hok hcuda
    have houtput := houtput hanswer
    have hread : load (store (fun _ => 0) 0 (load buffer.handle.device probe.1.toNat
        (UInt64.ofNat probe.2.length).toNat)) 0 probe.2.length = probe.2 := by
      rw [hbytes, load_store length_load]
      rw [← hload, take_drop_load hinside, Nat.zero_add] at hpart
      exact hpart
    rw [readProbe, DeviceWeightBuffer.readback]
    cases hcall : buffer.handle.read probe.1 (some fun _ => 0) (UInt64.ofNat probe.2.length) cuda
      with
    | mk answer rest =>
      obtain ⟨output, handle⟩ := rest
      rw [hcall] at hanswer houtput
      cases hanswer
      cases houtput
      exact congrArg Except.ok hread

/-- `first_probe` is at its place behind the bytes in front of the tensors. -/
theorem firstProbe_at {offset : UInt64} {tensors : List TensorRef} {log : List UInt8}
    {probe : Probe} (hoffset : offset.toNat = log.length)
    (h : firstProbe offset tensors = some probe) : probe.At (log ++ tensorBytes tensors) := by
  cases tensors with
  | nil => cases h
  | cons tensor tensors =>
    cases h
    have hjoin : tensorBytes (tensor :: tensors) = tensor.bytes ++ tensorBytes tensors :=
      List.flatMap_cons
    have hlength : (tensor.bytes.take (min tensor.bytes.length readbackBytes)).length
        = min tensor.bytes.length readbackBytes := by
      rw [List.length_take]
      omega
    refine ⟨?_, ?_⟩
    · dsimp only
      rw [hlength, hoffset, hjoin, List.length_append, List.length_append]
      omega
    · dsimp only
      rw [hlength, hoffset, List.drop_left, hjoin,
        List.take_append_of_le_length (Nat.min_le_left _ _)]

/-- `final_probe` is at its place too. -/
theorem finalProbe_at {offset : UInt64} {tensors : List TensorRef} {log : List UInt8}
    {probe : Probe} (hoffset : offset.toNat = log.length)
    (hfits : log.length + (tensorBytes tensors).length < 2 ^ 64)
    (h : finalProbe offset tensors = some probe) : probe.At (log ++ tensorBytes tensors) := by
  -- by induction on the tensors; only the last one is sampled
  induction tensors generalizing offset log with
  | nil => cases h
  | cons tensor tensors ih =>
    have hjoin : tensorBytes (tensor :: tensors) = tensor.bytes ++ tensorBytes tensors :=
      List.flatMap_cons
    rw [hjoin, List.length_append] at hfits
    have hsmall := tensor.bytes_lt
    have hlength : (UInt64.ofNat tensor.bytes.length).toNat = tensor.bytes.length := by
      rw [UInt64.toNat_ofNat']
      omega
    have hnext : (offset + UInt64.ofNat tensor.bytes.length).toNat
        = log.length + tensor.bytes.length := by
      rw [UInt64.toNat_add]
      omega
    cases tensors with
    | nil =>
      cases h
      have hsample : (UInt64.ofNat (min tensor.bytes.length readbackBytes)).toNat
          = min tensor.bytes.length readbackBytes := by
        rw [UInt64.toNat_ofNat']
        omega
      -- its sample ends where the tensor does
      have hstart : (offset + UInt64.ofNat tensor.bytes.length
          - UInt64.ofNat (min tensor.bytes.length readbackBytes)).toNat
            = log.length + (tensor.bytes.length - min tensor.bytes.length readbackBytes) := by
        rw [UInt64.toNat_sub_of_le _ _ (by rw [UInt64.le_iff_toNat_le]; omega), hnext, hsample]
        omega
      have hone : tensorBytes [tensor] = tensor.bytes := List.flatMap_singleton _ _
      refine ⟨?_, ?_⟩
      · dsimp only
        rw [hstart, hone, List.length_drop, List.length_append]
        omega
      · dsimp only
        rw [hstart, hone, ← List.drop_drop, List.drop_left]
        exact List.take_of_length_le (Nat.le_refl _)
    | cons other tensors =>
      rw [hjoin, ← List.append_assoc]
      apply ih
      · rw [hnext, List.length_append]
      · rw [List.length_append]
        omega
      · exact h

/-- There is a first and a last tensor. -/
theorem probes_some (offset : UInt64) {tensors : List TensorRef} (h : tensors ≠ []) :
    (∃ first, firstProbe offset tensors = some first) ∧
      ∃ final, finalProbe offset tensors = some final := by
  induction tensors generalizing offset with
  | nil => exact absurd rfl h
  | cons tensor tensors ih =>
    refine ⟨⟨_, rfl⟩, ?_⟩
    cases tensors with
    | nil => exact ⟨_, rfl⟩
    | cons other tensors => exact (ih _ (List.cons_ne_nil _ _)).2

/-- The loop returns the offset behind the last tensor. -/
theorem uploadTensors_stop {cuda : UInt64 → CallCuda} {stagingBytes : Nat}
    {tensors : List TensorRef} {offset stop : UInt64} {buffer buffer' : DeviceWeightBuffer}
    (h : uploadTensors cuda stagingBytes tensors offset buffer = (.ok stop, buffer')) :
    stop.toNat = offset.toNat + (tensorBytes tensors).length := by
  induction tensors generalizing offset buffer with
  | nil =>
    cases h
    rfl
  | cons tensor tensors ih =>
    have hjoin : tensorBytes (tensor :: tensors) = tensor.bytes ++ tensorBytes tensors :=
      List.flatMap_cons
    have hsmall := tensor.bytes_lt
    unfold uploadTensors at h
    split at h
    · cases h
    split at h
    · cases h
    rename_i next hnext
    have hadd := checkedAdd_ok hnext
    rw [UInt64.toNat_ofNat'] at hadd
    rw [ih h, hadd, hjoin, List.length_append]
    omega

/-- **What `main` reports is true.** Whatever CUDA answers, an upload that is reported has finished
the buffer, and the device holds the tensors. -/
theorem uploadArtifact_ok {cuda : MainCuda} {stagingBytes : Nat} {tensors : List TensorRef}
    {allocationBytes : UInt64} {buffer buffer' : DeviceWeightBuffer} {metrics : UploadMetrics}
    (hreaches : Reaches buffer.handle [])
    (h : uploadArtifact cuda stagingBytes tensors allocationBytes buffer = (.ok metrics, buffer')) :
    buffer'.finished = true ∧ Reaches buffer'.handle (tensorBytes tensors) := by
  unfold uploadArtifact at h
  split at h
  · cases h
  rename_i uploaded hupload
  have hlog := (uploadTensors_spec hupload).1 [] hreaches
  rw [List.nil_append] at hlog
  split at h
  · cases h
  split at h
  · cases h
  rename_i hfinish
  obtain ⟨-, rfl⟩ := wrapped_finish hfinish
  split at h
  · cases h
  split at h
  · cases h
  · cases h
  rename_i first final _ _
  split at h
  · cases h
  rename_i hfirst
  obtain ⟨hlog₁, hfinished₁, -, -⟩ :=
    @readProbe_spec { uploaded with finished := true } _ hlog first cuda.first
  rw [hfirst] at hlog₁ hfinished₁
  split at h
  · cases h
  rename_i hfinal
  obtain ⟨hlog₂, hfinished₂, -, -⟩ := readProbe_spec hlog₁ final cuda.final
  rw [hfinal] at hlog₂ hfinished₂
  split at h
  · cases h
  · cases h
    exact ⟨hfinished₂.trans hfinished₁, hlog₂⟩

/-- No CUDA call of `main` fails. -/
structure MainCuda.Succeeds (cuda : MainCuda) : Prop where
  upload : ∀ offset, (cuda.upload offset).Succeeds
  sync : cuda.sync = none
  first : cuda.first.Succeeds
  final : cuda.final.Succeeds

/-- **`main` succeeds** for tensors that fill the buffer: the loop ends at the capacity, the buffer
is finished, and both probes come back. -/
theorem uploadArtifact_succeeds {cuda : MainCuda} {stagingBytes : Nat} {tensors : List TensorRef}
    {b : DeviceBuffer} (hreaches : Reaches b []) (hcuda : cuda.Succeeds)
    (hchunks : ∀ tensor ∈ tensors, ∃ chunks, tensor.chunks stagingBytes = .ok chunks)
    (hsome : tensors ≠ []) (hcapacity : b.capacityBytes.toNat = (tensorBytes tensors).length) :
    ∃ metrics, (uploadArtifact cuda stagingBytes tensors b.capacityBytes ⟨b, false⟩).1
      = .ok metrics := by
  have hempty : b.uploadedBytes = 0 := UInt64.toNat_inj.mp hreaches.holds.1
  obtain ⟨stop, hok⟩ := @uploadTensors_succeeds cuda.upload stagingBytes tensors 0 ⟨b, false⟩ rfl
    hcuda.upload hchunks hempty.symm (by
      dsimp only
      rw [hempty, hcapacity]
      exact Nat.le_of_eq (Nat.zero_add _))
  cases hrun : uploadTensors cuda.upload stagingBytes tensors 0 ⟨b, false⟩ with
  | mk answer uploaded =>
    rw [hrun] at hok
    cases hok
    obtain ⟨hlog, -, hsame, hcount⟩ := uploadTensors_spec hrun
    have hlog := hlog [] hreaches
    rw [List.nil_append] at hlog
    -- the uploads end at the capacity
    have hstop : stop = b.capacityBytes := by
      apply UInt64.toNat_inj.mp
      rw [uploadTensors_stop hrun, hcapacity]
      exact Nat.zero_add _
    have hfull : uploaded.handle.uploadedBytes = uploaded.handle.capacityBytes := by
      apply UInt64.toNat_inj.mp
      rw [hcount, hempty, hsame, hcapacity]
      exact Nat.zero_add _
    obtain ⟨metrics, hfinish⟩ := wrapped_finish_succeeds hfull
    have hfits : (tensorBytes tensors).length < 2 ^ 64 := hcapacity ▸ b.capacityBytes.toNat_lt
    -- so that the buffer is full and both samples can be read back
    obtain ⟨⟨first, hfirst⟩, final, hfinal⟩ := probes_some 0 hsome
    have hfirstAt := @firstProbe_at 0 tensors [] first rfl hfirst
    have hfinalAt := @finalProbe_at 0 tensors [] final rfl
      (by rw [List.length_nil, Nat.zero_add]; exact hfits) hfinal
    rw [List.nil_append] at hfirstAt hfinalAt
    obtain ⟨hlog₁, -, -, hread₁⟩ :=
      @readProbe_spec { uploaded with finished := true } _ hlog first cuda.first
    obtain ⟨-, -, -, hread₂⟩ := readProbe_spec hlog₁ final cuda.final
    have hread₁ := hread₁ hfirstAt hcuda.first
    have hread₂ := hread₂ hfinalAt hcuda.final
    refine ⟨metrics, ?_⟩
    rw [uploadArtifact, hrun]
    dsimp only
    rw [if_neg (not_not_intro hstop), hcuda.sync, hfinish]
    dsimp only
    rw [if_neg (not_not_intro rfl), hfirst, hfinal]
    dsimp only
    cases hcall₁ : readProbe { uploaded with finished := true } first cuda.first with
    | mk answer₁ buffer₁ =>
      rw [hcall₁] at hread₁ hread₂
      cases hread₁
      cases hcall₂ : readProbe buffer₁ final cuda.final with
      | mk answer₂ buffer₂ =>
        rw [hcall₂] at hread₂
        cases hread₂
        dsimp only
        rw [hcall₂]
        dsimp only
        rw [if_neg (not_or.mpr ⟨not_not_intro rfl, not_not_intro rfl⟩)]

end Qwen3Tts.Artifact
