import Mathlib.Algebra.Ring.Nat
import Mathlib.Data.List.Basic
import Mathlib.Tactic.Common
import Qwen3Tts.Lib.Fallible
import Qwen3Tts.Lib.Memory

/-!
# Artifact — weight upload

The three loops that bring a tensor to the device: the element-aligned chunks of `loader.rs`, the
sequential upload calls of `upload_artifact.rs`, and the staging loop of `weights.cu`. Sizes are
`uint64_t` as in the source, so that the range checks subtract as they do there. What CUDA answers
is a parameter of each call; a copy that fails leaves anything in its destination.
-/

namespace Qwen3Tts.Artifact

open Qwen3Tts.Lib

/-! ## `loader.rs` -/

/-- `safetensors::Dtype`; the staging code tells two from the rest. -/
inductive Dtype where
  | bf16
  | f32
  | other (name : String)
  deriving DecidableEq, Repr

structure TensorRef where
  dtype : Dtype
  bytes : List UInt8
  /-- No slice has more than `isize::MAX` bytes. -/
  bytes_lt : bytes.length < 2 ^ 63

structure TensorChunk where
  offsetBytes : Nat
  bytes : List UInt8
  deriving DecidableEq, Repr

structure TensorChunks where
  data : List UInt8
  chunkBytes : Nat
  offset : Nat
  data_lt : data.length < 2 ^ 63
  chunkBytes_pos : 0 < chunkBytes
  offset_le : offset ≤ data.length

/-- The element sizes. -/
def TensorRef.alignment (tensor : TensorRef) : Except String Nat :=
  match tensor.dtype with
  | .bf16 => .ok 2
  | .f32 => .ok 4
  | .other name => .error s!"unsupported staging dtype {name}"

def TensorRef.chunks (tensor : TensorRef) (maxBytes : Nat) : Except String TensorChunks := do
  failIf (maxBytes = 0) "tensor staging chunk size must be greater than zero"
  let alignment ← tensor.alignment
  let chunkBytes := maxBytes - maxBytes % alignment
  if h : chunkBytes = 0 then
    .error (s!"tensor staging chunk size {maxBytes} is smaller than "
      ++ s!"{alignment}-byte element alignment")
  else
    .ok ⟨tensor.bytes, chunkBytes, 0, tensor.bytes_lt, Nat.pos_of_ne_zero h, Nat.zero_le _⟩

namespace TensorChunks

/-- `end`. The first minimum is `saturating_add`. -/
def stop (it : TensorChunks) : Nat :=
  min (min (it.offset + it.chunkBytes) (2 ^ 64 - 1)) it.data.length

/-- `Iterator::next`. -/
def next (it : TensorChunks) : Option (TensorChunk × TensorChunks) :=
  if it.offset = it.data.length then none
  else
    some (⟨it.offset, (it.data.drop it.offset).take (it.stop - it.offset)⟩,
      { it with offset := it.stop, offset_le := Nat.min_le_right _ _ })

theorem next_decreases {it rest : TensorChunks} {chunk : TensorChunk}
    (h : it.next = some (chunk, rest)) :
    rest.data.length - rest.offset < it.data.length - it.offset := by
  have hlength := it.data_lt
  have hpos := it.chunkBytes_pos
  have hle := it.offset_le
  unfold next at h
  split at h
  · cases h
  · cases h
    show it.data.length - it.stop < _
    unfold stop
    omega

/-- What a `for` loop sees. -/
def toList (it : TensorChunks) : List TensorChunk :=
  match _h : it.next with
  | none => []
  | some (chunk, rest) => chunk :: rest.toList
  termination_by it.data.length - it.offset
  decreasing_by exact next_decreases _h

end TensorChunks

/-! ## `weights.cu` -/

structure CallFailure where
  code : Int
  message : String
  deriving DecidableEq, Repr

/-- A CUDA call that does not return `cudaSuccess`, with its `cudaGetErrorString`. -/
structure CudaFailure where
  status : Int
  text : String
  deriving DecidableEq, Repr

/-- `cuda_failure`. -/
def cudaFailure (failure : CudaFailure) (operation : String) : CallFailure :=
  ⟨failure.status, s!"{operation} failed: {failure.text}"⟩

/-- One turn of a staging loop. After a failure the destination of the copy holds `left`. -/
inductive ChunkOutcome where
  | done
  | copyFails (failure : CudaFailure) (left : Nat → UInt8)
  | syncFails (failure : CudaFailure) (left : Nat → UInt8)

/-- What CUDA answers during one call: to `cudaSetDevice`, and in the turns of the loop. -/
structure CallCuda where
  setDevice : Option CudaFailure
  chunk : Nat → ChunkOutcome

def CallCuda.success : CallCuda where
  setDevice := none
  chunk _ := .done

/-- `Qwen3TtsDeviceBuffer`, without its clocks. -/
structure DeviceBuffer where
  device : Nat → UInt8
  staging : Nat → UInt8
  capacityBytes : UInt64
  stagingBytes : UInt64
  uploadedBytes : UInt64
  uploadCalls : UInt64
  stagingBytes_pos : 0 < stagingBytes
  uploadedBytes_le : uploadedBytes ≤ capacityBytes

/-- `kMaximumStagingBytes`. -/
def maximumStagingBytes : UInt64 := 256 * 1024 * 1024

/-- `qwen3_tts_device_buffer_create`; `allocated` is the answer of its CUDA calls and of `new`,
`device` and `staging` are what the allocations hold. -/
def DeviceBuffer.create (capacityBytes stagingBytes : UInt64) (allocated : Option CallFailure)
    (device staging : Nat → UInt8) : Except CallFailure DeviceBuffer :=
  if capacityBytes = 0 then .error ⟨-2, "device capacity is zero or exceeds size_t"⟩
  else if h : stagingBytes = 0 ∨ maximumStagingBytes < stagingBytes then
    .error ⟨-3, "staging capacity must be in [1, 256 MiB] and fit size_t"⟩
  else
    match allocated with
    | some failure => .error failure
    | none => .ok {
        device := device
        staging := staging
        capacityBytes := capacityBytes
        stagingBytes := stagingBytes
        uploadedBytes := 0
        uploadCalls := 0
        stagingBytes_pos := UInt64.pos_iff_ne_zero.mpr fun hzero => h (Or.inl hzero)
        uploadedBytes_le := UInt64.zero_le }

/-- The locals of a staging loop, with the memory it writes to. -/
structure Transfer where
  copied : UInt64
  target : Nat → UInt8
  staging : Nat → UInt8
  calls : UInt64

/-- Bytes that the next turn of a loop moves. -/
def DeviceBuffer.chunk (b : DeviceBuffer) (bytes copied : UInt64) : UInt64 :=
  min b.stagingBytes (bytes - copied)

theorem toNat_min (a b : UInt64) : (min a b).toNat = min a.toNat b.toNat := by
  show (if a ≤ b then a else b).toNat = _
  split
  · rename_i h
    rw [UInt64.le_iff_toNat_le] at h
    omega
  · rename_i h
    rw [UInt64.le_iff_toNat_le] at h
    omega

/-- A turn moves something, and not more than what is left. -/
theorem toNat_chunk (b : DeviceBuffer) {bytes copied : UInt64} (h : copied < bytes) :
    (b.chunk bytes copied).toNat = min b.stagingBytes.toNat (bytes.toNat - copied.toNat) ∧
    0 < b.stagingBytes.toNat ∧ copied.toNat < bytes.toNat ∧
    (copied + b.chunk bytes copied).toNat
      = copied.toNat + min b.stagingBytes.toNat (bytes.toNat - copied.toNat) := by
  have hpos := b.stagingBytes_pos
  have hbytes := bytes.toNat_lt
  rw [UInt64.lt_iff_toNat_lt] at h hpos
  have hchunk : (b.chunk bytes copied).toNat
      = min b.stagingBytes.toNat (bytes.toNat - copied.toNat) := by
    rw [DeviceBuffer.chunk, toNat_min, UInt64.toNat_sub_of_le _ _ (by
      rw [UInt64.le_iff_toNat_le]
      omega)]
  refine ⟨hchunk, hpos, h, ?_⟩
  rw [UInt64.toNat_add, hchunk]
  omega

theorem chunk_decreases (b : DeviceBuffer) {bytes copied : UInt64} (h : copied < bytes) :
    bytes.toNat - (copied + b.chunk bytes copied).toNat < bytes.toNat - copied.toNat := by
  obtain ⟨-, hpos, hlt, hnext⟩ := toNat_chunk b h
  omega

/-- The loop of `qwen3_tts_device_buffer_upload`. -/
def DeviceBuffer.uploadLoop (b : DeviceBuffer) (offset : UInt64) (source : List UInt8)
    (bytes : UInt64) (outcome : Nat → ChunkOutcome) (turn : Nat) (s : Transfer) :
    Except CallFailure Unit × Transfer :=
  if _h : s.copied < bytes then
    let chunk := (b.chunk bytes s.copied).toNat
    let staging := store s.staging 0 ((source.drop s.copied.toNat).take chunk)
    let target := (offset + s.copied).toNat
    match outcome turn with
    | .copyFails failure left => (.error (cudaFailure failure "cudaMemcpyAsync(weight chunk)"),
        { s with target := store s.target target (load left 0 chunk), staging := staging })
    | .syncFails failure left => (.error (cudaFailure failure "cudaStreamSynchronize(upload)"),
        { s with target := store s.target target (load left 0 chunk), staging := staging })
    | .done => b.uploadLoop offset source bytes outcome (turn + 1) {
        copied := s.copied + b.chunk bytes s.copied
        target := store s.target target (load staging 0 chunk)
        staging := staging
        calls := s.calls + 1 }
  else (.ok (), s)
  termination_by bytes.toNat - s.copied.toNat
  decreasing_by exact chunk_decreases b _h

/-- Behind an upload that was accepted there is room for what it counted. -/
theorem uploaded_add_le {capacity uploaded offset bytes : UInt64} (h : uploaded ≤ capacity)
    (hoffset : ¬ offset ≠ uploaded) (hbytes : ¬ capacity - offset < bytes) :
    uploaded + bytes ≤ capacity := by
  rw [Decidable.not_not.mp hoffset] at hbytes
  have hcapacity := capacity.toNat_lt
  rw [UInt64.lt_iff_toNat_lt, UInt64.toNat_sub_of_le _ _ h] at hbytes
  rw [UInt64.le_iff_toNat_le] at h ⊢
  rw [UInt64.toNat_add]
  omega

/-- `qwen3_tts_device_buffer_upload`. -/
def DeviceBuffer.upload (b : DeviceBuffer) (offset : UInt64) (source : Option (List UInt8))
    (bytes : UInt64) (cuda : CallCuda) : Except CallFailure Unit × DeviceBuffer :=
  if bytes ≠ 0 ∧ source = none then (.error ⟨-2, "upload source is null"⟩, b)
  else if hoffset : offset ≠ b.uploadedBytes then
    (.error ⟨-3, "uploads must be contiguous and sequential"⟩, b)
  else if h : b.capacityBytes - offset < bytes then
    (.error ⟨-4, "upload exceeds device-buffer capacity"⟩, b)
  else
    match cuda.setDevice with
    | some failure => (.error (cudaFailure failure "cudaSetDevice"), b)
    | none =>
      let start := { copied := 0, target := b.device, staging := b.staging, calls := b.uploadCalls }
      match b.uploadLoop offset (source.getD []) bytes cuda.chunk 0 start with
      | (.error failure, s) => (.error failure,
          { b with device := s.target, staging := s.staging, uploadCalls := s.calls })
      | (.ok (), s) => (.ok (), { b with
          device := s.target
          staging := s.staging
          uploadCalls := s.calls
          uploadedBytes := b.uploadedBytes + bytes
          uploadedBytes_le := uploaded_add_le b.uploadedBytes_le hoffset h })

/-- The sizes in `Qwen3TtsWeightUploadMetrics`. -/
structure UploadMetrics where
  allocationBytes : UInt64
  pinnedStagingBytes : UInt64
  uploadedBytes : UInt64
  uploadCalls : UInt64
  deriving DecidableEq, Repr

/-- `qwen3_tts_device_buffer_finish`; `sync` is the answer of `cudaStreamSynchronize`. -/
def DeviceBuffer.finish (b : DeviceBuffer) (sync : Option CudaFailure) :
    Except CallFailure UploadMetrics :=
  if b.uploadedBytes ≠ b.capacityBytes then
    .error ⟨-2, "device buffer is not completely uploaded"⟩
  else
    match sync with
    | some failure => .error (cudaFailure failure "cudaStreamSynchronize(finish)")
    | none => .ok ⟨b.capacityBytes, b.stagingBytes, b.uploadedBytes, b.uploadCalls⟩

/-- The loop of `qwen3_tts_device_buffer_read`; its target is the caller's memory. A copy that
fails leaves anything in the staging memory. -/
def DeviceBuffer.readLoop (b : DeviceBuffer) (offset bytes : UInt64)
    (outcome : Nat → ChunkOutcome) (turn : Nat) (s : Transfer) :
    Except CallFailure Unit × Transfer :=
  if _h : s.copied < bytes then
    let chunk := (b.chunk bytes s.copied).toNat
    let origin := (offset + s.copied).toNat
    match outcome turn with
    | .copyFails failure left => (.error (cudaFailure failure "cudaMemcpyAsync(readback chunk)"),
        { s with staging := store s.staging 0 (load left 0 chunk) })
    | .syncFails failure left => (.error (cudaFailure failure "cudaStreamSynchronize(readback)"),
        { s with staging := store s.staging 0 (load left 0 chunk) })
    | .done =>
      let staging := store s.staging 0 (load b.device origin chunk)
      b.readLoop offset bytes outcome (turn + 1) {
        copied := s.copied + b.chunk bytes s.copied
        target := store s.target s.copied.toNat (load staging 0 chunk)
        staging := staging
        calls := s.calls }
  else (.ok (), s)
  termination_by bytes.toNat - s.copied.toNat
  decreasing_by exact chunk_decreases b _h

/-- `qwen3_tts_device_buffer_read`; `none` is the null destination. What lies there afterwards is
returned with the answer. -/
def DeviceBuffer.read (b : DeviceBuffer) (offset : UInt64) (destination : Option (Nat → UInt8))
    (bytes : UInt64) (cuda : CallCuda) :
    Except CallFailure Unit × Option (Nat → UInt8) × DeviceBuffer :=
  if bytes ≠ 0 ∧ destination.isNone then
    (.error ⟨-1, "device buffer or read destination is null"⟩, destination, b)
  else if b.uploadedBytes < offset ∨ b.uploadedBytes - offset < bytes then
    (.error ⟨-2, "read exceeds uploaded device-buffer range"⟩, destination, b)
  else
    match cuda.setDevice with
    | some failure => (.error (cudaFailure failure "cudaSetDevice"), destination, b)
    | none =>
      let start := { copied := 0, target := destination.getD fun _ => 0, staging := b.staging,
                     calls := b.uploadCalls }
      match b.readLoop offset bytes cuda.chunk 0 start with
      | (answer, s) => (answer, destination.map fun _ => s.target, { b with staging := s.staging })

/-! ## `device_weights.rs` and `upload_artifact.rs` -/

structure DeviceWeightBuffer where
  handle : DeviceBuffer
  finished : Bool

/-- `ensure_success`, with the text the native side has written. -/
def ensureSuccess {α : Type} (answer : Except CallFailure α) : Except String α :=
  match answer with
  | .ok a => .ok a
  | .error failure => .error s!"{failure.message} (status {failure.code})"

def DeviceWeightBuffer.upload (buffer : DeviceWeightBuffer) (offset : UInt64)
    (source : List UInt8) (cuda : CallCuda) : Except String Unit × DeviceWeightBuffer :=
  if buffer.finished then (.error "cannot upload after device buffer was finalized", buffer)
  else
    match buffer.handle.upload offset (some source) (UInt64.ofNat source.length) cuda with
    | (answer, handle) => (ensureSuccess answer, { buffer with handle := handle })

/-- `finish`; the native side reads the buffer only. -/
def DeviceWeightBuffer.finish (buffer : DeviceWeightBuffer) (sync : Option CudaFailure) :
    Except String UploadMetrics × DeviceWeightBuffer :=
  match ensureSuccess (buffer.handle.finish sync) with
  | .error message => (.error message, buffer)
  | .ok metrics => (.ok metrics, { buffer with finished := true })

/-- `readback`, into a vector of zeros. -/
def DeviceWeightBuffer.readback (buffer : DeviceWeightBuffer) (offset : UInt64) (bytes : Nat)
    (cuda : CallCuda) : Except String (List UInt8) × DeviceWeightBuffer :=
  match buffer.handle.read offset (some fun _ => 0) (UInt64.ofNat bytes) cuda with
  | (answer, output, handle) =>
    (ensureSuccess (answer.map fun _ => load (output.getD fun _ => 0) 0 bytes),
      { buffer with handle := handle })

/-- `u64::checked_add`. -/
def checkedAdd (a b : UInt64) (error : String) : Except String UInt64 :=
  if a.toNat + b.toNat < 2 ^ 64 then .ok (a + b) else .error error

/-- The loop of `upload_tensor`; `cuda` is what CUDA answers to the upload at an offset. -/
def uploadChunks (cuda : UInt64 → CallCuda) (arenaOffset : UInt64) :
    List TensorChunk → DeviceWeightBuffer → Except String Unit × DeviceWeightBuffer
  | [], buffer => (.ok (), buffer)
  | chunk :: chunks, buffer =>
    match checkedAdd arenaOffset (UInt64.ofNat chunk.offsetBytes)
      "device upload offset overflowed" with
    | .error message => (.error message, buffer)
    | .ok offset =>
      match buffer.upload offset chunk.bytes (cuda offset) with
      | (.error message, buffer) => (.error message, buffer)
      | (.ok (), buffer) => uploadChunks cuda arenaOffset chunks buffer

def uploadTensor (cuda : UInt64 → CallCuda) (buffer : DeviceWeightBuffer) (arenaOffset : UInt64)
    (tensor : TensorRef) (stagingBytes : Nat) : Except String Unit × DeviceWeightBuffer :=
  match tensor.chunks stagingBytes with
  | .error message => (.error message, buffer)
  | .ok chunks => uploadChunks cuda arenaOffset chunks.toList buffer

/-- The loop of `main` over the selected tensors, from `offset` on. -/
def uploadTensors (cuda : UInt64 → CallCuda) (stagingBytes : Nat) :
    List TensorRef → UInt64 → DeviceWeightBuffer → Except String UInt64 × DeviceWeightBuffer
  | [], offset, buffer => (.ok offset, buffer)
  | tensor :: tensors, offset, buffer =>
    match uploadTensor cuda buffer offset tensor stagingBytes with
    | (.error message, buffer) => (.error message, buffer)
    | (.ok (), buffer) =>
      match checkedAdd offset (UInt64.ofNat tensor.bytes.length)
        "device arena offset overflowed" with
      | .error message => (.error message, buffer)
      | .ok offset => uploadTensors cuda stagingBytes tensors offset buffer

/-- `READBACK_BYTES`. -/
def readbackBytes : Nat := 4096

/-- An offset, and the bytes that should be there. -/
abbrev Probe := UInt64 × List UInt8

/-- `first_probe` behind the loop: the front of the first tensor. -/
def firstProbe (offset : UInt64) : List TensorRef → Option Probe
  | [] => none
  | tensor :: _ => some (offset, tensor.bytes.take (min tensor.bytes.length readbackBytes))

/-- `final_probe` behind the loop: the end of the last tensor. -/
def finalProbe (offset : UInt64) : List TensorRef → Option Probe
  | [] => none
  | [tensor] =>
    let sampleBytes := min tensor.bytes.length readbackBytes
    some (offset + UInt64.ofNat tensor.bytes.length - UInt64.ofNat sampleBytes,
      tensor.bytes.drop (tensor.bytes.length - sampleBytes))
  | tensor :: tensors => finalProbe (offset + UInt64.ofNat tensor.bytes.length) tensors

/-- A probe is read back. -/
def readProbe (buffer : DeviceWeightBuffer) (probe : Probe) (cuda : CallCuda) :
    Except String (List UInt8) × DeviceWeightBuffer :=
  buffer.readback probe.1 probe.2.length cuda

/-- What CUDA answers during `main`. -/
structure MainCuda where
  upload : UInt64 → CallCuda
  sync : Option CudaFailure
  first : CallCuda
  final : CallCuda

/-- `main` from the upload loop to the comparison of the probes, for a buffer of
`allocationBytes`. -/
def uploadArtifact (cuda : MainCuda) (stagingBytes : Nat) (tensors : List TensorRef)
    (allocationBytes : UInt64) (buffer : DeviceWeightBuffer) :
    Except String UploadMetrics × DeviceWeightBuffer :=
  match uploadTensors cuda.upload stagingBytes tensors 0 buffer with
  | (.error message, buffer) => (.error message, buffer)
  | (.ok offset, buffer) =>
    if offset ≠ allocationBytes then
      (.error s!"uploaded byte total {offset} differs from planned {allocationBytes}", buffer)
    else
      match buffer.finish cuda.sync with
      | (.error message, buffer) => (.error message, buffer)
      | (.ok metrics, buffer) =>
        if ¬ buffer.finished then
          (.error "device buffer did not enter the finished state", buffer)
        else
          match firstProbe 0 tensors, finalProbe 0 tensors with
          | none, _ => (.error "no first readback probe", buffer)
          | _, none => (.error "no final readback probe", buffer)
          | some first, some final =>
            match readProbe buffer first cuda.first with
            | (.error message, buffer) => (.error message, buffer)
            | (.ok firstActual, buffer) =>
              match readProbe buffer final cuda.final with
              | (.error message, buffer) => (.error message, buffer)
              | (.ok finalActual, buffer) =>
                if firstActual ≠ first.2 ∨ finalActual ≠ final.2 then
                  (.error "device readback did not match the first and final uploaded bytes",
                    buffer)
                else (.ok metrics, buffer)

end Qwen3Tts.Artifact
