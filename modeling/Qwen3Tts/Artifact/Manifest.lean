import Qwen3Tts.Artifact.Files
import Qwen3Tts.Lib.Value

/-!
# Artifact — the packed manifest

The writer of `artifact.rs` (`build_tensor_index`, `build_manifest`, and the files that are copied
into the artifact) and the checks of `loader.rs` on the same document and the same files, with the
parts of `contract.rs` that they use. The document is a `serde_json::Value`; how `serde_json` writes
and parses its text is given. A checkpoint is what `SafeTensors` makes of its mapping, the same at
every call, since the file does not change. Left out are the checks of the source checkpoints, the
conversion of the decoder and the directory that is staged and committed, and of the loader the
checks of the directory tree and `MappedCheckpoint::open`.
-/

namespace Qwen3Tts.Artifact

open Qwen3Tts.Lib

/-- `str::bytes`. -/
def strBytes (text : String) : List UInt8 := utf8 text.toList

/-- `str::to_ascii_lowercase`. -/
def toAsciiLowercase (text : String) : String := .ofList (text.toList.map Char.toLower)

/-- `u8::is_ascii_hexdigit`. -/
def isAsciiHexdigit (byte : UInt8) : Bool := (Hex.digitValue byte).isSome

/-! ## `contract.rs` -/

inductive CodecWeightDtype where
  | f32
  | bf16
  deriving DecidableEq, Repr

def CodecWeightDtype.parse (value : String) : Except Failure CodecWeightDtype :=
  if value = "f32" then .ok .f32
  else if value = "bf16" then .ok .bf16
  else bail [.text "unsupported codec weight dtype ", .debug value, .text "; expected f32 or bf16"]

def CodecWeightDtype.label : CodecWeightDtype → String
  | .f32 => "F32"
  | .bf16 => "BF16"

/-- The name of a `safetensors::Dtype` under `{:?}`. -/
def Dtype.debug : Dtype → String
  | .bf16 => "BF16"
  | .f32 => "F32"
  | .other name => name

structure TensorSpec where
  dtype : Dtype
  shape : List UInt64
  parameters : UInt64
  bytes : UInt64
  deriving DecidableEq, Repr

/-- A contract with its totals. The tensors of a `BTreeMap` stand in the order of their names. -/
structure TensorContract where
  label : String
  tensors : List (String × TensorSpec)
  tensorCount : UInt64
  parameterCount : UInt64
  payloadBytes : UInt64
  sorted : (keys tensors).Pairwise (· < ·)
  tensorCount_eq : tensorCount.toNat = tensors.length
  parameterCount_eq : parameterCount.toNat = (tensors.map (·.2.parameters.toNat)).sum
  payloadBytes_eq : payloadBytes.toNat = (tensors.map (·.2.bytes.toNat)).sum

/-! ## `artifact.rs` -/

def modelId : String := "Qwen/Qwen3-TTS-12Hz-1.7B-VoiceDesign"

def voicePath : String := "model.safetensors"

def codecPath : String := "speech_tokenizer/model.safetensors"

/-- `MATERIAL_FILES`, with their roles. -/
def materialFiles : List (String × String) := [
  ("config.json", "voice-design-config"),
  ("generation_config.json", "generation-config"),
  ("tokenizer_config.json", "text-tokenizer-config"),
  ("vocab.json", "text-tokenizer-vocabulary"),
  ("merges.txt", "text-tokenizer-merges"),
  ("preprocessor_config.json", "preprocessor-config"),
  ("speech_tokenizer/config.json", "speech-decoder-config"),
  ("speech_tokenizer/configuration.json", "speech-tokenizer-configuration"),
  ("speech_tokenizer/preprocessor_config.json", "speech-preprocessor-config")]

/-- `fileName` is the last component of the path, where it is Unicode. -/
def snapshotRevision (fileName : Option String) : Except Failure String := do
  let revision ← required fileName [.text "source snapshot path has no UTF-8 revision component"]
  failIf ((strBytes revision).length ≠ 40 ∨ ¬ (strBytes revision).all isAsciiHexdigit)
    (.error [[.text ("source snapshot revision must be a 40-character hexadecimal commit, "
      ++ "found "), .debug revision]])
  return toAsciiLowercase revision

/-- The entry of a file. -/
def FileRecord.asJson (record : FileRecord) : Value := .object [
  ("role", .string record.role),
  ("bytes", .u64 record.bytes),
  ("sha256", .string record.sha256)]

/-- A tensor of a checkpoint; `offset` is where its data begin in the mapping, if it is there. -/
structure TensorView where
  dtype : Dtype
  shape : List UInt64
  data : List UInt8
  offset : Option Nat
  /-- No slice has more than `isize::MAX` bytes. -/
  data_lt : data.length < 2 ^ 63

/-- The mapped file. -/
structure Mapping where
  len : Nat
  /-- `SafeTensors::deserialize`, then `SafeTensors::tensor`. -/
  deserialize : Except String (String → Except String TensorView)
  /-- What `unchecked_advise_range` answers to a range. -/
  advise : Nat → Nat → Except String Unit

def releaseMappingRange (mapping : Mapping) (offset bytes : Nat) (label : String) :
    Except Failure Unit := do
  failIf (2 ^ 64 ≤ offset + bytes) (.error [[.text "mapped tensor range overflowed"]])
  failIf (mapping.len < offset + bytes) (.error [[.text s!"mapped tensor {label} ends at byte ",
    .number (offset + bytes), .text ", beyond mapping size ", .number mapping.len]])
  withContext (foreign (mapping.advise offset bytes))
    [.text s!"failed to release mapped pages for tensor {label}"]

def tensorComponent (name : String) : String :=
  if name.startsWith "talker.code_predictor." then "code-predictor"
  else if name.startsWith "talker." then "talker"
  else "speech-decoder"

/-- The entry of a tensor. -/
def indexEntry (name : String) (spec : TensorSpec) (offsetBytes : UInt64) (sha256 : String) :
    Value := .object [
  ("name", .string name),
  ("component", .string (tensorComponent name)),
  ("dtype", .string spec.dtype.debug),
  ("shape", .array (spec.shape.map .u64)),
  ("parameters", .u64 spec.parameters),
  ("arena_offset_bytes", .u64 offsetBytes),
  ("bytes", .u64 spec.bytes),
  ("sha256", .string sha256)]

/-- One turn of the loop of `build_tensor_index`. -/
def indexTensor (mapping : Mapping) (label : String) (state : UInt64 × List Value)
    (tensor : String × TensorSpec) : Except Failure (UInt64 × List Value) := do
  let (offsetBytes, index) := state
  let (name, spec) := tensor
  let tensors ← withContext (foreign mapping.deserialize)
    [.text s!"{label} metadata became invalid"]
  let tensor ← withContext (foreign (tensors name)) [.text s!"{label} is missing tensor {name}"]
  failIf (tensor.dtype ≠ spec.dtype ∨ tensor.shape ≠ spec.shape
      ∨ tensor.data.length ≠ spec.bytes.toNat)
    (.error [[.text s!"{label} tensor {name} changed after validation"]])
  let mappingOffset ← required tensor.offset
    [.text "tensor payload is outside its memory mapping"]
  let sha256 := toHex (← unwrapped (digestBytes tensor.data))
  let index := index ++ [indexEntry name spec offsetBytes sha256]
  releaseMappingRange mapping mappingOffset tensor.data.length name
  let offsetBytes ← foreign (checkedAdd offsetBytes spec.bytes "tensor arena offset overflowed")
  return (offsetBytes, index)

/-- The entries of all tensors, one behind the other. -/
def buildTensorIndex (mapping : Mapping) (contract : TensorContract) :
    Except Failure (List Value) := do
  let (offsetBytes, index) ← contract.tensors.foldlM (indexTensor mapping contract.label) (0, [])
  failIf (offsetBytes ≠ contract.payloadBytes) (.error [[
    .text s!"{contract.label} tensor index covers ", .number offsetBytes.toNat,
    .text " bytes, expected ", .number contract.payloadBytes.toNat]])
  return index

/-- What `build_manifest` is given. -/
structure ManifestInput where
  voice : TensorContract
  sourceTokenizer : TensorContract
  decoder : TensorContract
  sourceCodecSha256 : String
  records : List (String × FileRecord)
  voiceTensorIndex : List Value
  decoderTensorIndex : List Value

def buildManifest (revision : String) (codecDtype : CodecWeightDtype) (input : ManifestInput) :
    Value := .object [
  ("schema_version", .u64 1),
  ("artifact", .string "qwen3-tts-native-1.7b-voice-design"),
  ("model", .object [
    ("id", .string modelId),
    ("revision", .string revision)]),
  ("production_material", .object [
    ("regular_files_only", .bool true),
    ("symlink_count", .u64 0),
    ("runtime_dependencies", .array [.string "rust", .string "cuda"])]),
  ("files", .object (input.records.map fun (path, record) => (path, record.asJson))),
  ("source_contract", .object [
    ("voice_design", .object [
      ("dtype", .string "BF16"),
      ("tensor_count", .u64 input.voice.tensorCount),
      ("parameter_count", .u64 input.voice.parameterCount),
      ("payload_bytes", .u64 input.voice.payloadBytes)]),
    ("speech_tokenizer", .object [
      ("dtype", .string "F32"),
      ("sha256", .string input.sourceCodecSha256),
      ("tensor_count", .u64 input.sourceTokenizer.tensorCount),
      ("parameter_count", .u64 input.sourceTokenizer.parameterCount),
      ("payload_bytes", .u64 input.sourceTokenizer.payloadBytes)])]),
  ("weights", .object [
    ("voice_design", .object [
      ("path", .string voicePath),
      ("dtype", .string "BF16"),
      ("tensor_count", .u64 input.voice.tensorCount),
      ("parameter_count", .u64 input.voice.parameterCount),
      ("payload_bytes", .u64 input.voice.payloadBytes),
      ("tensors", .array input.voiceTensorIndex)]),
    ("speech_decoder", .object [
      ("path", .string codecPath),
      ("source_dtype", .string "F32"),
      ("dtype", .string codecDtype.label),
      ("tensor_count", .u64 input.decoder.tensorCount),
      ("parameter_count", .u64 input.decoder.parameterCount),
      ("payload_bytes", .u64 input.decoder.payloadBytes),
      ("encoder_included", .bool false),
      ("tensor_name_prefix", .string "decoder."),
      ("conversion", .string
        (if codecDtype = .bf16 then "round-to-nearest-even" else "none")),
      ("tensors", .array input.decoderTensorIndex)])])]

/-- What `pack_artifact` has at hand when its checks of the source have passed and the checkpoint
of the decoder is written, and what the operating system answers from then on. -/
structure PackState where
  fileName : Option String
  codecDtype : CodecWeightDtype
  copyBufferBytes : Nat
  source : Tree
  /-- The staging directory. -/
  staging : String
  destination : List String → Destination
  voiceMapping : Mapping
  packedCodecMapping : Mapping
  /-- The checkpoint of the decoder in the staging directory. -/
  packedCodec : FileAnswers
  tokenizerContract : TensorContract

/-- A file that is recorded, and what it holds in the staging directory. -/
structure Material where
  record : FileRecord
  bytes : List UInt8

/-- What the reads give before the end of a file; nothing where they fail. -/
def FileAnswers.contents (file : FileAnswers) (bufferBytes : Nat) : List UInt8 :=
  match file.opened bufferBytes >>= fun reads => readChunks reads.answers with
  | .ok chunks => chunks.flatten
  | .error _ => []

/-- One turn of the loop over `MATERIAL_FILES`. -/
def copyMaterial (state : PackState) (materials : List (String × Material))
    (file : String × String) : Except Failure (List (String × Material)) := do
  let (relative, role) := file
  let (record, bytes) ← copyRegularFile (join state.source.root relative)
    (join state.staging relative) role (state.source.file (names relative))
    (state.destination (names relative)) state.copyBufferBytes
  return insertSorted relative ⟨record, bytes⟩ materials

/-- The manifest, and the files that it records. -/
structure Packed where
  manifest : Value
  materials : List (String × Material)

/-- The steps of `pack_artifact` that make the manifest. `decoder` is `speech_decoder_contract`. -/
def packManifest (voice : TensorContract) (decoder : CodecWeightDtype → TensorContract)
    (state : PackState) : Except Failure Packed := do
  failIf (state.copyBufferBytes = 0)
    (.error [[.text "copy buffer size must be greater than zero"]])
  let revision ← snapshotRevision state.fileName
  let materials ← materialFiles.foldlM (copyMaterial state) []
  let materials ← copyMaterial state materials (voicePath, "voice-design-weights")
  let decoderContract := decoder state.codecDtype
  let voiceTensorIndex ← buildTensorIndex state.voiceMapping voice
  let decoderTensorIndex ← buildTensorIndex state.packedCodecMapping decoderContract
  let codecRecord ← hashRegularFile (join state.staging codecPath) "speech-decoder-weights"
    state.packedCodec state.copyBufferBytes
  let materials := insertSorted codecPath
    ⟨codecRecord, state.packedCodec.contents state.copyBufferBytes⟩ materials
  let sourceCodec ← hashRegularFile (join state.source.root codecPath) "source-speech-tokenizer"
    (state.source.file (names codecPath)) state.copyBufferBytes
  let manifest := buildManifest revision state.codecDtype {
    voice := voice
    sourceTokenizer := state.tokenizerContract
    decoder := decoderContract
    sourceCodecSha256 := sourceCodec.sha256
    records := materials.map fun (path, material) => (path, material.record)
    voiceTensorIndex := voiceTensorIndex
    decoderTensorIndex := decoderTensorIndex }
  return { manifest, materials }

/-! ## `loader.rs`

Its own copies of the constants and of `tensor_component` are kept apart from those of the packer.
-/

namespace Loader

def modelId : String := "Qwen/Qwen3-TTS-12Hz-1.7B-VoiceDesign"

def artifactKind : String := "qwen3-tts-native-1.7b-voice-design"

def voicePath : String := "model.safetensors"

def codecPath : String := "speech_tokenizer/model.safetensors"

def tensorComponent (name : String) : String :=
  if name.startsWith "talker.code_predictor." then "code-predictor"
  else if name.startsWith "talker." then "talker"
  else "speech-decoder"

/-- A pointer as it is written. -/
def pointerText (tokens : List String) : String := String.join (tokens.map ("/" ++ ·))

def expectManifestString (root : Value) (pointer : List String) (value : String) :
    Except Failure Unit := do
  let actual ← required ((root.pointer pointer).bind Value.asStr)
    [.text s!"manifest field {pointerText pointer} is missing or not a string"]
  failIf (actual ≠ value) (.error [[.text s!"manifest field {pointerText pointer}: expected ",
    .debug value, .text ", found ", .debug actual]])

def expectManifestBool (root : Value) (pointer : List String) (value : Bool) :
    Except Failure Unit := do
  let actual ← required ((root.pointer pointer).bind Value.asBool)
    [.text s!"manifest field {pointerText pointer} is missing or not a boolean"]
  failIf (actual ≠ value) (.error [[.text s!"manifest field {pointerText pointer}: expected ",
    .flag value, .text ", found ", .flag actual]])

def expectManifestU64 (root : Value) (pointer : List String) (value : UInt64) :
    Except Failure Unit := do
  let actual ← required ((root.pointer pointer).bind Value.asU64)
    [.text s!"manifest field {pointerText pointer} is missing or not an unsigned integer"]
  failIf (actual ≠ value) (.error [[.text s!"manifest field {pointerText pointer}: expected ",
    .number value.toNat, .text ", found ", .number actual.toNat]])

/-- The fields that name the format and the model. -/
def validateManifestIdentity (manifest : Value) : Except Failure Unit := do
  expectManifestU64 manifest ["schema_version"] 1
  expectManifestString manifest ["artifact"] artifactKind
  expectManifestString manifest ["model", "id"] modelId
  expectManifestBool manifest ["production_material", "regular_files_only"] true
  expectManifestU64 manifest ["production_material", "symlink_count"] 0
  let revision ← required ((manifest.pointer ["model", "revision"]).bind Value.asStr)
    [.text "manifest model revision is missing"]
  failIf ((strBytes revision).length ≠ 40 ∨ ¬ (strBytes revision).all Hex.isLowerDigit)
    (.error [[.text "manifest model revision is not a lowercase 40-character commit hash"]])

/-- The counts of one contract. -/
def validateManifestContract (manifest : Value) (pointer : List String)
    (contract : TensorContract) : Except Failure Unit := do
  expectManifestU64 manifest (pointer ++ ["tensor_count"]) contract.tensorCount
  expectManifestU64 manifest (pointer ++ ["parameter_count"]) contract.parameterCount
  expectManifestU64 manifest (pointer ++ ["payload_bytes"]) contract.payloadBytes

/-- What the index says about a tensor. -/
structure TensorDescriptor where
  name : String
  sha256 : List UInt8
  dtype : Dtype
  shape : List UInt64
  arenaOffsetBytes : UInt64
  bytes : UInt64
  deriving DecidableEq, Repr

def expectTensorU64 (entry : Value) (field : String) (value : UInt64) (context : String) :
    Except Failure Unit := do
  let actual ← required (entry.index field).asU64
    [.text s!"{context} field {field} is not a u64"]
  failIf (actual ≠ value) (.error [[.text s!"{context} field {field}: expected ",
    .number value.toNat, .text ", found ", .number actual.toNat]])

def parseSha256 (encoded : String) : Except Failure (List UInt8) := do
  failIf ((strBytes encoded).length ≠ 64 ∨ ¬ (strBytes encoded).all Hex.isLowerDigit)
    (.error [[.text "SHA-256 must be exactly 64 lowercase hexadecimal characters"]])
  match Hex.decode (strBytes encoded) with
  | some digest => return digest
  | none => .error (.panic "validated hexadecimal byte")

/-- The shape of an entry. A dimension that is a `usize` is a `u64`. -/
def parseShape (entry : Value) (context : String) : Except Failure (List UInt64) := do
  let items ← required (entry.index "shape").asArray [.text s!"{context} shape is not an array"]
  items.zipIdx.mapM fun (value, dimension) =>
    required value.asU64 [.text s!"{context} shape[{dimension}] is not a u64"]

/-- One turn of the loop of `validate_manifest_tensor_index`: the descriptors so far and the offset
that is expected. -/
def readTensor (indexPointer : String)
    (state : List (String × TensorDescriptor) × UInt64)
    (item : (Value × String × TensorSpec) × Nat) :
    Except Failure (List (String × TensorDescriptor) × UInt64) := do
  let (descriptors, expectedOffset) := state
  let ((entry, expectedName, spec), position) := item
  let context := s!"manifest tensor {indexPointer}[{position}]"
  let name ← required (entry.index "name").asStr [.text s!"{context} has no name"]
  failIf (name ≠ expectedName) (.error [[.text s!"{context} name mismatch: expected ",
    .debug expectedName, .text ", found ", .debug name]])
  let expectedComponent := tensorComponent expectedName
  let component ← required (entry.index "component").asStr [.text s!"{context} has no component"]
  failIf (component ≠ expectedComponent) (.error [[
    .text s!"{context} component mismatch: expected ", .debug expectedComponent,
    .text ", found ", .debug component]])
  let expectedDtype := spec.dtype.debug
  let dtype ← required (entry.index "dtype").asStr [.text s!"{context} has no dtype"]
  failIf (dtype ≠ expectedDtype) (.error [[.text s!"{context} dtype mismatch: expected ",
    .debug expectedDtype, .text ", found ", .debug dtype]])
  let shape ← parseShape entry context
  failIf (shape ≠ spec.shape) (.error [[.text s!"{context} shape mismatch: expected ",
    .numbers spec.shape, .text ", found ", .numbers shape]])
  expectTensorU64 entry "parameters" spec.parameters context
  expectTensorU64 entry "arena_offset_bytes" expectedOffset context
  expectTensorU64 entry "bytes" spec.bytes context
  let encoded ← required (entry.index "sha256").asStr [.text s!"{context} has no SHA-256"]
  let sha256 ← withContext (parseSha256 encoded) [.text s!"{context} has an invalid SHA-256"]
  let descriptor : TensorDescriptor :=
    { name, sha256, dtype := spec.dtype, shape, arenaOffsetBytes := expectedOffset,
      bytes := spec.bytes }
  failIf (name ∈ keys descriptors) (.error [[.text s!"{context} duplicates tensor {name}"]])
  let expectedOffset ← foreign
    (checkedAdd expectedOffset spec.bytes "tensor arena byte offset overflowed")
  return (descriptors ++ [(name, descriptor)], expectedOffset)

/-- The index of one contract, tensor by tensor. -/
def validateManifestTensorIndex (manifest : Value) (pointer : List String)
    (contract : TensorContract) : Except Failure (List (String × TensorDescriptor)) := do
  let indexPointer := pointerText (pointer ++ ["tensors"])
  let entries ← required ((manifest.pointer (pointer ++ ["tensors"])).bind Value.asArray)
    [.text s!"manifest field {indexPointer} is missing or not an array"]
  failIf (entries.length ≠ contract.tensorCount.toNat) (.error [[
    .text s!"manifest field {indexPointer}: expected ", .number contract.tensorCount.toNat,
    .text " tensors, found ", .number entries.length]])
  let (descriptors, expectedOffset) ←
    (entries.zip contract.tensors).zipIdx.foldlM (readTensor indexPointer) ([], 0)
  failIf (expectedOffset ≠ contract.payloadBytes) (.error [[
    .text "manifest tensor index covers ", .number expectedOffset.toNat,
    .text " bytes, expected ", .number contract.payloadBytes.toNat]])
  return descriptors

/-! ### The files -/

def manifestMaxBytes : UInt64 := 1024 * 1024

def hashBufferBytes : Nat := 8 * 1024 * 1024

/-- Whether the files are hashed. -/
inductive VerificationMode where
  | full
  | contractsOnly
  deriving DecidableEq, Repr

/-- An entry of the map of files, with its key as it is written. -/
structure ManifestFile where
  relative : String
  bytes : UInt64
  sha256 : String
  deriving DecidableEq, Repr

/-- The names of the path, which are what two equal keys of the map agree in. -/
def safeRelativePath (encoded : String) : Except Failure (List String) := do
  failIf (encoded = "" ∨ isAbsolute encoded)
    (.error [[.text "manifest path must be a non-empty relative path: ", .debug encoded]])
  (components encoded).mapM fun
    | .normal name => .ok name
    | _ => bail [.text "manifest path contains an unsafe component: ", .debug encoded]

/-- One turn of the loop of `parse_manifest_files`. -/
def parseManifestFile (files : List (List String × ManifestFile)) (member : String × Value) :
    Except Failure (List (List String × ManifestFile)) := do
  let (encodedPath, entry) := member
  let relative ← safeRelativePath encodedPath
  let bytes ← required (entry.index "bytes").asU64
    [.text s!"manifest file {encodedPath} has no byte count"]
  let sha256 ← required (entry.index "sha256").asStr
    [.text s!"manifest file {encodedPath} has no SHA-256"]
  failIf ((strBytes sha256).length ≠ 64 ∨ ¬ (strBytes sha256).all Hex.isLowerDigit)
    (.error [[.text s!"manifest file {encodedPath} has an invalid lowercase SHA-256"]])
  failIf (relative ∈ keys files)
    (.error [[.text s!"manifest contains duplicate normalized path {encodedPath}"]])
  return insertSorted relative { relative := encodedPath, bytes, sha256 } files

/-- The table of files. -/
def parseManifestFiles (manifest : Value) : Except Failure (List (List String × ManifestFile)) := do
  let entries ← required (manifest.index "files").asObject
    [.text "manifest files is not an object"]
  let files ← entries.foldlM parseManifestFile []
  [voicePath, codecPath].forM fun path => failIf (names path ∉ keys files)
    (.error [[.text s!"manifest does not include required file {path}"]])
  return files

def ensureRegularMaterial (path : String) (file : FileAnswers) : Except Failure Unit := do
  let metadata ← withContext (foreign file.symlinkMetadata)
    [.text s!"required artifact file is missing: {path}"]
  failIf (metadata.kind = .symlink)
    (.error [[.text s!"artifact material must not be a symlink: {path}"]])
  failIf (metadata.kind ≠ .file)
    (.error [[.text s!"artifact material is not a regular file: {path}"]])

/-- One turn of the loop of `verify_manifest_files`. -/
def verifyManifestFile (tree : Tree) (verification : VerificationMode)
    (listed : List String × ManifestFile) : Except Failure Unit := do
  let (key, expected) := listed
  let path := join tree.root expected.relative
  let file := tree.file key
  ensureRegularMaterial path file
  let metadata ← withContext (foreign file.metadata) [.text s!"failed to stat {path}"]
  failIf (metadata.len ≠ expected.bytes) (.error [[
    .text s!"{expected.relative} size mismatch: manifest ", .number expected.bytes.toNat,
    .text ", actual ", .number metadata.len.toNat]])
  if verification = .full then do
    let reads ← withContext (foreign (file.opened hashBufferBytes))
      [.text s!"failed to open {path}"]
    let (digest, hashedBytes) ← withContext (hashed (digestReader reads.answers hashBufferBytes))
      [.text s!"failed to hash {path}"]
    failIf (hashedBytes ≠ metadata.len.toNat)
      (.error [[.text s!"{expected.relative} changed while being hashed"]])
    failIf (toHex digest ≠ expected.sha256) (.error [[
      .text s!"{expected.relative} SHA-256 mismatch: manifest {expected.sha256}, ",
      .text s!"actual {toHex digest}"]])
  else return ()

def verifyManifestFiles (tree : Tree) (files : List (List String × ManifestFile))
    (verification : VerificationMode) : Except Failure Unit :=
  files.forM (verifyManifestFile tree verification)

/-- `fromSlice` is `serde_json::from_slice`. -/
def readManifest (fromSlice : List UInt8 → Except String Value) (path : String)
    (file : FileAnswers) : Except Failure Value := do
  ensureRegularMaterial path file
  let metadata ← withContext (foreign file.metadata) [.text s!"failed to stat {path}"]
  failIf (manifestMaxBytes < metadata.len) (.error [[.text "manifest exceeds ",
    .number manifestMaxBytes.toNat, .text s!" byte limit: {path}"]])
  let bytes ← withContext (foreign file.readWhole) [.text s!"failed to read {path}"]
  withContext (foreign (fromSlice bytes)) [.text s!"invalid JSON in {path}"]

/-! ### The artifact -/

/-- What `open` returns. -/
structure Opened where
  revision : String
  verification : VerificationMode
  decoderDtype : CodecWeightDtype
  voiceDescriptors : List (String × TensorDescriptor)
  decoderDescriptors : List (String × TensorDescriptor)
  deriving DecidableEq, Repr

/-- `NativeArtifact::open` behind its checks of the directory and without the mapping of the two
checkpoints. -/
def openManifest (fromSlice : List UInt8 → Except String Value) (tree : Tree)
    (verification : VerificationMode) (voice : TensorContract)
    (decoder : CodecWeightDtype → TensorContract) : Except Failure Opened := do
  let manifest ← readManifest fromSlice (join tree.root "manifest.json")
    (tree.file (names "manifest.json"))
  validateManifestIdentity manifest
  let files ← parseManifestFiles manifest
  verifyManifestFiles tree files verification
  let label ← required ((manifest.pointer ["weights", "speech_decoder", "dtype"]).bind Value.asStr)
    [.text "manifest speech-decoder dtype is missing"]
  let decoderDtype ← CodecWeightDtype.parse (toAsciiLowercase label)
  expectManifestString manifest ["weights", "voice_design", "path"] voicePath
  expectManifestString manifest ["weights", "voice_design", "dtype"] "BF16"
  expectManifestString manifest ["weights", "speech_decoder", "path"] codecPath
  expectManifestBool manifest ["weights", "speech_decoder", "encoder_included"] false
  let decoderContract := decoder decoderDtype
  validateManifestContract manifest ["weights", "voice_design"] voice
  validateManifestContract manifest ["weights", "speech_decoder"] decoderContract
  let voiceDescriptors ← validateManifestTensorIndex manifest ["weights", "voice_design"] voice
  let decoderDescriptors ←
    validateManifestTensorIndex manifest ["weights", "speech_decoder"] decoderContract
  let revision ← required ((manifest.pointer ["model", "revision"]).bind Value.asStr)
    [.text "manifest model revision is missing"]
  return { revision, verification, decoderDtype, voiceDescriptors, decoderDescriptors }

end Loader

end Qwen3Tts.Artifact
