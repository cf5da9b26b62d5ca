import Qwen3Tts.Artifact.ManifestLoad

/-!
# Artifact — a packed artifact is opened

The files that the packer copies or hashes are recorded with their lengths and digests (`Recorded`,
by `copyMaterials_ok`), and a directory that holds them as they were recorded passes the checks of
the loader (`parseManifestFiles_packed`, `verifyManifestFiles_packed`). With the indexes of
`ManifestLoad` the whole of what the packer writes is opened: `packed_manifests_open`.
-/

namespace Qwen3Tts.Artifact

open Qwen3Tts.Lib Loader

/-! ## The files of the packer -/

/-- The files that are copied, with their roles. -/
def copiedFiles : List (String × String) := materialFiles ++ [(voicePath, "voice-design-weights")]

/-- The files that a manifest records. -/
def packedFiles : List (String × String) := copiedFiles ++ [(codecPath, "speech-decoder-weights")]

/-- What the staging directory holds under a path that is recorded. -/
def PackState.stored (state : PackState) (path : String) : List UInt8 :=
  if path = codecPath then state.packedCodec.contents state.copyBufferBytes
  else (state.source.file (names path)).contents state.copyBufferBytes

/-- A file that can be hashed. -/
def Hashes (file : FileAnswers) (bufferBytes : Nat) : Prop :=
  ∃ chunks, Whole file bufferBytes chunks ∧ chunks.flatten.length < 2 ^ 61

/-- A file of the source that can be copied to its place. -/
def Copies (state : PackState) (path : String) : Prop :=
  ∃ chunks, Whole (state.source.file (names path)) state.copyBufferBytes chunks
    ∧ chunks.flatten.length < 2 ^ 61 ∧ Takes (state.destination (names path)) chunks.length

/-- What the file holds. -/
theorem Whole.contents_eq {file : FileAnswers} {bufferBytes : Nat} {chunks : List (List UInt8)}
    (h : Whole file bufferBytes chunks) : file.contents bufferBytes = chunks.flatten := by
  obtain ⟨reads, hreads, hchunks⟩ := h.read
  have hall : (file.opened bufferBytes >>= fun reads => readChunks reads.answers) = .ok chunks :=
    bind_eq_ok.mpr ⟨reads, hreads, hchunks⟩
  rw [FileAnswers.contents, hall]

/-- A record that says the length and the digest of the bytes that are stored. -/
structure Recorded (state : PackState) (entry : String × Material) : Prop where
  bytes : entry.2.bytes = state.stored entry.1
  digestible : entry.2.bytes.length < 2 ^ 61
  record : ∃ role, (entry.1, role) ∈ packedFiles ∧ entry.2.record = recordOf role entry.2.bytes

section
variable {state : PackState} {materials result : List (String × Material)}

/-- **One turn of the copies.** -/
theorem copyMaterial_ok {file : String × String} (hfile : file ∈ copiedFiles) :
    (∀ result, copyMaterial state materials file = .ok result → Copies state file.1
      ∧ ∃ material, Recorded state (file.1, material)
        ∧ result = insertSorted file.1 material materials)
    ∧ (Copies state file.1 → ∃ result, copyMaterial state materials file = .ok result) := by
  obtain ⟨path, role⟩ := file
  have hcodec : path ≠ codecPath := by
    have hall : ∀ f ∈ copiedFiles, f.1 ≠ codecPath := by decide
    exact hall _ hfile
  unfold copyMaterial
  constructor
  · intro result h
    obtain ⟨⟨record, bytes⟩, hcopy, h⟩ := bind_eq_ok.mp h
    obtain ⟨chunks, hwhole, htakes, hbits, rfl, rfl⟩ := copyRegularFile_ok.mp hcopy
    refine ⟨⟨chunks, hwhole, hbits, htakes⟩, _, ⟨?_, hbits, role, ?_, rfl⟩,
      (Except.ok.inj h).symm⟩
    · rw [PackState.stored, if_neg hcodec, hwhole.contents_eq]
    · exact List.mem_append_left _ hfile
  · rintro ⟨chunks, hwhole, hbits, htakes⟩
    exact ⟨_, bind_eq_ok.mpr ⟨_, copyRegularFile_ok.mpr ⟨chunks, hwhole, htakes, hbits, rfl, rfl⟩,
      rfl⟩⟩

/-- **The copies**, one after the other. -/
theorem copyMaterials_ok {files : List (String × String)} (hfiles : ∀ f ∈ files, f ∈ copiedFiles)
    (hfresh : (keys materials ++ keys files).Nodup) :
    (∀ result, files.foldlM (copyMaterial state) materials = .ok result →
      (∀ f ∈ files, Copies state f.1) ∧ (keys result).Perm (keys materials ++ keys files)
        ∧ ∀ entry ∈ result, entry ∈ materials ∨ Recorded state entry)
    ∧ ((∀ f ∈ files, Copies state f.1) →
      ∃ result, files.foldlM (copyMaterial state) materials = .ok result) := by
  induction files generalizing materials with
  | nil =>
    refine ⟨fun result h => ?_, fun _ => ⟨materials, rfl⟩⟩
    cases h
    refine ⟨List.forall_mem_nil _, ?_, fun entry hentry => .inl hentry⟩
    rw [keys_nil, List.append_nil]
  | cons file files ih =>
    obtain ⟨hfile, hfiles⟩ := List.forall_mem_cons.mp hfiles
    have hnew : file.1 ∉ keys materials := fun hmem =>
      (List.nodup_append.mp hfresh).2.2 _ hmem _ List.mem_cons_self rfl
    -- the path moves from the files to come to those that are recorded
    have hmoved : ∀ material : Material,
        (keys (insertSorted file.1 material materials) ++ keys files).Perm
          (keys materials ++ keys (file :: files)) := by
      intro material
      refine ((keys_insertSorted_perm hnew).append_right _).trans ?_
      exact List.perm_middle.symm
    rw [List.foldlM_cons]
    constructor
    · intro result h
      obtain ⟨next, hnext, h⟩ := bind_eq_ok.mp h
      obtain ⟨hcopies, material, hrecorded, rfl⟩ := (copyMaterial_ok hfile).1 next hnext
      obtain ⟨hrest, hkeys, hentries⟩ :=
        (ih hfiles ((hmoved material).nodup_iff.mpr hfresh)).1 result h
      refine ⟨List.forall_mem_cons.mpr ⟨hcopies, hrest⟩, hkeys.trans (hmoved material),
        fun entry hentry => ?_⟩
      rcases hentries entry hentry with hold | hrec
      · rcases List.mem_cons.mp ((insertSorted_perm hnew).mem_iff.mp hold) with rfl | hold
        · exact .inr hrecorded
        · exact .inl hold
      · exact .inr hrec
    · intro hall
      obtain ⟨hcopies, hrest⟩ := List.forall_mem_cons.mp hall
      obtain ⟨next, hnext⟩ := (@copyMaterial_ok state materials file hfile).2 hcopies
      obtain ⟨-, material, -, rfl⟩ := (copyMaterial_ok hfile).1 next hnext
      obtain ⟨result, hresult⟩ := (ih hfiles ((hmoved material).nodup_iff.mpr hfresh)).2 hrest
      exact ⟨result, bind_eq_ok.mpr ⟨_, hnext, hresult⟩⟩

end

/-! ## The files of the loader -/

/-- A member of `files` that the loader takes for an entry of its map. -/
structure Lists (member : String × Value) (file : List String × ManifestFile) : Prop where
  path : safeRelativePath member.1 = .ok file.1
  relative : file.2.relative = member.1
  bytes : (member.2.index "bytes").asU64 = some file.2.bytes
  sha256 : (member.2.index "sha256").asStr = some file.2.sha256
  digits : (strBytes file.2.sha256).length = 64
    ∧ (strBytes file.2.sha256).all Hex.isLowerDigit = true

/-- A member that lists a new file is added in its place. -/
theorem parseManifestFile_of {member : String × Value} {file : List String × ManifestFile}
    {files : List (List String × ManifestFile)} (h : Lists member file)
    (hfresh : file.1 ∉ keys files) :
    parseManifestFile files member = .ok (insertSorted file.1 file.2 files) := by
  obtain ⟨encodedPath, entry⟩ := member
  obtain ⟨relative, ⟨written, bytes, sha256⟩⟩ := file
  obtain rfl : written = encodedPath := h.relative
  have hdigits : ¬ ((strBytes sha256).length ≠ 64 ∨ ¬ (strBytes sha256).all Hex.isLowerDigit) := by
    simp only [not_or, not_not]
    exact h.digits
  unfold parseManifestFile
  refine bind_eq_ok.mpr ⟨_, h.path, ?_⟩
  refine bind_eq_ok.mpr ⟨_, required_eq_ok.mpr h.bytes, ?_⟩
  refine bind_eq_ok.mpr ⟨_, required_eq_ok.mpr h.sha256, ?_⟩
  refine bind_eq_ok.mpr ⟨(), failIf_eq_ok.mpr hdigits, ?_⟩
  exact bind_eq_ok.mpr ⟨(), failIf_eq_ok.mpr hfresh, rfl⟩

/-- **The loop of `parse_manifest_files`** over members with different paths. -/
theorem parseFiles_of {members : List (String × Value)} {listed : List (List String × ManifestFile)}
    (h : List.Forall₂ Lists members listed) {files : List (List String × ManifestFile)}
    (hfresh : (keys files ++ keys listed).Nodup) :
    ∃ result, members.foldlM parseManifestFile files = .ok result
      ∧ result.Perm (files ++ listed) := by
  induction h generalizing files with
  | nil => exact ⟨files, rfl, by rw [List.append_nil]⟩
  | @cons member file members listed hlists hrest ih =>
    have hnew : file.1 ∉ keys files := fun hmem =>
      (List.nodup_append.mp hfresh).2.2 _ hmem _ List.mem_cons_self rfl
    -- the entry moves from the members to come to those that are read
    have hmoved : (insertSorted file.1 file.2 files ++ listed).Perm (files ++ file :: listed) :=
      ((insertSorted_perm hnew).append_right _).trans List.perm_middle.symm
    have hkeys := keys_perm hmoved
    rw [keys_append, keys_append] at hkeys
    obtain ⟨result, hresult, hperm⟩ := ih (hkeys.nodup_iff.mpr hfresh)
    rw [List.foldlM_cons]
    exact ⟨result, bind_eq_ok.mpr ⟨_, parseManifestFile_of hlists hnew, hresult⟩,
      hperm.trans hmoved⟩

/-- A regular file that gives its bytes to every reader. -/
structure Stored (file : FileAnswers) (bytes : List UInt8) : Prop where
  regular : ∃ metadata, file.symlinkMetadata = .ok metadata ∧ metadata.kind = .file
  whole : ∀ bufferBytes, 0 < bufferBytes →
    ∃ chunks, Whole file bufferBytes chunks ∧ chunks.flatten = bytes
  readWhole : file.readWhole = .ok bytes

/-- A stored file is a regular one, -/
theorem Stored.material {file : FileAnswers} {bytes : List UInt8} (h : Stored file bytes)
    (path : String) : ensureRegularMaterial path file = .ok () := by
  obtain ⟨metadata, hmetadata, hkind⟩ := h.regular
  have hlink : ¬ metadata.kind = .symlink := by
    rw [hkind]
    decide
  refine bind_eq_ok.mpr ⟨metadata, call_eq_ok.mpr hmetadata, ?_⟩
  refine bind_eq_ok.mpr ⟨(), failIf_eq_ok.mpr hlink, ?_⟩
  exact failIf_eq_ok.mpr (not_not.mpr hkind)

/-- and has the length of its bytes. -/
theorem Stored.metadata {file : FileAnswers} {bytes : List UInt8} (h : Stored file bytes) :
    ∃ metadata, file.metadata = .ok metadata ∧ metadata.len.toNat = bytes.length := by
  obtain ⟨chunks, ⟨⟨metadata, hmetadata, -, hlength⟩, -⟩, rfl⟩ := h.whole 1 Nat.one_pos
  exact ⟨metadata, hmetadata, hlength⟩

/-- **A file that is stored as it was recorded** passes, in both modes. -/
theorem verifyManifestFile_of {tree : Tree} {listed : List String × ManifestFile}
    {bytes : List UInt8} (h : Stored (tree.file listed.1) bytes) (hbits : bytes.length < 2 ^ 61)
    (hbytes : listed.2.bytes = .ofNat bytes.length)
    (hsha : listed.2.sha256 = toHex (Fips180.digest bytes)) (verification : VerificationMode) :
    verifyManifestFile tree verification listed = .ok () := by
  obtain ⟨key, expected⟩ := listed
  obtain ⟨chunks, hwhole, rfl⟩ := h.whole hashBufferBytes (by decide)
  obtain ⟨metadata, hmetadata, -, hlength⟩ := hwhole.regular
  obtain ⟨reads, hreads, hchunks⟩ := hwhole.read
  have hsame : metadata.len = expected.bytes := by
    rw [show expected.bytes = _ from hbytes, ← hlength, UInt64.ofNat_toNat]
  have hdigest := (digestReader_eq_ok (by decide)).mpr ⟨chunks, hchunks, hbits, rfl, rfl⟩
  unfold verifyManifestFile
  refine bind_eq_ok.mpr ⟨(), h.material _, ?_⟩
  refine bind_eq_ok.mpr ⟨metadata, call_eq_ok.mpr hmetadata, ?_⟩
  refine bind_eq_ok.mpr ⟨(), failIf_eq_ok.mpr (not_not.mpr hsame), ?_⟩
  cases verification with
  | contractsOnly => rfl
  | full =>
    rw [if_pos rfl]
    refine bind_eq_ok.mpr ⟨reads, call_eq_ok.mpr hreads, ?_⟩
    refine bind_eq_ok.mpr ⟨(_, _), withContext_eq_ok.mpr (hashed_eq_ok.mpr hdigest), ?_⟩
    refine bind_eq_ok.mpr ⟨(), failIf_eq_ok.mpr (not_not.mpr hlength.symm), ?_⟩
    exact failIf_eq_ok.mpr (not_not.mpr hsha.symm)

/-- The manifest is read where its text is not too long. -/
theorem readManifest_of {fromSlice : List UInt8 → Except String Value} {path : String}
    {file : FileAnswers} {text : List UInt8} {manifest : Value} (h : Stored file text)
    (hparse : fromSlice text = .ok manifest) :
    readManifest fromSlice path file = if text.length ≤ 2 ^ 20 then .ok manifest
      else .error (.error [[.text "manifest exceeds ", .number manifestMaxBytes.toNat,
        .text s!" byte limit: {path}"]]) := by
  obtain ⟨metadata, hmetadata, hlength⟩ := h.metadata
  have hlimit : manifestMaxBytes < metadata.len ↔ ¬ text.length ≤ 2 ^ 20 := by
    rw [UInt64.lt_iff_toNat_lt, hlength, Nat.not_le]
    exact Iff.rfl
  unfold readManifest
  rw [h.material, ok_bind, hmetadata, h.readWhole]
  show (failIf (manifestMaxBytes < metadata.len) _ >>= fun _ =>
    withContext (foreign (fromSlice text)) _) = _
  rw [call_eq_ok.mpr hparse]
  unfold failIf
  by_cases hshort : text.length ≤ 2 ^ 20
  · rw [if_neg (fun hlong => hlimit.mp hlong hshort), if_pos hshort]
    rfl
  · rw [if_pos (hlimit.mpr hshort), if_neg hshort]
    rfl

/-! ### The files that are packed -/

/-- What the loader reads of a material. -/
def listedOf (entry : String × Material) : List String × ManifestFile :=
  (names entry.1, ⟨entry.1, entry.2.record.bytes, entry.2.record.sha256⟩)

/-- The packer's own paths are safe, -/
theorem safe_packedFiles : ∀ f ∈ packedFiles, safeRelativePath f.1 = .ok (names f.1) := by
  decide

/-- and all different. -/
theorem nodup_packedFiles : ((keys packedFiles).map names).Nodup := by decide

/-- A record lists its file. -/
theorem Recorded.lists {state : PackState} {entry : String × Material}
    (h : Recorded state entry) : Lists (entry.1, entry.2.record.asJson) (listedOf entry) := by
  obtain ⟨role, hmem, hrecord⟩ := h.record
  have hsha : entry.2.record.sha256 = toHex (Fips180.digest entry.2.bytes) := by rw [hrecord]; rfl
  exact {
    path := safe_packedFiles _ hmem
    relative := rfl
    bytes := rfl
    sha256 := rfl
    digits := by
      show (strBytes entry.2.record.sha256).length = 64
        ∧ (strBytes entry.2.record.sha256).all Hex.isLowerDigit = true
      rw [hsha]
      exact digits_toHex (length_digest _) }

/-! ## The whole manifest -/

/-- An index accepted for a contract: the entries of the manifest assign the ranges that the
descriptors have, tensor for tensor, and these tile the payload. -/
structure Exact (manifest : Value) (pointer : List String) (contract : TensorContract)
    (descriptors : List (String × TensorDescriptor)) : Prop where
  names : keys descriptors = keys contract.tensors
  assigned : ∃ entries,
    (manifest.pointer (pointer ++ ["tensors"])).bind Value.asArray = some entries
    ∧ entries.map entrySpan = descriptors.map fun d => some d.2.span
  /-- The first range begins at zero, each next one at the end of the one before. -/
  tiled : Tiled 0 (descriptors.map (·.2.span)) contract.payloadBytes.toNat
  apart : (descriptors.map (·.2.span)).Pairwise fun a b => a.stop ≤ b.first
  covers : ∀ p, (∃ span ∈ descriptors.map (·.2.span), span.first ≤ p ∧ p < span.stop)
    ↔ p < contract.payloadBytes.toNat

/-- An accepted index is exact. -/
theorem exact_of_validated {manifest : Value} {pointer : List String} {contract : TensorContract}
    {descriptors : List (String × TensorDescriptor)}
    (h : validateManifestTensorIndex manifest pointer contract = .ok descriptors) :
    Exact manifest pointer contract descriptors := by
  obtain ⟨entries, hentries, hread⟩ := validateManifestTensorIndex_ok.mp h
  have htiled : Tiled 0 (descriptors.map (·.2.span)) contract.payloadBytes.toNat := hread.tiled
  exact {
    names := hread.names
    assigned := ⟨entries, hentries, hread.spans⟩
    tiled := htiled
    apart := htiled.ordered
    covers := fun p => (htiled.covers p).trans (by simp) }

section
variable {voice : TensorContract} {decoder : CodecWeightDtype → TensorContract} {state : PackState}
  {packed : Packed}

/-- The steps of the packer that succeed, and what they give. -/
structure Steps (voice : TensorContract) (decoder : CodecWeightDtype → TensorContract)
    (state : PackState) (revision : String) (copied : List (String × Material))
    (voiceIndex decoderIndex : List Value) (codec source : List (List UInt8)) : Prop where
  revision_eq : snapshotRevision state.fileName = .ok revision
  copied_eq : copiedFiles.foldlM (copyMaterial state) [] = .ok copied
  voice_eq : buildTensorIndex state.voiceMapping voice = .ok voiceIndex
  decoder_eq : buildTensorIndex state.packedCodecMapping (decoder state.codecDtype)
    = .ok decoderIndex
  codec_whole : Whole state.packedCodec state.copyBufferBytes codec
  codec_lt : codec.flatten.length < 2 ^ 61
  source_whole : Whole (state.source.file (names codecPath)) state.copyBufferBytes source
  source_lt : source.flatten.length < 2 ^ 61

/-- The files of the manifest, the checkpoint of the decoder last. -/
def withCodec (copied : List (String × Material)) (bytes : List UInt8) : List (String × Material) :=
  insertSorted codecPath ⟨recordOf "speech-decoder-weights" bytes, bytes⟩ copied

/-- What the packer writes of its parts. -/
def packedOf (voice : TensorContract) (decoder : CodecWeightDtype → TensorContract)
    (state : PackState) (revision : String) (copied : List (String × Material))
    (voiceIndex decoderIndex : List Value) (codec source : List (List UInt8)) : Packed where
  manifest := buildManifest revision state.codecDtype {
    voice := voice
    sourceTokenizer := state.tokenizerContract
    decoder := decoder state.codecDtype
    sourceCodecSha256 := toHex (Fips180.digest source.flatten)
    records := (withCodec copied codec.flatten).map fun entry => (entry.1, entry.2.record)
    voiceTensorIndex := voiceIndex
    decoderTensorIndex := decoderIndex }
  materials := withCodec copied codec.flatten

/-- **The packer.** -/
theorem packManifest_ok : packManifest voice decoder state = .ok packed
    ↔ 0 < state.copyBufferBytes ∧ ∃ revision copied voiceIndex decoderIndex codec source,
      Steps voice decoder state revision copied voiceIndex decoderIndex codec source
        ∧ packed = packedOf voice decoder state revision copied voiceIndex decoderIndex codec
          source := by
  -- the checkpoint of the language model is copied behind the other files
  have hcopies : ∀ copied, copiedFiles.foldlM (copyMaterial state) [] = .ok copied
      ↔ ∃ materials, materialFiles.foldlM (copyMaterial state) [] = .ok materials
        ∧ copyMaterial state materials (voicePath, "voice-design-weights") = .ok copied := by
    intro copied
    rw [copiedFiles, List.foldlM_append, bind_eq_ok]
    refine exists_congr fun materials => and_congr_right fun _ => ?_
    rw [List.foldlM_cons, bind_eq_ok]
    constructor
    · rintro ⟨last, hlast, h⟩
      cases h
      exact hlast
    · intro h
      exact ⟨copied, h, rfl⟩
  unfold packManifest
  constructor
  · intro h
    obtain ⟨_, hbuffer, h⟩ := bind_eq_ok.mp h
    obtain ⟨revision, hrevision, h⟩ := bind_eq_ok.mp h
    obtain ⟨materials, hmaterials, h⟩ := bind_eq_ok.mp h
    obtain ⟨copied, hcopied, h⟩ := bind_eq_ok.mp h
    obtain ⟨voiceIndex, hvoice, h⟩ := bind_eq_ok.mp h
    obtain ⟨decoderIndex, hdecoder, h⟩ := bind_eq_ok.mp h
    obtain ⟨codecRecord, hcodec, h⟩ := bind_eq_ok.mp h
    obtain ⟨sourceCodec, hsource, h⟩ := bind_eq_ok.mp h
    have hpos : 0 < state.copyBufferBytes := Nat.pos_of_ne_zero (failIf_eq_ok.mp hbuffer)
    obtain ⟨codec, hcodecWhole, hcodecBits, rfl⟩ := (hashRegularFile_ok hpos).mp hcodec
    obtain ⟨source, hsourceWhole, hsourceBits, rfl⟩ := (hashRegularFile_ok hpos).mp hsource
    rw [hcodecWhole.contents_eq] at h
    exact ⟨hpos, revision, copied, voiceIndex, decoderIndex, codec, source,
      ⟨hrevision, (hcopies copied).mpr ⟨materials, hmaterials, hcopied⟩, hvoice, hdecoder,
        hcodecWhole, hcodecBits, hsourceWhole, hsourceBits⟩, (Except.ok.inj h).symm⟩
  · rintro ⟨hpos, revision, copied, voiceIndex, decoderIndex, codec, source, h, rfl⟩
    obtain ⟨materials, hmaterials, hcopied⟩ := (hcopies copied).mp h.copied_eq
    refine bind_eq_ok.mpr ⟨(), failIf_eq_ok.mpr hpos.ne', ?_⟩
    refine bind_eq_ok.mpr ⟨revision, h.revision_eq, ?_⟩
    refine bind_eq_ok.mpr ⟨materials, hmaterials, ?_⟩
    refine bind_eq_ok.mpr ⟨copied, hcopied, ?_⟩
    refine bind_eq_ok.mpr ⟨voiceIndex, h.voice_eq, ?_⟩
    refine bind_eq_ok.mpr ⟨decoderIndex, h.decoder_eq, ?_⟩
    refine bind_eq_ok.mpr ⟨_, (hashRegularFile_ok hpos).mpr ⟨codec, h.codec_whole, h.codec_lt, rfl⟩, ?_⟩
    refine bind_eq_ok.mpr ⟨_, (hashRegularFile_ok hpos).mpr ⟨source, h.source_whole, h.source_lt, rfl⟩,
      ?_⟩
    rw [h.codec_whole.contents_eq]
    rfl

/-- The files that are copied have different paths, -/
theorem nodup_copiedFiles : (keys ([] : List (String × Material)) ++ keys copiedFiles).Nodup := by
  decide

/-- and none is the codec's. -/
theorem codecPath_notMem : codecPath ∉ keys copiedFiles := by decide

/-- The files of a packed manifest. -/
theorem Steps.materials {revision : String} {copied : List (String × Material)}
    {voiceIndex decoderIndex : List Value} {codec source : List (List UInt8)}
    (h : Steps voice decoder state revision copied voiceIndex decoderIndex codec source) :
    (keys (withCodec copied codec.flatten)).Perm (keys packedFiles)
      ∧ ∀ entry ∈ withCodec copied codec.flatten, Recorded state entry := by
  obtain ⟨-, hkeys, hentries⟩ := (copyMaterials_ok (fun _ hf => hf) nodup_copiedFiles).1 copied
    h.copied_eq
  have hnew : codecPath ∉ keys copied := fun hmem =>
    codecPath_notMem (hkeys.mem_iff.mp hmem)
  constructor
  · refine (keys_insertSorted_perm hnew).trans ((hkeys.cons codecPath).trans ?_)
    exact (List.perm_append_singleton codecPath (keys copiedFiles)).symm
  · intro entry hentry
    rcases List.mem_cons.mp ((insertSorted_perm hnew).mem_iff.mp hentry) with rfl | hold
    · refine ⟨?_, h.codec_lt, _, List.mem_append_right _ List.mem_cons_self, rfl⟩
      rw [PackState.stored, if_pos rfl, h.codec_whole.contents_eq]
    · exact (hentries entry hold).resolve_left List.not_mem_nil

/-- The packer makes a manifest of a commit, of files that can be read and written, and of
checkpoints that can be packed. -/
theorem exists_manifest_iff : (∃ packed, packManifest voice decoder state = .ok packed)
      ↔ 0 < state.copyBufferBytes ∧ (∃ revision, snapshotRevision state.fileName = .ok revision)
        ∧ (∀ f ∈ copiedFiles, Copies state f.1)
        ∧ (∀ tensor ∈ voice.tensors, ∃ view, Packable state.voiceMapping tensor view)
        ∧ (∀ tensor ∈ (decoder state.codecDtype).tensors,
            ∃ view, Packable state.packedCodecMapping tensor view)
        ∧ Hashes state.packedCodec state.copyBufferBytes
        ∧ Hashes (state.source.file (names codecPath)) state.copyBufferBytes := by
  have hcopies := @copyMaterials_ok state [] copiedFiles (fun _ hf => hf) nodup_copiedFiles
  rw [← exists_index_iff, ← exists_index_iff]
  constructor
  · rintro ⟨packed, h⟩
    obtain ⟨hpos, revision, copied, voiceIndex, decoderIndex, codec, source, h, -⟩ :=
      packManifest_ok.mp h
    exact ⟨hpos, ⟨revision, h.revision_eq⟩, (hcopies.1 copied h.copied_eq).1, ⟨voiceIndex, h.voice_eq⟩,
      ⟨decoderIndex, h.decoder_eq⟩, ⟨codec, h.codec_whole, h.codec_lt⟩, ⟨source, h.source_whole, h.source_lt⟩⟩
  · rintro ⟨hpos, ⟨revision, hrevision⟩, hall, ⟨voiceIndex, hvoice⟩, ⟨decoderIndex, hdecoder⟩,
      ⟨codec, hcodec, hcodecBits⟩, ⟨source, hsource, hsourceBits⟩⟩
    obtain ⟨copied, hcopied⟩ := hcopies.2 hall
    exact ⟨_, packManifest_ok.mpr ⟨hpos, revision, copied, voiceIndex, decoderIndex, codec, source,
      ⟨hrevision, hcopied, hvoice, hdecoder, hcodec, hcodecBits, hsource, hsourceBits⟩, rfl⟩⟩

end

section
variable {state : PackState} {materials : List (String × Material)}

/-- **The files of a packed manifest** are read back from it. -/
theorem parseManifestFiles_packed {manifest : Value}
    (hindex : manifest.index "files"
      = .object (materials.map fun entry => (entry.1, entry.2.record.asJson)))
    (hkeys : (keys materials).Perm (keys packedFiles)) (hrec : ∀ entry ∈ materials, Recorded state entry) :
    ∃ files, parseManifestFiles manifest = .ok files ∧ files.Perm (materials.map listedOf) := by
  have hlists : List.Forall₂ Lists (materials.map fun entry => (entry.1, entry.2.record.asJson))
      (materials.map listedOf) := by
    rw [List.forall₂_map_left_iff, List.forall₂_map_right_iff, List.forall₂_same]
    exact fun entry hentry => (hrec entry hentry).lists
  have hnames : keys (materials.map listedOf) = (keys materials).map names := by
    simp only [keys, List.map_map]
    rfl
  have hnodup : (keys ([] : List (List String × ManifestFile)) ++ keys (materials.map listedOf)).Nodup := by
    rw [keys_nil, List.nil_append, hnames]
    exact (hkeys.map names).nodup_iff.mpr nodup_packedFiles
  obtain ⟨files, hfiles, hperm⟩ := parseFiles_of hlists hnodup
  rw [List.nil_append] at hperm
  -- the two checkpoints are among the paths
  have hrequired : ∀ path ∈ keys packedFiles, names path ∈ keys files := by
    intro path hpath
    rw [(keys_perm hperm).mem_iff, hnames]
    exact List.mem_map_of_mem (hkeys.mem_iff.mpr hpath)
  refine ⟨files, ?_, hperm⟩
  unfold parseManifestFiles
  rw [hindex]
  refine bind_eq_ok.mpr ⟨_, required_eq_ok.mpr rfl, ?_⟩
  refine bind_eq_ok.mpr ⟨files, hfiles, ?_⟩
  refine bind_eq_ok.mpr ⟨(), forM_eq_ok.mpr fun path hpath => failIf_eq_ok.mpr (not_not.mpr ?_), rfl⟩
  have hpacked : ∀ path ∈ [Loader.voicePath, Loader.codecPath], path ∈ keys packedFiles := by decide
  exact hrequired path (hpacked path hpath)

/-- **Files that are stored as they were packed** are verified, in both modes. -/
theorem verifyManifestFiles_packed {tree : Tree} {files : List (List String × ManifestFile)}
    (hfiles : files.Perm (materials.map listedOf)) (hrec : ∀ entry ∈ materials, Recorded state entry)
    (hstored : ∀ f ∈ packedFiles, Stored (tree.file (names f.1)) (state.stored f.1))
    (verification : VerificationMode) : verifyManifestFiles tree files verification = .ok () := by
  refine forM_eq_ok.mpr fun listed hlisted => ?_
  obtain ⟨entry, hentry, rfl⟩ := List.mem_map.mp (hfiles.mem_iff.mp hlisted)
  obtain ⟨hbytes, hbits, role, hmem, hrecord⟩ := hrec entry hentry
  have hfile : Stored (tree.file (names entry.1)) entry.2.bytes := hbytes ▸ hstored _ hmem
  refine verifyManifestFile_of hfile hbits ?_ ?_ verification
  · show entry.2.record.bytes = _
    rw [hrecord]
    rfl
  · show entry.2.record.sha256 = _
    rw [hrecord]
    rfl

end

/-- The manifest lists every file with its record. -/
theorem index_files (revision : String) (dtype : CodecWeightDtype) (input : ManifestInput) :
    (buildManifest revision dtype input).index "files"
      = .object (input.records.map fun (path, record) => (path, record.asJson)) := by
  simp only [buildManifest, Value.index_object, Value.assoc_self, Value.assoc_of_ne, ne_eq,
    String.reduceEq, not_false_eq_true, Option.getD_some]

/-- What the loader answers to a manifest that is longer than its limit. -/
def tooLong (tree : Tree) : Failure :=
  let path := join tree.root "manifest.json"
  .error [[.text "manifest exceeds ", .number manifestMaxBytes.toNat,
    .text s!" byte limit: {path}"]]

/-- The loader's answer to what the packer wrote. -/
structure Opens (voice : TensorContract) (decoder : CodecWeightDtype → TensorContract)
    (state : PackState) (verification : VerificationMode) (opened : Opened) : Prop where
  revision : snapshotRevision state.fileName = .ok opened.revision
  verification_eq : opened.verification = verification
  decoderDtype : opened.decoderDtype = state.codecDtype
  voice : List.Forall₂ (Faithful state.voiceMapping) voice.tensors opened.voiceDescriptors
  decoder : List.Forall₂ (Faithful state.packedCodecMapping) (decoder state.codecDtype).tensors
    opened.decoderDescriptors

section
variable {voice : TensorContract} {decoder : CodecWeightDtype → TensorContract} {state : PackState}
  {revision : String} {copied : List (String × Material)} {voiceIndex decoderIndex : List Value}
  {codec source : List (List UInt8)} {fromSlice : List UInt8 → Except String Value} {tree : Tree}
  {text : List UInt8}

/-- **What the packer writes is opened**, where its text is not too long. -/
theorem Steps.opens
    (h : Steps voice decoder state revision copied voiceIndex decoderIndex codec source)
    (hparse : fromSlice text = .ok
      (packedOf voice decoder state revision copied voiceIndex decoderIndex codec source).manifest)
    (htext : Stored (tree.file (names "manifest.json")) text)
    (hstored : ∀ f ∈ packedFiles, Stored (tree.file (names f.1)) (state.stored f.1))
    (verification : VerificationMode) : ∃ opened, Opens voice decoder state verification opened
      ∧ openManifest fromSlice tree verification voice decoder
        = if text.length ≤ 2 ^ 20 then .ok opened else .error (tooLong tree) := by
  obtain ⟨hlength, hlower⟩ := snapshotRevision_ok h.revision_eq
  obtain ⟨voiceDescriptors, hvoiceRead, hvoiceFaithful⟩ :=
    (buildTensorIndex_ok.mp h.voice_eq).described
  obtain ⟨decoderDescriptors, hdecoderRead, hdecoderFaithful⟩ :=
    (buildTensorIndex_ok.mp h.decoder_eq).described
  obtain ⟨hkeys, hrec⟩ := h.materials
  refine ⟨⟨revision, verification, state.codecDtype, voiceDescriptors, decoderDescriptors⟩,
    ⟨h.revision_eq, rfl, rfl, hvoiceFaithful, hdecoderFaithful⟩, ?_⟩
  unfold openManifest
  rw [readManifest_of htext hparse]
  by_cases hshort : text.length ≤ 2 ^ 20
  · rw [if_pos hshort, if_pos hshort, ok_bind]
    -- every check of the loader, in its order
    have hparts := fun input => @pointer_weights revision state.codecDtype input
    have hindex : (packedOf voice decoder state revision copied voiceIndex decoderIndex codec
        source).manifest.index "files" = .object
          ((withCodec copied codec.flatten).map fun entry => (entry.1, entry.2.record.asJson)) := by
      rw [packedOf, index_files, List.map_map]
      rfl
    obtain ⟨files, hfiles, hperm⟩ := parseManifestFiles_packed hindex hkeys hrec
    refine bind_eq_ok.mpr ⟨(), identity_buildManifest hlength hlower, ?_⟩
    refine bind_eq_ok.mpr ⟨files, hfiles, ?_⟩
    refine bind_eq_ok.mpr ⟨(), verifyManifestFiles_packed hperm hrec hstored verification, ?_⟩
    refine bind_eq_ok.mpr ⟨_, required_eq_ok.mpr (hparts _).2.2.2.1, ?_⟩
    refine bind_eq_ok.mpr ⟨_, parse_label state.codecDtype, ?_⟩
    refine bind_eq_ok.mpr ⟨(), expectManifestString_ok.mpr (hparts _).1, ?_⟩
    refine bind_eq_ok.mpr ⟨(), expectManifestString_ok.mpr (hparts _).2.1, ?_⟩
    refine bind_eq_ok.mpr ⟨(), expectManifestString_ok.mpr (hparts _).2.2.1, ?_⟩
    refine bind_eq_ok.mpr ⟨(), expectManifestBool_ok.mpr (hparts _).2.2.2.2, ?_⟩
    refine bind_eq_ok.mpr ⟨(), part_voice.validate, ?_⟩
    refine bind_eq_ok.mpr ⟨(), part_decoder.validate, ?_⟩
    refine bind_eq_ok.mpr ⟨_, validateManifestTensorIndex_ok.mpr
      ⟨voiceIndex, part_voice.tensors, hvoiceRead⟩, ?_⟩
    refine bind_eq_ok.mpr ⟨_, validateManifestTensorIndex_ok.mpr
      ⟨decoderIndex, part_decoder.tensors, hdecoderRead⟩, ?_⟩
    exact bind_eq_ok.mpr ⟨revision, required_eq_ok.mpr pointer_buildManifest.2.2.2.1, rfl⟩
  · rw [if_neg hshort, if_neg hshort]
    rfl

end

/-- A file of two bytes that are read one at a time. -/
def smallFile : FileAnswers where
  symlinkMetadata := .ok ⟨.file, 2⟩
  metadata := .ok ⟨.file, 2⟩
  opened bufferBytes := .ok {
    answers := if bufferBytes = 0 then [] else [.ok [1], .ok [2], .ok []]
    fits := by
      intro bytes hbytes
      split at hbytes
      · cases hbytes
      · simp only [List.mem_cons, Except.ok.injEq, List.not_mem_nil, or_false] at hbytes
        rcases hbytes with rfl | rfl | rfl <;> simp only [List.length_cons, List.length_nil] <;>
          omega }
  readWhole := .ok [1, 2]

/-- It is read in two parts, -/
theorem whole_smallFile {bufferBytes : Nat} (h : 0 < bufferBytes) :
    Whole smallFile bufferBytes [[1], [2]] where
  regular := ⟨_, rfl, rfl, rfl⟩
  read := by
    refine ⟨_, rfl, ?_⟩
    show readChunks (if bufferBytes = 0 then [] else _) = _
    rw [if_neg (Nat.ne_of_gt h)]
    rfl

/-- and holds both bytes. -/
theorem stored_smallFile : Stored smallFile [1, 2] where
  regular := ⟨_, rfl, rfl⟩
  whole _ h := ⟨_, whole_smallFile h, rfl⟩
  readWhole := rfl

/-- Every path leads to it. -/
def smallTree : Tree where
  root := "/artifact"
  file _ := smallFile

/-- A part with one tensor, -/
def smallContract : TensorContract where
  label := "small"
  tensors := [("decoder.small", ⟨.bf16, [2, 3], 6, 12⟩)]
  tensorCount := 1
  parameterCount := 6
  payloadBytes := 12
  sorted := List.pairwise_singleton _ _
  tensorCount_eq := rfl
  parameterCount_eq := rfl
  payloadBytes_eq := rfl

/-- the tensor, -/
def smallView : TensorView where
  dtype := .bf16
  shape := [2, 3]
  data := List.replicate 12 0
  offset := some 8
  data_lt := by decide

/-- the checkpoint it is in -/
def smallMapping : Mapping where
  len := 20
  deserialize := .ok fun _ => .ok smallView
  advise _ _ := .ok ()

/-- and its place there. -/
theorem packable_small : Packable smallMapping ("decoder.small", ⟨.bf16, [2, 3], 6, 12⟩) smallView where
  found := rfl
  dtype := rfl
  shape := rfl
  bytes := rfl
  digestible := by decide
  released := ⟨8, rfl, rfl⟩

/-- The packer has copied its files from it. -/
def smallState : PackState where
  fileName := some "5ecdb67327fd37bb2e042aab12ff7391903235d3"
  codecDtype := .bf16
  copyBufferBytes := 4
  source := smallTree
  staging := "/artifact.staging"
  destination _ := ⟨.ok (), .ok (), fun _ => .ok (), .ok (), .ok ()⟩
  voiceMapping := smallMapping
  packedCodecMapping := smallMapping
  packedCodec := smallFile
  tokenizerContract := smallContract

/-- Each of them holds the two bytes. -/
theorem stored_smallState (path : String) : smallState.stored path = [1, 2] := by
  rw [PackState.stored]
  split <;> exact (whole_smallFile (by decide)).contents_eq

end Qwen3Tts.Artifact
