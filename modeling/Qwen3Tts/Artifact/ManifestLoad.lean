import Qwen3Tts.Artifact.Manifest
import Qwen3Tts.Lib.Spans

/-!
# Artifact — a packed manifest is loaded

What one turn of each loop does is said once: `indexTensor_ok` for the packer, `readTensor_ok` for
the loader. `Indexed` lies between the two sides: the entries that stand in an index from an arena
offset on.
-/

namespace Qwen3Tts.Artifact

open Qwen3Tts.Lib Loader

/-! ## What a checkpoint holds -/

/-- The tensor of a name. -/
def Mapping.tensor (mapping : Mapping) (name : String) : Except String TensorView :=
  mapping.deserialize >>= fun tensors => tensors name

/-- A tensor that the packer can put into an index: the checkpoint has it as the contract says, and
its pages can be given back. -/
structure Packable (mapping : Mapping) (tensor : String × TensorSpec) (view : TensorView) :
    Prop where
  found : mapping.tensor tensor.1 = .ok view
  dtype : view.dtype = tensor.2.dtype
  shape : view.shape = tensor.2.shape
  bytes : view.data.length = tensor.2.bytes.toNat
  digestible : view.data.length < 2 ^ 61
  released : ∃ offset, view.offset = some offset
    ∧ releaseMappingRange mapping offset view.data.length tensor.1 = .ok ()

/-- A digest has 32 bytes. -/
theorem length_digest (message : List UInt8) : (Fips180.digest message).length = 32 := by
  rw [Fips180.digest, Fips180.Words.toBytes, List.length_flatMap]
  simp only [Sha256.length_toBeBytes, List.map_cons, List.map_nil]
  rfl

/-! ## The packer -/

section
variable {mapping : Mapping} {label : String}

/-- The entry of a tensor at an arena offset. -/
def entryOf (tensor : String × TensorSpec) (view : TensorView) (offset : UInt64) : Value :=
  indexEntry tensor.1 tensor.2 offset (toHex (Fips180.digest view.data))

/-- **One turn of the packer's loop.** -/
theorem indexTensor_ok {offset : UInt64} {index : List Value} {tensor : String × TensorSpec}
    {next : UInt64 × List Value} : indexTensor mapping label (offset, index) tensor = .ok next
      ↔ ∃ view, Packable mapping tensor view ∧ offset.toNat + tensor.2.bytes.toNat < 2 ^ 64
        ∧ next = (offset + tensor.2.bytes, index ++ [entryOf tensor view offset]) := by
  obtain ⟨name, spec⟩ := tensor
  unfold indexTensor
  dsimp only
  constructor
  · intro h
    obtain ⟨tensors, htensors, h⟩ := bind_eq_ok.mp h
    obtain ⟨view, hview, h⟩ := bind_eq_ok.mp h
    obtain ⟨_, hsame, h⟩ := bind_eq_ok.mp h
    obtain ⟨first, hfirst, h⟩ := bind_eq_ok.mp h
    obtain ⟨digest, hdigest, h⟩ := bind_eq_ok.mp h
    obtain ⟨_, hreleased, h⟩ := bind_eq_ok.mp h
    obtain ⟨sum, hsum, h⟩ := bind_eq_ok.mp h
    -- the two lookups of the loop are the one of `Mapping.tensor`
    have hfound : mapping.tensor name = .ok view := by
      apply bind_eq_ok.mpr
      exact ⟨tensors, foreign_eq_ok.mp (withContext_eq_ok.mp htensors),
        foreign_eq_ok.mp (withContext_eq_ok.mp hview)⟩
    have hmatch := failIf_eq_ok.mp hsame
    simp only [not_or, not_not] at hmatch
    obtain ⟨hbits, rfl⟩ := digestBytes_eq_ok.mp (unwrapped_eq_ok.mp hdigest)
    obtain ⟨hfits, rfl⟩ := checkedAdd_eq_ok.mp (foreign_eq_ok.mp hsum)
    exact ⟨view, ⟨hfound, hmatch.1, hmatch.2.1, hmatch.2.2, hbits,
      first, required_eq_ok.mp hfirst, hreleased⟩, hfits, (Except.ok.inj h).symm⟩
  · rintro ⟨view, hp, hfits, rfl⟩
    obtain ⟨tensors, htensors, hview⟩ := bind_eq_ok.mp hp.found
    obtain ⟨first, hfirst, hreleased⟩ := hp.released
    have hdigest := digestBytes_eq_ok.mpr ⟨hp.digestible, rfl⟩
    have hsame : ¬ (view.dtype ≠ spec.dtype ∨ view.shape ≠ spec.shape
        ∨ view.data.length ≠ spec.bytes.toNat) := by
      simp only [not_or, not_not]
      exact ⟨hp.dtype, hp.shape, hp.bytes⟩
    have hsum : checkedAdd offset spec.bytes "tensor arena offset overflowed"
        = .ok (offset + spec.bytes) := checkedAdd_eq_ok.mpr ⟨hfits, rfl⟩
    refine bind_eq_ok.mpr ⟨tensors, withContext_eq_ok.mpr (foreign_eq_ok.mpr htensors), ?_⟩
    refine bind_eq_ok.mpr ⟨view, withContext_eq_ok.mpr (foreign_eq_ok.mpr hview), ?_⟩
    refine bind_eq_ok.mpr ⟨(), failIf_eq_ok.mpr hsame, ?_⟩
    refine bind_eq_ok.mpr ⟨first, required_eq_ok.mpr hfirst, ?_⟩
    refine bind_eq_ok.mpr ⟨_, unwrapped_eq_ok.mpr hdigest, ?_⟩
    refine bind_eq_ok.mpr ⟨(), hreleased, ?_⟩
    exact bind_eq_ok.mpr ⟨_, foreign_eq_ok.mpr hsum, rfl⟩

/-- The entries of an index for some tensors, from one arena offset to another. -/
inductive Indexed (mapping : Mapping) :
    UInt64 → List (String × TensorSpec) → List Value → UInt64 → Prop where
  | nil {offset : UInt64} : Indexed mapping offset [] [] offset
  | cons {offset last : UInt64} {tensor : String × TensorSpec} {view : TensorView}
      {tensors : List (String × TensorSpec)} {index : List Value}
      (packable : Packable mapping tensor view)
      (fits : offset.toNat + tensor.2.bytes.toNat < 2 ^ 64)
      (rest : Indexed mapping (offset + tensor.2.bytes) tensors index last) :
      Indexed mapping offset (tensor :: tensors) (entryOf tensor view offset :: index) last

/-- **The packer's loop.** -/
theorem indexTensors_ok {tensors : List (String × TensorSpec)} {offset last : UInt64}
    {index result : List Value} :
    tensors.foldlM (indexTensor mapping label) (offset, index) = .ok (last, result)
      ↔ ∃ entries, Indexed mapping offset tensors entries last ∧ result = index ++ entries := by
  induction tensors generalizing offset index with
  | nil =>
    rw [List.foldlM_nil, pure_eq_ok]
    constructor
    · intro h
      cases h
      exact ⟨[], .nil, (List.append_nil _).symm⟩
    · rintro ⟨entries, hentries, rfl⟩
      cases hentries
      rw [List.append_nil]
  | cons tensor tensors ih =>
    rw [List.foldlM_cons, bind_eq_ok]
    constructor
    · rintro ⟨next, hnext, h⟩
      obtain ⟨view, hpackable, hfits, rfl⟩ := indexTensor_ok.mp hnext
      obtain ⟨entries, hentries, rfl⟩ := ih.mp h
      exact ⟨_, .cons hpackable hfits hentries, List.append_assoc _ _ _⟩
    · rintro ⟨entries, hentries, rfl⟩
      cases hentries with
      | cons hpackable hfits hrest =>
        refine ⟨_, indexTensor_ok.mpr ⟨_, hpackable, hfits, rfl⟩, ?_⟩
        apply ih.mpr
        exact ⟨_, hrest, (List.append_assoc index [_] _).symm⟩

/-- The index is built when every tensor can be packed. -/
theorem buildTensorIndex_ok {contract : TensorContract} {index : List Value} :
    buildTensorIndex mapping contract = .ok index
      ↔ Indexed mapping 0 contract.tensors index contract.payloadBytes := by
  unfold buildTensorIndex
  constructor
  · intro h
    obtain ⟨⟨last, result⟩, hloop, h⟩ := bind_eq_ok.mp h
    obtain ⟨_, hlast, h⟩ := bind_eq_ok.mp h
    cases h
    obtain ⟨entries, hentries, rfl⟩ := indexTensors_ok.mp hloop
    rwa [← not_not.mp (failIf_eq_ok.mp hlast)]
  · intro h
    refine bind_eq_ok.mpr ⟨_, indexTensors_ok.mpr ⟨index, h, rfl⟩, ?_⟩
    exact bind_eq_ok.mpr ⟨(), failIf_eq_ok.mpr (not_not.mpr rfl), rfl⟩

end

/-- Tensors that can be packed fill an index, where their sizes end at the total. -/
theorem exists_indexed {mapping : Mapping} {tensors : List (String × TensorSpec)}
    {offset last : UInt64} (hall : ∀ tensor ∈ tensors, ∃ view, Packable mapping tensor view)
    (htotal : offset.toNat + (tensors.map (·.2.bytes.toNat)).sum = last.toNat) :
    ∃ index, Indexed mapping offset tensors index last := by
  induction tensors generalizing offset with
  | nil =>
    obtain rfl := UInt64.toNat_inj.mp htotal
    exact ⟨[], .nil⟩
  | cons tensor tensors ih =>
    obtain ⟨⟨view, hview⟩, hrest⟩ := List.forall_mem_cons.mp hall
    rw [List.map_cons, List.sum_cons] at htotal
    have hlast := last.toNat_lt
    -- the total fits, so does every sum on the way to it
    have hfits : offset.toNat + tensor.2.bytes.toNat < 2 ^ 64 := by omega
    have hsum : (offset + tensor.2.bytes).toNat = offset.toNat + tensor.2.bytes.toNat := by
      rw [UInt64.toNat_add, Nat.mod_eq_of_lt hfits]
    obtain ⟨index, hindex⟩ := ih hrest (by rw [hsum]; omega)
    exact ⟨_, .cons hview hfits hindex⟩

/-- Every tensor of an index was found in the mapping. -/
theorem Indexed.packable {mapping : Mapping} {tensors : List (String × TensorSpec)}
    {offset last : UInt64} {index : List Value} (h : Indexed mapping offset tensors index last) :
    ∀ tensor ∈ tensors, ∃ view, Packable mapping tensor view := by
  induction h with
  | nil => exact List.forall_mem_nil _
  | cons hpackable _ _ ih => exact List.forall_mem_cons.mpr ⟨⟨_, hpackable⟩, ih⟩

/-- An index is built exactly of tensors that can be packed. -/
theorem exists_index_iff {mapping : Mapping} {contract : TensorContract} :
    (∃ index, buildTensorIndex mapping contract = .ok index)
      ↔ ∀ tensor ∈ contract.tensors, ∃ view, Packable mapping tensor view := by
  constructor
  · rintro ⟨index, hindex⟩
    exact (buildTensorIndex_ok.mp hindex).packable
  · intro hall
    obtain ⟨index, hindex⟩ := @exists_indexed mapping contract.tensors 0 contract.payloadBytes hall
      ((Nat.zero_add _).trans contract.payloadBytes_eq.symm)
    exact ⟨index, buildTensorIndex_ok.mpr hindex⟩

/-! ## The loader -/

/-- An entry that the loader takes for a tensor at an arena offset, with the digest it reads. -/
structure Accepts (entry : Value) (tensor : String × TensorSpec) (offset : UInt64)
    (digest : List UInt8) : Prop where
  name : (entry.index "name").asStr = some tensor.1
  component : (entry.index "component").asStr = some (Loader.tensorComponent tensor.1)
  dtype : (entry.index "dtype").asStr = some tensor.2.dtype.debug
  shape : ∃ items, (entry.index "shape").asArray = some items
    ∧ items.map Value.asU64 = tensor.2.shape.map some
  parameters : (entry.index "parameters").asU64 = some tensor.2.parameters
  offset : (entry.index "arena_offset_bytes").asU64 = some offset
  bytes : (entry.index "bytes").asU64 = some tensor.2.bytes
  sha256 : ∃ encoded, (entry.index "sha256").asStr = some encoded
    ∧ parseSha256 encoded = .ok digest

/-- The descriptor of a tensor. -/
def descriptorOf (tensor : String × TensorSpec) (offset : UInt64) (digest : List UInt8) :
    TensorDescriptor where
  name := tensor.1
  sha256 := digest
  dtype := tensor.2.dtype
  shape := tensor.2.shape
  arenaOffsetBytes := offset
  bytes := tensor.2.bytes

/-- The dimensions, counted from any number. -/
theorem dimensions_ok {message : Nat → Message} {items : List Value} {shape : List UInt64}
    {first : Nat} :
    ((items.zipIdx first).mapM fun (value, dimension) => required value.asU64 (message dimension))
        = .ok shape ↔ items.map Value.asU64 = shape.map some := by
  induction items generalizing shape first with
  | nil =>
    rw [List.zipIdx_nil, List.mapM_nil, pure_eq_ok, List.map_nil]
    exact ⟨fun h => by rw [← h, List.map_nil], fun h => (List.map_eq_nil_iff.mp h.symm).symm⟩
  | cons item items ih =>
    rw [List.zipIdx_cons, List.mapM_cons, bind_eq_ok, List.map_cons]
    constructor
    · rintro ⟨n, hn, h⟩
      obtain ⟨rest, hrest, h⟩ := bind_eq_ok.mp h
      cases h
      rw [List.map_cons, required_eq_ok.mp hn, ih.mp hrest]
    · intro h
      cases shape with
      | nil => cases h
      | cons n rest =>
        obtain ⟨hn, hrest⟩ := List.cons.inj h
        exact ⟨n, required_eq_ok.mpr hn, bind_eq_ok.mpr ⟨rest, ih.mpr hrest, rfl⟩⟩

/-- A shape is a list of numbers. -/
theorem parseShape_ok {entry : Value} {context : String} {shape : List UInt64} :
    parseShape entry context = .ok shape ↔ ∃ items, (entry.index "shape").asArray = some items
      ∧ items.map Value.asU64 = shape.map some := by
  -- the message counts the dimensions from zero
  have hall : ∀ items : List Value, _ ↔ _ := fun items =>
    @dimensions_ok (fun dimension => [.text s!"{context} shape[{dimension}] is not a u64"]) items
      shape 0
  unfold parseShape
  rw [bind_eq_ok]
  constructor
  · rintro ⟨items, hitems, h⟩
    exact ⟨items, required_eq_ok.mp hitems, (hall items).mp h⟩
  · rintro ⟨items, hitems, h⟩
    exact ⟨items, required_eq_ok.mpr hitems, (hall items).mpr h⟩

/-- A value that is required and compared. -/
theorem compared_ok {α : Type} [DecidableEq α] {o : Option α} {value : α} {message : Message}
    {failure : α → Failure} : (required o message >>= fun actual =>
      failIf (actual ≠ value) (failure actual)) = .ok () ↔ o = some value := by
  rw [bind_eq_ok]
  constructor
  · rintro ⟨actual, hactual, h⟩
    rw [required_eq_ok.mp hactual, not_not.mp (failIf_eq_ok.mp h)]
  · intro h
    exact ⟨value, required_eq_ok.mpr h, failIf_eq_ok.mpr (not_not.mpr rfl)⟩

/-- A field is compared with what it must be. -/
theorem expectTensorU64_ok {entry : Value} {field context : String} {value : UInt64} :
    expectTensorU64 entry field value context = .ok () ↔ (entry.index field).asU64 = some value :=
  compared_ok

/-- **One turn of the loader's loop.** -/
theorem readTensor_ok {indexPointer : String} {descriptors : List (String × TensorDescriptor)}
    {offset : UInt64} {entry : Value} {tensor : String × TensorSpec} {position : Nat}
    {next : List (String × TensorDescriptor) × UInt64} :
    readTensor indexPointer (descriptors, offset) ((entry, tensor), position) = .ok next
      ↔ ∃ digest, Accepts entry tensor offset digest ∧ tensor.1 ∉ keys descriptors
        ∧ offset.toNat + tensor.2.bytes.toNat < 2 ^ 64
        ∧ next = (descriptors ++ [(tensor.1, descriptorOf tensor offset digest)],
          offset + tensor.2.bytes) := by
  obtain ⟨expectedName, spec⟩ := tensor
  unfold readTensor
  dsimp only
  constructor
  · intro h
    obtain ⟨name, hname, h⟩ := bind_eq_ok.mp h
    obtain ⟨_, hsameName, h⟩ := bind_eq_ok.mp h
    obtain ⟨component, hcomponent, h⟩ := bind_eq_ok.mp h
    obtain ⟨_, hsameComponent, h⟩ := bind_eq_ok.mp h
    obtain ⟨dtype, hdtype, h⟩ := bind_eq_ok.mp h
    obtain ⟨_, hsameDtype, h⟩ := bind_eq_ok.mp h
    obtain ⟨shape, hshape, h⟩ := bind_eq_ok.mp h
    obtain ⟨_, hsameShape, h⟩ := bind_eq_ok.mp h
    obtain ⟨_, hparameters, h⟩ := bind_eq_ok.mp h
    obtain ⟨_, hoffset, h⟩ := bind_eq_ok.mp h
    obtain ⟨_, hbytes, h⟩ := bind_eq_ok.mp h
    obtain ⟨encoded, hencoded, h⟩ := bind_eq_ok.mp h
    obtain ⟨digest, hdigest, h⟩ := bind_eq_ok.mp h
    obtain ⟨_, hfresh, h⟩ := bind_eq_ok.mp h
    obtain ⟨sum, hsum, h⟩ := bind_eq_ok.mp h
    -- each comparison puts the expected value for the one that was read
    obtain rfl := not_not.mp (failIf_eq_ok.mp hsameName)
    obtain rfl := not_not.mp (failIf_eq_ok.mp hsameComponent)
    obtain rfl := not_not.mp (failIf_eq_ok.mp hsameDtype)
    obtain rfl := not_not.mp (failIf_eq_ok.mp hsameShape)
    obtain ⟨hfits, rfl⟩ := checkedAdd_eq_ok.mp (foreign_eq_ok.mp hsum)
    refine ⟨digest, ?_, failIf_eq_ok.mp hfresh, hfits, (Except.ok.inj h).symm⟩
    exact {
      name := required_eq_ok.mp hname
      component := required_eq_ok.mp hcomponent
      dtype := required_eq_ok.mp hdtype
      shape := parseShape_ok.mp hshape
      parameters := expectTensorU64_ok.mp hparameters
      offset := expectTensorU64_ok.mp hoffset
      bytes := expectTensorU64_ok.mp hbytes
      sha256 := ⟨encoded, required_eq_ok.mp hencoded, withContext_eq_ok.mp hdigest⟩ }
  · rintro ⟨digest, haccepts, hfresh, hfits, rfl⟩
    obtain ⟨encoded, hencoded, hdigest⟩ := haccepts.sha256
    have hsum : checkedAdd offset spec.bytes "tensor arena byte offset overflowed"
        = .ok (offset + spec.bytes) := checkedAdd_eq_ok.mpr ⟨hfits, rfl⟩
    -- the checks in the order of the loader; a comparison passes with the value itself
    have hpass : ∀ {p : Prop} [Decidable p] {e : Failure}, ¬ p → failIf p e = .ok () :=
      fun hp => failIf_eq_ok.mpr hp
    refine bind_eq_ok.mpr ⟨_, required_eq_ok.mpr haccepts.name, ?_⟩
    refine bind_eq_ok.mpr ⟨(), hpass (not_not.mpr rfl), ?_⟩
    refine bind_eq_ok.mpr ⟨_, required_eq_ok.mpr haccepts.component, ?_⟩
    refine bind_eq_ok.mpr ⟨(), hpass (not_not.mpr rfl), ?_⟩
    refine bind_eq_ok.mpr ⟨_, required_eq_ok.mpr haccepts.dtype, ?_⟩
    refine bind_eq_ok.mpr ⟨(), hpass (not_not.mpr rfl), ?_⟩
    refine bind_eq_ok.mpr ⟨_, parseShape_ok.mpr haccepts.shape, ?_⟩
    refine bind_eq_ok.mpr ⟨(), hpass (not_not.mpr rfl), ?_⟩
    refine bind_eq_ok.mpr ⟨(), expectTensorU64_ok.mpr haccepts.parameters, ?_⟩
    refine bind_eq_ok.mpr ⟨(), expectTensorU64_ok.mpr haccepts.offset, ?_⟩
    refine bind_eq_ok.mpr ⟨(), expectTensorU64_ok.mpr haccepts.bytes, ?_⟩
    refine bind_eq_ok.mpr ⟨encoded, required_eq_ok.mpr hencoded, ?_⟩
    refine bind_eq_ok.mpr ⟨digest, withContext_eq_ok.mpr hdigest, ?_⟩
    refine bind_eq_ok.mpr ⟨(), hpass hfresh, ?_⟩
    exact bind_eq_ok.mpr ⟨_, foreign_eq_ok.mpr hsum, rfl⟩

/-- The descriptors that the loader reads from the entries of some tensors, from one arena offset to
another. -/
inductive Described :
    UInt64 → List (String × TensorSpec) → List Value → List (String × TensorDescriptor) → UInt64 →
      Prop where
  | nil {offset : UInt64} : Described offset [] [] [] offset
  | cons {offset last : UInt64} {tensor : String × TensorSpec} {entry : Value}
      {digest : List UInt8} {tensors : List (String × TensorSpec)} {entries : List Value}
      {descriptors : List (String × TensorDescriptor)}
      (accepts : Accepts entry tensor offset digest)
      (fits : offset.toNat + tensor.2.bytes.toNat < 2 ^ 64)
      (rest : Described (offset + tensor.2.bytes) tensors entries descriptors last) :
      Described offset (tensor :: tensors) (entry :: entries)
        ((tensor.1, descriptorOf tensor offset digest) :: descriptors) last

/-- There is one entry for each tensor. -/
theorem Described.length_eq {offset last : UInt64} {tensors : List (String × TensorSpec)}
    {entries : List Value} {descriptors : List (String × TensorDescriptor)}
    (h : Described offset tensors entries descriptors last) : entries.length = tensors.length := by
  induction h with
  | nil => rfl
  | cons _ _ _ ih => rw [List.length_cons, List.length_cons, ih]

/-- **The loader's loop**, over as many entries as tensors. -/
theorem readTensors_ok {indexPointer : String} {tensors : List (String × TensorSpec)}
    {entries : List Value} (hlength : entries.length = tensors.length) {first : Nat}
    {read result : List (String × TensorDescriptor)} {offset last : UInt64}
    (hnames : (keys read ++ keys tensors).Nodup) :
    ((entries.zip tensors).zipIdx first).foldlM (readTensor indexPointer) (read, offset)
        = .ok (result, last)
      ↔ ∃ descriptors, Described offset tensors entries descriptors last
        ∧ result = read ++ descriptors := by
  induction tensors generalizing entries first read offset with
  | nil =>
    obtain rfl := List.length_eq_zero_iff.mp hlength
    rw [List.zip_nil_left, List.zipIdx_nil, List.foldlM_nil, pure_eq_ok]
    constructor
    · intro h
      cases h
      exact ⟨[], .nil, (List.append_nil _).symm⟩
    · rintro ⟨descriptors, hdescriptors, rfl⟩
      cases hdescriptors
      rw [List.append_nil]
  | cons tensor tensors ih =>
    obtain ⟨entry, entries, rfl⟩ := List.exists_cons_of_length_eq_add_one hlength
    have hrest : entries.length = tensors.length := Nat.succ.inj hlength
    -- the name of the tensor moves from the names to come to those that are read
    have hmoved : ∀ d : TensorDescriptor,
        keys (read ++ [(tensor.1, d)]) ++ keys tensors = keys read ++ keys (tensor :: tensors) := by
      intro d
      rw [keys_append, List.append_assoc]
      rfl
    have hfresh : tensor.1 ∉ keys read := by
      intro hmem
      exact (List.nodup_append.mp hnames).2.2 _ hmem _ List.mem_cons_self rfl
    rw [List.zip_cons_cons, List.zipIdx_cons, List.foldlM_cons, bind_eq_ok]
    constructor
    · rintro ⟨next, hnext, h⟩
      obtain ⟨digest, haccepts, -, hfits, rfl⟩ := readTensor_ok.mp hnext
      obtain ⟨descriptors, hdescriptors, rfl⟩ := (ih hrest (by rwa [hmoved])).mp h
      exact ⟨_, .cons haccepts hfits hdescriptors, List.append_assoc _ _ _⟩
    · rintro ⟨descriptors, hdescriptors, rfl⟩
      cases hdescriptors with
      | cons haccepts hfits hdescriptors =>
        refine ⟨_, readTensor_ok.mpr ⟨_, haccepts, hfresh, hfits, rfl⟩, ?_⟩
        apply (ih hrest (by rwa [hmoved])).mpr
        exact ⟨_, hdescriptors, (List.append_assoc read [_] _).symm⟩

/-- A contract names no tensor twice. -/
theorem TensorContract.nodup (contract : TensorContract) : (keys contract.tensors).Nodup := by
  refine contract.sorted.imp fun {a b} hlt heq => ?_
  rw [heq] at hlt
  exact String.lt_irrefl b hlt

/-- The index is accepted when it describes the tensors of the contract. -/
theorem validateManifestTensorIndex_ok {manifest : Value} {pointer : List String}
    {contract : TensorContract} {descriptors : List (String × TensorDescriptor)} :
    validateManifestTensorIndex manifest pointer contract = .ok descriptors
      ↔ ∃ entries, (manifest.pointer (pointer ++ ["tensors"])).bind Value.asArray = some entries
        ∧ Described 0 contract.tensors entries descriptors contract.payloadBytes := by
  have hnames : (keys ([] : List (String × TensorDescriptor)) ++ keys contract.tensors).Nodup :=
    contract.nodup
  unfold validateManifestTensorIndex
  constructor
  · intro h
    obtain ⟨entries, hentries, h⟩ := bind_eq_ok.mp h
    obtain ⟨_, hcount, h⟩ := bind_eq_ok.mp h
    obtain ⟨⟨result, last⟩, hloop, h⟩ := bind_eq_ok.mp h
    obtain ⟨_, hlast, h⟩ := bind_eq_ok.mp h
    cases h
    -- as many entries as tensors, so `zip` drops none
    have hlength := (not_not.mp (failIf_eq_ok.mp hcount)).trans contract.tensorCount_eq
    obtain ⟨read, hread, rfl⟩ := (readTensors_ok hlength hnames).mp hloop
    refine ⟨entries, required_eq_ok.mp hentries, ?_⟩
    rwa [← not_not.mp (failIf_eq_ok.mp hlast)]
  · rintro ⟨entries, hentries, hread⟩
    have hcount : entries.length = contract.tensorCount.toNat :=
      hread.length_eq.trans contract.tensorCount_eq.symm
    refine bind_eq_ok.mpr ⟨entries, required_eq_ok.mpr hentries, ?_⟩
    refine bind_eq_ok.mpr ⟨(), failIf_eq_ok.mpr (not_not.mpr hcount), ?_⟩
    refine bind_eq_ok.mpr ⟨_, (readTensors_ok hread.length_eq hnames).mpr ⟨_, hread, rfl⟩, ?_⟩
    exact bind_eq_ok.mpr ⟨(), failIf_eq_ok.mpr (not_not.mpr rfl), rfl⟩

/-! ## The ranges of the arena -/

/-- The range that an entry of an index assigns. -/
def entrySpan (entry : Value) : Option Span := do
  let first ← (entry.index "arena_offset_bytes").asU64
  let size ← (entry.index "bytes").asU64
  some ⟨first.toNat, size.toNat⟩

/-- The range of a tensor in the arena. -/
def Loader.TensorDescriptor.span (d : TensorDescriptor) : Span :=
  ⟨d.arenaOffsetBytes.toNat, d.bytes.toNat⟩

/-- A sum without overflow. -/
theorem toNat_add_of_fits {a b : UInt64} (h : a.toNat + b.toNat < 2 ^ 64) :
    (a + b).toNat = a.toNat + b.toNat := by
  rw [UInt64.toNat_add, Nat.mod_eq_of_lt h]

namespace Described

variable {offset last : UInt64} {tensors : List (String × TensorSpec)} {entries : List Value}
  {descriptors : List (String × TensorDescriptor)}

/-- **The tensors lie one behind the other.** -/
theorem tiled (h : Described offset tensors entries descriptors last) :
    Tiled offset.toNat (descriptors.map (·.2.span)) last.toNat := by
  induction h with
  | nil => exact rfl
  | cons haccepts hfits hrest ih =>
    refine ⟨rfl, ?_⟩
    rw [toNat_add_of_fits hfits] at ih
    exact ih

/-- The index assigns the ranges that the descriptors have. -/
theorem spans (h : Described offset tensors entries descriptors last) :
    entries.map entrySpan = descriptors.map fun d => some d.2.span := by
  induction h with
  | nil => rfl
  | cons haccepts hfits hrest ih =>
    rw [List.map_cons, List.map_cons, ih, entrySpan, haccepts.offset, haccepts.bytes]
    rfl

/-- The descriptors have the names of the tensors. -/
theorem names (h : Described offset tensors entries descriptors last) :
    keys descriptors = keys tensors := by
  induction h with
  | nil => rfl
  | cons _ _ _ ih => exact congrArg (_ :: ·) ih

end Described

/-! ## What the packer writes is what the loader takes -/

/-- A digest is written with two digits for each of its bytes, all of them in lower case. -/
theorem digits_toHex {digest : List UInt8} (h : digest.length = 32) :
    (strBytes (toHex digest)).length = 64 ∧ (strBytes (toHex digest)).all Hex.isLowerDigit = true := by
  rw [strBytes, toHex, String.toList_ofList, Hex.length_utf8_encode, h]
  exact ⟨rfl, Hex.isLowerDigit_encode digest⟩

/-- A digest that was written is read back. -/
theorem parseSha256_toHex {digest : List UInt8} (h : digest.length = 32) :
    parseSha256 (toHex digest) = .ok digest := by
  have hpass : ¬ ((strBytes (toHex digest)).length ≠ 64
      ∨ ¬ (strBytes (toHex digest)).all Hex.isLowerDigit) := by
    simp only [not_or, not_not]
    exact digits_toHex h
  unfold parseSha256
  refine bind_eq_ok.mpr ⟨(), failIf_eq_ok.mpr hpass, ?_⟩
  rw [strBytes, toHex, String.toList_ofList, Hex.decode_encode]
  rfl

/-- So is a shape. -/
theorem map_asU64 (shape : List UInt64) :
    (shape.map Value.u64).map Value.asU64 = shape.map some := by
  rw [List.map_map]
  rfl

/-- The members of an entry. -/
theorem index_indexEntry (name : String) (spec : TensorSpec) (offset : UInt64) (sha256 : String) :
    (indexEntry name spec offset sha256).index "name" = .string name
      ∧ (indexEntry name spec offset sha256).index "component" = .string (tensorComponent name)
      ∧ (indexEntry name spec offset sha256).index "dtype" = .string spec.dtype.debug
      ∧ (indexEntry name spec offset sha256).index "shape" = .array (spec.shape.map .u64)
      ∧ (indexEntry name spec offset sha256).index "parameters" = .u64 spec.parameters
      ∧ (indexEntry name spec offset sha256).index "arena_offset_bytes" = .u64 offset
      ∧ (indexEntry name spec offset sha256).index "bytes" = .u64 spec.bytes
      ∧ (indexEntry name spec offset sha256).index "sha256" = .string sha256 := by
  simp only [indexEntry, Value.index_object, Value.assoc_self, Value.assoc_of_ne, ne_eq,
    String.reduceEq, not_false_eq_true, Option.getD_some, and_self]

/-- **An entry of the packer** is an entry for the loader. -/
theorem accepts_entryOf (tensor : String × TensorSpec) (view : TensorView) (offset : UInt64) :
    Accepts (entryOf tensor view offset) tensor offset (Fips180.digest view.data) := by
  obtain ⟨hname, hcomponent, hdtype, hshape, hparameters, hoffset, hbytes, hsha⟩ :=
    index_indexEntry tensor.1 tensor.2 offset (toHex (Fips180.digest view.data))
  exact {
    name := congrArg Value.asStr hname
    component := congrArg Value.asStr hcomponent
    dtype := congrArg Value.asStr hdtype
    shape := ⟨_, congrArg Value.asArray hshape, map_asU64 tensor.2.shape⟩
    parameters := congrArg Value.asU64 hparameters
    offset := congrArg Value.asU64 hoffset
    bytes := congrArg Value.asU64 hbytes
    sha256 := ⟨_, congrArg Value.asStr hsha, parseSha256_toHex (length_digest view.data)⟩ }

/-- A descriptor that says of a tensor what its contract and its checkpoint say. -/
structure Faithful (mapping : Mapping) (tensor : String × TensorSpec)
    (named : String × TensorDescriptor) : Prop where
  key : named.1 = tensor.1
  name : named.2.name = tensor.1
  dtype : named.2.dtype = tensor.2.dtype
  shape : named.2.shape = tensor.2.shape
  bytes : named.2.bytes = tensor.2.bytes
  digest : ∃ view, mapping.tensor tensor.1 = .ok view
    ∧ view.data.length = tensor.2.bytes.toNat ∧ named.2.sha256 = Fips180.digest view.data

/-- **A whole index** of the packer is read by the loader. -/
theorem Indexed.described {mapping : Mapping} {offset last : UInt64}
    {tensors : List (String × TensorSpec)} {index : List Value}
    (h : Indexed mapping offset tensors index last) :
    ∃ descriptors, Described offset tensors index descriptors last
      ∧ List.Forall₂ (Faithful mapping) tensors descriptors := by
  induction h with
  | nil => exact ⟨[], .nil, .nil⟩
  | cons hpackable hfits hrest ih =>
    obtain ⟨descriptors, hread, hfaithful⟩ := ih
    refine ⟨_, .cons (accepts_entryOf _ _ _) hfits hread, .cons ?_ hfaithful⟩
    exact {
      key := rfl
      name := rfl
      dtype := rfl
      shape := rfl
      bytes := rfl
      digest := ⟨_, hpackable.found, hpackable.bytes, rfl⟩ }

/-! ## The fields of a packed manifest -/

/-- A hexadecimal digit is ASCII. -/
theorem toNat_lt_of_hexdigit {byte : UInt8} (h : isAsciiHexdigit byte = true) :
    byte.toNat < 128 := by
  by_contra hge
  -- every range of digits ends below 0x80
  have hlarge : ∀ n : UInt8, n < 0x80 → ¬ byte ≤ n := by
    intro n hn hle
    rw [UInt8.lt_iff_toNat_lt] at hn
    rw [UInt8.le_iff_toNat_le] at hle
    have hbound : (0x80 : UInt8).toNat = 128 := rfl
    omega
  unfold isAsciiHexdigit Hex.digitValue at h
  rw [if_neg fun hd => hlarge _ (by decide) hd.2, if_neg fun hd => hlarge _ (by decide) hd.2,
    if_neg fun hd => hlarge _ (by decide) hd.2] at h
  cases h

/-- A digit of a commit, and the same digit in lower case. -/
theorem lower_hexdigit {c : Char} (h : (String.utf8EncodeChar c).all isAsciiHexdigit = true) :
    (String.utf8EncodeChar c.toLower).length = (String.utf8EncodeChar c).length
      ∧ (String.utf8EncodeChar c.toLower).all Hex.isLowerDigit = true := by
  -- the characters of one byte are few enough to be checked one by one
  have hascii : ∀ n < 128, (String.utf8EncodeChar (Char.ofNat n)).all isAsciiHexdigit = true →
      (String.utf8EncodeChar (Char.ofNat n).toLower).length
          = (String.utf8EncodeChar (Char.ofNat n)).length
        ∧ (String.utf8EncodeChar (Char.ofNat n).toLower).all Hex.isLowerDigit = true := by
    decide
  rcases Nat.lt_or_ge c.toNat 128 with hlt | hge
  · have hc := hascii c.toNat hlt
    rw [Char.ofNat_toNat] at hc
    exact hc h
  · -- the bytes of a longer character are no digits
    exfalso
    have hpos : 0 < (String.utf8EncodeChar c).length := by
      rw [String.length_utf8EncodeChar]
      exact c.utf8Size_pos
    have hmem := List.getElem_mem hpos
    have hsmall := toNat_lt_of_hexdigit (List.all_eq_true.mp h _ hmem)
    rw [Json.eq_of_mem_utf8EncodeChar hsmall hmem] at hge
    omega

/-- A revision in lower case is as long as before. -/
theorem lower_revision {text : List Char} (h : (utf8 text).all isAsciiHexdigit = true) :
    (utf8 (text.map Char.toLower)).length = (utf8 text).length
      ∧ (utf8 (text.map Char.toLower)).all Hex.isLowerDigit = true := by
  induction text with
  | nil => exact ⟨rfl, rfl⟩
  | cons c text ih =>
    have hcons : ∀ (d : Char) (rest : List Char),
        utf8 (d :: rest) = String.utf8EncodeChar d ++ utf8 rest := fun _ _ => rfl
    rw [hcons, List.all_append, Bool.and_eq_true] at h
    rw [List.map_cons, hcons, hcons, List.length_append, List.length_append, List.all_append,
      (lower_hexdigit h.1).1, (lower_hexdigit h.1).2, (ih h.2).1, (ih h.2).2]
    exact ⟨rfl, rfl⟩

/-- The packer takes forty hexadecimal digits. -/
theorem snapshotRevision_ok {fileName : Option String} {revision : String}
    (h : snapshotRevision fileName = .ok revision) :
    (strBytes revision).length = 40 ∧ (strBytes revision).all Hex.isLowerDigit = true := by
  unfold snapshotRevision at h
  obtain ⟨name, -, h⟩ := bind_eq_ok.mp h
  obtain ⟨_, hcommit, h⟩ := bind_eq_ok.mp h
  cases h
  have hboth := failIf_eq_ok.mp hcommit
  simp only [not_or, not_not] at hboth
  have hlower := lower_revision hboth.2
  rw [strBytes, toAsciiLowercase, String.toList_ofList]
  exact ⟨hlower.1.trans hboth.1, hlower.2⟩

/-- The label of a data type is read back in any case. -/
theorem parse_label (dtype : CodecWeightDtype) :
    CodecWeightDtype.parse (toAsciiLowercase dtype.label) = .ok dtype := by
  cases dtype <;> rfl

/-- A field at a path, compared with what it must be. -/
theorem expectManifestU64_ok {root : Value} {pointer : List String} {value : UInt64} :
    expectManifestU64 root pointer value = .ok ()
      ↔ (root.pointer pointer).bind Value.asU64 = some value := compared_ok

theorem expectManifestString_ok {root : Value} {pointer : List String} {value : String} :
    expectManifestString root pointer value = .ok ()
      ↔ (root.pointer pointer).bind Value.asStr = some value := compared_ok

theorem expectManifestBool_ok {root : Value} {pointer : List String} {value : Bool} :
    expectManifestBool root pointer value = .ok ()
      ↔ (root.pointer pointer).bind Value.asBool = some value := compared_ok

/-- The tokens of the two indexes. -/
def voicePointer : List String := ["weights", "voice_design"]

/-- The path of the decoder's part. -/
def decoderPointer : List String := ["weights", "speech_decoder"]

section
variable {revision : String} {dtype : CodecWeightDtype} {input : ManifestInput}

/-- What the checks outside the indexes look at. -/
theorem pointer_buildManifest :
    ((buildManifest revision dtype input).pointer ["schema_version"]).bind Value.asU64 = some 1
      ∧ ((buildManifest revision dtype input).pointer ["artifact"]).bind Value.asStr
        = some artifactKind
      ∧ ((buildManifest revision dtype input).pointer ["model", "id"]).bind Value.asStr
        = some Loader.modelId
      ∧ ((buildManifest revision dtype input).pointer ["model", "revision"]).bind Value.asStr
        = some revision
      ∧ ((buildManifest revision dtype input).pointer
          ["production_material", "regular_files_only"]).bind Value.asBool = some true
      ∧ ((buildManifest revision dtype input).pointer
          ["production_material", "symlink_count"]).bind Value.asU64 = some 0 := by
  simp only [buildManifest, Value.pointer_object, Value.assoc_self, Value.assoc_of_ne, ne_eq,
    String.reduceEq, not_false_eq_true, Option.bind_some, Value.pointer_nil, Value.asU64_u64,
    Value.asStr_string, Value.asBool_bool, true_and, and_true]
  exact ⟨rfl, rfl⟩

/-- The members of the two parts under `weights`. -/
theorem pointer_weights :
    ((buildManifest revision dtype input).pointer (voicePointer ++ ["path"])).bind Value.asStr
        = some Loader.voicePath
      ∧ ((buildManifest revision dtype input).pointer (voicePointer ++ ["dtype"])).bind Value.asStr
        = some "BF16"
      ∧ ((buildManifest revision dtype input).pointer (decoderPointer ++ ["path"])).bind Value.asStr
        = some Loader.codecPath
      ∧ ((buildManifest revision dtype input).pointer (decoderPointer ++ ["dtype"])).bind
          Value.asStr = some dtype.label
      ∧ ((buildManifest revision dtype input).pointer
          (decoderPointer ++ ["encoder_included"])).bind Value.asBool = some false := by
  simp only [buildManifest, voicePointer, decoderPointer, List.cons_append, List.nil_append,
    Value.pointer_object, Value.assoc_self, Value.assoc_of_ne, ne_eq,
    String.reduceEq, not_false_eq_true, Option.bind_some, Value.pointer_nil,
    Value.asStr_string, Value.asBool_bool, true_and, and_true]
  exact ⟨rfl, rfl⟩

/-- A part under `weights` has the totals of a contract and an index. -/
structure Part (manifest : Value) (pointer : List String) (contract : TensorContract)
    (index : List Value) : Prop where
  tensorCount : (manifest.pointer (pointer ++ ["tensor_count"])).bind Value.asU64
    = some contract.tensorCount
  parameterCount : (manifest.pointer (pointer ++ ["parameter_count"])).bind Value.asU64
    = some contract.parameterCount
  payloadBytes : (manifest.pointer (pointer ++ ["payload_bytes"])).bind Value.asU64
    = some contract.payloadBytes
  tensors : (manifest.pointer (pointer ++ ["tensors"])).bind Value.asArray = some index

/-- The two parts of the manifest. -/
theorem part_voice : Part (buildManifest revision dtype input) voicePointer input.voice
    input.voiceTensorIndex := by
  constructor <;>
    simp only [buildManifest, voicePointer, List.cons_append, List.nil_append,
      Value.pointer_object, Value.assoc_self, Value.assoc_of_ne, ne_eq, String.reduceEq,
      not_false_eq_true, Option.bind_some, Value.pointer_nil, Value.asU64_u64,
      Value.asArray_array]

theorem part_decoder : Part (buildManifest revision dtype input) decoderPointer input.decoder
    input.decoderTensorIndex := by
  constructor <;>
    simp only [buildManifest, decoderPointer, List.cons_append, List.nil_append,
      Value.pointer_object, Value.assoc_self, Value.assoc_of_ne, ne_eq, String.reduceEq,
      not_false_eq_true, Option.bind_some, Value.pointer_nil, Value.asU64_u64,
      Value.asArray_array]

/-- A part meets its contract. -/
theorem Part.validate {manifest : Value} {pointer : List String} {contract : TensorContract}
    {index : List Value} (h : Part manifest pointer contract index) :
    validateManifestContract manifest pointer contract = .ok () := by
  unfold validateManifestContract
  refine bind_eq_ok.mpr ⟨(), expectManifestU64_ok.mpr h.tensorCount, ?_⟩
  refine bind_eq_ok.mpr ⟨(), expectManifestU64_ok.mpr h.parameterCount, ?_⟩
  exact expectManifestU64_ok.mpr h.payloadBytes

/-- The manifest identifies itself: its version, its kind, the model and the revision. -/
theorem identity_buildManifest (hlength : (strBytes revision).length = 40)
    (hlower : (strBytes revision).all Hex.isLowerDigit = true) :
    validateManifestIdentity (buildManifest revision dtype input) = .ok () := by
  obtain ⟨hschema, hkind, hid, hrevision, hfiles, hlinks⟩ :=
    @pointer_buildManifest revision dtype input
  have hcommit : ¬ ((strBytes revision).length ≠ 40
      ∨ ¬ (strBytes revision).all Hex.isLowerDigit) := by
    simp only [not_or, not_not]
    exact ⟨hlength, hlower⟩
  unfold validateManifestIdentity
  refine bind_eq_ok.mpr ⟨(), expectManifestU64_ok.mpr hschema, ?_⟩
  refine bind_eq_ok.mpr ⟨(), expectManifestString_ok.mpr hkind, ?_⟩
  refine bind_eq_ok.mpr ⟨(), expectManifestString_ok.mpr hid, ?_⟩
  refine bind_eq_ok.mpr ⟨(), expectManifestBool_ok.mpr hfiles, ?_⟩
  refine bind_eq_ok.mpr ⟨(), expectManifestU64_ok.mpr hlinks, ?_⟩
  refine bind_eq_ok.mpr ⟨revision, required_eq_ok.mpr hrevision, ?_⟩
  exact failIf_eq_ok.mpr hcommit

end

end Qwen3Tts.Artifact
