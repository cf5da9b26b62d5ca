import Qwen3Tts.Artifact.Digest
import Qwen3Tts.Artifact.Weights
import Qwen3Tts.Lib.Hex

/-!
# Artifact — files that are copied and hashed

The errors of the packer and of the loader, and the two functions of `artifact.rs` that put a file
into the artifact and record its length and its digest. What the operating system answers is given:
`FileAnswers` for the calls on a path, `Destination` for those on a file that is written.
`hashRegularFile_ok` and `copyRegularFile_ok` say when a file is recorded and what the record says.
-/

namespace Qwen3Tts.Artifact

open Qwen3Tts.Lib

/-! ## Errors -/

/-- A part of a formatted message; `debug` and `numbers` stand under `{:?}`. -/
inductive Piece where
  | text (value : String)
  | debug (value : String)
  | number (value : Nat)
  | flag (value : Bool)
  | numbers (values : List UInt64)
  deriving DecidableEq, Repr

abbrev Message := List Piece

/-- An `anyhow::Error`, its last context first, or a panic. -/
inductive Failure where
  | error (chain : List Message)
  | panic (message : String)
  deriving DecidableEq, Repr

/-- An error with one message. -/
def bail {α : Type} (message : Message) : Except Failure α := .error (.error [message])

/-- `Option::context`. -/
def required {α : Type} (x : Option α) (message : Message) : Except Failure α :=
  match x with
  | some a => .ok a
  | none => bail message

/-- `Result::context`. -/
def withContext {α : Type} (x : Except Failure α) (message : Message) : Except Failure α :=
  x.mapError fun
    | .error chain => .error (message :: chain)
    | .panic text => .panic text

/-- An error of another crate, with its text. -/
def foreign {α : Type} (x : Except String α) : Except Failure α :=
  x.mapError fun text => .error [[.text text]]

/-- What panics instead of returning an error. -/
def unwrapped {α : Type} (x : Except String α) : Except Failure α := x.mapError .panic

/-- An error of `digest_reader`. -/
def hashed {α : Type} (x : Except (ReaderError String) α) : Except Failure α :=
  x.mapError fun
    | .invalidInput message => .error [[.text message]]
    | .other message => .error [[.text message]]
    | .io error => .error [[.text error]]
    | .panic text => .panic text

section
variable {α : Type} {x : Except String α} {message : Message} {a : α}

/-- A value that is there. -/
@[simp] theorem required_some : required (some a) message = .ok a := rfl

/-- A call behind a context succeeds as the call does. -/
theorem required_eq_ok {o : Option α} : required o message = .ok a ↔ o = some a := by
  cases o with
  | none => constructor <;> intro h <;> cases h
  | some b =>
    show Except.ok b = .ok a ↔ _
    rw [Except.ok.injEq, Option.some.injEq]

theorem withContext_eq_ok {x : Except Failure α} : withContext x message = .ok a ↔ x = .ok a :=
  mapError_eq_ok

theorem foreign_eq_ok : foreign x = .ok a ↔ x = .ok a := mapError_eq_ok

theorem unwrapped_eq_ok : unwrapped x = .ok a ↔ x = .ok a := mapError_eq_ok

theorem hashed_eq_ok {x : Except (ReaderError String) α} : hashed x = .ok a ↔ x = .ok a :=
  mapError_eq_ok

/-- A call of another crate under a context. -/
theorem call_eq_ok : withContext (foreign x) message = .ok a ↔ x = .ok a :=
  withContext_eq_ok.trans foreign_eq_ok

/-- The sum did not overflow. -/
theorem checkedAdd_eq_ok {a b c : UInt64} {error : String} :
    checkedAdd a b error = .ok c ↔ a.toNat + b.toNat < 2 ^ 64 ∧ a + b = c :=
  ite_ok_eq_ok

end

/-! ## What the operating system answers -/

/-- What an entry of a directory is. -/
inductive FileKind where
  | file
  | directory
  | symlink
  | other
  deriving DecidableEq, Repr

/-- What `metadata` answers. -/
structure Metadata where
  kind : FileKind
  len : UInt64
  deriving DecidableEq, Repr

/-- What `read` answers up to the end of a file or an error. -/
structure Reads (bufferBytes : Nat) where
  answers : List (Except String (List UInt8))
  /-- No read gives more bytes than its buffer holds. -/
  fits : ∀ bytes, .ok bytes ∈ answers → bytes.length ≤ bufferBytes

/-- The calls on one path. -/
structure FileAnswers where
  symlinkMetadata : Except String Metadata
  metadata : Except String Metadata
  /-- `File::open`, and the reads with a buffer of that size. -/
  opened (bufferBytes : Nat) : Except String (Reads bufferBytes)
  /-- `fs::read`. -/
  readWhole : Except String (List UInt8)

/-- The calls on a file that is written; the writes are counted from zero. -/
structure Destination where
  createDirAll : Except String Unit
  create : Except String Unit
  writeAll : Nat → Except String Unit
  flush : Except String Unit
  syncAll : Except String Unit

/-! ## Paths -/

/-- `std::path::Component`, on Unix. -/
inductive Component where
  | rootDir
  | curDir
  | parentDir
  | normal (name : String)
  deriving DecidableEq, Repr

/-- A piece between two slashes. -/
def pieceComponent (piece : List Char) : List Component :=
  if piece = [] ∨ piece = ['.'] then []
  else if piece = ['.', '.'] then [.parentDir]
  else [.normal (.ofList piece)]

/-- `Path::components`. A dot is a component only at the front of a relative path. -/
def components (path : String) : List Component :=
  match path.toList.splitOn '/' with
  | [] => []
  | first :: rest =>
    (if first = [] then (if rest = [] then [] else [.rootDir])
      else if first = ['.'] then [.curDir]
      else pieceComponent first) ++ rest.flatMap pieceComponent

/-- `Path::is_absolute`. -/
def isAbsolute (path : String) : Bool := path.toList.head? = some '/'

/-- What two paths agree in that name one file below a directory. -/
def names (path : String) : List String :=
  (components path).filterMap fun
    | .normal name => some name
    | _ => none

/-- `Path::join` of a relative path. -/
def join (root relative : String) : String := root ++ "/" ++ relative

/-- `Path::parent`. -/
def parent (path : String) : String :=
  .ofList ((path.toList.reverse.dropWhile (· ≠ '/')).drop 1).reverse

/-- A directory, and what the calls on the files below it answer. -/
structure Tree where
  root : String
  file : List String → FileAnswers

/-! ## `artifact.rs` -/

/-- The digest as it is written. -/
def toHex (digest : List UInt8) : String := .ofList (Hex.encode digest)

/-- A file as the manifest lists it. -/
structure FileRecord where
  role : String
  bytes : UInt64
  sha256 : String
  deriving DecidableEq, Repr

/-- The variables of the loop of `copy_regular_file`, and what the destination holds. -/
structure Copy where
  hasher : Sha256
  bytes : UInt64
  written : List UInt8
  writes : Nat

def copyLoop (source destination : String) (dest : Destination) :
    Copy → List (Except String (List UInt8)) → Except Failure Copy
  | copy, [] => .ok copy
  | copy, read :: reads => do
    let read ← withContext (foreign read) [.text s!"failed to read {source}"]
    if read.length = 0 then .ok copy
    else do
      withContext (foreign (dest.writeAll copy.writes)) [.text s!"failed to write {destination}"]
      let hasher ← unwrapped (copy.hasher.update read)
      let bytes ← foreign
        (checkedAdd copy.bytes (.ofNat read.length) "copied byte count overflowed")
      copyLoop source destination dest
        ⟨hasher, bytes, copy.written ++ read, copy.writes + 1⟩ reads

/-- The record, and what the destination holds. -/
def copyRegularFile (source destination role : String) (file : FileAnswers) (dest : Destination)
    (bufferBytes : Nat) : Except Failure (FileRecord × List UInt8) := do
  let metadata ← withContext (foreign file.metadata) [.text s!"failed to stat {source}"]
  failIf (metadata.kind ≠ .file)
    (.error [[.text s!"source material is not a regular file: {source}"]])
  withContext (foreign dest.createDirAll) [.text s!"failed to create {parent destination}"]
  let reads ← withContext (foreign (file.opened bufferBytes)) [.text s!"failed to open {source}"]
  withContext (foreign dest.create) [.text s!"failed to create {destination}"]
  let copy ← copyLoop source destination dest ⟨.new, 0, [], 0⟩ reads.answers
  withContext (foreign dest.flush) [.text s!"failed to flush {destination}"]
  withContext (foreign dest.syncAll) [.text s!"failed to sync {destination}"]
  failIf (copy.bytes ≠ metadata.len) (.error [[
    .text s!"source changed while copying {source}: expected ", .number metadata.len.toNat,
    .text " bytes, read ", .number copy.bytes.toNat]])
  let digest ← unwrapped copy.hasher.finalize
  return ({ role, bytes := copy.bytes, sha256 := toHex digest }, copy.written)

def hashRegularFile (path role : String) (file : FileAnswers) (bufferBytes : Nat) :
    Except Failure FileRecord := do
  let metadata ← withContext (foreign file.metadata) [.text s!"failed to stat {path}"]
  failIf (metadata.kind ≠ .file) (.error [[.text s!"material is not a regular file: {path}"]])
  let reads ← withContext (foreign (file.opened bufferBytes)) [.text s!"failed to open {path}"]
  let (digest, bytes) ← withContext (hashed (digestReader reads.answers bufferBytes))
    [.text s!"failed to hash {path}"]
  failIf (bytes ≠ metadata.len.toNat) (.error [[
    .text s!"file changed while hashing {path}: expected ", .number metadata.len.toNat,
    .text " bytes, read ", .number bytes]])
  return { role, bytes := .ofNat bytes, sha256 := toHex digest }

/-! ## A file that is read to its end -/

/-- The chunks of the reads before the end. -/
def readChunks : List (Except String (List UInt8)) → Except String (List (List UInt8))
  | [] => .ok []
  | read :: reads => do
    let bytes ← read
    if bytes.length = 0 then .ok [] else return bytes :: (← readChunks reads)

/-- A regular file whose reads give these chunks and no more, with the length that it says. -/
structure Whole (file : FileAnswers) (bufferBytes : Nat) (chunks : List (List UInt8)) : Prop where
  regular : ∃ metadata, file.metadata = .ok metadata ∧ metadata.kind = .file
    ∧ metadata.len.toNat = chunks.flatten.length
  read : ∃ reads, file.opened bufferBytes = .ok reads ∧ readChunks reads.answers = .ok chunks

/-- What both functions record of the bytes of a file. -/
def recordOf (role : String) (bytes : List UInt8) : FileRecord where
  role := role
  bytes := .ofNat bytes.length
  sha256 := toHex (Fips180.digest bytes)

/-- Every call on the destination succeeds, with that many writes. -/
structure Takes (dest : Destination) (writes : Nat) : Prop where
  createDirAll : dest.createDirAll = .ok ()
  create : dest.create = .ok ()
  writeAll : ∀ k < writes, dest.writeAll k = .ok ()
  flush : dest.flush = .ok ()
  syncAll : dest.syncAll = .ok ()

section
variable {s t : Sha256} {message input digest : List UInt8}

/-- An update fails only where the count of the bytes overflows. -/
theorem Sha256.Seen.of_update (h : Seen s message) (hupdate : s.update input = .ok t) :
    message.length + input.length < 2 ^ 64 ∧ Seen t (message ++ input) := by
  have hsize : message.length + input.length < 2 ^ 64 := by
    by_contra hlong
    rw [Sha256.update, h.bytesSeen, if_pos (by omega)] at hupdate
    cases hupdate
  obtain ⟨t', ht', hseen⟩ := h.update input hsize
  obtain rfl := Except.ok.inj (hupdate.symm.trans ht')
  exact ⟨hsize, hseen⟩

/-- The digest fails only where the count of the bits overflows. -/
theorem Sha256.Seen.finalize_eq_ok (h : Seen s message) :
    s.finalize = .ok digest ↔ message.length < 2 ^ 61 ∧ digest = Fips180.digest message := by
  constructor
  · intro hfinal
    have hbits : message.length < 2 ^ 61 := by
      by_contra hlong
      rw [Sha256.finalize, h.bytesSeen, if_pos (by omega)] at hfinal
      cases hfinal
    refine ⟨hbits, ?_⟩
    rw [h.finalize hbits] at hfinal
    exact (Except.ok.inj hfinal).symm
  · rintro ⟨hbits, rfl⟩
    exact h.finalize hbits

/-- A slice that is not too long is digested. -/
theorem digestBytes_eq_ok {data : List UInt8} :
    digestBytes data = .ok digest ↔ data.length < 2 ^ 61 ∧ digest = Fips180.digest data := by
  unfold digestBytes
  constructor
  · intro h
    obtain ⟨s, hs, h⟩ := bind_eq_ok.mp h
    exact (Sha256.seen_new.of_update hs).2.finalize_eq_ok.mp h
  · rintro ⟨hbits, rfl⟩
    obtain ⟨s, hs, hseen⟩ := Sha256.seen_new.update data (by rw [List.length_nil]; omega)
    exact bind_eq_ok.mpr ⟨s, hs, hseen.finalize hbits⟩

end

/-! ## The loops of the two functions -/

/-- The rounds that the loops make of the chunks of a file. -/
theorem readChunks_cons {read : Except String (List UInt8)} {reads : List (Except String (List UInt8))}
    {chunks : List (List UInt8)} : readChunks (read :: reads) = .ok chunks
      ↔ ∃ bytes, read = .ok bytes ∧ ((bytes.length = 0 ∧ chunks = [])
        ∨ ∃ rest, bytes.length ≠ 0 ∧ readChunks reads = .ok rest ∧ chunks = bytes :: rest) := by
  rw [readChunks, bind_eq_ok]
  refine exists_congr fun bytes => and_congr_right fun _ => ?_
  by_cases hend : bytes.length = 0
  · rw [if_pos hend, Except.ok.injEq]
    constructor
    · rintro rfl
      exact .inl ⟨hend, rfl⟩
    · rintro (⟨-, rfl⟩ | ⟨_, hne, -⟩)
      · rfl
      · exact absurd hend hne
  · rw [if_neg hend, bind_eq_ok]
    constructor
    · rintro ⟨rest, hrest, h⟩
      exact .inr ⟨rest, hend, hrest, (Except.ok.inj h).symm⟩
    · rintro (⟨hz, -⟩ | ⟨rest, -, hrest, rfl⟩)
      · exact absurd hz hend
      · exact ⟨rest, hrest, rfl⟩

/-- **The loop of `digest_reader`** sees the chunks. -/
theorem readAll_seen {s t : Sha256} {message : List UInt8} (h : Sha256.Seen s message)
    {bufferBytes : Nat} {buffer : List UInt8} (hbuffer : buffer.length = bufferBytes)
    {reads : List (Except String (List UInt8))}
    (hfits : ∀ bytes, .ok bytes ∈ reads → bytes.length ≤ bufferBytes) {count : Nat}
    (hread : readAll s buffer message.length reads = .ok (t, count)) :
    ∃ chunks, readChunks reads = .ok chunks ∧ count = (message ++ chunks.flatten).length
      ∧ Sha256.Seen t (message ++ chunks.flatten) := by
  induction reads generalizing s message buffer with
  | nil =>
    cases hread
    exact ⟨[], rfl, by simp, by simpa using h⟩
  | cons read reads ih =>
    cases read with
    | error error => cases hread
    | ok bytes =>
      rw [readAll] at hread
      split at hread
      · -- the end of the file
        rename_i hend
        cases hread
        exact ⟨[], readChunks_cons.mpr ⟨bytes, rfl, .inl ⟨hend, rfl⟩⟩, by simp, by simpa using h⟩
      rename_i hend
      rw [ite_error_eq_ok] at hread
      obtain ⟨hcount, hread⟩ := hread
      obtain ⟨m, hm, hread⟩ := bind_eq_ok.mp hread
      have hlength := hfits bytes List.mem_cons_self
      rw [front_overwrite] at hm
      obtain ⟨-, hseen⟩ := h.of_update (mapError_eq_ok.mp hm)
      rw [← List.length_append] at hread
      obtain ⟨rest, hrest, hn, hseen⟩ := ih hseen
        (by rw [length_overwrite (by omega), hbuffer])
        (fun b hb => hfits b (List.mem_cons_of_mem _ hb)) hread
      refine ⟨bytes :: rest, readChunks_cons.mpr ⟨bytes, rfl, .inr ⟨rest, hend, hrest, rfl⟩⟩, ?_⟩
      rw [List.flatten_cons, ← List.append_assoc]
      exact ⟨hn, hseen⟩

/-- A file is hashed read by read. -/
theorem readAll_of_chunks {s : Sha256} {message : List UInt8} (h : Sha256.Seen s message)
    {bufferBytes : Nat} {buffer : List UInt8} (hbuffer : buffer.length = bufferBytes)
    {reads : List (Except String (List UInt8))}
    (hfits : ∀ bytes, .ok bytes ∈ reads → bytes.length ≤ bufferBytes)
    {chunks : List (List UInt8)} (hchunks : readChunks reads = .ok chunks)
    (hsize : message.length + chunks.flatten.length < 2 ^ 64) :
    ∃ t, readAll s buffer message.length reads = .ok (t, (message ++ chunks.flatten).length)
      ∧ Sha256.Seen t (message ++ chunks.flatten) := by
  induction reads generalizing s message buffer chunks with
  | nil =>
    cases hchunks
    exact ⟨s, by simp [readAll], by simpa using h⟩
  | cons read reads ih =>
    obtain ⟨bytes, rfl, ⟨hend, rfl⟩ | ⟨rest, hend, hrest, rfl⟩⟩ := readChunks_cons.mp hchunks
    · exact ⟨s, by simp [readAll, hend], by simpa using h⟩
    have hlength := hfits bytes List.mem_cons_self
    rw [List.flatten_cons, List.length_append] at hsize
    obtain ⟨m, hm, hseen⟩ := h.update bytes (by omega)
    obtain ⟨t, ht, hseen⟩ := ih hseen
      (show (overwrite buffer 0 bytes).length = bufferBytes by
        rw [length_overwrite (by omega), hbuffer])
      (fun b hb => hfits b (List.mem_cons_of_mem _ hb)) hrest
      (by rw [List.length_append]; omega)
    rw [List.flatten_cons, ← List.append_assoc]
    refine ⟨t, ?_, hseen⟩
    rw [readAll, if_neg hend, if_neg (by omega)]
    dsimp only
    rw [front_overwrite, hm, ← List.length_append]
    exact ht

/-- **A reader is digested** where its reads come to an end. -/
theorem digestReader_eq_ok {bufferBytes : Nat} (hbuffer : 0 < bufferBytes)
    {reads : Reads bufferBytes} {digest : List UInt8} {count : Nat} :
    digestReader reads.answers bufferBytes = .ok (digest, count)
      ↔ ∃ chunks, readChunks reads.answers = .ok chunks ∧ chunks.flatten.length < 2 ^ 61
        ∧ digest = Fips180.digest chunks.flatten ∧ count = chunks.flatten.length := by
  have hempty : (List.replicate bufferBytes (0 : UInt8)).length = bufferBytes :=
    List.length_replicate
  unfold digestReader
  rw [if_neg (by omega), bind_eq_ok]
  constructor
  · rintro ⟨⟨t, n⟩, hread, h⟩
    obtain ⟨d, hd, h⟩ := bind_eq_ok.mp h
    cases h
    obtain ⟨chunks, hchunks, hcount, hseen⟩ :=
      readAll_seen Sha256.seen_new hempty reads.fits hread
    rw [List.nil_append] at hcount hseen
    obtain ⟨hbits, hdigest⟩ := hseen.finalize_eq_ok.mp (mapError_eq_ok.mp hd)
    exact ⟨chunks, hchunks, hbits, hdigest, hcount⟩
  · rintro ⟨chunks, hchunks, hbits, rfl, rfl⟩
    obtain ⟨t, hread, hseen⟩ := readAll_of_chunks Sha256.seen_new hempty reads.fits hchunks
      (by rw [List.length_nil]; omega)
    rw [List.nil_append] at hread hseen
    refine ⟨_, hread, ?_⟩
    exact bind_eq_ok.mpr ⟨_, mapError_eq_ok.mpr (hseen.finalize hbits), rfl⟩

/-- The hasher has seen what is written, and it is counted. -/
structure Copy.Counted (copy : Copy) : Prop where
  seen : Sha256.Seen copy.hasher copy.written
  bytes : copy.bytes.toNat = copy.written.length

/-- What stands after a round. -/
def Copy.next (copy : Copy) (hasher : Sha256) (bytes : List UInt8) : Copy where
  hasher := hasher
  bytes := copy.bytes + .ofNat bytes.length
  written := copy.written ++ bytes
  writes := copy.writes + 1

/-- The count of the hasher overflows first, so that of the copy does not. -/
theorem Copy.Counted.next {copy : Copy} (h : copy.Counted) {hasher : Sha256} {bytes : List UInt8}
    (hupdate : copy.hasher.update bytes = .ok hasher) : (copy.next hasher bytes).Counted
      ∧ checkedAdd copy.bytes (.ofNat bytes.length) "copied byte count overflowed"
        = .ok (copy.next hasher bytes).bytes := by
  obtain ⟨hsize, hseen⟩ := h.seen.of_update hupdate
  have hbytes := h.bytes
  have hread : (UInt64.ofNat bytes.length).toNat = bytes.length := by
    rw [UInt64.toNat_ofNat', Nat.mod_eq_of_lt (by omega)]
  refine ⟨⟨hseen, ?_⟩, checkedAdd_eq_ok.mpr ⟨by omega, rfl⟩⟩
  show (copy.bytes + .ofNat bytes.length).toNat = (copy.written ++ bytes).length
  rw [UInt64.toNat_add, hread, hbytes, List.length_append, Nat.mod_eq_of_lt hsize]

/-- **One round of the copy.** -/
theorem copyLoop_cons {source destination : String} {dest : Destination} {copy last : Copy}
    (h : copy.Counted) {bytes : List UInt8} (hend : bytes.length ≠ 0)
    {reads : List (Except String (List UInt8))} :
    copyLoop source destination dest copy (.ok bytes :: reads) = .ok last
      ↔ dest.writeAll copy.writes = .ok () ∧ ∃ hasher, copy.hasher.update bytes = .ok hasher
        ∧ copyLoop source destination dest (copy.next hasher bytes) reads = .ok last := by
  rw [copyLoop, bind_eq_ok]
  constructor
  · rintro ⟨b, hb, hrest⟩
    obtain rfl := Except.ok.inj (call_eq_ok.mp hb)
    rw [if_neg hend] at hrest
    obtain ⟨_, hwrite, hrest⟩ := bind_eq_ok.mp hrest
    obtain ⟨hasher, hupdate, hrest⟩ := bind_eq_ok.mp hrest
    obtain ⟨count, hcount, hrest⟩ := bind_eq_ok.mp hrest
    have hhasher := unwrapped_eq_ok.mp hupdate
    obtain rfl := Except.ok.inj ((h.next hhasher).2.symm.trans (foreign_eq_ok.mp hcount))
    exact ⟨call_eq_ok.mp hwrite, hasher, hhasher, hrest⟩
  · rintro ⟨hwrite, hasher, hupdate, hrest⟩
    refine ⟨bytes, call_eq_ok.mpr rfl, ?_⟩
    rw [if_neg hend]
    refine bind_eq_ok.mpr ⟨(), call_eq_ok.mpr hwrite, ?_⟩
    refine bind_eq_ok.mpr ⟨hasher, unwrapped_eq_ok.mpr hupdate, ?_⟩
    exact bind_eq_ok.mpr ⟨_, foreign_eq_ok.mpr (h.next hupdate).2, hrest⟩

/-- **The loop of `copy_regular_file`** writes the chunks. -/
theorem copyLoop_ok {source destination : String} {dest : Destination} {copy : Copy}
    (h : copy.Counted) {reads : List (Except String (List UInt8))} :
    (∀ last, copyLoop source destination dest copy reads = .ok last →
      ∃ chunks, readChunks reads = .ok chunks ∧ last.Counted
        ∧ last.written = copy.written ++ chunks.flatten
        ∧ ∀ k < chunks.length, dest.writeAll (copy.writes + k) = .ok ())
    ∧ ∀ chunks, readChunks reads = .ok chunks →
      copy.written.length + chunks.flatten.length < 2 ^ 64 →
      (∀ k < chunks.length, dest.writeAll (copy.writes + k) = .ok ()) →
      ∃ last, copyLoop source destination dest copy reads = .ok last ∧ last.Counted
        ∧ last.written = copy.written ++ chunks.flatten := by
  induction reads generalizing copy with
  | nil =>
    refine ⟨fun last hlast => ?_, fun chunks hchunks _ _ => ?_⟩
    · cases hlast
      exact ⟨[], rfl, h, (List.append_nil _).symm, fun _ hk => absurd hk (Nat.not_lt_zero _)⟩
    · cases hchunks
      exact ⟨copy, rfl, h, (List.append_nil _).symm⟩
  | cons read reads ih =>
    -- a round moves the writes by one
    have hwrites : ∀ (bytes : List UInt8) (rest : List (List UInt8)),
        (∀ k < (bytes :: rest).length, dest.writeAll (copy.writes + k) = .ok ())
          ↔ dest.writeAll copy.writes = .ok ()
            ∧ ∀ k < rest.length, dest.writeAll (copy.writes + 1 + k) = .ok () := by
      intro bytes rest
      constructor
      · intro hall
        refine ⟨hall 0 (Nat.zero_lt_succ _), fun k hk => ?_⟩
        rw [Nat.add_assoc, Nat.add_comm 1 k]
        exact hall (k + 1) (Nat.succ_lt_succ hk)
      · rintro ⟨hfirst, hrest⟩ k hk
        cases k with
        | zero => exact hfirst
        | succ k =>
          rw [Nat.add_comm k 1, ← Nat.add_assoc]
          exact hrest k (Nat.lt_of_succ_lt_succ hk)
    constructor
    · intro last hlast
      cases read with
      | error error => cases hlast
      | ok bytes =>
        by_cases hend : bytes.length = 0
        · -- the end of the file
          rw [copyLoop, (call_eq_ok.mpr rfl : _ = Except.ok bytes), ok_bind, if_pos hend] at hlast
          cases hlast
          exact ⟨[], readChunks_cons.mpr ⟨bytes, rfl, .inl ⟨hend, rfl⟩⟩, h,
            (List.append_nil _).symm, fun _ hk => absurd hk (Nat.not_lt_zero _)⟩
        obtain ⟨hwrite, hasher, hupdate, hrest⟩ := (copyLoop_cons h hend).mp hlast
        obtain ⟨rest, hchunks, hcounted, hwritten, hall⟩ := (ih (h.next hupdate).1).1 last hrest
        refine ⟨bytes :: rest, readChunks_cons.mpr ⟨bytes, rfl, .inr ⟨rest, hend, hchunks, rfl⟩⟩,
          hcounted, ?_, (hwrites bytes rest).mpr ⟨hwrite, hall⟩⟩
        rw [hwritten, List.flatten_cons, ← List.append_assoc]
        rfl
    · intro chunks hchunks hsize hall
      obtain ⟨bytes, rfl, ⟨hend, rfl⟩ | ⟨rest, hend, hrest, rfl⟩⟩ := readChunks_cons.mp hchunks
      · refine ⟨copy, ?_, h, (List.append_nil _).symm⟩
        rw [copyLoop, (call_eq_ok.mpr rfl : _ = Except.ok bytes), ok_bind, if_pos hend]
      rw [List.flatten_cons, List.length_append] at hsize
      obtain ⟨hwrite, hall⟩ := (hwrites bytes rest).mp hall
      obtain ⟨hasher, hupdate, -⟩ := h.seen.update bytes (by omega)
      have hlength : (copy.next hasher bytes).written.length
          = copy.written.length + bytes.length := List.length_append
      obtain ⟨last, hlast, hcounted, hwritten⟩ :=
        (ih (h.next hupdate).1).2 rest hrest (by omega) hall
      refine ⟨last, (copyLoop_cons h hend).mpr ⟨hwrite, hasher, hupdate, hlast⟩, hcounted, ?_⟩
      rw [hwritten, List.flatten_cons, ← List.append_assoc]
      rfl

/-- **A file is recorded** where it is whole; the record says its length and its digest. -/
theorem hashRegularFile_ok {path role : String} {file : FileAnswers} {bufferBytes : Nat}
    (hbuffer : 0 < bufferBytes) {record : FileRecord} :
    hashRegularFile path role file bufferBytes = .ok record
      ↔ ∃ chunks, Whole file bufferBytes chunks ∧ chunks.flatten.length < 2 ^ 61
        ∧ record = recordOf role chunks.flatten := by
  unfold hashRegularFile
  constructor
  · intro h
    obtain ⟨metadata, hmetadata, h⟩ := bind_eq_ok.mp h
    obtain ⟨_, hkind, h⟩ := bind_eq_ok.mp h
    obtain ⟨reads, hreads, h⟩ := bind_eq_ok.mp h
    obtain ⟨⟨digest, bytes⟩, hdigest, h⟩ := bind_eq_ok.mp h
    obtain ⟨_, hlength, h⟩ := bind_eq_ok.mp h
    cases h
    obtain ⟨chunks, hchunks, hbits, rfl, rfl⟩ :=
      (digestReader_eq_ok hbuffer).mp (hashed_eq_ok.mp (withContext_eq_ok.mp hdigest))
    refine ⟨chunks, ⟨⟨metadata, call_eq_ok.mp hmetadata, ?_, ?_⟩, ?_⟩, hbits, rfl⟩
    · exact not_not.mp (failIf_eq_ok.mp hkind)
    · exact (not_not.mp (failIf_eq_ok.mp hlength)).symm
    · exact ⟨reads, call_eq_ok.mp hreads, hchunks⟩
  · rintro ⟨chunks, ⟨⟨metadata, hmetadata, hkind, hlength⟩, reads, hreads, hchunks⟩, hbits, rfl⟩
    refine bind_eq_ok.mpr ⟨metadata, call_eq_ok.mpr hmetadata, ?_⟩
    refine bind_eq_ok.mpr ⟨(), failIf_eq_ok.mpr (not_not.mpr hkind), ?_⟩
    refine bind_eq_ok.mpr ⟨reads, call_eq_ok.mpr hreads, ?_⟩
    refine bind_eq_ok.mpr ⟨(_, _), withContext_eq_ok.mpr (hashed_eq_ok.mpr
      ((digestReader_eq_ok hbuffer).mpr ⟨chunks, hchunks, hbits, rfl, rfl⟩)), ?_⟩
    exact bind_eq_ok.mpr ⟨(), failIf_eq_ok.mpr (not_not.mpr hlength.symm), rfl⟩

/-- **A file is copied** where it is whole and its destination takes it; the destination then holds
its bytes. -/
theorem copyRegularFile_ok {source destination role : String} {file : FileAnswers}
    {dest : Destination} {bufferBytes : Nat} {record : FileRecord} {written : List UInt8} :
    copyRegularFile source destination role file dest bufferBytes = .ok (record, written)
      ↔ ∃ chunks, Whole file bufferBytes chunks ∧ Takes dest chunks.length
        ∧ chunks.flatten.length < 2 ^ 61 ∧ written = chunks.flatten
        ∧ record = recordOf role chunks.flatten := by
  have hstart : (⟨.new, 0, [], 0⟩ : Copy).Counted := ⟨Sha256.seen_new, rfl⟩
  have hzero : ∀ k, 0 + k = k := Nat.zero_add
  unfold copyRegularFile
  constructor
  · intro h
    obtain ⟨metadata, hmetadata, h⟩ := bind_eq_ok.mp h
    obtain ⟨_, hkind, h⟩ := bind_eq_ok.mp h
    obtain ⟨_, hdir, h⟩ := bind_eq_ok.mp h
    obtain ⟨reads, hreads, h⟩ := bind_eq_ok.mp h
    obtain ⟨_, hcreate, h⟩ := bind_eq_ok.mp h
    obtain ⟨copy, hcopy, h⟩ := bind_eq_ok.mp h
    obtain ⟨_, hflush, h⟩ := bind_eq_ok.mp h
    obtain ⟨_, hsync, h⟩ := bind_eq_ok.mp h
    obtain ⟨_, hlength, h⟩ := bind_eq_ok.mp h
    obtain ⟨digest, hdigest, h⟩ := bind_eq_ok.mp h
    cases h
    -- the loop has copied and hashed what was read
    obtain ⟨chunks, hchunks, hcounted, hwritten, hwrites⟩ := (copyLoop_ok hstart).1 copy hcopy
    obtain ⟨hbits, rfl⟩ := hcounted.seen.finalize_eq_ok.mp (unwrapped_eq_ok.mp hdigest)
    have hbytes : copy.written = chunks.flatten := hwritten
    have hcount := hcounted.bytes
    rw [hbytes] at hbits hcount
    have hsame := not_not.mp (failIf_eq_ok.mp hlength)
    refine ⟨chunks, ⟨⟨metadata, call_eq_ok.mp hmetadata, not_not.mp (failIf_eq_ok.mp hkind), ?_⟩,
      reads, call_eq_ok.mp hreads, hchunks⟩, ?_, hbits, hbytes, ?_⟩
    · rw [← hsame, hcount]
    · exact {
        createDirAll := call_eq_ok.mp hdir
        create := call_eq_ok.mp hcreate
        writeAll := fun k hk => (hzero k) ▸ hwrites k hk
        flush := call_eq_ok.mp hflush
        syncAll := call_eq_ok.mp hsync }
    · rw [recordOf, hbytes, ← hcount, UInt64.ofNat_toNat]
  · rintro ⟨chunks, ⟨⟨metadata, hmetadata, hkind, hlength⟩, reads, hreads, hchunks⟩, htakes, hbits,
      rfl, rfl⟩
    -- every call succeeds, so the loop reaches the end of the file
    obtain ⟨copy, hcopy, hcounted, hwritten⟩ :=
      (@copyLoop_ok source destination dest _ hstart reads.answers).2 chunks hchunks
        (by show 0 + _ < _; omega) fun k hk => (hzero k).symm ▸ htakes.writeAll k hk
    have hbytes : copy.written = chunks.flatten := hwritten
    have hcount := hcounted.bytes
    have hseen := hcounted.seen
    rw [hbytes] at hcount hseen
    have hsame : copy.bytes = metadata.len := UInt64.toNat_inj.mp (hcount.trans hlength.symm)
    refine bind_eq_ok.mpr ⟨metadata, call_eq_ok.mpr hmetadata, ?_⟩
    refine bind_eq_ok.mpr ⟨(), failIf_eq_ok.mpr (not_not.mpr hkind), ?_⟩
    refine bind_eq_ok.mpr ⟨(), call_eq_ok.mpr htakes.createDirAll, ?_⟩
    refine bind_eq_ok.mpr ⟨reads, call_eq_ok.mpr hreads, ?_⟩
    refine bind_eq_ok.mpr ⟨(), call_eq_ok.mpr htakes.create, ?_⟩
    refine bind_eq_ok.mpr ⟨copy, hcopy, ?_⟩
    refine bind_eq_ok.mpr ⟨(), call_eq_ok.mpr htakes.flush, ?_⟩
    refine bind_eq_ok.mpr ⟨(), call_eq_ok.mpr htakes.syncAll, ?_⟩
    refine bind_eq_ok.mpr ⟨(), failIf_eq_ok.mpr (not_not.mpr hsame), ?_⟩
    refine bind_eq_ok.mpr ⟨_, unwrapped_eq_ok.mpr (hseen.finalize hbits), ?_⟩
    rw [recordOf, hbytes, ← hcount, UInt64.ofNat_toNat]
    rfl

end Qwen3Tts.Artifact
