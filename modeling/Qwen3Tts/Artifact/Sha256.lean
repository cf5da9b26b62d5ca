import Qwen3Tts.Lib.Fallible
import Qwen3Tts.Lib.Segment
import Qwen3Tts.Lib.Fips180

/-!
# Artifact — the streaming SHA-256

`sha256.rs`. A hasher takes its message in updates of any size: what does not fill a block waits in
the block buffer, a partly filled block is completed first, and whole blocks of an update are
compressed where they lie. A panic is an error with the text of its `expect`.
-/

namespace Qwen3Tts.Artifact

open Qwen3Tts.Lib

/-! ## `sha256.rs` -/

def initialState : List UInt32 := [
  0x6a09e667, 0xbb67ae85, 0x3c6ef372, 0xa54ff53a, 0x510e527f, 0x9b05688c, 0x1f83d9ab, 0x5be0cd19]

def roundConstants : List UInt32 := [
  0x428a2f98, 0x71374491, 0xb5c0fbcf, 0xe9b5dba5, 0x3956c25b, 0x59f111f1, 0x923f82a4, 0xab1c5ed5,
  0xd807aa98, 0x12835b01, 0x243185be, 0x550c7dc3, 0x72be5d74, 0x80deb1fe, 0x9bdc06a7, 0xc19bf174,
  0xe49b69c1, 0xefbe4786, 0x0fc19dc6, 0x240ca1cc, 0x2de92c6f, 0x4a7484aa, 0x5cb0a9dc, 0x76f988da,
  0x983e5152, 0xa831c66d, 0xb00327c8, 0xbf597fc7, 0xc6e00bf3, 0xd5a79147, 0x06ca6351, 0x14292967,
  0x27b70a85, 0x2e1b2138, 0x4d2c6dfc, 0x53380d13, 0x650a7354, 0x766a0abb, 0x81c2c92e, 0x92722c85,
  0xa2bfe8a1, 0xa81a664b, 0xc24b8b70, 0xc76c51a3, 0xd192e819, 0xd6990624, 0xf40e3585, 0x106aa070,
  0x19a4c116, 0x1e376c08, 0x2748774c, 0x34b0bcb5, 0x391c0cb3, 0x4ed8aa4a, 0x5b9cca4f, 0x682e6ff3,
  0x748f82ee, 0x78a5636f, 0x84c87814, 0x8cc70208, 0x90befffa, 0xa4506ceb, 0xbef9a3f7, 0xc67178f2]

structure Sha256 where
  state : List UInt32
  block : List UInt8
  blockLen : Nat
  bytesSeen : Nat
  deriving DecidableEq, Repr

namespace Sha256

/-- `Default::default`. -/
def new : Sha256 where
  state := initialState
  block := List.replicate 64 0
  blockLen := 0
  bytesSeen := 0

/-- `u32::rotate_right`. -/
def rotateRight (x n : UInt32) : UInt32 := (x >>> n) ||| (x <<< (32 - n))

/-- The first loop of `compress`: the words of the block, in front of zeros. -/
def loadSchedule (block : List UInt8) : List UInt32 :=
  overwrite (List.replicate 64 0) 0
    ((asChunks 4 block).1.map fun bytes => UInt32.ofNat (Fips180.ofBeBytes bytes))

/-- One iteration of the second loop. -/
def extend (schedule : List UInt32) (index : Nat) : List UInt32 :=
  let back (distance : Nat) := schedule.getD (index - distance) 0
  let s0 := rotateRight (back 15) 7 ^^^ rotateRight (back 15) 18 ^^^ (back 15 >>> 3)
  let s1 := rotateRight (back 2) 17 ^^^ rotateRight (back 2) 19 ^^^ (back 2 >>> 10)
  schedule.set index (back 16 + s0 + back 7 + s1)

/-- The local variables of `compress`. -/
structure Locals where
  (a b c d e f g h : UInt32)

/-- One iteration of the third loop. -/
def mix (schedule : List UInt32) (v : Locals) (index : Nat) : Locals :=
  let sum1 := rotateRight v.e 6 ^^^ rotateRight v.e 11 ^^^ rotateRight v.e 25
  let choice := (v.e &&& v.f) ^^^ (~~~v.e &&& v.g)
  let temporary1 :=
    v.h + sum1 + choice + roundConstants.getD index 0 + schedule.getD index 0
  let sum0 := rotateRight v.a 2 ^^^ rotateRight v.a 13 ^^^ rotateRight v.a 22
  let majority := (v.a &&& v.b) ^^^ (v.a &&& v.c) ^^^ (v.b &&& v.c)
  let temporary2 := sum0 + majority
  { h := v.g, g := v.f, f := v.e, e := v.d + temporary1, d := v.c, c := v.b, b := v.a,
    a := temporary1 + temporary2 }

/-- `compress`, on the state of the hasher. -/
def compress (state : List UInt32) (block : List UInt8) : List UInt32 :=
  let schedule := (List.range' 16 48).foldl extend (loadSchedule block)
  let word (k : Nat) := state.getD k 0
  let v := (List.range 64).foldl (mix schedule)
    ⟨word 0, word 1, word 2, word 3, word 4, word 5, word 6, word 7⟩
  List.zipWith (· + ·) state [v.a, v.b, v.c, v.d, v.e, v.f, v.g, v.h]

/-- The whole blocks of an input, and what stays in the block buffer. -/
def updateBlocks (s : Sha256) (input : List UInt8) : Sha256 :=
  let (blocks, remainder) := asChunks 64 input
  { s with
    state := blocks.foldl compress s.state
    block := overwrite s.block 0 remainder
    blockLen := remainder.length }

def update (s : Sha256) (input : List UInt8) : Except String Sha256 :=
  if 2 ^ 64 ≤ s.bytesSeen + input.length then
    .error "SHA-256 inputs longer than u64::MAX bytes are unsupported"
  else
    let s := { s with bytesSeen := s.bytesSeen + input.length }
    if s.blockLen = 0 then .ok (s.updateBlocks input)
    else
      let copied := min (64 - s.blockLen) input.length
      let s := { s with
        block := overwrite s.block s.blockLen (input.take copied)
        blockLen := s.blockLen + copied }
      if s.blockLen = 64 then
        let s := { s with state := compress s.state s.block, blockLen := 0 }
        .ok (s.updateBlocks (input.drop copied))
      else .ok s

def finalize (s : Sha256) : Except String (List UInt8) :=
  if 2 ^ 64 ≤ s.bytesSeen * 8 then
    .error "SHA-256 inputs longer than 2^61 - 1 bytes are unsupported"
  else
    let messageBits := s.bytesSeen * 8
    let s := { s with block := s.block.set s.blockLen 0x80, blockLen := s.blockLen + 1 }
    let s :=
      if 56 < s.blockLen then
        let block := overwrite s.block s.blockLen (List.replicate (64 - s.blockLen) 0)
        { s with state := compress s.state block, block := List.replicate 64 0 }
      else
        { s with block := overwrite s.block s.blockLen (List.replicate (56 - s.blockLen) 0) }
    let block := overwrite s.block 56 (Fips180.toBeBytes 8 messageBits)
    .ok ((compress s.state block).flatMap fun word => Fips180.toBeBytes 4 word.toNat)

/-- Updates one after the other. -/
def updates (s : Sha256) (inputs : List (List UInt8)) : Except String Sha256 :=
  inputs.foldlM update s

end Sha256

def digestBytes (input : List UInt8) : Except String (List UInt8) := do
  (← Sha256.new.update input).finalize

/-- What `digest_reader` returns instead; a panic is one of the hasher. -/
inductive ReaderError (ε : Type) where
  | invalidInput (message : String)
  | other (message : String)
  | io (error : ε)
  | panic (message : String)
  deriving DecidableEq, Repr

section
variable {ε : Type}

/-- A result of the hasher, which is a panic where it is none. -/
def orPanic {α : Type} (x : Except String α) : Except (ReaderError ε) α := x.mapError .panic

/-- The loop of `digest_reader`. A call of `read` puts its bytes at the front of the buffer; `reads`
are what the calls give, and behind them the reader is at its end. -/
def readAll (hasher : Sha256) (buffer : List UInt8) (bytes : Nat) :
    List (Except ε (List UInt8)) → Except (ReaderError ε) (Sha256 × Nat)
  | [] => .ok (hasher, bytes)
  | .error error :: _ => .error (.io error)
  | .ok read :: reads =>
    if read.length = 0 then .ok (hasher, bytes)
    else if 2 ^ 64 ≤ bytes + read.length then .error (.other "hashed byte count overflowed")
    else do
      let buffer := overwrite buffer 0 read
      let hasher ← orPanic (hasher.update (buffer.take read.length))
      readAll hasher buffer (bytes + read.length) reads

def digestReader (reads : List (Except ε (List UInt8))) (bufferBytes : Nat) :
    Except (ReaderError ε) (List UInt8 × Nat) :=
  if bufferBytes = 0 then
    .error (.invalidInput "SHA-256 buffer size must be greater than zero")
  else do
    let (hasher, bytes) ← readAll .new (List.replicate bufferBytes 0) 0 reads
    return (← orPanic hasher.finalize, bytes)

end

/-- A vector of the standard. -/
example : digestBytes [0x61, 0x62, 0x63] = .ok [
    0xba, 0x78, 0x16, 0xbf, 0x8f, 0x01, 0xcf, 0xea, 0x41, 0x41, 0x40, 0xde, 0x5d, 0xae, 0x22, 0x23,
    0xb0, 0x03, 0x61, 0xa3, 0x96, 0x17, 0x7a, 0x9c, 0xb4, 0x10, 0xff, 0x61, 0xf2, 0x00, 0x15,
    0xad] := by
  decide +kernel

end Qwen3Tts.Artifact
