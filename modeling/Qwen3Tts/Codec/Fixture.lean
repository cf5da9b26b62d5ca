import Qwen3Tts.Lib.Fallible
import Mathlib.Algebra.Ring.Int.Defs
import Mathlib.Algebra.Ring.Nat
import Mathlib.Data.UInt

/-!
# Codec — the fixture pipeline

`ReferenceState::process`, which makes the samples of a whole list of frames, and
`qwen3_tts_codec_process_fixture_packet_v1`, which makes them packet by packet on the device. Both
calculate in 32-bit integers: an operation that leaves them is a fault, and so are an assertion
that fails and an access outside a buffer. Division truncates toward zero in both languages.

The KV tags of `update_exact_kv_fixture_kernel` and the times of a packet are left out: no sample
depends on them.
-/

namespace Qwen3Tts.Codec.Fixture

open Qwen3Tts.Lib

inductive Fault where
  | invalidArgument (message : String)
  | state (message : String)
  | overflow
  | outOfBounds
  | panicked
  deriving DecidableEq, Repr

/-! ## 32-bit integers -/

def i32 (x : Int) : Except Fault Int := if -2 ^ 31 ≤ x ∧ x < 2 ^ 31 then .ok x else .error .overflow

def add (a b : Int) : Except Fault Int := i32 (a + b)
def sub (a b : Int) : Except Fault Int := i32 (a - b)
def mul (a b : Int) : Except Fault Int := i32 (a * b)

/-- `(3 * value + previous) / 4`. -/
def mix (value previous : Int) : Except Fault Int := do
  let sum ← add (← mul 3 value) previous
  pure (sum.tdiv 4)

/-- `(3 * centered + 2 * previous_1 - previous_2) / 4`. -/
def preconv (centered previous1 previous2 : Int) : Except Fault Int := do
  let sum ← add (← mul 3 centered) (← mul 2 previous1)
  let difference ← sub sum previous2
  pure (difference.tdiv 4)

/-- The value times 8, within the 16 bits of a sample. -/
def toPcm (value : Int) : Except Fault Int16 := do
  let value ← mul value 8
  pure (Int16.ofInt (max (-32768) (min value 32767)))

/-! ## The reference -/

def codebooks : Nat := 16
def samplesPerFrame : Nat := 1920

/-- `[u16; CODEBOOKS]`. -/
abbrev Frame := { codes : List UInt16 // codes.length = codebooks }

structure ReferenceState where
  preconv : Int × Int
  transposeTails : List (List Int)
  deriving DecidableEq, Repr

namespace ReferenceState

def new : ReferenceState where
  preconv := (0, 0)
  transposeTails := [8, 5, 4, 3].map fun stride => List.replicate stride 0

def weightedSum (frame : Frame) : Except Fault Int :=
  frame.val.zipIdx.foldlM (fun sum item => do
    let term ← mul (item.1 &&& 2047).toNat (item.2 + 1)
    add sum term) 0

/-- The loop over the frames: the values so far and the two taps. -/
def filterFrame (acc : List Int × Int × Int) (frame : Frame) : Except Fault (List Int × Int × Int) := do
  let (values, previous1, previous2) := acc
  let sum ← weightedSum frame
  let centered ← sub (sum % 4096) 2048
  let filtered ← Fixture.preconv centered previous1 previous2
  pure (values ++ [filtered], centered, previous1)

def «repeat» (input : List Int) (count : Nat) : List Int :=
  input.flatMap fun value => List.replicate count value

def previousValue (input : List Int) (index : Nat) (tailValue : Int) : Except Fault Int :=
  if index = 0 then .ok tailValue
  else match input[index - 1]? with
    | some previous => .ok previous
    | none => .error .panicked

def transposeOverlap (input : List Int) (stride : Nat) (priorTail : List Int) :
    Except Fault (List Int × List Int) := do
  failIf (input = []) .panicked
  failIf (priorTail.length ≠ stride) .panicked
  let output ← input.zipIdx.mapM fun item => priorTail.mapM fun tailValue => do
    let previous ← previousValue input item.2 tailValue
    mix item.1 previous
  match input.getLast? with
  | none => .error .panicked
  | some last => pure (output.flatten, List.replicate priorTail.length last)

/-- The stages behind the filter: the values and the tails so far. -/
def stage (acc : List Int × List (List Int)) (item : Nat × List Int) :
    Except Fault (List Int × List (List Int)) := do
  let (values, tail) ← transposeOverlap acc.1 item.1 item.2
  pure (values, acc.2 ++ [tail])

def process (s : ReferenceState) (frames : List Frame) :
    Except Fault (List Int16 × ReferenceState) := do
  let (values, taps) ← frames.foldlM filterFrame ([], s.preconv)
  let values := «repeat» («repeat» values 2) 2
  let (values, tails) ← ([8, 5, 4, 3].zip s.transposeTails).foldlM stage (values, [])
  failIf (values.length ≠ frames.length * samplesPerFrame) .panicked
  let pcm ← values.mapM toPcm
  pure (pcm, ⟨taps, tails⟩)

end ReferenceState

/-! ## Device memory -/

/-- An allocation of `n` items. -/
abbrev Buffer (α : Type) (n : Nat) := { items : List α // items.length = n }

def Buffer.zero {α : Type} [Zero α] (n : Nat) : Buffer α n :=
  ⟨List.replicate n 0, List.length_replicate⟩

def load {α : Type} {n : Nat} (buffer : Buffer α n) (i : Nat) : Except Fault α :=
  match buffer.val[i]? with
  | some value => .ok value
  | none => .error .outOfBounds

theorem length_store {α : Type} {items values : List α} {offset n : Nat} (hitems : items.length = n)
    (h : offset + values.length ≤ n) :
    (items.take offset ++ (values ++ items.drop (offset + values.length))).length = n := by
  rw [List.length_append, List.length_append, List.length_take, List.length_drop]
  omega

/-- The items from `offset` on. -/
def store {α : Type} {n : Nat} (buffer : Buffer α n) (offset : Nat) (values : List α) :
    Except Fault (Buffer α n) :=
  if h : offset + values.length ≤ n then
    .ok ⟨buffer.val.take offset ++ (values ++ buffer.val.drop (offset + values.length)),
      length_store buffer.property h⟩
  else .error .outOfBounds

/-! ## Kernels

The threads of a launch write different items, so their order does not matter: a launch gives
what its threads write, from the first item on. -/

def kThreads : Nat := 256

def blocksFor (items : Nat) : Nat := (items + kThreads - 1) / kThreads

/-- The threads that pass the check `item < total`. -/
def launch {α : Type} (total : Nat) (thread : Nat → Except Fault α) : Except Fault (List α) :=
  ((List.range (blocksFor total * kThreads)).filter (· < total)).mapM thread

def kvWindow : Nat := 72

/-- Two taps, the ring of representative values, the four tails. -/
def historyItems : Nat := 2 + kvWindow + 20

abbrev History := Buffer Int historyItems

def representativeKv : Nat := 2
def transposeTails : Nat := 2 + kvWindow

def ringSlots : Nat := 3
def maxPacketFrames : Nat := 4
def codecRingItems : Nat := ringSlots * maxPacketFrames * codebooks
def pcmRingItems : Nat := ringSlots * (maxPacketFrames * samplesPerFrame)

/-- The codes of one frame, from `first` on. -/
def weightedSum (codecRing : Buffer UInt16 codecRingItems) (first : Nat) : Except Fault Int :=
  (List.range codebooks).foldlM (fun sum codebook => do
    let code ← load codecRing (first + codebook)
    let term ← mul (code &&& 2047).toNat (codebook + 1)
    add sum term) 0

/-- What the loop of `ingest_fixture_kernel` changes. -/
structure Ingest where
  history : History
  output : Buffer Int 4
  previous1 : Int
  previous2 : Int

def ingestFrame (codecRing : Buffer UInt16 codecRingItems) (codecFrames : Nat)
    (framePosition : UInt64) (s : Ingest) (frame : Nat) : Except Fault Ingest := do
  let sum ← weightedSum codecRing (codecFrames + frame * codebooks)
  let centered ← sub (sum % 4096) 2048
  let filtered ← preconv centered s.previous1 s.previous2
  let output ← store s.output frame [filtered]
  let slot := ((framePosition + frame.toUInt64) % kvWindow.toUInt64).toNat
  let history ← store s.history (representativeKv + slot) [filtered]
  pure ⟨history, output, centered, s.previous1⟩

def ingestFixtureKernel (codecRing : Buffer UInt16 codecRingItems) (codecFrames frameCount : Nat)
    (framePosition : UInt64) (history : History) (output : Buffer Int 4) :
    Except Fault (History × Buffer Int 4) := do
  let previous1 ← load history 0
  let previous2 ← load history 1
  let s ← (List.range frameCount).foldlM (ingestFrame codecRing codecFrames framePosition)
    ⟨history, output, previous1, previous2⟩
  let history ← store s.history 0 [s.previous1, s.previous2]
  pure (history, s.output)

def repeatKernel {m n : Nat} (input : Buffer Int m) (inputCount count : Nat)
    (output : Buffer Int n) : Except Fault (Buffer Int n) := do
  let values ← launch (inputCount * count) fun item => load input (item / count)
  store output 0 values

def previousItem {m : Nat} (input : Buffer Int m) (history : History) (tail inputIndex phase : Nat) :
    Except Fault Int :=
  if inputIndex = 0 then load history (tail + phase) else load input (inputIndex - 1)

def transposeOverlapKernel {m n : Nat} (input : Buffer Int m) (inputCount stride : Nat)
    (history : History) (tail : Nat) (output : Buffer Int n) : Except Fault (Buffer Int n) := do
  let values ← launch (inputCount * stride) fun item => do
    let inputIndex := item / stride
    let phase := item % stride
    let previous ← previousItem input history tail inputIndex phase
    mix (← load input inputIndex) previous
  store output 0 values

/-- One block of 32 threads. -/
def updateTailKernel {m : Nat} (input : Buffer Int m) (inputCount stride : Nat) (history : History)
    (tail : Nat) : Except Fault History := do
  let values ← ((List.range 32).filter (· < stride)).mapM fun _ => load input (inputCount - 1)
  store history tail values

def launchTranspose {m n : Nat} (input : Buffer Int m) (inputCount stride : Nat)
    (history : History) (tail : Nat) (output : Buffer Int n) :
    Except Fault (History × Buffer Int n) := do
  let output ← transposeOverlapKernel input inputCount stride history tail output
  let history ← updateTailKernel input inputCount stride history tail
  pure (history, output)

def convertPcmKernel {n : Nat} (input : Buffer Int n) (sampleCount : Nat) :
    Except Fault (List Int16) :=
  launch sampleCount fun item => do toPcm (← load input item)

/-! ## Packets -/

/-- The fields of `Qwen3TtsCodecContextV1` that a fixture packet uses. -/
structure Context where
  codecRing : Buffer UInt16 codecRingItems
  pcmRing : Buffer Int16 pcmRingItems
  hostPcmRing : Buffer Int16 pcmRingItems
  fixtureHistory : History
  scratch0 : Buffer Int 4
  scratch1 : Buffer Int 8
  scratch2 : Buffer Int 16
  scratch3 : Buffer Int 128
  scratch4 : Buffer Int 640
  scratch5 : Buffer Int 2560
  scratch6 : Buffer Int 7680
  framePosition : UInt64
  emittedSamples : UInt64
  nextRingSlot : Nat
  kvRingHead : Nat
  finalized : Bool
  devicePacketPending : Bool
  deriving DecidableEq

/-- `reset_device_state`; the scratch buffers keep what they hold. -/
def Context.reset (c : Context) : Context :=
  { c with
    codecRing := .zero _
    pcmRing := .zero _
    hostPcmRing := .zero _
    fixtureHistory := .zero _
    framePosition := 0
    emittedSamples := 0
    nextRingSlot := 0
    kvRingHead := 0
    finalized := false
    devicePacketPending := false }

/-- `Qwen3TtsCodecPacketResultV1` without its times. -/
structure PacketResult where
  firstFrame : UInt64
  firstSample : UInt64
  frameCount : Nat
  sampleCount : Nat
  slot : Nat
  isFinal : Int
  deriving DecidableEq, Repr

/-- `qwen3_tts_codec_process_fixture_packet_v1` where no call of CUDA fails. -/
def processFixturePacket (c : Context) (codecFrames : List UInt16) (frameCount : Nat) (isFinal : Int)
    (pcmCapacity : Nat) : Except Fault ((List Int16 × PacketResult) × Context) := do
  failIf (frameCount = 0 ∨ maxPacketFrames < frameCount ∨ (isFinal ≠ 0 ∧ isFinal ≠ 1))
    (.invalidArgument "packet must contain 1-4 frames")
  let sampleCount := frameCount * samplesPerFrame
  failIf (pcmCapacity < sampleCount) (.invalidArgument "PCM output capacity is too small")
  failIf (c.finalized ∨ c.devicePacketPending) (.state "stream is finalized; reset is required")
  let slot := c.nextRingSlot
  let codecSlot := slot * (maxPacketFrames * codebooks)
  let pcmSlot := slot * (maxPacketFrames * samplesPerFrame)
  let codecRing ← store c.codecRing codecSlot (codecFrames.take (frameCount * codebooks))
  let (history, scratch0) ← ingestFixtureKernel codecRing codecSlot frameCount c.framePosition
    c.fixtureHistory c.scratch0
  let scratch1 ← repeatKernel scratch0 frameCount 2 c.scratch1
  let scratch2 ← repeatKernel scratch1 (frameCount * 2) 2 c.scratch2
  let (history, scratch3) ← launchTranspose scratch2 (frameCount * 4) 8 history transposeTails
    c.scratch3
  let (history, scratch4) ← launchTranspose scratch3 (frameCount * 32) 5 history
    (transposeTails + 8) c.scratch4
  let (history, scratch5) ← launchTranspose scratch4 (frameCount * 160) 4 history
    (transposeTails + 13) c.scratch5
  let (history, scratch6) ← launchTranspose scratch5 (frameCount * 640) 3 history
    (transposeTails + 17) c.scratch6
  let samples ← convertPcmKernel scratch6 sampleCount
  let pcmRing ← store c.pcmRing pcmSlot samples
  let hostPcmRing ← store c.hostPcmRing pcmSlot ((pcmRing.val.drop pcmSlot).take sampleCount)
  let pcm := (hostPcmRing.val.drop pcmSlot).take sampleCount
  let framePosition := c.framePosition + frameCount.toUInt64
  pure ((pcm, ⟨c.framePosition, c.emittedSamples, frameCount, sampleCount, slot, isFinal⟩),
    { c with
      codecRing := codecRing, pcmRing := pcmRing, hostPcmRing := hostPcmRing
      fixtureHistory := history, scratch0 := scratch0, scratch1 := scratch1, scratch2 := scratch2
      scratch3 := scratch3, scratch4 := scratch4, scratch5 := scratch5, scratch6 := scratch6
      framePosition := framePosition
      emittedSamples := c.emittedSamples + sampleCount.toUInt64
      kvRingHead := (framePosition % kvWindow.toUInt64).toNat
      nextRingSlot := (slot + 1) % ringSlots
      finalized := isFinal ≠ 0 })

/-- `NativeCodec::process_fixture`. -/
def processFixture (c : Context) (frames : List Frame) (isFinal : Bool) :
    Except Fault ((List Int16 × PacketResult) × Context) :=
  processFixturePacket c (frames.flatMap Subtype.val) (frames.length % 2 ^ 32)
    (if isFinal then 1 else 0) (frames.length * samplesPerFrame)

/-- Packet after packet; the samples of all of them. -/
def feed (c : Context) : List (List Frame × Bool) → Except Fault (List Int16 × Context)
  | [] => pure ([], c)
  | (frames, isFinal) :: rest => do
    let ((pcm, _), c) ← processFixture c frames isFinal
    let (more, c) ← feed c rest
    pure (pcm ++ more, c)

end Qwen3Tts.Codec.Fixture
