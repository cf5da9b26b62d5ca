import Qwen3Tts.Lib.Bitonic
import Qwen3Tts.Lib.RadixSelect
import Qwen3Tts.Runtime.Types
import Qwen3Tts.Talker.Context

/-!
# Talker — the token sampler

`sample_logits_kernel` of `sampling_kernels.cu`. One thread block adjusts the logits, puts the best
of them in order, and thread 0 draws a token from them. The order is found in one of four ways: an
argmax in strides and a tree, a bitonic sort of the whole padded vocabulary, a radix selection of
the `selections`-th largest value with a bitonic sort of its survivors, or the whole sort again when
more survive than the survivor array holds.

Every loop whose turns meet in shared memory runs its turns in the order of a `Schedule`, so an
atomic counter hands out its positions in that order. What the survivor array holds before the
kernel writes to it is the parameter `stale`, and `exp` is the exponential function of the device. A
shared array is a function of its index; the launch admits vocabularies from 1 to 3072.
-/

namespace Qwen3Tts.Talker.Sampler

open Lib.Block Lib.RadixSelect

/-! ## Constants -/

def kSampleThreads : Nat := 1024
def kCandidateCap : Nat := 512
def kPredictorVocabulary : Nat := 2048

def kNegInf : Float32 := -(Float32.ofBits 0x7f800000)

/-! ## What the kernel is launched with -/

structure Launch where
  logits : Nat → UInt16
  vocabulary : Nat
  suppressTalkerReserved : Bool
  codecEosToken : Int
  semanticHistory : List Int
  config : SamplingConfig

/-- A 32-bit float of the configuration. -/
def float (x : F32) : Float32 := .ofBits x.bits

/-- `voice_request` and `SamplingConfig::native`, for the semantic tokens. -/
def talkerSampling (generation : Runtime.GenerationConfig) : SamplingConfig where
  doSample := if generation.doSample ≠ 0 then 1 else 0
  topK := .ofNat generation.topK
  topP := ⟨generation.topP.bits⟩
  temperature := ⟨generation.temperature.bits⟩
  repetitionPenalty := ⟨generation.repetitionPenalty.bits⟩

/-- `voice_request` and `SamplingConfig::native`, for the residual codes. -/
def predictorSampling (generation : Runtime.GenerationConfig) : SamplingConfig where
  doSample := if generation.predictorDoSample ≠ 0 then 1 else 0
  topK := .ofNat generation.predictorTopK
  topP := ⟨generation.predictorTopP.bits⟩
  temperature := ⟨generation.predictorTemperature.bits⟩
  repetitionPenalty := ⟨Runtime.F32.one.bits⟩

/-! ## Adjusted logits -/

/-- `__bfloat162float`. -/
def bfloat162float (half : UInt16) : Float32 := .ofBits (half.toUInt32 <<< 16)

def historyContains (history : List Int) (token : Nat) : Bool := history.any (· == (token : Int))

def adjustedLogit (launch : Launch) (token : Nat) : Float32 :=
  if launch.suppressTalkerReserved ∧ kPredictorVocabulary ≤ token
      ∧ (token : Int) ≠ launch.codecEosToken then kNegInf
  else
    let value := bfloat162float (launch.logits token)
    let penalty := float launch.config.repetitionPenalty
    if launch.suppressTalkerReserved ∧ penalty != 1
        ∧ historyContains launch.semanticHistory token then
      if value < 0 then value * penalty else value / penalty
    else value

/-! ## Random numbers -/

/-- `next_random`: the number and the next state. -/
def nextRandom (state : UInt64) : UInt64 × UInt64 :=
  let value := if state = 0 then 0x9e3779b97f4a7c15 else state
  let value := value ^^^ (value >>> 12)
  let value := value ^^^ (value <<< 25)
  let value := value ^^^ (value >>> 27)
  (value * 0x2545f4914f6cdd1d, value)

/-- `uniform_random`: the number and the next state. -/
def uniformRandom (state : UInt64) : Float32 × UInt64 :=
  let (value, state) := nextRandom state
  (((value >>> 11).toFloat * (1 / 9007199254740992)).toFloat32, state)

/-! ## The order of the candidates -/

/-- A cell of `values` and `indices`, of `cval` and `cidx`, or of `rval` and `ridx`. -/
structure Entry where
  value : Float32
  index : Int
  deriving DecidableEq

/-- `sort_before`. -/
def sortBefore (a b : Entry) : Bool :=
  a.value > b.value || (a.value == b.value && a.index < b.index)

/-- `order_key`. -/
def orderKey (v : Float32) : UInt32 :=
  let u := v.toBits
  let u := if u = 0x80000000 then 0 else u
  if u &&& 0x80000000 ≠ 0 then ~~~u else u ||| 0x80000000

/-- The rounds between two barriers. -/
inductive Round where
  | reduce (stride : Nat)
  | histogram (shift : Nat)
  | compact
  | exchange (k j : Nat)

/-- `bitonic_sort_shared`. -/
def bitonicSortShared (schedule : Schedule Round) (m : Nat) (a : Nat → Entry) : Nat → Entry :=
  Lib.Bitonic.sort sortBefore (fun k j => schedule.order (.exchange k j) m) m a

/-- `while (n < bound) n <<= 1`. -/
def doubled (bound n : Nat) : Nat :=
  if 0 < n ∧ n < bound then doubled bound (2 * n) else n
  termination_by bound - n
  decreasing_by omega

/-- The padded logits in index order. -/
def filled (launch : Launch) (t : Nat) : Entry :=
  if t < launch.vocabulary then ⟨adjustedLogit launch t, t⟩
  else ⟨kNegInf, (launch.vocabulary + t : Nat)⟩

def selections (launch : Launch) : Nat :=
  if launch.config.doSample = 0 then 1
  else if launch.config.topK = 0 then launch.vocabulary
  else min launch.config.topK.toNatClampNeg launch.vocabulary

def directCategorical (launch : Launch) : Bool :=
  launch.config.doSample ≠ 0 && launch.config.topK = 0 && 1 ≤ float launch.config.topP

/-! ## Argmax -/

/-- The tokens of one thread from `t` on. -/
def threadArgmax (values : Nat → Entry) (vocabulary t : Nat) (best : Entry) : Entry :=
  if t < vocabulary then
    let v := (values t).value
    threadArgmax values vocabulary (t + kSampleThreads)
      (if v > best.value || (v == best.value && (best.index < 0 || (t : Int) < best.index)) then
        ⟨v, t⟩
      else best)
  else best
  termination_by vocabulary - t
  decreasing_by
    unfold kSampleThreads
    omega

def reduceTurn (stride tid : Nat) (r : Nat → Entry) : Nat → Entry :=
  if tid < stride then
    let v := (r (tid + stride)).value
    let idx := (r (tid + stride)).index
    if v > (r tid).value
        || (v == (r tid).value && 0 ≤ idx && ((r tid).index < 0 || idx < (r tid).index)) then
      Function.update r tid ⟨v, idx⟩
    else r
  else r

def reduce (schedule : Schedule Round) : Nat → (Nat → Entry) → Nat → Entry
  | 0, r => r
  | stride + 1, r =>
    reduce schedule ((stride + 1) / 2)
      (round (reduceTurn (stride + 1)) (schedule.order (.reduce (stride + 1)) kSampleThreads) r)
  termination_by stride => stride
  decreasing_by omega

/-- `rval[0]` and `ridx[0]` after the reduction. -/
def argmax (schedule : Schedule Round) (launch : Launch) : Entry :=
  reduce schedule (kSampleThreads / 2)
    (fun tid => threadArgmax (filled launch) launch.vocabulary tid ⟨kNegInf, -1⟩) 0

/-! ## Radix selection -/

/-- The turn of token `t` in the histogram of the digit at `shift`. -/
def histogramTurn (launch : Launch) (found shift t : Nat) (hist : Nat → Nat) : Nat → Nat :=
  let ok := (orderKey (filled launch t).value).toNat
  let hs := shift + 8
  if 32 ≤ hs ∨ ok >>> hs = found >>> hs then
    let b := ok >>> shift &&& 0xff
    Function.update hist b (hist b + 1)
  else hist

/-- One digit of the threshold: `s_prefix` and `s_above`. -/
def radixPass (schedule : Schedule Round) (launch : Launch) (state : Nat × Nat) (shift : Nat) :
    Nat × Nat :=
  let (found, above) := state
  let hist := round (histogramTurn launch found shift)
    (schedule.order (.histogram shift) launch.vocabulary) fun _ => 0
  let (cum, chosen) := scan hist (selections launch) 256 above
  (found ||| chosen <<< shift, cum)

/-- `okeyT`. -/
def threshold (schedule : Schedule Round) (launch : Launch) : Nat :=
  ([24, 16, 8, 0].foldl (radixPass schedule launch) (0, 0)).1

/-- The survivor array, its atomic counter and `s_fallback`. -/
structure Compaction where
  counter : Nat
  cells : Nat → Entry
  fallback : Bool

/-- The turn of token `t` in the compaction. -/
def compactTurn (launch : Launch) (okeyT t : Nat) (s : Compaction) : Compaction :=
  if okeyT ≤ (orderKey (filled launch t).value).toNat then
    let pos := s.counter
    if pos < kCandidateCap then
      { s with counter := pos + 1, cells := Function.update s.cells pos (filled launch t) }
    else { s with counter := pos + 1, fallback := true }
  else s

def compact (schedule : Schedule Round) (stale : Nat → Entry) (launch : Launch) : Compaction :=
  round (compactTurn launch (threshold schedule launch))
    (schedule.order .compact launch.vocabulary) ⟨0, stale, false⟩

/-- The survivors and their padding, in order. -/
def survivors (schedule : Schedule Round) (launch : Launch) (s : Compaction) : Nat → Entry :=
  let cpad := doubled s.counter 1
  bitonicSortShared schedule cpad fun i =>
    if s.counter ≤ i ∧ i < cpad then ⟨kNegInf, (launch.vocabulary + i : Nat)⟩ else s.cells i

/-- `sv` and `si`. -/
def candidates (schedule : Schedule Round) (stale : Nat → Entry) (launch : Launch) : Nat → Entry :=
  let sorted := bitonicSortShared schedule (doubled launch.vocabulary 1) (filled launch)
  if kCandidateCap < selections launch then sorted
  else
    let s := compact schedule stale launch
    if s.fallback then sorted else survivors schedule launch s

/-! ## The draw -/

def sum (weights : Nat → Float) (count : Nat) : Float :=
  (List.range count).foldl (fun total r => total + weights r) 0

/-- The first of `left` indices from `r` on at which the cumulative weight reaches `target`. -/
def firstReaching (weights : Nat → Float) (target : Float) : (left r : Nat) → Float → Option Nat
  | 0, _, _ => none
  | left + 1, r, cumulative =>
    let cumulative := cumulative + weights r
    if cumulative ≥ target then some r else firstReaching weights target left (r + 1) cumulative

structure Sampled where
  selectedToken : Int
  randomState : UInt64
  deriving DecidableEq

/-- The direct categorical draw, around the best entry. -/
def drawDirect (exp : Float → Float) (launch : Launch) (best : Entry) (state : UInt64) : Sampled :=
  let temperature := float launch.config.temperature
  let maximum := best.value / temperature
  let weights t := exp ((filled launch t).value / temperature - maximum).toFloat
  let total := sum weights launch.vocabulary
  let (uniform, state) := uniformRandom state
  let target := uniform.toFloat * total
  match firstReaching weights target launch.vocabulary 0 0 with
  | some t => ⟨t, state⟩
  | none => ⟨best.index, state⟩

/-- The weight of a candidate. -/
def candidateWeight (exp : Float → Float) (launch : Launch) (s : Nat → Entry) (r : Nat) : Float :=
  let temperature := float launch.config.temperature
  let maximum := (s 0).value / temperature
  exp ((s r).value / temperature - maximum).toFloat

/-- The number of candidates that `top_p` retains. -/
def retainedCount (weights : Nat → Float) (topP : Float) (selections : Nat) : Nat :=
  let denominator := sum weights selections
  match firstReaching (fun r => weights r / denominator) topP selections 0 0 with
  | some r => r + 1
  | none => selections

/-- The sampling tail, over the candidates in order. -/
def drawCandidate (exp : Float → Float) (launch : Launch) (s : Nat → Entry) (state : UInt64) :
    Sampled :=
  let weights := candidateWeight exp launch s
  let retained := retainedCount weights (float launch.config.topP).toFloat (selections launch)
  let retainedTotal := sum weights retained
  let (uniform, state) := uniformRandom state
  let target := uniform.toFloat * retainedTotal
  match firstReaching weights target retained 0 0 with
  | some r => ⟨(s r).index, state⟩
  | none => ⟨(s (retained - 1)).index, state⟩

/-- `sample_logits_kernel`. -/
def sampleLogits (exp : Float → Float) (schedule : Schedule Round) (stale : Nat → Entry)
    (launch : Launch) (state : UInt64) : Sampled :=
  if launch.config.doSample = 0 then ⟨(argmax schedule launch).index, state⟩
  else if directCategorical launch then drawDirect exp launch (argmax schedule launch) state
  else drawCandidate exp launch (candidates schedule stale launch) state

end Qwen3Tts.Talker.Sampler
