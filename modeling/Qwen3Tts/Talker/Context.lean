import Mathlib.Algebra.Ring.Nat
import Qwen3Tts.Lib.Fallible
import Mathlib.Data.List.Basic

/-!
# Talker — the host side of `TalkerContext`

The host fields of a talker session in `talker.cu` and the functions that read and write them:
construction, `reset`, `prefill`, `finish_frame`, and the preamble of `batch_begin_frames`, whose
checks mirror those of `begin_frame`. What the device computes enters as an argument (the token
that was sampled, or the message of the CUDA call that failed). A session exists only for a
finalized model and all sessions here are of one model, so `ensure_ready` and the model check
always pass.
-/

namespace Qwen3Tts.Talker

open Qwen3Tts.Lib

/-! ## Constants and configuration -/

def kTalkerLayers : Nat := 28
def kPredictorLayers : Nat := 5
def kResidualCodebooks : Nat := 15
def kPredictorSequence : Nat := 16
def kTalkerVocabulary : Nat := 3072
def kTextVocabulary : Nat := 151936
def kCodecEos : Nat := 2150
/-- `BatchWorkspace::kCapacity`. -/
def kCapacity : Nat := 8

/-- A `float` given by its bits. -/
structure F32 where
  bits : UInt32
  deriving DecidableEq, Repr

namespace F32

def isNaN (x : F32) : Bool := (0x7f800000 : UInt32) < x.bits &&& 0x7fffffff

/-- `x <= 0.0f`: a set sign bit, or positive zero. -/
def nonPositive (x : F32) : Bool :=
  !x.isNaN && (x.bits == 0 || decide ((0x80000000 : UInt32) ≤ x.bits))

/-- `x > 1.0f`: positive numbers are ordered as their bits. -/
def aboveOne (x : F32) : Bool :=
  !x.isNaN && decide ((0x3f800000 : UInt32) < x.bits) && decide (x.bits < (0x80000000 : UInt32))

end F32

/-- `Qwen3TtsSamplingConfig`. -/
structure SamplingConfig where
  doSample : Int32
  topK : Int32
  topP : F32
  temperature : F32
  repetitionPenalty : F32
  deriving DecidableEq, Repr

/-- The comparisons are the source's: a NaN passes each of them. -/
def SamplingConfig.valid (config : SamplingConfig) : Bool :=
  !(decide (config.topK < 0) || config.topP.nonPositive || config.topP.aboveOne
    || config.temperature.nonPositive || config.repetitionPenalty.nonPositive)

inductive TalkerPhase where
  | created | ready | prefilled | ended
  deriving DecidableEq, Repr

/-! ## The session -/

/-- A pointer, or the handle of a CUDA event. -/
abbrev Address := UInt64

/-- Key and value buffer of one decoder layer. -/
structure LayerCache where
  key : Address
  value : Address
  deriving DecidableEq, Repr

/-- What the constructor allocates for a session and a lockstep frame refers to: device buffers,
the pinned word that the sampled token is copied to, and the events. The workspaces that only
the unbatched path uses are left out. -/
structure Handles where
  frameTokens : Address
  sampledToken : Address
  lastHidden : Address
  semanticHistory : Address
  randomState : Address
  frameCodes : Address
  talkerCache : List LayerCache
  predictorCache : List LayerCache
  hostSampledToken : Address
  start : Address
  stop : Address
  predictorStart : Address
  predictorStop : Address
  frameCodesReady : Address
  semanticReady : Address
  deriving DecidableEq, Repr

structure TalkerContext where
  handles : Handles
  maxSequenceLength : Nat
  position : Nat
  generatedSemanticCount : Nat
  currentSemanticToken : Nat
  phase : TalkerPhase
  framesGenerated : Nat
  deviceSampleCount : Nat
  hostSyncCount : Nat
  frameInFlight : Bool
  pendingHostCodeCopy : Bool
  poisoned : Bool
  nextLeaseId : UInt64
  pendingLeaseId : UInt64
  pendingTalkerPosition : Nat
  deriving DecidableEq, Repr

/-- One session's place in a batch call. -/
structure Slot where
  session : Address
  trailingTextToken : Int
  talkerSampling : SamplingConfig
  predictorSampling : SamplingConfig
  deriving DecidableEq, Repr

namespace TalkerContext

/-- `reset` behind its check. -/
def cleared (c : TalkerContext) : TalkerContext :=
  { c with
    position := 0, generatedSemanticCount := 0, framesGenerated := 0, deviceSampleCount := 0
    hostSyncCount := 0, currentSemanticToken := 0, phase := .ready }

def reset (c : TalkerContext) : Except String TalkerContext :=
  if c.frameInFlight then .error "cannot reset while a device frame lease is in flight"
  else .ok c.cleared

/-- The constructor, which ends with `reset(seed)`. -/
def new (maxSequenceLength : Nat) (handles : Handles) : Except String TalkerContext :=
  if maxSequenceLength < 16 ∨ 8192 < maxSequenceLength then
    .error "max sequence length must be in [16, 8192]"
  else
    .ok {
      handles := handles, maxSequenceLength := maxSequenceLength
      position := 0, generatedSemanticCount := 0, currentSemanticToken := 0, phase := .ready
      framesGenerated := 0, deviceSampleCount := 0, hostSyncCount := 0
      frameInFlight := false, pendingHostCodeCopy := false, poisoned := false
      nextLeaseId := 1, pendingLeaseId := 0, pendingTalkerPosition := 0 }

/-! ## `prefill` -/

/-- `embedding_row`. -/
def embeddingRow (token : Int) (vocabulary : Nat) : Except String Unit :=
  failIf (token < 0 ∨ (vocabulary : Int) ≤ token) "embedding token is outside its vocabulary"

/-- The checks of `prepare_prompt_embedding`. -/
def preparePromptEmbedding (step : Int × Int) : Except String Unit := do
  failIf (step.1 < 0 ∧ step.2 < 0) "a prompt position must contain text or codec input"
  if 0 ≤ step.1 then embeddingRow step.1 kTextVocabulary
  if 0 ≤ step.2 then embeddingRow step.2 kTalkerVocabulary

/-- What the device does in a prefill: a call fails before the prompt has run, the sampler cannot
be launched, its token cannot be appended to the history, the token cannot be copied (`synced`: the
copy was enqueued and the synchronisation failed), or the token arrives. -/
inductive PrefillOutcome where
  | promptFailed (message : String)
  | sampleFailed (message : String)
  | storeFailed (message : String)
  | copyFailed (synced : Bool) (message : String)
  | sampled (token : Int)
  deriving DecidableEq, Repr

/-- `validated_host_sampled_token`. -/
def validatedToken (token : Int) : Except String Nat :=
  if token < 0 ∨ (kTalkerVocabulary : Int) ≤ token then
    .error "device sampler returned an invalid token"
  else .ok token.toNat

/-- `phase_` once a talker token is known. -/
def phaseAfter (token : Nat) : TalkerPhase := if token = kCodecEos then .ended else .prefilled

/-- The checks that `prefill` makes before it writes anything. -/
def prefillChecks (c : TalkerContext) (steps : List (Int × Int)) : Except String Unit := do
  failIf c.poisoned "talker session is poisoned and must be destroyed"
  failIf c.frameInFlight "cannot prefill while a device frame lease is in flight"
  failIf (steps = []) "prefill requires non-empty text and codec ID arrays"
  failIf (c.maxSequenceLength < steps.length) "prompt exceeds the configured KV-cache capacity"

/-- `sample_logits_device` and `copy_sampled_token_to_host` at the end of a prefill. -/
def sampleFirst (c : TalkerContext) : PrefillOutcome → Except String Nat × TalkerContext
  | .promptFailed message | .sampleFailed message => (.error message, c)
  | .storeFailed message =>
    (.error message, { c with deviceSampleCount := c.deviceSampleCount + 1 })
  | .copyFailed synced message =>
    (.error message, { c with
      deviceSampleCount := c.deviceSampleCount + 1
      generatedSemanticCount := c.generatedSemanticCount + 1
      hostSyncCount := c.hostSyncCount + synced.toNat })
  | .sampled token =>
    let c := { c with
      deviceSampleCount := c.deviceSampleCount + 1
      generatedSemanticCount := c.generatedSemanticCount + 1
      hostSyncCount := c.hostSyncCount + 1 }
    match validatedToken token with
    | .error message => (.error message, c)
    | .ok first => (.ok first, { c with currentSemanticToken := first, phase := phaseAfter first })

/-- `prefill`, with what it leaves in the session when it throws. -/
def prefill (c : TalkerContext) (steps : List (Int × Int)) (sampling : SamplingConfig)
    (outcome : PrefillOutcome) : Except String Nat × TalkerContext :=
  match c.prefillChecks steps with
  | .error message => (.error message, c)
  | .ok () =>
    let c := { c with position := 0, generatedSemanticCount := 0 }
    match steps.forM preparePromptEmbedding, outcome with
    | .error message, _ | .ok (), .promptFailed message => (.error message, c)
    | .ok (), outcome =>
      let c := { c with position := steps.length }
      if sampling.valid then c.sampleFirst outcome
      else (.error "invalid sampling configuration", c)

/-! ## `batch_begin_frames`: preamble and leases -/

/-- The checks of the preamble for one session, in order. -/
def validate (c : TalkerContext) (slot : Slot) : Except String Unit := do
  failIf c.poisoned "talker session is poisoned and must be destroyed"
  failIf c.frameInFlight "a device frame lease is already in flight"
  failIf (c.phase ≠ .prefilled) "talker must be prefilled before frame generation"
  failIf (c.currentSemanticToken = kCodecEos) "EOS must not be expanded into a codec frame"
  failIf (kTalkerVocabulary ≤ c.currentSemanticToken)
    "semantic token is outside the talker vocabulary"
  failIf (slot.trailingTextToken < 0 ∨ (kTextVocabulary : Int) ≤ slot.trailingTextToken)
    "next-frame text token is outside the text vocabulary"
  failIf (c.maxSequenceLength ≤ c.position) "talker KV cache is full"
  failIf (c.maxSequenceLength ≤ c.generatedSemanticCount)
    "semantic history exceeds configured sequence capacity"
  failIf (¬ (slot.talkerSampling.valid ∧ slot.predictorSampling.valid))
    "invalid sampling configuration"

/-- Allocates the lease of a frame; lease ids skip zero when they wrap. -/
def lease (c : TalkerContext) : TalkerContext :=
  { c with
    nextLeaseId := if c.nextLeaseId + 1 = 0 then 1 else c.nextLeaseId + 1
    frameInFlight := true, pendingHostCodeCopy := false, pendingLeaseId := c.nextLeaseId
    pendingTalkerPosition := c.position }

/-- The counters behind the launch of a lockstep frame. -/
def advance (c : TalkerContext) : TalkerContext :=
  { c with
    deviceSampleCount := c.deviceSampleCount + kPredictorSequence
    generatedSemanticCount := c.generatedSemanticCount + 1
    position := c.position + 1 }

/-- What the `catch` block of a batch call leaves in each of its sessions. -/
def poison (c : TalkerContext) : TalkerContext :=
  { c with
    poisoned := true, frameInFlight := false, pendingHostCodeCopy := false, pendingLeaseId := 0 }

/-! ## `begin_frame` -/

/-- Where a CUDA call in the `try` block of `begin_frame` fails: when the predictor has sampled so
many codes of the frame, behind them up to the talker step, in the launch of the talker's sampler,
in the store of its token, or behind it. -/
inductive BeginPoint where
  | predictor (samples : Nat)
  | talker
  | sample
  | store
  | copy
  deriving DecidableEq, Repr

/-- The checks of `begin_frame`, in order. -/
def beginChecks (c : TalkerContext) (token : Nat) (trailingTextToken : Int) : Except String Unit := do
  failIf c.poisoned "talker session is poisoned and must be destroyed"
  failIf c.frameInFlight "a device frame lease is already in flight"
  failIf (c.phase ≠ .prefilled) "talker must be prefilled before frame generation"
  failIf (token = kCodecEos) "EOS must not be expanded into a codec frame"
  failIf (kTalkerVocabulary ≤ token) "semantic token is outside the talker vocabulary"
  failIf (token ≠ c.currentSemanticToken) "semantic token does not match talker session state"
  failIf (trailingTextToken < 0 ∨ (kTextVocabulary : Int) ≤ trailingTextToken)
    "next-frame text token is outside the text vocabulary"
  failIf (c.maxSequenceLength ≤ c.position) "talker KV cache is full"

/-- Counts samples: the predictor's of a frame, or one whose token is not stored. -/
def countSamples (c : TalkerContext) (samples : Nat) : TalkerContext :=
  { c with deviceSampleCount := c.deviceSampleCount + samples }

/-- The session behind the predictor and the talker step of a frame. -/
def talkerStep (c : TalkerContext) : TalkerContext :=
  { c.countSamples kResidualCodebooks with position := c.position + 1 }

/-- The checks of `sample_logits_device` for the talker. -/
def samplingChecks (c : TalkerContext) (sampling : SamplingConfig) : Except String Unit := do
  failIf (!sampling.valid) "invalid sampling configuration"
  failIf (c.maxSequenceLength ≤ c.generatedSemanticCount)
    "semantic history exceeds configured sequence capacity"

/-- `sample_logits_device` for the talker and the copy of its token. -/
def sampleTalker (c : TalkerContext) (sampling : SamplingConfig)
    (fault : Option (BeginPoint × String)) : Except String Unit × TalkerContext :=
  let sampled := { c with
    deviceSampleCount := c.deviceSampleCount + 1
    generatedSemanticCount := c.generatedSemanticCount + 1 }
  match c.samplingChecks sampling, fault with
  | .error message, _ => (.error message, c)
  | .ok (), none => (.ok (), sampled)
  | .ok (), some (.copy, message) => (.error message, sampled)
  | .ok (), some (.store, message) => (.error message, c.countSamples 1)
  | .ok (), some (_, message) => (.error message, c)

/-- The `try` block of `begin_frame`: what it has counted when it ends or throws. -/
def runFrame (c : TalkerContext) (talkerSampling predictorSampling : SamplingConfig)
    (fault : Option (BeginPoint × String)) : Except String Unit × TalkerContext :=
  match fault, predictorSampling.valid with
  | some (.predictor 0, message), _ => (.error message, c)
  | _, false => (.error "invalid sampling configuration", c)
  | some (.predictor samples, message), true =>
    (.error message, c.countSamples (min samples kResidualCodebooks))
  | some (.talker, message), true => (.error message, c.countSamples kResidualCodebooks)
  | fault, true => c.talkerStep.sampleTalker talkerSampling fault

/-- `begin_frame` behind its checks: the lease that the view carries, or the poisoned session. -/
def leaseFrame (c : TalkerContext) (talkerSampling predictorSampling : SamplingConfig)
    (copyCodesToHost : Bool) (fault : Option (BeginPoint × String)) :
    Except String UInt64 × TalkerContext :=
  let leased := { c.lease with pendingHostCodeCopy := copyCodesToHost }
  match leased.runFrame talkerSampling predictorSampling fault with
  | (.error message, c) => (.error message, c.poison)
  | (.ok (), c) => (.ok c.pendingLeaseId, c)

/-! ## `finish_frame` -/

/-- What the CUDA calls of `finish_frame` do: the wait for the consumer or the synchronisation
fails, the elapsed times cannot be read behind it, or everything succeeds; `token` is the word
the device copied to the host. -/
inductive FinishOutcome where
  | syncFailed (message : String)
  | timingFailed (token : Int) (message : String)
  | finished (token : Int)
  deriving DecidableEq, Repr

/-- The synchronisation was not reached or failed. -/
def FinishOutcome.failed : FinishOutcome → Bool
  | syncFailed _ => true
  | timingFailed _ _ | finished _ => false

/-- The checks that `finish_frame` makes before its first CUDA call. -/
def finishChecks (c : TalkerContext) (leaseId : UInt64) : Except String Unit := do
  failIf c.poisoned "talker session is poisoned and must be destroyed"
  failIf (!c.frameInFlight) "no device frame lease is in flight"
  failIf (leaseId = 0 ∨ leaseId ≠ c.pendingLeaseId) "device frame lease ID is stale or invalid"

/-- The session once the next semantic token is known. -/
def finished (c : TalkerContext) (token : Nat) : TalkerContext :=
  { c with
    currentSemanticToken := token, framesGenerated := c.framesGenerated + 1
    phase := phaseAfter token
    frameInFlight := false, pendingHostCodeCopy := false, pendingLeaseId := 0 }

/-- `finish_frame`, with what it leaves in the session when it throws. -/
def finishFrame (c : TalkerContext) (leaseId : UInt64) (outcome : FinishOutcome) :
    Except String Nat × TalkerContext :=
  match c.finishChecks leaseId with
  | .error message => (.error message, c)
  | .ok () =>
    let synced := { c with hostSyncCount := c.hostSyncCount + 1 }
    match outcome with
    | .syncFailed message => (.error message, c)
    | .timingFailed token message =>
      match validatedToken token with
      | .error invalid => (.error invalid, synced)
      | .ok _ => (.error message, synced)
    | .finished token =>
      match validatedToken token with
      | .error invalid => (.error invalid, synced)
      | .ok next => (.ok next, synced.finished next)

/-! ## What a session never changes

Its capacity and its allocations are fixed by the constructor. -/

/-- The two states belong to one session object: the constructor's choices agree. -/
def SameObject (c c' : TalkerContext) : Prop :=
  c'.handles = c.handles ∧ c'.maxSequenceLength = c.maxSequenceLength

theorem SameObject.refl (c : TalkerContext) : SameObject c c := ⟨rfl, rfl⟩

theorem SameObject.trans {c d e : TalkerContext} (h : SameObject c d) (h' : SameObject d e) :
    SameObject c e :=
  ⟨h'.1.trans h.1, h'.2.trans h.2⟩

/-- Sampling the first token keeps the object. -/
theorem sameObject_sampleFirst (c : TalkerContext) (outcome : PrefillOutcome) :
    SameObject c (c.sampleFirst outcome).2 := by
  cases outcome with
  | promptFailed message => exact SameObject.refl c
  | sampleFailed message => exact SameObject.refl c
  | storeFailed message => exact ⟨rfl, rfl⟩
  | copyFailed synced message => exact ⟨rfl, rfl⟩
  | sampled token =>
    unfold sampleFirst
    cases htoken : validatedToken token <;> simp [SameObject, htoken]

/-- So does a prefill. -/
theorem sameObject_prefill (c : TalkerContext) (steps : List (Int × Int))
    (sampling : SamplingConfig) (outcome : PrefillOutcome) :
    SameObject c (c.prefill steps sampling outcome).2 := by
  unfold prefill
  split
  · exact SameObject.refl c
  · split
    · exact ⟨rfl, rfl⟩
    · exact ⟨rfl, rfl⟩
    · split
      · -- the session as `position_` leaves it is the same object
        exact ⟨(sameObject_sampleFirst _ _).1, (sameObject_sampleFirst _ _).2⟩
      · exact ⟨rfl, rfl⟩

/-- So does the end of a frame. -/
theorem sameObject_finishFrame (c : TalkerContext) (leaseId : UInt64) (outcome : FinishOutcome) :
    SameObject c (c.finishFrame leaseId outcome).2 := by
  unfold finishFrame
  split
  · exact SameObject.refl c
  · split
    · exact SameObject.refl c
    all_goals
      split
      · exact ⟨rfl, rfl⟩
      · exact ⟨rfl, rfl⟩

end TalkerContext

end Qwen3Tts.Talker
