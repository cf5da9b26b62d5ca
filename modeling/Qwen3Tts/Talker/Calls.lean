import Qwen3Tts.Lib.Assoc
import Qwen3Tts.Lib.Machine
import Qwen3Tts.Talker.GraphCache

/-!
# Talker — the calls on a set of sessions

The entry points that change a session (`reset`, `prefill`, `begin_frame`, `batch_begin_frames`,
`finish_frame`) on any number of sessions of one model, with arbitrary arguments and a failure at
any CUDA call. Beside its `TalkerContext` each session has a ledger, which only records: the leases
that were taken and what became of them, whether an EOS token came out, the frames since the last
prefill, and what its stream waits for before the frame codes are written again.
-/

namespace Qwen3Tts.Talker

open Qwen3Tts.Lib

/-! ## Ledgers -/

inductive LeaseState where
  | outstanding | finished
  /-- The begin that took the lease failed. -/
  | failed
  deriving DecidableEq, Repr

structure Ledger where
  /-- The leases taken so far, newest first. -/
  leases : List (UInt64 × LeaseState)
  /-- The last token that a prefill or a finish returned was EOS. -/
  ended : Bool
  /-- Prompt tokens and finished frames of the last successful prefill, until the next attempt at a
  reset or a prefill. -/
  generation : Option (Nat × Nat)
  /-- The consumer's event that the finish of the last frame was given. -/
  consumer : Option Nat
  /-- The events that the stream waits for behind the last write of the frame codes. -/
  waits : List Nat
  deriving DecidableEq, Repr

structure Session where
  context : TalkerContext
  ledger : Ledger
  deriving DecidableEq, Repr

/-- A session as the constructor leaves it. -/
def Session.fresh (c : TalkerContext) : Session :=
  { context := c
    ledger := { leases := [], ended := false, generation := none, consumer := none, waits := [] } }

/-! ## Calls and answers -/

inductive Call where
  /-- `cudaSetDevice` fails at the head of some call. -/
  | unselected (message : String)
  | reset (session : Address) (fault : Option String)
  | prefill (session : Address) (steps : List (Int × Int)) (sampling : SamplingConfig)
      (outcome : TalkerContext.PrefillOutcome)
  | beginFrame (session : Address) (token : Nat) (trailingTextToken : Int)
      (talkerSampling predictorSampling : SamplingConfig) (copyCodesToHost : Bool)
      (fault : Option (TalkerContext.BeginPoint × String))
  | batchBegin (slots : List Slot) (fault : Option BatchFault)
  | finish (session : Address) (leaseId : UInt64) (consumer : Option Nat)
      (outcome : TalkerContext.FinishOutcome)
  deriving DecidableEq, Repr

/-- What a call returns. `rejected` is an error of its checks, `failed` any later one. -/
inductive Answer where
  | rejected (message : String)
  | failed (message : String)
  | wasReset
  | first (token : Nat)
  /-- The leases of the views. -/
  | leased (views : List (Address × UInt64))
  | next (token : Nat)
  deriving DecidableEq, Repr

namespace Session

/-- `reset`; its upload of the random state comes last. -/
def reset (s : Session) (fault : Option String) : Answer × Session :=
  match s.context.reset with
  | .error message =>
    (.rejected message, { s with ledger := { s.ledger with generation := none } })
  | .ok c =>
    let s := { context := c, ledger := { s.ledger with generation := none } }
    match fault with
    | some message => (.failed message, s)
    | none => (.wasReset, s)

def prefill (s : Session) (steps : List (Int × Int)) (sampling : SamplingConfig)
    (outcome : TalkerContext.PrefillOutcome) : Answer × Session :=
  let attempted := { s.ledger with generation := none }
  match s.context.prefillChecks steps with
  | .error message => (.rejected message, { s with ledger := attempted })
  | .ok () =>
    match s.context.prefill steps sampling outcome with
    | (.error message, c) => (.failed message, { context := c, ledger := attempted })
    | (.ok first, c) => (.first first, {
        context := c
        ledger := { attempted with
          ended := first == kCodecEos, generation := some (steps.length, 0) } })

/-- Enters the lease that was just taken, and the write of the frame codes behind it. -/
def enter (state : LeaseState) (s : Session) : Session :=
  { s with ledger := { s.ledger with
      leases := (s.context.pendingLeaseId, state) :: s.ledger.leases
      consumer := none, waits := [] } }

def onContext (f : TalkerContext → TalkerContext) (s : Session) : Session :=
  { s with context := f s.context }

def beginFrame (a : Address) (s : Session) (token : Nat) (trailingTextToken : Int)
    (talkerSampling predictorSampling : SamplingConfig) (copyCodesToHost : Bool)
    (fault : Option (TalkerContext.BeginPoint × String)) : Answer × Session :=
  match s.context.beginChecks token trailingTextToken with
  | .error message => (.rejected message, s)
  | .ok () =>
    match s.context.leaseFrame talkerSampling predictorSampling copyCodesToHost fault with
    | (.error message, c) =>
      (.failed message, ((s.onContext TalkerContext.lease).enter .failed).onContext fun _ => c)
    | (.ok leaseId, c) => (.leased [(a, leaseId)], ({ s with context := c }).enter .outstanding)

/-- The newest lease is finished; the stream waits for its consumer. -/
def settle (consumer : Option Nat) (ledger : Ledger) (token : Nat) : Ledger :=
  { ledger with
    leases := match ledger.leases with
      | (id, _) :: rest => (id, .finished) :: rest
      | [] => []
    ended := token == kCodecEos
    generation := ledger.generation.map fun (prompt, frames) => (prompt, frames + 1)
    consumer := consumer }

/-- `finish_frame`. The wait for the consumer is enqueued before the synchronisation. -/
def finish (s : Session) (leaseId : UInt64) (consumer : Option Nat)
    (outcome : TalkerContext.FinishOutcome) : Answer × Session :=
  match s.context.finishChecks leaseId with
  | .error message => (.rejected message, s)
  | .ok () =>
    let waiting := { s.ledger with waits := s.ledger.waits ++ consumer.toList }
    match s.context.finishFrame leaseId outcome with
    | (.error message, c) =>
      (.failed message, { context := c, ledger := if outcome.failed then s.ledger else waiting })
    | (.ok token, c) => (.next token, { context := c, ledger := settle consumer waiting token })

end Session

/-! ## The machine -/

/-- The live sessions by their address. -/
abbrev Pool := List (Address × Session)

namespace Pool

/-- The contexts alone, as a batch call sees them. -/
def contexts (pool : Pool) : List (Address × TalkerContext) :=
  pool.map fun (a, s) => (a, s.context)

/-- A call on one session. -/
def on (pool : Pool) (a : Address) (f : Session → Answer × Session) : Option (Answer × Pool) :=
  (assoc pool a).map fun s => ((f s).1, modifyAt a (fun _ => (f s).2) pool)

def names (slots : List Slot) : List Address := slots.map Slot.session

/-- `batch_begin_frames` on the sessions it names. -/
def batchBegin (pool : Pool) (slots : List Slot) (fault : Option BatchFault) :
    Option (Answer × Pool) :=
  (rowsOf pool.contexts slots).map fun rows =>
    match preamble rows with
    | .error message => (.rejected message, pool)
    | .ok () =>
      let leased : Pool := modifyEach (names slots) (Session.onContext TalkerContext.lease) pool
      match fault with
      | none =>
        let advanced : Pool :=
          modifyEach (names slots) (Session.onContext TalkerContext.advance) leased
        let views := (names slots).filterMap fun a =>
          (assoc advanced a).map fun s => (a, s.context.pendingLeaseId)
        (.leased views, modifyEach (names slots) (Session.enter .outstanding) advanced)
      | some fault =>
        let advanced : Pool := match fault with
          | .beforeLaunch => leased
          | .rejoin row =>
            modifyEach (names (slots.take (row + 1))) (Session.onContext TalkerContext.advance) leased
        let entered : Pool := modifyEach (names slots) (Session.enter .failed) advanced
        (.failed "CUDA call failed",
          modifyEach (names slots) (Session.onContext TalkerContext.poison) entered)

/-- One call on a live session; on any other pointer nothing is defined. -/
def call (pool : Pool) : Call → Option (Answer × Pool)
  | .unselected message => some (.failed message, pool)
  | .reset a fault => pool.on a (·.reset fault)
  | .prefill a steps sampling outcome => pool.on a (·.prefill steps sampling outcome)
  | .beginFrame a token trailingTextToken talkerSampling predictorSampling copyCodesToHost fault =>
    pool.on a (Session.beginFrame a · token trailingTextToken talkerSampling predictorSampling
      copyCodesToHost fault)
  | .batchBegin slots fault => pool.batchBegin slots fault
  | .finish a leaseId consumer outcome => pool.on a (·.finish leaseId consumer outcome)

def step (pool : Pool) (call : Call) : Option Pool := (pool.call call).map Prod.snd

/-- Sessions that have just been created. -/
def Fresh (pool : Pool) : Prop :=
  ∀ a s, assoc pool a = some s →
    ∃ maxSequenceLength handles c, TalkerContext.new maxSequenceLength handles = .ok c ∧
      s = Session.fresh c

end Pool

end Qwen3Tts.Talker
