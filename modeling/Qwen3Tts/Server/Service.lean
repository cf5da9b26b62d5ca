import Mathlib.Logic.Function.Basic
import Qwen3Tts.Lib.Machine
import Qwen3Tts.Server.Worker

/-!
# Server — the bookkeeping of requests

`start_prepared`, `cancel_request`, `ShutdownController::cancel` and the `ActiveGuard` of
`server.rs` on the state they share: the map of active requests, the service metrics and the
admission lock. Each critical section and each atomic update of a counter is a step of its own,
so the calls interleave at every point where another thread can run. What the two workers do in
between is in `Server.Worker`; here a worker ends with any completion, also `pending`, the one
that a panic leaves behind.

A call is named by its position in `calls`; its cancellation token has the same name.
-/

namespace Qwen3Tts.Server

open Qwen3Tts.Lib

/-! ## `ServiceMetrics` -/

/-- The `AtomicU64`s; their `fetch_add` and `fetch_sub` wrap. -/
structure ServiceMetrics where
  requestsTotal : UInt64 := 0
  activeRequests : UInt64 := 0
  streamingRequests : UInt64 := 0
  bufferedRequests : UInt64 := 0
  completedRequests : UInt64 := 0
  failedRequests : UInt64 := 0
  cancelledRequests : UInt64 := 0
  rejectedRequests : UInt64 := 0
  retirementTimeouts : UInt64 := 0
  emittedSamples : UInt64 := 0
  deriving DecidableEq, Repr

/-! ## Calls -/

/-- Where a call of `start_prepared`, with the worker it spawns, stands. -/
inductive Stage where
  /-- In front of the admission lock. -/
  | arrived
  /-- Answered with an error, nothing left to do. -/
  | refused
  /-- Under the lock: the entry is in the map, `engine.start` is being called. -/
  | inserted
  /-- `engine.start` failed; the entry is still in the map. -/
  | startFailed
  /-- The entry is gone again; the rejection is not counted yet. -/
  | removed
  /-- Admitted; the three updates of `request_started` come next, one by one. -/
  | admitted | totalled | gauged
  /-- The worker runs, or waits to run, with its guard. -/
  | running
  /-- The worker ended and drops its guard. -/
  | finished (completion : Completion)
  /-- The guard left the map; its metrics update comes next. -/
  | released (completion : Completion)
  /-- The first update of that metrics call is made, the second comes next. -/
  | recording (completion : Completion)
  /-- `request_completed` still has to add the samples. -/
  | summing (samples : Nat)
  | done (completion : Completion)
  deriving DecidableEq, Repr

structure Call where
  requestId : Uuid
  streaming : Bool
  tokenCancelled : Bool := false
  stage : Stage
  deriving DecidableEq, Repr

inductive ActiveRequest where
  | running (token : Nat)
  | retirementTimedOut
  deriving DecidableEq, Repr

structure Service where
  /-- The map, by request id. -/
  active : Uuid → Option ActiveRequest := fun _ => none
  metrics : ServiceMetrics := {}
  shutdown : Bool := false
  /-- The call that holds the admission lock. -/
  admission : Option Nat := none
  calls : List Call := []

namespace Service

/-- Moves call `i` to `stage`. -/
def put (s : Service) (i : Nat) (c : Call) (stage : Stage) : Service :=
  { s with calls := s.calls.set i { c with stage := stage } }

/-! ## Steps -/

/-- A call reaches `start_prepared`. A buffered one takes an egress permit first (`permit`). -/
def arrive (s : Service) (requestId : Uuid) (streaming permit : Bool) : Service :=
  if streaming || permit then
    { s with calls := s.calls ++ [{ requestId, streaming, stage := .arrived }] }
  else
    { s with
      metrics := { s.metrics with rejectedRequests := s.metrics.rejectedRequests + 1 }
      calls := s.calls ++ [{ requestId, streaming, stage := .refused }] }

/-- The admission lock is taken, the shutdown flag and the map are examined. A refused call gives
the lock back at once, an inserted one keeps it. -/
def admission? (s : Service) (i : Nat) (c : Call) : Option Service :=
  if c.stage = .arrived ∧ s.admission = none then
    if s.shutdown then some (s.put i c .refused)
    else match s.active c.requestId with
    | some _ => some (s.put i c .refused)
    | none => some { s.put i c .inserted with
        active := Function.update s.active c.requestId (some (.running i))
        admission := some i }
  else none

/-- `engine.start` returns; after a success the lock is given back. -/
def engineStart (s : Service) (i : Nat) (c : Call) (ok : Bool) : Option Service :=
  if c.stage = .inserted then
    if ok then some { s.put i c .admitted with admission := none }
    else some (s.put i c .startFailed)
  else none

/-- The map section of `ActiveGuard::drop`. -/
def release (s : Service) (c : Call) (completion : Completion) : Uuid → Option ActiveRequest :=
  if completion = .retirementTimedOut then
    if (s.active c.requestId).isSome then
      Function.update s.active c.requestId (some .retirementTimedOut)
    else s.active
  else Function.update s.active c.requestId none

/-- The first update of the metrics call of `ActiveGuard::drop`. -/
def firstUpdate (m : ServiceMetrics) : Completion → ServiceMetrics
  | .retirementTimedOut => { m with failedRequests := m.failedRequests + 1 }
  | _ => { m with activeRequests := m.activeRequests - 1 }

/-- Its second update, with the stage behind it. -/
def secondUpdate (m : ServiceMetrics) : Completion → ServiceMetrics × Stage
  | .completed samples =>
    ({ m with completedRequests := m.completedRequests + 1 }, .summing samples)
  | .cancelled =>
    ({ m with cancelledRequests := m.cancelledRequests + 1 }, .done .cancelled)
  | .pending => ({ m with failedRequests := m.failedRequests + 1 }, .done .pending)
  | .failed => ({ m with failedRequests := m.failedRequests + 1 }, .done .failed)
  | .retirementTimedOut =>
    ({ m with retirementTimeouts := m.retirementTimeouts + 1 }, .done .retirementTimedOut)

/-- The next update of call `i` where nothing has to be chosen. -/
def advance (s : Service) (i : Nat) (c : Call) : Option Service :=
  let m := s.metrics
  match c.stage with
  | .startFailed =>
    some { s.put i c .removed with active := Function.update s.active c.requestId none }
  | .removed => some { s.put i c .refused with
      metrics := { m with rejectedRequests := m.rejectedRequests + 1 }
      admission := none }
  | .admitted =>
    some { s.put i c .totalled with metrics := { m with requestsTotal := m.requestsTotal + 1 } }
  | .totalled =>
    some { s.put i c .gauged with metrics := { m with activeRequests := m.activeRequests + 1 } }
  | .gauged => some { s.put i c .running with
      metrics := if c.streaming then { m with streamingRequests := m.streamingRequests + 1 }
        else { m with bufferedRequests := m.bufferedRequests + 1 } }
  | .finished completion =>
    some { s.put i c (.released completion) with active := s.release c completion }
  | .released completion =>
    some { s.put i c (.recording completion) with metrics := firstUpdate m completion }
  | .recording completion => some { s.put i c (secondUpdate m completion).2 with
      metrics := (secondUpdate m completion).1 }
  | .summing samples => some { s.put i c (.done (.completed samples)) with
      metrics := { m with emittedSamples := m.emittedSamples + .ofNat samples } }
  | _ => none

/-- `cancel_request`: a running request's token is cancelled. -/
def delete (s : Service) (requestId : Uuid) : Service :=
  match s.active requestId with
  | some (.running token) =>
    { s with calls := s.calls.modify token ({ · with tokenCancelled := true }) }
  | _ => s

/-- `ShutdownController::cancel`, under the admission lock: the token of every call that was
given one is cancelled with the process-wide one. -/
def cancelAll (s : Service) : Option Service :=
  if s.admission = none then
    some { s with
      shutdown := true
      calls := s.calls.map fun c =>
        if c.stage = .arrived ∨ c.stage = .refused then c else { c with tokenCancelled := true } }
  else none

end Service

inductive Act where
  | arrive (requestId : Uuid) (streaming permit : Bool)
  | enter (i : Nat)
  | engineStart (i : Nat) (ok : Bool)
  /-- The worker of call `i` ends. -/
  | finish (i : Nat) (completion : Completion)
  | advance (i : Nat)
  | delete (requestId : Uuid)
  | shutdown
  deriving DecidableEq, Repr

def Service.step (s : Service) : Act → Option Service
  | .arrive requestId streaming permit => some (s.arrive requestId streaming permit)
  | .enter i => s.calls[i]?.bind (s.admission? i)
  | .engineStart i ok => s.calls[i]?.bind (s.engineStart i · ok)
  | .finish i completion => s.calls[i]?.bind fun c =>
      if c.stage = .running then some (s.put i c (.finished completion)) else none
  | .advance i => s.calls[i]?.bind (s.advance i)
  | .delete requestId => some (s.delete requestId)
  | .shutdown => s.cancelAll

end Qwen3Tts.Server
