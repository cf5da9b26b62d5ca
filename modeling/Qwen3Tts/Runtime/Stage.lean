import Qwen3Tts.Lib.Assoc
import Qwen3Tts.Runtime.System

/-!
# Runtime — where a request is

A request's `PendingStart` or `ActiveRequest` travels from the `start` call through the channel
and the worker's vectors and locals until it is dropped. `Stage` names the places it can be in,
together with what the worker knows about it there, and `Sys.stages` reads all of them off a
state: an association list from request ids to stages. `Sys.localOf s id` is what is left of a
state when one looks at a single request only: its table entry and its stage, if it has one.

The tag an element of `active` gets depends on the program point. Behind the scan of
`remove_finished` a request is merely `active`, ahead of it it has been through a step and is
`settled`; during a step it may be `eligible`, `selected`, and so on.
-/

namespace Qwen3Tts.Runtime

open Qwen3Tts.Lib

inductive Stage where
  -- a `start` call, the channel, `pending`, or what `start_pending` has not looked at
  | waiting (p : PendingStart)
  -- `start_pending`
  | ready (p : PendingStart)
  | prefilling (p : PendingStart)
  | outcome (p : PendingStart) (result : Except FailureCause BackendStarted)
  | snapshot (p : PendingStart)
  -- `active`
  | active (a : ActiveRequest)
  | eligible (a : ActiveRequest)
  | poolEmpty (a : ActiveRequest)
  | selected (a : ActiveRequest) (entry : Selected)
  | stepped (a : ActiveRequest) (entry : Selected) (result : Except FailureCause BackendPacket)
  | settling (a : ActiveRequest) (sub : Substep)
  | settled (a : ActiveRequest)
  | exiting (panicked : Bool) (a : ActiveRequest)
  -- on the way out
  | retiringPending (step : RetirePendingStep) (p : PendingStart)
  | retiringActive (step : RetireActiveStep) (a : ActiveRequest)
  | unwound (a : ActiveRequest)

/-- The permit is dropped just before `mark_retired`. -/
def Stage.holdsPermit : Stage → Bool
  | .retiringPending .markRetired _ | .retiringActive .markRetired _ => false
  | _ => true

/-! ## Stages of the worker -/

def waitingEntry (p : PendingStart) : Nat × Stage := (p.id, .waiting p)
def readyEntry (p : PendingStart) : Nat × Stage := (p.id, .ready p)
def prefillingEntry (p : PendingStart) : Nat × Stage := (p.id, .prefilling p)
def outcomeEntry (o : PendingStart × Except FailureCause BackendStarted) : Nat × Stage :=
  (o.1.id, .outcome o.1 o.2)

namespace Control

/-- The requests in locals of `start_pending`. -/
def starts : Control → List (Nat × Stage)
  | .startCheck todo ready => todo.map waitingEntry ++ ready.map readyEntry
  | .startMark _ marked todo => marked.map prefillingEntry ++ todo.map readyEntry
  | .startBatch ready => ready.map prefillingEntry
  | .startResults _ todo => todo.map outcomeEntry
  | .startSnapshot p _ todo => (p.id, .snapshot p) :: todo.map outcomeEntry
  | _ => []

/-- The requests in locals of the worker. -/
def held : Control → List (Nat × Stage)
  | .retirePending step p k => (p.id, .retiringPending step p) :: k.control.starts
  | .retireActive step a _ => [(a.id, .retiringActive step a)]
  | .unwindPermit a | .aborted a => [(a.id, .unwound a)]
  | control => control.starts

/-- How far `remove_finished` has scanned, when it is running. -/
def scan : Control → Option Nat
  | .removeFinished index | .retireActive _ _ (.removeFinished index) => some index
  | _ => none

def selectedTag (selected : List Selected) (a : ActiveRequest) : Stage :=
  match selected.find? (fun entry => entry.id = a.id) with
  | some entry => .selected a entry
  | none => .active a

def settleTag (todo : List (Selected × Except FailureCause BackendPacket))
    (a : ActiveRequest) : Stage :=
  match todo.find? (fun o => o.1.id = a.id) with
  | some (entry, result) => .stepped a entry result
  | none => .settled a

/-- The stage of an element of `active` outside `remove_finished`. -/
def tag : Control → ActiveRequest → Stage
  | .select _ eligible, a | .selectPool _ eligible, a =>
    if a.id ∈ eligible then .eligible a else .active a
  | .takeSessions _ todo selected, a =>
    if a.id ∈ todo then .eligible a else selectedTag selected a
  | .takeFailed id _ todo selected, a =>
    if a.id = id then .poolEmpty a
    else if a.id ∈ todo then .eligible a else selectedTag selected a
  | .stepBatch _ selected, a => selectedTag selected a
  | .settle _ todo, a => settleTag todo a
  | .substep id sub _ todo, a => if a.id = id then .settling a sub else settleTag todo a
  | .exitActive panicked, a | .retireActive _ _ (.exitActive panicked), a => .exiting panicked a
  | .exitPending _, a | .exitChannel _, a => .exiting true a
  | .retirePending _ _ (.exitPending _), a | .retirePending _ _ (.exitChannel _), a =>
    .exiting true a
  | .unwindActive, a | .unwindPermit _, a | .unwindPending, a | .disconnect, a | .discard, a
  | .stopped, a | .aborted _, a => .exiting true a
  | _, a => .active a

/-- The program points at which `active` has been emptied for good. -/
def pastActive : Control → Bool
  | .exitPending _ | .exitChannel _ | .retirePending _ _ (.exitPending _)
  | .retirePending _ _ (.exitChannel _) | .unwindPending | .disconnect | .discard
  | .stopped => true
  | _ => false

/-- The request whose cancel command is being handled. -/
def commanded : Control → Option Nat
  | .cancelActive id _ | .retirePending _ _ (.cancelActive id _) => some id
  | _ => none

end Control

-- derives the equations of `tag` here, once for all the modules that simplify with them
attribute [local simp] Control.tag

def tagged (f : ActiveRequest → Stage) (active : List ActiveRequest) : List (Nat × Stage) :=
  active.map fun a => (a.id, f a)

def activeStages (control : Control) (active : List ActiveRequest) : List (Nat × Stage) :=
  match control.scan with
  | some index => tagged .active (active.take index) ++ tagged .settled (active.drop index)
  | none => tagged control.tag active

def Worker.stages (w : Worker) : List (Nat × Stage) :=
  w.pending.map waitingEntry ++ (w.control.held ++ activeStages w.control w.active)

/-! ## Stages of a state -/

namespace Sys

def stages (s : Sys) : List (Nat × Stage) :=
  s.starting.map waitingEntry
    ++ ((queuedStarts s.channel).map waitingEntry ++ s.worker.stages)

/-- Requests for which a cancel command is queued or being handled. -/
def Commanded (s : Sys) (id : Nat) : Prop :=
  .cancel id ∈ s.channel ∨ s.worker.control.commanded = some id

end Sys

/-- One request's share of a state. -/
structure Local where
  request : Request
  stage : Option Stage

def Sys.localOf (s : Sys) (id : Nat) : Local := ⟨s.requests id, assoc s.stages id⟩

/-- Something owns the request, so that a weak reference to it can be upgraded. -/
def Local.live (l : Local) : Bool := l.request.handle = .owned || l.stage.isSome

end Qwen3Tts.Runtime
