import Mathlib.Logic.Function.Basic
import Qwen3Tts.Lib.Machine
import Qwen3Tts.Runtime.Worker

/-!
# Runtime — the scheduler as a system of interleaved threads

`Sys` is the memory shared by the worker thread and any number of client threads: the slot
pool, the command channel, the table of requests, the shutdown flag, and the worker's own
locals. `Sys.step` lets one thread take one atomic step; an `Action` says which, and resolves
what the environment decides (the clock, the backend's answers, whether a wait timed out,
whether a session's destructor panics). Every interleaving of the program is a list of actions.

Ids come from a `u64` counter that starts at one; it is taken not to wrap.
-/

namespace Qwen3Tts.Runtime

open Qwen3Tts.Lib

/-! ## State -/

/-- How far the single effective call of `RequestHandle::cancel` has come. `cancel_sent` is
`true` in every state but `idle`. -/
inductive CancelProgress where
  | idle
  | swapped
  | sending
  | done
  deriving DecidableEq, Repr

/-- Whether the client owns the `RequestHandle`. -/
inductive HandleState where
  | notReturned
  | owned
  | dropped
  deriving DecidableEq, Repr

/-- Everything that belongs to one request outside the worker. -/
structure Request where
  shared : RequestShared
  cancel : CancelProgress
  handle : HandleState
  /-- Packets `poll` has returned and the client has not dropped. -/
  outstanding : List OwnedAudioPacket
  history : List Event

namespace Request

/-- The table entry of an id that has not been handed out. -/
def unused (id : Nat) : Request where
  shared := .new id 0 0 0
  cancel := .idle
  handle := .notReturned
  outstanding := []
  history := []

def emit (r : Request) (event : Event) : Request := { r with history := r.history ++ [event] }

end Request

inductive SchedulerHandle where
  | live
  | closing
  | dropped
  deriving DecidableEq, Repr

structure Sys where
  config : EngineConfig
  now : Nat
  /-- `SlotPool::used`. -/
  used : Nat
  nextRequestId : Nat
  scheduler : SchedulerHandle
  /-- The flag `shutdown`. -/
  shutdown : Bool
  channel : List Command
  receiverAlive : Bool
  /-- How often `step_batch` was called. -/
  batches : Nat
  /-- The `PendingStart`s of `start` calls that have not sent them yet. -/
  starting : List PendingStart
  requests : Nat → Request
  worker : Worker

/-- What a thread's step leaves open. -/
inductive Choice where
  | run
  | timeout
  | disconnected
  | dropPanics
  /-- `start_batch` panics (`none`) or returns these results. -/
  | startBatch (results : Option (List (Except BackendError BackendStarted)))
  /-- `step_batch` leaves `write id k` at position `k` of the buffer of request `id` and panics
  (`none`) or returns these results. -/
  | stepBatch (write : Nat → Nat → Int16)
      (results : Option (List (Except BackendError BackendPacket)))

inductive Action where
  | tick (microseconds : Nat)
  | start (input : RequestInput) (generation : GenerationConfig)
  | sendStart (id : Nat)
  | dropScheduler
  | sendShutdown
  | poll (id : Nat)
  | cancelSwap (id : Nat)
  | cancelMark (id : Nat)
  | cancelSend (id : Nat)
  | dropHandle (id : Nat)
  | dropPacket (id index : Nat)
  | worker (choice : Choice)

namespace Sys

/-- The scheduler just after `Scheduler::new` accepted `config`. -/
def init (config : EngineConfig) : Sys where
  config := config
  now := 0
  used := 0
  nextRequestId := 1
  scheduler := .live
  shutdown := false
  channel := []
  receiverAlive := true
  batches := 0
  starting := []
  requests := .unused
  worker := ⟨.top false, [], []⟩

/-! ## Channel -/

def commandCapacity (s : Sys) : Nat := s.config.maxConcurrentRequests * 4 + 8

def hasRoom (s : Sys) : Bool := s.channel.length < s.commandCapacity

/-- `try_send`: a full or disconnected channel discards the command. -/
def trySend (s : Sys) (command : Command) : Sys :=
  if s.receiverAlive && s.hasRoom then { s with channel := s.channel ++ [command] } else s

def wake : Nat → Sys → Sys
  | 0, s => s
  | n + 1, s => wake n (s.trySend .wake)

/-! ## Updates -/

def goto (s : Sys) (control : Control) : Sys :=
  { s with worker := { s.worker with control := control } }

def setActive (s : Sys) (active : List ActiveRequest) : Sys :=
  { s with worker := { s.worker with active := active } }

def setPending (s : Sys) (pending : List PendingStart) : Sys :=
  { s with worker := { s.worker with pending := pending } }

def onRequest (s : Sys) (id : Nat) (f : Request → Request) : Sys :=
  { s with requests := Function.update s.requests id (f (s.requests id)) }

def emit (s : Sys) (id : Nat) (event : Event) : Sys := s.onRequest id (·.emit event)

/-- A critical section on a request. Each buffer it puts back into the pool went through
`recycle_pcm`, which ends with `try_send(Wake)`. -/
def onShared (s : Sys) (id : Nat) (f : RequestShared → RequestShared) : Sys :=
  let before := (s.requests id).shared
  wake ((f before).freePcm.length - before.freePcm.length)
    (s.onRequest id fun r => { r with shared := f r.shared })

/-- `SlotPool::release`, when a permit is dropped. -/
def release (s : Sys) (id : Nat) : Sys :=
  { s with used := s.used - 1 }.emit id .released

def applyMark (s : Sys) (id : Nat) : Mark → Sys
  | .cancelled => s.onShared id .markCancelled
  | .failed cause => (s.emit id (.markedFailed cause)).onShared id (·.markFailed cause.error)

def shared (s : Sys) (id : Nat) : RequestShared := (s.requests id).shared

/-! ## `handle_command` -/

/-- `pending.iter().position(..)` followed by `pending.swap_remove(index)`. -/
def takePending (id : Nat) (pending : List PendingStart) :
    Option (PendingStart × List PendingStart) :=
  match pending.findIdx? (fun p => p.id = id) with
  | none => none
  | some index => pending[index]?.map fun p => (p, swapRemove pending index)

/-- Receive one command and run `handle_command` on it up to its first lock. -/
def receive (s : Sys) (site : Site) : Option Sys :=
  match s.channel with
  | [] => none
  | command :: rest =>
    let s := { s with channel := rest }
    match command with
    | .start p => some ((s.setPending (s.worker.pending ++ [p])).goto (site.next false))
    | .wake => some (s.goto (site.next false))
    | .shutdown => some (s.goto (site.next true))
    | .cancel id =>
      match takePending id s.worker.pending with
      | some (p, pending) =>
        some ((s.setPending pending).goto
          (.retirePending (.mark .cancelled) p (.cancelActive id site)))
      | none => some (s.goto (.cancelActive id site))

/-- `active.iter().find(..)` and its `mark_cancelled`. -/
def cancelActive (s : Sys) (id : Nat) (site : Site) : Sys :=
  let s := if s.worker.active.any (fun a => a.id = id) then s.onShared id .markCancelled else s
  s.goto (site.next false)

/-! ## The head of the loop -/

def top (s : Sys) (commandShutdown : Bool) : Sys :=
  if s.shutdown || commandShutdown then s.goto (.exitActive false)
  else if s.worker.active.isEmpty && s.worker.pending.isEmpty then s.goto .recv
  else s.goto (.drain false)

def drain (s : Sys) (commandShutdown : Bool) : Option Sys :=
  if s.channel.isEmpty then some (s.goto (.coalesce commandShutdown))
  else s.receive (.drain commandShutdown)

/-- The loop condition of `coalesce_pending_starts`; its early return on `available == 0` is the
case in which no `pending.len() < available` can hold. -/
def coalesceWindow (s : Sys) : Bool :=
  !s.worker.pending.isEmpty &&
    s.worker.pending.length < s.config.maxConcurrentRequests - s.worker.active.length

def coalesce (s : Sys) (commandShutdown : Bool) : Option Sys :=
  if s.coalesceWindow then s.receive (.coalesce commandShutdown)
  else some (s.goto (.gate commandShutdown))

/-- The second shutdown test, then `start_pending` up to its first lock: `drain(..)` empties
`pending`. -/
def gate (s : Sys) (commandShutdown : Bool) : Sys :=
  if s.shutdown || commandShutdown then s.goto (.exitActive false)
  else if s.worker.pending.isEmpty then s.goto (.removeCancelled 0)
  else (s.setPending []).goto (.startCheck s.worker.pending [])

/-! ## `start_pending` -/

def startCheck (s : Sys) (todo ready : List PendingStart) : Sys :=
  match todo with
  | [] => if ready.isEmpty then s.goto (.removeCancelled 0) else s.goto (.startMark s.now [] ready)
  | p :: todo =>
    let cancelRequested := (s.shared p.id).isCancelRequested
    let s := s.emit p.id (.examined cancelRequested)
    if cancelRequested then s.goto (.retirePending (.mark .cancelled) p (.startCheck todo ready))
    else s.goto (.startCheck todo (ready ++ [p]))

def startMark (s : Sys) (prefillStarted : Nat) (marked todo : List PendingStart) : Sys :=
  match todo with
  | [] => s.goto (.startBatch marked)
  | p :: todo =>
    (s.onShared p.id
      (·.markPrefilling (durationMicroseconds (prefillStarted - p.enqueuedAt)))).goto
      (.startMark prefillStarted (marked ++ [p]) todo)

/-- What the loop over `ready` sees for each request. -/
def startOutcomes (ready : List PendingStart) :
    Option (List (Except BackendError BackendStarted)) →
      List (PendingStart × Except FailureCause BackendStarted)
  | none => ready.map fun p => (p, .error .startPanicked)
  | some results =>
    if results.length = ready.length then
      ready.zip (results.map (·.mapError .startError))
    else ready.map fun p => (p, .error .startMiscounted)

/-- Whether a miscounted result list holds sessions. -/
def startLeftover (ready : List PendingStart) :
    Option (List (Except BackendError BackendStarted)) → Bool
  | none => false
  | some results => results.length != ready.length && results.any (·.isOk)

/-- What the call of `start_batch` records for one request. -/
def startEvents : Except FailureCause BackendStarted → List Event
  | .ok _ => [.startBatch, .sessionObtained]
  | .error _ => [.startBatch]

/-- Record the events of a batched call, one list for each request. -/
def emitAll : List (Nat × List Event) → Sys → Sys
  | [], s => s
  | (id, events) :: rest, s =>
    emitAll rest (s.onRequest id fun r => { r with history := r.history ++ events })

def startBatch (s : Sys) (ready : List PendingStart)
    (results : Option (List (Except BackendError BackendStarted))) : Sys :=
  let outcomes := startOutcomes ready results
  (emitAll (outcomes.map fun o => (o.1.id, startEvents o.2)) s).goto
    (.startResults (startLeftover ready results) outcomes)

def startResults (s : Sys) (leftover : Bool)
    (todo : List (PendingStart × Except FailureCause BackendStarted)) : Sys :=
  match todo with
  | [] => s.goto (.removeCancelled 0)
  | (p, .ok started) :: todo =>
    (s.onShared p.id (·.markGenerating started)).goto (.startSnapshot p leftover todo)
  | (p, .error cause) :: todo =>
    s.goto (.retirePending (.mark (.failed cause)) p (.startResults leftover todo))

/-- `record.metrics = lock_unpoisoned(&request.shared.state).metrics` and the push onto
`active`. -/
def startSnapshot (s : Sys) (p : PendingStart) (leftover : Bool)
    (todo : List (PendingStart × Except FailureCause BackendStarted)) : Sys :=
  let record := ((RequestRecord.new p.id).transition .prefilling).transition .generating
  let active : ActiveRequest := {
    session := some ⟨p.id⟩
    record := { record with metrics := (s.shared p.id).state.metrics }
    startedAt := p.enqueuedAt
    maxCodecFrames := p.request.generation.maxCodecFrames
    permit := p.permit }
  (s.setActive (s.worker.active ++ [active])).goto (.startResults leftover todo)

/-! ## `remove_cancelled` and the selection of eligible requests -/

def removeCancelled (s : Sys) (index : Nat) : Sys :=
  match s.worker.active[index]? with
  | none => s.goto (.select 0 [])
  | some a =>
    if (s.shared a.id).isCancelRequested then
      (s.setActive (swapRemove s.worker.active index)).goto
        (.retireActive (.cancelBackend (some .cancelled)) a (.removeCancelled index))
    else s.goto (.removeCancelled (index + 1))

def select (s : Sys) (index : Nat) (eligible : List Nat) : Sys :=
  match s.worker.active[index]? with
  | none =>
    if eligible.isEmpty then s.goto .idleWait else s.goto (.takeSessions s.now eligible [])
  | some a =>
    if (s.shared a.id).stateAccepts then s.goto (.selectPool index eligible)
    else s.goto (.select (index + 1) eligible)

/-- The second half of `can_accept_packet`. -/
def selectPool (s : Sys) (index : Nat) (eligible : List Nat) : Option Sys :=
  s.worker.active[index]?.map fun a =>
    if (s.shared a.id).poolAccepts then s.goto (.select (index + 1) (eligible ++ [a.id]))
    else s.goto (.select (index + 1) eligible)

/-! ## `step_eligible` -/

/-- `active[*index]`; an index out of bounds has no step. -/
def lookupActive (s : Sys) (id : Nat) : Option ActiveRequest :=
  s.worker.active.find? (fun a => a.id = id)

def takeSessions (s : Sys) (stepStarted : Nat) (todo : List Nat) (selected : List Selected) :
    Option Sys :=
  match todo with
  | [] => some (s.goto (.stepBatch stepStarted selected))
  | id :: todo =>
    (s.lookupActive id).map fun a =>
      match a.session with
      | none => (s.applyMark id (.failed .noSession)).goto (.takeSessions stepStarted todo selected)
      | some session =>
        match (s.shared id).takePcm with
        | none => s.goto (.takeFailed id stepStarted todo selected)
        | some (pcm, shared) =>
          let active := modifyActive id (fun a => { a with session := none }) s.worker.active
          let entry : Selected := ⟨id, session, pcm.map fun _ => pcmSentinel⟩
          ((s.onShared id fun _ => shared).setActive active).goto
            (.takeSessions stepStarted todo (selected ++ [entry]))

def stepOutcomes (selected : List Selected) :
    Option (List (Except BackendError BackendPacket)) →
      List (Selected × Except FailureCause BackendPacket)
  | none => selected.map fun entry => (entry, .error .stepPanicked)
  | some results =>
    if results.length = selected.length then
      selected.zip (results.map (·.mapError .stepError))
    else selected.map fun entry => (entry, .error .stepMiscounted)

/-- What `step_batch` returned for a session, as the history records it. -/
def outcomeOf : Except FailureCause BackendPacket → StepOutcome
  | .ok packet => .packet packet.isFinal
  | .error .stepPanicked => .panicked
  | .error .stepMiscounted => .miscounted
  | .error _ => .error

def stepBatch (s : Sys) (stepStarted : Nat) (selected : List Selected)
    (write : Nat → Nat → Int16) (results : Option (List (Except BackendError BackendPacket))) :
    Sys :=
  let outcomes := stepOutcomes (selected.map (Selected.written write)) results
  let stepMicroseconds := F32.ofU64 (durationMicroseconds (s.now - stepStarted))
  let events := outcomes.map fun o =>
    (o.1.id, [Event.stepBatch s.batches, .stepOutcome (outcomeOf o.2)])
  { emitAll events s with batches := s.batches + 1 }.goto (.settle stepMicroseconds outcomes)

/-- One turn of the loop over `results`, up to its first lock. -/
def settle (s : Sys) (stepMicroseconds : F32)
    (todo : List (Selected × Except FailureCause BackendPacket)) : Option Sys :=
  match todo with
  | [] => some (s.goto (.removeFinished 0))
  | (entry, result) :: todo =>
    (s.lookupActive entry.id).map fun a =>
      let restore := fun a : ActiveRequest => { a with session := some entry.session }
      let fail := fun cause =>
        (s.setActive (modifyActive entry.id restore s.worker.active)).goto
          (.substep entry.id (.recycle entry.pcm cause) stepMicroseconds todo)
      match result with
      | .error cause => fail cause
      | .ok packet =>
        match a.accept packet entry.pcm s.config.packetFrames s.now stepMicroseconds with
        | .error cause => fail cause
        | .ok (owned, record) =>
          (s.setActive (modifyActive entry.id (fun a => { restore a with record := record })
            s.worker.active)).goto
            (.substep entry.id (.push owned record.metrics) stepMicroseconds todo)

def substep (s : Sys) (id : Nat) (sub : Substep) (stepMicroseconds : F32)
    (todo : List (Selected × Except FailureCause BackendPacket)) : Sys :=
  let next := Control.settle stepMicroseconds todo
  match sub with
  | .recycle pcm cause =>
    (s.onShared id (·.recyclePcm pcm)).goto (.substep id (.fail cause) stepMicroseconds todo)
  | .fail cause => (s.applyMark id (.failed cause)).goto next
  | .push packet metrics =>
    match (s.shared id).pushPacket packet metrics with
    | some shared => ((s.onShared id fun _ => shared).emit id (.published packet)).goto next
    | none => s.goto (.substep id (.rejected packet.pcm) stepMicroseconds todo)
  | .rejected pcm =>
    -- `push_packet` drops the packet it was given once the lock is released
    (s.onShared id (·.recyclePcm pcm)).goto (.substep id .overflow stepMicroseconds todo)
  | .overflow =>
    if (s.shared id).isCancelRequested then s.goto next
    else s.goto (.substep id (.fail .queueOverflow) stepMicroseconds todo)

/-! ## `remove_finished` -/

def removeFinished (s : Sys) (index : Nat) : Sys :=
  match s.worker.active[index]? with
  | none => s.goto (.top false)
  | some a =>
    let state := (s.shared a.id).state
    let failedOrCancelled := state.failure.isSome || state.cancelRequested
    if state.producerFinished || failedOrCancelled then
      (s.setActive (swapRemove s.worker.active index)).goto
        (.retireActive (if failedOrCancelled then .cancelBackend none else .dropSession) a
          (.removeFinished index))
    else s.goto (.removeFinished (index + 1))

/-! ## Retirement -/

def retirePending (s : Sys) (step : RetirePendingStep) (p : PendingStart) (k : PendingReturn) :
    Sys :=
  match step with
  | .mark mark => (s.applyMark p.id mark).goto (.retirePending .release p k)
  | .release => (s.release p.id).goto (.retirePending .markRetired p k)
  | .markRetired => (s.onShared p.id .markRetired).goto k.control

/-- `if let Some(session) = &mut request.session` around an event of that session. -/
def emitSession (s : Sys) (a : ActiveRequest) (event : Event) : Sys :=
  if a.session.isSome then s.emit a.id event else s

def retireActive (s : Sys) (step : RetireActiveStep) (a : ActiveRequest) (k : ActiveReturn)
    (panics : Bool) : Sys :=
  match step with
  | .cancelBackend mark =>
    -- a panic of `backend.cancel` is caught by `cancel_backend_safely`
    (s.emitSession a .backendCancel).goto
      (.retireActive (mark.elim .dropSession .mark) a k)
  | .mark mark => (s.applyMark a.id mark).goto (.retireActive .dropSession a k)
  | .dropSession =>
    (s.emitSession a .sessionDropped).goto
      (.retireActive (.release (panics && a.session.isSome)) a k)
  | .release unwinding =>
    (s.release a.id).goto (if unwinding then k.unwind else .retireActive .markRetired a k)
  | .markRetired => (s.onShared a.id .markRetired).goto k.control

/-! ## The end of `worker_loop` -/

def exitMark (panicked : Bool) : Mark :=
  if panicked then .failed .workerPanicked else .cancelled

def exitActive (s : Sys) (panicked : Bool) : Sys :=
  match s.worker.active with
  | [] => s.goto (.exitPending panicked)
  | a :: active =>
    (s.setActive active).goto
      (.retireActive (.cancelBackend (some (exitMark panicked))) a (.exitActive panicked))

def exitPending (s : Sys) (panicked : Bool) : Sys :=
  match s.worker.pending with
  | [] => s.goto (.exitChannel panicked)
  | p :: pending =>
    (s.setPending pending).goto
      (.retirePending (.mark (exitMark panicked)) p (.exitPending panicked))

def exitChannel (s : Sys) (panicked : Bool) : Sys :=
  match s.channel with
  | [] => s.goto .disconnect
  | .start p :: rest =>
    { s with channel := rest }.goto
      (.retirePending (.mark (exitMark panicked)) p (.exitChannel panicked))
  | _ :: rest => { s with channel := rest }

/-- The rest of `active` is dropped while a panic of one of its sessions unwinds; a second
panic aborts the process. -/
def unwindActive (s : Sys) (panics : Bool) : Sys :=
  match s.worker.active with
  | [] => s.goto .unwindPending
  | a :: active =>
    ((s.setActive active).emitSession a .sessionDropped).goto
      (if panics && a.session.isSome then .aborted a else .unwindPermit a)

def unwindPending (s : Sys) : Sys :=
  match s.worker.pending with
  | [] => s.goto .disconnect
  | p :: pending => (s.setPending pending).release p.id

/-- Dropping the receiver discards the queued commands, and with them their permits. -/
def discard (s : Sys) : Sys :=
  match s.channel with
  | [] => s.goto .stopped
  | .start p :: rest => { s with channel := rest }.release p.id
  | _ :: rest => { s with channel := rest }

/-! ## One step of the worker -/

def workerStep (s : Sys) (choice : Choice) : Option Sys :=
  match s.worker.control, choice with
  | .top commandShutdown, .run => some (s.top commandShutdown)
  | .recv, .run => s.receive .recv
  | .recv, .disconnected => if s.channel.isEmpty then some (s.goto (.drain true)) else none
  | .drain commandShutdown, .run => s.drain commandShutdown
  | .drain _, .disconnected => if s.channel.isEmpty then some (s.goto (.coalesce true)) else none
  | .coalesce commandShutdown, .run => s.coalesce commandShutdown
  | .coalesce commandShutdown, .timeout => some (s.goto (.gate commandShutdown))
  | .coalesce _, .disconnected => if s.channel.isEmpty then some (s.goto (.gate true)) else none
  | .gate commandShutdown, .run => some (s.gate commandShutdown)
  | .cancelActive id site, .run => some (s.cancelActive id site)
  | .startCheck todo ready, .run => some (s.startCheck todo ready)
  | .startMark prefillStarted marked todo, .run => some (s.startMark prefillStarted marked todo)
  | .startBatch ready, .startBatch results => some (s.startBatch ready results)
  | .startResults leftover todo, .run => some (s.startResults leftover todo)
  | .startResults true [], .dropPanics => some (s.goto (.exitActive true))
  | .startSnapshot p leftover todo, .run => some (s.startSnapshot p leftover todo)
  | .removeCancelled index, .run => some (s.removeCancelled index)
  | .select index eligible, .run => some (s.select index eligible)
  | .selectPool index eligible, .run => s.selectPool index eligible
  | .idleWait, .run => s.receive .idle
  | .idleWait, .timeout => some (s.goto (.top false))
  | .idleWait, .disconnected => if s.channel.isEmpty then some (s.goto (.top true)) else none
  | .takeSessions stepStarted todo selected, .run => s.takeSessions stepStarted todo selected
  | .takeFailed id stepStarted todo selected, .run =>
    some ((s.applyMark id (.failed .poolEmpty)).goto (.takeSessions stepStarted todo selected))
  | .stepBatch stepStarted selected, .stepBatch write results =>
    some (s.stepBatch stepStarted selected write results)
  | .settle stepMicroseconds todo, .run => s.settle stepMicroseconds todo
  | .substep id sub stepMicroseconds todo, .run => some (s.substep id sub stepMicroseconds todo)
  | .removeFinished index, .run => some (s.removeFinished index)
  | .retirePending step p k, .run => some (s.retirePending step p k)
  | .retireActive step a k, .run => some (s.retireActive step a k false)
  | .retireActive .dropSession a k, .dropPanics => some (s.retireActive .dropSession a k true)
  | .exitActive panicked, .run => some (s.exitActive panicked)
  | .exitPending panicked, .run => some (s.exitPending panicked)
  | .exitChannel panicked, .run => some (s.exitChannel panicked)
  | .unwindActive, .run => some (s.unwindActive false)
  | .unwindActive, .dropPanics => some (s.unwindActive true)
  | .unwindPermit a, .run => some ((s.release a.id).goto .unwindActive)
  | .unwindPending, .run => some s.unwindPending
  | .disconnect, .run => some ({ s with receiverAlive := false }.goto .discard)
  | .discard, .run => some s.discard
  | _, _ => none

/-! ## Steps of the clients -/

/-- `Scheduler::start` up to the point where it sends: validation, `try_acquire`, and the
request under its new id. -/
def start (s : Sys) (input : RequestInput) (generation : GenerationConfig) :
    Except SchedulerError Sys :=
  match input.validate s.config with
  | .error error => .error (.invalidInput error)
  | .ok () =>
    match validateGeneration generation with
    | .error error => .error error
    | .ok () =>
      if s.used = s.config.maxConcurrentRequests then .error .full
      else
        let id := s.nextRequestId
        let pending : PendingStart := ⟨⟨id, input, generation⟩, s.now, ⟨⟩⟩
        let request : Request := { Request.unused id with
          shared := .new id s.config.pcmRingSlots
            (s.config.packetFrames * samplesPerCodecFrame) s.now
          history := [.admitted generation] }
        .ok { s with
          used := s.used + 1
          nextRequestId := id + 1
          starting := s.starting ++ [pending]
          requests := Function.update s.requests id request }

/-- The blocking `send(Start)`: it waits for room, and a dead receiver drops the
`PendingStart`. -/
def sendStart (s : Sys) (id : Nat) : Option Sys :=
  match s.starting.find? (fun p => p.id = id) with
  | none => none
  | some p =>
    let rest := { s with starting := s.starting.filter (fun q => q.id ≠ id) }
    if s.receiverAlive then
      if s.hasRoom then
        some ({ rest with channel := s.channel ++ [Command.start p] }.onRequest id
          fun r => { r with handle := .owned })
      else none
    else some (rest.release id)

/-- What `start` returns behind its `send`: a handle, or an error when the worker is gone. -/
def sendResult (s : Sys) : Except SchedulerError Unit :=
  if s.receiverAlive then .ok () else .error .closed

def poll (s : Sys) (id : Nat) : Option Sys :=
  if (s.requests id).handle = .owned then
    let (answer, shared) := (s.shared id).poll s.now
    let s := (s.onShared id fun _ => shared).emit id (.polled answer)
    some (match answer with
      | .packet packet =>
        (s.onRequest id fun r => { r with outstanding := r.outstanding ++ [packet] }).trySend .wake
      | _ => s)
  else none

/-- `cancel_sent.swap(true, ..)`; a second caller returns at once and changes nothing. -/
def cancelSwap (s : Sys) (id : Nat) : Option Sys :=
  if (s.requests id).handle = .owned ∧ (s.requests id).cancel = .idle then
    some (s.onRequest id fun r => { r with cancel := .swapped })
  else none

def cancelMark (s : Sys) (id : Nat) : Option Sys :=
  if (s.requests id).cancel = .swapped then
    let (effective, shared) := (s.shared id).requestCancel
    let s := s.onShared id fun _ => shared
    some (if effective then
      (s.emit id .cancelRequested).onRequest id fun r => { r with cancel := .sending }
    else s.onRequest id fun r => { r with cancel := .done })
  else none

/-- The blocking `send(Cancel)`; a dead receiver makes `cancel` return `Closed`. -/
def cancelSend (s : Sys) (id : Nat) : Option Sys :=
  if (s.requests id).cancel = .sending ∧ (s.hasRoom ∨ s.receiverAlive = false) then
    some ((s.trySend (.cancel id)).onRequest id fun r => { r with cancel := .done })
  else none

/-- The end of `RequestHandle::drop`, after its call of `cancel` has returned. -/
def dropHandle (s : Sys) (id : Nat) : Option Sys :=
  if (s.requests id).handle = .owned ∧ (s.requests id).cancel = .done then
    some (s.onRequest id fun r => { r with handle := .dropped })
  else none

/-! ## Who keeps a request alive -/

/-- The start commands waiting in a channel. -/
def queuedStarts (channel : List Command) : List PendingStart :=
  channel.filterMap fun command =>
    match command with
    | .start p => some p
    | _ => none

def heldIdsOfReturn : PendingReturn → List Nat
  | .startCheck todo ready => (todo ++ ready).map (·.id)
  | .startResults _ todo => todo.map (·.1.id)
  | _ => []

/-- The requests a program point holds in local variables. -/
def heldIds : Control → List Nat
  | .startCheck todo ready => (todo ++ ready).map (·.id)
  | .startMark _ marked todo => (marked ++ todo).map (·.id)
  | .startBatch ready => ready.map (·.id)
  | .startResults _ todo => todo.map (·.1.id)
  | .startSnapshot p _ todo => p.id :: todo.map (·.1.id)
  | .retirePending _ p k => p.id :: heldIdsOfReturn k
  | .retireActive _ a _ => [a.id]
  | .unwindPermit a => [a.id]
  | .aborted a => [a.id]
  | _ => []

/-- `Weak::upgrade` on a packet's recycler succeeds while the handle or any record of the
worker, of the channel or of a `start` call owns the request. -/
def canUpgrade (s : Sys) (id : Nat) : Bool :=
  (s.requests id).handle = .owned
    || (s.starting.map (·.id)).contains id
    || ((queuedStarts s.channel).map (·.id)).contains id
    || (s.worker.pending.map (·.id)).contains id
    || (s.worker.active.map (·.id)).contains id
    || (heldIds s.worker.control).contains id

/-- The client drops a packet it got from `poll`. -/
def dropPacket (s : Sys) (id index : Nat) : Option Sys :=
  match (s.requests id).outstanding[index]? with
  | none => none
  | some packet =>
    let s' := s.onRequest id fun r => { r with outstanding := r.outstanding.eraseIdx index }
    some (if s.canUpgrade id then s'.onShared id (·.recyclePcm packet.pcm) else s')

/-! ## One step of the system -/

def step (s : Sys) : Action → Option Sys
  | .tick microseconds => some { s with now := s.now + microseconds }
  | .start input generation =>
    if s.scheduler = .live then
      some (match s.start input generation with
        | .ok s' => s'
        | .error _ => s)
    else none
  | .sendStart id => s.sendStart id
  | .dropScheduler =>
    if s.scheduler = .live ∧ s.starting = [] then
      some { s with scheduler := .closing, shutdown := true }
    else none
  | .sendShutdown =>
    if s.scheduler = .closing then some ({ s with scheduler := .dropped }.trySend .shutdown)
    else none
  | .poll id => s.poll id
  | .cancelSwap id => s.cancelSwap id
  | .cancelMark id => s.cancelMark id
  | .cancelSend id => s.cancelSend id
  | .dropHandle id => s.dropHandle id
  | .dropPacket id index => s.dropPacket id index
  | .worker choice => s.workerStep choice

end Sys

/-- The states of a scheduler that `Scheduler::new` created. -/
def Reachable (config : EngineConfig) (s : Sys) : Prop :=
  validateConfig config = .ok () ∧ ∃ actions, run Sys.step (.init config) actions = some s

/-! ## A small instance

The smallest configuration: one request at a time, one codec frame a packet, one buffer. -/

def smallConfig : EngineConfig :=
  { EngineConfig.default with maxConcurrentRequests := 1, packetFrames := 1, pcmRingSlots := 1 }

def Action.workerRuns (n : Nat) : List Action := List.replicate n (.worker .run)

/-- Request 1 is started with the given limit; `start_batch` is about to be called for it. -/
def runToStart (maxCodecFrames : Nat) : List Action :=
  [.start ⟨"a", ""⟩ { GenerationConfig.default with maxCodecFrames := maxCodecFrames },
    .sendStart 1] ++ Action.workerRuns 9

/-- `step_batch` is about to be called for request 1. -/
def runToStep (maxCodecFrames : Nat) : List Action :=
  runToStart maxCodecFrames ++ [.worker (.startBatch (some [.ok ⟨0, 0, 0⟩]))]
    ++ Action.workerRuns 10

/-- A call of `step_batch` that leaves zeros in every buffer. -/
def stepReturns (results : Option (List (Except BackendError BackendPacket))) : Action :=
  .worker (.stepBatch (fun _ _ => 0) results)

def finalPacket : BackendPacket := ⟨1, true, .codecEos, .zero, .zero, 0, 0⟩

/-- Request 1 publishes one final packet and is retired; the client receives the packet and the
end of the stream. -/
def runFromStep : List Action :=
  [stepReturns (some [.ok finalPacket])] ++ Action.workerRuns 8 ++ [.poll 1, .poll 1]

def runToEnd : List Action := runToStep 1 ++ runFromStep

end Qwen3Tts.Runtime
