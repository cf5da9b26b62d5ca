import Qwen3Tts.Lib.Assoc
import Qwen3Tts.Lib.Machine
import Qwen3Tts.Talker.Lockstep

/-!
# Talker — lockstep frames on the device's streams

Every CUDA stream is a queue that the device works off in order, as late as it likes. A wait holds
its stream until the event it awaits is reached, in the version that was current when the wait was
enqueued; a copy to the device reads the pinned tables when it executes. The host runs
`batch_begin_frames` and `finish_frame`; the latter blocks until the session's last frame is done.
A launched graph enqueues the same operations as an uncaptured frame, so the two are not told apart
here.

* `frames_see_own_tables` — the kernels of a frame see what the call that enqueued it wrote, as
  long as no call that passes its checks finds an upload of an earlier frame still queued;
* `frame_sees_other_tables` — a second call behind a lagging device replaces the tables that the
  first one's uploads are still to read.
-/

namespace Qwen3Tts.Talker

open Qwen3Tts.Lib

/-! ## Streams and events -/

inductive Event where
  /-- `join_events[slot]`. -/
  | join (slot : Nat)
  /-- An event of a session, by its handle. -/
  | session (handle : Address)
  /-- An event of another component that a `finish_frame` is given. -/
  | consumer (id : Nat)
  deriving DecidableEq, Repr

inductive SyncOp where
  | wait (event : Event) (version : Nat)
  | record (event : Event) (version : Nat)
  deriving DecidableEq, Repr

/-- An operation on the batch stream. Those of a frame carry, as a ghost, the rows of the call
that enqueued it. -/
inductive StreamOp where
  | sync (op : SyncOp)
  | frame (rows : Rows) (op : FrameOp)
  deriving DecidableEq, Repr

/-- The operation uploads a table. -/
def StreamOp.isUpload : StreamOp → Bool
  | .frame _ (.upload _) => true
  | _ => false

/-- How often each event was recorded, and which of its versions are reached. -/
structure Events where
  issued : Event → Nat
  reached : Event → Nat → Bool

namespace Events

/-- An event that was never recorded holds nobody. -/
def passed (events : Events) (event : Event) (version : Nat) : Bool :=
  version == 0 || events.reached event version

def issue (events : Events) (event : Event) : Events :=
  { events with issued := Function.update events.issued event (events.issued event + 1) }

def reach (events : Events) (event : Event) (version : Nat) : Events :=
  { events with
    reached := fun e v => decide (e = event ∧ v = version) || events.reached e v }

/-- A wait enqueued now. -/
def wait (events : Events) (event : Event) : SyncOp := .wait event (events.issued event)

/-- A record enqueued now; `issue` goes with it. -/
def record (events : Events) (event : Event) : SyncOp := .record event (events.issued event + 1)

end Events

/-! ## The tables on the device -/

/-- Executes the copy of one table. -/
def PinnedTables.copy (tables pinned : PinnedTables) : Table → PinnedTables
  | .positions => { tables with positions := pinned.positions }
  | .kvBases => { tables with kvBases := pinned.kvBases }
  | .tokenBases => { tables with tokenBases := pinned.tokenBases }
  | .trailing => { tables with trailing := pinned.trailing }
  | .counts => { tables with counts := pinned.counts }

/-- A table holds what a call with these rows writes to it: for the rows of the call. -/
def PinnedTables.Holds (tables : PinnedTables) (rows : Rows) (table : Table) : Prop :=
  ∀ (i : Nat) (slot : Slot) (c : TalkerContext), rows[i]? = some (slot, c) →
    match table with
    | .positions => (∀ position < kPredictorSequence, tables.positions position i = position) ∧
        tables.positions kPredictorSequence i = c.position
    | .kvBases => ∀ kvSlot base, c.handles.kvBase kvSlot = some base → tables.kvBases kvSlot i = base
    | .tokenBases => tables.tokenBases i = c.handles.frameTokens
    | .trailing => tables.trailing i = slot.trailingTextToken
    | .counts => tables.counts i = c.generatedSemanticCount

/-- What was written is held. -/
theorem holds_write (tables : PinnedTables) (rows : Rows) (table : Table) :
    (tables.write rows).Holds rows table := by
  intro i slot c hrow
  cases table with
  | positions =>
    constructor
    · intro position hposition
      simp [PinnedTables.write, hrow, hposition]
    · simp [PinnedTables.write, hrow]
  | kvBases =>
    intro kvSlot base hbase
    simp [PinnedTables.write, hrow, hbase]
  | tokenBases => simp [PinnedTables.write, hrow]
  | trailing => simp [PinnedTables.write, hrow]
  | counts => simp [PinnedTables.write, hrow]

/-! ## The machine -/

structure Device where
  sessions : List (Address × TalkerContext)
  /-- The tables in pinned host memory, and their copies on the device. -/
  pinned : PinnedTables
  tables : PinnedTables
  /-- The stream of the batch workspace. -/
  batch : List StreamOp
  /-- The streams of the sessions, of which only the synchronisation matters here. -/
  streams : Address → List SyncOp
  events : Events

inductive DeviceStep where
  | batchBegin (slots : List Slot)
  | finish (address : Address) (leaseId : UInt64) (consumer : Option Nat)
      (outcome : TalkerContext.FinishOutcome)
  | runBatch
  | runSession (address : Address)
  | signal (consumer : Nat)
  deriving DecidableEq, Repr

/-- Enqueues the operations of a frame, recording events on the way. -/
def enqueueOps (rows : Rows) : List FrameOp → Events → List StreamOp × Events
  | [], events => ([], events)
  | .recordEvent _ handle :: ops, events =>
    let rest := enqueueOps rows ops (events.issue (.session handle))
    (.sync (events.record (.session handle)) :: rest.1, rest.2)
  | op :: ops, events =>
    let rest := enqueueOps rows ops events
    (.frame rows op :: rest.1, rest.2)

namespace Device

/-- Appends to a session's stream. -/
def push (d : Device) (address : Address) (op : SyncOp) : Device :=
  { d with streams := Function.update d.streams address (d.streams address ++ [op]) }

/-- The join of one row: its event is recorded on the session's stream, and the batch stream waits
for that record. -/
def join (d : Device) (slot : Slot) (row : Nat) : Device :=
  let joined := d.push slot.session (d.events.record (.join row))
  let events := d.events.issue (.join row)
  { joined with events := events, batch := d.batch ++ [.sync (events.wait (.join row))] }

/-- The joins of all rows, the frame, and the rejoin of all rows. -/
def enqueueFrame (d : Device) (rows : Rows) : Device :=
  let joined := rows.zipIdx.foldl (fun d (row, i) => d.join row.1 i) d
  let frame := enqueueOps rows (Talker.enqueueFrame (rows.map (·.2.handles))) joined.events
  let launched := { joined with batch := joined.batch ++ frame.1, events := frame.2 }
  rows.foldl (fun d row =>
    d.push row.1.session (launched.events.wait (.session row.2.handles.semanticReady))) launched

/-- `batch_begin_frames`; its CUDA calls succeed. -/
def batchBegin (d : Device) (slots : List Slot) : Option Device :=
  (rowsOf d.sessions slots).map fun rows =>
    match preamble rows with
    | .error _ => d
    | .ok () =>
      let leased := onSlots TalkerContext.lease slots d.sessions
      let written := { d with
        sessions := onSlots TalkerContext.advance slots leased
        pinned := d.pinned.write rows }
      written.enqueueFrame rows

/-- `finish_frame` returns from the synchronisation with the session's last frame; a call that
fails may return without it. -/
def synchronised (d : Device) (c : TalkerContext) (outcome : TalkerContext.FinishOutcome) : Bool :=
  outcome.failed || d.events.passed (.session c.handles.semanticReady)
    (d.events.issued (.session c.handles.semanticReady))

/-- `finish_frame`; `none` while the host is blocked in it. -/
def finish (d : Device) (address : Address) (leaseId : UInt64) (consumer : Option Nat)
    (outcome : TalkerContext.FinishOutcome) : Option Device :=
  (assoc d.sessions address).bind fun c =>
    match c.finishChecks leaseId with
    | .error _ => some d
    | .ok () =>
      if d.synchronised c outcome then
        let finished := { d with
          sessions := modifyAt address (fun c => (c.finishFrame leaseId outcome).2) d.sessions }
        match consumer with
        | none => some finished
        | some id => some (finished.push address (.wait (.consumer id) 1))
      else none

/-- The head of a queue can execute: it is not a wait for an event that is not reached. -/
def unblocked (d : Device) : SyncOp → Bool
  | .wait event version => d.events.passed event version
  | .record _ _ => true

def executeSync (d : Device) : SyncOp → Device
  | .wait _ _ => d
  | .record event version => { d with events := d.events.reach event version }

/-- What executing an operation of the batch stream changes besides the stream. -/
def execute (d : Device) : StreamOp → Device
  | .sync op => d.executeSync op
  | .frame _ (.upload table) => { d with tables := d.tables.copy d.pinned table }
  | .frame _ _ => d

def step (d : Device) : DeviceStep → Option Device
  | .batchBegin slots => d.batchBegin slots
  | .finish address leaseId consumer outcome => d.finish address leaseId consumer outcome
  | .runBatch =>
    match d.batch with
    | [] => none
    | .sync op :: rest =>
      if d.unblocked op then some ({ d with batch := rest }.execute (.sync op)) else none
    | op :: rest => some ({ d with batch := rest }.execute op)
  | .runSession address =>
    match d.streams address with
    | [] => none
    | op :: rest =>
      if d.unblocked op then
        some ({ d with streams := Function.update d.streams address rest }.executeSync op)
      else none
  | .signal consumer => some { d with events := d.events.reach (.consumer consumer) 1 }

/-! ## The property and its condition -/

/-- The operation of a frame that executes next sees, in every table it reads, what the call that
enqueued the frame wrote. -/
def SeesOwnTables (d : Device) : Prop :=
  ∀ rows op rest, d.batch = .frame rows op :: rest → ∀ table ∈ op.reads, d.tables.Holds rows table

/-- A call that passes its checks finds no upload of an earlier frame still queued. -/
def UploadsDone (d : Device) : DeviceStep → Prop
  | .batchBegin slots => ∀ rows ∈ rowsOf d.sessions slots, preamble rows = .ok () →
      ∀ op ∈ d.batch, op.isUpload = false
  | _ => True

end Device

/-! ## Working off a queue -/

/-- The tables on the device behind an operation. -/
def tablesAfter (pinned tables : PinnedTables) : StreamOp → PinnedTables
  | .frame _ (.upload table) => tables.copy pinned table
  | _ => tables

/-- The operation sees its own call's tables. -/
def Sees (tables : PinnedTables) : StreamOp → Prop
  | .frame rows op => ∀ table ∈ op.reads, tables.Holds rows table
  | _ => True

/-- Every operation of the queue sees its own call's tables, if the pinned tables stay as they
are until the queue is worked off. -/
def Replays (pinned : PinnedTables) : PinnedTables → List StreamOp → Prop
  | _, [] => True
  | tables, op :: rest => Sees tables op ∧ Replays pinned (tablesAfter pinned tables op) rest

section
variable {pinned pinned' tables : PinnedTables} {queue queue' : List StreamOp}

/-- Only an upload changes the device tables. -/
theorem tablesAfter_of_not_upload {op : StreamOp} (h : op.isUpload = false) :
    tablesAfter pinned tables op = tables := by
  cases op with
  | sync op => rfl
  | frame rows op =>
    cases op with
    | upload table => cases h
    | _ => rfl

/-- A queue without uploads does not depend on the pinned tables and leaves the device's alone. -/
theorem replays_append (hfree : ∀ op ∈ queue, op.isUpload = false)
    (h : Replays pinned tables queue) (h' : Replays pinned' tables queue') :
    Replays pinned' tables (queue ++ queue') := by
  induction queue with
  | nil => exact h'
  | cons op rest ih =>
    obtain ⟨hop, hrest⟩ := List.forall_mem_cons.mp hfree
    obtain ⟨hsees, h⟩ := h
    rw [tablesAfter_of_not_upload hop] at h
    refine ⟨hsees, ?_⟩
    rw [tablesAfter_of_not_upload hop]
    exact ih hrest h

/-- A queue without uploads, each of whose operations sees its tables now. -/
theorem replays_of_forall (hfree : ∀ op ∈ queue, op.isUpload = false)
    (hsees : ∀ op ∈ queue, Sees tables op) : Replays pinned tables queue := by
  induction queue with
  | nil => trivial
  | cons op rest ih =>
    obtain ⟨hop, hfree⟩ := List.forall_mem_cons.mp hfree
    obtain ⟨hsees, hrest⟩ := List.forall_mem_cons.mp hsees
    refine ⟨hsees, ?_⟩
    rw [tablesAfter_of_not_upload hop]
    exact ih hfree hrest

end

/-! ## A frame on the queue -/

/-- What is enqueued is a synchronisation or an operation of the frame. -/
theorem mem_enqueueOps {rows : Rows} {ops : List FrameOp} {events : Events} {sop : StreamOp}
    (h : sop ∈ (enqueueOps rows ops events).1) :
    (∃ op, sop = .sync op) ∨ ∃ op ∈ ops, sop = .frame rows op := by
  fun_induction enqueueOps rows ops events with
  | case1 events => cases h
  | case2 row handle ops events rest ih =>
    rcases List.mem_cons.mp h with rfl | h
    · exact .inl ⟨_, rfl⟩
    · rcases ih h with hrecord | ⟨op, hop, heq⟩
      · exact .inl hrecord
      · exact .inr ⟨op, List.mem_cons_of_mem _ hop, heq⟩
  | case3 op ops events hop rest ih =>
    rcases List.mem_cons.mp h with rfl | h
    · exact .inr ⟨op, List.mem_cons_self, rfl⟩
    · rcases ih h with hrecord | ⟨op', hop', heq⟩
      · exact .inl hrecord
      · exact .inr ⟨op', List.mem_cons_of_mem _ hop', heq⟩

/-- The body of a frame uploads nothing. -/
theorem bodyOp_not_upload {sessions : List Handles} {op : FrameOp} (h : BodyOp sessions op)
    (rows : Rows) : (StreamOp.frame rows op).isUpload = false := by
  cases h with
  | row hrow hop => cases hop <;> rfl
  | _ => rfl

/-- The five uploads bring in the pinned tables as they are when they execute, and the body of the
frame sees them. -/
theorem replays_frame {pinned : PinnedTables} {rows : Rows}
    (hpinned : ∀ table, pinned.Holds rows table) (tables : PinnedTables) (events : Events)
    (sessions : List Handles) :
    Replays pinned tables (enqueueOps rows (enqueueFrame sessions) events).1 := by
  have hbody : Replays pinned pinned (enqueueOps rows (frameBody sessions) events).1 := by
    refine replays_of_forall (fun sop hsop => ?_) fun sop hsop => ?_
    · rcases mem_enqueueOps hsop with ⟨op, rfl⟩ | ⟨op, hop, rfl⟩
      · rfl
      · exact bodyOp_not_upload (bodyOp_frameBody op hop) rows
    · rcases mem_enqueueOps hsop with ⟨op, rfl⟩ | ⟨op, hop, rfl⟩
      · trivial
      · exact fun table _ => hpinned table
  -- an upload reads no table, and behind the fifth one all are replaced
  exact ⟨nofun, nofun, nofun, nofun, nofun, hbody⟩

/-! ## What the host enqueues -/

/-- What the host may do to the device without touching its tables: append to the batch stream. -/
structure Appends (d d' : Device) (added : List StreamOp) : Prop where
  batch : d'.batch = d.batch ++ added
  tables : d'.tables = d.tables
  pinned : d'.pinned = d.pinned

/-- The joins append waits only. -/
theorem appends_joins (rows : List ((Slot × TalkerContext) × Nat)) (d : Device) :
    ∃ waits, (∀ op ∈ waits, ∃ wait, op = .sync wait) ∧
      Appends d (rows.foldl (fun d (row, i) => d.join row.1 i) d) waits := by
  induction rows generalizing d with
  | nil => exact ⟨[], nofun, (List.append_nil _).symm, rfl, rfl⟩
  | cons row rows ih =>
    obtain ⟨waits, hwaits, hbatch, htables, hpinned⟩ := ih (d.join row.1.1 row.2)
    have hjoin : (d.join row.1.1 row.2).batch
        = d.batch ++ [.sync ((d.events.issue (.join row.2)).wait (.join row.2))] := rfl
    refine ⟨.sync ((d.events.issue (.join row.2)).wait (.join row.2)) :: waits, ?_, ?_, htables,
      hpinned⟩
    · exact List.forall_mem_cons.mpr ⟨⟨_, rfl⟩, hwaits⟩
    · rw [List.foldl_cons, hbatch, hjoin, List.append_assoc, List.singleton_append]

/-- What is pushed to the streams of the sessions appends nothing to the batch. -/
theorem appends_pushes (rows : Rows) (op : Slot × TalkerContext → SyncOp) (d : Device) :
    Appends d (rows.foldl (fun d row => d.push row.1.session (op row)) d) [] := by
  induction rows generalizing d with
  | nil => exact ⟨(List.append_nil _).symm, rfl, rfl⟩
  | cons row rows ih =>
    obtain ⟨hbatch, htables, hpinned⟩ := ih (d.push row.1.session (op row))
    exact ⟨hbatch, htables, hpinned⟩

/-- A call appends waits and its frame to the batch stream. -/
theorem appends_enqueueFrame (d : Device) (rows : Rows) :
    ∃ waits events, (∀ op ∈ waits, ∃ wait, op = .sync wait) ∧
      Appends d (d.enqueueFrame rows)
        (waits ++ (enqueueOps rows (enqueueFrame (rows.map (·.2.handles))) events).1) := by
  obtain ⟨waits, hwaits, hbatch, htables, hpinned⟩ := appends_joins rows.zipIdx d
  unfold Device.enqueueFrame
  refine ⟨waits, (rows.zipIdx.foldl (fun d (row, i) => d.join row.1 i) d).events, hwaits, ?_⟩
  obtain ⟨hbatch', htables', hpinned'⟩ := appends_pushes rows _ _
  refine ⟨hbatch'.trans ?_, htables'.trans htables, hpinned'.trans hpinned⟩
  rw [List.append_nil]
  show _ ++ _ = _
  rw [hbatch, List.append_assoc]

/-! ## Steps and runs -/

/-- The queue can be worked off with every frame seeing its own tables. -/
def Device.Sound (d : Device) : Prop := Replays d.pinned d.tables d.batch

/-- A step that touches neither the tables nor the batch stream. -/
theorem Device.Sound.of_eq {d d' : Device} (hd : d.Sound) (hbatch : d'.batch = d.batch)
    (htables : d'.tables = d.tables) (hpinned : d'.pinned = d.pinned) : d'.Sound := by
  unfold Device.Sound
  rw [hbatch, htables, hpinned]
  exact hd

/-- A batch keeps soundness when the uploads before it are done. -/
theorem sound_batchBegin {d d' : Device} (hd : d.Sound) {slots : List Slot}
    (hdone : d.UploadsDone (.batchBegin slots)) (h : d.batchBegin slots = some d') : d'.Sound := by
  obtain ⟨rows, hrows, rfl⟩ := Option.map_eq_some_iff.mp h
  split
  · exact hd
  · rename_i hpreamble
    have hfree := hdone rows hrows hpreamble
    obtain ⟨waits, events, hwaits, hbatch, htables, hpinned⟩ := appends_enqueueFrame
      { d with
        sessions := onSlots TalkerContext.advance slots (onSlots TalkerContext.lease slots d.sessions)
        pinned := d.pinned.write rows } rows
    unfold Device.Sound
    rw [hbatch, htables, hpinned]
    have hwaits_free : ∀ op ∈ waits, op.isUpload = false := by
      intro op hop
      obtain ⟨wait, rfl⟩ := hwaits op hop
      rfl
    have hwaits_see : ∀ op ∈ waits, Sees d.tables op := by
      intro op hop
      obtain ⟨wait, rfl⟩ := hwaits op hop
      trivial
    have hjoins : Replays (d.pinned.write rows) d.tables waits :=
      replays_of_forall hwaits_free hwaits_see
    have hframe := replays_frame (holds_write d.pinned rows) d.tables events
      (rows.map (·.2.handles))
    -- what was queued has no upload left, so the new tables do not reach it
    exact replays_append hfree hd (replays_append hwaits_free hjoins hframe)

/-- A finish keeps it. -/
theorem sound_finish {d d' : Device} (hd : d.Sound) {address : Address} {leaseId : UInt64}
    {consumer : Option Nat} {outcome : TalkerContext.FinishOutcome}
    (h : d.finish address leaseId consumer outcome = some d') : d'.Sound := by
  obtain ⟨c, -, h⟩ := Option.bind_eq_some_iff.mp h
  split at h
  · cases h
    exact hd
  · split at h
    · cases consumer with
      | none =>
        cases h
        exact hd
      | some id =>
        cases h
        exact hd
    · cases h

theorem executeSync_eq (d : Device) (op : SyncOp) :
    (d.executeSync op).batch = d.batch ∧ (d.executeSync op).tables = d.tables ∧
      (d.executeSync op).pinned = d.pinned := by
  cases op <;> exact ⟨rfl, rfl, rfl⟩

/-- An operation changes the tables at most. -/
theorem execute_eq (d : Device) (op : StreamOp) :
    (d.execute op).batch = d.batch ∧ (d.execute op).tables = tablesAfter d.pinned d.tables op ∧
      (d.execute op).pinned = d.pinned := by
  cases op with
  | sync op => exact executeSync_eq d op
  | frame rows op => cases op <;> exact ⟨rfl, rfl, rfl⟩

/-- The device takes the head of the batch stream. -/
theorem sound_runBatch {d d' : Device} (hd : d.Sound) (h : d.step .runBatch = some d') :
    d'.Sound := by
  have hhead : ∃ op rest, d.batch = op :: rest ∧ d' = { d with batch := rest }.execute op := by
    simp only [Device.step] at h
    split at h
    · cases h
    · rename_i op rest hbatch
      split at h
      · cases h
        exact ⟨_, _, hbatch, rfl⟩
      · cases h
    · rename_i op rest _ hbatch
      cases h
      exact ⟨_, _, hbatch, rfl⟩
  obtain ⟨op, rest, hbatch, rfl⟩ := hhead
  obtain ⟨hrest, htables, hpinned⟩ := execute_eq { d with batch := rest } op
  unfold Device.Sound at hd ⊢
  rw [hbatch] at hd
  rw [hrest, htables, hpinned]
  exact hd.2

/-- A turn of a session's stream keeps it. -/
theorem sound_runSession {d d' : Device} (hd : d.Sound) {address : Address}
    (h : d.step (.runSession address) = some d') : d'.Sound := by
  simp only [Device.step] at h
  split at h
  · cases h
  · split at h
    · rename_i op rest _ _
      cases h
      obtain ⟨hbatch, htables, hpinned⟩ := executeSync_eq
        { d with streams := Function.update d.streams address rest } op
      exact hd.of_eq hbatch htables hpinned
    · cases h

/-- Every step keeps it. -/
theorem sound_step {d d' : Device} (hd : d.Sound) {a : DeviceStep} (hdone : d.UploadsDone a)
    (h : d.step a = some d') : d'.Sound := by
  cases a with
  | batchBegin slots => exact sound_batchBegin hd hdone h
  | finish address leaseId consumer outcome => exact sound_finish hd h
  | runBatch => exact sound_runBatch hd h
  | runSession address => exact sound_runSession hd h
  | signal consumer =>
    cases h
    exact hd

/-- A sound device sees its own tables. -/
theorem seesOwnTables_of_sound {d : Device} (hd : d.Sound) : d.SeesOwnTables := by
  intro rows op rest hbatch
  unfold Device.Sound at hd
  rw [hbatch] at hd
  exact hd.1

/-- **Every kernel of a lockstep frame sees what its own call wrote**, in every run from a state
without lockstep frames (whatever the sessions, their streams and the events are by then) in which
no call that passes its checks overtakes an upload of an earlier frame. -/
theorem frames_see_own_tables {d₀ d : Device} (hinit : d₀.batch = []) {steps : List DeviceStep}
    (hdone : Along Device.step Device.UploadsDone d₀ steps)
    (hrun : run Device.step d₀ steps = some d) : d.SeesOwnTables := by
  have hsound : d₀.Sound := by
    unfold Device.Sound
    rw [hinit]
    trivial
  refine seesOwnTables_of_sound
    (invariant_of_step (fun _ _ _ hd hdone h => sound_step hd hdone h) hsound hdone hrun)

/-! ## Two sessions -/

/-- A session that has been prefilled and whose first frame was finished. -/
def prefilledAt (base : UInt64) : TalkerContext where
  handles := handlesAt base
  maxSequenceLength := 64
  position := 2
  generatedSemanticCount := 2
  currentSemanticToken := 6
  phase := .prefilled
  framesGenerated := 1
  deviceSampleCount := 17
  hostSyncCount := 2
  frameInFlight := false
  pendingHostCodeCopy := false
  poisoned := false
  nextLeaseId := 2
  pendingLeaseId := 0
  pendingTalkerPosition := 1

/-- Two sessions; the stream of the first one waits for the consumer of its first frame. -/
def twoSessions : Device where
  sessions := [(4096, prefilledAt 1000), (8192, prefilledAt 2000)]
  pinned := ⟨fun _ _ => 0, fun _ _ => 0, fun _ => 0, fun _ => 0, fun _ => 0⟩
  tables := ⟨fun _ _ => 0, fun _ _ => 0, fun _ => 0, fun _ => 0, fun _ => 0⟩
  batch := []
  streams := fun address => if address = 4096 then [.wait (.consumer 0) 1] else []
  events := ⟨fun _ => 0, fun _ _ => false⟩

/-- The device works off the first frame up to its first use of the KV bases. -/
def stepsToScatter : List DeviceStep :=
  [.signal 0, .runSession 4096, .runSession 4096] ++ List.replicate 19 .runBatch

/-- Both sessions are called before the first one's uploads can run. -/
def stepsToOvertake : List DeviceStep :=
  [.batchBegin [slotAt 4096], .batchBegin [slotAt 8192]] ++ stepsToScatter

set_option maxRecDepth 20000 in
/-- The first frame of the lagging device scatters its keys through the second session's bases. -/
theorem frame_sees_other_tables : ∃ d, run Device.step twoSessions stepsToOvertake = some d ∧
    ¬ d.SeesOwnTables := by
  have hstate : (run Device.step twoSessions stepsToOvertake).map (fun d =>
      (d.batch.head?.map fun
        | .frame rows op => (rows.map (·.2.handles.kvBase 56), op)
        | .sync _ => ([], .shared), d.tables.kvBases 56 0))
      = some (some ([some 1080], .kvScatterRows 56 0), 2080) := by
    decide
  obtain ⟨d, hrun, hd⟩ := Option.map_eq_some_iff.mp hstate
  refine ⟨d, hrun, fun hsees => ?_⟩
  cases hbatch : d.batch with
  | nil => simp [hbatch] at hd
  | cons op rest =>
    cases op with
    | sync op => simp [hbatch] at hd
    | frame rows op =>
      simp only [hbatch, List.head?_cons, Option.map_some, Prod.mk.injEq, Option.some.injEq] at hd
      obtain ⟨⟨hrows, rfl⟩, htable⟩ := hd
      cases rows with
      | nil => cases hrows
      | cons row rows =>
        obtain ⟨slot, c⟩ := row
        have hbase : c.handles.kvBase 56 = some 1080 := (List.cons.inj hrows).1
        have hholds := hsees _ _ rest hbatch .kvBases List.mem_cons_self 0 slot c rfl 56 1080 hbase
        rw [htable] at hholds
        cases hholds

set_option maxRecDepth 20000 in
/-- One call, and the device up to the same kernel. -/
theorem frames_see_own_tables_single : ∃ d,
    run Device.step twoSessions (.batchBegin [slotAt 4096] :: stepsToScatter) = some d ∧
      d.SeesOwnTables := by
  have hstate : (run Device.step twoSessions
      (.batchBegin [slotAt 4096] :: stepsToScatter)).isSome = true := by
    decide
  obtain ⟨d, hrun⟩ := Option.isSome_iff_exists.mp hstate
  have hdone : Along Device.step Device.UploadsDone twoSessions
      (.batchBegin [slotAt 4096] :: stepsToScatter) := by
    constructor
    · intro rows _ _ op hop
      cases hop
    · intro d _
      refine along_of_forall (fun a ha d => ?_) d
      simp only [stepsToScatter, List.cons_append, List.nil_append, List.mem_cons,
        List.mem_replicate] at ha
      rcases ha with rfl | rfl | rfl | ⟨-, rfl⟩ <;> trivial
  exact ⟨d, hrun, frames_see_own_tables rfl hdone hrun⟩

end Qwen3Tts.Talker
