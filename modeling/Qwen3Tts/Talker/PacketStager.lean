import Qwen3Tts.Lib.Segment
import Qwen3Tts.Talker.NativeBackend

/-!
# Talker — the packet stager and its stream

`CudaPacketStager` of `cuda_packet_stager.rs` with the work that it puts on its CUDA stream. A stream
is a queue that the device carries out in order: an entry that waits for an event holds back what is
queued behind it, and an event is complete when the entries in front of its record are. What a
consumer finds in the packet buffer at some moment is the outcome of the entries that are done by
then, so a statement about every moment is one about every prefix of the queue.

The CUDA calls answer with a status. One that fails may or may not have taken its place in the
queue: the answer says so.
-/

namespace Qwen3Tts.Talker.Backend

open Qwen3Tts.Lib

/-! ## The stream -/

/-- `CODEBOOKS * size_of::<u16>()`. -/
def frameBytes : Nat := codebooks * 2

/-- `PACKET_BYTES`. -/
def packetBytes : Nat := codebooks * codecMaxPacketFrames * 2

abbrev Bytes := List UInt8

/-- One entry of the stream. A copy carries the bytes that it finds at its source when it runs. -/
inductive StreamOp where
  | wait (event : Nat)
  | copy (byteOffset : Nat) (source : Bytes)
  | record (event : Nat)
  deriving DecidableEq, Repr

/-- The packet buffer behind an entry. -/
def StreamOp.apply (buffer : Bytes) : StreamOp → Bytes
  | .copy byteOffset source => overwrite buffer byteOffset source
  | .wait _ | .record _ => buffer

/-- What the runtime answers to a call that enqueues. -/
structure Answer where
  status : Int
  /-- Whether a call that fails has enqueued its entry. -/
  queued : Bool
  deriving DecidableEq, Repr

def Answer.Entered (answer : Answer) : Prop := answer.status = 0 ∨ answer.queued

instance (answer : Answer) : Decidable answer.Entered := inferInstanceAs (Decidable (_ ∨ _))

/-- The entries that calls leave in the stream. -/
def entered (log : List (StreamOp × Answer)) : List StreamOp :=
  (log.filter (·.2.Entered)).map Prod.fst

/-- The stager, with the enqueuing calls it has made on its stream. -/
structure QueuedStager where
  deviceIndex : Int
  pointer : Nat
  copiedEvent : Nat
  stagedFrames : Nat := 0
  poisoned : Bool := false
  log : List (StreamOp × Answer) := []
  deriving DecidableEq, Repr

structure StagedPacketView where
  deviceCodes : Nat
  frameCount : Nat
  readyEvent : Nat
  deriving DecidableEq, Repr

namespace QueuedStager

/-- The entries of the stream. -/
def stream (s : QueuedStager) : List StreamOp := entered s.log

/-- The packet buffer when the whole stream is done. -/
def contents (s : QueuedStager) (memory : Bytes) : Bytes := execute StreamOp.apply memory s.stream

/-- The stager of the backend, on a buffer of its own. -/
def withBuffer (s : QueuedStager) (deviceCodes : List Codes) : CudaPacketStager where
  deviceIndex := s.deviceIndex
  deviceCodes := deviceCodes
  pointer := s.pointer
  copiedEvent := s.copiedEvent
  stagedFrames := s.stagedFrames
  poisoned := s.poisoned

/-! ## The calls of the stager -/

/-- What `new` returns. -/
def new (deviceIndex : Int) (pointer copiedEvent : Nat) : QueuedStager where
  deviceIndex := deviceIndex
  pointer := pointer
  copiedEvent := copiedEvent

/-- What a method of the stager returns; what it wrote in front of an early return stays. -/
abbrev Method := EStateM String QueuedStager

section
variable (cudaError : Int → String)

/-- `CudaRuntime::check`. -/
def checked (operation : String) (status : Int) : Except String Unit :=
  if status = 0 then .ok () else .error s!"{operation}: {cudaError status} ({status})"

/-- A call on the stream; where it fails, the stager is poisoned. -/
def enqueue (operation : String) (op : StreamOp) (answer : Answer) : Method Unit := do
  modify fun s => { s with log := s.log ++ [(op, answer)] }
  match checked cudaError operation answer.status with
  | .error message =>
    modify fun s => { s with poisoned := true }
    throw message
  | .ok () => return

/-- What `memcpy_async` copies: `bytes k` is the `k`-th byte behind the source pointer. -/
def frameAt (bytes : Nat → UInt8) : Bytes := (List.range frameBytes).map bytes

def stageFrame (view : NativeDeviceFrameView) (bytes : Nat → UInt8) (device : Int)
    (wait copy record : Answer) : Method Nat := do
  let s ← get
  MonadExcept.ofExcept ((s.withBuffer []).checkFrame view)
  MonadExcept.ofExcept (checked cudaError "select CUDA packet-stager device" device)
  enqueue cudaError "wait for Talker frame" (.wait view.readyEvent) wait
  let byteOffset := s.stagedFrames * codebooks * 2
  enqueue cudaError "stage Talker codec frame" (.copy byteOffset (frameAt bytes)) copy
  enqueue cudaError "record staged Talker frame" (.record s.copiedEvent) record
  modify fun s => { s with stagedFrames := s.stagedFrames + 1 }
  return s.copiedEvent

def packetView : Method StagedPacketView := do
  let s ← get
  let frameCount ← MonadExcept.ofExcept (s.withBuffer []).packetView
  return ⟨s.pointer, frameCount, s.copiedEvent⟩

def releaseAfterConsumer (consumerDoneEvent : Nat) (device : Int) (wait : Answer) :
    Method Unit := do
  let s ← get
  throwIf s.poisoned "CUDA packet stager is poisoned"
  throwIf (s.stagedFrames = 0) "no staged packet is awaiting a consumer"
  throwIf (consumerDoneEvent = 0) "Codec consume event is required"
  MonadExcept.ofExcept (checked cudaError "select CUDA packet-stager device" device)
  enqueue cudaError "wait for Codec packet snapshot" (.wait consumerDoneEvent) wait
  modify fun s => { s with stagedFrames := 0 }

/-- A call, with its arguments and what the runtime answers in it. -/
inductive Call where
  | stageFrame (view : NativeDeviceFrameView) (bytes : Nat → UInt8) (device : Int)
      (wait copy record : Answer)
  | packetView
  | releaseAfterConsumer (consumerDoneEvent : Nat) (device : Int) (wait : Answer)

inductive Reply where
  | staged (copiedEvent : Nat)
  | viewed (view : StagedPacketView)
  | released
  deriving DecidableEq, Repr

def method : Call → Method Reply
  | .stageFrame view bytes device wait copy record => do
    return .staged (← stageFrame cudaError view bytes device wait copy record)
  | .packetView => do return .viewed (← packetView)
  | .releaseAfterConsumer consumerDoneEvent device wait => do
    releaseAfterConsumer cudaError consumerDoneEvent device wait
    return .released

/-- The stager behind a call, and what the call returns. -/
def call (s : QueuedStager) (c : Call) : QueuedStager × Except String Reply :=
  match method cudaError c s with
  | .ok reply s => (s, .ok reply)
  | .error message s => (s, .error message)

/-- The stager behind a sequence of calls. -/
def after (s : QueuedStager) (calls : List Call) : QueuedStager :=
  calls.foldl (fun s c => (s.call cudaError c).1) s

/-- The frames staged since the last release that succeeded, behind one more call. -/
def nextFrames (frames : List Bytes) : Call → Except String Reply → List Bytes
  | .stageFrame _ bytes _ _ _ _, .ok _ => frames ++ [frameAt bytes]
  | .releaseAfterConsumer .., .ok _ => []
  | _, _ => frames

/-- The frames staged since the last release that succeeded, told from the calls and what they
return; `frames` are those in front of the calls. -/
def framesSince (s : QueuedStager) (frames : List Bytes) : List Call → List Bytes
  | [] => frames
  | c :: calls =>
    let result := s.call cudaError c
    result.1.framesSince (nextFrames frames c result.2) calls

/-- No release succeeds in the calls. -/
def NoRelease (s : QueuedStager) : List Call → Prop
  | [] => True
  | c :: calls => (s.call cudaError c).2 ≠ .ok .released ∧ (s.call cudaError c).1.NoRelease calls

end

/-! ## What a call does -/

/-- Copies go to the first free slot, which exists. -/
def OwnSlot (s : QueuedStager) (made : List (StreamOp × Answer)) : Prop :=
  ∀ entry ∈ made, ∀ byteOffset source, entry.1 = .copy byteOffset source →
    byteOffset = s.stagedFrames * frameBytes ∧ source.length = frameBytes
      ∧ s.stagedFrames < codecMaxPacketFrames

/-- A call on the stream that failed. -/
def Failed (entry : StreamOp × Answer) : Prop := entry.2.status ≠ 0

/-- The calls of a frame that is staged. -/
def stagingCalls (s : QueuedStager) (readyEvent : Nat) (bytes : Nat → UInt8)
    (wait copy record : Answer) : List (StreamOp × Answer) :=
  [(.wait readyEvent, wait), (.copy (s.stagedFrames * codebooks * 2) (frameAt bytes), copy),
    (.record s.copiedEvent, record)]

/-- What a call may do to the stager and how it answers. -/
inductive Effect (s : QueuedStager) : Call → QueuedStager → Except String Reply → Prop
  | refused {c : Call} {message : String} : Effect s c s (.error message)
  | broken {c : Call} {message : String} (made : List (StreamOp × Answer))
      (slot : s.OwnSlot made) (failed : ∃ entry ∈ made, Failed entry) :
      Effect s c { s with log := s.log ++ made, poisoned := true } (.error message)
  | staged {view : NativeDeviceFrameView} {bytes : Nat → UInt8} {device : Int}
      {wait copy record : Answer} (live : s.poisoned = false)
      (free : s.stagedFrames < codecMaxPacketFrames)
      (answers : wait.status = 0 ∧ copy.status = 0 ∧ record.status = 0) :
      Effect s (.stageFrame view bytes device wait copy record)
        { s with
          stagedFrames := s.stagedFrames + 1
          log := s.log ++ s.stagingCalls view.readyEvent bytes wait copy record }
        (.ok (.staged s.copiedEvent))
  | viewed (live : s.poisoned = false) (pending : s.stagedFrames ≠ 0) :
      Effect s .packetView s (.ok (.viewed ⟨s.pointer, s.stagedFrames, s.copiedEvent⟩))
  | released {event : Nat} {device : Int} {wait : Answer} (live : s.poisoned = false)
      (pending : s.stagedFrames ≠ 0) (answer : wait.status = 0) :
      Effect s (.releaseAfterConsumer event device wait)
        { s with stagedFrames := 0, log := s.log ++ [(.wait event, wait)] } (.ok .released)

variable {cudaError : Int → String} {s : QueuedStager} {c : Call} {calls : List Call}

theorem length_frameAt (bytes : Nat → UInt8) : (frameAt bytes).length = frameBytes := by
  rw [frameAt, List.length_map, List.length_range]

/-- A frame that is accepted finds a stager in order with a free slot. -/
theorem checkFrame_ok {view : NativeDeviceFrameView}
    (h : (s.withBuffer []).checkFrame view = .ok ()) :
    s.poisoned = false ∧ s.stagedFrames < codecMaxPacketFrames := by
  unfold CudaPacketStager.checkFrame at h
  split_ifs at h with hpoisoned _ _ _ hfull
  exact ⟨by simpa [withBuffer] using hpoisoned, Nat.lt_of_not_le hfull⟩

/-- The stager with further calls on its stream. -/
def pushed (s : QueuedStager) (made : List (StreamOp × Answer)) : QueuedStager :=
  { s with log := s.log ++ made }

theorem pushed_nil : s.pushed [] = s := by
  show { s with log := s.log ++ [] } = s
  rw [List.append_nil]

/-- Two groups of operations are one. -/
theorem pushed_pushed (made more : List (StreamOp × Answer)) :
    (s.pushed made).pushed more = s.pushed (made ++ more) := by
  show { s with log := s.log ++ made ++ more } = _
  rw [List.append_assoc]
  rfl

/-- One call on the stream, behind others. -/
theorem enqueue_spec (made : List (StreamOp × Answer)) (operation : String) (op : StreamOp)
    (answer : Answer) :
    Triple (· = s.pushed made) (enqueue cudaError operation op answer)
      (fun _ t => t = s.pushed (made ++ [(op, answer)]) ∧ answer.status = 0)
      (fun message t => t = { s.pushed (made ++ [(op, answer)]) with poisoned := true }
        ∧ answer.status ≠ 0 ∧ checked cudaError operation answer.status = .error message) := by
  refine Triple.bind (Q := fun _ t => t = s.pushed (made ++ [(op, answer)]))
    (Triple.modify fun t ht => ?_) fun _ => ?_
  · rw [ht, ← pushed_pushed]
    rfl
  · unfold checked
    by_cases hstatus : answer.status = 0
    · rw [if_pos hstatus]
      exact Triple.pure fun t ht => ⟨ht, hstatus⟩
    · rw [if_neg hstatus]
      refine Triple.bind (Triple.modify fun t ht => ?_) fun _ =>
        Triple.throw fun t ht => ⟨ht, hstatus, rfl⟩
      rw [ht]

/-- The copy of a frame goes to the first free slot. -/
theorem ownSlot_staging {readyEvent : Nat} {bytes : Nat → UInt8} {wait copy record : Answer}
    (hfree : s.stagedFrames < codecMaxPacketFrames) :
    s.OwnSlot (s.stagingCalls readyEvent bytes wait copy record) := by
  intro entry hentry byteOffset source hcopy
  simp only [stagingCalls, List.mem_cons, List.not_mem_nil, or_false] at hentry
  rcases hentry with rfl | rfl | rfl
  · cases hcopy
  · cases hcopy
    exact ⟨Nat.mul_assoc s.stagedFrames codebooks 2, length_frameAt bytes, hfree⟩
  · cases hcopy

/-- A call of a frame that is staged. Where it fails, its copy went to the first free slot. -/
theorem staging_step {answer : Answer} {op : StreamOp} {operation : String} (readyEvent : Nat)
    (bytes : Nat → UInt8) (wait copy record : Answer) (made rest : List (StreamOp × Answer))
    (hfree : s.stagedFrames < codecMaxPacketFrames)
    (hsplit : s.stagingCalls readyEvent bytes wait copy record = made ++ (op, answer) :: rest) :
    Triple (· = s.pushed made) (enqueue cudaError operation op answer)
      (fun _ t => t = s.pushed (made ++ [(op, answer)]) ∧ answer.status = 0)
      (fun message t => Effect s c t (.error message)) := by
  refine Triple.weaken (enqueue_spec made operation op answer) (fun _ h => h) (fun _ _ h => h)
    fun message t ht => ?_
  rw [ht.1]
  refine .broken (made ++ [(op, answer)]) ?_ ⟨(op, answer), by simp, ht.2.1⟩
  intro entry hentry
  have hmem : entry ∈ s.stagingCalls readyEvent bytes wait copy record := by
    rw [hsplit, List.append_cons]
    exact List.mem_append_left rest hentry
  exact ownSlot_staging hfree entry hmem

/-- `stage_frame` has one of these effects. -/
theorem stageFrame_effect (view : NativeDeviceFrameView) (bytes : Nat → UInt8) (device : Int)
    (wait copy record : Answer) :
    Triple (· = s) (stageFrame cudaError view bytes device wait copy record)
      (fun event t =>
        Effect s (.stageFrame view bytes device wait copy record) t (.ok (.staged event)))
      (fun message t =>
        Effect s (.stageFrame view bytes device wait copy record) t (.error message)) := by
  have hrefused : ∀ (message : String) t, t = s →
      Effect s (.stageFrame view bytes device wait copy record) t (.error message) :=
    fun message t ht => ht ▸ .refused
  refine Triple.get_at ?_
  refine Triple.bind (Q := fun _ t => t = s
      ∧ s.poisoned = false ∧ s.stagedFrames < codecMaxPacketFrames)
    (Triple.ofExcept (fun _ hcheck t ht => ⟨ht, checkFrame_ok hcheck⟩)
      fun message _ => hrefused message) fun _ => Triple.fact fun hready => ?_
  refine Triple.bind (Q := fun _ t => t = s.pushed [])
    (Triple.ofExcept (fun _ _ t ht => by rw [ht, pushed_nil]) fun message _ => hrefused message)
    fun _ => ?_
  -- each of the three calls on the stream may be the last
  refine Triple.bind (staging_step view.readyEvent bytes wait copy record [] _ hready.2 rfl)
    fun _ => Triple.fact fun hwait => ?_
  refine Triple.bind (staging_step view.readyEvent bytes wait copy record _ _ hready.2 rfl)
    fun _ => Triple.fact fun hcopy => ?_
  refine Triple.bind (staging_step view.readyEvent bytes wait copy record _ [] hready.2 rfl)
    fun _ => Triple.fact fun hrecord => ?_
  refine Triple.bind (Triple.modify (Q := fun _ t => Effect s _ t (.ok (.staged s.copiedEvent)))
    fun t ht => ?_) fun _ => Triple.pure fun t ht => ht
  rw [ht]
  exact .staged hready.1 hready.2 ⟨hwait, hcopy, hrecord⟩

/-- So does `packet_view`. -/
theorem packetView_effect :
    Triple (· = s) packetView (fun view t => Effect s .packetView t (.ok (.viewed view)))
      (fun message t => Effect s .packetView t (.error message)) := by
  refine Triple.get_at ?_
  refine Triple.bind (Q := fun frameCount t => t = s
      ∧ s.poisoned = false ∧ s.stagedFrames ≠ 0 ∧ frameCount = s.stagedFrames)
    (Triple.ofExcept (fun frameCount hview t ht => ⟨ht, ?_⟩) fun message _ t ht => ht ▸ .refused)
    fun frameCount => Triple.fact fun hview => Triple.pure fun t ht => ?_
  · unfold CudaPacketStager.packetView at hview
    split_ifs at hview with hpoisoned hempty
    cases hview
    exact ⟨by simpa [withBuffer] using hpoisoned, hempty, rfl⟩
  · rw [ht, hview.2.2]
    exact .viewed hview.1 hview.2.1

/-- A release copies nothing. -/
theorem ownSlot_wait (event : Nat) (wait : Answer) : s.OwnSlot [(.wait event, wait)] := by
  intro entry hentry byteOffset source hcopy
  rw [List.mem_singleton.mp hentry] at hcopy
  cases hcopy

/-- And `release_after_consumer`. -/
theorem releaseAfterConsumer_effect (event : Nat) (device : Int) (wait : Answer) :
    Triple (· = s) (releaseAfterConsumer cudaError event device wait)
      (fun _ t => Effect s (.releaseAfterConsumer event device wait) t (.ok .released))
      (fun message t => Effect s (.releaseAfterConsumer event device wait) t (.error message)) := by
  have hrefused : ∀ (message : String) t, t = s →
      Effect s (.releaseAfterConsumer event device wait) t (.error message) :=
    fun message t ht => ht ▸ .refused
  refine Triple.get_at ?_
  refine Triple.bind (Q := fun _ t => t = s ∧ ¬ s.poisoned = true)
    (Triple.throwIf (fun t ht _ => hrefused _ t ht) fun t ht hlive => ⟨ht, hlive⟩)
    fun _ => Triple.fact fun hlive => ?_
  refine Triple.bind (Q := fun _ t => t = s ∧ s.stagedFrames ≠ 0)
    (Triple.throwIf (fun t ht _ => hrefused _ t ht) fun t ht hpending => ⟨ht, hpending⟩)
    fun _ => Triple.fact fun hpending => ?_
  refine Triple.bind (Q := fun _ t => t = s)
    (Triple.throwIf (fun t ht _ => hrefused _ t ht) fun t ht _ => ht) fun _ => ?_
  refine Triple.bind (Q := fun _ t => t = s.pushed [])
    (Triple.ofExcept (fun _ _ t ht => by rw [ht, pushed_nil]) fun message _ => hrefused message)
    fun _ => ?_
  refine Triple.bind (Triple.weaken (enqueue_spec [] _ _ wait) (fun _ h => h) (fun _ _ h => h)
    fun message t ht => ?_) fun _ => Triple.fact fun hwait => Triple.modify fun t ht => ?_
  · rw [ht.1]
    exact .broken [(.wait event, wait)] (ownSlot_wait event wait)
      ⟨_, List.mem_singleton_self _, ht.2.1⟩
  · rw [ht]
    exact .released (Bool.not_eq_true _ ▸ hlive) hpending hwait

/-- **What a call does.** -/
theorem call_effect (cudaError : Int → String) (s : QueuedStager) (c : Call) :
    Effect s c (s.call cudaError c).1 (s.call cudaError c).2 := by
  have hmethod : Triple (· = s) (method cudaError c) (fun reply t => Effect s c t (.ok reply))
      (fun message t => Effect s c t (.error message)) := by
    cases c with
    | stageFrame view bytes device wait copy record =>
      exact Triple.bind (stageFrame_effect view bytes device wait copy record)
        fun _ => Triple.pure fun _ h => h
    | packetView => exact Triple.bind packetView_effect fun _ => Triple.pure fun _ h => h
    | releaseAfterConsumer event device wait =>
      exact Triple.bind (releaseAfterConsumer_effect event device wait)
        fun _ => Triple.pure fun _ h => h
  unfold call
  cases hresult : method cudaError c s with
  | ok reply t => exact hmethod.ok rfl hresult
  | error message t => exact hmethod.error rfl hresult

/-! ## What holds behind a sequence of calls -/

theorem entered_append (log made : List (StreamOp × Answer)) :
    entered (log ++ made) = entered log ++ entered made := by
  unfold entered
  rw [List.filter_append, List.map_append]

/-- What entered the stream was asked for. -/
theorem mem_of_mem_entered {op : StreamOp} {log : List (StreamOp × Answer)}
    (h : op ∈ entered log) : ∃ answer, (op, answer) ∈ log := by
  obtain ⟨entry, hentry, rfl⟩ := List.mem_map.mp h
  exact ⟨entry.2, (List.mem_filter.mp hentry).1⟩

theorem entered_cons {op : StreamOp} {answer : Answer} {log : List (StreamOp × Answer)}
    (h : answer.status = 0) : entered ((op, answer) :: log) = op :: entered log := by
  have hentered : answer.Entered := .inl h
  simp [entered, hentered]

/-- Every copy of the calls lies inside the packet buffer. -/
def Inside (log : List (StreamOp × Answer)) : Prop :=
  ∀ entry ∈ log, ∀ byteOffset source, entry.1 = .copy byteOffset source →
    byteOffset + source.length ≤ packetBytes

/-- Every copy of the calls lies behind the first `count` bytes. -/
def Behind (count : Nat) (log : List (StreamOp × Answer)) : Prop :=
  ∀ entry ∈ log, ∀ byteOffset source, entry.1 = .copy byteOffset source → count ≤ byteOffset

/-- A copy into the own slot stays in the buffer. -/
theorem OwnSlot.inside {made : List (StreamOp × Answer)} (h : s.OwnSlot made) : Inside made := by
  intro entry hentry byteOffset source hcopy
  obtain ⟨hoffset, hlength, hfree⟩ := h entry hentry byteOffset source hcopy
  have hpacket : packetBytes = codecMaxPacketFrames * frameBytes := by decide
  rw [hoffset, hlength, hpacket, ← Nat.succ_mul]
  exact Nat.mul_le_mul_right frameBytes hfree

/-- It lies behind the frames that are staged. -/
theorem OwnSlot.behind {made : List (StreamOp × Answer)} (h : s.OwnSlot made) :
    Behind (s.stagedFrames * frameBytes) made :=
  fun entry hentry byteOffset source hcopy =>
    Nat.le_of_eq (h entry hentry byteOffset source hcopy).1.symm

theorem Inside.append {log made : List (StreamOp × Answer)} (h : Inside log) (h' : Inside made) :
    Inside (log ++ made) := by
  intro entry hentry
  rcases List.mem_append.mp hentry with hmem | hmem
  · exact h entry hmem
  · exact h' entry hmem

/-- A stream of copies inside the buffer keeps the length of the buffer. -/
theorem length_execute {log : List (StreamOp × Answer)} (h : Inside log) {queue : List StreamOp}
    (hqueue : queue ⊆ entered log) {memory : Bytes} (hmemory : memory.length = packetBytes) :
    (execute StreamOp.apply memory queue).length = packetBytes := by
  refine execute_keeps (P := fun buffer : Bytes => buffer.length = packetBytes)
    (fun buffer op hop hbuffer => ?_) hmemory
  cases op with
  | wait event => exact hbuffer
  | record event => exact hbuffer
  | copy byteOffset source =>
    obtain ⟨answer, hentry⟩ := mem_of_mem_entered (hqueue hop)
    have hinside := h _ hentry byteOffset source rfl
    show (overwrite buffer byteOffset source).length = packetBytes
    rw [length_overwrite (by omega), hbuffer]

/-- Copies behind the first bytes leave these as they are. -/
theorem take_execute {log : List (StreamOp × Answer)} {count : Nat} (h : Inside log)
    (hbehind : Behind count log) {queue : List StreamOp} (hqueue : queue ⊆ entered log)
    {memory : Bytes} (hmemory : memory.length = packetBytes) :
    (execute StreamOp.apply memory queue).take count = memory.take count := by
  have hkeep : (execute StreamOp.apply memory queue).length = packetBytes
      ∧ (execute StreamOp.apply memory queue).take count = memory.take count := by
    refine execute_keeps (P := fun buffer : Bytes => buffer.length = packetBytes
      ∧ buffer.take count = memory.take count) (fun buffer op hop hbuffer => ?_) ⟨hmemory, rfl⟩
    cases op with
    | wait event => exact hbuffer
    | record event => exact hbuffer
    | copy byteOffset source =>
      obtain ⟨answer, hentry⟩ := mem_of_mem_entered (hqueue hop)
      have hinside := h _ hentry byteOffset source rfl
      have hcount := hbehind _ hentry byteOffset source rfl
      show (overwrite buffer byteOffset source).length = packetBytes
        ∧ (overwrite buffer byteOffset source).take count = memory.take count
      rw [length_overwrite (by omega), take_overwrite_of_le hcount (by omega)]
      exact hbuffer
  exact hkeep.2

/-- The invariant; `frames` are those staged since the last release that succeeded. -/
structure Holds (memory : Bytes) (s : QueuedStager) (frames : List Bytes) : Prop where
  bounded : s.stagedFrames ≤ codecMaxPacketFrames
  inside : Inside s.log
  broken : (∃ entry ∈ s.log, Failed entry) → s.poisoned = true
  whole : ∀ frame ∈ frames, frame.length = frameBytes
  count : s.poisoned = false → s.stagedFrames = frames.length
  visible : s.poisoned = false →
    (s.contents memory).take (s.stagedFrames * frameBytes) = frames.flatten
  /-- The record of the copied event is the last entry. -/
  ready : s.poisoned = false → s.stagedFrames ≠ 0 →
    ∃ before, s.stream = before ++ [.record s.copiedEvent]

/-- A new stager has staged nothing. -/
theorem holds_new (deviceIndex : Int) (pointer copiedEvent : Nat) (memory : Bytes) :
    Holds memory (new deviceIndex pointer copiedEvent) [] where
  bounded := Nat.zero_le codecMaxPacketFrames
  inside := fun entry hentry => absurd hentry List.not_mem_nil
  broken := fun ⟨entry, hentry, _⟩ => absurd hentry List.not_mem_nil
  whole := fun frame hframe => absurd hframe List.not_mem_nil
  count := fun _ => rfl
  visible := fun _ => by
    show List.take (0 * frameBytes) _ = []
    rw [Nat.zero_mul, List.take_zero]
  ready := fun _ hpending => absurd rfl hpending

/-- The stream behind a frame that is staged. -/
theorem entered_staging {readyEvent : Nat} {bytes : Nat → UInt8} {wait copy record : Answer}
    (answers : wait.status = 0 ∧ copy.status = 0 ∧ record.status = 0) :
    entered (s.stagingCalls readyEvent bytes wait copy record) = [.wait readyEvent,
      .copy (s.stagedFrames * codebooks * 2) (frameAt bytes), .record s.copiedEvent] := by
  rw [stagingCalls, entered_cons answers.1, entered_cons answers.2.1, entered_cons answers.2.2]
  rfl

/-- After a successful copy the buffer holds one frame more. -/
theorem Holds.staged {memory : Bytes} {frames : List Bytes} (h : Holds memory s frames)
    (hmemory : memory.length = packetBytes) (hlive : s.poisoned = false)
    (hfree : s.stagedFrames < codecMaxPacketFrames) {readyEvent : Nat} {bytes : Nat → UInt8}
    {wait copy record : Answer}
    (answers : wait.status = 0 ∧ copy.status = 0 ∧ record.status = 0) :
    Holds memory { s with
      stagedFrames := s.stagedFrames + 1
      log := s.log ++ s.stagingCalls readyEvent bytes wait copy record }
      (frames ++ [frameAt bytes]) where
  bounded := hfree
  inside := h.inside.append (ownSlot_staging hfree).inside
  broken := by
    rintro ⟨entry, hentry, hfailed⟩
    rcases List.mem_append.mp hentry with hmem | hmem
    · exact h.broken ⟨entry, hmem, hfailed⟩
    · simp only [stagingCalls, List.mem_cons, List.not_mem_nil, or_false] at hmem
      rcases hmem with rfl | rfl | rfl
      · exact absurd answers.1 hfailed
      · exact absurd answers.2.1 hfailed
      · exact absurd answers.2.2 hfailed
  whole := by
    intro frame hframe
    rcases List.mem_append.mp hframe with hmem | hmem
    · exact h.whole frame hmem
    · rw [List.mem_singleton.mp hmem, length_frameAt]
  count := fun _ => by
    rw [List.length_append, ← h.count hlive]
    rfl
  visible := fun _ => by
    -- the copy goes behind the frames that are there
    have hlength : (s.contents memory).length = packetBytes :=
      length_execute h.inside (List.Subset.refl _) hmemory
    have hoffset : s.stagedFrames * codebooks * 2 ≤ packetBytes := by
      have hslot : codecMaxPacketFrames * codebooks * 2 = packetBytes := by decide
      rw [← hslot]
      exact Nat.mul_le_mul_right 2 (Nat.mul_le_mul_right codebooks (Nat.le_of_lt hfree))
    have hend : (s.stagedFrames + 1) * frameBytes
        = s.stagedFrames * codebooks * 2 + (frameAt bytes).length := by
      rw [length_frameAt, Nat.succ_mul, Nat.mul_assoc]
      rfl
    show ((execute StreamOp.apply memory (entered (s.log ++ _))).take _) = _
    rw [entered_append, entered_staging answers, execute_append, hend]
    show (overwrite (s.contents memory) (s.stagedFrames * codebooks * 2) (frameAt bytes)).take _ = _
    rw [take_overwrite _ (by omega), Nat.mul_assoc, List.flatten_append, List.flatten_singleton]
    exact congrArg (· ++ frameAt bytes) (h.visible hlive)
  ready := fun _ _ => by
    refine ⟨s.stream ++ [.wait readyEvent,
      .copy (s.stagedFrames * codebooks * 2) (frameAt bytes)], ?_⟩
    show entered (s.log ++ _) = _
    rw [entered_append, entered_staging answers, List.append_assoc]
    rfl

/-- After a release it holds none. -/
theorem Holds.released {memory : Bytes} {frames : List Bytes} (h : Holds memory s frames)
    {event : Nat} {wait : Answer} (hanswer : wait.status = 0) :
    Holds memory { s with stagedFrames := 0, log := s.log ++ [(.wait event, wait)] } [] where
  bounded := Nat.zero_le codecMaxPacketFrames
  inside := h.inside.append (ownSlot_wait (s := s) event wait).inside
  broken := by
    rintro ⟨entry, hentry, hfailed⟩
    rcases List.mem_append.mp hentry with hmem | hmem
    · exact h.broken ⟨entry, hmem, hfailed⟩
    · rw [List.mem_singleton.mp hmem] at hfailed
      exact absurd hanswer hfailed
  whole := fun frame hframe => absurd hframe List.not_mem_nil
  count := fun _ => rfl
  visible := fun _ => by
    show List.take (0 * frameBytes) _ = []
    rw [Nat.zero_mul, List.take_zero]
  ready := fun _ hpending => absurd rfl hpending

/-- **One call keeps the invariant.** -/
theorem Holds.step {memory : Bytes} {frames : List Bytes} (h : Holds memory s frames)
    (hmemory : memory.length = packetBytes) (c : Call) :
    Holds memory (s.call cudaError c).1 (nextFrames frames c (s.call cudaError c).2) := by
  have heffect := call_effect cudaError s c
  generalize (s.call cudaError c).1 = t at heffect ⊢
  generalize (s.call cudaError c).2 = reply at heffect ⊢
  cases heffect with
  | refused =>
    have hframes : ∀ message, nextFrames frames c (.error message) = frames := by
      intro message
      cases c <;> rfl
    rw [hframes]
    exact h
  | broken made slot failed =>
    have hframes : ∀ message, nextFrames frames c (.error message) = frames := by
      intro message
      cases c <;> rfl
    rw [hframes]
    -- from here on only the bounds matter
    exact {
      bounded := h.bounded
      inside := h.inside.append slot.inside
      broken := fun _ => rfl
      whole := h.whole
      count := fun hlive => absurd hlive.symm Bool.false_ne_true
      visible := fun hlive => absurd hlive.symm Bool.false_ne_true
      ready := fun hlive => absurd hlive.symm Bool.false_ne_true }
  | staged live free answers => exact h.staged hmemory live free answers
  | viewed live pending => exact h
  | released live pending answer => exact h.released answer

theorem after_cons (c : Call) (calls : List Call) :
    s.after cudaError (c :: calls) = (s.call cudaError c).1.after cudaError calls := rfl

/-- The buffer holds what the calls since the last release have staged. -/
theorem Holds.after {memory : Bytes} {frames : List Bytes} (h : Holds memory s frames)
    (hmemory : memory.length = packetBytes) (cudaError : Int → String) (calls : List Call) :
    Holds memory (s.after cudaError calls) (s.framesSince cudaError frames calls) := by
  induction calls generalizing s frames with
  | nil => exact h
  | cons c calls ih => exact ih (h.step hmemory c)

/-! ## Calls behind a view -/

/-- Every call of a poisoned stager fails. -/
theorem call_poisoned (hpoisoned : s.poisoned = true) (c : Call) :
    ∃ message, (s.call cudaError c).2 = .error message := by
  have heffect := call_effect cudaError s c
  generalize (s.call cudaError c).1 = t at heffect
  generalize (s.call cudaError c).2 = reply at heffect ⊢
  cases heffect with
  | refused => exact ⟨_, rfl⟩
  | broken => exact ⟨_, rfl⟩
  | staged live => exact absurd (hpoisoned.symm.trans live) (by decide)
  | viewed live => exact absurd (hpoisoned.symm.trans live) (by decide)
  | released live => exact absurd (hpoisoned.symm.trans live) (by decide)

/-- A view that is returned shows the staged frames. -/
theorem view_spec {view : StagedPacketView}
    (h : (s.call cudaError .packetView).2 = .ok (.viewed view)) :
    s.poisoned = false ∧ s.stagedFrames ≠ 0
      ∧ view = ⟨s.pointer, s.stagedFrames, s.copiedEvent⟩ := by
  have heffect := call_effect cudaError s .packetView
  rw [h] at heffect
  generalize (s.call cudaError .packetView).1 = t at heffect
  cases heffect with
  | viewed live pending => exact ⟨live, pending, rfl⟩

/-- What one call adds to the calls on the stream: without a release that succeeds, no copy to a
frame that is staged. -/
theorem call_extends (cudaError : Int → String) (s : QueuedStager) (c : Call) :
    ∃ made, (s.call cudaError c).1.log = s.log ++ made
      ∧ Behind (s.stagedFrames * frameBytes) made
      ∧ ((s.call cudaError c).2 ≠ .ok .released →
        s.stagedFrames ≤ (s.call cudaError c).1.stagedFrames) := by
  have heffect := call_effect cudaError s c
  generalize (s.call cudaError c).1 = t at heffect ⊢
  generalize (s.call cudaError c).2 = reply at heffect ⊢
  have hnone : Behind (s.stagedFrames * frameBytes) [] :=
    fun entry hentry => absurd hentry List.not_mem_nil
  cases heffect with
  | refused => exact ⟨[], (List.append_nil _).symm, hnone, fun _ => le_refl _⟩
  | broken made slot => exact ⟨made, rfl, slot.behind, fun _ => le_refl _⟩
  | staged live free => exact ⟨_, rfl, (ownSlot_staging free).behind, fun _ => Nat.le_succ _⟩
  | viewed => exact ⟨[], (List.append_nil _).symm, hnone, fun _ => le_refl _⟩
  | released =>
    exact ⟨_, rfl, (ownSlot_wait _ _).behind, fun hreleased => absurd rfl hreleased⟩

/-- While no release succeeds, the staged frames stay and no copy goes to them. -/
theorem noRelease_extends (h : s.NoRelease cudaError calls) :
    s.stagedFrames ≤ (s.after cudaError calls).stagedFrames
      ∧ ∃ made, (s.after cudaError calls).log = s.log ++ made
        ∧ Behind (s.stagedFrames * frameBytes) made := by
  induction calls generalizing s with
  | nil =>
    exact ⟨le_refl _, [], (List.append_nil _).symm,
      fun entry hentry => absurd hentry List.not_mem_nil⟩
  | cons c calls ih =>
    obtain ⟨first, hfirst, hbehind, hframes⟩ := call_extends cudaError s c
    obtain ⟨hle, rest, hrest, hbehind'⟩ := ih h.2
    have hcount := hframes h.1
    refine ⟨Nat.le_trans hcount hle, first ++ rest, ?_, ?_⟩
    · rw [after_cons, hrest, hfirst, List.append_assoc]
    · intro entry hentry byteOffset source hcopy
      rcases List.mem_append.mp hentry with hmem | hmem
      · exact hbehind entry hmem byteOffset source hcopy
      · exact Nat.le_trans (Nat.mul_le_mul_right frameBytes hcount)
          (hbehind' entry hmem byteOffset source hcopy)

/-- The first release that succeeds. -/
theorem first_release (cudaError : Int → String) (s : QueuedStager) (calls : List Call) :
    s.NoRelease cudaError calls
    ∨ ∃ before c rest, calls = before ++ c :: rest ∧ s.NoRelease cudaError before
      ∧ ((s.after cudaError before).call cudaError c).2 = .ok .released := by
  induction calls generalizing s with
  | nil => exact .inl trivial
  | cons c calls ih =>
    by_cases hreleased : (s.call cudaError c).2 = .ok .released
    · exact .inr ⟨[], c, calls, rfl, trivial, hreleased⟩
    · rcases ih (s.call cudaError c).1 with h | ⟨before, c', rest, rfl, h, hreleased'⟩
      · exact .inl ⟨hreleased, h⟩
      · exact .inr ⟨c :: before, c', rest, rfl, ⟨hreleased, h⟩, hreleased'⟩

/-- A release that succeeds has enqueued the wait for its consumer. -/
theorem release_spec (h : (s.call cudaError c).2 = .ok .released) :
    ∃ event device wait, c = .releaseAfterConsumer event device wait
      ∧ (s.call cudaError c).1.stream = s.stream ++ [.wait event] := by
  have heffect := call_effect cudaError s c
  rw [h] at heffect
  generalize (s.call cudaError c).1 = t at heffect ⊢
  cases heffect with
  | @released event device wait live pending answer =>
    refine ⟨event, device, wait, rfl, ?_⟩
    show entered (s.log ++ [(.wait event, wait)]) = _
    rw [entered_append, entered_cons answer]
    rfl

/-- A stream only grows. -/
theorem stream_isPrefix (s : QueuedStager) (calls : List Call) :
    s.stream <+: (s.after cudaError calls).stream := by
  induction calls generalizing s with
  | nil => exact List.prefix_rfl
  | cons c calls ih =>
    obtain ⟨made, hmade, -⟩ := call_extends cudaError s c
    refine List.IsPrefix.trans ?_ (ih (s.call cudaError c).1)
    show entered s.log <+: entered (s.call cudaError c).1.log
    rw [hmade, entered_append]
    exact List.prefix_append _ _

/-- What the first bytes of the buffer are, at every moment from a view until a release succeeds. -/
theorem Holds.stable {memory : Bytes} {frames : List Bytes} (h : Holds memory s frames)
    (hmemory : memory.length = packetBytes) (hlive : s.poisoned = false) {later : List Call}
    (hlater : s.NoRelease cudaError later) {queue : List StreamOp} (hstart : s.stream <+: queue)
    (hend : queue <+: (s.after cudaError later).stream) :
    (execute StreamOp.apply memory queue).take (s.stagedFrames * frameBytes)
      = frames.flatten := by
  obtain ⟨-, made, hmade, hbehind⟩ := noRelease_extends hlater
  obtain ⟨more, rfl⟩ := hstart
  have hinside : Inside (s.log ++ made) := hmade ▸ (h.after hmemory cudaError later).inside
  -- what is done behind the view is among the calls made since
  have hmore : more <+: entered made := by
    have hstream : (s.after cudaError later).stream = s.stream ++ entered made := by
      show entered (s.after cudaError later).log = _
      rw [hmade, entered_append]
      rfl
    rw [hstream] at hend
    exact (List.prefix_append_right_inj s.stream).mp hend
  have hcontents : (s.contents memory).length = packetBytes :=
    length_execute h.inside (List.Subset.refl _) hmemory
  rw [execute_append, ← h.visible hlive]
  refine take_execute (fun entry hentry => ?_) hbehind hmore.subset hcontents
  exact hinside entry (List.mem_append_right s.log hentry)

/-- What the stager promises, behind calls in which `frames` were staged since the last release that
succeeded. -/
structure Promises (cudaError : Int → String) (memory : Bytes) (s : QueuedStager)
    (frames : List Bytes) : Prop where
  bounded : s.stagedFrames ≤ codecMaxPacketFrames
  inside : ∀ entry ∈ s.log, ∀ byteOffset source, entry.1 = .copy byteOffset source →
    byteOffset + source.length ≤ packetBytes
  /-- A view shows the frames, and goes on to show them while the stream proceeds, up to the wait
  of the release of its packet. -/
  shown : ∀ view, (s.call cudaError .packetView).2 = .ok (.viewed view) →
    view.frameCount = frames.length ∧ ∀ later queue, s.NoRelease cudaError later →
      s.stream <+: queue → queue <+: (s.after cudaError later).stream →
        (execute StreamOp.apply memory queue).take (view.frameCount * frameBytes) = frames.flatten
  /-- A copy into the bytes of a view is queued behind the wait for the consumer that the first
  release behind the view names. -/
  reused : ∀ view, (s.call cudaError .packetView).2 = .ok (.viewed view) →
    ∀ later c made byteOffset source answer,
      ((s.after cudaError later).call cudaError c).1.log = (s.after cudaError later).log ++ made →
      (.copy byteOffset source, answer) ∈ made → byteOffset < view.frameCount * frameBytes →
      ∃ before event device wait rest,
        later = before ++ .releaseAfterConsumer event device wait :: rest
          ∧ s.NoRelease cudaError before
          ∧ ((s.after cudaError before).call cudaError
              (.releaseAfterConsumer event device wait)).2 = .ok .released
          ∧ (s.after cudaError before).stream ++ [.wait event] <+: (s.after cudaError later).stream
  /-- The record of the event that a view returns is the last entry of the stream. -/
  ready : ∀ view, (s.call cudaError .packetView).2 = .ok (.viewed view) →
    ∃ before, s.stream = before ++ [.record view.readyEvent]
  broken : (∃ entry ∈ s.log, Failed entry) →
    ∀ c, ∃ message, (s.call cudaError c).2 = .error message

/-- The `u16` values of a frame. -/
def frameCodes (frame : Bytes) : Codes :=
  (List.range codebooks).map fun k =>
    (frame.getD (2 * k) 0).toNat + 256 * (frame.getD (2 * k + 1) 0).toNat

/-- The frames of a packet buffer. -/
def slots (contents : Bytes) : List Codes :=
  (List.range codecMaxPacketFrames).map fun slot =>
    frameCodes ((contents.drop (slot * frameBytes)).take frameBytes)

/-- The stager of the backend whose buffer is what the stream leaves. -/
def buffered (s : QueuedStager) (memory : Bytes) : CudaPacketStager :=
  s.withBuffer (slots (s.contents memory))

theorem check_ok {lib : Libraries} {operation : String} {status : Int} (h : status = 0) :
    check lib operation status = .ok () := if_pos h

/-- A status of the library, by which a call that fails enqueues nothing. -/
def answerOf (status : Int) : Answer := ⟨status, false⟩

theorem entered_answerOf {op : StreamOp} {status : Int} (h : status ≠ 0) :
    entered [(op, answerOf status)] = [] := by
  have hentered : ¬ (answerOf status).Entered := by
    rintro (hstatus | hqueued)
    · exact h hstatus
    · exact Bool.false_ne_true hqueued
  simp [entered, hentered]

/-- A copy into a slot of the buffer. -/
theorem slots_overwrite {contents source : Bytes} {slot : Nat}
    (hlength : contents.length = packetBytes) (hslot : slot < codecMaxPacketFrames)
    (hsource : source.length = frameBytes) :
    slots (overwrite contents (slot * codebooks * 2) source)
      = (slots contents).set slot (frameCodes source) := by
  have hoffset : slot * codebooks * 2 = slot * frameBytes := Nat.mul_assoc slot codebooks 2
  have hbound : slot * frameBytes ≤ contents.length := by
    have hpacket : packetBytes = codecMaxPacketFrames * frameBytes := by decide
    rw [hlength, hpacket]
    exact Nat.mul_le_mul_right frameBytes (Nat.le_of_lt hslot)
  rw [hoffset]
  refine List.ext_getElem (by simp [slots]) fun k hk hk' => ?_
  rw [List.getElem_set]
  simp only [slots, List.getElem_map, List.getElem_range]
  split
  · rename_i heq
    rw [← heq]
    conv_lhs => rw [← hsource]
    rw [hsource, ← hsource, segment_overwrite (by rwa [hsource])]
  · rename_i hne
    rw [segment_overwrite_of_apart hbound]
    rw [hsource]
    rcases Nat.lt_or_gt_of_ne hne with hlt | hlt
    · right
      rw [← Nat.succ_mul]
      exact Nat.mul_le_mul_right frameBytes hlt
    · left
      rw [← Nat.succ_mul]
      exact Nat.mul_le_mul_right frameBytes hlt

/-- A call on the stream that leaves the buffer as it is. -/
theorem buffered_pushed (s : QueuedStager) (memory : Bytes) (made : List (StreamOp × Answer))
    (h : execute StreamOp.apply (s.contents memory) (entered made) = s.contents memory) :
    (s.pushed made).buffered memory = s.buffered memory := by
  have hcontents : (s.pushed made).contents memory = s.contents memory := by
    show execute StreamOp.apply memory (entered (s.log ++ made)) = _
    rw [entered_append, execute_append]
    exact h
  show s.withBuffer (slots ((s.pushed made).contents memory)) = _
  rw [hcontents]
  rfl

/-- A call that fails, of the library and of the stager on a buffer. -/
theorem buffered_broken {memory : Bytes} {made : List (StreamOp × Answer)} {op : StreamOp}
    {status : Int} {t : QueuedStager}
    (ht : t = { s.pushed (made ++ [(op, answerOf status)]) with poisoned := true })
    (h : status ≠ 0) :
    t.buffered memory = { (s.pushed made).buffered memory with poisoned := true } := by
  have hsame := buffered_pushed (s.pushed made) memory [(op, answerOf status)]
    (by rw [entered_answerOf h]; rfl)
  rw [ht]
  show { (s.pushed (made ++ [(op, answerOf status)])).buffered memory with poisoned := true } = _
  rw [← pushed_pushed, hsame]

/-- **Staging a frame is what the backend's stager does**, on the buffer that the stream leaves. -/
theorem stageFrame_refines {lib : Libraries} {frame : Nat} {view : NativeDeviceFrameView}
    {bytes : Nat → UInt8} {memory : Bytes} (hmemory : memory.length = packetBytes)
    (hinside : Inside s.log) (hcodes : lib.codesAt frame = frameCodes (frameAt bytes)) :
    Triple (· = s) (stageFrame lib.cudaError view bytes (lib.selectDevice frame)
        (answerOf (lib.streamWaitEvent frame)) (answerOf (lib.memcpyAsync frame))
        (answerOf (lib.eventRecord frame)))
      (fun event t => (s.buffered memory).stageFrame lib frame view = (t.buffered memory, .ok event))
      (fun message t =>
        (s.buffered memory).stageFrame lib frame view = (t.buffered memory, .error message)) := by
  refine Triple.get_at ?_
  refine Triple.bind (Q := fun _ t => t = s ∧ (s.withBuffer []).checkFrame view = .ok ())
    (Triple.ofExcept (fun _ hcheck t ht => ⟨ht, hcheck⟩) fun message hcheck t ht => ?_)
    fun _ => Triple.fact fun hcheck => ?_
  · have hcheck' : (s.buffered memory).checkFrame view = .error message := hcheck
    unfold CudaPacketStager.stageFrame
    rw [hcheck', ht]
  have hcheck' : (s.buffered memory).checkFrame view = .ok () := hcheck
  have hfree := (checkFrame_ok hcheck).2
  unfold CudaPacketStager.stageFrame selectDevice
  rw [hcheck']
  refine Triple.bind (Q := fun _ t => t = s.pushed []
      ∧ check lib "select CUDA packet-stager device" (lib.selectDevice frame) = .ok ())
    (Triple.ofExcept (fun _ hselect t ht => ⟨by rw [ht, pushed_nil], hselect⟩)
      fun message hselect t ht => ?_) fun _ => Triple.fact fun hselect => ?_
  · have hselect' : check lib "select CUDA packet-stager device" (lib.selectDevice frame)
        = .error message := hselect
    rw [hselect', ht]
  rw [hselect]
  -- the wait for the frame
  refine Triple.bind (Triple.weaken (enqueue_spec [] "wait for Talker frame" _ _) (fun _ h => h)
    (fun _ _ h => h) fun message t ht => ?_) fun _ => Triple.fact fun hwait => ?_
  · have hfailed : check lib "wait for Talker frame" (lib.streamWaitEvent frame)
        = .error message := ht.2.2
    rw [hfailed, buffered_broken ht.1 ht.2.1, pushed_nil]
  have hwaited : check lib "wait for Talker frame" (lib.streamWaitEvent frame) = .ok () :=
    check_ok hwait
  rw [hwaited]
  have hstill : (s.pushed [(.wait view.readyEvent, answerOf (lib.streamWaitEvent frame))]).buffered
      memory = s.buffered memory :=
    buffered_pushed s memory _ (by rw [entered_cons hwait]; rfl)
  -- the copy
  refine Triple.bind (Triple.weaken (enqueue_spec _ "stage Talker codec frame" _ _) (fun _ h => h)
    (fun _ _ h => h) fun message t ht => ?_) fun _ => Triple.fact fun hcopy => ?_
  · have hfailed : check lib "stage Talker codec frame" (lib.memcpyAsync frame)
        = .error message := ht.2.2
    rw [hfailed, buffered_broken ht.1 ht.2.1]
    show _ = ({ (s.pushed [(.wait view.readyEvent, _)]).buffered memory with poisoned := true }, _)
    rw [hstill]
  have hcopied : check lib "stage Talker codec frame" (lib.memcpyAsync frame) = .ok () :=
    check_ok hcopy
  rw [hcopied]
  have hmoved : (s.pushed [(.wait view.readyEvent, answerOf (lib.streamWaitEvent frame)),
      (.copy (s.stagedFrames * codebooks * 2) (frameAt bytes),
        answerOf (lib.memcpyAsync frame))]).buffered memory
      = { s.buffered memory with deviceCodes :=
            (s.buffered memory).deviceCodes.set s.stagedFrames (lib.codesAt frame) } := by
    have hcontents : (s.contents memory).length = packetBytes :=
      length_execute hinside (List.Subset.refl _) hmemory
    have hslots := slots_overwrite hcontents hfree (length_frameAt bytes)
    show s.withBuffer (slots (execute StreamOp.apply memory (entered (s.log ++ _)))) = _
    rw [entered_append, entered_cons hwait, entered_cons hcopy, execute_append, hcodes]
    exact congrArg s.withBuffer hslots
  -- the record
  refine Triple.bind (Triple.weaken (enqueue_spec _ "record staged Talker frame" _ _) (fun _ h => h)
    (fun _ _ h => h) fun message t ht => ?_) fun _ => Triple.fact fun hrecord => ?_
  · have hfailed : check lib "record staged Talker frame" (lib.eventRecord frame)
        = .error message := ht.2.2
    rw [hfailed, buffered_broken ht.1 ht.2.1]
    show _ = ({ (s.pushed [(.wait view.readyEvent, _), (.copy _ _, _)]).buffered memory with
      poisoned := true }, _)
    rw [hmoved]
    rfl
  have hrecorded : check lib "record staged Talker frame" (lib.eventRecord frame) = .ok () :=
    check_ok hrecord
  rw [hrecorded]
  refine Triple.bind (Triple.modify (Q := fun _ t => t = { s.pushed _ with
    stagedFrames := s.stagedFrames + 1 }) fun t ht => by rw [ht]; rfl) fun _ =>
    Triple.pure fun t ht => ?_
  have hfinal := (buffered_pushed (s.pushed _) memory [(.record s.copiedEvent,
    answerOf (lib.eventRecord frame))] (by rw [entered_cons hrecord]; rfl)).trans hmoved
  rw [pushed_pushed, List.cons_append, List.cons_append, List.nil_append] at hfinal
  rw [ht]
  show _ = ({ (s.pushed [(.wait view.readyEvent, _), (.copy _ _, _),
    (.record s.copiedEvent, _)]).buffered memory with stagedFrames := s.stagedFrames + 1 }, _)
  rw [hfinal]
  rfl

/-- **So does a release.** -/
theorem releaseAfterConsumer_refines {lib : Libraries} {frame event : Nat} {memory : Bytes} :
    Triple (· = s) (releaseAfterConsumer lib.cudaError event (lib.selectDevice frame)
        (answerOf (lib.streamWaitEvent frame)))
      (fun _ t =>
        (s.buffered memory).releaseAfterConsumer lib frame event = (t.buffered memory, .ok ()))
      (fun message t => (s.buffered memory).releaseAfterConsumer lib frame event
        = (t.buffered memory, .error message)) := by
  refine Triple.get_at ?_
  -- the checks in their order: poisoned, empty, no event, the device
  unfold CudaPacketStager.releaseAfterConsumer selectDevice
  refine Triple.bind (Q := fun _ t => t = s ∧ ¬ (s.buffered memory).poisoned = true)
    (Triple.throwIf (fun t ht hpoisoned => ?_) fun t ht hlive => ⟨ht, hlive⟩)
    fun _ => Triple.fact fun hlive => ?_
  · rw [if_pos (show (s.buffered memory).poisoned = true from hpoisoned), ht]
  rw [if_neg hlive]
  refine Triple.bind (Q := fun _ t => t = s ∧ ¬ (s.buffered memory).stagedFrames = 0)
    (Triple.throwIf (fun t ht hempty => ?_) fun t ht hpending => ⟨ht, hpending⟩)
    fun _ => Triple.fact fun hpending => ?_
  · rw [if_pos (show (s.buffered memory).stagedFrames = 0 from hempty), ht]
  rw [if_neg hpending]
  refine Triple.bind (Q := fun _ t => t = s ∧ ¬ event = 0)
    (Triple.throwIf (fun t ht hnull => ?_) fun t ht hevent => ⟨ht, hevent⟩)
    fun _ => Triple.fact fun hevent => ?_
  · rw [if_pos hnull, ht]
  rw [if_neg hevent]
  refine Triple.bind (Q := fun _ t => t = s.pushed []
      ∧ check lib "select CUDA packet-stager device" (lib.selectDevice frame) = .ok ())
    (Triple.ofExcept (fun _ hselect t ht => ⟨by rw [ht, pushed_nil], hselect⟩)
      fun message hselect t ht => ?_) fun _ => Triple.fact fun hselect => ?_
  · have hselect' : check lib "select CUDA packet-stager device" (lib.selectDevice frame)
        = .error message := hselect
    rw [hselect', ht]
  rw [hselect]
  refine Triple.bind (Triple.weaken (enqueue_spec [] "wait for Codec packet snapshot" _ _)
    (fun _ h => h) (fun _ _ h => h) fun message t ht => ?_)
    fun _ => Triple.fact fun hwait => Triple.modify fun t ht => ?_
  · have hfailed : check lib "wait for Codec packet snapshot" (lib.streamWaitEvent frame)
        = .error message := ht.2.2
    rw [hfailed, buffered_broken ht.1 ht.2.1, pushed_nil]
  have hwaited : check lib "wait for Codec packet snapshot" (lib.streamWaitEvent frame) = .ok () :=
    check_ok hwait
  -- a wait does not write to the buffer
  have hstill : (s.pushed [(.wait event, answerOf (lib.streamWaitEvent frame))]).buffered memory
      = s.buffered memory :=
    buffered_pushed s memory _ (by rw [entered_cons hwait]; rfl)
  rw [hwaited, ht]
  show _ = ({ (s.pushed [(.wait event, _)]).buffered memory with stagedFrames := 0 }, _)
  rw [hstill]

/-! ## Runs of the two stagers -/

/-- A call of the backend; the libraries answer in it what they answer at `frame`. -/
inductive Request where
  | stageFrame (frame : Nat) (view : NativeDeviceFrameView)
  | packetView
  | releaseAfterConsumer (frame consumerDoneEvent : Nat)
  deriving DecidableEq, Repr

/-- The call of the stager on its stream; `bytes` are those behind the pointer of a frame. -/
def Request.call (lib : Libraries) (bytes : Nat → Nat → UInt8) : Request → Call
  | .stageFrame frame view => .stageFrame view (bytes frame) (lib.selectDevice frame)
      (answerOf (lib.streamWaitEvent frame)) (answerOf (lib.memcpyAsync frame))
      (answerOf (lib.eventRecord frame))
  | .packetView => .packetView
  | .releaseAfterConsumer frame consumerDoneEvent => .releaseAfterConsumer consumerDoneEvent
      (lib.selectDevice frame) (answerOf (lib.streamWaitEvent frame))

/-- The call of the backend's stager. -/
def Request.onBuffer (lib : Libraries) (g : CudaPacketStager) :
    Request → CudaPacketStager × Except String Reply
  | .stageFrame frame view =>
    let result := g.stageFrame lib frame view
    (result.1, result.2.map .staged)
  | .packetView =>
    (g, g.packetView.map fun frameCount => .viewed ⟨g.pointer, frameCount, g.copiedEvent⟩)
  | .releaseAfterConsumer frame consumerDoneEvent =>
    let result := g.releaseAfterConsumer lib frame consumerDoneEvent
    (result.1, result.2.map fun () => .released)

/-- The libraries, where the codes of a frame are in these bytes. -/
def withBytes (lib : Libraries) (bytes : Nat → Nat → UInt8) : Libraries :=
  { lib with codesAt := fun frame => frameCodes (frameAt (bytes frame)) }

/-- Requests one after another: the stager behind them, and the reply to each. -/
def serve {σ : Type} (answer : σ → Request → σ × Except String Reply) :
    σ → List Request → σ × List (Except String Reply)
  | s, [] => (s, [])
  | s, request :: requests =>
    let served := serve answer (answer s request).1 requests
    (served.1, (answer s request).2 :: served.2)

/-- A call on the queue does what the call on the buffer does. -/
theorem method_refines {lib : Libraries} {bytes : Nat → Nat → UInt8} {memory : Bytes}
    (hmemory : memory.length = packetBytes) (hinside : Inside s.log) (request : Request) :
    Triple (· = s) (method lib.cudaError (request.call lib bytes))
      (fun reply t => request.onBuffer (withBytes lib bytes) (s.buffered memory)
        = (t.buffered memory, .ok reply))
      (fun message t => request.onBuffer (withBytes lib bytes) (s.buffered memory)
        = (t.buffered memory, .error message)) := by
  cases request with
  | stageFrame frame view =>
    have hstage := @stageFrame_refines s (withBytes lib bytes) frame view (bytes frame) memory
      hmemory hinside rfl
    refine Triple.bind (Triple.weaken hstage (fun _ h => h) (fun event t h => ?_)
      fun message t h => ?_) fun event => Triple.pure fun t h => h
    · show (_, ((s.buffered memory).stageFrame (withBytes lib bytes) frame view).2.map _) = _
      rw [h]
      rfl
    · show (_, ((s.buffered memory).stageFrame (withBytes lib bytes) frame view).2.map _) = _
      rw [h]
      rfl
  | packetView =>
    refine Triple.bind (Triple.get_at (Triple.bind
      (Q := fun frameCount t => t = s ∧ (s.buffered memory).packetView = .ok frameCount)
      (Triple.ofExcept (fun frameCount hview t ht => ⟨ht, hview⟩) fun message hview t ht => ?_)
      fun frameCount => Triple.pure fun t h => ?_)) fun view => Triple.pure fun t h => h
    · have hview' : (s.buffered memory).packetView = .error message := hview
      show (_, (s.buffered memory).packetView.map _) = _
      rw [hview', ht]
      rfl
    · show (_, (s.buffered memory).packetView.map _) = _
      rw [h.2, h.1]
      rfl
  | releaseAfterConsumer frame event =>
    have hrelease := @releaseAfterConsumer_refines s (withBytes lib bytes) frame event memory
    refine Triple.bind (Triple.weaken hrelease (fun _ h => h) (fun _ t h => ?_)
      fun message t h => ?_) fun _ => Triple.pure fun t h => h
    · show (_, ((s.buffered memory).releaseAfterConsumer (withBytes lib bytes) frame event).2.map _)
        = _
      rw [h]
      rfl
    · show (_, ((s.buffered memory).releaseAfterConsumer (withBytes lib bytes) frame event).2.map _)
        = _
      rw [h]
      rfl

/-- One request, answered alike. -/
theorem call_refines {lib : Libraries} {bytes : Nat → Nat → UInt8} {memory : Bytes}
    (hmemory : memory.length = packetBytes) (hinside : Inside s.log) (request : Request) :
    request.onBuffer (withBytes lib bytes) (s.buffered memory)
      = ((s.call lib.cudaError (request.call lib bytes)).1.buffered memory,
        (s.call lib.cudaError (request.call lib bytes)).2) := by
  have hmethod := @method_refines s lib bytes memory hmemory hinside request
  unfold QueuedStager.call
  cases hresult : method lib.cudaError (request.call lib bytes) s with
  | ok reply t => exact hmethod.ok rfl hresult
  | error message t => exact hmethod.error rfl hresult

/-- So does a sequence of calls. -/
theorem serve_refines {lib : Libraries} {bytes : Nat → Nat → UInt8} {memory : Bytes}
    {frames : List Bytes} (hmemory : memory.length = packetBytes) (h : Holds memory s frames)
    (requests : List Request) :
    serve (fun g request => request.onBuffer (withBytes lib bytes) g) (s.buffered memory) requests
      = ((s.after lib.cudaError (requests.map (Request.call lib bytes))).buffered memory,
        (serve (fun s request => s.call lib.cudaError (request.call lib bytes)) s requests).2) := by
  induction requests generalizing s frames with
  | nil => rfl
  | cons request requests ih =>
    have hcall := @call_refines s lib bytes memory hmemory h.inside request
    have hrest := ih (@Holds.step lib.cudaError s memory frames h hmemory (request.call lib bytes))
    unfold serve
    rw [hcall]
    dsimp only
    rw [hrest]
    rfl

/-- **The stager on its stream is the backend's stager.** Whatever the requests and the statuses of
the runtime, where a call that fails enqueues nothing: both give the same replies, and what the
backend's stager has in its buffer is what the stream leaves in the packet buffer. -/
theorem queued_refines (lib : Libraries) (bytes : Nat → Nat → UInt8) (deviceIndex : Int)
    (pointer copiedEvent : Nat) (memory : Fin packetBytes → UInt8) (requests : List Request) :
    serve (fun g request => request.onBuffer (withBytes lib bytes) g)
        ((new deviceIndex pointer copiedEvent).buffered (List.ofFn memory)) requests
      = (((new deviceIndex pointer copiedEvent).after lib.cudaError
          (requests.map (Request.call lib bytes))).buffered (List.ofFn memory),
        (serve (fun s request => s.call lib.cudaError (request.call lib bytes))
          (new deviceIndex pointer copiedEvent) requests).2) :=
  serve_refines List.length_ofFn (holds_new deviceIndex pointer copiedEvent (List.ofFn memory))
    requests

end QueuedStager

end Qwen3Tts.Talker.Backend
