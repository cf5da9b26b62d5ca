import Qwen3Tts.Lib.Machine
import Qwen3Tts.Talker.NativeSession
import Mathlib.Data.List.Nodup

/-!
# Talker — the batch frame pump

`BatchFramePump` of `native_talker.rs`: the sessions submit their frame requests into a channel
and wait, a worker thread gathers them into batches, makes one native call for a batch and sends
each member its answer. The counter of registered sessions changes at any time, the gather window
may close whenever the worker looks at the clock, and the worker's sends are steps of their own, so
a session may be back with its next request before the last member of a batch is answered.

A responder is a channel that one request makes and that carries one answer, so it is a number,
and what was sent to it is read off the sends.
-/

namespace Qwen3Tts.Talker.BatchPump

open Qwen3Tts.Lib

/-! ## Requests and native calls -/

def maxBatchSessions : Nat := 8

structure NativeSamplingConfig where
  doSample : Int
  topK : Int
  topP : Float32
  temperature : Float32
  repetitionPenalty : Float32
  deriving DecidableEq

/-- One request in the channel. -/
structure QueuedFrameRequest where
  session : SessionHandle
  trailingTextToken : Int
  talkerSampling : NativeSamplingConfig
  predictorSampling : NativeSamplingConfig
  responder : Nat
  deriving DecidableEq

/-- What the native call returns: its status, the text in its error buffer, and the view it leaves
at each position. -/
structure NativeBatchAnswer where
  status : Int
  error : String
  views : Nat → NativeDeviceFrameView

/-- A call of `qwen3_tts_model_batch_next_frame_begin_v2`: the arrays handed over, the answer, and the
batch that it was made for. -/
structure NativeBatchCall where
  sessions : List SessionHandle
  trailing : List Int
  talker : List NativeSamplingConfig
  predictor : List NativeSamplingConfig
  answer : NativeBatchAnswer
  batch : List QueuedFrameRequest

/-- The native call of `run_batch`. -/
def nativeCall (batch : List QueuedFrameRequest) (answer : NativeBatchAnswer) : NativeBatchCall :=
  let count := min batch.length maxBatchSessions
  { sessions := (batch.take count).map (·.session)
    trailing := (batch.take count).map (·.trailingTextToken)
    talker := (batch.take count).map (·.talkerSampling)
    predictor := (batch.take count).map (·.predictorSampling)
    answer := answer
    batch := batch }

/-- The sends of `run_batch`, in order. -/
def runBatch (batch : List QueuedFrameRequest) (answer : NativeBatchAnswer) :
    List (QueuedFrameRequest × PumpAnswer) :=
  let count := min batch.length maxBatchSessions
  let views := (List.range count).map answer.views
  if answer.status = 0 then (batch.zip views).map fun (request, view) => (request, .view view)
  else
    let message := s!"status {answer.status}: {answer.error}"
    batch.map fun request => (request, .failed message)

/-! ## The pump -/

/-- Where the worker thread stands. -/
inductive Worker where
  /-- In `recv`. -/
  | receiving
  /-- In front of the load of the counter. -/
  | gathering (batch : List QueuedFrameRequest)
  /-- In `recv_timeout`. -/
  | awaiting (batch : List QueuedFrameRequest)
  | calling (batch : List QueuedFrameRequest)
  | answering (left : List (QueuedFrameRequest × PumpAnswer))
  | stopped

/-- The requests the worker holds without an answer. -/
def Worker.batch : Worker → List QueuedFrameRequest
  | .gathering batch | .awaiting batch | .calling batch => batch
  | .receiving | .answering _ | .stopped => []

/-- The answers it has yet to send. -/
def Worker.left : Worker → List (QueuedFrameRequest × PumpAnswer)
  | .answering left => left
  | .receiving | .gathering _ | .awaiting _ | .calling _ | .stopped => []

/-- The pump, its worker and its clients. -/
structure Pump where
  registered : Nat := 0
  /-- Whether the pump still has its sender. -/
  sender : Bool := true
  channel : List QueuedFrameRequest := []
  worker : Worker := .receiving
  /-- The sessions in `response.recv`, each with the responder of its request. -/
  waiting : List (SessionHandle × Nat) := []
  /-- The sends of the worker, in order. -/
  answered : List (QueuedFrameRequest × PumpAnswer) := []
  /-- The responders that the worker dropped without an answer. -/
  dropped : List Nat := []
  /-- The submissions, the native calls and the answers the sessions got. The code keeps no such
  lists. -/
  submitted : List QueuedFrameRequest := []
  calls : List NativeBatchCall := []
  received : List (SessionHandle × Nat × PumpAnswer) := []
  refused : List SessionHandle := []

inductive Action where
  | register
  /-- `BatchRegistration::drop`. -/
  | deregister
  /-- `begin_device_frame_batched` up to `response.recv`. -/
  | submit (session : SessionHandle) (trailingTextToken : Int)
      (talkerSampling predictorSampling : NativeSamplingConfig)
  /-- `response.recv` returns. -/
  | receive (session : SessionHandle)
  /-- `BatchFramePump::drop`, when the last session of the model is gone. -/
  | dropPump
  /-- `recv` returns: a request, or that there is no sender. -/
  | recv
  | recvDisconnected
  /-- The counter is loaded; `late` says whether the deadline has passed. -/
  | load (late : Bool)
  /-- `recv_timeout` returns. -/
  | push
  | timeout
  | disconnected
  | call (answer : NativeBatchAnswer)
  | send

/-- The steps of the worker thread. -/
def Action.isWorker : Action → Bool
  | .recv | .recvDisconnected | .load _ | .push | .timeout | .disconnected | .call _ | .send => true
  | .register | .deregister | .submit .. | .receive _ | .dropPump => false

namespace Pump

/-- `expected` of the gather loop. -/
def expected (s : Pump) : Nat := min (max s.registered 1) maxBatchSessions

def submit (s : Pump) (session : SessionHandle) (trailingTextToken : Int)
    (talkerSampling predictorSampling : NativeSamplingConfig) : Pump :=
  match s.worker with
  | .stopped => { s with refused := session :: s.refused }
  | _ =>
    let request : QueuedFrameRequest :=
      { session := session
        trailingTextToken := trailingTextToken
        talkerSampling := talkerSampling
        predictorSampling := predictorSampling
        responder := s.submitted.length }
    { s with
      channel := s.channel ++ [request]
      waiting := s.waiting ++ [(session, request.responder)]
      submitted := s.submitted ++ [request] }

/-- The first thing that a responder's channel has to say. -/
def response (s : Pump) (responder : Nat) : Option PumpAnswer :=
  match s.answered.find? (·.1.responder = responder) with
  | some (_, answer) => some answer
  | none => if responder ∈ s.dropped then some .dropped else none

def receive (s : Pump) (session : SessionHandle) : Option Pump := do
  let responder ← s.waiting.lookup session
  let answer ← s.response responder
  return { s with
    waiting := s.waiting.erase (session, responder)
    received := s.received ++ [(session, responder, answer)] }

def call (s : Pump) (batch : List QueuedFrameRequest) (answer : NativeBatchAnswer) : Pump :=
  let sends := runBatch batch answer
  { s with
    worker := .answering sends
    dropped := s.dropped ++ (batch.drop sends.length).map (·.responder)
    calls := s.calls ++ [nativeCall batch answer] }

end Pump

def step (s : Pump) : Action → Option Pump
  | .register => some { s with registered := s.registered + 1 }
  | .deregister =>
    if s.registered = 0 then none else some { s with registered := s.registered - 1 }
  | .submit session trailingTextToken talkerSampling predictorSampling =>
    if s.sender ∧ (s.waiting.lookup session).isNone then
      some (s.submit session trailingTextToken talkerSampling predictorSampling)
    else none
  | .receive session => s.receive session
  | .dropPump => if s.sender ∧ s.waiting = [] then some { s with sender := false } else none
  | .recv => match s.worker, s.channel with
    | .receiving, request :: rest =>
      some { s with worker := .gathering [request], channel := rest }
    | _, _ => none
  | .recvDisconnected => match s.worker, s.channel with
    | .receiving, [] => if s.sender then none else some { s with worker := .stopped }
    | _, _ => none
  | .load late => match s.worker with
    | .gathering batch =>
      if s.expected ≤ batch.length ∨ late then some { s with worker := .calling batch }
      else some { s with worker := .awaiting batch }
    | _ => none
  | .push => match s.worker, s.channel with
    | .awaiting batch, request :: rest =>
      some { s with worker := .gathering (batch ++ [request]), channel := rest }
    | _, _ => none
  | .timeout => match s.worker with
    | .awaiting batch => some { s with worker := .calling batch }
    | _ => none
  | .disconnected => match s.worker, s.channel with
    | .awaiting batch, [] => if s.sender then none else some { s with worker := .calling batch }
    | _, _ => none
  | .call answer => match s.worker with
    | .calling batch => some (s.call batch answer)
    | _ => none
  | .send => match s.worker with
    | .answering [] => some { s with worker := .receiving }
    | .answering (sent :: left) =>
      some { s with worker := .answering left, answered := s.answered ++ [sent] }
    | _ => none

/-! ## A batch and its answers -/

/-- What the native call has for the request at a position: the view it left there, or its
error. -/
def NativeBatchAnswer.own (answer : NativeBatchAnswer) (position : Nat) : PumpAnswer :=
  if answer.status = 0 then .view (answer.views position)
  else .failed s!"status {answer.status}: {answer.error}"

/-- Every member of the batch with the answer for its own position. -/
def NativeBatchCall.ownAnswers (call : NativeBatchCall) : List (QueuedFrameRequest × PumpAnswer) :=
  call.batch.zipIdx.map fun (request, position) => (request, call.answer.own position)

/-- The arrays of the native call are those of the whole batch, position by position. -/
structure NativeBatchCall.Whole (call : NativeBatchCall) : Prop where
  sessions : call.sessions = call.batch.map (·.session)
  trailing : call.trailing = call.batch.map (·.trailingTextToken)
  talker : call.talker = call.batch.map (·.talkerSampling)
  predictor : call.predictor = call.batch.map (·.predictorSampling)
  nonempty : 1 ≤ call.batch.length
  bounded : call.batch.length ≤ maxBatchSessions

section Batch

variable {batch : List QueuedFrameRequest} {answer : NativeBatchAnswer}

/-- A batch within the limit is one whole call. -/
theorem nativeCall_whole (hpos : 1 ≤ batch.length) (hle : batch.length ≤ maxBatchSessions) :
    (nativeCall batch answer).Whole := by
  have htake : batch.take (min batch.length maxBatchSessions) = batch := by
    rw [min_eq_left hle, List.take_length]
  refine ⟨?_, ?_, ?_, ?_, hpos, hle⟩
  all_goals
    simp only [nativeCall]
    rw [htake]

/-- A batch that is not truncated sends every member the answer for its position. -/
theorem runBatch_eq (hle : batch.length ≤ maxBatchSessions) :
    runBatch batch answer = (nativeCall batch answer).ownAnswers := by
  unfold runBatch
  rw [min_eq_left hle]
  have hown : (nativeCall batch answer).ownAnswers
      = batch.zipIdx.map fun (request, position) => (request, answer.own position) := rfl
  rw [hown]
  by_cases hstatus : answer.status = 0
  · simp only [hstatus, if_true, NativeBatchAnswer.own]
    rw [List.zipIdx_eq_zip_range', ← List.range_eq_range', List.zip_map_right, List.map_map]
    rfl
  · simp only [hstatus, if_false, NativeBatchAnswer.own]
    -- Every member gets the one message, so its position does not matter.
    conv_lhs => rw [← List.zipIdx_map_fst 0 batch]
    rw [List.map_map]
    rfl

/-- Each request of the batch has an answer. -/
theorem ownAnswers_fst (call : NativeBatchCall) : call.ownAnswers.map (·.1) = call.batch := by
  unfold NativeBatchCall.ownAnswers
  rw [List.map_map]
  exact List.zipIdx_map_fst 0 call.batch

theorem ownAnswers_length (call : NativeBatchCall) :
    call.ownAnswers.length = call.batch.length := by
  rw [← ownAnswers_fst call, List.length_map]

end Batch

/-! ## What holds in every run -/

/-- The sizes of a batch: below the maximum while the worker waits for more. -/
def Worker.Sized : Worker → Prop
  | .gathering batch | .calling batch => 1 ≤ batch.length ∧ batch.length ≤ maxBatchSessions
  | .awaiting batch => 1 ≤ batch.length ∧ batch.length < maxBatchSessions
  | .answering left => left.length ≤ maxBatchSessions
  | .receiving | .stopped => True

/-- What holds in every run. -/
structure Inv (s : Pump) : Prop where
  /-- The requests go through the channel, the batch and the calls in the order of their
  submission. -/
  fifo : s.submitted = s.calls.flatMap (·.batch) ++ s.worker.batch ++ s.channel
  sends : s.answered ++ s.worker.left = s.calls.flatMap NativeBatchCall.ownAnswers
  whole : ∀ call ∈ s.calls, call.Whole
  sized : s.worker.Sized
  responders : s.submitted.map (·.responder) = List.range s.submitted.length
  /-- A request is received for or waited for, by its own session. -/
  owners : (s.submitted.map fun r => (r.session, r.responder)).Perm
    (s.received.map (fun got => (got.1, got.2.1)) ++ s.waiting)
  received : ∀ got ∈ s.received, ∃ r, (r, got.2.2) ∈ s.answered ∧ r.session = got.1
    ∧ r.responder = got.2.1
  dropped : s.dropped = []
  refused : s.refused = []
  stopped : s.worker = .stopped → s.sender = false ∧ s.channel = []
  sender : s.sender = false → s.waiting = []

/-- What an action does, seen from the requests. -/
inductive Effect (s : Pump) : Pump → Prop
  | count (registered : Nat) : Effect s { s with registered := registered }
  | submit {session : SessionHandle} (trailingTextToken : Int)
      (talkerSampling predictorSampling : NativeSamplingConfig) (hsender : s.sender = true)
      (hidle : s.waiting.lookup session = none) :
      Effect s (s.submit session trailingTextToken talkerSampling predictorSampling)
  | receive {session : SessionHandle} {responder : Nat} {answer : PumpAnswer}
      (hwaiting : s.waiting.lookup session = some responder)
      (hresponse : s.response responder = some answer) :
      Effect s { s with
        waiting := s.waiting.erase (session, responder)
        received := s.received ++ [(session, responder, answer)] }
  | dropPump (hidle : s.waiting = []) : Effect s { s with sender := false }
  /-- The worker moves on, and no request leaves it or the channel. -/
  | move {w : Worker} {c : List QueuedFrameRequest}
      (hrequests : w.batch ++ c = s.worker.batch ++ s.channel)
      (hold : s.worker.left = []) (hnew : w.left = [])
      (hsized : s.worker.Sized → w.Sized)
      (hstopped : w = .stopped → s.sender = false ∧ c = []) :
      Effect s { s with worker := w, channel := c }
  | call {batch : List QueuedFrameRequest} (hworker : s.worker = .calling batch)
      (answer : NativeBatchAnswer) : Effect s (s.call batch answer)
  | send {sent : QueuedFrameRequest × PumpAnswer} {left : List (QueuedFrameRequest × PumpAnswer)}
      (hworker : s.worker = .answering (sent :: left)) :
      Effect s { s with worker := .answering left, answered := s.answered ++ [sent] }

section Submit

variable (s : Pump) (session : SessionHandle) (trailingTextToken : Int)
  (talkerSampling predictorSampling : NativeSamplingConfig)

@[simp] theorem submit_worker :
    (s.submit session trailingTextToken talkerSampling predictorSampling).worker = s.worker := by
  unfold Pump.submit
  split <;> rfl

@[simp] theorem submit_answered :
    (s.submit session trailingTextToken talkerSampling predictorSampling).answered
      = s.answered := by
  unfold Pump.submit
  split <;> rfl

end Submit

theorem expected_le (s : Pump) : s.expected ≤ maxBatchSessions := min_le_right _ _

section Step

variable {s s' : Pump}

/-- Reading the number of registrations. -/
theorem effect_load {batch : List QueuedFrameRequest} (late : Bool)
    (hworker : s.worker = .gathering batch) (h : step s (.load late) = some s') : Effect s s' := by
  have hexpected := expected_le s
  simp only [step, hworker] at h
  split at h
  · cases h
    exact .move (w := .calling batch) (c := s.channel) (by rw [hworker]; rfl)
      (by rw [hworker]; rfl) rfl (fun hsized => by rw [hworker] at hsized; exact hsized)
      (fun hw => by cases hw)
  · rename_i hmore
    cases h
    refine .move (w := .awaiting batch) (c := s.channel) (by rw [hworker]; rfl)
      (by rw [hworker]; rfl) rfl (fun hsized => ?_) (fun hw => by cases hw)
    rw [hworker] at hsized
    have hlt : batch.length < s.expected := not_le.mp fun hle => hmore (.inl hle)
    exact ⟨hsized.1, lt_of_lt_of_le hlt hexpected⟩

theorem effect_called {batch : List QueuedFrameRequest} (hworker : s.worker = .awaiting batch) :
    Effect s { s with worker := .calling batch } :=
  .move (w := .calling batch) (c := s.channel) (by rw [hworker]; rfl)
    (by rw [hworker]; rfl) rfl
    (fun hsized => by rw [hworker] at hsized; exact ⟨hsized.1, Nat.le_of_lt hsized.2⟩)
    (fun hw => by cases hw)

/-- Every step has one of the effects. -/
theorem step_effect {a : Action} (h : step s a = some s') : Effect s s' := by
  cases a with
  | register => cases h; exact .count _
  | deregister =>
    simp only [step] at h
    split at h
    · cases h
    · cases h; exact .count _
  | submit session trailingTextToken talkerSampling predictorSampling =>
    simp only [step] at h
    split at h
    · rename_i hguard
      cases h
      exact .submit _ _ _ hguard.1 (Option.isNone_iff_eq_none.mp hguard.2)
    · cases h
  | receive session =>
    obtain ⟨responder, hwaiting, h⟩ := Option.bind_eq_some_iff.mp h
    obtain ⟨answer, hresponse, h⟩ := Option.bind_eq_some_iff.mp h
    cases h
    exact .receive hwaiting hresponse
  | dropPump =>
    simp only [step] at h
    split at h
    · rename_i hguard
      cases h
      exact .dropPump hguard.2
    · cases h
  | recv =>
    simp only [step] at h
    split at h
    · -- the first request of a batch comes from the head of the channel
      rename_i request rest hworker hchannel
      cases h
      exact .move (by rw [hworker, hchannel]; rfl) (by rw [hworker]; rfl) rfl
        (fun _ => ⟨Nat.le_refl 1, show 1 ≤ 8 by decide⟩) (fun hw => by cases hw)
    · cases h
  | recvDisconnected =>
    simp only [step] at h
    split at h
    · rename_i hworker hchannel
      split at h
      · cases h
      · rename_i hsender
        cases h
        exact .move (w := .stopped) (c := s.channel) (by rw [hworker]; rfl)
          (by rw [hworker]; rfl) rfl (fun _ => trivial)
          (fun _ => ⟨Bool.eq_false_iff.mpr hsender, hchannel⟩)
    · cases h
  | load late =>
    -- the worker is gathering in every branch
    have hworker : ∃ batch, s.worker = .gathering batch := by
      simp only [step] at h
      split at h
      · exact ⟨_, ‹_›⟩
      · cases h
    exact effect_load late hworker.choose_spec h
  | push =>
    simp only [step] at h
    split at h
    · rename_i batch request rest hworker hchannel
      cases h
      refine .move (by rw [hworker, hchannel]; simp [Worker.batch]) (by rw [hworker]; rfl) rfl
        (fun hsized => ?_) (fun hw => by cases hw)
      rw [hworker] at hsized
      show 1 ≤ (batch ++ [request]).length ∧ (batch ++ [request]).length ≤ maxBatchSessions
      rw [List.length_append]
      exact ⟨Nat.le_add_left _ _, hsized.2⟩
    · cases h
  | timeout =>
    simp only [step] at h
    split at h
    · cases h; exact effect_called ‹_›
    · cases h
  | disconnected =>
    simp only [step] at h
    split at h
    · rename_i hworker hchannel
      split at h
      · cases h
      · cases h; exact effect_called hworker
    · cases h
  | call answer =>
    simp only [step] at h
    split at h
    · cases h; exact .call ‹_› answer
    · cases h
  | send =>
    simp only [step] at h
    split at h
    · rename_i hworker
      cases h
      exact .move (w := .receiving) (c := s.channel) (by rw [hworker]; rfl)
        (by rw [hworker]; rfl) rfl (fun _ => trivial) (fun hw => by cases hw)
    · cases h; exact .send ‹_›
    · cases h

/-- An answer that was sent belongs to a submitted request. -/
theorem Inv.answered_submitted (hs : Inv s) {sent : QueuedFrameRequest × PumpAnswer}
    (hmem : sent ∈ s.answered) : sent.1 ∈ s.submitted := by
  have hsent : sent ∈ s.calls.flatMap NativeBatchCall.ownAnswers :=
    hs.sends ▸ List.mem_append_left _ hmem
  obtain ⟨call, hcall, hown⟩ := List.mem_flatMap.mp hsent
  have hbatch : sent.1 ∈ call.batch := ownAnswers_fst call ▸ List.mem_map_of_mem hown
  rw [hs.fifo]
  exact List.mem_append_left _ (List.mem_append_left _ (List.mem_flatMap.mpr ⟨call, hcall, hbatch⟩))

/-- No two requests share a responder. -/
theorem Inv.responders_nodup (hs : Inv s) : (s.submitted.map (·.responder)).Nodup :=
  hs.responders ▸ List.nodup_range

/-- What a responder's channel says was sent for the request that made it. -/
theorem Inv.response_spec (hs : Inv s) {responder : Nat} {answer : PumpAnswer}
    (h : s.response responder = some answer) :
    ∃ r, (r, answer) ∈ s.answered ∧ r.responder = responder := by
  unfold Pump.response at h
  split at h
  · rename_i r sent hfind
    cases h
    have hown := List.find?_some hfind
    exact ⟨r, List.mem_of_find?_eq_some hfind, by simpa using hown⟩
  · rw [hs.dropped] at h
    cases h

theorem mem_of_lookup {α β : Type} [BEq α] [LawfulBEq α] {xs : List (α × β)} {a : α} {b : β}
    (h : xs.lookup a = some b) : (a, b) ∈ xs := by
  obtain ⟨before, after, hxs, -⟩ := List.lookup_eq_some_iff.mp h
  rw [hxs]
  exact List.mem_append_right _ List.mem_cons_self

/-- The request behind a responder that a session waits on is the session's own. -/
theorem Inv.session_eq (hs : Inv s) {session : SessionHandle} {r : QueuedFrameRequest}
    (hwaiting : (session, r.responder) ∈ s.waiting) (hsubmitted : r ∈ s.submitted) :
    r.session = session := by
  have hmem : (session, r.responder) ∈ s.submitted.map fun r => (r.session, r.responder) :=
    hs.owners.mem_iff.mpr (List.mem_append_right _ hwaiting)
  obtain ⟨other, hother, heq⟩ := List.mem_map.mp hmem
  have hresponder : other.responder = r.responder := congrArg (·.2) heq
  have hsame : other = r := List.inj_on_of_nodup_map hs.responders_nodup hother hsubmitted hresponder
  exact hsame ▸ congrArg (·.1) heq

/-- A submission keeps the invariant. -/
theorem inv_submit (hs : Inv s) {session : SessionHandle} (trailingTextToken : Int)
    (talkerSampling predictorSampling : NativeSamplingConfig) (hsender : s.sender = true) :
    Inv (s.submit session trailingTextToken talkerSampling predictorSampling) := by
  have hrunning : s.worker ≠ .stopped := fun hw => by
    have hclosed := (hs.stopped hw).1
    rw [hsender] at hclosed
    cases hclosed
  unfold Pump.submit
  split
  · exact absurd ‹_› hrunning
  · refine { hs with
      fifo := ?_, responders := ?_, owners := ?_, stopped := fun hw => absurd hw hrunning
      sender := fun hclosed => ?_ }
    · show s.submitted ++ _ = s.calls.flatMap (·.batch) ++ s.worker.batch ++ (s.channel ++ _)
      rw [← List.append_assoc, ← hs.fifo]
    · simp only [List.map_append, List.map_cons, List.map_nil, List.length_append,
        List.length_cons, List.length_nil]
      rw [List.range_succ, hs.responders]
    · rw [List.map_append, ← List.append_assoc]
      exact hs.owners.append_right _
    · exact absurd (hsender.symm.trans hclosed) (by decide)

/-- A client that takes its answer keeps it. -/
theorem inv_receive (hs : Inv s) {session : SessionHandle} {responder : Nat} {answer : PumpAnswer}
    (hwaiting : s.waiting.lookup session = some responder)
    (hresponse : s.response responder = some answer) :
    Inv { s with
      waiting := s.waiting.erase (session, responder)
      received := s.received ++ [(session, responder, answer)] } := by
  have hmem := mem_of_lookup hwaiting
  obtain ⟨r, hanswered, hr⟩ := hs.response_spec hresponse
  refine { hs with owners := ?_, received := fun got hgot => ?_, sender := fun hclosed => ?_ }
  · refine hs.owners.trans ?_
    rw [List.map_append, List.append_assoc]
    exact (List.perm_cons_erase hmem).append_left _
  · rcases List.mem_append.mp hgot with hold | hnew
    · exact hs.received got hold
    · rw [List.mem_singleton.mp hnew]
      exact ⟨r, hanswered, hs.session_eq (hr ▸ hmem) (hs.answered_submitted hanswered), hr⟩
  · have hnone := hs.sender hclosed
    show s.waiting.erase (session, responder) = []
    rw [hnone]
    rfl

/-- So does the native call. -/
theorem inv_call (hs : Inv s) {batch : List QueuedFrameRequest} (answer : NativeBatchAnswer)
    (hworker : s.worker = .calling batch) : Inv (s.call batch answer) := by
  have hsized := hs.sized
  rw [hworker] at hsized
  have hruns : runBatch batch answer = _ := runBatch_eq hsized.2
  have hfifo := hs.fifo
  have hsends := hs.sends
  rw [hworker] at hfifo hsends
  refine { hs with
    fifo := ?_, sends := ?_, whole := fun call hcall => ?_, sized := ?_, dropped := ?_
    stopped := fun hw => by cases hw }
  · show s.submitted = (s.calls ++ [nativeCall batch answer]).flatMap (·.batch) ++ [] ++ s.channel
    rw [hfifo, List.flatMap_append, List.append_nil]
    simp [Worker.batch, nativeCall]
  · show s.answered ++ runBatch batch answer = (s.calls ++ [nativeCall batch answer]).flatMap _
    rw [hruns, List.flatMap_append, ← hsends]
    simp [Worker.left]
  · rcases List.mem_append.mp hcall with hold | hnew
    · exact hs.whole call hold
    · rw [List.mem_singleton.mp hnew]
      exact nativeCall_whole hsized.1 hsized.2
  · show (runBatch batch answer).length ≤ maxBatchSessions
    rw [hruns, ownAnswers_length]
    exact hsized.2
  · -- Every member of the batch is among the sends.
    show s.dropped ++ (batch.drop (runBatch batch answer).length).map _ = []
    have hlength : (runBatch batch answer).length = batch.length := by
      rw [hruns, ownAnswers_length]
      rfl
    rw [hs.dropped, hlength, List.drop_length]
    rfl

/-- So does every effect. -/
theorem inv_effect (hs : Inv s) (h : Effect s s') : Inv s' := by
  cases h with
  | count registered => exact { hs with }
  | submit trailingTextToken talkerSampling predictorSampling hsender hidle =>
    exact inv_submit hs _ _ _ hsender
  | receive hwaiting hresponse => exact inv_receive hs hwaiting hresponse
  | dropPump hidle =>
    exact { hs with stopped := fun hw => ⟨rfl, (hs.stopped hw).2⟩, sender := fun _ => hidle }
  | @move w c hrequests hold hnew hsized hstopped =>
    -- the worker moves on: the requests and the answers that are left stay the same
    refine { hs with fifo := ?_, sends := ?_, sized := hsized hs.sized, stopped := hstopped }
    · show s.submitted = s.calls.flatMap (·.batch) ++ w.batch ++ c
      rw [List.append_assoc, hrequests, ← List.append_assoc]
      exact hs.fifo
    · show s.answered ++ w.left = _
      rw [hnew, ← hold]
      exact hs.sends
  | call hworker answer => exact inv_call hs answer hworker
  | @send sent left hworker =>
    have hfifo := hs.fifo
    have hsends := hs.sends
    have hsized := hs.sized
    rw [hworker] at hfifo hsends hsized
    refine { hs with
      fifo := hfifo, sends := ?_, sized := Nat.le_of_succ_le hsized, received := fun got hgot => ?_
      stopped := fun hw => by cases hw }
    · show s.answered ++ [sent] ++ left = _
      rw [List.append_assoc]
      exact hsends
    · obtain ⟨r, hr, howner⟩ := hs.received got hgot
      exact ⟨r, List.mem_append_left _ hr, howner⟩

theorem inv_initial : Inv {} where
  fifo := rfl
  sends := rfl
  whole call hcall := by cases hcall
  sized := trivial
  responders := rfl
  owners := List.Perm.refl []
  received got hgot := by cases hgot
  dropped := rfl
  refused := rfl
  stopped hw := by cases hw
  sender hclosed := by cases hclosed

/-- It holds in every run. -/
theorem inv_of_run {as : List Action} (hrun : run step {} as = some s) : Inv s :=
  invariant_of_step (P := fun _ _ => True)
    (fun _ _ _ hs _ hstep => inv_effect hs (step_effect hstep))
    inv_initial (along_trivial (fun _ _ => trivial) _ _) hrun

/-! ## Every request is answered -/

/-- The requests in the order of their submission: answered, about to be, in a batch, queued. -/
theorem Inv.order (hs : Inv s) : s.submitted = s.answered.map (·.1) ++ s.worker.left.map (·.1)
    ++ s.worker.batch ++ s.channel := by
  have hcalls : (s.calls.flatMap NativeBatchCall.ownAnswers).map (·.1)
      = s.calls.flatMap (·.batch) := by
    rw [List.map_flatMap]
    exact List.flatMap_congr fun call _ => ownAnswers_fst call
  rw [← List.map_append, hs.sends, hcalls]
  exact hs.fifo

/-- While a request is not answered the worker has a step to take. -/
theorem Inv.worker_enabled (hs : Inv s) (hmore : s.answered.length < s.submitted.length) :
    ∃ a : Action, a.isWorker = true ∧ (step s a).isSome = true := by
  have horder := congrArg List.length hs.order
  simp only [List.length_append, List.length_map] at horder
  cases hworker : s.worker with
  | receiving =>
    cases hchannel : s.channel with
    | nil =>
      simp only [hworker, hchannel, Worker.left, Worker.batch, List.length_nil] at horder
      omega
    | cons request rest => exact ⟨.recv, rfl, by simp [step, hworker, hchannel]⟩
  | gathering batch => exact ⟨.load true, rfl, by simp [step, hworker]⟩
  | awaiting batch => exact ⟨.timeout, rfl, by simp [step, hworker]⟩
  | calling batch => exact ⟨.call ⟨0, "", fun _ => ⟨0, 0, 0, 0, 0, 0, 0⟩⟩, rfl, by simp [step, hworker]⟩
  | answering left => cases left <;> exact ⟨.send, rfl, by simp [step, hworker]⟩
  | stopped =>
    have hchannel := (hs.stopped hworker).2
    simp only [hworker, hchannel, Worker.left, Worker.batch, List.length_nil] at horder
    omega

/-- How far the worker is in its round, in steps. -/
def Worker.work : Worker → Nat
  | .receiving => 1
  | .gathering batch => 2 * batch.length
  | .awaiting batch => 2 * batch.length + 1
  | .calling batch => 2 * batch.length + 2
  | .answering [] => 0
  | .answering (sent :: left) => 2 * (sent :: left).length + 3
  | .stopped => 2

/-- An answer pays for six steps of the worker. -/
def Pump.potential (s : Pump) : Nat := 6 * s.answered.length + s.worker.work

/-- The work that is left once there are answers. -/
theorem work_answering_le (left : List (QueuedFrameRequest × PumpAnswer)) :
    (Worker.answering left).work ≤ 2 * left.length + 3 := by
  cases left with
  | nil => exact Nat.zero_le _
  | cons sent left => exact le_rfl

/-- The work that is left in any state. -/
theorem Inv.work_le (hs : Inv s) : s.worker.work ≤ 19 := by
  have hsized := hs.sized
  cases hworker : s.worker with
  | receiving | stopped => decide
  | gathering batch | awaiting batch | calling batch =>
    rw [hworker] at hsized
    simp only [Worker.Sized, maxBatchSessions] at hsized
    simp only [Worker.work]
    omega
  | answering left =>
    rw [hworker] at hsized
    have hle := work_answering_le left
    simp only [Worker.Sized, maxBatchSessions] at hsized
    omega

/-- A step of the worker adds to the potential, and no other step takes from it. -/
theorem potential_step {a : Action} (hs : Inv s) (h : step s a = some s') :
    s.potential + (if a.isWorker then 1 else 0) ≤ s'.potential := by
  unfold Pump.potential
  cases a with
  | register => cases h; exact le_rfl
  | deregister =>
    simp only [step] at h
    split at h <;> cases h
    exact le_rfl
  | submit session trailingTextToken talkerSampling predictorSampling =>
    simp only [step] at h
    split at h <;> cases h
    rw [submit_worker, submit_answered]
    exact Nat.le_refl _
  | receive session =>
    obtain ⟨responder, -, h⟩ := Option.bind_eq_some_iff.mp h
    obtain ⟨answer, -, h⟩ := Option.bind_eq_some_iff.mp h
    cases h
    exact le_rfl
  | dropPump =>
    simp only [step] at h
    split at h <;> cases h
    exact le_rfl
  | recv =>
    simp only [step] at h
    split at h <;> cases h
    rename_i hworker hchannel
    simp only [hworker, Worker.work, Action.isWorker, if_true, List.length_cons, List.length_nil]
    omega
  | recvDisconnected =>
    simp only [step] at h
    split at h
    · rename_i hworker hchannel
      split at h <;> cases h
      simp only [hworker, Worker.work, Action.isWorker, if_true]
      omega
    · cases h
  | load late =>
    simp only [step] at h
    split at h
    · rename_i hworker
      split at h <;> cases h <;>
        simp only [hworker, Worker.work, Action.isWorker, if_true] <;> omega
    · cases h
  | push =>
    simp only [step] at h
    split at h <;> cases h
    rename_i hworker hchannel
    simp only [hworker, Worker.work, Action.isWorker, if_true, List.length_append,
      List.length_cons, List.length_nil]
    omega
  | timeout =>
    simp only [step] at h
    split at h <;> cases h
    rename_i hworker
    simp only [hworker, Worker.work, Action.isWorker, if_true]
    omega
  | disconnected =>
    simp only [step] at h
    split at h
    · rename_i hworker hchannel
      split at h <;> cases h
      simp only [hworker, Worker.work, Action.isWorker, if_true]
      omega
    · cases h
  | call answer =>
    simp only [step] at h
    split at h <;> cases h
    rename_i batch hworker
    have hsized := hs.sized
    rw [hworker] at hsized
    -- the worker gets one answer for each request of the batch
    have hlength : (runBatch batch answer).length = batch.length := by
      rw [runBatch_eq hsized.2, ownAnswers_length]
      rfl
    show 6 * s.answered.length + s.worker.work + 1
      ≤ 6 * s.answered.length + (Worker.answering (runBatch batch answer)).work
    cases hsends : runBatch batch answer with
    | nil =>
      rw [hsends, List.length_nil] at hlength
      exact absurd hsized.1 (by omega)
    | cons sent left =>
      rw [hsends] at hlength
      simp only [hworker, Worker.work]
      omega
  | send =>
    simp only [step] at h
    split at h <;> cases h
    · rename_i hworker
      simp only [hworker, Worker.work, Action.isWorker, if_true]
      omega
    · rename_i sent left hworker
      simp only [hworker, Action.isWorker, if_true, List.length_append,
        List.length_cons, List.length_nil]
      cases left <;> simp only [Worker.work, List.length_cons, List.length_nil] <;> omega

/-- Each step of the worker raises the potential. -/
theorem potential_run {as : List Action} (hs : Inv s) (hrun : run step s as = some s') :
    s.potential + as.countP (·.isWorker) ≤ s'.potential := by
  induction as generalizing s with
  | nil => cases hrun; exact le_rfl
  | cons a as ih =>
    obtain ⟨m, hm, hrest⟩ := run_cons.mp hrun
    have hstep := potential_step hs hm
    have htail := ih (inv_effect hs (step_effect hm)) hrest
    rw [List.countP_cons]
    omega

/-- What the pump owes the sessions, in one state of a run. -/
structure Served (s : Pump) : Prop where
  /-- A call is made for one to eight requests and hands over all of each. -/
  whole : ∀ call ∈ s.calls, call.Whole
  /-- A request is submitted once, and is in one call, in the batch or in the channel. -/
  submitted : s.submitted.Nodup
  fifo : s.submitted = s.calls.flatMap (·.batch) ++ s.worker.batch ++ s.channel
  /-- The answers, sent or about to be, are those of the calls: each member of a call has one, the
  one for its own position. -/
  answers : s.answered ++ s.worker.left = s.calls.flatMap NativeBatchCall.ownAnswers
  /-- A session gets the answer that was sent for its own request. -/
  received : ∀ got ∈ s.received, ∃ r, (r, got.2.2) ∈ s.answered ∧ r.session = got.1
    ∧ r.responder = got.2.1
  /-- A request is received for once or still waited for. -/
  owners : (s.submitted.map fun r => (r.session, r.responder)).Perm
    (s.received.map (fun got => (got.1, got.2.1)) ++ s.waiting)
  dropped : s.dropped = []
  refused : s.refused = []
  /-- While a request is not answered the worker has a step to take. -/
  enabled : s.answered.length < s.submitted.length →
    ∃ a : Action, a.isWorker = true ∧ (step s a).isSome = true

/-- **The pump answers every request exactly once, with its own view.** In every run the state
is `Served`, and the number of answers keeps up with the steps of the worker, so that a request,
which waits behind those submitted before it only, is answered after boundedly many of them. -/
theorem served_of_run {as : List Action} (hrun : run step {} as = some s) :
    Served s ∧ as.countP (·.isWorker) ≤ 6 * s.answered.length + 18 := by
  have hs := inv_of_run hrun
  constructor
  · exact {
      whole := hs.whole
      submitted := List.Nodup.of_map _ hs.responders_nodup
      fifo := hs.fifo
      answers := hs.sends
      received := hs.received
      owners := hs.owners
      dropped := hs.dropped
      refused := hs.refused
      enabled := hs.worker_enabled }
  · have hpotential := potential_run inv_initial hrun
    have hwork := hs.work_le
    have hinitial : Pump.potential {} = 1 := rfl
    unfold Pump.potential at hpotential hinitial
    omega

/-- The view that a native call leaves at a position. -/
def sampleView (position : Nat) : NativeDeviceFrameView where
  structSize := NativeDeviceFrameView.sizeOf
  codeCount := codebooks
  deviceCodes := 4096 + position
  readyEvent := 512 + position
  leaseId := position + 1
  deviceIndex := 0
  reserved := 0

def greedy : NativeSamplingConfig where
  doSample := 0
  topK := 1
  topP := 1
  temperature := 1
  repetitionPenalty := 1

/-- Two sessions that share a batch, the one that came first leaving the rendezvous on the way. -/
def sampleRun : List Action :=
  [.register, .register, .submit 40 7 greedy greedy, .recv, .submit 50 8 greedy greedy, .load false,
    .push, .deregister, .load false, .call ⟨0, "", sampleView⟩, .send, .receive 40, .send,
    .receive 50, .send]

theorem served_of_run_sample : ∃ s, run step {} sampleRun = some s ∧ Served s
    ∧ s.received = [(40, 0, .view (sampleView 0)), (50, 1, .view (sampleView 1))] := by
  have hrun : ∃ s, run step {} sampleRun = some s
      ∧ s.received = [(40, 0, .view (sampleView 0)), (50, 1, .view (sampleView 1))] := ⟨_, rfl, rfl⟩
  obtain ⟨s, hs, hreceived⟩ := hrun
  exact ⟨s, hs, (served_of_run hs).1, hreceived⟩

end Step

end Qwen3Tts.Talker.BatchPump
