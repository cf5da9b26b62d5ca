import Qwen3Tts.Runtime.Delivery
import Qwen3Tts.Runtime.Panic

/-!
# Runtime — what a backend session goes through

A session is obtained, stepped, possibly cancelled and dropped. The worker keeps no record of
this: whether a session may still be stepped follows from the place its request is in, and after
a step from the flags `remove_finished` reads (`excused`). The cleanup at the end of
`worker_loop` is the one place where a panicking session destructor is not caught, and the
sessions still in `active` are then dropped without `backend.cancel`.
-/

namespace Qwen3Tts.Runtime

open Qwen3Tts.Lib

/-! ## Statement -/

def stepCall : Event → Option Nat
  | .stepBatch call => some call
  | _ => none

/-- The calls of `step_batch` the session took part in. -/
def stepCalls (h : List Event) : List Nat := h.filterMap stepCall

/-- No step of the session has ended it and it was not cancelled. -/
def Running (h : List Event) : Prop :=
  (∀ outcome, .stepOutcome outcome ∈ h → outcome = .packet false) ∧ .backendCancel ∉ h

/-- The final packet was published, or the session was cancelled once. -/
def Closed (h : List Event) : Prop :=
  sawFinal (publishedOf h) = true ∨ h.count .backendCancel = 1

def SteppedRunning (h : List Event) : Prop :=
  Always (fun before e => ∀ call, e = .stepBatch call → Running before) h

def ClosedBeforeDrop (h : List Event) : Prop :=
  Always (fun before e => e = .sessionDropped → Closed before) h

/-- A cancellation that was requested is seen by `start_pending`. -/
def Answered (h : List Event) : Prop :=
  Always (fun before e => ∀ flag, e = .examined flag → .cancelRequested ∈ before →
    flag = true) h

/-- What happens to the session of one request. -/
structure SessionDiscipline (h : List Event) : Prop where
  single : h.count .sessionObtained ≤ 1
  steppedOnce : (stepCalls h).Nodup
  steppedRunning : SteppedRunning h
  cancelledOnce : h.count .backendCancel ≤ 1
  closedBeforeDrop : ClosedBeforeDrop h
  /-- `start_pending` examines a request before it goes to `start_batch`, and one that was
  cancelled by then never gets there. -/
  examined : .startBatch ∈ h → .examined false ∈ h
  refused : ∀ before after flag, h = before ++ .examined flag :: after →
    .cancelRequested ∈ before → .startBatch ∉ h

/-- The backend returns one result for each member of a batch. -/
def OneResultEach (s : Sys) (a : Action) : Prop :=
  match s.worker.control, a with
  | .startBatch ready, .worker (.startBatch (some results)) => results.length = ready.length
  | .stepBatch _ selected, .worker (.stepBatch _ (some results)) =>
    results.length = selected.length
  | _, _ => True

/-- The worker is dropping a session in the cleanup at the end of `worker_loop`. -/
def Control.droppingAtExit : Control → Bool
  | .retireActive .dropSession _ (.exitActive _) => true
  | _ => false

/-- Besides, no session destructor panics in the final cleanup. -/
def Disciplined (s : Sys) (a : Action) : Prop :=
  OneResultEach s a ∧ (s.worker.control.droppingAtExit = true → a.dropPanics = false)

instance : ∀ s a, Decidable (OneResultEach s a) := by
  intro s a
  unfold OneResultEach
  split <;> infer_instance

instance : ∀ s a, Decidable (Disciplined s a) :=
  fun _ _ => inferInstanceAs (Decidable (_ ∧ (_ → _)))

/-! ## Reading a history -/

section

variable {h h' events : List Event} {e : Event}

@[simp] theorem stepCalls_nil : stepCalls [] = [] := rfl

@[simp] theorem stepCalls_append : stepCalls (h ++ h') = stepCalls h ++ stepCalls h' :=
  List.filterMap_append

@[simp] theorem stepCalls_cons :
    stepCalls (e :: h) = (stepCall e).toList ++ stepCalls h := by
  unfold stepCalls
  cases he : stepCall e <;> simp [he]

@[simp] theorem stepCalls_startEvents {result : Except FailureCause BackendStarted} :
    stepCalls (Sys.startEvents result) = [] := by
  cases result <;> rfl

@[simp] theorem stepCalls_session {c : Prop} [Decidable c] :
    stepCalls (if c then [e] else []) = if c then stepCalls [e] else [] := by
  split <;> rfl

@[simp] theorem count_session {c : Prop} [Decidable c] {e' : Event} :
    (if c then [e] else []).count e' = if c then [e].count e' else 0 := by
  split <;> rfl

/-- A call is listed when the history steps the session in it. -/
theorem mem_stepCalls {call : Nat} : call ∈ stepCalls h ↔ .stepBatch call ∈ h := by
  unfold stepCalls
  rw [List.mem_filterMap]
  constructor
  · rintro ⟨e, he, hcall⟩
    cases e <;> cases hcall
    exact he
  · exact fun hmem => ⟨_, hmem, rfl⟩

@[simp] theorem steppedRunning_append (hquiet : ∀ call, .stepBatch call ∉ events) :
    SteppedRunning (h ++ events) ↔ SteppedRunning h := by
  refine always_append fun e he before call hcall => ?_
  subst hcall
  exact absurd he (hquiet call)

@[simp] theorem steppedRunning_concat : SteppedRunning (h ++ [e]) ↔
    SteppedRunning h ∧ ∀ call, e = .stepBatch call → Running h :=
  always_concat

@[simp] theorem closedBeforeDrop_append (hquiet : .sessionDropped ∉ events) :
    ClosedBeforeDrop (h ++ events) ↔ ClosedBeforeDrop h := by
  refine always_append fun e he before hdrop => ?_
  subst hdrop
  exact absurd he hquiet

@[simp] theorem closedBeforeDrop_concat : ClosedBeforeDrop (h ++ [e]) ↔
    ClosedBeforeDrop h ∧ (e = .sessionDropped → Closed h) :=
  always_concat

@[simp] theorem answered_append (hquiet : ∀ flag, .examined flag ∉ events) :
    Answered (h ++ events) ↔ Answered h := by
  refine always_append fun e he before flag hflag => ?_
  subst hflag
  exact absurd he (hquiet flag)

@[simp] theorem answered_concat : Answered (h ++ [e]) ↔
    Answered h ∧ ∀ flag, e = .examined flag → .cancelRequested ∈ h → flag = true :=
  always_concat

end

attribute [local simp] stepCall

/-! ## Invariant -/

/-- The request has not been handed to `start_batch`. -/
@[simp] def isUnsubmitted : Option Stage → Bool
  | some (.waiting _) | some (.ready _) | some (.prefilling _) => true
  | _ => false

/-- `start_pending` has let the request pass. -/
@[simp] def isExamined : Option Stage → Bool
  | some (.ready _) | some (.prefilling _) => true
  | _ => false

/-- `backend.cancel` has not been called for the request. -/
@[simp] def isUncancelled : Option Stage → Bool
  | some (.retiringActive (.cancelBackend _) _) => true
  | some (.retiringActive _ _) | some (.unwound _) | none => false
  | _ => true

/-- `backend.cancel` has been called just now. -/
@[simp] def isCancelled : Option Stage → Bool
  | some (.retiringActive (.mark _) _) => true
  | _ => false

/-- The session is dropped next. -/
@[simp] def isDropping : Option Stage → Bool
  | some (.retiringActive .dropSession _) => true
  | _ => false

/-- How the request can be in its place although its session ended with the outcome; `isOver` is
the test of `remove_finished`. -/
@[simp] def excused (isOver : Bool) (outcome : StepOutcome) : Option Stage → Prop
  | some (.waiting _) | some (.ready _) | some (.prefilling _) | some (.outcome _ _)
  | some (.snapshot _) | some (.active _) | some (.eligible _) | some (.poolEmpty _)
  | some (.selected _ _) => False
  | some (.stepped _ _ result) => outcome = Sys.outcomeOf result
  | some (.settling _ (.push packet _)) => packet.ends = true
  | some (.settled _) => isOver = true
  | _ => True

/-- The test of `remove_finished`. -/
@[simp] def RequestState.isOver (state : RequestState) : Bool :=
  state.producerFinished || (state.failure.isSome || state.cancelRequested)

theorem excused_over {isOver : Bool} {outcome : StepOutcome} {v : Option Stage}
    (h : excused isOver outcome v) : excused true outcome v := by
  unfold excused at h ⊢
  split
  all_goals first | rfl | exact h | trivial

structure Sessions (env : Env) (l : Local) : Prop where
  single : l.request.history.count .sessionObtained ≤ 1
  unobtained : isUnsubmitted l.stage = true → l.request.history.count .sessionObtained = 0
  called : ∀ call, .stepBatch call ∈ l.request.history → call < env.batches
  steppedOnce : (stepCalls l.request.history).Nodup
  steppedRunning : SteppedRunning l.request.history
  outcomes : ∀ outcome, .stepOutcome outcome ∈ l.request.history →
    outcome = .packet false ∨ excused l.request.state.isOver outcome l.stage
  uncancelled : isUncancelled l.stage = true → l.request.history.count .backendCancel = 0
  cancelledOnce : l.request.history.count .backendCancel ≤ 1
  cancelled : isCancelled l.stage = true → l.request.history.count .backendCancel = 1
  dropping : isDropping l.stage = true → Closed l.request.history
  closedBeforeDrop : ClosedBeforeDrop l.request.history
  flagged : .cancelRequested ∈ l.request.history → l.request.state.cancelRequested = true
  unstarted : isUnsubmitted l.stage = true →
    .examined true ∉ l.request.history ∧ .startBatch ∉ l.request.history
  passed : isExamined l.stage = true → .examined false ∈ l.request.history
  examined : .startBatch ∈ l.request.history → .examined false ∈ l.request.history
  refused : .examined true ∈ l.request.history → .startBatch ∉ l.request.history
  answered : Answered l.request.history

section

variable {env : Env} {calls : Nat} {label : Label} {l l' : Local}

/-- A session is obtained at most once, and not before the request is submitted. -/
theorem Sessions.step_single (hl : Sessions env l) (h : LocalStep env calls label l l') :
    l'.request.history.count .sessionObtained ≤ 1 ∧ (isUnsubmitted l'.stage = true →
      l'.request.history.count .sessionObtained = 0) := by
  have hsingle := hl.single
  have hunobtained := hl.unobtained
  cases h
  case startBatch result _ =>
    cases result <;> simp_all [Sys.startEvents]
  all_goals simp_all

/-- Every call the session took part in has been made. -/
theorem Sessions.step_called (hcalls : env.batches ≤ calls) (hl : Sessions env l)
    (h : LocalStep env calls label l l') :
    ∀ call, .stepBatch call ∈ l'.request.history → call < calls := by
  have hcalled : ∀ call, .stepBatch call ∈ l.request.history → call < calls :=
    fun call hmem => (hl.called call hmem).trans_le hcalls
  cases h
  case stepBatch hnew _ =>
    intro call hmem
    rcases (by simpa using hmem : Event.stepBatch call ∈ _ ∨ call = env.batches) with hold | rfl
    · exact hcalled call hold
    · exact hnew
  all_goals simp_all

/-- The calls are numbered, and a new one is numbered after all earlier ones. -/
theorem Sessions.step_steppedOnce (hl : Sessions env l) (h : LocalStep env calls label l l') :
    (stepCalls l'.request.history).Nodup := by
  have honce := hl.steppedOnce
  cases h
  case stepBatch r a entry write result _ _ =>
    have hnew : env.batches ∉ stepCalls r.history :=
      fun hmem => (hl.called _ (mem_stepCalls.mp hmem)).false
    simpa using List.Nodup.append honce (List.nodup_singleton _) (by simpa using hnew)
  all_goals simp_all

/-- Every outcome is a packet with more to follow, or it is excused. -/
theorem Sessions.step_outcomes (hl : Sessions env l) (hlife : Lifecycle l)
    (h : LocalStep env calls label l l') : ∀ outcome, .stepOutcome outcome ∈ l'.request.history →
      outcome = .packet false ∨ excused l'.request.state.isOver outcome l'.stage := by
  intro outcome hmem
  have houtcome := hl.outcomes outcome
  have hproducing := hlife.producing
  -- the outcome is old, or the step publishes or records one
  cases h
  case settleAccepted packet owned record stepMicroseconds haccept =>
    rcases houtcome hmem with hfalse | hlast
    · exact .inl hfalse
    · obtain rfl : outcome = .packet packet.isFinal := hlast
      cases hfinal : packet.isFinal with
      | false => exact .inl rfl
      | true =>
        refine .inr ?_
        rw [excused, (ActiveRequest.accept_ok haccept).owned_eq]
        simp [OwnedAudioPacket.ends, ActiveRequest.descriptor, hfinal]
  case publish => simp_all [OwnedAudioPacket.ends]
  case cancelMark =>
    have hold := (houtcome (by simpa using hmem)).imp_right excused_over
    simpa using hold
  case stepBatch =>
    rcases (by simpa using hmem : Event.stepOutcome outcome ∈ _ ∨ outcome = _) with hold | hnew
    · exact .inl ((houtcome hold).resolve_right id)
    · exact .inr hnew
  all_goals first | exact houtcome hmem | simp_all

/-- A session is only stepped while it runs. -/
theorem Sessions.step_steppedRunning (hl : Sessions env l) (h : LocalStep env calls label l l') :
    SteppedRunning l'.request.history := by
  have hstepped := hl.steppedRunning
  cases h
  case stepBatch r a entry write result _ _ =>
    have hrunning : Running r.history := by
      refine ⟨fun outcome hmem => ?_, List.count_eq_zero.mp (hl.uncancelled rfl)⟩
      exact (hl.outcomes outcome hmem).resolve_right id
    rw [Request.emitAll_history, List.append_cons, steppedRunning_concat, steppedRunning_concat]
    exact ⟨⟨hstepped, fun _ _ => hrunning⟩, by simp⟩
  case enter => exact (steppedRunning_append (h := []) (by simp)).mpr hstepped
  all_goals simp_all

/-- Up to the step that calls it, the history holds no call of `backend.cancel`. -/
theorem Sessions.step_uncancelled (hl : Sessions env l) (h : LocalStep env calls label l l') :
    isUncancelled l'.stage = true → l'.request.history.count .backendCancel = 0 := by
  have huncancelled := hl.uncancelled
  cases h
  case startBatch result _ => cases result <;> simp_all [Sys.startEvents]
  all_goals simp_all

/-- `backend.cancel` is called once, on the way to `mark` and `dropSession`. -/
theorem Sessions.step_cancelled (hl : Sessions env l) (hlife : Lifecycle l)
    (h : LocalStep env calls label l l') : l'.request.history.count .backendCancel ≤ 1 ∧
      (isCancelled l'.stage = true → l'.request.history.count .backendCancel = 1) := by
  have huncancelled := hl.uncancelled
  have honce := hl.cancelledOnce
  have hcancelled := hl.cancelled
  have hsession := hlife.session
  cases h
  case startBatch result _ => cases result <;> simp_all [Sys.startEvents]
  all_goals simp_all

/-- Events other than a cancel do not reopen what is closed. -/
theorem Closed.append {h events : List Event} (hclosed : Closed h)
    (hquiet : .backendCancel ∉ events) : Closed (h ++ events) := by
  rcases hclosed with hfinal | hcount
  · refine .inl ?_
    rw [publishedOf_append, sawFinal_append, hfinal, Bool.true_or]
  · refine .inr ?_
    rw [List.count_append, hcount, List.count_eq_zero.mpr hquiet]

/-- A request is closed when its session is about to be dropped. -/
theorem Sessions.step_dropping (hl : Sessions env l) (hlife : Lifecycle l) (hqueue : Queue l)
    (h : LocalStep env calls label l l') :
    isDropping l'.stage = true → Closed l'.request.history := by
  have hcancelled := hl.cancelled
  have hdropping := hl.dropping
  have huncancelled := hl.uncancelled
  have hsession := hlife.session
  have hending := hqueue.ending
  -- the steps that reach the drop of a session come from a final packet or from a cancel
  cases h
  case finish r a hproducer hfailure hcancel =>
    intro _
    obtain ⟨last, hlast, hends, -⟩ := endReason_eq_some (hending hproducer hcancel hfailure)
    exact .inl (List.any_eq_true.mpr ⟨last, List.mem_of_getLast? hlast, hends⟩)
  case cancelBackend =>
    intro _
    refine .inr ?_
    simp_all
  case cancelledActive =>
    intro _
    exact .inr (hcancelled rfl)
  case failedActive r a cause =>
    intro _
    have hclosed : Closed r.history := .inr (hcancelled rfl)
    exact hclosed.append (by simp)
  case publish => simp_all
  all_goals first
    | exact hdropping
    | exact fun hd => (hdropping hd).append (by simp)
    | simp_all

/-- Unless the worker unwinds, a session is closed before it is dropped. -/
theorem Sessions.step_closedBeforeDrop (hl : Sessions env l) (hok : label ≠ .unwind)
    (h : LocalStep env calls label l l') : ClosedBeforeDrop l'.request.history := by
  have hclosed := hl.closedBeforeDrop
  cases h
  case enter => exact (closedBeforeDrop_append (h := []) (by simp)).mpr hclosed
  case dropSession r a unwinding =>
    rw [Request.emitSession_history]
    split
    · exact closedBeforeDrop_concat.mpr ⟨hclosed, fun _ => hl.dropping rfl⟩
    · rwa [List.append_nil]
  case unwindSession => exact absurd rfl hok
  all_goals simp_all

/-- A request that was asked to stop has its flag set. -/
theorem Sessions.step_flagged (hl : Sessions env l) (h : LocalStep env calls label l l') :
    .cancelRequested ∈ l'.request.history → l'.request.state.cancelRequested = true := by
  have hflagged := hl.flagged
  cases h
  all_goals simp_all

/-- Before its submission a request was neither found cancelled nor given to the backend. -/
theorem Sessions.step_unstarted (hl : Sessions env l) (h : LocalStep env calls label l l') :
    isUnsubmitted l'.stage = true →
      .examined true ∉ l'.request.history ∧ .startBatch ∉ l'.request.history := by
  have hunstarted := hl.unstarted
  cases h
  all_goals simp_all

/-- A request past the examination was found not cancelled. -/
theorem Sessions.step_passed (hl : Sessions env l) (h : LocalStep env calls label l l') :
    isExamined l'.stage = true → .examined false ∈ l'.request.history := by
  have hpassed := hl.passed
  cases h
  all_goals simp_all

/-- Only a request that was found not cancelled is started. -/
theorem Sessions.step_examined (hl : Sessions env l) (h : LocalStep env calls label l l') :
    .startBatch ∈ l'.request.history → .examined false ∈ l'.request.history := by
  have hexamined := hl.examined
  have hpassed := hl.passed
  cases h
  all_goals simp_all

/-- A request that was found cancelled is never started. -/
theorem Sessions.step_refused (hl : Sessions env l) (h : LocalStep env calls label l l') :
    .examined true ∈ l'.request.history → .startBatch ∉ l'.request.history := by
  have hrefused := hl.refused
  have hunstarted := hl.unstarted
  cases h
  all_goals simp_all

/-- What `start_pending` reads is the flag. -/
theorem Sessions.step_answered (hl : Sessions env l) (h : LocalStep env calls label l l') :
    Answered l'.request.history := by
  have hanswered := hl.answered
  have hflagged := hl.flagged
  cases h
  case enter => exact (answered_append (h := []) (by simp)).mpr hanswered
  all_goals simp_all

/-- The invariant holds along every run in which the worker does not unwind. -/
theorem sessions_inductive : Inductive (fun label _ => label ≠ .unwind) fun env l =>
    (Lifecycle l ∧ Queue l) ∧ Sessions env l := by
  refine (queue_inductive.restrict fun _ _ _ => trivial).and (fun _ _ => ?_) (fun hlater hl => ?_)
    fun hcalls hok h hold hl => {
      single := (hl.step_single h).1
      unobtained := (hl.step_single h).2
      called := hl.step_called hcalls h
      steppedOnce := hl.step_steppedOnce h
      steppedRunning := hl.step_steppedRunning h
      outcomes := hl.step_outcomes hold.1 h
      uncancelled := hl.step_uncancelled h
      cancelledOnce := (hl.step_cancelled hold.1 h).1
      cancelled := (hl.step_cancelled hold.1 h).2
      dropping := hl.step_dropping hold.1 hold.2 h
      closedBeforeDrop := hl.step_closedBeforeDrop hok h
      flagged := hl.step_flagged h
      unstarted := hl.step_unstarted h
      passed := hl.step_passed h
      examined := hl.step_examined h
      refused := hl.step_refused h
      answered := hl.step_answered h }
  · constructor
    case steppedRunning | closedBeforeDrop | answered => exact always_nil
    all_goals simp
  · exact { hl with called := fun call hmem => (hl.called call hmem).trans_le hlater.batches }

end

/-! ## The contract of a session -/

/-- What the invariant says about the history alone. -/
theorem Sessions.discipline {env : Env} {l : Local} (hl : Sessions env l) :
    SessionDiscipline l.request.history where
  single := hl.single
  steppedOnce := hl.steppedOnce
  steppedRunning := hl.steppedRunning
  cancelledOnce := hl.cancelledOnce
  closedBeforeDrop := hl.closedBeforeDrop
  examined := hl.examined
  refused := by
    rintro before after flag heq hcancelled
    obtain rfl : flag = true := hl.answered before _ after heq flag rfl hcancelled
    exact hl.refused (by rw [heq]; simp)

/-- **Session discipline** in every run of a backend that returns one result for each member of a
batch, if no session destructor panics in the final cleanup. -/
theorem sessions_disciplined {config : EngineConfig} {actions : List Action} {s : Sys}
    (hok : Along Sys.step Disciplined (.init config) actions)
    (hrun : run Sys.step (.init config) actions = some s) (id : Nat) :
    SessionDiscipline (s.requests id).history := by
  -- no destructor panics, so the worker never unwinds
  have hkeep : ∀ s a s', s.worker.control.unwinding = false → Disciplined s a →
      s.step a = some s' → s'.worker.control.unwinding = false := by
    intro s a s' hcalm hok hstep
    by_cases hworker : ∃ choice, a = .worker choice
    · obtain ⟨choice, rfl⟩ := hworker
      cases hflag : s'.worker.control.unwinding with
      | false => rfl
      | true =>
        rcases (panic_origin hstep).unwinding hflag with hu | ⟨rfl, r, panicked, hcontrol⟩
        · rw [hcalm] at hu
          cases hu
        · have hdrop := hok.2 (by rw [hcontrol]; rfl)
          cases hdrop
    · rw [Sys.step_client (fun choice hc => hworker ⟨choice, hc⟩) hstep]
      exact hcalm
  -- and no request is moved by an unwinding step
  have hlabel : ∀ s a, s.worker.control.unwinding = false → Disciplined s a → ∀ id label,
      Origin s a id label → label ≠ .unwind := by
    rintro s a hcalm - id label horigin rfl
    have hu : s.worker.control.unwinding = true := horigin
    rw [hcalm] at hu
    cases hu
  have hall := sessions_inductive.along Disciplined
    (fun s => s.worker.control.unwinding = false) rfl hkeep hlabel hok hrun
  exact (hall.2.2 id).2.discipline

set_option maxRecDepth 20000 in
/-- The session of a completed stream. -/
theorem sessions_disciplined_completed :
    ∃ s, run Sys.step (.init smallConfig) runToEnd = some s ∧
      .sessionDropped ∈ (s.requests 1).history ∧ SessionDiscipline (s.requests 1).history := by
  have hdone : (run Sys.step (.init smallConfig) runToEnd).map
      (fun s => (s.requests 1).history.contains .sessionDropped) = some true := by
    decide
  have hok : Along Sys.step Disciplined (.init smallConfig) runToEnd := by
    decide
  obtain ⟨s, hrun, hdropped⟩ := Option.map_eq_some_iff.mp hdone
  exact ⟨s, hrun, by simpa using hdropped, sessions_disciplined hok hrun 1⟩

/-! ## Dropped without a cancel -/

/-- Two requests are generating when the scheduler is dropped; the destructor of the first session
panics in the cleanup. -/
def runToExitPanic : List Action :=
  [.start ⟨"a", ""⟩ .default, .sendStart 1, .start ⟨"b", ""⟩ .default, .sendStart 2]
    ++ Action.workerRuns 12 ++ [.worker (.startBatch (some [.ok ⟨0, 0, 0⟩, .ok ⟨0, 0, 0⟩]))]
    ++ Action.workerRuns 16
    ++ [stepReturns (some (List.replicate 2
        (.ok { finalPacket with isFinal := false, finishReason := .none }))), .dropScheduler]
    ++ Action.workerRuns 12 ++ [.worker .dropPanics] ++ Action.workerRuns 3

def pairConfig : EngineConfig := { smallConfig with maxConcurrentRequests := 2 }

set_option maxRecDepth 20000 in
/-- The second session is dropped and was never cancelled, and the backend returned one result
for each member of every batch. -/
theorem sessions_not_disciplined : Along Sys.step OneResultEach (.init pairConfig) runToExitPanic ∧
    ∃ s, run Sys.step (.init pairConfig) runToExitPanic = some s ∧
      ¬ SessionDiscipline (s.requests 2).history := by
  have hdropped : (run Sys.step (.init pairConfig) runToExitPanic).map (fun s =>
      ((s.requests 2).history.drop 7, sawFinal (publishedOf ((s.requests 2).history.take 7)),
        ((s.requests 2).history.take 7).count .backendCancel)) =
      some ([.sessionDropped, .released], false, 0) := by
    decide
  have hresults : Along Sys.step OneResultEach (.init pairConfig) runToExitPanic := by
    decide
  refine ⟨hresults, ?_⟩
  obtain ⟨s, hrun, hhistory⟩ := Option.map_eq_some_iff.mp hdropped
  simp only [Prod.mk.injEq] at hhistory
  obtain ⟨hlast, hfinal, hcancel⟩ := hhistory
  refine ⟨s, hrun, fun hdiscipline => ?_⟩
  -- the last session event is a drop with neither a final packet nor a cancel before it
  have hsplit := (List.take_append_drop 7 (s.requests 2).history).symm
  rw [hlast] at hsplit
  rcases hdiscipline.closedBeforeDrop _ _ _ hsplit rfl with h | h
  · rw [hfinal] at h
    cases h
  · rw [hcancel] at h
    cases h

end Qwen3Tts.Runtime
