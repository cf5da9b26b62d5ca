import Qwen3Tts.Lib.History
import Qwen3Tts.Runtime.Panic

/-!
# Runtime — terminal answers of `poll`

`poll` answers `Cancelled`, `Failed` or `EndOfStream` from the flags of a request, and the worker
may still write these flags after the client was answered. This module settles which of the
three answers can be taken back. `Failed` and `EndOfStream` never are while no destructor
panics. `Cancelled` is taken back in one way only: a `mark_failed` that lands on a request whose
cancellation was already requested. `push_packet` checks the flag in that position, the error
arms of `step_eligible` and `start_pending` do not.
-/

namespace Qwen3Tts.Runtime

open Qwen3Tts.Lib

/-! ## Statement -/

/-- After a terminal answer `poll` only repeats it. -/
def StableAnswers (h : List Event) : Prop :=
  Always (fun before e => ∀ answer, e = .polled answer → ∀ earlier : PollAnswer,
    earlier.isTerminal = true → .polled earlier ∈ before → answer = earlier) h

@[simp] theorem stableAnswers_append {h events : List Event}
    (hquiet : ∀ answer, .polled answer ∉ events) :
    StableAnswers (h ++ events) ↔ StableAnswers h := by
  refine always_append fun e he before answer hanswer => ?_
  subst hanswer
  exact absurd he (hquiet answer)

@[simp] theorem stableAnswers_concat {h : List Event} {answer : PollAnswer} :
    StableAnswers (h ++ [.polled answer]) ↔ StableAnswers h ∧ ∀ earlier : PollAnswer,
      earlier.isTerminal = true → .polled earlier ∈ h → answer = earlier := by
  refine always_concat.trans (and_congr_right fun _ => ?_)
  constructor
  · exact fun hall => hall answer rfl
  · rintro hall _ ⟨⟩
    exact hall

/-- The step does not fail a request whose cancellation was requested, and no session
destructor panics in it. -/
def SparesCancelled (s : Sys) (a : Action) : Prop :=
  a.dropPanics = false ∧ (a.isWorker = true → ∀ id ∈ s.worker.control.failing,
    (s.shared id).isCancelRequested = false)

instance : ∀ s a, Decidable (SparesCancelled s a) :=
  fun _ _ => inferInstanceAs (Decidable (_ ∧ (_ → _)))

/-! ## Sealed answers

A terminal answer is sealed when the flags of the request determine it: `poll` can give no other
answer, and no allowed step of any thread changes the flags again. -/

def Sealed (state : RequestState) : PollAnswer → Prop
  | .failed error => state.failure = some error
  | .cancelled => state.failure = none ∧ state.cancelRequested = true
  | .endOfStream reason => state.failure = none ∧ state.cancelRequested = false ∧
      state.packets = [] ∧ state.producerFinished = true ∧ state.finishReason = reason ∧
      state.phase = .completed
  | _ => False

/-- The cleanup after a panicking destructor has reached the request. -/
@[simp] def isPanicked : Option Stage → Bool
  | some (.exiting true _) | some (.unwound _)
  | some (.retiringActive (.cancelBackend (some (.failed _))) _)
  | some (.retiringActive (.mark (.failed _)) _) => true
  | _ => false

def sparingLabel (label : Label) (l : Local) : Prop :=
  label ≠ .panic ∧ label ≠ .unwind ∧
    (label = .fail → l.request.state.cancelRequested = false)

section

variable {env : Env} {calls : Nat} {label : Label} {l l' : Local}

/-- A step that spares the worker does not panic. -/
theorem calm_localStep (hcalm : isPanicked l.stage = false) (hok : sparingLabel label l)
    (h : LocalStep env calls label l l') : isPanicked l'.stage = false := by
  cases h
  all_goals simp_all [sparingLabel]

/-- A request fails at most once. -/
theorem Sealed.failed_step {error : BackendError} (hlife : Lifecycle l)
    (hcalm : isPanicked l.stage = false) (h : LocalStep env calls label l l')
    (hl : Sealed l.request.state (.failed error)) : Sealed l'.request.state (.failed error) := by
  have hfresh := hlife.fresh
  have hproducing := hlife.producing
  have hsession := hlife.session
  have hnonempty := hlife.nonempty
  cases h
  all_goals simp_all [Sealed]

/-- A requested cancellation stays, and only a failure is stronger. -/
theorem Sealed.cancelled_step (hlife : Lifecycle l) (hcalm : isPanicked l.stage = false)
    (hok : sparingLabel label l) (h : LocalStep env calls label l l')
    (hl : Sealed l.request.state .cancelled) : Sealed l'.request.state .cancelled := by
  have hsession := hlife.session
  have hnonempty := hlife.nonempty
  cases h
  all_goals simp_all [Sealed, sparingLabel]

/-- A request that completed is past every step that writes its flags. -/
theorem Sealed.ended_step {reason : FinishReason} (hlife : Lifecycle l)
    (hcalm : isPanicked l.stage = false) (h : LocalStep env calls label l l')
    (hl : Sealed l.request.state (.endOfStream reason)) :
    Sealed l'.request.state (.endOfStream reason) := by
  have hfresh := hlife.fresh
  have hproducing := hlife.producing
  have hsession := hlife.session
  have hnonempty := hlife.nonempty
  cases h
  all_goals simp_all [Sealed, RequestPhase.isTerminal]

/-- A sealed answer stays. -/
theorem Sealed.step {answer : PollAnswer} (hlife : Lifecycle l)
    (hcalm : isPanicked l.stage = false) (hok : sparingLabel label l)
    (h : LocalStep env calls label l l') (hl : Sealed l.request.state answer) :
    Sealed l'.request.state answer := by
  cases answer with
  | failed error => exact hl.failed_step hlife hcalm h
  | cancelled => exact hl.cancelled_step hlife hcalm hok h
  | endOfStream reason => exact hl.ended_step hlife hcalm h
  | _ => exact hl.elim

/-- What one step adds to the answers: nothing, or one answer, which is the sealed one if there
is a sealed one, and which is sealed if it is terminal. -/
inductive Polled (l l' : Local) : Prop
  | quiet (events : List Event) (hhistory : l'.request.history = l.request.history ++ events)
      (hnone : ∀ answer, .polled answer ∉ events)
  | answered (answer : PollAnswer)
      (hhistory : l'.request.history = l.request.history ++ [.polled answer])
      (hsealed : answer.isTerminal = true → Sealed l'.request.state answer)
      (hsame : ∀ earlier, Sealed l.request.state earlier → answer = earlier)

/-- What a step may poll. -/
theorem LocalStep.polled (hlife : Lifecycle l) (h : LocalStep env calls label l l') :
    Polled l l' := by
  cases h
  case pollFailed error hfailure =>
    refine .answered (.failed error) rfl (fun _ => hfailure) fun earlier hearlier => ?_
    cases earlier <;> simp_all [Sealed]
  case pollCancelled hfailure hcancel =>
    have hflag := hcancel.elim id hlife.cancelled
    refine .answered .cancelled rfl (fun _ => ⟨hfailure, hflag⟩) fun earlier hearlier => ?_
    cases earlier <;> simp_all [Sealed]
  case pollPacket packet rest hfailure hcancel hpackets =>
    refine .answered (.packet packet) rfl nofun fun earlier hearlier => ?_
    cases earlier <;> simp_all [Sealed]
  case pollEnd r v hfailure hcancel hpackets hproducer =>
    refine .answered (.endOfStream r.state.finishReason) rfl
      (fun _ => ⟨hfailure, hcancel, hpackets, hproducer, rfl, rfl⟩) fun earlier hearlier => ?_
    cases earlier <;> simp_all [Sealed]
  case pollBlocked hfailure hcancel hpackets hproducer =>
    refine .answered .wouldBlock rfl nofun fun earlier hearlier => ?_
    cases earlier <;> simp_all [Sealed]
  case enter generation _ _ _ => exact .quiet [.admitted generation] rfl (by simp)
  case startBatch result _ => exact .quiet (Sys.startEvents result) rfl (by simp)
  case stepBatch result _ _ =>
    exact .quiet [.stepBatch env.batches, .stepOutcome (Sys.outcomeOf result)] rfl (by simp)
  case unwindSession | cancelBackend | cancelBackendCancelled | cancelBackendFailed | dropSession =>
    refine .quiet _ Request.emitSession_history ?_
    simp
  case dropPacket => exact .quiet [] (by simp) (by simp)
  all_goals first
    | exact .quiet [] (List.append_nil _).symm (by simp)
    | exact .quiet [_] rfl (by simp)

end

/-! ## Invariant -/

structure Answers (l : Local) : Prop where
  calm : isPanicked l.stage = false
  answered : ∀ answer : PollAnswer, answer.isTerminal = true →
    .polled answer ∈ l.request.history → Sealed l.request.state answer
  stable : StableAnswers l.request.history

/-- A step keeps the invariant. -/
theorem Answers.step {env : Env} {calls : Nat} {label : Label} {l l' : Local} (hl : Answers l)
    (hlife : Lifecycle l) (hok : sparingLabel label l) (h : LocalStep env calls label l l') :
    Answers l' := by
  have hkeep := fun answer hterminal hmem =>
    (hl.answered answer hterminal hmem).step hlife hl.calm hok h
  refine ⟨calm_localStep hl.calm hok h, ?_, ?_⟩
  · intro answer hterminal hmem
    cases h.polled hlife with
    | quiet events hhistory hnone =>
      rw [hhistory, List.mem_append] at hmem
      exact hkeep answer hterminal (hmem.resolve_right (hnone answer))
    | answered new hhistory hsealed hsame =>
      rw [hhistory, List.mem_append, List.mem_singleton] at hmem
      rcases hmem with hold | hnew
      · exact hkeep answer hterminal hold
      · cases hnew
        exact hsealed hterminal
  · cases h.polled hlife with
    | quiet events hhistory hnone =>
      rw [hhistory, stableAnswers_append hnone]
      exact hl.stable
    | answered new hhistory hsealed hsame =>
      rw [hhistory, stableAnswers_concat]
      exact ⟨hl.stable, fun earlier hterminal hmem => hsame _ (hl.answered _ hterminal hmem)⟩

/-- It holds along every run that spares the worker. -/
theorem answers_inductive : Inductive sparingLabel fun _ l => Lifecycle l ∧ Answers l := by
  refine (lifecycle_inductive.restrict fun _ _ _ => trivial).and (fun _ _ => ?_) (fun _ h => h)
    fun _ hok h hlife hl => hl.step hlife hok h
  refine ⟨rfl, fun answer _ hmem => ?_, always_nil⟩
  cases hmem

/-- **Terminal answers are stable** in every run that fails no request whose cancellation was
requested. -/
theorem answers_stable {config : EngineConfig} {actions : List Action} {s : Sys}
    (hspares : Along Sys.step SparesCancelled (.init config) actions)
    (hrun : run Sys.step (.init config) actions = some s) (id : Nat) :
    StableAnswers (s.requests id).history := by
  have hkeep : ∀ s a s', s.worker.control.panicked = false → SparesCancelled s a →
      s.step a = some s' → s'.worker.control.panicked = false :=
    fun s a s' hcalm hok hstep => calm_step hcalm hok.1 hstep
  have hlabel : ∀ s a, s.worker.control.panicked = false → SparesCancelled s a → ∀ id label,
      Origin s a id label → sparingLabel label (s.localOf id) := by
    rintro s a hcalm ⟨hdrop, hspare⟩ id label horigin
    refine ⟨?_, ?_, ?_⟩
    · rintro rfl
      rcases horigin with hp | rfl
      · rw [hcalm] at hp
        cases hp
      · cases hdrop
    · rintro rfl
      have hp := Control.panicked_of_unwinding horigin
      rw [hcalm] at hp
      cases hp
    · rintro rfl
      exact hspare horigin.1 id horigin.2
  have hall := answers_inductive.along SparesCancelled
    (fun s => s.worker.control.panicked = false) rfl hkeep hlabel hspares hrun
  exact (hall.2.2 id).2.stable

set_option maxRecDepth 20000 in
/-- A client that polls past the end of a completed stream. -/
theorem answers_stable_completed :
    ∃ s, run Sys.step (.init smallConfig) (runToEnd ++ [.poll 1]) = some s ∧
      (s.requests 1).history.getLast? = some (.polled (.endOfStream .codecEos)) ∧
      StableAnswers (s.requests 1).history := by
  have hdone : (run Sys.step (.init smallConfig) (runToEnd ++ [.poll 1])).map
      (fun s => (s.requests 1).history.getLast?) =
        some (some (.polled (.endOfStream .codecEos))) := by
    decide
  have hspares : Along Sys.step SparesCancelled (.init smallConfig) (runToEnd ++ [.poll 1]) := by
    decide
  obtain ⟨s, hrun, hlast⟩ := Option.map_eq_some_iff.mp hdone
  exact ⟨s, hrun, hlast, answers_stable hspares hrun 1⟩

/-! ## `Cancelled` taken back -/

/-- `cancel` and `poll` come while `step_batch` runs for the request, which then fails. -/
def runToLateFailure : List Action :=
  runToStep 2 ++ [.cancelSwap 1, .cancelMark 1, .poll 1,
    stepReturns (some [.error ⟨.cuda, "step failed"⟩])] ++ Action.workerRuns 3 ++ [.poll 1]

set_option maxRecDepth 20000 in
/-- The client sees `Cancelled` and then, after the step in flight failed, `Failed`. -/
theorem answers_not_stable : (∀ a ∈ runToLateFailure, a.dropPanics = false) ∧
    ∃ s, run Sys.step (.init smallConfig) runToLateFailure = some s ∧
      ¬ StableAnswers (s.requests 1).history := by
  have hlate : (run Sys.step (.init smallConfig) runToLateFailure).map
      (fun s => (s.requests 1).history.drop 4) = some [.cancelRequested, .polled .cancelled,
        .stepBatch 0, .stepOutcome .error, .markedFailed (.stepError ⟨.cuda, "step failed"⟩),
        .polled (.failed ⟨.cuda, "step failed"⟩)] := by
    decide
  refine ⟨by decide, ?_⟩
  obtain ⟨s, hrun, hhistory⟩ := Option.map_eq_some_iff.mp hlate
  refine ⟨s, hrun, fun hstable => ?_⟩
  have hsplit := (List.take_append_drop 4 (s.requests 1).history).symm
  rw [hhistory] at hsplit
  have hsame := hstable ((s.requests 1).history.take 4 ++ [.cancelRequested, .polled .cancelled,
    .stepBatch 0, .stepOutcome .error, .markedFailed (.stepError ⟨.cuda, "step failed"⟩)])
    (.polled (.failed ⟨.cuda, "step failed"⟩)) [] (by simpa using hsplit) _ rfl .cancelled rfl
    (by simp)
  cases hsame

end Qwen3Tts.Runtime
