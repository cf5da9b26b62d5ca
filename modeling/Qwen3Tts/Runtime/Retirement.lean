import Qwen3Tts.Runtime.Delivery

/-!
# Runtime — the phase of a retired request

The worker retires a request on many paths and is expected to leave it in a terminal phase, or
draining with its final packet still queued. Every path does, except where a cancellation meets
a request that is about to be retired without a mark: `remove_finished` retires a cancelled
request without calling `mark_cancelled` (its sibling `remove_cancelled` calls it), and `cancel`
on a draining request sets a flag nobody looks at any more.
-/

namespace Qwen3Tts.Runtime

open Qwen3Tts.Lib

/-! ## Statement -/

/-- The final packet is still queued. -/
def lastFinal (packets : List OwnedAudioPacket) : Bool := packets.getLast?.any (·.ends)

/-- A phase a request may be retired in. -/
structure AtRest (state : RequestState) : Prop where
  phase : state.phase.isTerminal = true ∨ (state.phase = .draining ∧
    state.cancelRequested = false ∧ lastFinal state.packets = true)
  cancelled : state.cancelRequested = true → state.phase = .cancelled ∨ state.phase = .failed

/-- The request this step cancels. -/
def Action.cancelled : Action → Option Nat
  | .cancelMark id => some id
  | _ => none

/-- The request `remove_finished` looks at next. -/
def Sys.examined (s : Sys) : Option ActiveRequest :=
  match s.worker.control with
  | .removeFinished index => s.worker.active[index]?
  | _ => none

/-- The step does not let a cancellation meet a request that is retired without a mark: nobody
cancels a draining request, and `remove_finished` does not look at a cancelled request that has
not failed. -/
def RetiresMarked (s : Sys) (a : Action) : Prop :=
  (∀ id ∈ a.cancelled, (s.shared id).state.phase ≠ .draining) ∧
    (a.isWorker = true → ∀ r ∈ s.examined, (s.shared r.id).isCancelRequested = true →
      (s.shared r.id).state.failure.isSome = true)

instance : ∀ s a, Decidable (RetiresMarked s a) :=
  fun _ _ => inferInstanceAs (Decidable (_ ∧ (_ → _)))

/-! ## Invariant -/

section

variable {packet : OwnedAudioPacket} {packets : List OwnedAudioPacket}

@[simp] theorem lastFinal_nil : lastFinal [] = false := rfl

@[simp] theorem lastFinal_concat : lastFinal (packets ++ [packet]) = packet.ends := by
  simp [lastFinal]

@[simp] theorem lastFinal_cons :
    lastFinal (packet :: packets) = if packets = [] then packet.ends else lastFinal packets := by
  cases packets with
  | nil => rfl
  | cons next rest => simp [lastFinal, List.getLast?_cons_cons]

end

/-- A stream that was produced to its end is completed or drains towards its final packet. -/
def Drained (state : RequestState) : Prop :=
  state.phase = .completed ∨ (state.phase = .draining ∧ lastFinal state.packets = true)

/-- Delivering the final packet completes the request, delivering another one changes nothing. -/
theorem lastFinal_deliver {state : RequestState} {packet : OwnedAudioPacket}
    {rest : List OwnedAudioPacket} (hpackets : state.packets = packet :: rest)
    (hlast : lastFinal state.packets = true) :
    (packet.descriptor.isFinal ≠ 0 ∧ rest = []) ∨ lastFinal rest = true := by
  rw [hpackets, lastFinal_cons] at hlast
  split at hlast
  · exact .inl ⟨by simpa [OwnedAudioPacket.ends] using hlast, ‹_›⟩
  · exact .inr hlast

def markedLabel (label : Label) (l : Local) : Prop :=
  (label = .cancelMark → l.request.state.phase ≠ .draining) ∧
    (label = .finish → l.request.state.cancelRequested = true →
      l.request.state.failure.isSome = true)

/-- The request has got its last mark, if any. -/
@[simp] def isMarked : Option Stage → Bool
  | some (.retiringPending .release _) | some (.retiringPending .markRetired _)
  | some (.retiringActive .dropSession _) | some (.retiringActive (.release _) _)
  | some (.retiringActive .markRetired _) => true
  | _ => false

/-- The request is being retired because it failed. -/
@[simp] def isFailing : Option Stage → Bool
  | some (.retiringActive (.cancelBackend none) _) => true
  | _ => false

structure Retirement (l : Local) : Prop where
  drained : l.request.state.producerFinished = true → l.request.state.cancelRequested = false →
    l.request.state.failure = none → Drained l.request.state
  marked : isMarked l.stage = true → AtRest l.request.state
  failing : isFailing l.stage = true → l.request.state.failure.isSome = true
  retired : l.request.state.retired = true → l.stage = none ∧ AtRest l.request.state

section

variable {env : Env} {calls : Nat} {label : Label} {l l' : Local}

theorem Retirement.step_drained (hl : Retirement l) (hlife : Lifecycle l)
    (h : LocalStep env calls label l l') :
    l'.request.state.producerFinished = true → l'.request.state.cancelRequested = false →
      l'.request.state.failure = none → Drained l'.request.state := by
  have hdrained := hl.drained
  have hfresh := hlife.fresh
  have hproducing := hlife.producing
  cases h
  case pollPacket r v packet rest hfailure hcancel hpackets =>
    intro hproducer _ _
    rcases hdrained hproducer hcancel hfailure with hphase | ⟨hphase, hlast⟩
    · exact .inl (by simp_all)
    · rcases lastFinal_deliver hpackets hlast with hfinal | hrest
      · exact .inl (if_pos hfinal)
      · by_cases hfinal : packet.descriptor.isFinal ≠ 0 ∧ rest = []
        · exact .inl (if_pos hfinal)
        · exact .inr ⟨(if_neg hfinal).trans hphase, hrest⟩
  case pollEnd => exact fun _ _ _ => .inl rfl
  case publish packet metrics hcancel _ _ =>
    intro hproducer _ _
    have hopen := (hproducing rfl).2
    have hfinal : packet.descriptor.isFinal ≠ 0 := by simp_all
    exact .inr ⟨if_pos hfinal, by simp [OwnedAudioPacket.ends, hfinal]⟩
  all_goals first | exact hdrained | simp_all

theorem Retirement.step_failing (hl : Retirement l) (hok : markedLabel label l)
    (h : LocalStep env calls label l l') :
    isFailing l'.stage = true → l'.request.state.failure.isSome = true := by
  have hfailing := hl.failing
  cases h
  case finishOver hover => exact fun _ => hover.elim id (hok.2 rfl)
  all_goals simp_all

/-- Nothing that can still happen to a request at rest disturbs it. -/
theorem AtRest.step (hrest : AtRest l.request.state) (hlife : Lifecycle l)
    (hquiet : isMarked l.stage = true ∨ l.request.state.retired = true ∧ l.stage = none)
    (hok : markedLabel label l) (h : LocalStep env calls label l l') :
    AtRest l'.request.state := by
  cases h
  case pollPacket r v packet rest hfailure hcancel hpackets =>
    refine ⟨?_, fun hflag => absurd hflag (by simp [hcancel])⟩
    by_cases hfinal : packet.descriptor.isFinal ≠ 0 ∧ rest = []
    · exact .inl (by simp [hfinal, RequestPhase.isTerminal])
    · rcases hrest.phase with hterminal | ⟨hphase, _, hlast⟩
      · exact .inl (by simpa [hfinal] using hterminal)
      · refine .inr ⟨(if_neg hfinal).trans hphase, hcancel, ?_⟩
        exact (lastFinal_deliver hpackets hlast).resolve_left hfinal
  case pollEnd hcancel _ _ =>
    exact ⟨.inl rfl, fun hflag => absurd hflag (by simp [hcancel])⟩
  case cancelMark hphase =>
    rcases hrest.phase with hterminal | ⟨hdraining, -⟩
    · simp_all
    · exact absurd hdraining (hok.1 rfl)
  all_goals first | exact hrest | exact ⟨hrest.phase, hrest.cancelled⟩ | skip
  all_goals simp_all

theorem Retirement.step_marked (hl : Retirement l) (hlife : Lifecycle l)
    (hok : markedLabel label l) (h : LocalStep env calls label l l') :
    isMarked l'.stage = true → AtRest l'.request.state := by
  have hkeep := fun hmarked => (hl.marked hmarked).step hlife (.inl hmarked) hok h
  cases h
  -- the marks
  case cancelledPending | cancelledActive => exact fun _ => ⟨.inl rfl, fun _ => .inl rfl⟩
  case failedPending | failedActive => exact fun _ => ⟨.inl rfl, fun _ => .inr rfl⟩
  -- retired without a mark: failed before, or produced to its end
  case cancelBackend r a =>
    intro _
    have hphase := hlife.failed (hl.failing rfl)
    refine ⟨.inl ?_, fun _ => .inr ?_⟩
    · simp_all [RequestPhase.isTerminal]
    · simp_all
  case finish hproducer hfailure hcancel =>
    intro _
    refine ⟨?_, fun hflag => absurd hflag (by simp [hcancel])⟩
    rcases hl.drained hproducer hcancel hfailure with hphase | ⟨hphase, hlast⟩
    · exact .inl (by simp_all [RequestPhase.isTerminal])
    · exact .inr ⟨hphase, hcancel, hlast⟩
  all_goals first | exact hkeep | simp_all

theorem Retirement.step_retired (hl : Retirement l) (hlife : Lifecycle l)
    (hok : markedLabel label l) (h : LocalStep env calls label l l') :
    l'.request.state.retired = true → l'.stage = none ∧ AtRest l'.request.state := by
  have hretired := hl.retired
  have hmarked := hl.marked
  have hkeep := fun hgone => (hretired hgone).2.step hlife (.inr ⟨hgone, (hretired hgone).1⟩) hok h
  cases h
  case retirePending | retireActive =>
    have hrest := hmarked rfl
    exact fun _ => ⟨rfl, hrest.phase, hrest.cancelled⟩
  all_goals simp_all

theorem retirement_inductive : Inductive markedLabel fun _ l => Lifecycle l ∧ Retirement l := by
  refine (lifecycle_inductive.restrict fun _ _ _ => trivial).and (fun _ _ => ?_) (fun _ h => h)
    fun _ hok h hlife hl => {
      drained := hl.step_drained hlife h
      marked := hl.step_marked hlife hok h
      failing := hl.step_failing hok h
      retired := hl.step_retired hlife hok h }
  constructor <;> simp

end

/-! ## The phase of a retired request -/

/-- **A retired request is at rest** in every run in which no cancellation meets a request that
is retired without a mark. -/
theorem retired_at_rest {config : EngineConfig} {actions : List Action} {s : Sys}
    (hmarked : Along Sys.step RetiresMarked (.init config) actions)
    (hrun : run Sys.step (.init config) actions = some s) (id : Nat)
    (hretired : (s.requests id).state.retired = true) : AtRest (s.requests id).state := by
  have hlabel : ∀ s a, True → RetiresMarked s a → ∀ id label, Origin s a id label →
      markedLabel label (s.localOf id) := by
    rintro s a - ⟨hcancel, hfinish⟩ id label horigin
    constructor
    · rintro rfl
      exact hcancel id (by rw [show a = .cancelMark id from horigin]; rfl)
    · rintro rfl
      obtain ⟨hworker, index, r, hcontrol, hget, rfl⟩ := horigin
      refine hfinish hworker r ?_
      rw [Sys.examined, hcontrol]
      exact hget
  have hall := retirement_inductive.along RetiresMarked (fun _ => True) trivial
    (fun _ _ _ _ _ _ => trivial) hlabel hmarked hrun
  exact ((hall.2.2 id).2.retired hretired).2

set_option maxRecDepth 20000 in
/-- A stream received to its end. -/
theorem retired_at_rest_completed :
    ∃ s, run Sys.step (.init smallConfig) runToEnd = some s ∧
      (s.requests 1).state.retired = true ∧ AtRest (s.requests 1).state := by
  have hdone : (run Sys.step (.init smallConfig) runToEnd).map
      (fun s => (s.requests 1).shared.state.retired) = some true := by
    decide
  have hmarked : Along Sys.step RetiresMarked (.init smallConfig) runToEnd := by
    decide
  obtain ⟨s, hrun, hretired⟩ := Option.map_eq_some_iff.mp hdone
  exact ⟨s, hrun, hretired, retired_at_rest hmarked hrun 1 hretired⟩

/-! ## Retired without a mark -/

/-- `cancel` comes while `step_batch` runs for the request, which returns a packet. -/
def runToLateCancel : List Action :=
  runToStep 2 ++ [.cancelSwap 1, .cancelMark 1,
    stepReturns (some [.ok { finalPacket with isFinal := false, finishReason := .none }])]
    ++ Action.workerRuns 10

/-- `cancel` comes when the final packet is queued and the request retired. -/
def runToCancelDraining : List Action :=
  runToStep 1 ++ [stepReturns (some [.ok finalPacket])] ++ Action.workerRuns 8
    ++ [.cancelSwap 1, .cancelMark 1]

set_option maxRecDepth 20000 in
/-- Both cancelled requests are retired, one in phase `Generating`, one in phase `Draining`. -/
theorem retired_not_at_rest :
    (∃ s, run Sys.step (.init smallConfig) runToLateCancel = some s ∧
      (s.requests 1).state.retired = true ∧ (s.requests 1).state.cancelRequested = true ∧
      (s.requests 1).state.phase = .generating ∧ ¬ AtRest (s.requests 1).state) ∧
    ∃ s, run Sys.step (.init smallConfig) runToCancelDraining = some s ∧
      (s.requests 1).state.retired = true ∧ (s.requests 1).state.cancelRequested = true ∧
      (s.requests 1).state.phase = .draining ∧ ¬ AtRest (s.requests 1).state := by
  have hflags : ∀ actions phase, (run Sys.step (.init smallConfig) actions).map
      (fun s => ((s.requests 1).shared.state.retired, (s.requests 1).shared.state.cancelRequested,
        (s.requests 1).shared.state.phase)) = some (true, true, phase) →
      phase ≠ .cancelled → phase ≠ .failed →
      ∃ s, run Sys.step (.init smallConfig) actions = some s ∧
        (s.requests 1).state.retired = true ∧ (s.requests 1).state.cancelRequested = true ∧
        (s.requests 1).state.phase = phase ∧ ¬ AtRest (s.requests 1).state := by
    intro actions phase hmap hcancelled hfailed
    obtain ⟨s, hrun, hresult⟩ := Option.map_eq_some_iff.mp hmap
    simp only [Prod.mk.injEq] at hresult
    obtain ⟨hretired, hflag, hphase⟩ := hresult
    refine ⟨s, hrun, hretired, hflag, hphase, fun hrest => ?_⟩
    rcases hrest.cancelled hflag with h | h
    · exact hcancelled (hphase.symm.trans h)
    · exact hfailed (hphase.symm.trans h)
  refine ⟨hflags _ _ ?_ nofun nofun, hflags _ _ ?_ nofun nofun⟩
  · decide
  · decide

end Qwen3Tts.Runtime
