import Mathlib.Data.List.Basic
import Qwen3Tts.Server.Service

/-!
# Server — the bookkeeping of requests is consistent

Every counter is the number of calls that have made its update, so the equations between the
counters are equations between the stages that count. The map is tied to the calls the same
way: a call that holds its id has its own entry there, a call whose request did not retire has
left a tombstone, and an entry that belongs to a call names a call that holds the id.

A counter wraps at 2^64, so it is the number of these calls as a `UInt64`, and the equations are
ones of `UInt64`. Up to 2^64 calls they are equations of the numbers themselves (`exact`).
-/

namespace Qwen3Tts.Server

open Qwen3Tts.Lib

/-! ## What a stage counts for -/

/-- How a request counts. -/
inductive Outcome where
  | completed | cancelled | failed
  deriving DecidableEq, Repr

namespace Stage

/-- The call has an entry of its own in the map: it is admitted and unfinished. -/
def holds : Stage → Bool
  | .inserted | .startFailed | .admitted | .totalled | .gauged | .running | .finished _ => true
  | _ => false

/-- The request did not retire, and the map says so. -/
def tombstoned : Stage → Bool
  | .released c | .recording c | .done c => c = .retirementTimedOut
  | _ => false

/-- Counted in `requests_total`. -/
def total : Stage → Bool
  | .totalled | .gauged | .running | .finished _ | .released _ | .recording _ | .summing _
  | .done _ => true
  | _ => false

/-- Counted in `active_requests`. -/
def gauge : Stage → Bool
  | .gauged | .running | .finished _ | .released _ => true
  | .recording c | .done c => c = .retirementTimedOut
  | _ => false

/-- The one of the three terminal counters in which the request is counted. -/
def outcome : Stage → Option Outcome
  | .recording .retirementTimedOut => some .failed
  | .summing _ => some .completed
  | .done (.completed _) => some .completed
  | .done .cancelled => some .cancelled
  | .done _ => some .failed
  | _ => none

/-- Counted in `retirement_timeouts`. -/
def timedOut : Stage → Bool
  | .done c => c = .retirementTimedOut
  | _ => false

/-- Started and not counted in a terminal counter yet. -/
def isRunning (stage : Stage) : Bool := stage.total && stage.outcome.isNone

/-- Inside `request_started`, or inside the metrics call of the guard. -/
def inUpdate : Stage → Bool
  | .totalled | .recording _ => true
  | _ => false

end Stage

/-- The number of calls in a stage with `p`. -/
def Service.count (s : Service) (p : Stage → Bool) : Nat := s.calls.countP fun c => p c.stage

/-! ## Statement -/

/-- What ties the map, the calls and the counters of one state together. -/
structure Bookkeeping (s : Service) : Prop where
  /-- At most one admitted, unfinished request exists per id. -/
  unique : ∀ (i j : Nat) (c d : Call), s.calls[i]? = some c → s.calls[j]? = some d →
    c.stage.holds = true → d.stage.holds = true → c.requestId = d.requestId → i = j
  /-- An entry is removed only by the request that inserted it. -/
  removed : ∀ a s', s.step a = some s' → ∀ id e, s.active id = some e → s'.active id = none →
    ∃ i c, a = .advance i ∧ s.calls[i]? = some c ∧ c.requestId = id ∧ e = .running i
  /-- The three terminal counters count the calls with that outcome, and a call has at most one
  outcome, so exactly one once it is done. -/
  completed : s.metrics.completedRequests = .ofNat (s.count (·.outcome = some .completed))
  cancelled : s.metrics.cancelledRequests = .ofNat (s.count (·.outcome = some .cancelled))
  failed : s.metrics.failedRequests = .ofNat (s.count (·.outcome = some .failed))
  settled : ∀ (i : Nat) (c : Call) completion, s.calls[i]? = some c →
    c.stage = .done completion → c.stage.outcome.isSome = true
  total : s.metrics.requestsTotal = s.metrics.completedRequests + s.metrics.cancelledRequests
    + s.metrics.failedRequests + .ofNat (s.count (·.isRunning))
  /-- The gauge, when no call is between the updates of one metrics call. -/
  gauge : s.count (·.inUpdate) = 0 →
    s.metrics.activeRequests = .ofNat (s.count (·.isRunning)) + s.metrics.retirementTimeouts
  /-- The gauge at every moment, with the calls that are between two updates. -/
  gaugeInFlight : s.metrics.activeRequests + .ofNat (s.count (· = .totalled))
      + .ofNat (s.count fun stage => stage.inUpdate && stage.isRunning && stage != .totalled)
    = .ofNat (s.count (·.isRunning)) + s.metrics.retirementTimeouts
      + .ofNat (s.count (· = .recording .retirementTimedOut))
  /-- Up to 2^64 calls no counter has wrapped. -/
  exact : s.calls.length < 2 ^ 64 →
    s.metrics.requestsTotal.toNat = s.metrics.completedRequests.toNat
      + s.metrics.cancelledRequests.toNat + s.metrics.failedRequests.toNat
      + s.count (·.isRunning) ∧
    (s.count (·.inUpdate) = 0 → s.metrics.activeRequests.toNat =
      s.count (·.isRunning) + s.metrics.retirementTimeouts.toNat)
  /-- The gauge is positive whenever it is about to be decremented. -/
  noUnderflow : s.calls.length < 2 ^ 64 → ∀ (i : Nat) (c : Call) completion,
    s.calls[i]? = some c → c.stage = .released completion → 0 < s.metrics.activeRequests
  /-- An id whose request timed out in retirement is never admitted again. -/
  barred : ∀ (i : Nat) (c : Call), s.calls[i]? = some c → c.stage.tombstoned = true →
    ∀ acts s', run Service.step s acts = some s' → ∀ (j : Nat) (d : Call),
      s'.calls[j]? = some d → d.requestId = c.requestId → d.stage.holds = false

/-! ## What a step does -/

/-- A step of call `i`: the stage it reaches, and the map and the metrics behind it. -/
inductive Move (s : Service) (i : Nat) (c : Call) :
    Stage → (Uuid → Option ActiveRequest) → ServiceMetrics → Prop
  | refuse (h : c.stage = .arrived) : Move s i c .refused s.active s.metrics
  | insert (h : c.stage = .arrived) (hfree : s.active c.requestId = none) :
      Move s i c .inserted (Function.update s.active c.requestId (some (.running i))) s.metrics
  | start (h : c.stage = .inserted) : Move s i c .admitted s.active s.metrics
  | fail (h : c.stage = .inserted) : Move s i c .startFailed s.active s.metrics
  | remove (h : c.stage = .startFailed) :
      Move s i c .removed (Function.update s.active c.requestId none) s.metrics
  | reject (h : c.stage = .removed) : Move s i c .refused s.active
      { s.metrics with rejectedRequests := s.metrics.rejectedRequests + 1 }
  | total (h : c.stage = .admitted) : Move s i c .totalled s.active
      { s.metrics with requestsTotal := s.metrics.requestsTotal + 1 }
  | gauge (h : c.stage = .totalled) : Move s i c .gauged s.active
      { s.metrics with activeRequests := s.metrics.activeRequests + 1 }
  | streaming (h : c.stage = .gauged) : Move s i c .running s.active
      { s.metrics with streamingRequests := s.metrics.streamingRequests + 1 }
  | buffered (h : c.stage = .gauged) : Move s i c .running s.active
      { s.metrics with bufferedRequests := s.metrics.bufferedRequests + 1 }
  | finish {completion : Completion} (h : c.stage = .running) :
      Move s i c (.finished completion) s.active s.metrics
  | release {completion : Completion} (h : c.stage = .finished completion) :
      Move s i c (.released completion) (s.release c completion) s.metrics
  | first {completion : Completion} (h : c.stage = .released completion) :
      Move s i c (.recording completion) s.active (Service.firstUpdate s.metrics completion)
  | second {completion : Completion} (h : c.stage = .recording completion) :
      Move s i c (Service.secondUpdate s.metrics completion).2 s.active
        (Service.secondUpdate s.metrics completion).1
  | sum {samples : Nat} (h : c.stage = .summing samples) :
      Move s i c (.done (.completed samples)) s.active
        { s.metrics with emittedSamples := s.metrics.emittedSamples + .ofNat samples }

/-- A step brings a new call, moves one, or fires tokens. -/
inductive ServiceEffect (s : Service) (a : Act) (s' : Service) : Prop
  | grow (c : Call) (hstage : c.stage = .arrived ∨ c.stage = .refused)
      (hcalls : s'.calls = s.calls ++ [c]) (hactive : s'.active = s.active)
      (hmetrics : ∃ n, s'.metrics = { s.metrics with rejectedRequests := n })
  | move (i : Nat) (c : Call) (stage : Stage) (hcall : s.calls[i]? = some c)
      (ha : s'.active = s.active ∨ (a = .enter i ∧ c.stage = .arrived) ∨ a = .advance i)
      (hcalls : s'.calls = s.calls.set i { c with stage := stage })
      (hmove : Move s i c stage s'.active s'.metrics)
  | tokens (hids : s'.calls.map (·.requestId) = s.calls.map (·.requestId))
      (hstages : s'.calls.map (·.stage) = s.calls.map (·.stage)) (hactive : s'.active = s.active)
      (hmetrics : s'.metrics = s.metrics)

/-- A field that `f` keeps is kept at every position. -/
theorem map_modify {α β : Type} {xs : List α} {i : Nat} {f : α → α} {g : α → β}
    (h : ∀ x, g (f x) = g x) : (xs.modify i f).map g = xs.map g := by
  refine List.ext_getElem? fun j => ?_
  rw [List.getElem?_map, List.getElem?_map, List.getElem?_modify]
  cases xs[j]? with
  | none => rfl
  | some x =>
    show some (g (if i = j then f x else x)) = some (g x)
    split
    · rw [h]
    · rfl

theorem Service.step_effect {s s' : Service} {a : Act} (h : s.step a = some s') :
    ServiceEffect s a s' := by
  cases a with
  | arrive requestId streaming permit =>
    cases h
    unfold Service.arrive
    split
    · exact .grow _ (.inl rfl) rfl rfl ⟨_, rfl⟩
    · exact .grow _ (.inr rfl) rfl rfl ⟨_, rfl⟩
  -- the critical section of `try_admit`: a free id is inserted
  | enter i =>
    obtain ⟨c, hcall, h⟩ := Option.bind_eq_some_iff.mp h
    unfold Service.admission? at h
    split at h
    · rename_i hc
      split at h
      · cases h
        exact .move i c .refused hcall (.inl rfl) rfl (.refuse hc.1)
      · split at h
        · cases h
          exact .move i c .refused hcall (.inl rfl) rfl (.refuse hc.1)
        · rename_i hfree
          cases h
          exact .move i c .inserted hcall (.inr (.inl ⟨rfl, hc.1⟩)) rfl (.insert hc.1 hfree)
    · cases h
  | engineStart i ok =>
    obtain ⟨c, hcall, h⟩ := Option.bind_eq_some_iff.mp h
    unfold Service.engineStart at h
    split at h
    · rename_i hc
      split at h <;> cases h
      · exact .move i c .admitted hcall (.inl rfl) rfl (.start hc)
      · exact .move i c .startFailed hcall (.inl rfl) rfl (.fail hc)
    · cases h
  | finish i completion =>
    obtain ⟨c, hcall, h⟩ := Option.bind_eq_some_iff.mp h
    split at h
    · rename_i hc
      cases h
      exact .move i c (.finished completion) hcall (.inl rfl) rfl (.finish hc)
    · cases h
  -- the steps a call takes alone, one stage after the other
  | advance i =>
    obtain ⟨c, hcall, h⟩ := Option.bind_eq_some_iff.mp h
    unfold Service.advance at h
    cases hc : c.stage with
    | arrived | refused | inserted | running | done _ => simp [hc] at h
    | startFailed =>
      simp only [hc, Option.some.injEq] at h
      subst h
      exact .move i c .removed hcall (.inr (.inr rfl)) rfl (.remove hc)
    | removed =>
      simp only [hc, Option.some.injEq] at h
      subst h
      exact .move i c .refused hcall (.inl rfl) rfl (.reject hc)
    | admitted =>
      simp only [hc, Option.some.injEq] at h
      subst h
      exact .move i c .totalled hcall (.inl rfl) rfl (.total hc)
    | totalled =>
      simp only [hc, Option.some.injEq] at h
      subst h
      exact .move i c .gauged hcall (.inl rfl) rfl (.gauge hc)
    | gauged =>
      simp only [hc, Option.some.injEq] at h
      subst h
      refine .move i c .running hcall (.inl rfl) rfl ?_
      cases hstreaming : c.streaming
      · exact .buffered hc
      · exact .streaming hc
    | finished completion =>
      simp only [hc, Option.some.injEq] at h
      subst h
      exact .move i c (.released completion) hcall (.inr (.inr rfl)) rfl (.release hc)
    | released completion =>
      simp only [hc, Option.some.injEq] at h
      subst h
      exact .move i c (.recording completion) hcall (.inl rfl) rfl (.first hc)
    | recording completion =>
      simp only [hc, Option.some.injEq] at h
      subst h
      exact .move i c (Service.secondUpdate s.metrics completion).2 hcall (.inl rfl) rfl (.second hc)
    | summing samples =>
      simp only [hc, Option.some.injEq] at h
      subst h
      exact .move i c (.done (.completed samples)) hcall (.inl rfl) rfl (.sum hc)
  -- a token, and no stage, changes
  | delete requestId =>
    cases h
    unfold Service.delete
    split
    · exact .tokens (map_modify fun _ => rfl) (map_modify fun _ => rfl) rfl rfl
    · exact .tokens rfl rfl rfl rfl
  | shutdown =>
    have h : s.cancelAll = some s' := h
    unfold Service.cancelAll at h
    split at h
    · cases h
      refine .tokens ?_ ?_ rfl rfl
      · rw [List.map_map]
        refine List.map_congr_left fun c _ => ?_
        show (if _ then c else _).requestId = c.requestId
        split <;> rfl
      · rw [List.map_map]
        refine List.map_congr_left fun c _ => ?_
        show (if _ then c else _).stage = c.stage
        split <;> rfl
    · cases h

/-! ## The map -/

/-- The entry of the map for an id is that of the call which holds it. -/
structure Entries (s : Service) : Prop where
  own : ∀ (i : Nat) (c : Call), s.calls[i]? = some c → c.stage.holds = true →
    s.active c.requestId = some (.running i)
  tombstone : ∀ (i : Nat) (c : Call), s.calls[i]? = some c → c.stage.tombstoned = true →
    s.active c.requestId = some .retirementTimedOut

section

variable {s s' : Service} {a : Act} {i : Nat} {c : Call} {stage : Stage}
  {active : Uuid → Option ActiveRequest} {metrics : ServiceMetrics}

/-- A move touches the entry of its own id only: it inserts or keeps it, leaves a finished call's
id alone, or turns the call's own entry into nothing or a tombstone. -/
theorem Move.entry (h : Move s i c stage active metrics)
    (hown : c.stage.holds = true → s.active c.requestId = some (.running i)) :
    (∀ id, id ≠ c.requestId → active id = s.active id) ∧
    ((stage.holds = true ∧ stage.tombstoned = false ∧
        active c.requestId = some (.running i) ∧
        (c.stage.holds = true ∨ s.active c.requestId = none)) ∨
      (c.stage.holds = false ∧ stage.holds = false ∧
        stage.tombstoned = c.stage.tombstoned ∧ active = s.active) ∨
      (c.stage.holds = true ∧ stage.holds = false ∧
        active c.requestId = if stage.tombstoned then some .retirementTimedOut else none)) := by
  cases h with
  | refuse h | reject h | sum h =>
    exact ⟨fun _ _ => rfl, .inr (.inl ⟨by rw [h]; rfl, rfl, by rw [h]; rfl, rfl⟩)⟩
  | first h => exact ⟨fun _ _ => rfl, .inr (.inl ⟨by rw [h]; rfl, rfl, by rw [h]; rfl, rfl⟩)⟩
  | @second completion h =>
    refine ⟨fun _ _ => rfl, .inr (.inl ⟨by rw [h]; rfl, ?_, ?_, rfl⟩)⟩
    · cases completion <;> rfl
    · rw [h]
      cases completion <;> rfl
  | insert h hfree =>
    refine ⟨fun id hid => Function.update_of_ne hid _ _, .inl ⟨rfl, rfl, ?_, .inr hfree⟩⟩
    exact Function.update_self _ _ _
  | start h | fail h | total h | gauge h | streaming h | buffered h | finish h =>
    have hholds : c.stage.holds = true := by rw [h]; rfl
    exact ⟨fun _ _ => rfl, .inl ⟨rfl, rfl, hown hholds, .inl hholds⟩⟩
  | remove h =>
    refine ⟨fun id hid => Function.update_of_ne hid _ _, .inr (.inr ⟨by rw [h]; rfl, rfl, ?_⟩)⟩
    exact Function.update_self _ _ _
  | @release completion h =>
    have hholds : c.stage.holds = true := by rw [h]; rfl
    have hentry := hown hholds
    -- only a retirement that timed out leaves an entry behind
    unfold Service.release
    by_cases hcompletion : completion = .retirementTimedOut
    · simp only [hcompletion, if_true, hentry, Option.isSome_some]
      refine ⟨fun id hid => Function.update_of_ne hid _ _, .inr (.inr ⟨hholds, rfl, ?_⟩)⟩
      exact Function.update_self _ _ _
    · simp only [hcompletion, if_false]
      refine ⟨fun id hid => Function.update_of_ne hid _ _, .inr (.inr ⟨hholds, rfl, ?_⟩)⟩
      rw [Function.update_self]
      simp [Stage.tombstoned, hcompletion]

/-- After a move of call `i`, every call is the moved one or an old one. -/
theorem moved_call (hcall : s.calls[i]? = some c)
    (hcalls : s'.calls = s.calls.set i { c with stage := stage }) {j : Nat} {d : Call}
    (hd : s'.calls[j]? = some d) :
    (j = i ∧ d = { c with stage := stage }) ∨ (j ≠ i ∧ s.calls[j]? = some d) := by
  obtain ⟨hi, -⟩ := List.getElem?_eq_some_iff.mp hcall
  rw [hcalls, List.getElem?_set] at hd
  by_cases hj : i = j
  · rw [if_pos hj, if_pos hi] at hd
    cases hd
    exact .inl ⟨hj.symm, rfl⟩
  · rw [if_neg hj] at hd
    exact .inr ⟨fun h => hj h.symm, hd⟩

/-- Every step moves one call, and the entry of its id with it. -/
theorem Entries.step (hs : Entries s) (h : ServiceEffect s a s') : Entries s' := by
  cases h with
  | grow c hstage hcalls hactive hmetrics =>
    -- the new call holds nothing
    have hold : ∀ (j : Nat) (d : Call), s'.calls[j]? = some d →
        s.calls[j]? = some d ∨ d.stage = .arrived ∨ d.stage = .refused := by
      intro j d hd
      rw [hcalls] at hd
      by_cases hj : j < s.calls.length
      · rw [List.getElem?_append_left hj] at hd
        exact .inl hd
      · rw [List.getElem?_append_right (by omega)] at hd
        rw [List.mem_singleton.mp (List.mem_of_getElem? hd)]
        exact .inr hstage
    constructor
    · intro j d hd hholds
      rw [hactive]
      rcases hold j d hd with hd | hstage | hstage
      · exact hs.own j d hd hholds
      · rw [hstage] at hholds
        cases hholds
      · rw [hstage] at hholds
        cases hholds
    · intro j d hd htomb
      rw [hactive]
      rcases hold j d hd with hd | hstage | hstage
      · exact hs.tombstone j d hd htomb
      · rw [hstage] at htomb
        cases htomb
      · rw [hstage] at htomb
        cases htomb
  | move i c stage hcall ha hcalls hmove =>
    obtain ⟨hothers, hentry⟩ := hmove.entry (hs.own i c hcall)
    constructor
    · intro j d hd hholds
      rcases moved_call hcall hcalls hd with ⟨rfl, rfl⟩ | ⟨hj, hd⟩
      · rcases hentry with ⟨-, -, hrunning, -⟩ | ⟨-, hnot, -⟩ | ⟨-, hnot, -⟩
        · exact hrunning
        · rw [hnot] at hholds
          cases hholds
        · rw [hnot] at hholds
          cases hholds
      · have hold := hs.own j d hd hholds
        by_cases hid : d.requestId = c.requestId
        · -- the id of the moved call belongs to call `j`
          rcases hentry with ⟨-, -, -, hc⟩ | ⟨-, -, -, hsame⟩ | ⟨hc, -⟩
          · rcases hc with hc | hc
            · have hci := hs.own i c hcall hc
              rw [← hid, hold] at hci
              cases hci
              exact absurd rfl hj
            · rw [← hid, hold] at hc
              cases hc
          · rw [hsame]
            exact hold
          · have hci := hs.own i c hcall hc
            rw [← hid, hold] at hci
            cases hci
            exact absurd rfl hj
        · rw [hothers _ hid]
          exact hold
    · intro j d hd htomb
      rcases moved_call hcall hcalls hd with ⟨rfl, rfl⟩ | ⟨hj, hd⟩
      · rcases hentry with ⟨-, hnot, -⟩ | ⟨-, -, hsame, hactive⟩ | ⟨-, -, hactive⟩
        · rw [hnot] at htomb
          cases htomb
        · rw [hactive]
          rw [hsame] at htomb
          exact hs.tombstone j c hcall htomb
        · rw [htomb] at hactive
          exact hactive
      · have hold := hs.tombstone j d hd htomb
        by_cases hid : d.requestId = c.requestId
        · rcases hentry with ⟨-, -, -, hc⟩ | ⟨-, -, -, hsame⟩ | ⟨hc, -⟩
          · rcases hc with hc | hc
            · have hci := hs.own i c hcall hc
              rw [← hid, hold] at hci
              cases hci
            · rw [← hid, hold] at hc
              cases hc
          · rw [hsame]
            exact hold
          · have hci := hs.own i c hcall hc
            rw [← hid, hold] at hci
            cases hci
        · rw [hothers _ hid]
          exact hold
  | tokens hids hstages hactive hmetrics =>
    have hold : ∀ (j : Nat) (d : Call), s'.calls[j]? = some d →
        ∃ e, s.calls[j]? = some e ∧ e.requestId = d.requestId ∧ e.stage = d.stage := by
      intro j d hd
      have hid : (s.calls.map (·.requestId))[j]? = some d.requestId := by
        rw [← hids, List.getElem?_map, hd]
        rfl
      have hstage : (s.calls.map (·.stage))[j]? = some d.stage := by
        rw [← hstages, List.getElem?_map, hd]
        rfl
      rw [List.getElem?_map] at hid hstage
      obtain ⟨e, he, heid⟩ := Option.map_eq_some_iff.mp hid
      rw [he] at hstage
      exact ⟨e, he, heid, Option.some.inj hstage⟩
    constructor
    · intro j d hd hholds
      obtain ⟨e, he, hid, hstage⟩ := hold j d hd
      rw [hactive, ← hid]
      exact hs.own j e he (by rw [hstage]; exact hholds)
    · intro j d hd htomb
      obtain ⟨e, he, hid, hstage⟩ := hold j d hd
      rw [hactive, ← hid]
      exact hs.tombstone j e he (by rw [hstage]; exact htomb)

end

/-! ## The counters -/

/-- The counters count the calls by their stages, modulo 2^64. -/
structure Counts (s : Service) : Prop where
  total : s.metrics.requestsTotal = .ofNat (s.count Stage.total)
  gauge : s.metrics.activeRequests = .ofNat (s.count Stage.gauge)
  completed : s.metrics.completedRequests = .ofNat (s.count (·.outcome = some .completed))
  cancelled : s.metrics.cancelledRequests = .ofNat (s.count (·.outcome = some .cancelled))
  failed : s.metrics.failedRequests = .ofNat (s.count (·.outcome = some .failed))
  timeouts : s.metrics.retirementTimeouts = .ofNat (s.count Stage.timedOut)

section

variable {s s' : Service} {a : Act} {i : Nat} {c : Call} {stage : Stage} {p : Stage → Bool}
  {active : Uuid → Option ActiveRequest} {metrics : ServiceMetrics}

/-- One call moves from its stage to another. -/
theorem count_set (hcall : s.calls[i]? = some c)
    (hcalls : s'.calls = s.calls.set i { c with stage := stage }) :
    s'.count p + (p c.stage).toNat = s.count p + (p stage).toNat := by
  obtain ⟨hi, hget⟩ := List.getElem?_eq_some_iff.mp hcall
  have hmem : c ∈ s.calls := List.mem_of_getElem? hcall
  unfold Service.count
  rw [hcalls, List.countP_set hi, hget]
  cases hc : p c.stage with
  | false => cases p stage <;> simp
  | true =>
    have hpos : 0 < s.calls.countP fun c => p c.stage :=
      List.countP_pos_iff.mpr ⟨c, hmem, hc⟩
    cases p stage <;> simp <;> omega

/-- There is such a call. -/
theorem count_pos (hcall : s.calls[i]? = some c) (hp : p c.stage = true) : 0 < s.count p :=
  List.countP_pos_iff.mpr ⟨c, List.mem_of_getElem? hcall, hp⟩

/-- There are no more than all of them. -/
theorem count_le (p : Stage → Bool) : s.count p ≤ s.calls.length := List.countP_le_length

/-- A counter whose update makes the difference of a count follows the count. -/
theorem counter_follows {m m' : UInt64} {n n' : Nat} {before after : Bool} (hm : m = .ofNat n)
    (hupdate : m' + before.toUInt64 = m + after.toUInt64)
    (hcount : n' + before.toNat = n + after.toNat) : m' = .ofNat n' := by
  have hbit : ∀ b : Bool, b.toUInt64 = .ofNat b.toNat := by decide
  have hsum : m' + before.toUInt64 = .ofNat n' + before.toUInt64 := by
    rw [hupdate, hm, hbit, hbit, ← UInt64.ofNat_add, ← UInt64.ofNat_add, hcount]
  exact (UInt64.add_left_inj _).mp hsum

/-- A move updates each counter by what its stages count. -/
theorem Move.counts (h : Move s i c stage active metrics) :
    metrics.requestsTotal + c.stage.total.toUInt64 =
      s.metrics.requestsTotal + stage.total.toUInt64 ∧
    metrics.activeRequests + c.stage.gauge.toUInt64 =
      s.metrics.activeRequests + stage.gauge.toUInt64 ∧
    metrics.completedRequests + (decide (c.stage.outcome = some .completed)).toUInt64 =
      s.metrics.completedRequests + (decide (stage.outcome = some .completed)).toUInt64 ∧
    metrics.cancelledRequests + (decide (c.stage.outcome = some .cancelled)).toUInt64 =
      s.metrics.cancelledRequests + (decide (stage.outcome = some .cancelled)).toUInt64 ∧
    metrics.failedRequests + (decide (c.stage.outcome = some .failed)).toUInt64 =
      s.metrics.failedRequests + (decide (stage.outcome = some .failed)).toUInt64 ∧
    metrics.retirementTimeouts + c.stage.timedOut.toUInt64 =
      s.metrics.retirementTimeouts + stage.timedOut.toUInt64 := by
  have hone : true.toUInt64 = 1 := rfl
  have hzero : false.toUInt64 = 0 := rfl
  cases h with
  | @first completion h =>
    rw [h]
    cases completion <;> simp [Service.firstUpdate, Stage.total, Stage.gauge, Stage.outcome,
      Stage.timedOut, hone, hzero]
  | @second completion h =>
    rw [h]
    cases completion <;> simp [Service.secondUpdate, Stage.total, Stage.gauge, Stage.outcome,
      Stage.timedOut, hone, hzero]
  | refuse h | insert h | start h | fail h | remove h | reject h | total h | gauge h
  | streaming h | buffered h | finish h | release h | sum h =>
    rw [h]
    simp [Stage.total, Stage.gauge, Stage.outcome, Stage.timedOut, hone, hzero]

/-- A step moves a counter exactly when the call changes what it counts for. -/
theorem Counts.step (hs : Counts s) (h : ServiceEffect s a s') : Counts s' := by
  cases h with
  | grow c hstage hcalls hactive hmetrics =>
    obtain ⟨n, hmetrics⟩ := hmetrics
    have hcount : ∀ p : Stage → Bool, p .arrived = false → p .refused = false →
        s'.count p = s.count p := by
      intro p harrived hrefused
      have hp : p c.stage = false := by
        rcases hstage with h | h
        · rw [h, harrived]
        · rw [h, hrefused]
      unfold Service.count
      rw [hcalls, List.countP_append, List.countP_singleton, hp]
      rfl
    constructor <;> rw [hmetrics, hcount _ rfl rfl]
    exacts [hs.total, hs.gauge, hs.completed, hs.cancelled, hs.failed, hs.timeouts]
  -- the metrics follow the stage of the call that moves
  | move i c stage hcall ha hcalls hmove =>
    obtain ⟨htotal, hgauge, hcompleted, hcancelled, hfailed, htimeouts⟩ := hmove.counts
    constructor
    · exact counter_follows hs.total htotal (count_set hcall hcalls)
    · exact counter_follows hs.gauge hgauge (count_set hcall hcalls)
    · exact counter_follows hs.completed hcompleted (count_set hcall hcalls)
    · exact counter_follows hs.cancelled hcancelled (count_set hcall hcalls)
    · exact counter_follows hs.failed hfailed (count_set hcall hcalls)
    · exact counter_follows hs.timeouts htimeouts (count_set hcall hcalls)
  -- a token is no stage
  | tokens hids hstages hactive hmetrics =>
    have hcount : ∀ p : Stage → Bool, s'.count p = s.count p := by
      intro p
      have hmap : ∀ calls : List Call,
          calls.countP (fun c => p c.stage) = (calls.map (·.stage)).countP p := by
        intro calls
        rw [List.countP_map]
        rfl
      unfold Service.count
      rw [hmap, hmap, hstages]
    constructor <;> rw [hmetrics, hcount]
    exacts [hs.total, hs.gauge, hs.completed, hs.cancelled, hs.failed, hs.timeouts]

/-! ## Every reachable state -/

/-- What holds of every reachable state. -/
theorem Service.reachable {acts : List Act} (hrun : run Service.step {} acts = some s) :
    Entries s ∧ Counts s := by
  have hinit : Entries {} ∧ Counts {} :=
    ⟨⟨nofun, nofun⟩, ⟨rfl, rfl, rfl, rfl, rfl, rfl⟩⟩
  refine invariant_of_step (P := fun _ _ => True) (I := fun s => Entries s ∧ Counts s)
    (fun s a s' hs _ h => ?_) hinit (along_trivial (fun _ _ => trivial) _ _) hrun
  exact ⟨hs.1.step (Service.step_effect h), hs.2.step (Service.step_effect h)⟩

/-- The calls in a stage with `p`, one call at a time. -/
theorem count_eq_sum {p : Stage → Bool} :
    s.count p = (s.calls.map fun c => (p c.stage).toNat).sum := by
  unfold Service.count
  induction s.calls with
  | nil => rfl
  | cons c calls ih =>
    rw [List.countP_cons, List.map_cons, List.sum_cons, ih, Nat.add_comm]
    cases p c.stage <;> rfl

/-- An equation between counts follows from the equation for each stage. -/
theorem count_add {p q r : Stage → Bool}
    (h : ∀ stage, (p stage).toNat = (q stage).toNat + (r stage).toNat) :
    s.count p = s.count q + s.count r := by
  rw [count_eq_sum, count_eq_sum, count_eq_sum]
  induction s.calls with
  | nil => rfl
  | cons c calls ih =>
    have hc := h c.stage
    simp only [List.map_cons, List.sum_cons]
    omega

/-- Every started call is running or counted in exactly one terminal counter. -/
theorem count_total : s.count Stage.total =
    s.count (·.outcome = some .completed) + s.count (·.outcome = some .cancelled)
      + s.count (·.outcome = some .failed) + s.count (·.isRunning) := by
  have hrunning : s.count Stage.total = s.count (·.outcome.isSome) + s.count (·.isRunning) := by
    refine count_add fun stage => ?_
    cases stage with
    | recording completion | done completion => cases completion <;> rfl
    | _ => rfl
  have hfailed : s.count (·.outcome.isSome) =
      s.count (fun stage => stage.outcome.isSome && stage.outcome != some .failed)
        + s.count (·.outcome = some .failed) := by
    refine count_add fun stage => ?_
    cases stage with
    | recording completion | done completion => cases completion <;> rfl
    | _ => rfl
  have hothers : s.count (fun stage => stage.outcome.isSome && stage.outcome != some .failed) =
      s.count (·.outcome = some .completed) + s.count (·.outcome = some .cancelled) := by
    refine count_add fun stage => ?_
    cases stage with
    | recording completion | done completion => cases completion <;> rfl
    | _ => rfl
  omega

/-- The calls whose gauge update and terminal counter are not in step are inside an update. -/
theorem count_gauge : s.count Stage.gauge + s.count (· = .totalled)
      + s.count (fun stage => stage.inUpdate && stage.isRunning && stage != .totalled)
    = s.count (·.isRunning) + s.count Stage.timedOut
      + s.count (· = .recording .retirementTimedOut) := by
  have hleft : s.count (fun stage => stage.gauge || stage.isRunning) =
      s.count Stage.gauge + s.count (fun stage => stage.isRunning && !stage.gauge) := by
    refine count_add fun stage => ?_
    cases stage with
    | recording completion | done completion => cases completion <;> rfl
    | _ => rfl
  have hbehind : s.count (fun stage => stage.isRunning && !stage.gauge) =
      s.count (· = .totalled)
        + s.count (fun stage => stage.inUpdate && stage.isRunning && stage != .totalled) := by
    refine count_add fun stage => ?_
    cases stage with
    | recording completion | done completion => cases completion <;> rfl
    | _ => rfl
  have hright : s.count (fun stage => stage.gauge || stage.isRunning) =
      s.count (·.isRunning) + s.count (fun stage => stage.gauge && !stage.isRunning) := by
    refine count_add fun stage => ?_
    cases stage with
    | recording completion | done completion => cases completion <;> rfl
    | _ => rfl
  have hahead : s.count (fun stage => stage.gauge && !stage.isRunning) =
      s.count Stage.timedOut + s.count (· = .recording .retirementTimedOut) := by
    refine count_add fun stage => ?_
    cases stage with
    | recording completion | done completion => cases completion <;> rfl
    | _ => rfl
  omega

/-- A stage that counts for less. -/
theorem count_eq_zero {p q : Stage → Bool} (h : ∀ stage, p stage = true → q stage = true)
    (hq : s.count q = 0) : s.count p = 0 := by
  unfold Service.count at hq ⊢
  rw [List.countP_eq_zero] at hq ⊢
  exact fun c hc hp => hq c hc (h _ hp)

/-- Where no call is inside an update, the gauge and the terminal counters are in step. -/
theorem count_gauge_quiet (hquiet : s.count (·.inUpdate) = 0) :
    s.count Stage.gauge = s.count (·.isRunning) + s.count Stage.timedOut := by
  have hgauge := count_gauge (s := s)
  have htotalled : s.count (· = .totalled) = 0 := by
    refine count_eq_zero (fun stage h => ?_) hquiet
    rw [of_decide_eq_true h]
    rfl
  have hrecording : s.count (fun stage => stage.inUpdate && stage.isRunning && stage != .totalled)
      = 0 := by
    refine count_eq_zero (fun stage h => ?_) hquiet
    simp only [Bool.and_eq_true] at h
    exact h.1.1
  have htimedOut : s.count (· = .recording .retirementTimedOut) = 0 := by
    refine count_eq_zero (fun stage h => ?_) hquiet
    rw [of_decide_eq_true h]
    rfl
  omega

/-- A call that left a tombstone stays in a stage that did. -/
theorem tombstoned_step (hs : Entries s) (hcall : s.calls[i]? = some c)
    (htomb : c.stage.tombstoned = true) (h : ServiceEffect s a s') :
    ∃ d, s'.calls[i]? = some d ∧ d.requestId = c.requestId ∧ d.stage.tombstoned = true := by
  obtain ⟨hi, -⟩ := List.getElem?_eq_some_iff.mp hcall
  cases h with
  | grow d hstage hcalls hactive hmetrics =>
    refine ⟨c, ?_, rfl, htomb⟩
    rw [hcalls, List.getElem?_append_left hi]
    exact hcall
  | move j d stage hd ha hcalls hmove =>
    -- only its own call could move it, and that has no entry to give back
    by_cases hj : j = i
    · subst hj
      obtain rfl : d = c := Option.some.inj (hd.symm.trans hcall)
      refine ⟨{ d with stage := stage }, by rw [hcalls, List.getElem?_set_self hi], rfl, ?_⟩
      have hentry := hs.tombstone j d hd htomb
      have hholds : d.stage.holds = false := by
        cases hholds : d.stage.holds with
        | false => rfl
        | true =>
          rw [hs.own j d hd hholds] at hentry
          cases hentry
      rcases (hmove.entry (hs.own j d hd)).2 with ⟨-, -, -, hc⟩ | ⟨-, -, hsame, -⟩ | ⟨hc, -⟩
      · rw [hholds, hentry] at hc
        rcases hc with hc | hc <;> cases hc
      · exact hsame.trans htomb
      · rw [hholds] at hc
        cases hc
    · refine ⟨c, ?_, rfl, htomb⟩
      rw [hcalls, List.getElem?_set_ne hj]
      exact hcall
  | tokens hids hstages hactive hmetrics =>
    have hid : (s'.calls.map (·.requestId))[i]? = some c.requestId := by
      rw [hids, List.getElem?_map, hcall]
      rfl
    have hstage : (s'.calls.map (·.stage))[i]? = some c.stage := by
      rw [hstages, List.getElem?_map, hcall]
      rfl
    rw [List.getElem?_map] at hid hstage
    obtain ⟨d, hd, hdid⟩ := Option.map_eq_some_iff.mp hid
    rw [hd] at hstage
    have hstage : d.stage = c.stage := Option.some.inj hstage
    refine ⟨d, hd, hdid, ?_⟩
    rw [hstage]
    exact htomb

/-- A tombstone is never lifted. -/
theorem tombstone_stays {acts : List Act} (hs : Entries s) (hcall : s.calls[i]? = some c)
    (htomb : c.stage.tombstoned = true) (hrun : run Service.step s acts = some s') :
    Entries s' ∧ s'.active c.requestId = some .retirementTimedOut := by
  have hinv : ∀ s a s', (Entries s ∧
      ∃ d, s.calls[i]? = some d ∧ d.requestId = c.requestId ∧ d.stage.tombstoned = true) → True →
      Service.step s a = some s' → Entries s' ∧
        ∃ d, s'.calls[i]? = some d ∧ d.requestId = c.requestId ∧ d.stage.tombstoned = true := by
    rintro s a s' ⟨hs, d, hd, hid, hd'⟩ - h
    obtain ⟨e, he, heid, he'⟩ := tombstoned_step hs hd hd' (Service.step_effect h)
    exact ⟨hs.step (Service.step_effect h), e, he, heid.trans hid, he'⟩
  obtain ⟨hs', d, hd, hid, hd'⟩ := invariant_of_step (P := fun _ _ => True) hinv
    ⟨hs, c, hcall, rfl, htomb⟩ (along_trivial (fun _ _ => trivial) _ _) hrun
  exact ⟨hs', hid ▸ hs'.tombstone i d hd hd'⟩

/-- **The bookkeeping is consistent in every reachable state**, whatever the interleaving of
starts, start failures, worker completions, `DELETE` calls and the shutdown. -/
theorem bookkeeping {acts : List Act} (hrun : run Service.step {} acts = some s) :
    Bookkeeping s := by
  obtain ⟨hentries, hcounts⟩ := Service.reachable hrun
  constructor
  case unique =>
    intro i j c d hc hd hholds hholds' hid
    have hi := hentries.own i c hc hholds
    have hj := hentries.own j d hd hholds'
    rw [hid, hj] at hi
    cases hi
    rfl
  case removed =>
    intro a s' hstep id e hentry hgone
    cases Service.step_effect hstep with
    | grow c hstage hcalls hactive hmetrics =>
      rw [hactive, hentry] at hgone
      cases hgone
    | tokens hids hstages hactive hmetrics =>
      rw [hactive, hentry] at hgone
      cases hgone
    | move i c stage hcall ha hcalls hmove =>
      obtain ⟨hothers, hcase⟩ := hmove.entry (hentries.own i c hcall)
      have hid : id = c.requestId := by
        by_contra hid
        rw [hothers id hid, hentry] at hgone
        cases hgone
      subst hid
      rcases hcase with ⟨-, -, hrunning, -⟩ | ⟨-, -, -, hsame⟩ | ⟨hholds, -, -⟩
      · rw [hrunning] at hgone
        cases hgone
      · rw [hsame, hentry] at hgone
        cases hgone
      · -- the entry was the call's own, and only the guard or a failed start removes it
        have hown := hentries.own i c hcall hholds
        rw [hentry] at hown
        rcases ha with hsame | ⟨-, harrived⟩ | ha
        · rw [hsame, hentry] at hgone
          cases hgone
        · rw [harrived] at hholds
          cases hholds
        · exact ⟨i, c, ha, hcall, rfl, Option.some.inj hown⟩
  case completed => exact hcounts.completed
  case cancelled => exact hcounts.cancelled
  case failed => exact hcounts.failed
  case settled =>
    intro i c completion hcall hstage
    rw [hstage]
    cases completion <;> rfl
  case total =>
    rw [hcounts.total, hcounts.completed, hcounts.cancelled, hcounts.failed, count_total]
    simp only [UInt64.ofNat_add]
  case gaugeInFlight =>
    rw [hcounts.gauge, hcounts.timeouts]
    simp only [← UInt64.ofNat_add, count_gauge]
  case gauge =>
    intro hquiet
    rw [hcounts.gauge, hcounts.timeouts, count_gauge_quiet hquiet, UInt64.ofNat_add]
  case exact =>
    intro hlength
    have hexact : ∀ p : Stage → Bool, (UInt64.ofNat (s.count p)).toNat = s.count p := fun p =>
      UInt64.toNat_ofNat_of_lt' (Nat.lt_of_le_of_lt (count_le p) hlength)
    rw [hcounts.total, hcounts.completed, hcounts.cancelled, hcounts.failed, hcounts.gauge,
      hcounts.timeouts]
    simp only [hexact]
    exact ⟨count_total, count_gauge_quiet⟩
  case noUnderflow =>
    intro hlength i c completion hcall hstage
    have hpos : 0 < s.count Stage.gauge := count_pos hcall (by rw [hstage]; rfl)
    have hlt : s.count Stage.gauge < 2 ^ 64 := Nat.lt_of_le_of_lt (count_le _) hlength
    rw [hcounts.gauge, UInt64.lt_iff_toNat_lt, UInt64.toNat_ofNat_of_lt' hlt]
    exact hpos
  case barred =>
    intro i c hcall htomb acts s' hrun j d hd hid
    obtain ⟨hs', htombstone⟩ := tombstone_stays hentries hcall htomb hrun
    cases hholds : d.stage.holds with
    | false => rfl
    | true =>
      have hown := hs'.own j d hd hholds
      rw [hid, htombstone] at hown
      cases hown

end

/-- One request does not retire; the next one under its id is refused. -/
def actsToTombstone : List Act :=
  [.arrive 5 true false, .enter 0, .engineStart 0 true, .advance 0, .advance 0, .advance 0,
    .arrive 5 false true, .delete 5, .finish 0 .retirementTimedOut, .advance 0, .advance 0,
    .advance 0, .enter 1]

set_option maxRecDepth 20000 in
theorem bookkeeping_tombstone : ∃ s, run Service.step {} actsToTombstone = some s ∧
    s.calls.map (·.stage) = [.done .retirementTimedOut, .refused] ∧ Bookkeeping s := by
  have hstages : (run Service.step {} actsToTombstone).map (·.calls.map (·.stage)) =
      some [.done .retirementTimedOut, .refused] := by
    decide
  obtain ⟨s, hrun, hs⟩ := Option.map_eq_some_iff.mp hstages
  exact ⟨s, hrun, hs, bookkeeping hrun⟩

end Qwen3Tts.Server
