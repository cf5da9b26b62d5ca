import Mathlib.Logic.Function.Basic
import Qwen3Tts.Lib.Machine
import Qwen3Tts.Server.Service

/-!
# Server — admission against shutdown

`ShutdownController`, the admission section of `start_prepared`, `cancel_request` and the loop
heads of the two workers in small steps: taking and giving back the admission lock, the flag
check, the child token, the map entry, `engine.start` and its return, and each token that
`CancellationToken::cancel` reaches are steps of their own. Any number of starts, `DELETE`
calls and calls of `ShutdownController::cancel` interleave at every point in between.

A token is known by the call it was made for. Of `CancellationToken`, which is not part of the
repository, two things are assumed and named: `childToken` and `ChildrenCancelled`. `cancel` on the
process-wide token reaches its children one by one, in any order and while their holders run on,
and itself last.
-/

namespace Qwen3Tts.Server.Admission

open Qwen3Tts.Lib

/-! ## The workers -/

/-- The worker of a response, of either kind. -/
inductive Worker where
  | streaming (worker : StreamingWorker)
  | buffered (worker : BufferedWorker)

/-- One turn of the loop: the worker goes on, or it ends with a completion. -/
def Worker.turn (job : Job) (t : Turn) : Worker → Worker ⊕ Completion
  | .streaming w =>
    match w.turn job t with
    | (w, true) => .inl (.streaming w)
    | (w, false) => .inr w.completion
  | .buffered w =>
    match w.turn job t with
    | .inl w => .inl (.buffered w)
    | .inr result => .inr result.1

/-- What `spawn_blocking` starts. -/
def Worker.spawn (streaming : Bool) (requestId : Uuid) (seed : Nat) : Worker :=
  if streaming then .streaming { sent := [.start requestId seed] } else .buffered {}

/-! ## `CancellationToken` -/

/-- Assumed of `child_token`: a child of a cancelled token is cancelled from the start. -/
def childToken (parent : Bool) : Bool := parent

/-- Assumed of `cancel`: where it returns, the children of the token that are made are cancelled. -/
def ChildrenCancelled (tokens : List (Option Bool)) : Prop := ∀ token ∈ tokens, token ≠ some false

instance (tokens : List (Option Bool)) : Decidable (ChildrenCancelled tokens) :=
  inferInstanceAs (Decidable (∀ token ∈ tokens, token ≠ some false))

/-! ## Calls -/

/-- Why a call of `start_prepared` ended without a worker; a panic of `engine.start` unwinds it. -/
inductive Refusal where
  | shuttingDown | inUse | engine | panicked
  deriving DecidableEq, Repr

/-- Where a call of `start_prepared`, with the worker it spawns, stands. -/
inductive Point where
  /-- In front of the admission lock. -/
  | arrived
  -- under the lock
  | locked | checked | tokened | inserted | calling | failed | removed | admitted
  /-- The lock is given back; `spawn_blocking` comes next, with no `await` in between. -/
  | unlocked
  /-- The worker at the head of its loop. -/
  | head (worker : Worker)
  /-- The worker in a turn, with what it saw of its token at the head. -/
  | turning (worker : Worker) (cancelled : Bool)
  /-- The worker ended and drops its guard. -/
  | finished (completion : Completion)
  | released (completion : Completion)
  | refused (why : Refusal)

/-- A call of `start` and its arguments. -/
structure Start where
  requestId : Uuid
  streaming : Bool
  seed : Nat
  /-- The child token, once it is made, and whether it is cancelled. -/
  token : Option Bool := none
  point : Point := .arrived

/-- The call's token is cancelled, if it is made. -/
def Start.cancelled (c : Start) : Start := { c with token := c.token.map fun _ => true }

/-- Where a call of `ShutdownController::cancel` stands. -/
inductive Cancel where
  | waiting | locked | cancelling | cancelled | returned
  deriving DecidableEq, Repr

/-- The call that holds the admission lock. -/
inductive Holder where
  | start (i : Nat)
  | cancel (j : Nat)
  deriving DecidableEq, Repr

/-- The gate with its calls: those of `start` and those of `cancel_all`. -/
structure Gate where
  /-- The map, by request id. -/
  active : Uuid → Option ActiveRequest := fun _ => none
  admission : Option Holder := none
  /-- The process-wide token. -/
  root : Bool := false
  starts : List Start := []
  cancels : List Cancel := []
  /-- The tokens that `DELETE` calls have found in the map and are about to cancel. -/
  deletes : List Nat := []
  /-- What the engine has seen: the calls that have called `engine.start`, and those for which it
  succeeded. -/
  engineCalls : List Nat := []
  engineStarted : List Nat := []

namespace Gate

def put (s : Gate) (i : Nat) (c : Start) (point : Point) : Gate :=
  { s with starts := s.starts.set i { c with point := point } }

/-- An error return drops the admission guard. -/
def refuse (s : Gate) (i : Nat) (c : Start) (why : Refusal) : Gate :=
  { s.put i c (.refused why) with admission := none }

def cancelToken (s : Gate) (i : Nat) : Gate :=
  { s with starts := s.starts.modify i .cancelled }

/-- The map section of `ActiveGuard::drop`. -/
def release (s : Gate) (c : Start) (completion : Completion) : Uuid → Option ActiveRequest :=
  if completion = .retirementTimedOut then
    if (s.active c.requestId).isSome then
      Function.update s.active c.requestId (some .retirementTimedOut)
    else s.active
  else Function.update s.active c.requestId none

/-- The next step of call `i` where nothing has to be chosen. -/
def advance (s : Gate) (i : Nat) (c : Start) : Option Gate :=
  match c.point with
  | .arrived =>
    if s.admission = none then some { s.put i c .locked with admission := some (.start i) }
    else none
  | .locked => some (if s.root then s.refuse i c .shuttingDown else s.put i c .checked)
  | .checked => some (s.put i { c with token := some (childToken s.root) } .tokened)
  | .tokened =>
    match s.active c.requestId with
    | some _ => some (s.refuse i c .inUse)
    | none => some { s.put i c .inserted with
        active := Function.update s.active c.requestId (some (.running i)) }
  | .inserted => some { s.put i c .calling with engineCalls := s.engineCalls ++ [i] }
  | .failed =>
    some { s.put i c .removed with active := Function.update s.active c.requestId none }
  | .removed => some (s.refuse i c .engine)
  | .admitted => some { s.put i c .unlocked with admission := none }
  | .unlocked => some (s.put i c (.head (.spawn c.streaming c.requestId c.seed)))
  | .head w => some (s.put i c (.turning w (c.token = some true)))
  | .finished completion =>
    some { s.put i c (.released completion) with active := s.release c completion }
  | _ => none

/-- `engine.start` returns, or panics (`none`): then the entry stays in the map. -/
def engineReturns (s : Gate) (i : Nat) (c : Start) (answer : Option Bool) : Option Gate :=
  match c.point with
  | .calling =>
    match answer with
    | some true => some { s.put i c .admitted with engineStarted := s.engineStarted ++ [i] }
    | some false => some (s.put i c .failed)
    | none => some (s.refuse i c .panicked)
  | _ => none

/-- The worker of call `i` makes the turn it is in; `none` is a panic, which drops the guard. -/
def turn (s : Gate) (i : Nat) (c : Start) (answer : Option (Job × Turn)) : Option Gate :=
  match c.point with
  | .turning w cancelled =>
    match answer with
    | none => some (s.put i c (.finished .pending))
    | some (job, t) =>
      match w.turn { job with requestId := c.requestId } { t with cancelled := cancelled } with
      | .inl w => some (s.put i c (.head w))
      | .inr completion => some (s.put i c (.finished completion))
  | _ => none

def putCancel (s : Gate) (j : Nat) (point : Cancel) : Gate :=
  { s with cancels := s.cancels.set j point }

/-- The next step of `ShutdownController::cancel`. -/
def shutdownStep (s : Gate) (j : Nat) : Cancel → Option Gate
  | .waiting =>
    if s.admission = none then
      some { s.putCancel j .locked with admission := some (.cancel j) }
    else none
  | .locked => some (s.putCancel j (if s.root then .cancelled else .cancelling))
  | .cancelling =>
    if ChildrenCancelled (s.starts.map (·.token)) then
      some { s.putCancel j .cancelled with root := true }
    else none
  | .cancelled => some { s.putCancel j .returned with admission := none }
  | .returned => none

/-- The process-wide token's `cancel` reaches the token of call `i`. -/
def reachChild (s : Gate) (i : Nat) : Cancel → Option Gate
  | .cancelling => some (s.cancelToken i)
  | _ => none

end Gate

inductive Act where
  | arrive (requestId : Uuid) (streaming : Bool) (seed : Nat)
  | advance (i : Nat)
  | engineReturns (i : Nat) (answer : Option Bool)
  | turn (i : Nat) (answer : Option (Job × Turn))
  /-- The response body or the response future of call `i` is dropped. -/
  | dropResponse (i : Nat)
  /-- `cancel_request` looks into the map; a running request's token is cancelled next. -/
  | delete (requestId : Uuid)
  | deleteCancel (k : Nat)
  | shutdown
  | shutdownStep (j : Nat)
  | reachChild (j i : Nat)

/-- One step of one call, or of the engine. -/
def Gate.step (s : Gate) : Act → Option Gate
  | .arrive requestId streaming seed =>
    some { s with starts := s.starts ++ [{ requestId, streaming, seed }] }
  | .advance i => s.starts[i]?.bind (s.advance i)
  | .engineReturns i answer => s.starts[i]?.bind (s.engineReturns i · answer)
  | .turn i answer => s.starts[i]?.bind (s.turn i · answer)
  | .dropResponse i => some (s.cancelToken i)
  | .delete requestId =>
    match s.active requestId with
    | some (.running token) => some { s with deletes := s.deletes ++ [token] }
    | _ => some s
  | .deleteCancel k => s.deletes[k]?.map s.cancelToken
  | .shutdown => some { s with cancels := s.cancels ++ [.waiting] }
  | .shutdownStep j => s.cancels[j]?.bind (s.shutdownStep j)
  | .reachChild j i => s.cancels[j]?.bind (s.reachChild i)

/-- The call whose step an action is. -/
def Act.caller : Act → Option Nat
  | .advance i => some i
  | .engineReturns i _ => some i
  | .turn i _ => some i
  | _ => none

/-! ## What the points mean -/

namespace Point

/-- The call holds the admission lock. -/
@[simp] def holds : Point → Bool
  | .locked | .checked | .tokened | .inserted | .calling | .failed | .removed | .admitted => true
  | _ => false

/-- The call holds the lock and is past the flag check. -/
@[simp] def admitting : Point → Bool
  | .checked | .tokened | .inserted | .calling | .failed | .removed | .admitted => true
  | _ => false

/-- The call needs its token. -/
@[simp] def tokenMade : Point → Bool
  | .arrived | .locked | .checked | .refused _ => false
  | _ => true

/-- `engine.start` succeeded. -/
@[simp] def started : Point → Bool
  | .admitted | .unlocked | .head _ | .turning _ _ | .finished _ | .released _ => true
  | _ => false

/-- The call is past the flag check, or refused by something else. -/
@[simp] def pastCheck : Point → Bool
  | .arrived | .locked | .refused .shuttingDown => false
  | _ => true

end Point

@[simp] def Cancel.holds : Cancel → Bool
  | .locked | .cancelling | .cancelled => true
  | _ => false

/-- The process-wide token is cancelled. -/
@[simp] def Cancel.over : Cancel → Bool
  | .cancelled | .returned => true
  | _ => false

/-! ## What one step of a call does -/

/-- The admission lock over a step of call `i`. -/
inductive LockMove (i : Nat) : Bool → Bool → Option Holder → Option Holder → Prop
  | keep (b : Bool) (h : Option Holder) : LockMove i b b h h
  | take : LockMove i false true none (some (.start i))
  | give (h : Option Holder) : LockMove i true false h none

/-- The points before and after a step of a call, when the process-wide token is `root`. -/
structure PointMove (p p' : Point) (root : Bool) : Prop where
  checked : p'.admitting = true → p.admitting = true ∨ root = false
  started : p.started = true → p'.started = true
  past : p.pastCheck = true → p'.pastCheck = true

/-- A step of call `i` that turns `c` into `c'`. -/
structure CallStep (s s' : Gate) (i : Nat) (c c' : Start) : Prop where
  starts : s'.starts = s.starts.set i c'
  cancels : s'.cancels = s.cancels
  root : s'.root = s.root
  lock : LockMove i c.point.holds c'.point.holds s.admission s'.admission
  move : PointMove c.point c'.point s.root
  token : c'.token = c.token ∧ (c'.point.tokenMade = true → c.point.tokenMade = true) ∨
    c'.token = some s.root
  calls : s'.engineCalls = s.engineCalls ∨ c.point.admitting = true
  started : s'.engineStarted = s.engineStarted ∨
    s'.engineStarted = s.engineStarted ++ [i] ∧ c.point.admitting = true ∧
      c'.point.started = true
  touched : c'.point.pastCheck = false →
    s'.active = s.active ∧ s'.engineCalls = s.engineCalls ∧ s'.engineStarted = s.engineStarted

section
variable {s s' : Gate} {i : Nat} {c : Start}

/-- The step that puts call `i` at `p` and changes nothing else. -/
theorem callStep_put {p : Point} (hlock : c.point.holds = p.holds)
    (hmove : PointMove c.point p s.root)
    (htoken : p.tokenMade = true → c.point.tokenMade = true) :
    CallStep s (s.put i c p) i c { c with point := p } where
  starts := rfl
  cancels := rfl
  root := rfl
  lock := hlock ▸ .keep c.point.holds s.admission
  move := hmove
  token := .inl ⟨rfl, htoken⟩
  calls := .inl rfl
  started := .inl rfl
  touched := fun _ => ⟨rfl, rfl, rfl⟩

/-- An error return from under the lock. -/
theorem callStep_refuse {why : Refusal} (hlock : c.point.holds = true)
    (hstarted : c.point.started = false)
    (hpast : c.point.pastCheck = true → (Point.refused why).pastCheck = true) :
    CallStep s (s.refuse i c why) i c { c with point := .refused why } where
  starts := rfl
  cancels := rfl
  root := rfl
  lock := by
    rw [hlock]
    exact .give s.admission
  move := ⟨by simp, fun h => absurd (hstarted.symm.trans h) (by decide), hpast⟩
  token := .inl ⟨rfl, by simp⟩
  calls := .inl rfl
  started := .inl rfl
  touched := fun _ => ⟨rfl, rfl, rfl⟩

/-- A step of `start` by itself. -/
theorem callStep_advance (h : s.advance i c = some s') : ∃ c', CallStep s s' i c c' := by
  unfold Gate.advance at h
  split at h
  case h_1 hp =>
    -- the lock is taken
    split at h
    case isTrue hfree =>
      cases h
      refine ⟨{ c with point := .locked }, rfl, rfl, rfl, ?_, ?_, ?_, .inl rfl, .inl rfl, ?_⟩
      · rw [hfree, hp]
        exact .take
      · exact ⟨by simp, by simp [hp], by simp [hp]⟩
      · exact .inl ⟨rfl, by simp⟩
      · exact fun _ => ⟨rfl, rfl, rfl⟩
    case isFalse => cases h
  case h_2 hp =>
    -- the flag check
    cases h
    split
    case isTrue => exact ⟨_, callStep_refuse (by simp [hp]) (by simp [hp]) (by simp [hp])⟩
    case isFalse hopen =>
      exact ⟨_, callStep_put (by simp [hp]) ⟨fun _ => .inr (by simpa using hopen), by simp [hp], by simp⟩
        (by simp)⟩
  case h_3 hp =>
    -- the child token
    cases h
    refine ⟨{ c with token := some s.root, point := .tokened }, rfl, rfl, rfl, ?_, ?_, .inr rfl,
      .inl rfl, .inl rfl, by simp⟩
    · rw [hp]
      exact .keep true s.admission
    · exact ⟨by simp [hp], by simp [hp], by simp⟩
  case h_4 hp =>
    -- the entry in the map
    split at h
    case h_1 => 
      cases h
      exact ⟨_, callStep_refuse (by simp [hp]) (by simp [hp]) (by simp)⟩
    case h_2 =>
      cases h
      have hput : CallStep s (s.put i c .inserted) i c { c with point := .inserted } :=
        callStep_put (by simp [hp]) ⟨by simp [hp], by simp [hp], by simp⟩ (by simp [hp])
      exact ⟨_, { hput with touched := by simp }⟩
  case h_5 hp =>
    cases h
    have hput : CallStep s (s.put i c .calling) i c { c with point := .calling } :=
      callStep_put (by simp [hp]) ⟨by simp [hp], by simp [hp], by simp⟩ (by simp [hp])
    exact ⟨_, { hput with calls := .inr (by simp [hp]), touched := by simp }⟩
  case h_6 hp =>
    cases h
    have hput : CallStep s (s.put i c .removed) i c { c with point := .removed } :=
      callStep_put (by simp [hp]) ⟨by simp [hp], by simp [hp], by simp⟩ (by simp [hp])
    exact ⟨_, { hput with touched := by simp }⟩
  case h_7 hp =>
    cases h
    exact ⟨_, callStep_refuse (by simp [hp]) (by simp [hp]) (by simp)⟩
  case h_8 hp =>
    -- the lock is given back
    cases h
    refine ⟨{ c with point := .unlocked }, rfl, rfl, rfl, ?_, ?_, .inl ⟨rfl, by simp [hp]⟩,
      .inl rfl, .inl rfl, fun _ => ⟨rfl, rfl, rfl⟩⟩
    · rw [hp]
      exact .give s.admission
    · exact ⟨by simp, by simp, by simp⟩
  case h_9 hp =>
    cases h
    exact ⟨_, callStep_put (by simp [hp]) ⟨by simp, by simp, by simp⟩ (by simp [hp])⟩
  case h_10 w hp =>
    cases h
    exact ⟨_, callStep_put (by simp [hp]) ⟨by simp, by simp, by simp⟩ (by simp [hp])⟩
  case h_11 completion hp =>
    -- the guard's map section
    cases h
    have hput : CallStep s (s.put i c (.released completion)) i c
        { c with point := .released completion } :=
      callStep_put (by simp [hp]) ⟨by simp, by simp, by simp⟩ (by simp [hp])
    exact ⟨_, { hput with touched := by simp }⟩
  case h_12 => cases h

/-- The return of `engine.start`. -/
theorem callStep_engineReturns {answer : Option Bool} (h : s.engineReturns i c answer = some s') :
    ∃ c', CallStep s s' i c c' := by
  unfold Gate.engineReturns at h
  split at h
  case h_1 hp =>
    split at h
    -- the engine started the request, refused it, or panicked
    case h_1 =>
      cases h
      have hput : CallStep s (s.put i c .admitted) i c { c with point := .admitted } :=
        callStep_put (by simp [hp]) ⟨by simp [hp], by simp, by simp⟩ (by simp [hp])
      exact ⟨_, { hput with started := .inr ⟨rfl, by simp [hp], rfl⟩, touched := by simp }⟩
    case h_2 =>
      cases h
      exact ⟨_, callStep_put (by simp [hp]) ⟨by simp [hp], by simp [hp], by simp⟩ (by simp [hp])⟩
    case h_3 =>
      cases h
      exact ⟨_, callStep_refuse (by simp [hp]) (by simp [hp]) (by simp)⟩
  case h_2 => cases h

/-- A turn of the worker. -/
theorem callStep_turn {answer : Option (Job × Turn)} (h : s.turn i c answer = some s') :
    ∃ c', CallStep s s' i c c' := by
  unfold Gate.turn at h
  split at h
  case h_1 w cancelled hp =>
    -- wherever the turn leads to, the worker keeps serving the call
    split at h
    case h_1 =>
      cases h
      exact ⟨_, callStep_put (by simp [hp]) ⟨by simp, by simp, by simp⟩ (by simp [hp])⟩
    case h_2 =>
      split at h
      case h_1 =>
        cases h
        exact ⟨_, callStep_put (by simp [hp]) ⟨by simp, by simp, by simp⟩ (by simp [hp])⟩
      case h_2 =>
        cases h
        exact ⟨_, callStep_put (by simp [hp]) ⟨by simp, by simp, by simp⟩ (by simp [hp])⟩
  case h_2 => cases h

/-- A step of a call, whatever the step is. -/
theorem callStep {a : Act} (h : s.step a = some s') (ha : a.caller = some i) :
    ∃ c c', s.starts[i]? = some c ∧ CallStep s s' i c c' := by
  cases a with
  | advance k =>
    cases ha
    obtain ⟨c, hc, hstep⟩ := Option.bind_eq_some_iff.mp h
    exact ⟨c, (callStep_advance hstep).imp fun _ hc' => ⟨hc, hc'⟩⟩
  | engineReturns k answer =>
    cases ha
    obtain ⟨c, hc, hstep⟩ := Option.bind_eq_some_iff.mp h
    exact ⟨c, (callStep_engineReturns hstep).imp fun _ hc' => ⟨hc, hc'⟩⟩
  | turn k answer =>
    cases ha
    obtain ⟨c, hc, hstep⟩ := Option.bind_eq_some_iff.mp h
    exact ⟨c, (callStep_turn hstep).imp fun _ hc' => ⟨hc, hc'⟩⟩
  | arrive => cases ha
  | dropResponse => cases ha
  | delete => cases ha
  | deleteCancel => cases ha
  | shutdown => cases ha
  | shutdownStep => cases ha
  | reachChild => cases ha

end

/-! ## The invariant -/

/-- What holds in every state: at most one holder of the lock, nobody past the flag check once the
process-wide token is cancelled, and then no token that is not. -/
structure Sound (s : Gate) : Prop where
  startHolds : ∀ (i : Nat) (c : Start), s.starts[i]? = some c → c.point.holds = true →
    s.admission = some (.start i)
  cancelHolds : ∀ (j : Nat) (p : Cancel), s.cancels[j]? = some p → p.holds = true →
    s.admission = some (.cancel j)
  checked : ∀ (i : Nat) (c : Start), s.starts[i]? = some c → c.point.admitting = true →
    s.root = false
  reached : s.root = true → ∀ (i : Nat) (c : Start), s.starts[i]? = some c → c.token ≠ some false
  made : ∀ (i : Nat) (c : Start), s.starts[i]? = some c → c.point.tokenMade = true →
    c.token ≠ none
  overRoot : ∀ (j : Nat) (p : Cancel), s.cancels[j]? = some p → p.over = true → s.root = true
  started : ∀ i ∈ s.engineStarted, ∃ c, s.starts[i]? = some c ∧ c.point.started = true

theorem sound_init : Sound {} where
  startHolds := by simp
  cancelHolds := by simp
  checked := by simp
  reached := by simp
  made := by simp
  overRoot := by simp
  started := by simp

section
variable {s s' : Gate} {i : Nat} {c c' : Start}

/-- The entry of the call after its step. -/
theorem CallStep.self (h : CallStep s s' i c c') (hc : s.starts[i]? = some c) :
    s'.starts[i]? = some c' := by
  rw [h.starts, List.getElem?_set_self (List.getElem?_eq_some_iff.mp hc).1]

/-- The step changes no other entry. -/
theorem CallStep.other (h : CallStep s s' i c c') {k : Nat} (hk : k ≠ i) :
    s'.starts[k]? = s.starts[k]? := by
  rw [h.starts, List.getElem?_set_ne (Ne.symm hk)]

/-- A call behind a step of call `i` is the changed one, or was there before. -/
theorem CallStep.entry (h : CallStep s s' i c c') (hc : s.starts[i]? = some c) {k : Nat}
    {d : Start} (hd : s'.starts[k]? = some d) : k = i ∧ d = c' ∨ k ≠ i ∧ s.starts[k]? = some d := by
  by_cases hk : k = i
  · subst hk
    rw [h.self hc] at hd
    cases hd
    exact .inl ⟨rfl, rfl⟩
  · exact .inr ⟨hk, by rw [← h.other hk]; exact hd⟩

/-- A call that holds the lock behind its step is the holder. -/
theorem LockMove.own {b b' : Bool} {l l' : Option Holder} (h : LockMove i b b' l l')
    (hb : b = true → l = some (.start i)) (hb' : b' = true) : l' = some (.start i) := by
  cases h with
  | keep => exact hb hb'
  | take => rfl
  | give => cases hb'

/-- A step of call `i` takes the lock from nobody else. -/
theorem LockMove.frame {b b' : Bool} {l l' : Option Holder} (h : LockMove i b b' l l')
    (hb : b = true → l = some (.start i)) {x : Holder} (hx : x ≠ .start i) (hl : l = some x) :
    l' = some x := by
  cases h with
  | keep => exact hl
  | take => cases hl
  | give =>
    rw [hb rfl] at hl
    exact absurd (Option.some.inj hl).symm hx

/-- A step of a call of `start` keeps the invariant. -/
theorem Sound.callStep (hs : Sound s) (hc : s.starts[i]? = some c) (h : CallStep s s' i c c') :
    Sound s' where
  startHolds k d hd hholds := by
    -- each clause asks about one entry: that of the call, or another one
    rcases h.entry hc hd with ⟨rfl, rfl⟩ | ⟨hk, hd⟩
    · exact h.lock.own (hs.startHolds k c hc) hholds
    · exact h.lock.frame (hs.startHolds i c hc) (fun heq => hk (Holder.start.inj heq))
        (hs.startHolds k d hd hholds)
  cancelHolds j p hp hholds := by
    rw [h.cancels] at hp
    exact h.lock.frame (hs.startHolds i c hc) (fun heq => by cases heq)
      (hs.cancelHolds j p hp hholds)
  checked k d hd hadmitting := by
    rw [h.root]
    rcases h.entry hc hd with ⟨rfl, rfl⟩ | ⟨-, hd⟩
    · exact (h.move.checked hadmitting).elim (hs.checked k c hc) id
    · exact hs.checked k d hd hadmitting
  reached hroot k d hd := by
    rw [h.root] at hroot
    rcases h.entry hc hd with ⟨rfl, rfl⟩ | ⟨-, hd⟩
    · rcases h.token with ⟨htoken, -⟩ | htoken
      · rw [htoken]
        exact hs.reached hroot k c hc
      · rw [htoken, hroot]
        decide
    · exact hs.reached hroot k d hd
  made k d hd hmade := by
    rcases h.entry hc hd with ⟨rfl, rfl⟩ | ⟨-, hd⟩
    · rcases h.token with ⟨htoken, hbefore⟩ | htoken
      · rw [htoken]
        exact hs.made k c hc (hbefore hmade)
      · rw [htoken]
        simp
    · exact hs.made k d hd hmade
  overRoot j p hp hover := by
    rw [h.cancels] at hp
    rw [h.root]
    exact hs.overRoot j p hp hover
  started k hk := by
    -- a request is started only by its own call
    by_cases hki : k = i
    · subst hki
      refine ⟨c', h.self hc, ?_⟩
      rcases h.started with hsame | ⟨-, -, hnew⟩
      · rw [hsame] at hk
        obtain ⟨d, hd, hstarted⟩ := hs.started k hk
        rw [hc] at hd
        cases hd
        exact h.move.started hstarted
      · exact hnew
    · have hold : k ∈ s.engineStarted := by
        rcases h.started with hsame | ⟨hnew, -⟩
        · exact hsame ▸ hk
        · rw [hnew] at hk
          simpa [hki] using hk
      rw [h.other hki]
      exact hs.started k hold

/-! ## The other steps -/

/-- Cancelling one token changes at most that entry. -/
theorem cancelToken_get {k : Nat} {d : Start} (hd : (s.cancelToken i).starts[k]? = some d) :
    ∃ c, s.starts[k]? = some c ∧ (d = c ∨ d = c.cancelled) := by
  rw [show (s.cancelToken i).starts = s.starts.modify i .cancelled from rfl,
    List.getElem?_modify] at hd
  obtain ⟨c, hc, rfl⟩ := Option.map_eq_some_iff.mp hd
  refine ⟨c, hc, ?_⟩
  split
  · exact .inr rfl
  · exact .inl rfl

/-- No entry moves when a token is cancelled, and no token is uncancelled. -/
theorem get_cancelToken {k : Nat} (hc : s.starts[k]? = some c) :
    ∃ d, (s.cancelToken i).starts[k]? = some d ∧ d.point = c.point ∧
      (c.token = some true → d.token = some true) := by
  rw [show (s.cancelToken i).starts = s.starts.modify i .cancelled from rfl,
    List.getElem?_modify, hc]
  refine ⟨_, rfl, ?_, ?_⟩
  · show (if i = k then c.cancelled else c).point = c.point
    split <;> rfl
  · intro htoken
    show (if i = k then c.cancelled else c).token = some true
    split
    · show c.token.map (fun _ => true) = some true
      rw [htoken]
      rfl
    · exact htoken

/-- `CancellationToken::cancel` on the token of a call. -/
theorem Sound.cancelToken (hs : Sound s) : Sound (s.cancelToken i) where
  startHolds k d hd hholds := by
    obtain ⟨c, hc, rfl | rfl⟩ := cancelToken_get hd
    · exact hs.startHolds k _ hc hholds
    · exact hs.startHolds k c hc hholds
  cancelHolds := hs.cancelHolds
  checked k d hd hadmitting := by
    obtain ⟨c, hc, rfl | rfl⟩ := cancelToken_get hd
    · exact hs.checked k _ hc hadmitting
    · exact hs.checked k c hc hadmitting
  reached hroot k d hd := by
    obtain ⟨c, hc, rfl | rfl⟩ := cancelToken_get hd
    · exact hs.reached hroot k _ hc
    · show c.token.map (fun _ => true) ≠ some false
      cases c.token with
      | none => decide
      | some b => simp
  made k d hd hmade := by
    obtain ⟨c, hc, rfl | rfl⟩ := cancelToken_get hd
    · exact hs.made k _ hc hmade
    · have htoken := hs.made k c hc hmade
      show c.token.map (fun _ => true) ≠ none
      simpa using htoken
  overRoot := hs.overRoot
  started k hk := by
    obtain ⟨c, hc, hstarted⟩ := hs.started k hk
    obtain ⟨d, hd, hpoint, -⟩ := get_cancelToken (i := i) hc
    exact ⟨d, hd, by rw [hpoint]; exact hstarted⟩

theorem getElem?_concat {α : Type*} {l : List α} {x y : α} {k : Nat}
    (h : (l ++ [x])[k]? = some y) : l[k]? = some y ∨ k = l.length ∧ y = x := by
  rw [List.getElem?_append] at h
  split at h
  · exact .inl h
  · have hk : k - l.length = 0 := by
      have hlt := (List.getElem?_eq_some_iff.mp h).1
      simpa using hlt
    rw [hk] at h
    exact .inr ⟨by omega, by simpa using h.symm⟩

/-- A new call has neither a token nor the lock. -/
theorem Sound.arrive (hs : Sound s) (requestId : Uuid) (streaming : Bool) (seed : Nat) :
    Sound { s with starts := s.starts ++ [{ requestId, streaming, seed }] } where
  startHolds k d hd hholds := by
    rcases getElem?_concat hd with hd | ⟨-, rfl⟩
    · exact hs.startHolds k d hd hholds
    · cases hholds
  cancelHolds := hs.cancelHolds
  checked k d hd hadmitting := by
    rcases getElem?_concat hd with hd | ⟨-, rfl⟩
    · exact hs.checked k d hd hadmitting
    · cases hadmitting
  reached hroot k d hd := by
    rcases getElem?_concat hd with hd | ⟨-, rfl⟩
    · exact hs.reached hroot k d hd
    · simp
  made k d hd hmade := by
    rcases getElem?_concat hd with hd | ⟨-, rfl⟩
    · exact hs.made k d hd hmade
    · cases hmade
  overRoot := hs.overRoot
  started k hk := by
    obtain ⟨c, hc, hstarted⟩ := hs.started k hk
    exact ⟨c, by rw [List.getElem?_append_left (List.getElem?_eq_some_iff.mp hc).1]; exact hc,
      hstarted⟩

/-- A new call of `cancel_all` waits for the lock. -/
theorem Sound.shutdown (hs : Sound s) : Sound { s with cancels := s.cancels ++ [.waiting] } where
  startHolds := hs.startHolds
  cancelHolds j p hp hholds := by
    rcases getElem?_concat hp with hp | ⟨-, rfl⟩
    · exact hs.cancelHolds j p hp hholds
    · cases hholds
  checked := hs.checked
  reached := hs.reached
  made := hs.made
  overRoot j p hp hover := by
    rcases getElem?_concat hp with hp | ⟨-, rfl⟩
    · exact hs.overRoot j p hp hover
    · cases hover
  started := hs.started

theorem getElem?_put {α : Type*} {l : List α} {x y : α} {j k : Nat}
    (h : (l.set j x)[k]? = some y) : k = j ∧ y = x ∨ k ≠ j ∧ l[k]? = some y := by
  by_cases hk : j = k
  · subst hk
    rw [List.getElem?_set_self'] at h
    obtain ⟨-, -, rfl⟩ := Option.map_eq_some_iff.mp h
    exact .inl ⟨rfl, rfl⟩
  · rw [List.getElem?_set_ne hk] at h
    exact .inr ⟨Ne.symm hk, h⟩

theorem Point.holds_of_admitting {p : Point} (h : p.admitting = true) : p.holds = true := by
  cases p <;> first | rfl | cases h

/-- Call `j` of `cancel` goes to `p` and leaves the lock at `lock` and the token at `root`, while
nobody else holds the lock. -/
theorem Sound.cancelStep (hs : Sound s) {j : Nat} {p : Cancel} {lock : Option Holder} {root : Bool}
    (hstarts : ∀ i, s.admission ≠ some (.start i))
    (hcancels : ∀ k ≠ j, s.admission ≠ some (.cancel k))
    (hlock : p.holds = true → lock = some (.cancel j))
    (hover : p.over = true ∨ s.root = true → root = true)
    (hreached : root = true → s.root = true ∨ ∀ c ∈ s.starts, c.token ≠ some false) :
    Sound { s with cancels := s.cancels.set j p, admission := lock, root := root } where
  -- no call of `start` holds the lock
  startHolds k d hd hholds := absurd (hs.startHolds k d hd hholds) (hstarts k)
  cancelHolds k q hq hholds := by
    rcases getElem?_put hq with ⟨rfl, rfl⟩ | ⟨hk, hq⟩
    · exact hlock hholds
    · exact absurd (hs.cancelHolds k q hq hholds) (hcancels k hk)
  checked k d hd hadmitting :=
    absurd (hs.startHolds k d hd (Point.holds_of_admitting hadmitting)) (hstarts k)
  reached hroot k d hd := by
    rcases hreached hroot with hbefore | hall
    · exact hs.reached hbefore k d hd
    · exact hall d (List.mem_of_getElem? hd)
  made := hs.made
  overRoot k q hq hqover := by
    rcases getElem?_put hq with ⟨-, rfl⟩ | ⟨-, hq⟩
    · exact hover (.inl hqover)
    · exact hover (.inr (hs.overRoot k q hq hqover))
  started := hs.started

/-- A step of `cancel_all` keeps the invariant. -/
theorem Sound.shutdownStep (hs : Sound s) {j : Nat} {p : Cancel} (hp : s.cancels[j]? = some p)
    (h : s.shutdownStep j p = some s') : Sound s' := by
  -- whichever step it is, the lock is free or held by this very call
  have hstep : ∀ {q : Cancel} {lock : Option Holder} {root : Bool},
      (s.admission = none ∨ p.holds = true) → (q.holds = true → lock = some (.cancel j)) →
      (q.over = true ∨ s.root = true → root = true) →
      (root = true → s.root = true ∨ ∀ c ∈ s.starts, c.token ≠ some false) →
      Sound { s with cancels := s.cancels.set j q, admission := lock, root := root } := by
    intro q lock root hfree hlock hover hreached
    have hadmission : s.admission = none ∨ s.admission = some (.cancel j) :=
      hfree.imp id (hs.cancelHolds j p hp)
    refine hs.cancelStep (fun i hi => ?_) (fun k hk hi => ?_) hlock hover hreached
    · rcases hadmission with hnone | hsome
      · rw [hnone] at hi
        cases hi
      · rw [hsome] at hi
        cases hi
    · rcases hadmission with hnone | hsome
      · rw [hnone] at hi
        cases hi
      · rw [hsome] at hi
        cases hi
        exact hk rfl
  cases p with
  | waiting =>
    simp only [Gate.shutdownStep] at h
    split at h
    case isTrue hfree =>
      cases h
      exact hstep (.inl hfree) (fun _ => rfl) (fun hroot => hroot.elim (fun h => by cases h) id) .inl
    case isFalse => cases h
  | locked =>
    cases h
    show Sound { s with cancels := s.cancels.set j _, admission := s.admission, root := s.root }
    refine hstep (.inr rfl) (fun _ => hs.cancelHolds j _ hp rfl) ?_ .inl
    split
    case isTrue hroot => exact fun _ => hroot
    case isFalse => exact fun hroot => by simpa using hroot
  | cancelling =>
    simp only [Gate.shutdownStep] at h
    split at h
    case isTrue hall =>
      cases h
      refine hstep (.inr rfl) (fun _ => hs.cancelHolds j _ hp rfl) (fun _ => rfl) fun _ => .inr ?_
      exact fun c hc => hall c.token (List.mem_map_of_mem hc)
    case isFalse => cases h
  | cancelled =>
    cases h
    have hroot := hs.overRoot j _ hp rfl
    exact hstep (.inr rfl) (fun hholds => by cases hholds) (fun _ => hroot) .inl
  | returned => cases h

/-- **The invariant.** Every step keeps it. -/
theorem sound_step {a : Act} (hs : Sound s) (h : s.step a = some s') : Sound s' := by
  -- a step belongs to a call of `start`, or to somebody else
  cases hcaller : a.caller with
  | some i =>
    obtain ⟨c, c', hc, hstep⟩ := callStep h hcaller
    exact hs.callStep hc hstep
  | none =>
    cases a with
    | arrive requestId streaming seed =>
      cases h
      exact hs.arrive requestId streaming seed
    | dropResponse i =>
      cases h
      exact hs.cancelToken
    | delete requestId =>
      simp only [Gate.step] at h
      split at h
      · cases h
        exact { hs with }
      · cases h
        exact hs
    | deleteCancel k =>
      obtain ⟨i, -, rfl⟩ := Option.map_eq_some_iff.mp h
      exact hs.cancelToken
    | shutdown =>
      cases h
      exact hs.shutdown
    | shutdownStep j =>
      obtain ⟨p, hp, hstep⟩ := Option.bind_eq_some_iff.mp h
      exact hs.shutdownStep hp hstep
    | reachChild j i =>
      obtain ⟨p, -, hstep⟩ := Option.bind_eq_some_iff.mp h
      cases p with
      | cancelling =>
        cases hstep
        exact hs.cancelToken
      | waiting => cases hstep
      | locked => cases hstep
      | cancelled => cases hstep
      | returned => cases hstep
    | advance => cases hcaller
    | engineReturns => cases hcaller
    | turn => cases hcaller

/-- The invariant holds after every run. -/
theorem sound_run {as : List Act} (hs : Sound s) (h : run Gate.step s as = some s') : Sound s' :=
  invariant_of_step (P := fun _ _ => True) (fun _ _ _ hI _ hstep => sound_step hI hstep) hs
    (along_trivial (fun _ _ => trivial) s as) h

/-! ## Later states -/

/-- `cancel` changes the lock and the process-wide token, which stays cancelled. -/
theorem shutdownStep_keeps {j : Nat} {p : Cancel} (h : s.shutdownStep j p = some s') :
    s'.starts = s.starts ∧ (s.root = true → s'.root = true) ∧ s'.engineCalls = s.engineCalls ∧
      s'.engineStarted = s.engineStarted := by
  cases p with
  | waiting =>
    simp only [Gate.shutdownStep] at h
    split at h
    · cases h
      exact ⟨rfl, id, rfl, rfl⟩
    · cases h
  | locked =>
    cases h
    exact ⟨rfl, id, rfl, rfl⟩
  | cancelling =>
    simp only [Gate.shutdownStep] at h
    split at h
    · cases h
      exact ⟨rfl, fun _ => rfl, rfl, rfl⟩
    · cases h
  | cancelled =>
    cases h
    exact ⟨rfl, id, rfl, rfl⟩
  | returned => cases h

/-- What a step that is no call's own does to the calls. -/
theorem foreign_step {a : Act} (h : s.step a = some s') (ha : a.caller = none) :
    ((s.root = true → s'.root = true) ∧ s'.engineCalls = s.engineCalls ∧
      s'.engineStarted = s.engineStarted) ∧
    ∀ (i : Nat) (c : Start), s.starts[i]? = some c →
      ∃ d : Start, s'.starts[i]? = some d ∧ d.point = c.point := by
  -- cancelling a token moves no call
  have htoken : ∀ (k i : Nat) (c : Start), s.starts[i]? = some c →
      ∃ d : Start, (s.cancelToken k).starts[i]? = some d ∧ d.point = c.point := fun k i c hc =>
    (get_cancelToken (i := k) hc).imp fun _ hd => ⟨hd.1, hd.2.1⟩
  cases a with
  | arrive requestId streaming seed =>
    cases h
    refine ⟨⟨id, rfl, rfl⟩, fun i c hc => ⟨c, ?_, rfl⟩⟩
    show (s.starts ++ [_])[i]? = some c
    rw [List.getElem?_append_left (List.getElem?_eq_some_iff.mp hc).1]
    exact hc
  | dropResponse k =>
    cases h
    exact ⟨⟨id, rfl, rfl⟩, htoken k⟩
  | delete requestId =>
    simp only [Gate.step] at h
    split at h
    · cases h
      exact ⟨⟨id, rfl, rfl⟩, fun i c hc => ⟨c, hc, rfl⟩⟩
    · cases h
      exact ⟨⟨id, rfl, rfl⟩, fun i c hc => ⟨c, hc, rfl⟩⟩
  | deleteCancel k =>
    obtain ⟨k, -, rfl⟩ := Option.map_eq_some_iff.mp h
    exact ⟨⟨id, rfl, rfl⟩, htoken k⟩
  | shutdown =>
    cases h
    exact ⟨⟨id, rfl, rfl⟩, fun i c hc => ⟨c, hc, rfl⟩⟩
  | shutdownStep j =>
    obtain ⟨p, -, hstep⟩ := Option.bind_eq_some_iff.mp h
    obtain ⟨hstarts, hlogs⟩ := shutdownStep_keeps hstep
    exact ⟨hlogs, fun i c hc => ⟨c, by rw [hstarts]; exact hc, rfl⟩⟩
  | reachChild j k =>
    obtain ⟨p, -, hstep⟩ := Option.bind_eq_some_iff.mp h
    cases p with
    | cancelling =>
      cases hstep
      exact ⟨⟨id, rfl, rfl⟩, htoken k⟩
    | waiting => cases hstep
    | locked => cases hstep
    | cancelled => cases hstep
    | returned => cases hstep
  | advance => cases ha
  | engineReturns => cases ha
  | turn => cases ha

/-- Once the process-wide token is cancelled, nobody is past the flag check, so no step reaches
the engine. -/
theorem closed_step {a : Act} (hs : Sound s) (hroot : s.root = true) (h : s.step a = some s') :
    s'.root = true ∧ s'.engineCalls = s.engineCalls ∧ s'.engineStarted = s.engineStarted := by
  cases hcaller : a.caller with
  | none =>
    obtain ⟨⟨hkeeps, hlogs⟩, -⟩ := foreign_step h hcaller
    exact ⟨hkeeps hroot, hlogs⟩
  | some i =>
    obtain ⟨c, c', hc, hstep⟩ := callStep h hcaller
    have hnot : c.point.admitting ≠ true := fun hadmitting => by
      have hopen := hs.checked i c hc hadmitting
      rw [hroot] at hopen
      cases hopen
    refine ⟨by rw [hstep.root]; exact hroot, hstep.calls.resolve_right hnot, ?_⟩
    exact hstep.started.resolve_right fun hnew => hnot hnew.2.1

/-- Once the root is cancelled it stays so, and the engine is not called any more. -/
theorem closed_run {as : List Act} (hs : Sound s) (hroot : s.root = true)
    (h : run Gate.step s as = some s') :
    Sound s' ∧ s'.root = true ∧ s'.engineCalls = s.engineCalls ∧
      s'.engineStarted = s.engineStarted := by
  refine invariant_of_step (P := fun _ _ => True)
    (I := fun m => Sound m ∧ m.root = true ∧ m.engineCalls = s.engineCalls ∧
      m.engineStarted = s.engineStarted) ?_ ⟨hs, hroot, rfl, rfl⟩
    (along_trivial (fun _ _ => trivial) s as) h
  rintro m a m' ⟨hsound, hclosed, hcalls, hstarted⟩ - hstep
  obtain ⟨hclosed', hcalls', hstarted'⟩ := closed_step hsound hclosed hstep
  exact ⟨sound_step hsound hstep, hclosed', hcalls'.trans hcalls, hstarted'.trans hstarted⟩

/-- A call past the flag check is never refused by it. -/
theorem past_step {a : Act} (h : s.step a = some s') (hc : s.starts[i]? = some c)
    (hpast : c.point.pastCheck = true) :
    ∃ d, s'.starts[i]? = some d ∧ d.point.pastCheck = true := by
  cases hcaller : a.caller with
  | none =>
    obtain ⟨d, hd, hpoint⟩ := (foreign_step h hcaller).2 i c hc
    exact ⟨d, hd, by rw [hpoint]; exact hpast⟩
  | some k =>
    obtain ⟨b, b', hb, hstep⟩ := callStep h hcaller
    by_cases hik : i = k
    · subst hik
      rw [hc] at hb
      cases hb
      exact ⟨b', hstep.self hc, hstep.move.past hpast⟩
    · exact ⟨c, by rw [hstep.other hik]; exact hc, hpast⟩

/-- A call that has passed its check stays behind it. -/
theorem past_run {as : List Act} (h : run Gate.step s as = some s') (hc : s.starts[i]? = some c)
    (hpast : c.point.pastCheck = true) :
    ∃ d, s'.starts[i]? = some d ∧ d.point.pastCheck = true := by
  refine invariant_of_step (P := fun _ _ => True)
    (I := fun m => ∃ d, m.starts[i]? = some d ∧ d.point.pastCheck = true) ?_ ⟨c, hc, hpast⟩
    (along_trivial (fun _ _ => trivial) s as) h
  rintro m a m' ⟨d, hd, hd'⟩ - hstep
  exact past_step hstep hd hd'

end

/-! ## The shutdown boundary -/

def Gate.point (s : Gate) (i : Nat) : Option Point := s.starts[i]?.map (·.point)

/-- A worker serves the call, is about to be spawned for it, or has served it. -/
def Point.serving : Point → Bool
  | .unlocked | .head _ | .turning _ _ | .finished _ | .released _ => true
  | _ => false

/-- The token of call `i` is cancelled, and the worker of the call observes it: at the head of its
loop it sees the cancellation, and the turn that begins there is its last. -/
structure Gate.Cancelled (s : Gate) (i : Nat) : Prop where
  token : ∃ c, s.starts[i]? = some c ∧ c.token = some true ∧ c.point.serving = true
  observed : ∀ w s', s.point i = some (.head w) → s.step (.advance i) = some s' →
    s'.point i = some (.turning w true)
  ends : ∀ w job t s', s.point i = some (.turning w true) →
    s.step (.turn i (some (job, t))) = some s' →
    s'.point i = some (.finished (job.markRetirement .cancelled))

/-- A step of call `i` leaves the map and the engine as they are. -/
def LeavesAlone (i : Nat) (s : Gate) (a : Act) : Prop :=
  a.caller = some i → ∀ s', s.step a = some s' →
    s'.active = s.active ∧ s'.engineCalls = s.engineCalls ∧ s'.engineStarted = s.engineStarted

theorem Point.serving_of_started {p : Point} (h : p.started = true) (h' : p.admitting ≠ true) :
    p.serving = true := by
  cases p with
  | admitted => exact absurd rfl h'
  | unlocked | head | turning | finished | released => rfl
  | _ => cases h

theorem Point.tokenMade_of_serving {p : Point} (h : p.serving = true) : p.tokenMade = true := by
  cases p with
  | unlocked | head | turning | finished | released => rfl
  | _ => cases h

theorem Worker.turn_cancelled (w : Worker) (job : Job) (t : Turn) :
    w.turn job { t with cancelled := true } = .inr (job.markRetirement .cancelled) := by
  cases w with
  | streaming w => rfl
  | buffered w => rfl

section
variable {s s' : Gate} {i : Nat} {c : Start}

theorem point_of_get (hc : s.starts[i]? = some c) : s.point i = some c.point := by
  rw [Gate.point, hc]
  rfl

theorem point_put {p : Point} (hc : s.starts[i]? = some c) : (s.put i c p).point i = some p :=
  point_of_get (c := { c with point := p })
    (List.getElem?_set_self (List.getElem?_eq_some_iff.mp hc).1)

/-- When the root is cancelled, every request the engine has started is cancelled too. -/
theorem Sound.cancelled (hs : Sound s) (hroot : s.root = true) (hi : i ∈ s.engineStarted) :
    s.Cancelled i := by
  obtain ⟨c, hc, hstarted⟩ := hs.started i hi
  -- it started, and the check was made before the root was cancelled
  have hserving : c.point.serving = true := by
    have hchecked : c.point.admitting ≠ true := fun hadmitting => by
      have hopen := hs.checked i c hc hadmitting
      rw [hroot] at hopen
      cases hopen
    exact Point.serving_of_started hstarted hchecked
  -- its token exists by then, and the cancellation has reached it
  have htoken : c.token = some true := by
    have hreached := hs.reached hroot i c hc
    have hmade := hs.made i c hc (Point.tokenMade_of_serving hserving)
    cases ht : c.token with
    | none => exact absurd ht hmade
    | some b =>
      cases b with
      | true => rfl
      | false => exact absurd ht hreached
  refine ⟨⟨c, hc, htoken, hserving⟩, fun w s' hw h => ?_, fun w job t s' hw h => ?_⟩
  · rw [point_of_get hc] at hw
    simp only [Gate.step, hc, Option.bind_some, Gate.advance, Option.some.inj hw, htoken] at h
    cases h
    rw [point_put hc]
    rfl
  · rw [point_of_get hc] at hw
    simp only [Gate.step, hc, Option.bind_some, Gate.turn, Option.some.inj hw,
      Worker.turn_cancelled] at h
    cases h
    exact point_put hc

/-- **Shutdown closes admission.** A call that the shutdown check refused has left the map and
the engine alone with every step it made. Once a call of `ShutdownController::cancel` has returned,
no later step calls `engine.start`, and every request that the engine had started has a cancelled
token and a worker that observes it, in every later state. -/
theorem shutdown_boundary {as : List Act} (hrun : run Gate.step {} as = some s) :
    (∀ i, s.point i = some (.refused .shuttingDown) → Along Gate.step (LeavesAlone i) {} as) ∧
    (.returned ∈ s.cancels → ∀ bs s', run Gate.step s bs = some s' →
      s'.engineCalls = s.engineCalls ∧ s'.engineStarted = s.engineStarted ∧
        ∀ i ∈ s.engineStarted, s'.Cancelled i) := by
  constructor
  · intro i hrefused
    refine along_iff.mpr fun before a after m hsplit hm hcaller m' hstep => ?_
    -- had the step touched anything, the call would be past the check for good
    obtain ⟨c, c', hc, hcall⟩ := callStep hstep hcaller
    refine hcall.touched ?_
    by_contra hpast
    have hrest : run Gate.step m' after = some s := by
      rw [hsplit, run_append, hm] at hrun
      obtain ⟨m'', hm'', hrest⟩ := run_cons.mp hrun
      rw [hstep] at hm''
      cases hm''
      exact hrest
    obtain ⟨d, hd, hd'⟩ := past_run hrest (hcall.self hc) (by simpa using hpast)
    rw [point_of_get hd] at hrefused
    rw [Option.some.inj hrefused] at hd'
    cases hd'
  · intro hreturned bs s' hlater
    have hs := sound_run sound_init hrun
    obtain ⟨j, hj⟩ := List.getElem?_of_mem hreturned
    obtain ⟨hs', hroot', hcalls, hstarted⟩ := closed_run hs (hs.overRoot j _ hj rfl) hlater
    exact ⟨hcalls, hstarted, fun i hi => hs'.cancelled hroot' (by rw [hstarted]; exact hi)⟩

end

/-- One request is admitted and its worker polls; shutdown reaches its token, and a second request
finds admission closed. -/
def actsToBoundary : List Act :=
  [.arrive 1 true 7, .advance 0, .advance 0, .advance 0, .advance 0, .advance 0,
    .engineReturns 0 (some true), .advance 0, .advance 0, .shutdown, .shutdownStep 0,
    .shutdownStep 0, .reachChild 0 0, .shutdownStep 0, .shutdownStep 0,
    .arrive 2 false 8, .advance 1, .advance 1]

theorem shutdown_boundary_one : ∃ s, run Gate.step {} actsToBoundary = some s ∧
    Along Gate.step (LeavesAlone 1) {} actsToBoundary ∧ s.engineCalls = [0] ∧ s.Cancelled 0 := by
  have hstates : ∃ s, run Gate.step {} actsToBoundary = some s ∧
      s.point 1 = some (.refused .shuttingDown) ∧ s.cancels = [.returned] ∧
      s.engineCalls = [0] ∧ s.engineStarted = [0] :=
    ⟨_, rfl, rfl, rfl, rfl, rfl⟩
  obtain ⟨s, hrun, hpoint, hcancels, hcalls, hstarted⟩ := hstates
  obtain ⟨halone, hclosed⟩ := shutdown_boundary hrun
  obtain ⟨-, -, hcancelled⟩ := hclosed (by rw [hcancels]; decide) [] s rfl
  exact ⟨s, hrun, halone 1 hpoint, hcalls, hcancelled 0 (by rw [hstarted]; decide)⟩

end Qwen3Tts.Server.Admission
