import Qwen3Tts.Lib.Machine
import Qwen3Tts.Lib.Vec
import Qwen3Tts.Talker.NativeSession
import Mathlib.Data.List.MinMax

/-!
# Talker — the pool of session handles

`acquire_session`, `recycle_session`, `destroy_session` and the two destructors of
`native_talker.rs`, with any number of sessions that start, generate frames on either path, are
cancelled and are dropped. Each section under the pool's lock and each native call is a step
of its own, so the calls of different threads interleave at every point in between; what the native
library answers is part of the step.

The library's `session_create` makes a new object whose `max_sequence_length` is the requested
one, so a created handle is a fresh number with that capacity. Every other answer is arbitrary.
-/

namespace Qwen3Tts.Talker.SessionPool

open Qwen3Tts.Lib

/-! ## Seats -/

/-- What `start_prompt` knows of the session before it has a handle. -/
structure Plan where
  trailingText : List TextSource
  codecEosToken : Nat
  maxFrames : Nat
  deriving DecidableEq, Repr

/-- The session that `start_prompt` builds around an acquired handle. -/
def Plan.session (plan : Plan) (pooled : PooledSession) : NativeTalkerSession where
  pooled := pooled
  trailingText := plan.trailingText
  currentSemantic := 0
  codecEosToken := plan.codecEosToken
  maxFrames := plan.maxFrames

/-- Where a call of `start_prompt`, with the session it makes, stands; `required` is the capacity
that it asks for. -/
inductive Seat where
  /-- In front of the pool's lock. -/
  | acquiring (required : Nat) (plan : Plan)
  | resetting (required : Nat) (plan : Plan) (pooled : PooledSession)
  | creating (required : Nat) (plan : Plan)
  | prefilling (required : Nat) (session : NativeTalkerSession)
  | live (required : Nat) (session : NativeTalkerSession)
  /-- A `PendingTalkerFrame` borrows the session. -/
  | pending (required : Nat) (session : NativeTalkerSession)
  /-- The session is dropped and its handle goes to `recycle_session`. -/
  | recycling (pooled : PooledSession)
  /-- The handle goes to `destroy_session`. -/
  | doomed (handle : SessionHandle)
  | gone
  deriving DecidableEq, Repr

/-- The session of a seat. -/
def Seat.handles : Seat → List SessionHandle
  | .resetting _ _ pooled => [pooled.handle]
  | .prefilling _ session | .live _ session | .pending _ session => [session.pooled.handle]
  | .recycling pooled => [pooled.handle]
  | .doomed handle => [handle]
  | .acquiring _ _ | .creating _ _ | .gone => []

/-- `NativeTalkerSession::drop`, up to the call it ends in. -/
def dropped (session : NativeTalkerSession) : Seat :=
  if session.recyclable then .recycling session.pooled else .doomed session.pooled.handle

/-! ## The pool -/

/-- The sessions that may be used again, and the requests with theirs. -/
structure Pool where
  sessionPool : List PooledSession := []
  seats : List Seat := []
  /-- Whether the model is alive. -/
  alive : Bool := true
  /-- The handles that `session_create` has made are the numbers below. -/
  created : Nat := 0
  /-- The calls of `session_destroy`, and the handles of the sessions on which a native frame call
  failed or returned an inconsistent result. The code keeps no such lists. -/
  destroyed : List SessionHandle := []
  spoiled : List SessionHandle := []

/-- `smallest_adequate_session_index`: of the smallest adequate entries the first. -/
def smallestAdequateSessionIndex (pool : List PooledSession) (required : Nat) : Option Nat :=
  ((pool.zipIdx.filter fun entry => required ≤ entry.1.maxSequenceLength).argmin
    (·.1.maxSequenceLength)).map (·.2)

/-- A step of the pool; `i` is the seat it is about. -/
inductive Action where
  | start (promptTokens maxSequenceLength : Nat) (plan : Plan)
  /-- The locked section of `acquire_session`. -/
  | pop (i : Nat)
  /-- `session_reset` returns; without its symbol it counts as failed. -/
  | reset (i : Nat) (ok : Bool)
  | create (i : Nat) (ok : Bool)
  /-- `prefill_native` returns, with the first semantic token. -/
  | prefill (i : Nat) (answer : Option Nat)
  | nextFrame (i : Nat) (answer : Except NativeStatusError NativeFrame)
  | begin (i : Nat) (answer : Except NativeStatusError NativeDeviceFrameView)
  | beginBatched (i : Nat) (direct : Except NativeStatusError NativeDeviceFrameView)
      (pump : PumpAnswer)
  | finishWithoutConsumer (i : Nat) (answer again : Except NativeStatusError NativeFinish)
  | finishWithConsumerEvent (i event : Nat) (answer again : Except NativeStatusError NativeFinish)
  /-- A pending frame is dropped unfinished. -/
  | abandon (i : Nat) (answer : Except NativeStatusError NativeFinish)
  | cancel (i : Nat)
  | drop (i : Nat)
  /-- The locked section of `recycle_session`. -/
  | recycle (i : Nat)
  /-- `destroy_session`; `found` says whether the library has the symbol. -/
  | destroy (i : Nat) (found : Bool)
  /-- The last reference to the model goes away. -/
  | dropModel (found : Bool)
  deriving DecidableEq

namespace Pool

/-- A request goes on. -/
def setSeat (s : Pool) (i : Nat) (seat : Seat) : Pool := { s with seats := s.seats.set i seat }

/-- A session behind a frame method; `failed` says that the method made its native call and
returned an error. -/
def land (s : Pool) (i : Nat) (handle : SessionHandle) (failed : Bool) (seat : Seat) : Pool :=
  { s.setSeat i seat with spoiled := if failed then handle :: s.spoiled else s.spoiled }

/-- `start_prompt` in front of `acquire_session`. -/
def start (s : Pool) (promptTokens maxSequenceLength : Nat) (plan : Plan) : Pool :=
  if plan.maxFrames = 0 ∨ 2 ^ 31 ≤ maxSequenceLength ∨ 2 ^ 31 ≤ promptTokens then s
  else match sessionCapacity promptTokens plan.maxFrames maxSequenceLength with
  | .ok required => { s with seats := s.seats ++ [.acquiring required plan] }
  | .error _ => s

/-- A session that is large enough is taken, or a new one is to be made. -/
def pop (s : Pool) (i required : Nat) (plan : Plan) : Option Pool :=
  match smallestAdequateSessionIndex s.sessionPool required with
  | none => some (s.setSeat i (.creating required plan))
  | some index => s.sessionPool[index]?.map fun pooled =>
      { s.setSeat i (.resetting required plan pooled) with
        sessionPool := swapRemove s.sessionPool index }

/-- The new session, or the failure of the request. -/
def create (s : Pool) (i required : Nat) (plan : Plan) (ok : Bool) : Pool :=
  if ok then
    { s.setSeat i (.prefilling required (plan.session ⟨s.created, required⟩)) with
      created := s.created + 1 }
  else s.setSeat i .gone

/-- `start_prompt` behind `prefill_native`. -/
def prefilled (session : NativeTalkerSession) (token : Nat) : NativeTalkerSession :=
  { session with
    currentSemantic := token
    endReason := if token = session.codecEosToken then some .codecEos else none
    recyclable := true }

/-- A device frame that was begun is pending where there is one. -/
def begun {α : Type} (required : Nat) :
    NativeTalkerSession × Except TalkerError (Option α) → Seat
  | (session, .ok (some _)) => .pending required session
  | (session, _) => .live required session

/-- A session goes back unless the pool is full. -/
def recycle (s : Pool) (i : Nat) (pooled : PooledSession) : Pool :=
  if s.sessionPool.length < maxPooledSessions then
    { s.setSeat i .gone with sessionPool := s.sessionPool ++ [pooled] }
  else s.setSeat i (.doomed pooled.handle)

/-- `destroy_session`, which does nothing without its symbol. -/
def destroy (s : Pool) (i : Nat) (handle : SessionHandle) (found : Bool) : Pool :=
  { s.setSeat i .gone with
    destroyed := if found then handle :: s.destroyed else s.destroyed }

/-- `NativeTalkerModel::drop`. -/
def dropModel (s : Pool) (found : Bool) : Pool :=
  { s with
    sessionPool := []
    alive := false
    destroyed := if found then s.sessionPool.map (·.handle) ++ s.destroyed else s.destroyed }

end Pool

open Qwen3Tts.Talker.SessionPool.Pool in
/-- The transitions of the requests, in the order of their lives. -/
def step (model : TalkerModelInfo) (s : Pool) : Action → Option Pool
  | .start promptTokens maxSequenceLength plan =>
    if s.alive then some (s.start promptTokens maxSequenceLength plan) else none
  | .pop i => match s.seats[i]? with
    | some (.acquiring required plan) => s.pop i required plan
    | _ => none
  | .reset i ok => match s.seats[i]? with
    | some (.resetting required plan pooled) => some (s.setSeat i
        (if ok then .prefilling required (plan.session pooled) else .doomed pooled.handle))
    | _ => none
  | .create i ok => match s.seats[i]? with
    | some (.creating required plan) => some (s.create i required plan ok)
    | _ => none
  | .prefill i answer => match s.seats[i]? with
    | some (.prefilling required session) => some (s.setSeat i (match answer with
        | some token => .live required (prefilled session token)
        | none => dropped session))
    | _ => none
  | .nextFrame i answer => match s.seats[i]? with
    | some (.live required session) =>
      let result := session.nextFrame model answer
      some (s.land i session.pooled.handle (session.reachesCall model && !result.2.isOk)
        (.live required result.1))
    | _ => none
  | .begin i answer => match s.seats[i]? with
    | some (.live required session) =>
      let result := session.beginDeviceFrame model answer
      some (s.land i session.pooled.handle (session.callsBegin model && !result.2.isOk)
        (begun required result))
    | _ => none
  | .beginBatched i direct pump => match s.seats[i]? with
    | some (.live required session) =>
      let result := session.beginDeviceFrameBatched model direct pump
      some (s.land i session.pooled.handle (session.callsBeginBatched model && !result.2.isOk)
        (begun required result))
    | _ => none
  | .finishWithoutConsumer i answer again => match s.seats[i]? with
    | some (.pending required session) =>
      let result := session.complete model answer again
      some (s.land i session.pooled.handle (!result.2.isOk) (.live required result.1))
    | _ => none
  | .finishWithConsumerEvent i event answer again => match s.seats[i]? with
    | some (.pending required session) =>
      let result := session.finishWithConsumerEvent model event answer again
      some (s.land i session.pooled.handle (!result.2.isOk) (.live required result.1))
    | _ => none
  | .abandon i answer => match s.seats[i]? with
    | some (.pending required session) =>
      some (s.land i session.pooled.handle true (.live required (session.abandon model answer)))
    | _ => none
  | .cancel i => match s.seats[i]? with
    | some (.live required session) => some (s.setSeat i (.live required session.cancel))
    | _ => none
  | .drop i => match s.seats[i]? with
    | some (.live _ session) => some (s.setSeat i (dropped session))
    | _ => none
  | .recycle i => match s.seats[i]? with
    | some (.recycling pooled) => some (s.recycle i pooled)
    | _ => none
  | .destroy i found => match s.seats[i]? with
    | some (.doomed handle) => some (s.destroy i handle found)
    | _ => none
  | .dropModel found =>
    if s.alive ∧ ∀ seat ∈ s.seats, seat = .gone then some (s.dropModel found) else none

/-! ## Owners -/

/-- How many owners a handle has: the pool, the seats, and the native library that took it back. -/
def Pool.owned (s : Pool) (h : SessionHandle) : Nat :=
  (s.sessionPool.map (·.handle)).count h + (s.seats.flatMap Seat.handles).count h
    + s.destroyed.count h

/-- The handle of the seat has the capacity that was asked for. -/
def Seat.Adequate : Seat → Prop
  | .resetting required _ pooled => required ≤ pooled.maxSequenceLength
  | .prefilling required session | .live required session | .pending required session =>
    required ≤ session.pooled.maxSequenceLength
  | .acquiring _ _ | .creating _ _ | .recycling _ | .doomed _ | .gone => True

/-- The handles of a seat that may still go back to the pool without another reset of the flag. -/
def Seat.reusable : Seat → List SessionHandle
  | .live _ session | .pending _ session =>
    if session.recyclable then [session.pooled.handle] else []
  | .resetting _ _ pooled | .recycling pooled => [pooled.handle]
  | .prefilling _ session => [session.pooled.handle]
  | .acquiring _ _ | .creating _ _ | .doomed _ | .gone => []

/-- How often a session is on its way back. -/
def Pool.reusable (s : Pool) (h : SessionHandle) : Nat :=
  (s.sessionPool.map (·.handle)).count h + (s.seats.flatMap Seat.reusable).count h

/-- What holds of the pool in every run. -/
structure Inv (s : Pool) : Prop where
  once : ∀ h, s.owned h ≤ 1
  fresh : ∀ h, s.created ≤ h → s.owned h = 0
  bounded : s.sessionPool.length ≤ maxPooledSessions
  adequate : ∀ seat ∈ s.seats, seat.Adequate
  spoiled : ∀ h ∈ s.spoiled, h < s.created

/-- The handle of a failed session is on no way back to the pool. -/
def Clean (s : Pool) : Prop := ∀ h ∈ s.spoiled, s.reusable h = 0

section Seats

/-- A seat sends back no session but its own. -/
theorem reusable_le_handles (seat : Seat) (h : SessionHandle) :
    seat.reusable.count h ≤ seat.handles.count h := by
  cases seat with
  | live required session | pending required session =>
    show (if session.recyclable then [session.pooled.handle] else []).count h
      ≤ [session.pooled.handle].count h
    split
    · exact le_rfl
    · simp
  | doomed handle => exact Nat.zero_le _
  | _ => exact Nat.le_refl _

/-- All of them together. -/
theorem reusable_le_handles_flatMap (seats : List Seat) (h : SessionHandle) :
    (seats.flatMap Seat.reusable).count h ≤ (seats.flatMap Seat.handles).count h := by
  induction seats with
  | nil => simp
  | cons seat seats ih =>
    have hseat := reusable_le_handles seat h
    simp only [List.flatMap_cons, List.count_append]
    omega

/-- A count over all seats when one of them changes. -/
theorem count_set {α : Type} [DecidableEq α] (f : Seat → List α) {seats : List Seat} {i : Nat}
    {a : Seat} (hget : seats[i]? = some a) (b : Seat) (x : α) :
    ((seats.set i b).flatMap f).count x + (f a).count x
      = (seats.flatMap f).count x + (f b).count x := by
  obtain ⟨before, after, rfl, rfl⟩ := split_at_getElem? hget
  have hset : (before ++ a :: after).set before.length b = before ++ b :: after := by simp
  rw [hset]
  simp only [List.flatMap_append, List.flatMap_cons, List.count_append]
  omega

/-- Beside the owner of a handle, no seat can give it back. -/
theorem reusable_set_of_owner {s : Pool} {i : Nat} {a b : Seat} {h : SessionHandle}
    (hs : Inv s) (hget : s.seats[i]? = some a) (hown : h ∈ a.handles) (hb : h ∉ b.reusable) :
    (s.sessionPool.map (·.handle)).count h + ((s.seats.set i b).flatMap Seat.reusable).count h
      = 0 := by
  have honce := hs.once h
  obtain ⟨before, after, hseats, rfl⟩ := split_at_getElem? hget
  have hset : s.seats.set before.length b = before ++ b :: after := by simp [hseats]
  unfold Pool.owned at honce
  rw [hset]
  rw [hseats] at honce
  have hbefore := reusable_le_handles_flatMap before h
  have hafter := reusable_le_handles_flatMap after h
  have ha : 0 < a.handles.count h := List.count_pos_iff.mpr hown
  have hb' : b.reusable.count h = 0 := List.count_eq_zero.mpr hb
  simp only [List.flatMap_append, List.flatMap_cons, List.count_append] at honce ⊢
  omega

end Seats

/-! ## One seat moves -/

/-- A seat takes no handle that it did not have, and opens no new way back to the pool. -/
structure Passes (a b : Seat) : Prop where
  handles : ∀ h, b.handles.count h ≤ a.handles.count h
  adequate : a.Adequate → b.Adequate
  reusable : ∀ h, b.reusable.count h ≤ a.reusable.count h

section Moves

variable {s : Pool} {i : Nat} {a b : Seat}

/-- A step that lands a failed session keeps it from the pool. -/
theorem clean_land (handle : SessionHandle) (failed : Bool) (hs : Inv s) (hclean : Clean s)
    (hget : s.seats[i]? = some a) (hpass : Passes a b)
    (hfailed : failed = true → handle ∈ a.handles ∧ handle ∉ b.reusable) :
    Clean (s.land i handle failed b) := by
  intro h hmem
  have hrest : h ∈ s.spoiled → (s.land i handle failed b).reusable h = 0 := by
    intro hold
    have hset := count_set Seat.reusable hget b h
    have hle := hpass.reusable h
    have hzero := hclean h hold
    unfold Pool.reusable at hzero ⊢
    simp only [Pool.land, Pool.setSeat]
    omega
  cases failed with
  | false => exact hrest hmem
  | true =>
    rcases List.mem_cons.mp hmem with rfl | hold
    · exact reusable_set_of_owner hs hget (hfailed rfl).1 (hfailed rfl).2
    · exact hrest hold

/-- A step without a failure. -/
theorem clean_setSeat (hs : Inv s) (hclean : Clean s) (hget : s.seats[i]? = some a)
    (hpass : Passes a b) : Clean (s.setSeat i b) :=
  clean_land 0 false hs hclean hget hpass (by simp)

end Moves

section Passing

variable {required : Nat} {session session' : NativeTalkerSession}

/-- A seat without a session. -/
theorem Passes.of_empty {a b : Seat} (hhandles : b.handles = []) (hadequate : b.Adequate) :
    Passes a b where
  handles h := by simp [hhandles]
  adequate _ := hadequate
  reusable h := by
    have hle := reusable_le_handles b h
    simp only [hhandles, List.count_nil] at hle
    omega

/-- A session that was kept is no more recyclable than before. -/
theorem kept_reusable (hkept : session.Kept session') (h : SessionHandle) :
    (if session'.recyclable then [session'.pooled.handle] else []).count h
      ≤ (if session.recyclable then [session.pooled.handle] else []).count h := by
  rw [hkept.pooled]
  cases hr : session'.recyclable with
  | false => simp
  | true => rw [hkept.recyclable hr]

/-- It is the same session, -/
theorem Kept.count_handle (hkept : session.Kept session') (h : SessionHandle) :
    [session'.pooled.handle].count h ≤ [session.pooled.handle].count h := by
  rw [hkept.pooled]

/-- of the same size. -/
theorem Kept.capacity (hkept : session.Kept session')
    (h : required ≤ session.pooled.maxSequenceLength) :
    required ≤ session'.pooled.maxSequenceLength := by
  rw [hkept.pooled]
  exact h

/-- Its request stays live, -/
theorem passes_live (hkept : session.Kept session') :
    Passes (.live required session) (.live required session') :=
  ⟨Kept.count_handle hkept, Kept.capacity hkept, kept_reusable hkept⟩

/-- or becomes so again. -/
theorem passes_pending (hkept : session.Kept session') :
    Passes (.pending required session) (.live required session') :=
  ⟨Kept.count_handle hkept, Kept.capacity hkept, kept_reusable hkept⟩

/-- A frame that began, or failed to. -/
theorem passes_begun {α : Type} {result : NativeTalkerSession × Except TalkerError (Option α)}
    (hkept : session.Kept result.1) :
    Passes (.live required session) (Pool.begun required result) := by
  have hsame : Passes (.live required session) (.pending required result.1) :=
    ⟨Kept.count_handle hkept, Kept.capacity hkept, kept_reusable hkept⟩
  obtain ⟨session', answer⟩ := result
  cases answer with
  | error error => exact passes_live hkept
  | ok pending =>
    cases pending with
    | none => exact passes_live hkept
    | some pending => exact hsame

/-- The request is dropped. -/
theorem passes_dropped : Passes (.live required session) (dropped session) := by
  unfold dropped
  cases hr : session.recyclable with
  | false => exact ⟨fun h => le_rfl, fun _ => trivial, fun h => Nat.zero_le _⟩
  | true =>
    refine ⟨fun h => le_rfl, fun _ => trivial, fun h => ?_⟩
    show [session.pooled.handle].count h
      ≤ (if session.recyclable then [session.pooled.handle] else []).count h
    rw [hr]
    exact le_rfl

/-- A failed prefill drops the session. -/
theorem passes_prefill_failed :
    Passes (.prefilling required session) (dropped session) := by
  unfold dropped
  cases session.recyclable with
  | false => exact ⟨fun h => le_rfl, fun _ => trivial, fun h => Nat.zero_le _⟩
  | true => exact ⟨fun h => le_rfl, fun _ => trivial, fun h => le_rfl⟩

/-- A successful one makes it live. -/
theorem passes_prefilled (token : Nat) :
    Passes (.prefilling required session) (.live required (Pool.prefilled session token)) :=
  ⟨fun _ => le_rfl, id, fun _ => le_rfl⟩

/-- A reset session is filled, one that could not be reset is destroyed. -/
theorem passes_reset (plan : Plan) (pooled : PooledSession) (ok : Bool) :
    Passes (.resetting required plan pooled)
      (if ok then .prefilling required (plan.session pooled) else .doomed pooled.handle) := by
  cases ok with
  | true => exact ⟨fun _ => le_rfl, id, fun _ => le_rfl⟩
  | false => exact ⟨fun _ => le_rfl, fun _ => trivial, fun _ => Nat.zero_le _⟩

/-- A session that is not recyclable has no way back to the pool, pending or not. -/
theorem not_reusable_live (h : session.recyclable = false) (handle : SessionHandle) :
    handle ∉ (Seat.live required session).reusable := by
  show handle ∉ if session.recyclable then [session.pooled.handle] else []
  rw [h]
  exact List.not_mem_nil

/-- A failed begin leaves nothing to reuse. -/
theorem not_reusable_begun {α : Type} {result : NativeTalkerSession × Except TalkerError (Option α)}
    (herror : result.2.isOk = false) (h : result.1.recyclable = false) (handle : SessionHandle) :
    handle ∉ (Pool.begun required result).reusable := by
  obtain ⟨session', answer⟩ := result
  cases answer with
  | error error => exact not_reusable_live h handle
  | ok pending => cases herror

end Passing

/-! ## What a step does to the handles -/

/-- Where a `next_frame` would leave a recyclable session recyclable behind a native call, the EOS
flag of the native frame agrees with its token. -/
def eosFlagTrusted (model : TalkerModelInfo) (s : Pool) : Action → Bool
  | .nextFrame i (.ok native) => match s.seats[i]? with
    | some (.live _ session) =>
      !(session.recyclable && session.reachesCall model && session.disagrees native)
    | _ => true
  | _ => true

/-- The step taken by an action, seen from the handles. -/
inductive Effect (trusted : Prop) (s : Pool) : Pool → Prop
  | idle : Effect trusted s s
  | start (required : Nat) (plan : Plan) :
      Effect trusted s { s with seats := s.seats ++ [.acquiring required plan] }
  | take {i index required : Nat} {plan : Plan} {pooled : PooledSession}
      (hget : s.seats[i]? = some (.acquiring required plan))
      (hpool : s.sessionPool[index]? = some pooled)
      (hcapacity : required ≤ pooled.maxSequenceLength) :
      Effect trusted s { s.setSeat i (.resetting required plan pooled) with
        sessionPool := swapRemove s.sessionPool index }
  | create {i required : Nat} {plan : Plan} (hget : s.seats[i]? = some (.creating required plan)) :
      Effect trusted s { s.setSeat i (.prefilling required (plan.session ⟨s.created, required⟩))
        with created := s.created + 1 }
  | move {i : Nat} {a b : Seat} (hget : s.seats[i]? = some a) (hpass : Passes a b) :
      Effect trusted s (s.setSeat i b)
  | call {i : Nat} {a b : Seat} {handle : SessionHandle} {failed : Bool}
      (hget : s.seats[i]? = some a) (hpass : Passes a b) (hown : handle ∈ a.handles)
      (hfailed : trusted → failed = true → handle ∉ b.reusable) :
      Effect trusted s (s.land i handle failed b)
  | recycle {i : Nat} {pooled : PooledSession} (hget : s.seats[i]? = some (.recycling pooled))
      (hroom : s.sessionPool.length < maxPooledSessions) :
      Effect trusted s { s.setSeat i .gone with sessionPool := s.sessionPool ++ [pooled] }
  | destroy {i : Nat} {handle : SessionHandle} (found : Bool)
      (hget : s.seats[i]? = some (.doomed handle)) :
      Effect trusted s (s.destroy i handle found)
  | dropModel (found : Bool) : Effect trusted s (s.dropModel found)

/-- The session that is found is long enough. -/
theorem smallestAdequateSessionIndex_spec {pool : List PooledSession} {required index : Nat}
    (h : smallestAdequateSessionIndex pool required = some index) :
    ∃ pooled, pool[index]? = some pooled ∧ required ≤ pooled.maxSequenceLength := by
  obtain ⟨⟨pooled, index⟩, hmin, rfl⟩ := Option.map_eq_some_iff.mp h
  have hmem := List.argmin_mem hmin
  obtain ⟨hentry, hcapacity⟩ := List.mem_filter.mp hmem
  exact ⟨pooled, List.mem_zipIdx_iff_getElem?.mp hentry, of_decide_eq_true hcapacity⟩

section Effects

variable {model : TalkerModelInfo} {s s' : Pool} {i : Nat} {trusted : Prop}

/-- A request takes a new seat. -/
theorem effect_start (promptTokens maxSequenceLength : Nat) (plan : Plan) :
    Effect trusted s (s.start promptTokens maxSequenceLength plan) := by
  unfold Pool.start
  split
  · exact .idle
  split
  · exact .start _ plan
  · exact .idle

/-- The seat takes a session from the pool, or none is adequate. -/
theorem effect_pop {required : Nat} {plan : Plan}
    (hget : s.seats[i]? = some (.acquiring required plan)) (h : s.pop i required plan = some s') :
    Effect trusted s s' := by
  unfold Pool.pop at h
  cases hindex : smallestAdequateSessionIndex s.sessionPool required with
  | none =>
    rw [hindex] at h
    cases h
    exact .move hget (.of_empty rfl trivial)
  | some index =>
    rw [hindex] at h
    obtain ⟨pooled, hpool, hcapacity⟩ := smallestAdequateSessionIndex_spec hindex
    simp only [hpool, Option.map_some, Option.some.injEq] at h
    exact h ▸ .take hget hpool hcapacity

/-- The seat gets a new session, or fails. -/
theorem effect_create {required : Nat} {plan : Plan} (ok : Bool)
    (hget : s.seats[i]? = some (.creating required plan)) :
    Effect trusted s (s.create i required plan ok) := by
  cases ok with
  | false => exact .move hget (.of_empty rfl trivial)
  | true => exact .create hget

/-- The session goes back to the pool, or is destroyed when the pool is full. -/
theorem effect_recycle {pooled : PooledSession} (hget : s.seats[i]? = some (.recycling pooled)) :
    Effect trusted s (s.recycle i pooled) := by
  unfold Pool.recycle
  split
  · exact .recycle hget ‹_›
  · exact .move hget ⟨fun _ => le_rfl, fun _ => trivial, fun _ => Nat.zero_le _⟩

/-- A frame, whatever the library answers. -/
theorem effect_nextFrame {required : Nat} {session : NativeTalkerSession}
    (hget : s.seats[i]? = some (.live required session))
    (answer : Except NativeStatusError NativeFrame) :
    Effect (eosFlagTrusted model s (.nextFrame i answer) = true) s
      (s.land i session.pooled.handle
        (session.reachesCall model && !(session.nextFrame model answer).2.isOk)
        (.live required (session.nextFrame model answer).1)) := by
  refine .call hget (passes_live (NativeTalkerSession.kept_nextFrame answer))
    (List.mem_singleton.mpr rfl) fun htrusted hfailed => not_reusable_live ?_ _
  obtain ⟨hcall, herror⟩ := Bool.and_eq_true_iff.mp hfailed
  refine NativeTalkerSession.not_recyclable_nextFrame hcall ((Bool.not_eq_true' _).mp herror) ?_
  intro native hanswer hrecyclable
  simpa [eosFlagTrusted, hanswer, hget, hrecyclable, hcall] using htrusted

/-- Every action, by the one effect it has. -/
theorem step_effect {a : Action} (h : step model s a = some s') :
    Effect (eosFlagTrusted model s a = true) s s' := by
  cases a with
  | start promptTokens maxSequenceLength plan =>
    simp only [step] at h
    split at h
    · cases h; exact effect_start _ _ _
    · cases h
  | pop i =>
    simp only [step] at h
    split at h
    · exact effect_pop ‹_› h
    · cases h
  | reset i ok =>
    simp only [step] at h
    split at h
    · cases h; exact .move ‹_› (passes_reset _ _ ok)
    · cases h
  | create i ok =>
    simp only [step] at h
    split at h
    · cases h; exact effect_create ok ‹_›
    · cases h
  | prefill i answer =>
    simp only [step] at h
    split at h
    · cases h
      cases answer with
      | some token => exact .move ‹_› (passes_prefilled token)
      | none => exact .move ‹_› passes_prefill_failed
    · cases h
  | nextFrame i answer =>
    simp only [step] at h
    split at h
    · cases h; exact effect_nextFrame ‹_› answer
    · cases h
  | begin i answer =>
    simp only [step] at h
    split at h
    · cases h
      refine .call ‹_› (passes_begun (NativeTalkerSession.kept_beginDeviceFrame answer))
        (List.mem_singleton.mpr rfl) fun _ hfailed => ?_
      -- a failed begin leaves a session that is not reusable
      obtain ⟨hcall, herror⟩ := Bool.and_eq_true_iff.mp hfailed
      have herror := (Bool.not_eq_true' _).mp herror
      exact not_reusable_begun herror
        (NativeTalkerSession.not_recyclable_beginDeviceFrame hcall herror) _
    · cases h
  | beginBatched i direct pump =>
    simp only [step] at h
    split at h
    · cases h
      refine .call ‹_› (passes_begun (NativeTalkerSession.kept_beginDeviceFrameBatched direct pump))
        (List.mem_singleton.mpr rfl) fun _ hfailed => ?_
      obtain ⟨hcall, herror⟩ := Bool.and_eq_true_iff.mp hfailed
      have herror := (Bool.not_eq_true' _).mp herror
      exact not_reusable_begun herror
        (NativeTalkerSession.not_recyclable_beginDeviceFrameBatched hcall herror) _
    · cases h
  | finishWithoutConsumer i answer again =>
    simp only [step] at h
    split at h
    · cases h
      refine .call ‹_› (passes_pending (NativeTalkerSession.kept_complete answer again))
        (List.mem_singleton.mpr rfl) fun _ hfailed => not_reusable_live ?_ _
      exact NativeTalkerSession.not_recyclable_complete ((Bool.not_eq_true' _).mp hfailed)
    · cases h
  | finishWithConsumerEvent i event answer again =>
    simp only [step] at h
    split at h
    · cases h
      refine .call ‹_› (passes_pending
        (NativeTalkerSession.kept_finishWithConsumerEvent event answer again))
        (List.mem_singleton.mpr rfl) fun _ hfailed => not_reusable_live ?_ _
      exact NativeTalkerSession.not_recyclable_finishWithConsumerEvent
        ((Bool.not_eq_true' _).mp hfailed)
    · cases h
  | abandon i answer =>
    simp only [step] at h
    split at h
    · cases h
      exact .call ‹_› (passes_pending (NativeTalkerSession.kept_abandon answer))
        (List.mem_singleton.mpr rfl) fun _ _ => not_reusable_live rfl _
    · cases h
  | cancel i =>
    simp only [step] at h
    split at h
    · cases h; exact .move ‹_› (passes_live NativeTalkerSession.kept_cancel)
    · cases h
  | drop i =>
    simp only [step] at h
    split at h
    · cases h; exact .move ‹_› passes_dropped
    · cases h
  | recycle i =>
    simp only [step] at h
    split at h
    · cases h; exact effect_recycle ‹_›
    · cases h
  | destroy i found =>
    simp only [step] at h
    split at h
    · cases h; exact .destroy found ‹_›
    · cases h
  | dropModel found =>
    simp only [step] at h
    split at h
    · cases h; exact .dropModel found
    · cases h

end Effects

/-! ## Runs -/

section Runs

variable {model : TalkerModelInfo} {s s' : Pool} {trusted : Prop}

theorem count_swapRemove {index : Nat} {pooled : PooledSession}
    (hpool : s.sessionPool[index]? = some pooled) (h : SessionHandle) :
    (s.sessionPool.map (·.handle)).count h
      = ((swapRemove s.sessionPool index).map (·.handle)).count h + [pooled.handle].count h := by
  have hperm := (swapRemove_perm hpool).map (·.handle)
  have hcons : [pooled.handle] ++ (swapRemove s.sessionPool index).map (·.handle)
      = (pooled :: swapRemove s.sessionPool index).map (·.handle) := rfl
  rw [hperm.count_eq h, ← hcons, List.count_append, Nat.add_comm]

/-- Handles are never taken back. -/
theorem created_effect (h : Effect trusted s s') : s.created ≤ s'.created := by
  cases h with
  | create hget => exact Nat.le_succ _
  | _ => exact le_rfl

/-- No handle gets an owner more, except a new one its first. -/
theorem owned_effect (h : Effect trusted s s') (x : SessionHandle) :
    s'.owned x ≤ s.owned x + if s.created ≤ x ∧ x < s'.created then 1 else 0 := by
  cases h with
  | idle => exact Nat.le_add_right _ _
  | start required plan =>
    have hhandles : (s.seats ++ [Seat.acquiring required plan]).flatMap Seat.handles
        = s.seats.flatMap Seat.handles := by simp [Seat.handles]
    refine le_trans (le_of_eq ?_) (Nat.le_add_right _ _)
    unfold Pool.owned
    simp only [hhandles]
  | @take i index required plan pooled hget hpool hcapacity =>
    have hset := count_set Seat.handles hget (.resetting required plan pooled) x
    have hpooled := count_swapRemove hpool x
    simp only [Seat.handles, List.count_nil] at hset
    unfold Pool.owned
    simp only [Pool.setSeat]
    omega
  | @create i required plan hget =>
    have hset := count_set Seat.handles hget
      (.prefilling required (plan.session ⟨s.created, required⟩)) x
    -- the new handle was owned by nobody
    have hnew : [s.created].count x ≤ if s.created ≤ x ∧ x < s.created + 1 then 1 else 0 := by
      rw [List.count_singleton]
      split
      · rename_i heq
        rw [if_pos (by simp_all)]
      · exact Nat.zero_le _
    simp only [Seat.handles, Plan.session, List.count_nil] at hset
    unfold Pool.owned
    simp only [Pool.setSeat, Plan.session]
    omega
  | @move i a b hget hpass =>
    have hset := count_set Seat.handles hget b x
    have hle := hpass.handles x
    unfold Pool.owned
    simp only [Pool.setSeat]
    omega
  | @call i a b handle failed hget hpass hown hfailed =>
    have hset := count_set Seat.handles hget b x
    have hle := hpass.handles x
    unfold Pool.owned
    simp only [Pool.land, Pool.setSeat]
    omega
  | recycle hget hroom =>
    have hset := count_set Seat.handles hget .gone x
    simp only [Seat.handles, List.count_nil] at hset
    unfold Pool.owned
    simp only [Pool.setSeat, List.map_append, List.map_cons, List.map_nil, List.count_append]
    omega
  | @destroy i handle found hget =>
    have hset := count_set Seat.handles hget .gone x
    -- destroying moves the handle to the list of the destroyed
    have hdestroyed : (if found then handle :: s.destroyed else s.destroyed).count x
        ≤ s.destroyed.count x + [handle].count x := by
      cases found with
      | false => exact Nat.le_add_right _ _
      | true =>
        show (handle :: s.destroyed).count x ≤ _
        rw [List.count_cons, List.count_singleton]
    simp only [Seat.handles, List.count_nil] at hset
    unfold Pool.owned
    simp only [Pool.destroy, Pool.setSeat]
    omega
  | dropModel found =>
    refine le_trans ?_ (Nat.le_add_right _ _)
    unfold Pool.owned Pool.dropModel
    cases found with
    | false => simp only [List.map_nil, List.count_nil, Bool.false_eq_true, if_false]; omega
    | true => simp only [List.map_nil, List.count_nil, if_true, List.count_append]; omega

/-- The pool keeps its bound. -/
theorem bounded_effect (hs : s.sessionPool.length ≤ maxPooledSessions) (h : Effect trusted s s') :
    s'.sessionPool.length ≤ maxPooledSessions := by
  cases h with
  | @take i index required plan pooled hget hpool hcapacity =>
    have hlength := (swapRemove_perm hpool).length_eq
    simp only [List.length_cons] at hlength
    show (swapRemove s.sessionPool index).length ≤ maxPooledSessions
    omega
  | @recycle i pooled hget hroom =>
    show (s.sessionPool ++ [pooled]).length ≤ maxPooledSessions
    rw [List.length_append]
    exact hroom
  | dropModel found => exact Nat.zero_le _
  | _ => exact hs

/-- Setting one seat keeps the others. -/
theorem adequate_set {i : Nat} {b : Seat} (hs : ∀ seat ∈ s.seats, seat.Adequate)
    (hb : b.Adequate) : ∀ seat ∈ s.seats.set i b, seat.Adequate := by
  intro seat hmem
  rcases List.mem_or_eq_of_mem_set hmem with hold | rfl
  · exact hs seat hold
  · exact hb

/-- Every session stays long enough for its request. -/
theorem adequate_effect (hs : ∀ seat ∈ s.seats, seat.Adequate) (h : Effect trusted s s') :
    ∀ seat ∈ s'.seats, seat.Adequate := by
  cases h with
  | idle => exact hs
  | start required plan =>
    intro seat hmem
    rcases List.mem_append.mp hmem with hold | hnew
    · exact hs seat hold
    · rw [List.mem_singleton.mp hnew]
      trivial
  | take hget hpool hcapacity => exact adequate_set hs hcapacity
  | create hget => exact adequate_set hs (Nat.le_refl _)
  | move hget hpass => exact adequate_set hs (hpass.adequate (hs _ (List.mem_of_getElem? hget)))
  | call hget hpass hown hfailed =>
    exact adequate_set hs (hpass.adequate (hs _ (List.mem_of_getElem? hget)))
  | recycle hget hroom => exact adequate_set hs trivial
  | destroy found hget => exact adequate_set hs trivial
  | dropModel found => exact hs

/-- The owner of a handle is one of the sessions that were created. -/
theorem Inv.owner_lt {i : Nat} {a : Seat} {handle : SessionHandle} (hs : Inv s)
    (hget : s.seats[i]? = some a) (hown : handle ∈ a.handles) : handle < s.created := by
  by_contra hlarge
  have hzero := hs.fresh handle (not_lt.mp hlarge)
  have hpos : 0 < (s.seats.flatMap Seat.handles).count handle := List.count_pos_iff.mpr
    (List.mem_flatMap.mpr ⟨a, List.mem_of_getElem? hget, hown⟩)
  unfold Pool.owned at hzero
  omega

/-- Only handles that exist are spoiled. -/
theorem spoiled_effect (hs : Inv s) (h : Effect trusted s s') : ∀ x ∈ s'.spoiled, x < s.created := by
  cases h with
  | @call i a b handle failed hget hpass hown hfailed =>
    intro x hmem
    cases failed with
    | false => exact hs.spoiled x hmem
    | true =>
      rcases List.mem_cons.mp hmem with rfl | hold
      · exact hs.owner_lt hget hown
      · exact hs.spoiled x hold
  | _ => exact hs.spoiled

/-- Every effect keeps the invariant. -/
theorem inv_effect (hs : Inv s) (h : Effect trusted s s') : Inv s' where
  once x := by
    have hle := owned_effect h x
    have honce := hs.once x
    split at hle
    · rename_i hnew
      have hzero := hs.fresh x hnew.1
      omega
    · omega
  fresh x hfresh := by
    have hle := owned_effect h x
    have hzero := hs.fresh x (le_trans (created_effect h) hfresh)
    rw [if_neg fun hnew => absurd hnew.2 (not_lt.mpr hfresh)] at hle
    omega
  bounded := bounded_effect hs.bounded h
  adequate := adequate_effect hs.adequate h
  spoiled x hmem := lt_of_lt_of_le (spoiled_effect hs h x hmem) (created_effect h)

/-- No spoiled session comes into the pool. -/
theorem clean_effect (hs : Inv s) (hclean : Clean s) (htrusted : trusted)
    (h : Effect trusted s s') : Clean s' := by
  cases h with
  | idle => exact hclean
  | start required plan =>
    intro x hmem
    have hreusable : (s.seats ++ [Seat.acquiring required plan]).flatMap Seat.reusable
        = s.seats.flatMap Seat.reusable := by simp [Seat.reusable]
    have hzero := hclean x hmem
    unfold Pool.reusable at hzero ⊢
    simp only [hreusable]
    exact hzero
  | @take i index required plan pooled hget hpool hcapacity =>
    intro x hmem
    have hset := count_set Seat.reusable hget (.resetting required plan pooled) x
    have hpooled := count_swapRemove hpool x
    have hzero := hclean x hmem
    simp only [Seat.reusable, List.count_nil] at hset
    unfold Pool.reusable at hzero ⊢
    simp only [Pool.setSeat]
    omega
  | @create i required plan hget =>
    intro x hmem
    have hset := count_set Seat.reusable hget
      (.prefilling required (plan.session ⟨s.created, required⟩)) x
    have hzero := hclean x hmem
    -- The new handle is none of those on which a call failed.
    have hold : x ≠ s.created := Nat.ne_of_lt (hs.spoiled x hmem)
    have hnew : [s.created].count x = 0 := by simp [Ne.symm hold]
    simp only [Seat.reusable, Plan.session, List.count_nil] at hset
    unfold Pool.reusable at hzero ⊢
    simp only [Pool.setSeat, Plan.session]
    omega
  | move hget hpass => exact clean_setSeat hs hclean hget hpass
  | call hget hpass hown hfailed =>
    exact clean_land _ _ hs hclean hget hpass fun hf => ⟨hown, hfailed htrusted hf⟩
  | @recycle i pooled hget hroom =>
    intro x hmem
    have hset := count_set Seat.reusable hget .gone x
    have hzero := hclean x hmem
    simp only [Seat.reusable, List.count_nil] at hset
    unfold Pool.reusable at hzero ⊢
    simp only [Pool.setSeat, List.map_append, List.map_cons, List.map_nil, List.count_append]
    omega
  | @destroy i handle found hget =>
    intro x hmem
    have hset := count_set Seat.reusable hget .gone x
    have hzero := hclean x hmem
    simp only [Seat.reusable, List.count_nil] at hset
    unfold Pool.reusable at hzero ⊢
    simp only [Pool.destroy, Pool.setSeat]
    omega
  | dropModel found =>
    intro x hmem
    have hzero := hclean x hmem
    unfold Pool.reusable at hzero ⊢
    simp only [Pool.dropModel, List.map_nil, List.count_nil]
    omega

theorem inv_initial : Inv {} where
  once h := Nat.zero_le _
  fresh h _ := rfl
  bounded := Nat.zero_le _
  adequate seat hmem := by cases hmem
  spoiled h hmem := by cases hmem

/-- Whatever the native library answers, in every run. -/
theorem inv_of_run {as : List Action} (hrun : run (step model) {} as = some s) : Inv s :=
  invariant_of_step (P := fun _ _ => True) (fun _ _ _ hs _ hstep => inv_effect hs (step_effect hstep))
    inv_initial (along_trivial (fun _ _ => trivial) _ _) hrun

end Runs

/-! ## Runs of one session -/

/-- A model with every optional call. -/
def sampleModel : TalkerModelInfo where
  config := { ttsBosTokenId := 1, ttsEosTokenId := 2, ttsPadTokenId := 3, codecBosId := 4,
              codecLanguageId := [], codecNothinkId := 5, codecPadId := 6, codecThinkBosId := 7,
              codecThinkEosId := 8, codecThinkId := 9 }
  deviceIndex := 0
  deviceFrameApi := true
  batchPump := true

def samplePlan : Plan where
  trailingText := [.ttsEos]
  codecEosToken := 2150
  maxFrames := 4

/-- A native frame with a token that does not end the stream. -/
def sampleFrame (endedByEos : Nat) : NativeFrame where
  codes := List.replicate codebooks 7
  nextSemanticToken := 11
  info := { talkerPosition := 9, endedByEos := endedByEos, predictorGpuMilliseconds := 0,
            talkerGpuMilliseconds := 0 }

/-- One session, from its start to its way back into the pool. -/
def sampleRun (endedByEos : Nat) : List Action :=
  [.start 8 64 samplePlan, .pop 0, .create 0 true, .prefill 0 (some 10),
    .nextFrame 0 (.ok (sampleFrame endedByEos)), .drop 0, .recycle 0]

end Qwen3Tts.Talker.SessionPool
