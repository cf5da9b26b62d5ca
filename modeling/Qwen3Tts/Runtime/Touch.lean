import Qwen3Tts.Runtime.Panic

/-!
# Runtime — what one step can write into a request

`LocalStep` says what a step does to a request without saying which program point does it. Three
facts need the program point: where a permit is released, where a phase becomes `Cancelled`, and
that nothing takes `retired` back. `Touch` collects them for one request and one step.
-/

namespace Qwen3Tts.Runtime

open Qwen3Tts.Lib

/-! ## Program points -/

/-- The worker is about to call `mark_cancelled`. -/
def Control.cancelling : Control → Bool
  | .cancelActive _ _ | .retirePending (.mark .cancelled) _ _
  | .retireActive (.mark .cancelled) _ _ => true
  | _ => false

/-- The request whose permit the worker is about to drop. -/
def Sys.releasing (s : Sys) : Option Nat :=
  match s.worker.control with
  | .retirePending .release p _ => some p.id
  | .retireActive (.release _) a _ => some a.id
  | .unwindPermit a => some a.id
  | .unwindPending => s.worker.pending.head?.map (·.id)
  | .discard => (queuedStarts s.channel).head?.map (·.id)
  | _ => none

/-- One step of the worker, seen from one request. -/
structure Touch (s : Sys) (id : Nat) (r r' : Request) : Prop where
  handle : r'.handle = r.handle
  retired : r.state.retired = true → r'.state.retired = true
  released : .released ∈ r'.history → .released ∈ r.history ∨ s.releasing = some id
  cancelled : r'.state.phase = .cancelled →
    r.state.phase = .cancelled ∨ s.worker.control.cancelling = true

/-! ## The elementary operations -/

namespace Touch

variable {s : Sys} {id : Nat} {r r' r'' : Request}

/-- A step that leaves the request alone. -/
theorem refl : Touch s id r r := ⟨rfl, fun h => h, .inl, .inl⟩

/-- Two writes of one step. The program point is that of the state before both. -/
theorem trans (h : Touch s id r r') (h' : Touch s id r' r'') : Touch s id r r'' where
  handle := h'.handle.trans h.handle
  retired := fun hr => h'.retired (h.retired hr)
  released := fun hr => (h'.released hr).elim h.released .inr
  cancelled := fun hr => (h'.cancelled hr).elim h.cancelled .inr

/-- Events are appended to the history; only `released` would need a program point. -/
theorem events {events : List Event} (hevents : .released ∉ events) :
    Touch s id r (r.emitAll events) where
  handle := rfl
  retired := fun h => h
  released := fun h => (List.mem_append.mp h).elim .inl fun hnew => absurd hnew hevents
  cancelled := .inl

/-- One event. -/
theorem emit {event : Event} (hevent : event ≠ .released) : Touch s id r (r.emit event) :=
  events (by simpa using fun h => hevent h.symm)

/-- The permit is given back at the program point that drops it. -/
theorem permit (h : s.releasing = some id) : Touch s id r (r.emit .released) :=
  ⟨rfl, fun h => h, fun _ => .inr h, .inl⟩

/-- A critical section on the request. -/
theorem shared {f : RequestShared → RequestShared}
    (hretired : r.state.retired = true → (f r.shared).state.retired = true)
    (hphase : (f r.shared).state.phase = .cancelled →
      r.state.phase = .cancelled ∨ s.worker.control.cancelling = true) :
    Touch s id r (r.onShared f) :=
  ⟨rfl, hretired, .inl, hphase⟩

/-- A mark, at a program point where it is made. -/
theorem mark {mark : Mark} (h : mark = .cancelled → s.worker.control.cancelling = true) :
    Touch s id r (r.applyMark mark) := by
  cases mark with
  | cancelled => exact shared (fun hr => hr) fun _ => .inr (h rfl)
  | failed cause =>
    have hmark : Touch s id (r.emit (.markedFailed cause))
        ((r.emit (.markedFailed cause)).onShared (·.markFailed cause.error)) :=
      shared (fun hr => hr) fun hphase => by cases hphase
    exact (emit (by simp)).trans hmark

end Touch

/-! ## Steps on the table of requests -/

namespace Sys

variable {s t : Sys} {id key : Nat}

@[simp] theorem goto_requests {control : Control} : (s.goto control).requests = s.requests := rfl
@[simp] theorem setActive_requests {active : List ActiveRequest} :
    (s.setActive active).requests = s.requests := rfl
@[simp] theorem setPending_requests {pending : List PendingStart} :
    (s.setPending pending).requests = s.requests := rfl

/-- A step that writes one entry of the table. -/
theorem touch_update {requests : Nat → Request} {r' : Request}
    (h : Touch t key (requests key) r') :
    Touch t id (requests id) (Function.update requests key r' id) := by
  by_cases hid : id = key
  · subst hid
    rw [Function.update_self]
    exact h
  · rw [Function.update_of_ne hid]
    exact .refl

@[simp] theorem onShared_requests {f : RequestShared → RequestShared} : (s.onShared key f).requests =
    Function.update s.requests key ((s.requests key).onShared f) := by
  obtain ⟨k, hk⟩ := s.onShared_eq key f
  rw [hk]

@[simp] theorem onRequest_requests {f : Request → Request} : (s.onRequest key f).requests =
    Function.update s.requests key (f (s.requests key)) := rfl

@[simp] theorem emit_requests {event : Event} : (s.emit key event).requests =
    Function.update s.requests key ((s.requests key).emit event) := rfl

@[simp] theorem trySend_requests {command : Command} :
    (s.trySend command).requests = s.requests := by
  rw [trySend_eq]

/-- An event in the history of the request `key`. -/
theorem touch_emit {event : Event} (hevent : event ≠ .released) :
    Touch t id (s.requests id) ((s.emit key event).requests id) :=
  touch_update (.emit hevent)

/-- A permit is dropped. -/
theorem touch_release (h : t.releasing = some key) :
    Touch t id (s.requests id) ((s.release key).requests id) := by
  exact touch_update (.permit h)

/-- A critical section on the request `key`: it does not take `retired` back, and it writes
`Cancelled` only at a program point of `mark_cancelled`. -/
theorem touch_onShared {f : RequestShared → RequestShared}
    (hretired : (s.shared key).state.retired = true → (f (s.shared key)).state.retired = true)
    (hphase : (f (s.shared key)).state.phase = .cancelled →
      (s.shared key).state.phase = .cancelled ∨ t.worker.control.cancelling = true) :
    Touch t id (s.requests id) ((s.onShared key f).requests id) := by
  rw [onShared_requests]
  exact touch_update (.shared hretired hphase)

/-- A mark on the request `key`. -/
theorem touch_mark {mark : Mark} (h : mark = .cancelled → t.worker.control.cancelling = true) :
    Touch t id (s.requests id) ((s.applyMark key mark).requests id) := by
  obtain ⟨k, hk⟩ := s.applyMark_eq key mark
  rw [hk]
  exact touch_update (.mark h)

/-- A call on the session of an active request, recorded when the session is there. -/
theorem touch_emitSession {a : ActiveRequest} {event : Event} (hevent : event ≠ .released) :
    Touch t id (s.requests id) ((s.emitSession a event).requests id) := by
  unfold emitSession
  split
  · exact touch_emit hevent
  · exact .refl

/-- A batch call writes its events into every request of the batch. -/
theorem touch_emitAll {events : List (Nat × List Event)}
    (h : ∀ e ∈ events, .released ∉ e.2) :
    Touch t id (s.requests id) ((emitAll events s).requests id) := by
  induction events generalizing s with
  | nil => exact .refl
  | cons entry events ih =>
    obtain ⟨hentry, hevents⟩ := List.forall_mem_cons.mp h
    -- The first entry is written, the others follow by induction.
    refine .trans (@touch_update _ id entry.1 _ _ (.events hentry)) ?_
    exact ih (s := s.onRequest entry.1 (·.emitAll entry.2)) hevents

/-! ## One step of the worker -/

/-- `recv` and `try_recv` move commands; they write into no request. -/
theorem receive_requests {s' : Sys} {site : Site} (h : s.receive site = some s') :
    s'.requests = s.requests := by
  unfold receive at h
  split at h
  · cases h
  · dsimp only at h
    split at h
    · cases h; rfl
    · cases h; rfl
    · cases h; rfl
    · split at h
      · cases h; rfl
      · cases h; rfl

/-- A step that keeps the table. -/
theorem touch_eq {s' : Sys} (h : s'.requests = s.requests) :
    Touch t id (s.requests id) (s'.requests id) := by
  rw [h]
  exact .refl

/-- The check of one request before `start_batch`: its cancellation flag is read, which is recorded.
-/
theorem touch_startCheck {todo ready : List PendingStart} :
    Touch t id (s.requests id) ((s.startCheck todo ready).requests id) := by
  unfold startCheck
  split
  · split <;> exact .refl
  · dsimp only
    split <;> exact touch_emit (by simp)

/-- A request of the batch is marked as prefilling, not as cancelled. -/
theorem touch_startMark {prefillStarted : Nat} {marked todo : List PendingStart} :
    Touch t id (s.requests id) ((s.startMark prefillStarted marked todo).requests id) := by
  unfold startMark
  split
  · exact .refl
  · exact touch_onShared (fun hr => hr) fun hphase => by cases hphase

/-- `start_batch` records what it did to each request. -/
theorem touch_startBatch {ready : List PendingStart}
    {results : Option (List (Except BackendError BackendStarted))} :
    Touch t id (s.requests id) ((s.startBatch ready results).requests id) := by
  refine touch_emitAll fun e he => ?_
  obtain ⟨o, -, rfl⟩ := List.mem_map.mp he
  simp

/-- A started request is marked as generating; the retirement of the others is a later step. -/
theorem touch_startResults {leftover : Bool}
    {todo : List (PendingStart × Except FailureCause BackendStarted)} :
    Touch t id (s.requests id) ((s.startResults leftover todo).requests id) := by
  unfold startResults
  split
  · exact .refl
  · exact touch_onShared (fun hr => hr) fun hphase => by cases hphase
  · exact .refl

/-- A request without a session is marked as failed; from any other the session is taken, and the
buffer out of its shared state. -/
theorem touch_takeSessions {s' : Sys} {stepStarted : Nat} {todo : List Nat}
    {selected : List Selected} (h : s.takeSessions stepStarted todo selected = some s') :
    Touch t id (s.requests id) (s'.requests id) := by
  unfold takeSessions at h
  split at h
  · cases h
    exact .refl
  · obtain ⟨a, -, rfl⟩ := Option.map_eq_some_iff.mp h
    dsimp only
    split
    · exact touch_mark (by simp)
    · split
      · exact .refl
      · -- the buffer moves, the state stays
        rename_i key _ _ _ _ _ pcm shared htake
        have hstate := RequestShared.takePcm_state htake
        exact touch_onShared (f := fun _ => shared) (fun hr => by rw [hstate]; exact hr)
          fun hphase => .inl (by rw [← hstate]; exact hphase)

/-- `settle` matches a packet with its request and chooses the next program point; the table stays.
-/
theorem settle_requests {s' : Sys} {stepMicroseconds : F32}
    {todo : List (Selected × Except FailureCause BackendPacket)}
    (h : s.settle stepMicroseconds todo = some s') : s'.requests = s.requests := by
  unfold settle at h
  split at h
  · cases h
    rfl
  · obtain ⟨a, -, rfl⟩ := Option.map_eq_some_iff.mp h
    dsimp only
    repeat' split
    all_goals rfl

/-- A critical section of `complete_step`: the buffer goes back, a failure is marked, the packet is
published. -/
theorem touch_substep {id' : Nat} {sub : Substep} {stepMicroseconds : F32}
    {todo : List (Selected × Except FailureCause BackendPacket)} :
    Touch t id (s.requests id) ((s.substep id' sub stepMicroseconds todo).requests id) := by
  unfold substep
  dsimp only
  split
  · exact touch_onShared (fun hr => hr) .inl
  · exact touch_mark (by simp)
  · split
    · rename_i packet _ _ shared hpush
      rw [RequestShared.pushPacket_eq] at hpush
      split at hpush
      · cases hpush
      · cases hpush
        obtain ⟨k, hk⟩ := s.onShared_emit_eq id'
          (fun _ => { s.shared id' with state := (s.shared id').state.publish packet _ })
          (.published packet)
        rw [goto_requests, hk]
        have hevent : Event.published packet ≠ .released := by simp
        refine touch_update (.trans (.shared (fun hr => hr) fun hphase => .inl ?_) (.emit hevent))
        -- the final packet completes the request, any other one keeps its phase
        by_cases hfinal : packet.descriptor.isFinal = 0
        · exact (if_neg (not_not.mpr hfinal)).symm.trans hphase
        · exact absurd ((if_pos hfinal).symm.trans hphase) (by decide)
    · exact .refl
  · exact touch_onShared (fun hr => hr) .inl
  · split <;> exact .refl

/-- `retire_pending` gives the permit back; only its mark can be `Cancelled`. -/
theorem touch_retirePending {step : RetirePendingStep} {p : PendingStart} {k : PendingReturn}
    (hc : t.worker.control = .retirePending step p k) :
    Touch t id (s.requests id) ((s.retirePending step p k).requests id) := by
  cases step with
  | mark mark =>
    refine touch_mark fun hmark => ?_
    rw [hc, hmark]
    rfl
  | release => exact touch_release (by rw [releasing, hc])
  | markRetired => exact touch_onShared (fun _ => rfl) .inl

/-- `retire_active` does the same, with two calls on the session before the permit is given back. -/
theorem touch_retireActive {step : RetireActiveStep} {a : ActiveRequest} {k : ActiveReturn}
    {panics : Bool} (hc : t.worker.control = .retireActive step a k) :
    Touch t id (s.requests id) ((s.retireActive step a k panics).requests id) := by
  cases step with
  | cancelBackend mark => exact touch_emitSession (by simp)
  | mark mark =>
    refine touch_mark fun hmark => ?_
    rw [hc, hmark]
    rfl
  | dropSession => exact touch_emitSession (by simp)
  | release unwinding => exact touch_release (by rw [releasing, hc])
  | markRetired => exact touch_onShared (fun _ => rfl) .inl

/-- Every step of the worker, seen from every request. The cases are the program points, in the
order of `workerStep`. -/
theorem workerStep_touch {s' : Sys} {choice : Choice} (h : s.workerStep choice = some s')
    (id : Nat) : Touch s id (s.requests id) (s'.requests id) := by
  unfold workerStep at h
  split at h
  all_goals try rename_i hc
  -- the steps with a lemma of their own
  case h_2 | h_20 => exact touch_eq (receive_requests h)
  case h_11 => cases h; exact touch_startCheck
  case h_12 => cases h; exact touch_startMark
  case h_13 => cases h; exact touch_startBatch
  case h_14 => cases h; exact touch_startResults
  case h_23 => exact touch_takeSessions h
  case h_26 => exact touch_eq (settle_requests h)
  case h_27 => cases h; exact touch_substep
  case h_29 => cases h; exact touch_retirePending hc
  case h_30 | h_31 => cases h; exact touch_retireActive hc
  -- the head of the loop
  case h_4 =>
    unfold drain at h
    split at h
    · cases h; exact .refl
    · exact touch_eq (receive_requests h)
  case h_6 =>
    unfold coalesce at h
    split at h
    · exact touch_eq (receive_requests h)
    · cases h; exact .refl
  case h_3 | h_5 | h_8 | h_22 =>
    split at h
    · cases h; exact .refl
    · cases h
  case h_1 | h_9 | h_17 | h_18 | h_28 =>
    cases h
    simp only [top, gate, removeCancelled, select, removeFinished]
    repeat' split
    all_goals exact .refl
  -- `mark_cancelled` on a request of `active`
  case h_10 =>
    cases h
    unfold cancelActive
    dsimp only
    split
    · exact touch_onShared (fun hr => hr) fun _ => .inr (by rw [hc]; rfl)
    · exact .refl
  case h_19 =>
    obtain ⟨a, -, rfl⟩ := Option.map_eq_some_iff.mp h
    split <;> exact .refl
  case h_7 | h_15 | h_16 | h_21 | h_39 => cases h; exact .refl
  case h_24 => cases h; exact touch_mark (by simp)
  case h_25 =>
    cases h
    refine touch_emitAll fun e he => ?_
    obtain ⟨o, -, rfl⟩ := List.mem_map.mp he
    simp
  -- the end of `worker_loop`
  case h_32 | h_33 =>
    cases h
    simp only [exitActive, exitPending]
    split <;> exact .refl
  case h_34 =>
    cases h
    unfold exitChannel
    split <;> exact .refl
  case h_35 | h_36 =>
    cases h
    unfold unwindActive
    split
    · exact .refl
    · have hevent : Event.sessionDropped ≠ .released := by simp
      rename_i a active _
      exact touch_emitSession (s := s.setActive active) (a := a) hevent
  -- the permits that fall with the worker
  case h_37 => cases h; exact touch_release (by rw [releasing, hc])
  case h_38 =>
    cases h
    unfold unwindPending
    split
    · exact .refl
    · rename_i hpending
      refine touch_release ?_
      rw [releasing, hc]
      simp only [hpending, List.head?_cons, Option.map_some]
  -- and those of the starts nobody received
  case h_40 =>
    cases h
    unfold discard
    split
    · exact .refl
    · rename_i hchannel
      refine touch_release ?_
      rw [releasing, hc]
      simp only [hchannel, queuedStarts_start, List.head?_cons, Option.map_some]
    · exact .refl
  case h_41 => cases h

end Sys

/-! ## One step of a client -/

/-- One step of a client, seen from one request. -/
structure ClientTouch (s : Sys) (a : Action) (id : Nat) (r r' : Request) : Prop where
  returned : r'.handle ≠ .notReturned →
    r.handle ≠ .notReturned ∨ (a = .sendStart id ∧ s.receiverAlive = true)
  retired : r.state.retired = true → r'.state.retired = true
  released : .released ∈ r'.history →
    .released ∈ r.history ∨ (a = .sendStart id ∧ s.receiverAlive = false)
  cancelled : r'.state.phase = .cancelled → r.state.phase = .cancelled

namespace ClientTouch

variable {s : Sys} {a : Action} {id key : Nat} {r r' r'' : Request}

theorem refl : ClientTouch s a id r r := ⟨.inl, fun h => h, .inl, fun h => h⟩

theorem trans (h : ClientTouch s a id r r') (h' : ClientTouch s a id r' r'') :
    ClientTouch s a id r r'' where
  returned := fun hr => (h'.returned hr).elim h.returned .inr
  retired := fun hr => h'.retired (h.retired hr)
  released := fun hr => (h'.released hr).elim h.released .inr
  cancelled := fun hr => h.cancelled (h'.cancelled hr)

theorem update {requests : Nat → Request} {r' : Request}
    (h : ClientTouch s a key (requests key) r') :
    ClientTouch s a id (requests id) (Function.update requests key r' id) := by
  by_cases hid : id = key
  · subst hid
    rw [Function.update_self]
    exact h
  · rw [Function.update_of_ne hid]
    exact .refl

/-- A step that keeps the handle and the history. -/
theorem shared {f : RequestShared → RequestShared}
    (hretired : r.state.retired = true → (f r.shared).state.retired = true)
    (hphase : (f r.shared).state.phase = .cancelled → r.state.phase = .cancelled) :
    ClientTouch s a id r (r.onShared f) := ⟨.inl, hretired, .inl, hphase⟩

theorem emit {event : Event} (hevent : event ≠ .released) : ClientTouch s a id r (r.emit event) where
  returned := .inl
  retired := fun h => h
  released := fun h => (List.mem_append.mp h).elim .inl fun hnew =>
    absurd (List.mem_singleton.mp hnew).symm hevent
  cancelled := fun h => h

end ClientTouch

/-- `poll` cancels nothing and takes nothing back. -/
theorem RequestShared.poll_state (r : RequestShared) (now : Nat) :
    (r.poll now).2.state.retired = r.state.retired ∧
      ((r.poll now).2.state.phase = r.state.phase ∨ (r.poll now).2.state.phase = .completed) := by
  unfold poll
  repeat' split
  all_goals first
    | exact ⟨rfl, .inl rfl⟩
    | exact ⟨rfl, .inr rfl⟩

theorem RequestShared.requestCancel_state (r : RequestShared) :
    r.requestCancel.2.state.retired = r.state.retired ∧
      r.requestCancel.2.state.phase = r.state.phase := by
  unfold requestCancel
  split
  · exact ⟨rfl, rfl⟩
  · exact ⟨rfl, rfl⟩

namespace Sys

variable {s s' : Sys} {a : Action} {id : Nat}

theorem start_clientTouch {input : RequestInput} {generation : GenerationConfig} (hs : Coherent s)
    (h : s.start input generation = .ok s') :
    ClientTouch s a id (s.requests id) (s'.requests id) := by
  unfold start at h
  repeat' split at h
  all_goals cases h
  refine .update ⟨fun h => absurd rfl h, fun h => ?_, fun h => ?_, fun h => ?_⟩
  · rw [(hs.fresh _ le_rfl).1] at h
    cases h
  · simp at h
  · cases h

theorem sendStart_clientTouch {key : Nat} (h : s.sendStart key = some s') :
    ClientTouch s (.sendStart key) id (s.requests id) (s'.requests id) := by
  unfold sendStart at h
  split at h
  · cases h
  · split at h
    · split at h
      · cases h
        exact .update ⟨fun _ => .inr ⟨rfl, by assumption⟩, fun h => h, .inl, fun h => h⟩
      · cases h
    · cases h
      have hdead : s.receiverAlive = false := Bool.eq_false_iff.mpr (by assumption)
      exact .update ⟨.inl, fun h => h, fun _ => .inr ⟨rfl, hdead⟩, fun h => h⟩

theorem poll_clientTouch {key : Nat} (h : s.poll key = some s') :
    ClientTouch s a id (s.requests id) (s'.requests id) := by
  obtain ⟨hretired, hphase⟩ := (s.shared key).poll_state s.now
  unfold poll at h
  split at h
  · have hshared : ClientTouch s a key (s.requests key)
        ((s.requests key).onShared fun _ => ((s.shared key).poll s.now).2) :=
      .shared (fun hr => by rw [hretired]; exact hr) fun hr => by
        rcases hphase with hsame | hdone
        · exact hsame.symm.trans hr
        · exact absurd (hdone.symm.trans hr) (by decide)
    have hpolled : ∀ answer, ClientTouch s a id (s.requests id)
        (((s.onShared key fun _ => ((s.shared key).poll s.now).2).emit key
          (.polled answer)).requests id) := by
      intro answer
      have hevent : Event.polled answer ≠ .released := by simp
      rw [emit_requests, onShared_requests]
      exact .trans (.update hshared) (.update (.emit hevent))
    cases h
    dsimp only
    split
    · rw [trySend_requests]
      refine (hpolled _).trans (.update ⟨.inl, fun h => h, .inl, fun h => h⟩)
    · exact hpolled _
  · cases h

theorem cancelMark_clientTouch {key : Nat} (h : s.cancelMark key = some s') :
    ClientTouch s a id (s.requests id) (s'.requests id) := by
  obtain ⟨hretired, hphase⟩ := (s.shared key).requestCancel_state
  unfold cancelMark at h
  split at h
  · have hshared : ClientTouch s a key (s.requests key)
        ((s.requests key).onShared fun _ => (s.shared key).requestCancel.2) :=
      .shared (fun hr => by rw [hretired]; exact hr) fun hr => hphase.symm.trans hr
    cases h
    dsimp only
    split
    · have hevent : Event.cancelRequested ≠ .released := by simp
      rw [onRequest_requests, emit_requests, onShared_requests]
      exact .trans (.update hshared)
        (.trans (.update (.emit hevent)) (.update ⟨.inl, fun h => h, .inl, fun h => h⟩))
    · rw [onRequest_requests, onShared_requests]
      exact .trans (.update hshared) (.update ⟨.inl, fun h => h, .inl, fun h => h⟩)
  · cases h

theorem dropPacket_clientTouch {key index : Nat} (h : s.dropPacket key index = some s') :
    ClientTouch s a id (s.requests id) (s'.requests id) := by
  unfold dropPacket at h
  split at h
  · cases h
  · cases h
    have hdrop : ClientTouch s a id (s.requests id)
        ((s.onRequest key fun r => { r with outstanding := r.outstanding.eraseIdx index }).requests id) :=
      .update ⟨.inl, fun h => h, .inl, fun h => h⟩
    split
    · rw [onShared_requests]
      exact hdrop.trans (.update (.shared (fun h => h) fun h => h))
    · exact hdrop

theorem step_clientTouch (hs : Coherent s) (ha : ∀ choice, a ≠ .worker choice)
    (h : s.step a = some s') (id : Nat) :
    ClientTouch s a id (s.requests id) (s'.requests id) := by
  cases a with
  | tick => cases h; exact .refl
  | start input generation =>
    simp only [step] at h
    -- each client step is refused or changes one request
    split at h
    · cases h
      split
      · exact start_clientTouch hs (by assumption)
      · exact .refl
    · cases h
  | sendStart key => exact sendStart_clientTouch h
  | dropScheduler =>
    simp only [step] at h
    split at h
    · cases h; exact .refl
    · cases h
  | sendShutdown =>
    simp only [step] at h
    split at h
    · cases h
      rw [trySend_requests]
      exact .refl
    · cases h
  | poll key => exact poll_clientTouch h
  | cancelSwap key =>
    simp only [step, cancelSwap] at h
    split at h
    · cases h
      exact .update ⟨.inl, fun h => h, .inl, fun h => h⟩
    · cases h
  | cancelMark key => exact cancelMark_clientTouch h
  | cancelSend key =>
    simp only [step, cancelSend] at h
    split at h
    · cases h
      rw [onRequest_requests, trySend_requests]
      exact .update ⟨.inl, fun h => h, .inl, fun h => h⟩
    · cases h
  | dropHandle key =>
    simp only [step, dropHandle] at h
    split at h
    · rename_i howned
      cases h
      refine .update ⟨fun _ => .inl ?_, fun h => h, .inl, fun h => h⟩
      rw [howned.1]
      simp
    · cases h
  | dropPacket key index => exact dropPacket_clientTouch h
  | worker choice => exact absurd rfl (ha choice)

end Sys

end Qwen3Tts.Runtime
