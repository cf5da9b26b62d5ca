import Mathlib.Data.List.Nodup
import Qwen3Tts.Codec.Effect

/-!
# Codec — device-packet tickets

A successful `begin` hands out the next ticket, a `finish` has to present it. Which ticket is
pending is read off the log (`ticketAfter`): the last one issued, unless something retired it
since. The session's own fields agree with that, ids are never reused because `next_device_ticket_id`
survives resets, and so a retired ticket can never be accepted again.
-/

namespace Qwen3Tts.Codec

open Qwen3Tts.Lib

/-! ## Tickets in a log -/

/-- The ticket a successful `begin` issued. -/
def issuedTicket : Event → Option Nat
  | .deviceBegin ticket .ok => some ticket
  | _ => none

/-- The ticket a successful `finish` retired. -/
def finishedTicket : Event → Option Nat
  | .deviceFinish ticket _ .ok => some ticket
  | _ => none

/-- The tickets `begin` returned, oldest first. -/
def issued (h : List Event) : List Nat := h.filterMap issuedTicket

/-- The tickets `finish` accepted, oldest first. -/
def finished (h : List Event) : List Nat := h.filterMap finishedTicket

/-- The event ends the life of the pending ticket: it was accepted, its packet failed to complete,
or the session was cancelled or reset. -/
def Event.retires : Event → Bool
  | .deviceFinish _ _ .ok | .deviceFinish _ _ (.failed _) | .cancel .ok | .reset .ok
  | .warmupReset .ok => true
  | _ => false

/-- The last ticket issued, unless it was retired. -/
def ticketAfter (h : List Event) : Option Nat :=
  h.foldl (fun ticket e => (issuedTicket e).or (if e.retires then none else ticket)) none

section

variable {h h' : List Event} {e : Event}

@[simp] theorem issued_append : issued (h ++ h') = issued h ++ issued h' := List.filterMap_append

@[simp] theorem issued_cons : issued (e :: h) = (issuedTicket e).toList ++ issued h := by
  unfold issued
  cases he : issuedTicket e <;> simp [he]

@[simp] theorem issued_nil : issued [] = [] := rfl

@[simp] theorem finished_append : finished (h ++ h') = finished h ++ finished h' :=
  List.filterMap_append

/-- The ticket that is in flight after one more event. -/
@[simp] theorem ticketAfter_concat : ticketAfter (h ++ [e]) =
    (issuedTicket e).or (if e.retires then none else ticketAfter h) := by
  simp [ticketAfter]

/-- The pending ticket is the last one issued, and nothing behind its `begin` retired it. -/
theorem ticketAfter_eq_some {ticket : Nat} (hticket : ticketAfter h = some ticket) :
    ∃ before after, h = before ++ .deviceBegin ticket .ok :: after ∧ issued after = [] ∧
      ∀ e ∈ after, e.retires = false := by
  -- by induction on the log from its end
  induction h using List.reverseRecOn with
  | nil => cases hticket
  | append_singleton h e ih =>
    rw [ticketAfter_concat] at hticket
    cases hissued : issuedTicket e with
    | some new =>
      rw [hissued] at hticket
      cases hticket
      obtain rfl : e = .deviceBegin ticket .ok := by
        unfold issuedTicket at hissued
        split at hissued
        · cases hissued; rfl
        · cases hissued
      exact ⟨h, [], rfl, rfl, nofun⟩
    | none =>
      rw [hissued, Option.none_or] at hticket
      cases hretires : e.retires with
      | true => simp [hretires] at hticket
      | false =>
        -- the event neither issues nor retires a ticket, so the earlier one is still in flight
        obtain ⟨before, after, rfl, hnone, hquiet⟩ := ih (by simpa [hretires] using hticket)
        refine ⟨before, after ++ [e], by simp, by simp [hnone, hissued], fun e' he' => ?_⟩
        rcases List.mem_append.mp he' with hold | hnew
        · exact hquiet e' hold
        · rwa [List.mem_singleton.mp hnew]

end

/-! ## Statement -/

/-- `finish` accepts the ticket of the most recent `begin`. -/
def AcceptsLatest (h : List Event) : Prop :=
  Always (fun before e => ∀ ticket isFinal, e = .deviceFinish ticket isFinal .ok →
    (issued before).getLast? = some ticket) h

/-- A ticket issued before an event that `ends` tickets is not accepted behind it. -/
def RefusesStale (ends : Event → Bool) (h : List Event) : Prop :=
  Always (fun before e => ∀ ticket isFinal, e = .deviceFinish ticket isFinal .ok →
    ∀ earlier ending between, before = earlier ++ ending :: between → ends ending = true →
      ticket ∉ issued earlier) h

/-- What a packet changes when it is accepted. -/
def Session.positions (s : Session) : Nat × Nat × Nat :=
  (s.framePosition, s.emittedSamples, s.nextRingSlot)

/-- A packet call other than the `finish` of the pending ticket. -/
def Call.isOther (s : Session) : Call → Bool
  | .processPacket _ _ | .fixturePacket _ _ | .deviceBegin _ _ | .warmup _ _ => true
  | .deviceFinish _ request => request.ticketId ≠ s.pendingDeviceTicketId
  | _ => false

structure TicketDiscipline (s : Sys) : Prop where
  pending : s.session.devicePacketPending = true ↔ s.session.pendingDeviceTicketId ≠ 0
  shape : s.session.devicePacketPending = true →
    (0 < s.session.pendingFrameCount ∧ s.session.pendingFrameCount ≤ maxPacketFrames) ∧
      s.session.pendingRingSlot = s.session.nextRingSlot
  latest : AcceptsLatest s.log
  once : (finished s.log).Nodup
  stale : RefusesStale Event.retires s.log
  frozen : s.session.devicePacketPending = true → ∀ c s', c.isOther s.session = true →
    s.step c = some s' → s'.session.positions = s.session.positions

/-! ## Invariant -/

def anyEvent : Session → Event → Prop := fun _ _ => True

structure Tickets (s : Sys) : Prop where
  pending : s.session.devicePacketPending = true ↔ s.session.pendingDeviceTicketId ≠ 0
  shape : s.session.devicePacketPending = true →
    (0 < s.session.pendingFrameCount ∧ s.session.pendingFrameCount ≤ maxPacketFrames) ∧
      s.session.pendingRingSlot = s.session.nextRingSlot
  current : ticketAfter s.log =
    if s.session.devicePacketPending then some s.session.pendingDeviceTicketId else none
  positive : 0 < s.session.nextDeviceTicketId
  below : ∀ ticket ∈ issued s.log, ticket < s.session.nextDeviceTicketId
  distinct : (issued s.log).Nodup
  accepted : Always (fun before e => ∀ ticket isFinal, e = .deviceFinish ticket isFinal .ok →
    ticketAfter before = some ticket) s.log

attribute [local simp] issuedTicket Event.retires

variable {s : Sys} {e : Event} {session : Session}

/-- A packet is pending exactly while its ticket is kept. -/
theorem Tickets.step_pending (hs : Tickets s) (h : Effect s.session e session) :
    session.devicePacketPending = true ↔ session.pendingDeviceTicketId ≠ 0 := by
  have hpending := hs.pending
  have hpositive := hs.positive
  cases h
  case beginOk => simp; omega
  all_goals simp_all

/-- What is recorded about the pending packet was checked by `begin`. -/
theorem Tickets.step_shape (hs : Tickets s) (h : Effect s.session e session) :
    session.devicePacketPending = true →
      (0 < session.pendingFrameCount ∧ session.pendingFrameCount ≤ maxPacketFrames) ∧
        session.pendingRingSlot = session.nextRingSlot := by
  have hshape := hs.shape
  cases h
  case packetOk hopen => simp [hopen.pending]
  all_goals simp_all

/-- The log and the session agree on the ticket in flight. -/
theorem Tickets.step_current (hs : Tickets s) (h : Effect s.session e session) :
    ticketAfter (s.log ++ [e]) =
      if session.devicePacketPending then some session.pendingDeviceTicketId else none := by
  have hcurrent := hs.current
  rw [ticketAfter_concat]
  cases h
  case beginPoisoned hopen => simp [hcurrent, hopen.pending]
  case fixtureBroken outcome _ _ _ => cases outcome <;> simp_all
  case cancelBroken outcome _ | resetBroken outcome _ | warmupBroken outcome _ =>
    cases outcome <;> simp_all
  all_goals simp_all

/-- A new ticket is greater than every earlier one. -/
theorem Tickets.step_issued (hs : Tickets s) (h : Effect s.session e session) :
    (∀ ticket ∈ issued (s.log ++ [e]), ticket < session.nextDeviceTicketId) ∧
      (issued (s.log ++ [e])).Nodup ∧ 0 < session.nextDeviceTicketId := by
  have hbelow := hs.below
  have hdistinct := hs.distinct
  have hpositive := hs.positive
  rw [issued_append]
  cases h
  case beginOk =>
    -- the new ticket is above all earlier ones
    have hnew : s.session.nextDeviceTicketId ∉ issued s.log :=
      fun hmem => Nat.lt_irrefl _ (hbelow _ hmem)
    refine ⟨fun ticket hmem => ?_, ?_, Nat.succ_pos _⟩
    · rcases (by simpa using hmem : ticket ∈ issued s.log ∨ ticket = _) with hold | rfl
      · exact Nat.lt_succ_of_lt (hbelow ticket hold)
      · exact Nat.lt_succ_self _
    · simpa using List.Nodup.append hdistinct (List.nodup_singleton _) (by simpa using hnew)
  all_goals simp_all

/-- A successful `finish` names the ticket in flight. -/
theorem Tickets.step_accepted (hs : Tickets s) (h : Effect s.session e session) :
    ∀ ticket isFinal, e = .deviceFinish ticket isFinal .ok → ticketAfter s.log = some ticket := by
  have hcurrent := hs.current
  cases h
  all_goals simp_all

/-- A move of the session keeps the invariant. -/
theorem Tickets.move {s' : Sys} (hs : Tickets s) (h : Move anyEvent s s') : Tickets s' := by
  cases h with
  | debug frames hpending => exact { hs with }
  | event heffect _ => exact {
      pending := hs.step_pending heffect
      shape := hs.step_shape heffect
      current := hs.step_current heffect
      positive := (hs.step_issued heffect).2.2
      below := (hs.step_issued heffect).1
      distinct := (hs.step_issued heffect).2.1
      accepted := always_concat.mpr ⟨hs.accepted, hs.step_accepted heffect⟩ }

/-- The invariant holds after every run. -/
theorem tickets_of_run {fastMode : Bool} {calls : List Call}
    (hrun : run Sys.step (.init fastMode) calls = some s) : Tickets s := by
  refine @invariant_of_move anyEvent (fun _ _ => True) Tickets (fun _ _ hs h => hs.move h)
    (fun s c _ _ => ?_) fastMode ?_ calls s (along_trivial (fun _ _ => trivial) _ _) hrun
  · cases c with
    | warmup => exact fun _ _ => ⟨trivial, trivial⟩
    | _ => trivial
  · constructor
    case accepted => exact always_nil
    all_goals simp [Sys.init, Session.fresh, ticketAfter]

/-! ## The contract of a ticket -/

/-- What was accepted was issued last and not retired. -/
theorem Tickets.latest (hs : Tickets s) : AcceptsLatest s.log := by
  refine Always.mono (fun before e hticket => ?_) hs.accepted
  rintro ticket isFinal rfl
  obtain ⟨earlier, after, rfl, hnone, -⟩ := ticketAfter_eq_some (hticket ticket isFinal rfl)
  simp [hnone]

/-- A ticket that is no longer in flight is refused. -/
theorem Tickets.stale (hs : Tickets s) : RefusesStale Event.retires s.log := by
  rintro before e after hlog ticket isFinal rfl earlier ending between rfl hretires hmem
  obtain ⟨first, rest, hsplit, -, hquiet⟩ :=
    ticketAfter_eq_some (hs.accepted _ _ after hlog ticket isFinal rfl)
  -- the retiring event lies before the `begin`, and so does everything before it
  have hprefix : earlier <+: first := by
    rcases List.append_eq_append_iff.mp hsplit with ⟨middle, hfirst, -⟩ | ⟨middle, hearlier, htail⟩
    · exact ⟨middle, hfirst.symm⟩
    · cases middle with
      | nil => exact ⟨[], by simpa using hearlier⟩
      | cons head middle =>
        exfalso
        rw [List.cons_append, List.cons.injEq] at htail
        have hin : ending ∈ rest := by rw [htail.2]; simp
        have hnot := hquiet ending hin
        rw [hretires] at hnot
        cases hnot
  have hfirst : ticket ∈ issued first := by
    obtain ⟨middle, rfl⟩ := hprefix
    simp [hmem]
  have hdistinct := hs.distinct
  rw [hlog, hsplit] at hdistinct
  simp only [issued_append, issued_cons, issuedTicket, Option.toList_some,
    List.singleton_append, List.append_assoc] at hdistinct
  exact List.disjoint_of_nodup_append hdistinct hfirst (by simp)

/-- Accepting a ticket retires it. -/
theorem finished_nodup {h : List Event} (hlatest : AcceptsLatest h)
    (hstale : RefusesStale Event.retires h) : (finished h).Nodup := by
  -- by induction on the log from its end
  induction h using List.reverseRecOn with
  | nil => exact List.nodup_nil
  | append_singleton h e ih =>
    obtain ⟨hpast, -⟩ := always_concat.mp hlatest
    obtain ⟨hquiet, hfresh⟩ := always_concat.mp hstale
    have hbefore := ih hpast hquiet
    rw [finished_append]
    cases hfinished : finishedTicket e with
    | none => simpa [finished, hfinished] using hbefore
    | some ticket =>
      obtain ⟨isFinal, rfl⟩ : ∃ isFinal, e = .deviceFinish ticket isFinal .ok := by
        unfold finishedTicket at hfinished
        split at hfinished
        · cases hfinished; exact ⟨_, rfl⟩
        · cases hfinished
      -- had it been retired before, it would have been stale now
      have hnew : ticket ∉ finished h := by
        intro hmem
        obtain ⟨e', he', hticket⟩ := List.mem_filterMap.mp hmem
        obtain ⟨before, after, rfl⟩ := List.append_of_mem he'
        unfold finishedTicket at hticket
        split at hticket
        · cases hticket
          have hissued := List.mem_of_getLast? (hpast before _ after rfl _ _ rfl)
          exact hfresh _ _ rfl before _ after rfl rfl hissued
        · cases hticket
      have hone : finished [Event.deviceFinish ticket isFinal .ok] = [ticket] := rfl
      rw [hone]
      exact List.Nodup.append hbefore (List.nodup_singleton ticket) (by simpa using hnew)

/-- While a ticket is pending, every other packet call is turned away. -/
theorem Effect.frozen {s s' : Session} {e : Event} (h : Effect s e s')
    (hpending : s.devicePacketPending = true)
    (hother : ∀ ticket isFinal outcome, e = .deviceFinish ticket isFinal outcome →
      ticket ≠ s.pendingDeviceTicketId)
    (hclears : ∀ outcome, e ≠ .cancel outcome ∧ e ≠ .reset outcome ∧ e ≠ .warmupReset outcome) :
    s'.positions = s.positions := by
  -- the packet calls need a session with nothing pending, the finish needs the pending ticket
  cases h
  case packetOk hopen | beginPoisoned hopen | packetFailed hopen | beginOk hopen _ _ =>
    have h := hopen.pending
    rw [hpending] at h
    cases h
  case fixtureOk h =>
    rw [hpending] at h
    cases h
  case finishPoisoned | finishOk => exact absurd rfl (hother _ _ _ rfl)
  case cancelOk => exact absurd rfl (hclears .ok).1
  case resetOk => exact absurd rfl (hclears .ok).2.1
  case warmupOk => exact absurd rfl (hclears .ok).2.2
  all_goals rfl

/-- A packet call other than the `finish` of the pending ticket moves no position. -/
theorem Sys.step_frozen {s s' : Sys} {c : Call} (hpending : s.session.devicePacketPending = true)
    (hother : c.isOther s.session = true) (h : s.step c = some s') :
    s'.session.positions = s.session.positions := by
  cases c with
  | processPacket env request =>
    cases h
    exact Session.processPacket_effect.frozen hpending nofun fun _ => ⟨nofun, nofun, nofun⟩
  | fixturePacket env request =>
    cases h
    exact Session.processFixturePacket_effect.frozen hpending nofun fun _ => ⟨nofun, nofun, nofun⟩
  | deviceBegin env request =>
    cases h
    exact Session.processDevicePacketBegin_effect.frozen hpending nofun
      fun _ => ⟨nofun, nofun, nofun⟩
  | deviceFinish env request =>
    cases h
    have hticket : request.ticketId ≠ s.session.pendingDeviceTicketId := by
      simpa [Call.isOther] using hother
    refine Session.processDevicePacketFinish_effect.frozen hpending ?_
      fun _ => ⟨nofun, nofun, nofun⟩
    rintro _ _ _ ⟨⟩
    exact hticket
  | warmup env resetFaults =>
    cases h
    have hfresh : s.session.isFresh = false := by simp [Session.isFresh, hpending]
    rw [Sys.warmup, if_pos (.inr hfresh)]
  | _ => cases hother

/-- **Tickets are single-use** in every run. -/
theorem ticket_discipline {fastMode : Bool} {calls : List Call} {s : Sys}
    (hrun : run Sys.step (.init fastMode) calls = some s) : TicketDiscipline s := by
  have hs := tickets_of_run hrun
  exact {
    pending := hs.pending
    shape := hs.shape
    latest := hs.latest
    once := finished_nodup hs.latest hs.stale
    stale := hs.stale
    frozen := fun hpending _ _ hother hstep => Sys.step_frozen hpending hother hstep }

/-- A ticket is cancelled and stays refused after a reset; the next one is accepted. -/
def callsToRevive : List Call :=
  [.deviceBegin (.failing []) .single, .cancel (.failing []), .reset (.failing []),
    .deviceFinish (.failing []) (.single 1 samplesPerFrame), .deviceBegin (.failing []) .single,
    .deviceFinish (.failing []) (.single 2 samplesPerFrame)]

set_option maxRecDepth 20000 in
theorem ticket_discipline_cancelled :
    ∃ s, run Sys.step (.init false) callsToRevive = some s ∧
      s.log = [.deviceBegin 1 .ok, .cancel .ok, .reset .ok,
        .deviceFinish 1 false (.rejected .state), .deviceBegin 2 .ok, .deviceFinish 2 false .ok] ∧
      TicketDiscipline s := by
  have hlog : (run Sys.step (.init false) callsToRevive).map (·.log) =
      some [.deviceBegin 1 .ok, .cancel .ok, .reset .ok,
        .deviceFinish 1 false (.rejected .state), .deviceBegin 2 .ok,
        .deviceFinish 2 false .ok] := by
    decide
  obtain ⟨s, hrun, hs⟩ := Option.map_eq_some_iff.mp hlog
  exact ⟨s, hrun, hs, ticket_discipline hrun⟩

/-! ## A failed `finish` that retires nothing -/

/-- Every `finish` that does not succeed, also one with arguments that do not fit. -/
def Event.retiresOrFails : Event → Bool
  | .deviceFinish _ _ _ => true
  | e => e.retires

/-- The buffer of the first `finish` is too small. -/
def callsToRetry : List Call :=
  [.deviceBegin (.failing []) .single, .deviceFinish (.failing []) (.single 1 0),
    .deviceFinish (.failing []) (.single 1 samplesPerFrame)]

set_option maxRecDepth 20000 in
/-- The ticket is accepted after a `finish` was rejected. -/
theorem rejected_finish_retires_nothing :
    ∃ s, run Sys.step (.init false) callsToRetry = some s ∧
      ¬ RefusesStale Event.retiresOrFails s.log := by
  have hlog : (run Sys.step (.init false) callsToRetry).map (·.log) =
      some [.deviceBegin 1 .ok, .deviceFinish 1 false (.rejected .invalidArgument),
        .deviceFinish 1 false .ok] := by
    decide
  obtain ⟨s, hrun, hs⟩ := Option.map_eq_some_iff.mp hlog
  refine ⟨s, hrun, fun hstale => ?_⟩
  have h := hstale [.deviceBegin 1 .ok, .deviceFinish 1 false (.rejected .invalidArgument)] _ [] hs
    1 false rfl [.deviceBegin 1 .ok] _ [] rfl rfl
  exact h (by decide)

end Qwen3Tts.Codec
