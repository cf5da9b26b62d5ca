import Mathlib.Logic.Relation
import Qwen3Tts.Codec.Session

/-!
# Codec — what a call can do to a session

`Effect s event s'` lists, for every outcome of every API call, under which flags it can occur and
what it leaves. A call is a short chain of such effects (`step_moves`); every invariant of a
session is proved for one effect and carried to runs by `invariant_of_move`.
-/

namespace Qwen3Tts.Codec

open Qwen3Tts.Lib

/-- What `validate_neural_packet_state` asks of the flags. -/
structure Session.Open (s : Session) : Prop where
  finalized : s.finalized = false
  cancelled : s.cancelled = false
  pending : s.devicePacketPending = false

attribute [simp] Session.commit Session.commitFixture Session.clearPendingDevicePacket
  Session.poison Session.resetFields

inductive Effect : Session → Event → Session → Prop
  | packetRejected {s isFinal status} :
      Effect s (.processPacket isFinal (.rejected status)) s
  | packetUnselected {s isFinal} (hopen : s.Open) :
      Effect s (.processPacket isFinal .unselected) s
  | packetFailed {s isFinal enqueued} (graphs : List Nat) (hopen : s.Open) :
      Effect s (.processPacket isFinal (.failed enqueued)) { s with graphReady := graphs }
  | packetOk {s isFinal frameCount} (graphs : List Nat) (hopen : s.Open) :
      Effect s (.processPacket (isFinal ≠ 0) .ok)
        ({ s with graphReady := graphs }.commit frameCount isFinal)
  | fixtureRejected {s isFinal status} :
      Effect s (.fixturePacket isFinal (.rejected status)) s
  | fixtureBroken {s isFinal outcome} (houtcome : outcome ≠ .ok) (hfinalized : s.finalized = false)
      (hpending : s.devicePacketPending = false) :
      Effect s (.fixturePacket isFinal outcome) s
  | fixtureOk {s isFinal frameCount} (hfinalized : s.finalized = false)
      (hpending : s.devicePacketPending = false) :
      Effect s (.fixturePacket (isFinal ≠ 0) .ok) (s.commitFixture frameCount isFinal)
  | beginRejected {s status} :
      Effect s (.deviceBegin s.nextDeviceTicketId (.rejected status)) s
  | beginUnselected {s} (hopen : s.Open) :
      Effect s (.deviceBegin s.nextDeviceTicketId .unselected) s
  | beginUninspected {s} (hopen : s.Open) :
      Effect s (.deviceBegin s.nextDeviceTicketId (.failed false)) s
  | beginPoisoned {s enqueued} (hopen : s.Open) :
      Effect s (.deviceBegin s.nextDeviceTicketId (.failed enqueued)) s.poison
  | beginOk {s frameCount} (hopen : s.Open) (hpositive : 0 < frameCount)
      (hfits : frameCount ≤ maxPacketFrames) :
      Effect s (.deviceBegin s.nextDeviceTicketId .ok) { s with
        nextDeviceTicketId := s.nextDeviceTicketId + 1
        pendingDeviceTicketId := s.nextDeviceTicketId
        pendingFrameCount := frameCount
        pendingRingSlot := s.nextRingSlot
        devicePacketPending := true }
  | finishRejected {s ticket isFinal status} :
      Effect s (.deviceFinish ticket isFinal (.rejected status)) s
  | finishUnselected {s isFinal} (hpending : s.devicePacketPending = true) :
      Effect s (.deviceFinish s.pendingDeviceTicketId isFinal .unselected) s
  | finishPoisoned {s isFinal enqueued} (hpending : s.devicePacketPending = true) :
      Effect s (.deviceFinish s.pendingDeviceTicketId isFinal (.failed enqueued)) s.poison
  | finishOk {s isFinal} (hpending : s.devicePacketPending = true) :
      Effect s (.deviceFinish s.pendingDeviceTicketId (isFinal ≠ 0) .ok)
        ((s.commit s.pendingFrameCount isFinal).clearPendingDevicePacket)
  | cancelBroken {s outcome} (houtcome : outcome ≠ .ok) : Effect s (.cancel outcome) s
  | cancelOk {s} : Effect s (.cancel .ok) s.poison
  | resetBroken {s outcome} (houtcome : outcome ≠ .ok) : Effect s (.reset outcome) s
  | resetOk {s} : Effect s (.reset .ok) s.resetFields
  | warmupBroken {s outcome} (houtcome : outcome ≠ .ok) : Effect s (.warmupReset outcome) s
  | warmupOk {s} : Effect s (.warmupReset .ok) s.resetFields

/-! ## Every call is one -/

namespace Session

variable {s : Session} {env : CallEnv}

/-- What the shared checks of the neural entry points let through. -/
theorem validate_ok {frameCount : Nat} (h : s.validateNeuralPacketState env frameCount = .ok ()) :
    (0 < frameCount ∧ frameCount ≤ maxPacketFrames) ∧ s.Open := by
  unfold validateNeuralPacketState at h
  split at h
  · cases h
  · split at h
    · cases h
    · split at h
      · cases h
      · split at h
        · cases h
        · rename_i hframes _ hclosed hpending
          have hflags : s.finalized = false ∧ s.cancelled = false := by simpa using hclosed
          exact ⟨by omega, ⟨hflags.1, hflags.2, by simpa using hpending⟩⟩

/-- The fixture packet is refused behind the final one and while a device packet is in flight. -/
theorem fixtureCheck_ok {request : PacketRequest} (h : s.fixtureCheck request = .ok ()) :
    s.finalized = false ∧ s.devicePacketPending = false := by
  unfold fixtureCheck at h
  split at h
  · cases h
  · split at h
    · cases h
    · rename_i _ hstate
      simpa using hstate

/-- A finish needs the ticket that is in flight. -/
theorem finishCheck_ok {request : DeviceFinish} (h : s.finishCheck request = .ok ()) :
    s.devicePacketPending = true ∧ request.ticketId = s.pendingDeviceTicketId := by
  unfold finishCheck at h
  split at h
  · cases h
  · split at h
    · cases h
    · rename_i _ hticket
      simpa using hticket

/-- The host packet. Its tests come first and leave the session alone; behind them each call of the
GPU can fail. -/
theorem processPacket_effect {request : PacketRequest} :
    Effect s (.processPacket (request.isFinal ≠ 0) (s.processPacket env request).2)
      (s.processPacket env request).1 := by
  unfold processPacket
  split
  · exact .packetRejected
  · split
    · exact .packetRejected
    · rename_i hvalid
      -- from here on the packet was accepted
      have hopen := (validate_ok hvalid).2
      split
      · exact .packetRejected
      · split
        · exact .packetUnselected hopen
        · dsimp only
          split
          · exact .packetFailed s.graphReady hopen
          · split
            · unfold finishGraph
              dsimp only
              split
              · exact .packetFailed _ hopen
              · exact .packetOk _ hopen
            · exact .packetOk s.graphReady hopen

/-- The fixture packet, which makes no check of its own beyond these. -/
theorem processFixturePacket_effect {request : PacketRequest} :
    Effect s (.fixturePacket (request.isFinal ≠ 0) (s.processFixturePacket env request).2)
      (s.processFixturePacket env request).1 := by
  unfold processFixturePacket
  split
  · exact .fixtureRejected
  · rename_i hcheck
    obtain ⟨hfinalized, hpending⟩ := fixtureCheck_ok hcheck
    split
    · exact .fixtureBroken nofun hfinalized hpending
    · split
      · exact .fixtureBroken nofun hfinalized hpending
      · exact .fixtureOk hfinalized hpending

/-- The first half of a device packet. Only a failure behind the enqueue poisons the session. -/
theorem processDevicePacketBegin_effect {request : DeviceBegin} :
    Effect s (.deviceBegin s.nextDeviceTicketId (s.processDevicePacketBegin env request).2)
      (s.processDevicePacketBegin env request).1 := by
  unfold processDevicePacketBegin
  split
  · exact .beginRejected
  · split
    · exact .beginRejected
    · rename_i hvalid
      -- from here on the packet was accepted
      obtain ⟨⟨hpositive, hfits⟩, hopen⟩ := validate_ok hvalid
      split
      · exact .beginRejected
      · split
        · exact .beginUnselected hopen
        · split
          · exact .beginUninspected hopen
          · split
            · exact .beginRejected
            · unfold enqueueDevicePacket
              split
              · exact .beginPoisoned hopen
              · exact .beginOk hopen hpositive hfits

/-- The second half. Past its check a failed call poisons the session; a success retires the ticket.
-/
theorem processDevicePacketFinish_effect {request : DeviceFinish} :
    Effect s (.deviceFinish request.ticketId (request.isFinal ≠ 0)
      (s.processDevicePacketFinish env request).2) (s.processDevicePacketFinish env request).1 := by
  unfold processDevicePacketFinish
  split
  · exact .finishRejected
  · rename_i hcheck
    obtain ⟨hpending, hticket⟩ := finishCheck_ok hcheck
    rw [hticket]
    split
    · exact .finishUnselected hpending
    · split
      · exact .finishPoisoned hpending
      · exact .finishOk hpending

/-- `cancel` sets its flag or fails before it. -/
theorem cancel_effect : Effect s (.cancel (s.cancel env).2) (s.cancel env).1 := by
  unfold cancel
  split
  · exact .cancelBroken nofun
  · split
    · exact .cancelBroken nofun
    · exact .cancelOk

/-- A reset is complete or leaves the session as it was. -/
theorem resetState_cases {faults : List Nat} :
    ((s.resetState faults).1 = s ∧ (s.resetState faults).2 ≠ .ok) ∨
      s.resetState faults = (s.resetFields, .ok) := by
  unfold resetState
  split
  · exact .inl ⟨rfl, nofun⟩
  · exact .inr rfl

/-- `reset` as a call of the client. -/
theorem reset_effect : Effect s (.reset (s.reset env).2) (s.reset env).1 := by
  unfold reset
  split
  · exact .resetBroken nofun
  · rcases @resetState_cases s env.faults with ⟨hsame, hbroken⟩ | hok
    · rw [hsame]
      exact .resetBroken hbroken
    · rw [hok]
      exact .resetOk

/-- `reset` behind the warmup packet. -/
theorem warmupReset_effect {faults : List Nat} :
    Effect s (.warmupReset (s.resetState faults).2) (s.resetState faults).1 := by
  rcases @resetState_cases s faults with ⟨hsame, hbroken⟩ | hok
  · rw [hsame]
    exact .warmupBroken hbroken
  · rw [hok]
    exact .warmupOk

end Session

/-! ## Calls as chains of effects -/

/-- One effect of a call, among those that `allowed` admits. -/
inductive Move (allowed : Session → Event → Prop) : Sys → Sys → Prop
  | event {s e session} (heffect : Effect s.session e session) (hallowed : allowed s.session e) :
      Move allowed s ⟨session, s.log ++ [e]⟩
  | debug {s : Sys} (frames : Nat) (hpending : s.session.devicePacketPending = false) :
      Move allowed s { s with session :=
        { s.session with neuralFramePosition := s.session.neuralFramePosition + frames } }

/-- The events of a call are allowed. -/
def Permits (allowed : Session → Event → Prop) (s : Sys) : Call → Prop
  | .processPacket env request => allowed s.session
      (.processPacket (request.isFinal ≠ 0) (s.session.processPacket env request).2)
  | .fixturePacket env request => allowed s.session
      (.fixturePacket (request.isFinal ≠ 0) (s.session.processFixturePacket env request).2)
  | .deviceBegin env request => allowed s.session
      (.deviceBegin s.session.nextDeviceTicketId (s.session.processDevicePacketBegin env request).2)
  | .deviceFinish env request => allowed s.session (.deviceFinish request.ticketId
      (request.isFinal ≠ 0) (s.session.processDevicePacketFinish env request).2)
  | .warmup env resetFaults => env.loaded = true → s.session.isFresh = true →
      allowed s.session
        (.processPacket false (s.session.processPacket env Session.warmupPacket).2) ∧
      allowed (s.session.processPacket env Session.warmupPacket).1 (.warmupReset
        ((s.session.processPacket env Session.warmupPacket).1.resetState resetFaults).2)
  | .cancel env => allowed s.session (.cancel (s.session.cancel env).2)
  | .reset env => allowed s.session (.reset (s.session.reset env).2)
  | .debugPacket _ _ => True

/-- **Every call is a chain of effects.** -/
theorem step_moves {allowed : Session → Event → Prop} {s s' : Sys} {c : Call}
    (hpermits : Permits allowed s c) (h : s.step c = some s') :
    Relation.ReflTransGen (Move allowed) s s' := by
  cases c with
  | processPacket env request =>
    cases h
    exact .single (.event Session.processPacket_effect hpermits)
  | fixturePacket env request =>
    cases h
    exact .single (.event Session.processFixturePacket_effect hpermits)
  | deviceBegin env request =>
    cases h
    exact .single (.event Session.processDevicePacketBegin_effect hpermits)
  | deviceFinish env request =>
    cases h
    exact .single (.event Session.processDevicePacketFinish_effect hpermits)
  | warmup env resetFaults =>
    cases h
    rw [Sys.warmup]
    split
    · exact .refl
    · rename_i hready
      have hready : env.loaded = true ∧ s.session.isFresh = true := by simpa using hready
      -- the warmup packet and the reset behind it, as far as the packet succeeded
      obtain ⟨hpacket, hreset⟩ := hpermits hready.1 hready.2
      have hwarm : Effect s.session
          (.processPacket false (s.session.processPacket env Session.warmupPacket).2)
          (s.session.processPacket env Session.warmupPacket).1 :=
        @Session.processPacket_effect s.session env Session.warmupPacket
      have hfirst : Move allowed s
          (s.record (s.session.processPacket env Session.warmupPacket) (.processPacket false)) :=
        .event hwarm hpacket
      exact (Relation.ReflTransGen.single hfirst).tail (.event Session.warmupReset_effect hreset)
  | cancel env =>
    cases h
    exact .single (.event Session.cancel_effect hpermits)
  | reset env =>
    cases h
    exact .single (.event Session.reset_effect hpermits)
  | debugPacket env frames =>
    cases h
    rw [Session.debugPacket]
    split
    · exact .refl
    · rename_i hstate
      have hstate : env.loaded = true ∧ s.session.devicePacketPending = false := by
        simpa using hstate
      exact .single (.debug frames hstate.2)

/-- **The rule for runs of calls.** -/
theorem invariant_of_move {allowed : Session → Event → Prop} {Ok : Sys → Call → Prop}
    {I : Sys → Prop} (hmove : ∀ s s', I s → Move allowed s s' → I s')
    (hok : ∀ s c, I s → Ok s c → Permits allowed s c) {fastMode : Bool} (hinit : I (.init fastMode))
    {calls : List Call} {s : Sys} (halong : Along Sys.step Ok (.init fastMode) calls)
    (hrun : run Sys.step (.init fastMode) calls = some s) : I s := by
  refine invariant_of_step (fun s c s' hs hc hstep => ?_) hinit halong hrun
  have hmoves := step_moves (hok s c hs hc) hstep
  clear hstep
  induction hmoves with
  | refl => exact hs
  | tail _ hlast ih => exact hmove _ _ ih hlast

end Qwen3Tts.Codec
