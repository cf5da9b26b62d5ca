import Qwen3Tts.Codec.Effect

/-!
# Codec — sessions that refuse packets

Two promises of a session. A packet that fails on the device must not be followed by another one
before a reset: the device entry points keep it by setting `cancelled`
(`poison_device_packet_after_enqueue_failure`), the two host paths return without doing so. A
session that was cancelled or took its final packet stays closed until it is reset: the neural
entry points keep it by `validate_neural_packet_state`, `process_fixture_packet_v1` looks at
`finalized` and the pending ticket but not at `cancelled`, and `warmup_v1` resets a session that
was cancelled before its first packet.
-/

namespace Qwen3Tts.Codec

open Qwen3Tts.Lib

/-! ## Flags read off a log -/

/-- Whether the last event that sets or clears a flag set it. -/
def flagAfter (sets clears : Event → Bool) (h : List Event) : Bool :=
  h.foldl (fun flag e => if sets e then true else if clears e then false else flag) false

@[simp] theorem flagAfter_nil {sets clears : Event → Bool} : flagAfter sets clears [] = false := rfl

@[simp] theorem flagAfter_concat {sets clears : Event → Bool} {h : List Event} {e : Event} :
    flagAfter sets clears (h ++ [e]) =
      if sets e then true else if clears e then false else flagAfter sets clears h := by
  simp [flagAfter]

def Outcome.isRejected : Outcome → Bool
  | .rejected _ => true
  | _ => false

instance {s : Session} : Decidable s.Open :=
  decidable_of_iff (s.finalized = false ∧ s.cancelled = false ∧ s.devicePacketPending = false)
    ⟨fun h => ⟨h.1, h.2.1, h.2.2⟩, fun h => ⟨h.finalized, h.cancelled, h.pending⟩⟩

/-! ## Failed packets: statement -/

/-- A packet call returned an error after a kernel of its packet was enqueued. -/
def Event.breaks : Event → Bool
  | .processPacket _ (.failed true) | .deviceBegin _ (.failed true)
  | .deviceFinish _ _ (.failed true) | .deviceFinish _ _ .unselected => true
  | _ => false

def Event.resets : Event → Bool
  | .reset .ok | .warmupReset .ok => true
  | _ => false

/-- The event is not a neural packet call that went past its checks. -/
def Event.refused : Event → Bool
  | .processPacket _ outcome | .deviceBegin _ outcome | .deviceFinish _ _ outcome =>
    outcome.isRejected
  | _ => true

/-- After a packet failed on the device, every packet call is rejected until a reset. -/
def RejectsBroken (h : List Event) : Prop :=
  Always (fun before e => flagAfter Event.breaks Event.resets before = true →
    e.refused = true) h

/-- No host packet has a CUDA or cuBLAS call fail behind its first kernel, and the
`cudaSetDevice` of a `finish` for the pending ticket does not fail. -/
def CompletesPackets (s : Sys) : Call → Prop
  | .processPacket env request => s.session.Open → ∀ i ∈ env.faults,
      i ≤ firstKernel 1 (s.session.hostOps env request.frameCount)
  | .warmup env _ => s.session.Open → ∀ i ∈ env.faults,
      i ≤ firstKernel 1 (s.session.hostOps env maxPacketFrames)
  | .deviceFinish env request => s.session.finishCheck request = .ok () → 0 ∉ env.faults
  | _ => True

instance : ∀ s c, Decidable (CompletesPackets s c) := by
  intro s c
  cases c <;> unfold CompletesPackets <;> infer_instance

/-! ## Failed packets: proof -/

/-- The host paths and `finish` break nothing without poisoning the session. -/
def poisoning (_ : Session) (e : Event) : Prop :=
  e.breaks = true → (∃ ticket outcome, e = .deviceBegin ticket outcome) ∨
    ∃ ticket isFinal enqueued, e = .deviceFinish ticket isFinal (.failed enqueued)

/-- Every packet launches a kernel. -/
theorem Session.exists_kernel (s : Session) {env : CallEnv} {frameCount : Nat} :
    ∃ op ∈ s.hostOps env frameCount, decide (op = .kernel) = true := by
  refine ⟨.kernel, ?_, rfl⟩
  have hfront : Op.kernel ∈ runFrontendStagedDevice := by decide
  unfold hostOps
  split
  · unfold processPacketGraph
    split
    · simp
    · simp [runGraphDecodeBody]
  · simp [processPacketEager, enqueueStagedNeuralPacket, decodeOps, hfront]

/-- Without a fault behind the first kernel the packet does not fail half-way. -/
theorem Session.processPacket_completes {s : Session} {env : CallEnv} {request : PacketRequest}
    (h : s.Open → ∀ i ∈ env.faults, i ≤ firstKernel 1 (s.hostOps env request.frameCount)) :
    (s.processPacket env request).2 ≠ .failed true := by
  unfold processPacket
  split
  · exact nofun
  · split
    · exact nofun
    · rename_i hvalid
      have hearly := h (validate_ok hvalid).2
      split
      · exact nofun
      · split
        · exact nofun
        · dsimp only
          split
          · rename_i enqueued hops
            rintro ⟨⟩
            exact runOps_early hearly hops
          · split
            · unfold finishGraph
              dsimp only
              split
              · rename_i hfault
                -- a failing time measurement would lie behind the first kernel
                have hle := hearly _ hfault
                have hlt : firstKernel 1 (s.hostOps env request.frameCount) <
                    1 + (s.hostOps env request.frameCount).length :=
                  Nat.add_lt_add_left (List.findIdx_lt_length_of_exists s.exists_kernel) 1
                omega
              · exact nofun
            · exact nofun

/-- A broken session is cancelled, so that every packet call is rejected. -/
structure Broken (s : Sys) : Prop where
  poisoned : flagAfter Event.breaks Event.resets s.log = true →
    s.session.cancelled = true ∧ s.session.devicePacketPending = false
  rejects : RejectsBroken s.log

/-- A move keeps the invariant. -/
theorem Broken.move {s s' : Sys} (hs : Broken s) (h : Move poisoning s s') : Broken s' := by
  have hpoisoned := hs.poisoned
  cases h with
  | debug frames hpending => exact ⟨hpoisoned, hs.rejects⟩
  | event heffect hallowed =>
    refine ⟨?_, always_concat.mpr ⟨hs.rejects, fun hbroken => ?_⟩⟩
    · rw [flagAfter_concat]
      -- an event that breaks the device sets the flag, a reset clears it
      cases heffect
      case packetFailed enqueued graphs hopen =>
        cases enqueued with
        | true =>
          rcases hallowed rfl with ⟨_, _, h⟩ | ⟨_, _, _, h⟩ <;> cases h
        | false => exact hpoisoned
      case finishUnselected =>
        rcases hallowed rfl with ⟨_, _, h⟩ | ⟨_, _, _, h⟩ <;> cases h
      case beginPoisoned | finishPoisoned | cancelOk => exact fun _ => ⟨rfl, rfl⟩
      case resetOk | warmupOk => exact nofun
      case beginOk hopen _ _ =>
        intro hflag
        have h := (hpoisoned hflag).1
        rw [hopen.cancelled] at h
        cases h
      case finishOk => exact fun hflag => ⟨(hpoisoned hflag).1, rfl⟩
      case resetBroken outcome houtcome | warmupBroken outcome houtcome =>
        cases outcome <;> simp_all [Event.breaks, Event.resets]
      all_goals simpa [Event.breaks, Event.resets] using hpoisoned
    · obtain ⟨hcancelled, hpending⟩ := hpoisoned hbroken
      cases heffect
      case packetUnselected hopen | packetFailed hopen | packetOk hopen | beginUnselected hopen
          | beginUninspected hopen | beginPoisoned hopen | beginOk hopen _ _ =>
        rw [hopen.cancelled] at hcancelled
        cases hcancelled
      case finishUnselected h | finishPoisoned h | finishOk h =>
        rw [h] at hpending
        cases hpending
      all_goals rfl

/-- A call that completes makes permitted moves only. -/
theorem completes_permits {s : Sys} {c : Call} (h : CompletesPackets s c) :
    Permits poisoning s c := by
  cases c with
  | processPacket env request =>
    intro hbreaks
    have hnot := Session.processPacket_completes h
    simp only [Event.breaks] at hbreaks
    split at hbreaks
    all_goals simp_all
  | warmup env resetFaults =>
    intro _ _
    refine ⟨fun hbreaks => ?_, nofun⟩
    have hnot := @Session.processPacket_completes s.session env Session.warmupPacket h
    simp only [Event.breaks] at hbreaks
    split at hbreaks
    all_goals simp_all
  | deviceBegin env request => exact fun _ => .inl ⟨_, _, rfl⟩
  | deviceFinish env request =>
    intro hbreaks
    refine .inr ?_
    -- a refused finish breaks nothing, an accepted one ends the packet
    cases hcheck : s.session.finishCheck request with
    | error status =>
      simp [Session.processDevicePacketFinish, hcheck, Event.breaks] at hbreaks
    | ok =>
      have hselected : 0 ∉ env.faults := h hcheck
      cases hops : runOps env.faults 1 true finishStagedNeuralPacket with
      | ok =>
        simp [Session.processDevicePacketFinish, hcheck, hselected, hops, Event.breaks] at hbreaks
      | failed enqueued =>
        exact ⟨request.ticketId, request.isFinal ≠ 0, enqueued, by simp [Session.processDevicePacketFinish, hcheck, hselected, hops]⟩
  | fixturePacket | cancel | reset => exact nofun
  | debugPacket => trivial

/-- **A broken session refuses packets** in every run whose host packets do not fail behind their
first kernel. -/
theorem rejects_broken {fastMode : Bool} {calls : List Call} {s : Sys}
    (hcompletes : Along Sys.step CompletesPackets (.init fastMode) calls)
    (hrun : run Sys.step (.init fastMode) calls = some s) : RejectsBroken s.log :=
  (invariant_of_move (I := Broken) (fun _ _ hs h => hs.move h) (fun _ _ _ h => completes_permits h)
    ⟨nofun, always_nil⟩ hcompletes hrun).rejects

/-- A device packet fails in a kernel behind its first one, a host packet is rejected, and a reset
reopens the session. -/
def callsToPoison : List Call :=
  [.deviceBegin (.failing [22]) .single, .processPacket (.failing []) (.single 0),
    .reset (.failing []), .processPacket (.failing []) (.single 0)]

set_option maxRecDepth 20000 in
theorem rejects_broken_device :
    ∃ s, run Sys.step (.init false) callsToPoison = some s ∧
      s.log = [.deviceBegin 1 (.failed true), .processPacket false (.rejected .state), .reset .ok,
        .processPacket false .ok] ∧ RejectsBroken s.log := by
  have hlog : (run Sys.step (.init false) callsToPoison).map (·.log) =
      some [.deviceBegin 1 (.failed true), .processPacket false (.rejected .state), .reset .ok,
        .processPacket false .ok] := by
    decide
  have hcompletes : Along Sys.step CompletesPackets (.init false) callsToPoison := by
    decide
  obtain ⟨s, hrun, hs⟩ := Option.map_eq_some_iff.mp hlog
  exact ⟨s, hrun, hs, rejects_broken hcompletes hrun⟩

/-- A host packet fails in a kernel behind its first one, in eager mode and in graph mode, and the
next one is accepted. -/
def callsToBreak : List Call :=
  [.processPacket (.failing [54]) (.single 0), .processPacket (.failing []) (.single 0)]

/-- `cudaSetDevice` fails in a `finish`, and the next one is accepted. -/
def callsToUnselect : List Call :=
  [.deviceBegin (.failing []) .single, .deviceFinish (.failing [0]) (.single 1 samplesPerFrame),
    .deviceFinish (.failing []) (.single 1 samplesPerFrame)]

set_option maxRecDepth 20000 in
/-- In eager mode and in graph mode. -/
theorem broken_not_rejected : (∀ fastMode, ∃ s,
      run Sys.step (.init fastMode) callsToBreak = some s ∧ ¬ RejectsBroken s.log) ∧
    ∃ s, run Sys.step (.init false) callsToUnselect = some s ∧ ¬ RejectsBroken s.log := by
  have hbreak : ∀ fastMode, (run Sys.step (.init fastMode) callsToBreak).map (·.log) =
      some [.processPacket false (.failed true), .processPacket false .ok] := by
    decide
  have hunselect : (run Sys.step (.init false) callsToUnselect).map (·.log) =
      some [.deviceBegin 1 .ok, .deviceFinish 1 false .unselected, .deviceFinish 1 false .ok] := by
    decide
  constructor
  · intro fastMode
    obtain ⟨s, hrun, hs⟩ := Option.map_eq_some_iff.mp (hbreak fastMode)
    refine ⟨s, hrun, fun hrejects => ?_⟩
    have h := hrejects [.processPacket false (.failed true)] _ [] hs rfl
    cases h
  · obtain ⟨s, hrun, hs⟩ := Option.map_eq_some_iff.mp hunselect
    refine ⟨s, hrun, fun hrejects => ?_⟩
    have h := hrejects [.deviceBegin 1 .ok, .deviceFinish 1 false .unselected] _ [] hs rfl
    cases h

/-! ## Closed sessions: statement -/

/-- The session was cancelled or accepted its final packet. -/
def Event.closes : Event → Bool
  | .cancel .ok | .processPacket true .ok | .fixturePacket true .ok | .deviceFinish _ true .ok =>
    true
  | _ => false

/-- The client reset the session. -/
def Event.reopens : Event → Bool
  | .reset .ok => true
  | _ => false

/-- A packet entry point succeeded. -/
def Event.accepts : Event → Bool
  | .processPacket _ .ok | .fixturePacket _ .ok | .deviceBegin _ .ok | .deviceFinish _ _ .ok => true
  | _ => false

/-- No packet is accepted by a closed session. -/
def StaysClosed (h : List Event) : Prop :=
  Always (fun before e => flagAfter Event.closes Event.reopens before = true →
    e.accepts = false) h

/-- On a cancelled session no fixture packet passes its checks, and no `warmup` goes past its
own. -/
def RespectsCancel (s : Sys) : Call → Prop
  | .fixturePacket _ request =>
    s.session.cancelled = true → s.session.fixtureCheck request ≠ .ok ()
  | .warmup env _ => s.session.cancelled = true → env.loaded = true → s.session.isFresh = false
  | _ => True

instance : ∀ s c, Decidable (RespectsCancel s c) := by
  intro s c
  cases c <;> unfold RespectsCancel <;> infer_instance

/-! ## Closed sessions: proof -/

/-- Fixture packets are accepted and warm sessions are reset only while the flags are clear. -/
def respecting (s : Session) : Event → Prop
  | .fixturePacket _ .ok => s.cancelled = false
  | .warmupReset .ok => s.finalized = false ∧ s.cancelled = false
  | _ => True

structure Closed (s : Sys) : Prop where
  flagged : flagAfter Event.closes Event.reopens s.log = true →
    (s.session.finalized = true ∨ s.session.cancelled = true) ∧
      s.session.devicePacketPending = false
  stays : StaysClosed s.log

/-- A move keeps the invariant. -/
theorem Closed.move {s s' : Sys} (hs : Closed s) (h : Move respecting s s') : Closed s' := by
  have hflagged := hs.flagged
  cases h with
  | debug frames hpending => exact ⟨hflagged, hs.stays⟩
  | event heffect hallowed =>
    -- a closed session is not open, whichever flag says so
    have hopen : s.session.finalized = false → s.session.cancelled = false →
        flagAfter Event.closes Event.reopens s.log = false := by
      intro hfinalized hcancelled
      by_contra hflag
      have h := (hflagged (by simpa using hflag)).1
      simp [hfinalized, hcancelled] at h
    refine ⟨?_, always_concat.mpr ⟨hs.stays, fun hclosed => ?_⟩⟩
    · rw [flagAfter_concat]
      cases heffect
      case packetOk isFinal _ _ ho =>
        have hflag := hopen ho.finalized ho.cancelled
        by_cases hfinal : isFinal = 0 <;> simp_all [Event.closes, Event.reopens, ho.pending]
      case fixtureOk isFinal _ hfinalized hpending =>
        have hflag := hopen hfinalized hallowed
        by_cases hfinal : isFinal = 0 <;> simp_all [Event.closes, Event.reopens]
      case beginOk ho _ _ =>
        have hflag := hopen ho.finalized ho.cancelled
        simp_all [Event.closes, Event.reopens]
      case beginPoisoned ho =>
        have hflag := hopen ho.finalized ho.cancelled
        simp_all [Event.closes, Event.reopens]
      case finishOk isFinal hpending =>
        by_cases hfinal : isFinal = 0 <;> simp_all [Event.closes, Event.reopens]
      case finishPoisoned hpending => simp_all [Event.closes, Event.reopens]
      case cancelOk => simp
      case resetOk => exact nofun
      case resetBroken outcome houtcome | cancelBroken outcome houtcome =>
        cases outcome <;> simp_all [Event.closes, Event.reopens]
      case warmupOk =>
        obtain ⟨hfinalized, hcancelled⟩ := hallowed
        simp [Event.closes, Event.reopens, hopen hfinalized hcancelled]
      case fixtureBroken outcome houtcome _ _ =>
        cases outcome <;> simp_all [Event.closes, Event.reopens]
      all_goals simpa [Event.closes, Event.reopens] using hflagged
    · obtain ⟨hflags, hpending⟩ := hflagged hclosed
      cases heffect
      case packetOk ho | beginOk ho _ _ =>
        rw [hopen ho.finalized ho.cancelled] at hclosed
        cases hclosed
      case fixtureOk hfinalized _ =>
        rw [hopen hfinalized hallowed] at hclosed
        cases hclosed
      case finishOk h =>
        rw [h] at hpending
        cases hpending
      case fixtureBroken outcome houtcome _ _ =>
        cases outcome <;> simp_all [Event.accepts]
      all_goals rfl

/-- A packet that is not the last one leaves both flags as they are. -/
theorem Effect.packet_flags {s s' : Session} {outcome : Outcome}
    (h : Effect s (.processPacket false outcome) s') (hfinalized : s.finalized = false) :
    s'.finalized = false ∧ s'.cancelled = s.cancelled := by
  generalize he : Event.processPacket false outcome = e at h
  cases h
  all_goals simp_all

/-- A call that respects the cancel makes permitted moves only. -/
theorem respects_permits {s : Sys} {c : Call} (h : RespectsCancel s c) :
    Permits respecting s c := by
  cases c with
  | fixturePacket env request =>
    show respecting _ _
    cases hcheck : s.session.fixtureCheck request with
    | error status => simp [Session.processFixturePacket, hcheck, respecting]
    | ok =>
      have hcancelled : s.session.cancelled = false := by
        by_contra hc
        exact h (by simpa using hc) hcheck
      cases (s.session.processFixturePacket env request).2 <;> simp [respecting, hcancelled]
  | warmup env resetFaults =>
    intro hloaded hfresh
    have hcancelled : s.session.cancelled = false := by
      by_contra hc
      have hnot := h (by simpa using hc) hloaded
      rw [hfresh] at hnot
      cases hnot
    have hfinalized : s.session.finalized = false := by
      simp only [Session.isFresh, decide_eq_true_eq] at hfresh
      exact hfresh.2.2.2.2.1
    refine ⟨trivial, ?_⟩
    have hflags := Effect.packet_flags
      (@Session.processPacket_effect s.session env Session.warmupPacket) hfinalized
    rw [hcancelled] at hflags
    show respecting _ _
    cases ((s.session.processPacket env Session.warmupPacket).1.resetState resetFaults).2 with
    | ok => exact hflags
    | _ => trivial
  | _ => trivial

/-- **A closed session stays closed** in every run that lets no fixture packet and no `warmup`
through on a cancelled session. -/
theorem stays_closed {fastMode : Bool} {calls : List Call} {s : Sys}
    (hrespects : Along Sys.step RespectsCancel (.init fastMode) calls)
    (hrun : run Sys.step (.init fastMode) calls = some s) : StaysClosed s.log :=
  (invariant_of_move (I := Closed) (fun _ _ hs h => hs.move h) (fun _ _ _ h => respects_permits h)
    ⟨nofun, always_nil⟩ hrespects hrun).stays

/-- A cancelled session rejects a packet until it is reset. -/
def callsToClose : List Call :=
  [.cancel (.failing []), .processPacket (.failing []) (.single 0), .reset (.failing []),
    .processPacket (.failing []) (.single 1), .fixturePacket (.failing []) (.single 0)]

set_option maxRecDepth 20000 in
theorem stays_closed_cancelled :
    ∃ s, run Sys.step (.init false) callsToClose = some s ∧
      s.log = [.cancel .ok, .processPacket false (.rejected .state), .reset .ok,
        .processPacket true .ok, .fixturePacket false (.rejected .state)] ∧ StaysClosed s.log := by
  have hlog : (run Sys.step (.init false) callsToClose).map (·.log) =
      some [.cancel .ok, .processPacket false (.rejected .state), .reset .ok,
        .processPacket true .ok, .fixturePacket false (.rejected .state)] := by
    decide
  have hrespects : Along Sys.step RespectsCancel (.init false) callsToClose := by
    decide
  obtain ⟨s, hrun, hs⟩ := Option.map_eq_some_iff.mp hlog
  exact ⟨s, hrun, hs, stays_closed hrespects hrun⟩

/-- A fixture packet on a cancelled session. -/
def callsToReopen : List Call :=
  [.cancel (.failing []), .fixturePacket (.failing []) (.single 0)]

/-- A `warmup` on a session cancelled before its first packet. -/
def callsToWarm : List Call :=
  [.cancel (.failing []), .warmup (.failing []) [], .processPacket (.failing []) (.single 0)]

set_option maxRecDepth 20000 in
theorem not_stays_closed :
    (∃ s, run Sys.step (.init false) callsToReopen = some s ∧ ¬ StaysClosed s.log) ∧
      ∃ s, run Sys.step (.init false) callsToWarm = some s ∧ ¬ StaysClosed s.log := by
  have hfixture : (run Sys.step (.init false) callsToReopen).map (·.log) =
      some [.cancel .ok, .fixturePacket false .ok] := by
    decide
  have hwarm : (run Sys.step (.init false) callsToWarm).map (·.log) =
      some [.cancel .ok, .processPacket false (.rejected .state), .warmupReset .ok,
        .processPacket false .ok] := by
    decide
  constructor
  · obtain ⟨s, hrun, hs⟩ := Option.map_eq_some_iff.mp hfixture
    refine ⟨s, hrun, fun hstays => ?_⟩
    have h := hstays [.cancel .ok] _ [] hs rfl
    cases h
  · obtain ⟨s, hrun, hs⟩ := Option.map_eq_some_iff.mp hwarm
    refine ⟨s, hrun, fun hstays => ?_⟩
    have h := hstays [.cancel .ok, .processPacket false (.rejected .state), .warmupReset .ok] _ []
      hs rfl
    cases h

end Qwen3Tts.Codec
