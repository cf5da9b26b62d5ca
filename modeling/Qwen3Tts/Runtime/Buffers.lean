import Qwen3Tts.Runtime.Accept
import Qwen3Tts.Runtime.Invariant

/-!
# Runtime — conservation of PCM buffers

The buffers of a request move between its pool, the worker, the queue and the client. As long
as anything owns the request, so that a dropped packet finds its way back, none of them is lost
or doubled, and none ever changes its length. The three failures that guard against a broken pool
can therefore never be reported.
-/

namespace Qwen3Tts.Runtime

open Qwen3Tts.Lib

/-! ## Where the buffers are -/

/-- The buffer the worker has taken for the request. -/
@[simp] def heldBuffers : Option Stage → List Pcm
  | some (.selected _ entry) | some (.stepped _ entry _) => [entry.pcm]
  | some (.settling _ (.recycle pcm _)) | some (.settling _ (.rejected pcm)) => [pcm]
  | some (.settling _ (.push packet _)) => [packet.pcm]
  | _ => []

/-- Every buffer has `n` samples. -/
def Sized (n : Nat) (buffers : List Pcm) : Prop := ∀ pcm ∈ buffers, pcm.length = n

section

variable {n : Nat} {pcm : Pcm} {buffers buffers' : List Pcm}

/-- Buffers of one size, list by list. -/
@[simp] theorem sized_nil : Sized n [] := nofun

@[simp] theorem sized_cons : Sized n (pcm :: buffers) ↔ pcm.length = n ∧ Sized n buffers := by
  simp [Sized]

@[simp] theorem sized_append : Sized n (buffers ++ buffers') ↔ Sized n buffers ∧ Sized n buffers' := by
  simp only [Sized, List.mem_append, or_imp, forall_and]

@[simp] theorem sized_reverse : Sized n buffers.reverse ↔ Sized n buffers := by
  simp [Sized]

/-- Zeroing keeps the sizes. -/
@[simp] theorem sized_zeroed {packets : List OwnedAudioPacket} :
    Sized n (packets.map fun packet => List.replicate packet.pcm.length (0 : Int16)) ↔
      Sized n (packets.map (·.pcm)) := by
  simp [Sized]

@[simp] theorem sized_replicate {m : Nat} : Sized n (List.replicate m (List.replicate n 0)) := by
  intro pcm hpcm
  rw [List.eq_of_mem_replicate hpcm, List.length_replicate]

/-- Some of the buffers. -/
theorem Sized.sublist (h : Sized n buffers) (hsub : buffers'.Sublist buffers) : Sized n buffers' :=
  fun pcm hpcm => h pcm (hsub.subset hpcm)

end

/-- The buffers of a request: free, queued, with the worker or with the client. -/
structure Buffers (packetFrames : Nat) (l : Local) : Prop where
  /-- Nothing is lost or doubled. -/
  conserved : l.live = true → l.request.shared.freePcm.length + l.request.state.packets.length +
    (heldBuffers l.stage).length + l.request.outstanding.length = l.request.state.packetCapacity
  free : Sized (packetFrames * samplesPerCodecFrame) l.request.shared.freePcm
  queued : Sized (packetFrames * samplesPerCodecFrame) (l.request.state.packets.map (·.pcm))
  held : Sized (packetFrames * samplesPerCodecFrame) (heldBuffers l.stage)
  outstanding : Sized (packetFrames * samplesPerCodecFrame) (l.request.outstanding.map (·.pcm))

/-- The shared state lives as long as the client or the worker has the request. -/
@[simp] theorem Local.live_iff {r : Request} {v : Option Stage} :
    Local.live ⟨r, v⟩ = true ↔ r.handle = .owned ∨ v.isSome = true := by
  simp [live]

section

variable {env : Env} {calls : Nat} {label : Label} {l l' : Local} {packetFrames : Nat}

/-- A buffer goes from one place to another. -/
theorem Buffers.step_conserved (hl : Buffers packetFrames l) (h : LocalStep env calls label l l') :
    l'.live = true → l'.request.shared.freePcm.length + l'.request.state.packets.length +
      (heldBuffers l'.stage).length + l'.request.outstanding.length =
        l'.request.state.packetCapacity := by
  have hconserved := hl.conserved
  cases h
  case pollPacket r v packet rest _ _ hpackets =>
    intro hlive
    have hbefore := hconserved (by simpa using hlive)
    clear hconserved
    simp_all
    omega
  case cancelMark =>
    intro hlive
    have hbefore := hconserved (by simpa using hlive)
    clear hconserved
    simp_all
    omega
  case dropPacket r v index packet hget =>
    intro hlive
    have hbefore := hconserved (by simpa using hlive)
    have hindex : index < r.outstanding.length := (List.getElem?_eq_some_iff.mp hget).1
    have herase := List.length_eraseIdx_of_lt hindex
    clear hconserved
    simp_all
    omega
  all_goals simp_all
  all_goals omega

/-- A buffer that comes back is cleared in its size, -/
theorem Buffers.step_free (hl : Buffers env.config.packetFrames l)
    (h : LocalStep env calls label l l') :
    Sized (env.config.packetFrames * samplesPerCodecFrame) l'.request.shared.freePcm := by
  have hfree := hl.free
  have hqueued := hl.queued
  have hheld := hl.held
  have houtstanding := hl.outstanding
  cases h
  case dropPacket r v index packet hget =>
    have hpacket : packet.pcm.length = env.config.packetFrames * samplesPerCodecFrame :=
      houtstanding _ (List.mem_map_of_mem (List.mem_of_getElem? hget))
    rw [Request.dropPacket_freePcm]
    split
    · simp_all
    · exact hfree
  case enter => exact sized_replicate
  all_goals simp_all

/-- a packet is queued in one, -/
theorem Buffers.step_queued (hl : Buffers packetFrames l) (h : LocalStep env calls label l l') :
    Sized (packetFrames * samplesPerCodecFrame) (l'.request.state.packets.map (·.pcm)) := by
  have hqueued := hl.queued
  have hheld := hl.held
  cases h
  all_goals simp_all

/-- the worker fills one, -/
theorem Buffers.step_held (hl : Buffers packetFrames l) (h : LocalStep env calls label l l') :
    Sized (packetFrames * samplesPerCodecFrame) (heldBuffers l'.stage) := by
  have hfree := hl.free
  have hheld := hl.held
  cases h
  case stepBatch => simp_all [Selected.written]
  case settleAccepted haccept =>
    rw [heldBuffers, (ActiveRequest.accept_ok haccept).owned_eq]
    exact hheld
  all_goals simp_all

/-- and the client holds one with each packet. -/
theorem Buffers.step_outstanding (hl : Buffers packetFrames l) (h : LocalStep env calls label l l') :
    Sized (packetFrames * samplesPerCodecFrame) (l'.request.outstanding.map (·.pcm)) := by
  have hqueued := hl.queued
  have houtstanding := hl.outstanding
  cases h
  case dropPacket r v index packet hget =>
    rw [Request.dropPacket_outstanding]
    exact houtstanding.sublist ((List.eraseIdx_sublist _ _).map _)
  all_goals simp_all

/-- No buffer is lost along any run. -/
theorem buffers_inductive : Inductive anyLabel fun env l => Buffers env.config.packetFrames l where
  unused := fun _ _ => by constructor <;> simp
  later := fun hlater h => by
    rw [hlater.config]
    exact h
  step := fun _ _ h hl => {
    conserved := hl.step_conserved h
    free := hl.step_free h
    queued := hl.step_queued h
    held := hl.step_held h
    outstanding := hl.step_outstanding h }

end

/-! ## The failures that are never reported -/

/-- A failure that stands for a broken invariant of the scheduler. -/
def FailureCause.isBroken : FailureCause → Bool
  | .noSession | .poolEmpty | .queueOverflow => true
  | _ => false

/-- Why the worker is about to fail the request. -/
@[simp] def stageCause : Option Stage → Option FailureCause
  | some (.outcome _ (.error cause)) | some (.retiringPending (.mark (.failed cause)) _)
  | some (.stepped _ _ (.error cause)) | some (.settling _ (.recycle _ cause))
  | some (.settling _ (.fail cause)) | some (.retiringActive (.cancelBackend (some (.failed cause))) _)
  | some (.retiringActive (.mark (.failed cause)) _) => some cause
  | _ => none

/-- A packet was rejected by `push_packet`. -/
@[simp] def isRejected : Option Stage → Bool
  | some (.settling _ (.rejected _)) | some (.settling _ .overflow) => true
  | _ => false

/-- No failure of the request is one of a broken invariant. -/
structure Unbroken (l : Local) : Prop where
  cause : ∀ cause, stageCause l.stage = some cause → cause.isBroken = false
  /-- Only a cancelled request rejects a packet. -/
  rejected : isRejected l.stage = true → l.request.state.cancelRequested = true
  reported : ∀ cause, .markedFailed cause ∈ l.request.history → cause.isBroken = false

section

variable {cause : FailureCause}

/-- What `start_batch` fails with, -/
theorem FailureCause.fromStart_sound (h : cause.fromStart = true) : cause.isBroken = false := by
  cases cause <;> first | rfl | cases h

/-- what `step_batch` fails with, -/
theorem FailureCause.fromStep_sound (h : cause.fromStep = true) : cause.isBroken = false := by
  cases cause <;> first | rfl | cases h

/-- and what is wrong with a packet. -/
theorem FailureCause.fromAccept_sound (h : cause.fromAccept = true) : cause.isBroken = false := by
  cases cause <;> first | rfl | cases h

end

section

variable {env : Env} {calls : Nat} {label : Label} {l l' : Local} {packetFrames : Nat}

/-- A request whose buffer the worker holds has room in its queue. -/
theorem Buffers.room {r : Request} {a : ActiveRequest} {packet : OwnedAudioPacket}
    {metrics : RequestMetrics} (hl : Buffers packetFrames ⟨r, some (.settling a (.push packet metrics))⟩) :
    r.state.packets.length ≠ r.state.packetCapacity := by
  have hconserved := hl.conserved (by simp)
  simp only [heldBuffers, List.length_singleton] at hconserved
  omega

/-- The worker takes up no other failure. -/
theorem Unbroken.step_cause (hl : Unbroken l) (h : LocalStep env calls label l l') :
    ∀ cause, stageCause l'.stage = some cause → cause.isBroken = false := by
  have hcause := hl.cause
  have hrejected := hl.rejected
  cases h
  case startBatch result hstart =>
    intro cause hstage
    cases result with
    | ok => cases hstage
    | error cause' =>
      cases hstage
      exact FailureCause.fromStart_sound (hstart _ rfl)
  case stepBatch result _ hstep =>
    intro cause hstage
    cases result with
    | ok => cases hstage
    | error cause' =>
      cases hstage
      exact FailureCause.fromStep_sound (hstep _ rfl)
  case settleRejected haccept =>
    rintro cause ⟨⟩
    exact FailureCause.fromAccept_sound (ActiveRequest.accept_error haccept)
  case exitPendingPanicked | exitActivePanicked =>
    rintro cause ⟨⟩
    rfl
  all_goals simp_all

/-- A packet is rejected for a cancellation: the queue has room for every buffer. -/
theorem Unbroken.step_rejected (hl : Unbroken l) (hlife : Lifecycle l)
    (hbuffers : Buffers packetFrames l) (h : LocalStep env calls label l l') :
    isRejected l'.stage = true → l'.request.state.cancelRequested = true := by
  have hrejected := hl.rejected
  have hproducing := hlife.producing
  cases h
  case reject r a packet metrics hpush =>
    intro _
    have hfailure : r.state.failure = none := (hproducing rfl).1
    rcases hpush with hflag | hfailed | hfull
    · exact hflag
    · simp [hfailure] at hfailed
    · exact absurd hfull hbuffers.room
  all_goals simp_all

/-- What is reported is what the worker took up. -/
theorem Unbroken.step_reported (hl : Unbroken l) (hlife : Lifecycle l)
    (h : LocalStep env calls label l l') :
    ∀ cause, .markedFailed cause ∈ l'.request.history → cause.isBroken = false := by
  have hcause := hl.cause
  have hreported := hl.reported
  have hsession := hlife.session
  have hnonempty := hlife.nonempty
  cases h
  case fail cause | failedPending cause | failedActive cause =>
    intro cause' hmem
    rcases (by simpa using hmem : Event.markedFailed cause' ∈ _ ∨ cause' = cause) with hold | rfl
    · exact hreported cause' hold
    · exact hcause cause' rfl
  all_goals simp_all

/-- So it is along every run. -/
theorem unbroken_inductive : Inductive anyLabel fun env l =>
    (Lifecycle l ∧ Buffers env.config.packetFrames l) ∧ Unbroken l := by
  have hbuffers : Inductive anyLabel fun env l =>
      Lifecycle l ∧ Buffers env.config.packetFrames l :=
    lifecycle_inductive.and buffers_inductive.unused buffers_inductive.later
      fun hcalls hok h _ hl => buffers_inductive.step hcalls hok h hl
  refine hbuffers.and (fun _ _ => ?_) (fun _ h => h) fun _ _ h hold hl => {
    cause := hl.step_cause h
    rejected := hl.step_rejected hold.1 hold.2 h
    reported := hl.step_reported hold.1 h }
  constructor <;> simp

end

/-- What the code's comments call an invariant of the pool, for one request. -/
structure PoolIntact (config : EngineConfig) (l : Local) : Prop where
  conserved : l.live = true → l.request.shared.freePcm.length + l.request.state.packets.length +
    (heldBuffers l.stage).length + l.request.outstanding.length = l.request.state.packetCapacity
  sized : Sized (config.packetFrames * 1920) (l.request.shared.freePcm ++
    l.request.state.packets.map (·.pcm) ++ heldBuffers l.stage ++ l.request.outstanding.map (·.pcm))
  unbroken : ∀ cause, .markedFailed cause ∈ l.request.history →
    cause ≠ .noSession ∧ cause ≠ .poolEmpty ∧ cause ≠ .queueOverflow

/-- **Buffer conservation** in every reachable state. -/
theorem pool_intact {config : EngineConfig} {s : Sys} (h : Reachable config s) (id : Nat) :
    PoolIntact config (s.localOf id) := by
  obtain ⟨⟨-, hbuffers⟩, hunbroken⟩ := unbroken_inductive.reachable h id
  have hconfig : s.env.config = config := h.config_eq
  rw [hconfig] at hbuffers
  refine ⟨hbuffers.conserved, ?_, fun cause hmem => ?_⟩
  · simp only [sized_append]
    exact ⟨⟨⟨hbuffers.free, hbuffers.queued⟩, hbuffers.held⟩, hbuffers.outstanding⟩
  · have hsound := hunbroken.reported cause hmem
    refine ⟨?_, ?_, ?_⟩ <;> rintro rfl <;> cases hsound

set_option maxRecDepth 20000 in
/-- The only buffer of a small instance is in the hands of the client. -/
theorem pool_intact_delivered :
    ∃ s, run Sys.step (.init smallConfig) runToEnd = some s ∧
      (s.requests 1).outstanding.length = 1 ∧ PoolIntact smallConfig (s.localOf 1) := by
  have hdone : (run Sys.step (.init smallConfig) runToEnd).map
      (fun s => (s.requests 1).outstanding.length) = some 1 := by
    decide
  obtain ⟨s, hrun, houtstanding⟩ := Option.map_eq_some_iff.mp hdone
  exact ⟨s, hrun, houtstanding, pool_intact ⟨by decide, runToEnd, hrun⟩ 1⟩

end Qwen3Tts.Runtime
