import Qwen3Tts.Runtime.Delivery

/-!
# Runtime — delivery metrics

`RequestMetrics` has two writers: `push_packet` overwrites the whole structure with the worker's
private copy, `poll` increments three fields in place. `Metrics` relates the shared structure to
the packets published and delivered and to the worker's copy, which is never behind it
(`Behind`). From that, no step of any thread makes a counter smaller (`Grows`).

The two `f64` accumulators are sums of times the backend reports and count nothing; the results
below are about the ten integer fields.
-/

namespace Qwen3Tts.Runtime

open Qwen3Tts.Lib

/-- A longer time is no fewer microseconds. -/
theorem durationMicroseconds_mono {d d' : Nat} (h : d ≤ d') :
    durationMicroseconds d ≤ durationMicroseconds d' := by
  unfold durationMicroseconds
  omega

/-! ## Two orders on metrics -/

/-- The worker's copy has everything the shared structure has in the fields the worker owns. -/
structure RequestMetrics.Behind (m copy : RequestMetrics) : Prop where
  queue : m.queueMicroseconds ≤ copy.queueMicroseconds
  prefill : m.prefillMicroseconds ≤ copy.prefillMicroseconds
  firstCodecFrame : m.firstCodecFrameMicroseconds ≤ copy.firstCodecFrameMicroseconds
  wall : m.wallMicroseconds ≤ copy.wallMicroseconds
  generated : m.generatedCodecFrames ≤ copy.generatedCodecFrames
  deviceBytes : m.peakRequestDeviceBytes ≤ copy.peakRequestDeviceBytes
  hostBytes : m.peakRequestHostBytes ≤ copy.peakRequestHostBytes

/-- Every counter is at least what it was, and the time of the first audio is final. -/
structure RequestMetrics.Grows (m m' : RequestMetrics) : Prop extends m.Behind m' where
  samples : m.emittedSamples ≤ m'.emittedSamples
  packets : m.emittedPackets ≤ m'.emittedPackets
  firstAudio : m.firstAudioMicroseconds ≠ 0 →
    m'.firstAudioMicroseconds = m.firstAudioMicroseconds

namespace RequestMetrics

variable {m m' m'' : RequestMetrics}

/-- The request's own metrics, -/
theorem Behind.refl (m : RequestMetrics) : m.Behind m := by
  constructor <;> exact le_rfl

/-- and copies of copies. -/
theorem Behind.trans (h : m.Behind m') (h' : m'.Behind m'') : m.Behind m'' where
  queue := h.queue.trans h'.queue
  prefill := h.prefill.trans h'.prefill
  firstCodecFrame := h.firstCodecFrame.trans h'.firstCodecFrame
  wall := h.wall.trans h'.wall
  generated := h.generated.trans h'.generated
  deviceBytes := h.deviceBytes.trans h'.deviceBytes
  hostBytes := h.hostBytes.trans h'.hostBytes

/-- The fields `poll` owns do not matter. -/
theorem Behind.polled (h : m.Behind m') (firstAudio samples packets : Nat) :
    { m with firstAudioMicroseconds := firstAudio, emittedSamples := samples,
             emittedPackets := packets }.Behind m' :=
  ⟨h.queue, h.prefill, h.firstCodecFrame, h.wall, h.generated, h.deviceBytes, h.hostBytes⟩

/-- What `push_packet` stores: the worker's fields from its copy, the others as they were. -/
theorem Behind.pushed (h : m.Behind m') : m.Grows { m' with
    firstAudioMicroseconds := m.firstAudioMicroseconds
    emittedSamples := m.emittedSamples
    emittedPackets := m.emittedPackets } where
  toBehind :=
    ⟨h.queue, h.prefill, h.firstCodecFrame, h.wall, h.generated, h.deviceBytes, h.hostBytes⟩
  samples := le_rfl
  packets := le_rfl
  firstAudio := fun _ => rfl

/-- No packet, -/
theorem Grows.refl (m : RequestMetrics) : m.Grows m where
  toBehind := .refl m
  samples := le_rfl
  packets := le_rfl
  firstAudio := fun _ => rfl

/-- and more and more of them. -/
theorem Grows.trans (h : m.Grows m') (h' : m'.Grows m'') : m.Grows m'' where
  toBehind := h.toBehind.trans h'.toBehind
  samples := h.samples.trans h'.samples
  packets := h.packets.trans h'.packets
  firstAudio := fun hne => by
    have hsame := h.firstAudio hne
    rw [h'.firstAudio (by rwa [hsame]), hsame]

end RequestMetrics

/-! ## The worker's copy -/

/-- The worker holds a copy of the metrics here. -/
@[simp] def copyOwner : Option Stage → Option ActiveRequest
  | some (.active a) | some (.eligible a) | some (.poolEmpty a) | some (.selected a _)
  | some (.stepped a _ _) | some (.settling a _) | some (.settled a) => some a
  | _ => none

/-- `mark_prefilling` has not been called. -/
@[simp] def isQueued : Option Stage → Bool
  | some (.waiting _) | some (.ready _) => true
  | _ => false

/-- `mark_generating` has not been called. -/
@[simp] def isUnstarted : Option Stage → Bool
  | some (.waiting _) | some (.ready _) | some (.prefilling _) | some (.outcome _ _) => true
  | _ => false

/-- The metrics of a request, of the worker's copy and of the history agree. -/
structure Metrics (now : Nat) (l : Local) : Prop where
  emittedPackets : l.request.state.metrics.emittedPackets = (deliveredOf l.request.history).length
  emittedSamples : l.request.state.metrics.emittedSamples = samples (deliveredOf l.request.history)
  generated : l.request.state.metrics.generatedCodecFrames = frames (publishedOf l.request.history)
  sized : samples (publishedOf l.request.history)
    = 1920 * frames (publishedOf l.request.history)
  queued : isQueued l.stage = true → l.request.state.metrics.queueMicroseconds = 0
  unstarted : isUnstarted l.stage = true → l.request.state.metrics.prefillMicroseconds = 0 ∧
    l.request.state.metrics.peakRequestDeviceBytes = 0 ∧
    l.request.state.metrics.peakRequestHostBytes = 0
  fresh : isFresh l.stage = true → l.request.state.metrics.wallMicroseconds = 0
  behind : ∀ a, copyOwner l.stage = some a →
    l.request.state.metrics.Behind a.record.metrics
  pushed : ∀ a packet metrics, l.stage = some (.settling a (.push packet metrics)) →
    metrics = a.record.metrics ∧
      packet.descriptor.sampleCount = 1920 * packet.descriptor.codecFrames
  copied : ∀ a, recordOwner l.stage = some a → l.request.state.cancelRequested = false →
    l.request.state.failure = none → a.record.metrics.generatedCodecFrames =
      frames (publishedOf l.request.history ++ (pushing l.stage).toList)
  clocked : ∀ a, copyOwner l.stage = some a →
    a.record.metrics.wallMicroseconds ≤ durationMicroseconds (now - a.startedAt)

section

variable {a : ActiveRequest} {packet : BackendPacket} {pcm : Pcm} {packetFrames now : Nat}
  {stepMicroseconds : F32} {owned : OwnedAudioPacket} {record : RequestRecord}

/-- Accepting a packet moves the copy forward. -/
theorem ActiveRequest.Accepted.behind
    (h : a.Accepted packet pcm packetFrames now stepMicroseconds owned record)
    (hclock : a.record.metrics.wallMicroseconds ≤ durationMicroseconds (now - a.startedAt)) :
    a.record.metrics.Behind record.metrics := by
  rw [h.metrics]
  refine {
    queue := le_rfl
    prefill := le_rfl
    firstCodecFrame := ?_
    wall := hclock
    generated := Nat.le_add_right _ _
    deviceBytes := Nat.le_max_left _ _
    hostBytes := Nat.le_max_left _ _ }
  simp only [RequestRecord.observe]
  split
  · omega
  · exact le_rfl

/-- The clock is read when the packet is accepted. -/
theorem ActiveRequest.Accepted.wall
    (h : a.Accepted packet pcm packetFrames now stepMicroseconds owned record) :
    record.metrics.wallMicroseconds = durationMicroseconds (now - a.startedAt) := by
  rw [h.metrics]
  rfl

/-- The frames of the packet are counted, -/
theorem ActiveRequest.Accepted.generated
    (h : a.Accepted packet pcm packetFrames now stepMicroseconds owned record) :
    record.metrics.generatedCodecFrames =
      a.record.metrics.generatedCodecFrames + owned.descriptor.codecFrames := by
  rw [h.metrics, h.owned_eq]
  rfl

/-- each with its samples. -/
theorem ActiveRequest.Accepted.sampleCount
    (h : a.Accepted packet pcm packetFrames now stepMicroseconds owned record) :
    owned.descriptor.sampleCount = 1920 * owned.descriptor.codecFrames := by
  rw [h.owned_eq]
  exact Nat.mul_comm _ _

end

section

variable {env : Env} {calls : Nat} {label : Label} {l l' : Local}

/-- A packet is counted when it is handed out, -/
theorem Metrics.step_emittedPackets (hl : Metrics env.now l) (h : LocalStep env calls label l l') :
    l'.request.state.metrics.emittedPackets = (deliveredOf l'.request.history).length := by
  have hpackets := hl.emittedPackets
  cases h
  all_goals simp_all

/-- with its samples. -/
theorem Metrics.step_emittedSamples (hl : Metrics env.now l) (h : LocalStep env calls label l l') :
    l'.request.state.metrics.emittedSamples = samples (deliveredOf l'.request.history) := by
  have hsamples := hl.emittedSamples
  cases h
  all_goals simp_all

/-- Frames are counted when their packet is published. -/
theorem Metrics.step_generated (hl : Metrics env.now l) (h : LocalStep env calls label l l') :
    l'.request.state.metrics.generatedCodecFrames = frames (publishedOf l'.request.history) ∧
      samples (publishedOf l'.request.history) = 1920 * frames (publishedOf l'.request.history) := by
  have hgenerated := hl.generated
  have hsized := hl.sized
  cases h
  case publish r a packet metrics hcancel hfailure _ =>
    obtain ⟨rfl, hsize⟩ := hl.pushed a packet metrics rfl
    have hcount := hl.copied a rfl hcancel hfailure
    have hsamples : samples (publishedOf r.history) = 1920 * frames (publishedOf r.history) := hsized
    constructor
    · simpa using hcount
    · simp [hsize, hsamples, Nat.mul_add]
  all_goals simp_all

/-- What a request has not been through yet is still zero. -/
theorem Metrics.step_zero (hl : Metrics env.now l) (h : LocalStep env calls label l l') :
    (isQueued l'.stage = true → l'.request.state.metrics.queueMicroseconds = 0) ∧
    (isUnstarted l'.stage = true → l'.request.state.metrics.prefillMicroseconds = 0 ∧
      l'.request.state.metrics.peakRequestDeviceBytes = 0 ∧
      l'.request.state.metrics.peakRequestHostBytes = 0) ∧
    (isFresh l'.stage = true → l'.request.state.metrics.wallMicroseconds = 0) := by
  have hqueued := hl.queued
  have hunstarted := hl.unstarted
  have hfresh := hl.fresh
  cases h
  all_goals simp_all

/-- The worker's copy is ahead of the request's metrics. -/
theorem Metrics.step_behind (hl : Metrics env.now l) (h : LocalStep env calls label l l') :
    ∀ a, copyOwner l'.stage = some a → l'.request.state.metrics.Behind a.record.metrics := by
  have hbehind := hl.behind
  cases h
  case pollPacket => exact fun a ha => (hbehind a ha).polled _ _ _
  case snapshot =>
    rintro a ⟨⟩
    exact .refl _
  case settleAccepted a entry packet owned record _ haccept =>
    rintro a' ⟨⟩
    have hcopy := (ActiveRequest.accept_ok haccept).behind (hl.clocked a rfl)
    exact (hbehind a rfl).trans hcopy
  case publish a packet metrics _ _ _ =>
    rintro a' ⟨⟩
    obtain ⟨rfl, -⟩ := hl.pushed a packet metrics rfl
    exact (RequestMetrics.Behind.refl _).polled _ _ _
  all_goals simp_all

/-- What is published next is the worker's copy. -/
theorem Metrics.step_pushed (hl : Metrics env.now l) (h : LocalStep env calls label l l') :
    ∀ a packet metrics, l'.stage = some (.settling a (.push packet metrics)) →
      metrics = a.record.metrics ∧
        packet.descriptor.sampleCount = 1920 * packet.descriptor.codecFrames := by
  have hpushed := hl.pushed
  cases h
  case settleAccepted haccept =>
    rintro a packet metrics ⟨⟩
    exact ⟨rfl, (ActiveRequest.accept_ok haccept).sampleCount⟩
  all_goals first | exact hpushed | simp_all

/-- The copy counts the packet that is about to be published. -/
theorem Metrics.step_copied (hl : Metrics env.now l) (h : LocalStep env calls label l l') :
    ∀ a, recordOwner l'.stage = some a → l'.request.state.cancelRequested = false →
      l'.request.state.failure = none → a.record.metrics.generatedCodecFrames =
        frames (publishedOf l'.request.history ++ (pushing l'.stage).toList) := by
  have hcopied := hl.copied
  have hgenerated := hl.generated
  cases h
  case settleAccepted r a entry packet owned record _ haccept =>
    rintro a' ⟨⟩ hcancel hfailure
    have hbefore : a.record.metrics.generatedCodecFrames = frames (publishedOf r.history) := by
      simpa using hcopied a rfl hcancel hfailure
    have hrecord := (ActiveRequest.accept_ok haccept).generated
    simp [hrecord, hbefore]
  all_goals simp_all

/-- The clock does not go back. -/
theorem Metrics.step_clocked (hl : Metrics env.now l) (h : LocalStep env calls label l l') :
    ∀ a, copyOwner l'.stage = some a →
      a.record.metrics.wallMicroseconds ≤ durationMicroseconds (env.now - a.startedAt) := by
  have hclocked := hl.clocked
  have hfresh := hl.fresh
  cases h
  case settleAccepted haccept =>
    rintro a ⟨⟩
    exact (ActiveRequest.accept_ok haccept).wall.le
  all_goals simp_all

/-- **No step makes a counter smaller.** -/
theorem Metrics.grows (hl : Metrics env.now l) (h : LocalStep env calls label l l') :
    l.request.state.metrics.Grows l'.request.state.metrics := by
  have hqueued := hl.queued
  have hunstarted := hl.unstarted
  cases h
  case pollPacket r _ packet rest _ _ _ =>
    refine {
      toBehind := ⟨le_rfl, le_rfl, le_rfl, le_rfl, le_rfl, le_rfl, le_rfl⟩
      samples := Nat.le_add_right _ _
      packets := Nat.le_add_right _ _
      firstAudio := fun hne => ?_ }
    exact if_neg hne
  case prefill r p queueMicroseconds =>
    have hzero : r.shared.state.metrics.queueMicroseconds = 0 := hqueued rfl
    refine ⟨⟨?_, le_rfl, le_rfl, le_rfl, le_rfl, le_rfl, le_rfl⟩, le_rfl, le_rfl, fun _ => rfl⟩
    exact hzero.trans_le (Nat.zero_le _)
  case startOk r p started =>
    obtain ⟨hprefill, hdevice, hhost⟩ := hunstarted rfl
    exact ⟨⟨le_rfl, hprefill.trans_le (Nat.zero_le _), le_rfl, le_rfl, le_rfl,
      hdevice.trans_le (Nat.zero_le _), hhost.trans_le (Nat.zero_le _)⟩, le_rfl, le_rfl,
      fun _ => rfl⟩
  case publish a packet metrics _ _ _ =>
    obtain ⟨rfl, -⟩ := hl.pushed a packet metrics rfl
    exact (hl.behind a rfl).pushed
  case dropPacket =>
    rw [Request.state, Request.state, Request.dropPacket_state]
    exact .refl _
  case unwindSession | cancelBackend | cancelBackendCancelled | cancelBackendFailed | dropSession =>
    rw [Request.state, Request.state, Request.emitSession_shared]
    exact .refl _
  all_goals exact .refl _

/-- The metrics agree along every run. -/
theorem metrics_inductive : Inductive anyLabel fun env l => Lifecycle l ∧ Metrics env.now l := by
  refine lifecycle_inductive.and (fun _ _ => ?_) (fun hlater hl => ?_) fun _ _ h hlife hl => {
    emittedPackets := hl.step_emittedPackets h
    emittedSamples := hl.step_emittedSamples h
    generated := (hl.step_generated h).1
    sized := (hl.step_generated h).2
    queued := (hl.step_zero h).1
    unstarted := (hl.step_zero h).2.1
    fresh := (hl.step_zero h).2.2
    behind := hl.step_behind h
    pushed := hl.step_pushed h
    copied := hl.step_copied h
    clocked := hl.step_clocked h }
  · constructor <;> simp
  · refine { hl with clocked := fun a ha => (hl.clocked a ha).trans ?_ }
    exact durationMicroseconds_mono (Nat.sub_le_sub_right hlater.now _)

end

/-! ## The contract of the metrics -/

/-- What the counters of a request count. -/
structure MetricsExact (r : Request) : Prop where
  packets : r.state.metrics.emittedPackets = (deliveredOf r.history).length
  samples : r.state.metrics.emittedSamples = samples (deliveredOf r.history)
  generated : r.state.metrics.generatedCodecFrames = frames (publishedOf r.history)
  bounded : r.state.metrics.emittedSamples ≤ 1920 * r.state.metrics.generatedCodecFrames

/-- Fewer packets have no more samples. -/
theorem samples_prefix {packets packets' : List OwnedAudioPacket} (h : packets <+: packets') :
    samples packets ≤ samples packets' := by
  obtain ⟨rest, rfl⟩ := h
  rw [samples_append]
  exact Nat.le_add_right _ _

/-- **Delivery metrics lose no update**: in every reachable state they count what was published
and delivered, and whatever any threads do next makes no counter smaller. -/
theorem metrics_lose_no_update {config : EngineConfig} {s s' : Sys} {actions : List Action}
    (h : Reachable config s) (hrun : run Sys.step s actions = some s') (id : Nat) :
    MetricsExact (s.requests id) ∧
      (s.requests id).state.metrics.Grows (s'.requests id).state.metrics := by
  have hmetrics : Metrics s.env.now (s.localOf id) := (metrics_inductive.reachable h id).2
  have hprefix := (queue_inductive.reachable h id).2.delivered
  constructor
  · refine ⟨hmetrics.emittedPackets, hmetrics.emittedSamples, hmetrics.generated, ?_⟩
    calc (s.requests id).state.metrics.emittedSamples
        = samples (deliveredOf (s.requests id).history) := hmetrics.emittedSamples
      _ ≤ samples (publishedOf (s.requests id).history) := samples_prefix hprefix
      _ = 1920 * frames (publishedOf (s.requests id).history) := hmetrics.sized
      _ = 1920 * (s.requests id).state.metrics.generatedCodecFrames := by
        rw [show (s.requests id).state.metrics.generatedCodecFrames = _ from hmetrics.generated]
        rfl
  · exact metrics_inductive.relates
      (R := fun l l' => l.request.state.metrics.Grows l'.request.state.metrics)
      (fun l => .refl _) (fun _ _ _ => .trans)
      (fun _ _ _ _ _ hl hstep => hl.2.grows hstep) h hrun id

set_option maxRecDepth 20000 in
/-- From the call of `step_batch` for the only packet to the end of the stream. -/
theorem metrics_lose_no_update_single :
    ∃ s s', run Sys.step (.init smallConfig) (runToStep 1) = some s ∧
      run Sys.step s runFromStep = some s' ∧
      (s'.requests 1).state.metrics.emittedPackets = 1 ∧ MetricsExact (s.requests 1) ∧
      (s.requests 1).state.metrics.Grows (s'.requests 1).state.metrics := by
  have hdone : (run Sys.step (.init smallConfig) (runToStep 1 ++ runFromStep)).map
      (fun s => (s.requests 1).shared.state.metrics.emittedPackets) = some 1 := by
    decide
  obtain ⟨s', hrun, hpackets⟩ := Option.map_eq_some_iff.mp hdone
  rw [run_append] at hrun
  obtain ⟨s, hs, hs'⟩ := Option.bind_eq_some_iff.mp hrun
  have h : Reachable smallConfig s := ⟨by decide, runToStep 1, hs⟩
  exact ⟨s, s', hs, hs', hpackets, metrics_lose_no_update h hs' 1⟩

end Qwen3Tts.Runtime
