import Qwen3Tts.Server.Worker

/-!
# Server — streaming and buffered responses carry the same audio

Both workers run the same packet checks on the same engine script. `outcome` is what the checks
make of a script on their own: the packets, when all of them are accepted and the stream ends
behind a final one. Each worker is then described by it, and so are the packets themselves:
contiguous from zero, and final only in last position.
-/

namespace Qwen3Tts.Server

open Qwen3Tts.Lib Qwen3Tts.Runtime

/-! ## Statement -/

/-- The packets the engine hands out before the stream ends or fails. -/
def enginePackets : List Turn → List EnginePacket
  | [] => []
  | t :: turns =>
    match t.poll with
    | .ok .wouldBlock => enginePackets turns
    | .ok (.packet packet) => packet :: enginePackets turns
    | .ok (.endOfStream _) => []
    | .error _ => []

/-- The frames of some packets, and their samples. -/
def frameCount (packets : List EnginePacket) : Nat := (packets.map (·.codecFrames)).sum

def sampleCount (packets : List EnginePacket) : Nat := (packets.map (·.sampleCount)).sum

/-- The PCM of the packets, in order. -/
def audioBytes (packets : List EnginePacket) : Bytes := packets.flatMap (·.pcmS16le)

/-- Contiguous from zero, with exactly one final packet, in last position. -/
structure Contiguous (packets : List EnginePacket) : Prop where
  positions : ∀ before packet after, packets = before ++ packet :: after →
    packet.sequence = before.length ∧ packet.firstCodecFrame = frameCount before ∧
      packet.firstSample = sampleCount before
  final : ∃ before last, packets = before ++ [last] ∧ last.isFinal = true ∧
    ∀ packet ∈ before, packet.isFinal = false

/-- No cancellation, a client that takes each chunk in time, and a request that retires, under the
configuration that `build_router_with_shutdown` validated. -/
structure Undisturbed (job : Job) (turns : List Turn) : Prop where
  config : job.config.validate = .ok ()
  retires : job.retires = true
  turns : ∀ t ∈ turns, t.cancelled = false ∧ t.race.cancelledFirst = false ∧
    t.race.sent = .ok ()

/-- The streaming worker sent an end part. -/
def EmitsEnd (job : Job) (turns : List Turn) : Prop :=
  ∃ requestId reason metrics,
    Part.finish requestId reason metrics ∈ (runStreamingWorker job turns).1.sent

/-- The buffered worker returned a WAV. -/
def ReturnsWav (job : Job) (turns : List Turn) : Prop :=
  ∃ completion out, runBufferedWorker job turns = some (completion, .ok out)

/-! ## The checks on their own -/

/-- The packets and the finish reason, when the checks accept the whole script. -/
def outcome (c : PacketContinuity) : List Turn → Option (List EnginePacket × EngineFinishReason)
  | [] => none
  | t :: turns =>
    match t.poll with
    | .ok .wouldBlock => outcome c turns
    | .ok (.packet packet) =>
      match c.accept packet with
      | .error _ => none
      | .ok c' => (outcome c' turns).map fun result => (packet :: result.1, result.2)
    | .ok (.endOfStream reason) =>
      match c.finish with
      | .error _ => none
      | .ok () => some ([], reason)
    | .error _ => none

section

variable {c c' : PacketContinuity} {packet : EnginePacket}

/-- Everything an accepted packet satisfies. -/
theorem accept_ok (h : c.accept packet = .ok c') :
    c.sawFinal = false ∧ packet.sequence = c.nextSequence ∧
    packet.firstCodecFrame = c.nextCodecFrame ∧ packet.firstSample = c.nextSample ∧
    packet.pcmS16le.length = packet.sampleCount * 2 ∧
    c.nextSample + packet.sampleCount < 2 ^ 64 ∧
    c' = ⟨c.nextSequence + 1, c.nextCodecFrame + packet.codecFrames,
      c.nextSample + packet.sampleCount, true, packet.isFinal⟩ := by
  unfold PacketContinuity.accept validatePacket at h
  simp only [bind_eq_ok, pure_eq_ok, failIf_eq_ok, not_or, not_not, Bool.not_eq_true,
    Nat.not_le] at h
  obtain ⟨-, ⟨-, -, -, -, -, hbytes⟩, -, ⟨hfinal, hsequence, hframe, hsample⟩, -, -, -, -, -,
    hbound, rfl⟩ := h
  exact ⟨hfinal, hsequence, hframe, hsample, hbytes, hbound, rfl⟩

/-- The end is accepted behind the final packet. -/
theorem finish_ok {u : Unit} : c.finish = .ok u ↔ c.sawPacket = true ∧ c.sawFinal = true := by
  unfold PacketContinuity.finish
  rw [failIf_eq_ok]
  cases c.sawPacket <;> cases c.sawFinal <;> simp

/-- `packets` continue the stream at the positions of `c`. -/
structure Continues (c : PacketContinuity) (packets : List EnginePacket) : Prop where
  positions : ∀ before packet after, packets = before ++ packet :: after →
    packet.sequence = c.nextSequence + before.length ∧
      packet.firstCodecFrame = c.nextCodecFrame + frameCount before ∧
      packet.firstSample = c.nextSample + sampleCount before
  final : (packets = [] ∧ c.sawFinal = true) ∨
    (c.sawFinal = false ∧ ∃ before last, packets = before ++ [last] ∧ last.isFinal = true ∧
      ∀ packet ∈ before, packet.isFinal = false)
  bytes : (audioBytes packets).length = 2 * sampleCount packets
  bound : packets = [] ∨ c.nextSample + sampleCount packets < 2 ^ 64

/-- Nothing follows the final packet. -/
theorem Continues.nil (hfinal : c.sawFinal = true) : Continues c [] where
  positions := by simp
  final := .inl ⟨rfl, hfinal⟩
  bytes := rfl
  bound := .inl rfl

/-- One more packet in front, which continues what was seen. -/
theorem Continues.cons {packets : List EnginePacket} (haccept : c.accept packet = .ok c')
    (h : Continues c' packets) : Continues c (packet :: packets) := by
  obtain ⟨hfinal, hsequence, hframe, hsample, hbytes, hbound, rfl⟩ := accept_ok haccept
  constructor
  -- each position is the sum of what is before it
  case positions =>
    rintro before p after heq
    cases before with
    | nil =>
      obtain ⟨rfl, rfl⟩ := List.cons.inj heq
      exact ⟨hsequence, hframe, hsample⟩
    | cons head before =>
      rw [List.cons_append, List.cons.injEq] at heq
      obtain ⟨rfl, hrest⟩ := heq
      obtain ⟨h1, h2, h3⟩ := h.positions before p after hrest
      simp only [List.length_cons, frameCount, sampleCount, List.map_cons, List.sum_cons] at *
      omega
  -- and only the last packet is final
  case final =>
    refine .inr ⟨hfinal, ?_⟩
    rcases h.final with ⟨rfl, hlast⟩ | ⟨hnot, before, last, rfl, hlast, hothers⟩
    · exact ⟨[], packet, rfl, hlast, by simp⟩
    · refine ⟨packet :: before, last, rfl, hlast, ?_⟩
      intro p hp
      rcases List.mem_cons.mp hp with rfl | hp
      · exact hnot
      · exact hothers p hp
  case bytes =>
    have h := h.bytes
    simp only [audioBytes, sampleCount, List.flatMap_cons, List.map_cons, List.sum_cons,
      List.length_append] at h ⊢
    omega
  case bound =>
    refine .inr ?_
    have h := h.bound
    simp only [sampleCount, List.map_cons, List.sum_cons] at h ⊢
    rcases h with rfl | h
    · simpa using hbound
    · omega

/-- The outcome is what the engine gave out, checked packet by packet. -/
theorem outcome_packets {turns : List Turn} {packets : List EnginePacket}
    {reason : EngineFinishReason} (h : outcome c turns = some (packets, reason)) :
    enginePackets turns = packets ∧ Continues c packets := by
  induction turns generalizing c packets with
  | nil => cases h
  | cons t turns ih =>
    unfold outcome at h
    unfold enginePackets
    cases hpoll : t.poll with
    | error e => simp [hpoll] at h
    | ok poll =>
      rw [hpoll] at h
      cases poll with
      | wouldBlock => exact ih h
      | endOfStream r =>
        simp only at h
        cases hfinish : c.finish with
        | error e => simp [hfinish] at h
        | ok u =>
          simp only [hfinish, Option.some.injEq, Prod.mk.injEq] at h
          obtain ⟨rfl, -⟩ := h
          exact ⟨rfl, .nil (finish_ok.mp hfinish).2⟩
      | packet p =>
        simp only at h
        cases haccept : c.accept p with
        | error e => simp [haccept] at h
        | ok c' =>
          rw [haccept] at h
          obtain ⟨⟨rest, r⟩, hrest, heq⟩ := Option.map_eq_some_iff.mp h
          cases heq
          obtain ⟨hpackets, hcontinues⟩ := ih hrest
          exact ⟨by rw [hpackets], .cons haccept hcontinues⟩

end

/-! ## The streaming worker -/

/-- The part of `Undisturbed` about one list of turns. -/
def Calm (turns : List Turn) : Prop :=
  ∀ t ∈ turns, t.cancelled = false ∧ t.race.cancelledFirst = false ∧ t.race.sent = .ok ()

/-- Nothing interrupts the send. -/
theorem sendChunk_calm {t : Turn} {observe : Bool}
    (h : t.race.cancelledFirst = false ∧ t.race.sent = .ok ()) :
    sendChunk t.race observe = .ok () := by
  unfold sendChunk
  rw [h.1, h.2, Bool.and_false]
  rfl

section

variable {job : Job} {turns : List Turn} {packets : List EnginePacket}
  {reason : EngineFinishReason}

/-- An accepted script is streamed packet by packet and ended. -/
theorem stream_some {w : StreamingWorker} (hcalm : Calm turns) (hretires : job.retires = true)
    (hsamples : w.sentSamples = w.continuity.nextSample)
    (h : outcome w.continuity turns = some (packets, reason)) :
    (StreamingWorker.run job w turns).1.sent = w.sent ++ packets.map .audio
        ++ [.finish job.requestId reason job.metrics] ∧
      (StreamingWorker.run job w turns).1.completion =
        .completed (w.sentSamples + sampleCount packets) := by
  -- by induction on the turns, with the samples counted so far
  induction turns generalizing w packets with
  | nil => cases h
  | cons t turns ih =>
    obtain ⟨hcancelled, hrace⟩ := hcalm t List.mem_cons_self
    have hrest : Calm turns := fun t ht => hcalm t (List.mem_cons_of_mem _ ht)
    unfold outcome at h
    unfold StreamingWorker.run StreamingWorker.turn
    rw [hcancelled]
    cases hpoll : t.poll with
    | error e => simp [hpoll] at h
    | ok poll =>
      rw [hpoll] at h
      cases poll with
      | wouldBlock => exact ih hrest hsamples h
      | endOfStream r =>
        simp only at h
        cases hfinish : w.continuity.finish with
        | error e => simp [hfinish] at h
        | ok u =>
          simp only [hfinish, Option.some.injEq, Prod.mk.injEq] at h
          obtain ⟨rfl, rfl⟩ := h
          simp [StreamingWorker.handleEndOfStream, hfinish, hretires, StreamingWorker.send,
            sendChunk_calm hrace, sampleCount]
      | packet p =>
        simp only at h
        cases haccept : w.continuity.accept p with
        | error e => simp [haccept] at h
        | ok c =>
          rw [haccept] at h
          obtain ⟨⟨rest, r⟩, hrun, heq⟩ := Option.map_eq_some_iff.mp h
          cases heq
          obtain ⟨-, -, -, -, -, hbound, hc⟩ := accept_ok haccept
          have hnext : min (w.sentSamples + p.sampleCount) (2 ^ 64 - 1) = c.nextSample := by
            rw [hc, hsamples]
            dsimp only
            omega
          simp only [StreamingWorker.handlePacket, haccept, StreamingWorker.send,
            sendChunk_calm hrace, Bool.false_eq_true, if_false]
          obtain ⟨hsent, hcompletion⟩ := ih (w := ⟨w.sent ++ [.audio p],
            min (w.sentSamples + p.sampleCount) (2 ^ 64 - 1), c, w.completion⟩) hrest hnext hrun
          refine ⟨by rw [hsent]; simp, ?_⟩
          rw [hcompletion, hnext, hc, hsamples]
          simp only [sampleCount, List.map_cons, List.sum_cons, Completion.completed.injEq]
          omega

/-- A script that the checks reject is never ended. -/
theorem stream_none {w : StreamingWorker} (hcalm : Calm turns)
    (h : outcome w.continuity turns = none) {requestId : Uuid} {metrics : EngineMetrics}
    (hmem : Part.finish requestId reason metrics ∈ (StreamingWorker.run job w turns).1.sent) :
    Part.finish requestId reason metrics ∈ w.sent := by
  -- an error part is no end part
  have herror : ∀ (w : StreamingWorker) (error : ApiError) (race : Race),
      Part.finish requestId reason metrics ∈ (w.sendError error race).sent →
        Part.finish requestId reason metrics ∈ w.sent := by
    intro w error race hmem
    unfold StreamingWorker.sendError StreamingWorker.send at hmem
    split at hmem
    · simpa using hmem
    · exact hmem
  induction turns generalizing w with
  | nil => exact hmem
  | cons t turns ih =>
    obtain ⟨hcancelled, hrace⟩ := hcalm t List.mem_cons_self
    have hrest : Calm turns := fun t ht => hcalm t (List.mem_cons_of_mem _ ht)
    unfold outcome at h
    unfold StreamingWorker.run StreamingWorker.turn at hmem
    rw [hcancelled] at hmem
    cases hpoll : t.poll with
    | error e =>
      rw [hpoll] at hmem
      exact herror _ _ _ hmem
    | ok poll =>
      rw [hpoll] at h hmem
      cases poll with
      | wouldBlock => exact ih hrest h hmem
      | endOfStream r =>
        simp only at h hmem
        cases hfinish : w.continuity.finish with
        | error e =>
          simp only [StreamingWorker.handleEndOfStream, hfinish] at hmem
          exact herror _ _ _ hmem
        | ok u => simp [hfinish] at h
      | packet p =>
        simp only at h hmem
        cases haccept : w.continuity.accept p with
        | error e =>
          simp only [StreamingWorker.handlePacket, haccept] at hmem
          exact herror _ _ _ hmem
        | ok c =>
          rw [haccept, Option.map_eq_none_iff] at h
          simp only [StreamingWorker.handlePacket, haccept, StreamingWorker.send,
            sendChunk_calm hrace, Bool.false_eq_true, if_false] at hmem
          have hw := ih (w := ⟨w.sent ++ [.audio p],
            min (w.sentSamples + p.sampleCount) (2 ^ 64 - 1), c, w.completion⟩) hrest h hmem
          simpa using hw

/-! ## The buffered worker -/

/-- The limit of a validated configuration is far below what a WAV header can hold. -/
theorem maxBufferedPcmBytes_le {config : ServerConfig} (h : config.validate = .ok ()) :
    config.maxBufferedPcmBytes ≤ 8192 * samplesPerCodecFrame * 2 := by
  have hframes : durationToFrames config.maxDurationSeconds ≤ 8192 := by
    unfold ServerConfig.validate at h
    simp only [ite_error_eq_ok] at h
    obtain ⟨-, -, -, -, -, -, h⟩ := h
    cases hbudget : config.slowClientTimeout.checkedAdd config.retirementTimeout with
    | none =>
      rw [hbudget] at h
      cases h
    | some budget =>
      rw [hbudget] at h
      simp only [ite_error_eq_ok, not_or, Nat.not_lt] at h
      exact h.2.1.2
  unfold ServerConfig.maxBufferedPcmBytes ServerConfig.maxCodecFrames
  have hbytes := Nat.mul_le_mul_right 2 (Nat.mul_le_mul_right samplesPerCodecFrame hframes)
  omega

/-- Whole samples within the limits are encoded. -/
theorem encodePcm16Mono_ok {pcm : Bytes} (heven : pcm.length % 2 = 0)
    (hlength : pcm.length ≤ 8192 * samplesPerCodecFrame * 2) :
    encodePcm16Mono pcm = .ok (wavHeader pcm.length ++ pcm) := by
  unfold samplesPerCodecFrame at hlength
  unfold encodePcm16Mono
  rw [if_neg (by omega), if_neg (by omega), if_neg (by omega)]

/-- An accepted script within the byte limit becomes a WAV of its packets. -/
theorem buffered_within {w : BufferedWorker} (hcalm : Calm turns) (hretires : job.retires = true)
    (hconfig : job.config.validate = .ok ()) (hpcm : w.pcm.length = 2 * w.continuity.nextSample)
    (h : outcome w.continuity turns = some (packets, reason))
    (hlimit : w.pcm.length + (audioBytes packets).length ≤ job.config.maxBufferedPcmBytes) :
    BufferedWorker.run job w turns = some (.completed (w.continuity.nextSample + sampleCount packets),
      .ok ⟨wavHeader (w.pcm ++ audioBytes packets).length ++ (w.pcm ++ audioBytes packets),
        reason⟩) := by
  -- by induction on the turns, with the bytes buffered so far
  induction turns generalizing w packets with
  | nil => cases h
  | cons t turns ih =>
    obtain ⟨hcancelled, -⟩ := hcalm t List.mem_cons_self
    have hrest : Calm turns := fun t ht => hcalm t (List.mem_cons_of_mem _ ht)
    unfold outcome at h
    unfold BufferedWorker.run BufferedWorker.turn
    rw [hcancelled]
    cases hpoll : t.poll with
    | error e => simp [hpoll] at h
    | ok poll =>
      rw [hpoll] at h
      cases poll with
      | wouldBlock => exact ih hrest hpcm h hlimit
      | endOfStream r =>
        simp only at h
        cases hfinish : w.continuity.finish with
        | error e => simp [hfinish] at h
        | ok u =>
          simp only [hfinish, Option.some.injEq, Prod.mk.injEq] at h
          obtain ⟨rfl, rfl⟩ := h
          have hmax := maxBufferedPcmBytes_le hconfig
          have hencode : encodePcm16Mono w.pcm = .ok (wavHeader w.pcm.length ++ w.pcm) :=
            encodePcm16Mono_ok (by omega) (by omega)
          have hhalf : w.pcm.length / 2 = w.continuity.nextSample := by omega
          simp [BufferedWorker.handleEndOfStream, hfinish, hretires, hencode, hhalf, audioBytes,
            sampleCount]
      | packet p =>
        simp only at h
        cases haccept : w.continuity.accept p with
        | error e => simp [haccept] at h
        | ok c =>
          rw [haccept] at h
          obtain ⟨⟨rest, r⟩, hrun, heq⟩ := Option.map_eq_some_iff.mp h
          cases heq
          dsimp only at hlimit
          obtain ⟨-, -, -, -, hbytes, -, hc⟩ := accept_ok haccept
          have hsplit : (audioBytes (p :: rest)).length
              = p.pcmS16le.length + (audioBytes rest).length := by
            simp [audioBytes]
          simp only [Bool.false_eq_true, if_false, haccept]
          rw [if_neg (by omega)]
          -- the buffer holds the samples that were accepted
          have hnext : (w.pcm ++ p.pcmS16le).length = 2 * c.nextSample := by
            rw [hc, List.length_append]
            dsimp only
            omega
          have hrun := ih (w := ⟨w.pcm ++ p.pcmS16le, c⟩) hrest hnext hrun
            (by rw [List.length_append]; omega)
          dsimp only at hrun ⊢
          rw [hrun, hc]
          simp [audioBytes, sampleCount, Nat.add_assoc]

/-- A WAV is returned only for an accepted script within the byte limit. -/
theorem buffered_wav {w : BufferedWorker} {completion : Completion} {out : BufferedOutput}
    (hcalm : Calm turns) (hpcm : w.pcm.length ≤ job.config.maxBufferedPcmBytes)
    (h : BufferedWorker.run job w turns = some (completion, .ok out)) :
    ∃ packets reason, outcome w.continuity turns = some (packets, reason) ∧
      w.pcm.length + (audioBytes packets).length ≤ job.config.maxBufferedPcmBytes := by
  -- by induction on the turns; a packet beyond the limit ends the run with an error
  induction turns generalizing w with
  | nil => cases h
  | cons t turns ih =>
    obtain ⟨hcancelled, -⟩ := hcalm t List.mem_cons_self
    have hrest : Calm turns := fun t ht => hcalm t (List.mem_cons_of_mem _ ht)
    unfold outcome
    unfold BufferedWorker.run BufferedWorker.turn at h
    rw [hcancelled] at h
    cases hpoll : t.poll with
    | error e => simp [hpoll] at h
    | ok poll =>
      rw [hpoll] at h
      cases poll with
      | wouldBlock => exact ih hrest hpcm h
      | endOfStream r =>
        cases hfinish : w.continuity.finish with
        | error e => simp [BufferedWorker.handleEndOfStream, hfinish,
            BufferedWorker.failNativeOutput] at h
        | ok u => exact ⟨[], r, by simp, by simpa [audioBytes] using hpcm⟩
      | packet p =>
        simp only [Bool.false_eq_true, if_false] at h
        cases haccept : w.continuity.accept p with
        | error e => simp [haccept, BufferedWorker.failNativeOutput] at h
        | ok c =>
          rw [haccept] at h
          dsimp only at h
          by_cases hover : job.config.maxBufferedPcmBytes < w.pcm.length + p.pcmS16le.length
          · rw [if_pos hover] at h
            cases h
          · rw [if_neg hover] at h
            obtain ⟨packets, r, houtcome, hlimit⟩ := ih (w := ⟨w.pcm ++ p.pcmS16le, c⟩) hrest
              (by rw [List.length_append]; omega) h
            refine ⟨p :: packets, r, by simp [haccept, houtcome], ?_⟩
            simpa [audioBytes, Nat.add_assoc] using hlimit

/-! ## Agreement -/

/-- **The two responses carry the same audio.** The stream is ended, and fits the buffer, exactly
when the buffered worker returns a WAV; then the audio parts are the engine's packets, the WAV is
a header and their PCM, the packets are contiguous, and reason and sample count agree. -/
theorem responses_agree (h : Undisturbed job turns) :
    (ReturnsWav job turns ↔ EmitsEnd job turns ∧
      (audioBytes (enginePackets turns)).length ≤ job.config.maxBufferedPcmBytes) ∧
    ∀ completion out, runBufferedWorker job turns = some (completion, .ok out) →
      Contiguous (enginePackets turns) ∧
      (runStreamingWorker job turns).1.sent = .start job.requestId job.seed ::
        (enginePackets turns).map .audio ++ [.finish job.requestId out.finishReason job.metrics] ∧
      out.wav = wavHeader (audioBytes (enginePackets turns)).length
        ++ audioBytes (enginePackets turns) ∧
      completion = .completed (sampleCount (enginePackets turns)) ∧
      (runStreamingWorker job turns).1.completion = completion := by
  have hbuffered : ∀ completion out, runBufferedWorker job turns = some (completion, .ok out) →
      ∃ reason, outcome {} turns = some (enginePackets turns, reason) ∧
        (audioBytes (enginePackets turns)).length ≤ job.config.maxBufferedPcmBytes := by
    intro completion out hrun
    obtain ⟨packets, reason, houtcome, hlimit⟩ := buffered_wav (w := {}) h.turns (Nat.zero_le _) hrun
    rw [(outcome_packets houtcome).1]
    exact ⟨reason, houtcome, by simpa using hlimit⟩
  have hstreamed : ∀ reason, outcome {} turns = some (enginePackets turns, reason) →
      (runStreamingWorker job turns).1.sent = .start job.requestId job.seed ::
        (enginePackets turns).map .audio ++ [.finish job.requestId reason job.metrics] ∧
      (runStreamingWorker job turns).1.completion =
        .completed (sampleCount (enginePackets turns)) := by
    intro reason houtcome
    obtain ⟨hsent, hcompletion⟩ := stream_some
      (w := { sent := [.start job.requestId job.seed] }) h.turns h.retires rfl houtcome
    exact ⟨hsent, by rw [runStreamingWorker, hcompletion, Nat.zero_add]⟩
  have hwav : ∀ reason, outcome {} turns = some (enginePackets turns, reason) →
      (audioBytes (enginePackets turns)).length ≤ job.config.maxBufferedPcmBytes →
      runBufferedWorker job turns = some (.completed (sampleCount (enginePackets turns)),
        .ok ⟨wavHeader (audioBytes (enginePackets turns)).length
          ++ audioBytes (enginePackets turns), reason⟩) := by
    intro reason houtcome hlimit
    have hrun := buffered_within (w := {}) h.turns h.retires h.config rfl houtcome
      (by simpa using hlimit)
    simpa [runBufferedWorker] using hrun
  refine ⟨⟨fun ⟨completion, out, hrun⟩ => ?_, fun ⟨⟨requestId, reason, metrics, hmem⟩, hlimit⟩ => ?_⟩,
    fun completion out hrun => ?_⟩
  · obtain ⟨reason, houtcome, hlimit⟩ := hbuffered completion out hrun
    refine ⟨⟨job.requestId, reason, job.metrics, ?_⟩, hlimit⟩
    rw [(hstreamed reason houtcome).1]
    simp
  · cases houtcome : outcome {} turns with
    | none =>
      -- then no end part was sent
      have hstart := stream_none (w := { sent := [.start job.requestId job.seed] }) h.turns
        houtcome hmem
      simp at hstart
    | some result =>
      obtain ⟨packets, r⟩ := result
      obtain rfl := (outcome_packets houtcome).1
      exact ⟨_, _, hwav r houtcome hlimit⟩
  · obtain ⟨reason, houtcome, hlimit⟩ := hbuffered completion out hrun
    rw [hwav reason houtcome hlimit] at hrun
    cases hrun
    obtain ⟨hsent, hcompletion⟩ := hstreamed reason houtcome
    obtain ⟨hpositions, hfinal, -, -⟩ := (outcome_packets houtcome).2
    have hcontiguous : Contiguous (enginePackets turns) := by
      refine ⟨fun before packet after heq => ?_, ?_⟩
      · simpa using hpositions before packet after heq
      · rcases hfinal with ⟨-, hlast⟩ | ⟨-, hlast⟩
        · cases hlast
        · exact hlast
    exact ⟨hcontiguous, hsent, rfl, rfl, hcompletion⟩

end

set_option maxRecDepth 20000 in
/-- Two packets of one frame each. -/
theorem responses_agree_pair : EmitsEnd sampleJob turnsToEnd ∧
    Contiguous (enginePackets turnsToEnd) ∧ (enginePackets turnsToEnd).length = 2 := by
  have hcalm : Undisturbed sampleJob turnsToEnd :=
    ⟨by decide, rfl, by simp [turnsToEnd]⟩
  have hok : (runBufferedWorker sampleJob turnsToEnd).map (·.2.isOk) = some true := by
    decide
  obtain ⟨⟨completion, result⟩, hrun, hresult⟩ := Option.map_eq_some_iff.mp hok
  cases result with
  | error e => cases hresult
  | ok out =>
    have hagree := responses_agree hcalm
    exact ⟨(hagree.1.mp ⟨completion, out, hrun⟩).1, (hagree.2 completion out hrun).1, by decide⟩

end Qwen3Tts.Server
