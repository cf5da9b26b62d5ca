import Qwen3Tts.Server.SameAudio

/-!
# Server — the parts that a streaming worker sends

Whatever the engine answers, however the sends resolve and wherever the request is cancelled, what
enters the channel behind the start part is some accepted packets and at most one closing part: an
error, or the end of a stream that the checks accept (`streamed_parts`).
-/

namespace Qwen3Tts.Server

open Qwen3Tts.Lib Qwen3Tts.Runtime

/-- What every packet that is sent satisfies. -/
structure Checked (packet : EnginePacket) : Prop where
  sequence : packet.sequence + 1 < 2 ^ 64
  firstCodecFrame : packet.firstCodecFrame < 2 ^ 64
  firstSample : packet.firstSample < 2 ^ 64
  codecFrames : 0 < packet.codecFrames ∧ packet.codecFrames ≤ 4
  sampleCount : packet.sampleCount = packet.codecFrames * samplesPerCodecFrame
  bytes : packet.pcmS16le.length = packet.sampleCount * 2

/-- A packet the continuity accepts has been checked. -/
theorem checked_of_accept {c c' : PacketContinuity} {packet : EnginePacket}
    (h : c.accept packet = .ok c') : Checked packet := by
  unfold PacketContinuity.accept validatePacket at h
  simp only [bind_eq_ok, failIf_eq_ok, not_or, not_not, Bool.not_eq_true, Nat.not_le] at h
  obtain ⟨-, ⟨-, -, hsome, hfour, hcount, hbytes⟩, -, ⟨-, hsequence, hframe, hsample⟩, -, hnext, -,
    hframes, -, hsamples, -⟩ := h
  constructor
  · omega
  · omega
  · omega
  · omega
  · exact hcount
  · exact hbytes

/-- The parts behind the packets. -/
inductive Closing (job : Job) (c : PacketContinuity) (turns : List Turn)
    (packets : List EnginePacket) : List Part → Prop
  | cut : Closing job c turns packets []
  | failed (error : ApiError) : Closing job c turns packets [.error error]
  | ended {reason : EngineFinishReason} (h : outcome c turns = some (packets, reason)) :
    Closing job c turns packets [.finish job.requestId reason job.metrics]

section
variable {job : Job} {w : StreamingWorker} {turns : List Turn}

/-- An error is sent or dropped. -/
theorem sent_sendError (w : StreamingWorker) (error : ApiError) (race : Race) :
    ∃ tail, (w.sendError error race).sent = w.sent ++ tail ∧
      (tail = [] ∨ tail = [.error error]) := by
  unfold StreamingWorker.sendError StreamingWorker.send
  split
  · exact ⟨_, rfl, .inr rfl⟩
  · exact ⟨[], (List.append_nil _).symm, .inl rfl⟩

/-- A worker that stops with an error. -/
theorem closing_sendError {c : PacketContinuity} (w : StreamingWorker) (error : ApiError)
    (race : Race) : ∃ packets tail,
      (w.sendError error race).sent = w.sent ++ packets.map .audio ++ tail ∧
      (∀ packet ∈ packets, Checked packet) ∧ Closing job c turns packets tail := by
  obtain ⟨tail, hsent, htail⟩ := sent_sendError w error race
  refine ⟨[], tail, by rw [hsent]; simp, fun _ h => absurd h List.not_mem_nil, ?_⟩
  rcases htail with rfl | rfl
  · exact .cut
  · exact .failed error

/-- The parts of a run: audio parts of checked packets, then how it closes. -/
theorem run_parts : ∃ packets tail,
    (StreamingWorker.run job w turns).1.sent = w.sent ++ packets.map .audio ++ tail ∧
      (∀ packet ∈ packets, Checked packet) ∧ Closing job w.continuity turns packets tail := by
  -- by induction on the turns
  induction turns generalizing w with
  | nil => exact ⟨[], [], by simp [StreamingWorker.run], fun _ h => absurd h List.not_mem_nil, .cut⟩
  | cons t turns ih =>
    unfold StreamingWorker.run StreamingWorker.turn
    cases hcancelled : t.cancelled with
    | true => exact closing_sendError w _ t.race
    | false =>
      simp only [Bool.false_eq_true, if_false]
      cases hpoll : t.poll with
      | error e => exact closing_sendError w _ t.race
      | ok poll =>
        cases poll with
        | wouldBlock =>
          -- the packet was sent: it is the first of the rest of the run
          obtain ⟨packets, tail, hsent, hchecked, hclosing⟩ := ih (w := w)
          refine ⟨packets, tail, hsent, hchecked, ?_⟩
          cases hclosing with
          | cut => exact .cut
          | failed error => exact .failed error
          | ended h =>
            apply Closing.ended
            unfold outcome
            rw [hpoll]
            exact h
        | endOfStream reason =>
          dsimp only
          unfold StreamingWorker.handleEndOfStream
          cases hfinish : w.continuity.finish with
          | error e => exact closing_sendError w _ t.race
          | ok u =>
            dsimp only
            split
            · exact closing_sendError w _ t.race
            · unfold StreamingWorker.send
              cases hchunk : sendChunk t.race true with
              | error e =>
                exact ⟨[], [], by simp, fun _ h => absurd h List.not_mem_nil, .cut⟩
              | ok u =>
                refine ⟨[], [.finish job.requestId reason job.metrics], by simp,
                  fun _ h => absurd h List.not_mem_nil, .ended ?_⟩
                unfold outcome
                rw [hpoll]
                dsimp only
                rw [hfinish]
        | packet p =>
          dsimp only
          unfold StreamingWorker.handlePacket
          cases haccept : w.continuity.accept p with
          | error e => exact closing_sendError w _ t.race
          | ok c =>
            unfold StreamingWorker.send
            cases hchunk : sendChunk t.race true with
            | error e =>
              exact ⟨[], [], by simp [StreamingWorker.retire],
                fun _ h => absurd h List.not_mem_nil, .cut⟩
            | ok u =>
              dsimp only
              obtain ⟨packets, tail, hsent, hchecked, hclosing⟩ := ih (w :=
                ⟨w.sent ++ [.audio p], min (w.sentSamples + p.sampleCount) (2 ^ 64 - 1), c,
                  w.completion⟩)
              refine ⟨p :: packets, tail, by rw [hsent]; simp,
                List.forall_mem_cons.mpr ⟨checked_of_accept haccept, hchecked⟩, ?_⟩
              cases hclosing with
              | cut => exact .cut
              | failed error => exact .failed error
              | ended h =>
                apply Closing.ended
                unfold outcome
                rw [hpoll]
                dsimp only at h ⊢
                rw [haccept]
                dsimp only
                rw [h]
                rfl

/-- **The parts of a stream**: the start part, accepted packets, and at most one closing part. -/
theorem streamed_parts (job : Job) (turns : List Turn) : ∃ packets tail,
    (runStreamingWorker job turns).1.sent
      = .start job.requestId job.seed :: (packets.map .audio ++ tail) ∧
    (∀ packet ∈ packets, Checked packet) ∧ Closing job {} turns packets tail := by
  obtain ⟨packets, tail, hsent, hrest⟩ :=
    @run_parts job { sent := [.start job.requestId job.seed] } turns
  exact ⟨packets, tail, by rw [runStreamingWorker, hsent]; rfl, hrest⟩

end

end Qwen3Tts.Server
