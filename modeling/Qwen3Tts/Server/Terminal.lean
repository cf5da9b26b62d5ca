import Qwen3Tts.Server.Worker

/-!
# Server — the terminal part of a progressive response

With a client that takes every chunk in time, the only send that can fail is one that watches
the cancellation token: the send of an audio part or of the end part. A worker that loses that
race returns without another send, so its response has no terminal part; every other exit sends
one. `losesRace` reads the lost race off the turns, and the response is well terminated exactly
when it does not happen.
-/

namespace Qwen3Tts.Server

open Qwen3Tts.Lib

/-- The token fires while the worker sends an audio part or the end part, and the `select!` takes
the cancellation branch. -/
def losesRace (job : Job) : PacketContinuity → List Turn → Bool
  | _, [] => false
  | c, t :: turns =>
    if t.cancelled then false
    else match t.poll with
    | .ok .wouldBlock => losesRace job c turns
    | .ok (.packet packet) =>
      match c.accept packet with
      | .error _ => false
      | .ok c' => t.race.cancelledFirst || losesRace job c' turns
    | .ok (.endOfStream _) => c.finish.isOk && job.retires && t.race.cancelledFirst
    | .error _ => false

/-- One start part, then audio parts, then one closing part and nothing behind it. -/
def WellTerminated (job : Job) (parts : List Part) : Prop :=
  ∃ (packets : List EnginePacket) (terminal : Part), parts = .start job.requestId job.seed :: packets.map .audio ++ [terminal] ∧
    terminal.close = true

/-- The turn makes the worker return, whatever happened before. -/
def Turn.Ends (t : Turn) : Prop :=
  t.cancelled = true ∨ (∃ reason, t.poll = .ok (.endOfStream reason)) ∨ ∃ e, t.poll = .error e

/-- Only the start part and audio parts so far. -/
def Streaming (job : Job) (parts : List Part) : Prop :=
  ∃ packets : List EnginePacket, parts = .start job.requestId job.seed :: packets.map .audio

section

variable {job : Job} {w : StreamingWorker} {t : Turn} {turns : List Turn} {race : Race}

/-- An audio part leaves the stream open. -/
theorem Streaming.append_audio {parts : List Part} {packet : EnginePacket}
    (h : Streaming job parts) : Streaming job (parts ++ [.audio packet]) := by
  obtain ⟨packets, rfl⟩ := h
  exact ⟨packets ++ [packet], by simp⟩

/-- A closing part ends it. -/
theorem Streaming.terminate {parts : List Part} {terminal : Part} (h : Streaming job parts)
    (hclose : terminal.close = true) : WellTerminated job (parts ++ [terminal]) := by
  obtain ⟨packets, rfl⟩ := h
  exact ⟨packets, terminal, rfl, hclose⟩

/-- No part of an unterminated response closes the body. -/
theorem Streaming.not_wellTerminated {parts : List Part} (h : Streaming job parts) :
    ¬ WellTerminated job parts := by
  obtain ⟨packets, rfl⟩ := h
  rintro ⟨packets', terminal, heq, hclose⟩
  have hmem : terminal ∈ Part.start job.requestId job.seed :: packets.map .audio := by
    rw [heq]
    simp
  rcases List.mem_cons.mp hmem with rfl | hmem
  · cases hclose
  · obtain ⟨packet, -, rfl⟩ := List.mem_map.mp hmem
    cases hclose

/-! ## One send -/

/-- The error part of a client that is connected is sent. -/
theorem sendError_sent (hsent : race.sent = .ok ()) {error : ApiError} :
    (w.sendError error race).sent = w.sent ++ [.error error] := by
  have hsend : sendChunk race false = .ok () := by rw [← hsent]; rfl
  unfold StreamingWorker.sendError StreamingWorker.send
  rw [hsend]

/-- A part that observes cancellation is sent unless the cancellation is first. -/
theorem send_observing {part : Part} (hsent : race.sent = .ok ()) :
    w.send part race true = if race.cancelledFirst then (w, .error .cancelled)
      else ({ w with sent := w.sent ++ [part] }, .ok ()) := by
  unfold StreamingWorker.send sendChunk
  cases hfirst : race.cancelledFirst with
  | true => rfl
  | false => simp [hsent]

/-! ## One turn -/

/-- What the worker sent when it returned from this turn. -/
def Terminates (job : Job) (lost : Bool) (parts : List Part) : Prop :=
  if lost then Streaming job parts else WellTerminated job parts

/-- An error that is reported closes the stream. -/
theorem terminates_error {error : ApiError} {completion : Completion}
    (hw : Streaming job w.sent) (hsent : race.sent = .ok ()) :
    Terminates job false ((w.sendError error race).retire job completion).sent := by
  show WellTerminated job (w.sendError error race).sent
  rw [sendError_sent hsent]
  exact hw.terminate rfl

/-- The three ways in which a packet is handled. -/
theorem handlePacket_sent (packet : EnginePacket) (hw : Streaming job w.sent)
    (hsent : race.sent = .ok ()) :
    (∃ c w', w.continuity.accept packet = .ok c ∧ race.cancelledFirst = false ∧
      w.handlePacket job packet race = (w', true) ∧ w'.continuity = c ∧ Streaming job w'.sent) ∨
    (∃ c w', w.continuity.accept packet = .ok c ∧ race.cancelledFirst = true ∧
      w.handlePacket job packet race = (w', false) ∧ Streaming job w'.sent) ∨
    ∃ e w', w.continuity.accept packet = .error e ∧
      w.handlePacket job packet race = (w', false) ∧ WellTerminated job w'.sent := by
  unfold StreamingWorker.handlePacket
  cases haccept : w.continuity.accept packet with
  | error error =>
    exact .inr (.inr ⟨error, _, rfl, rfl, terminates_error hw hsent⟩)
  | ok c =>
    dsimp only
    rw [send_observing hsent]
    cases hfirst : race.cancelledFirst with
    | true => exact .inr (.inl ⟨c, _, rfl, rfl, rfl, hw⟩)
    | false => exact .inl ⟨c, _, rfl, rfl, rfl, rfl, hw.append_audio⟩

/-- The end of the stream closes the response unless the cancellation wins the race for the finish
part. -/
theorem handleEndOfStream_sent {reason : EngineFinishReason} (hw : Streaming job w.sent)
    (hsent : race.sent = .ok ()) :
    Terminates job (w.continuity.finish.isOk && job.retires && race.cancelledFirst)
      (w.handleEndOfStream job reason race).sent := by
  unfold StreamingWorker.handleEndOfStream
  cases hfinish : w.continuity.finish with
  | error error => exact terminates_error hw hsent
  | ok u =>
    -- a refused metrics check sends an error, otherwise the finish part is sent
    cases hretires : job.retires with
    | false =>
      show WellTerminated job (w.sendError _ race).sent
      rw [sendError_sent hsent]
      exact hw.terminate rfl
    | true =>
      dsimp only [Bool.not_true]
      rw [send_observing hsent]
      cases hfirst : race.cancelledFirst with
      | true => exact hw
      | false => exact hw.terminate rfl

/-! ## The run -/

/-- **Run lemma**: a worker that returned sent a terminal part unless it lost a race. -/
theorem run_sent (hw : Streaming job w.sent) (hconnected : ∀ t ∈ turns, t.race.sent = .ok ())
    (hreturned : (StreamingWorker.run job w turns).2 = false) :
    Terminates job (losesRace job w.continuity turns) (StreamingWorker.run job w turns).1.sent := by
  induction turns generalizing w with
  | nil => cases hreturned
  | cons t turns ih =>
    have hsent := hconnected t List.mem_cons_self
    have hrest : ∀ t ∈ turns, t.race.sent = .ok () := fun t ht =>
      hconnected t (List.mem_cons_of_mem _ ht)
    unfold StreamingWorker.run StreamingWorker.turn at hreturned ⊢
    unfold losesRace
    cases hcancelled : t.cancelled with
    | true =>
      -- cancellation seen at the head of the loop
      exact terminates_error hw hsent
    | false =>
      rw [hcancelled] at hreturned
      simp only [Bool.false_eq_true, if_false] at hreturned ⊢
      cases hpoll : t.poll with
      | error error => exact terminates_error hw hsent
      | ok poll =>
        rw [hpoll] at hreturned
        cases poll with
        | wouldBlock => exact ih hw hrest hreturned
        | endOfStream reason => exact handleEndOfStream_sent hw hsent
        | packet packet =>
          simp only at hreturned ⊢
          rcases handlePacket_sent packet hw hsent with
            ⟨c, w', haccept, hfirst, hstep, rfl, hw'⟩ | ⟨c, w', haccept, hfirst, hstep, hw'⟩ |
            ⟨e, w', haccept, hstep, hw'⟩
          · -- the part was sent and the loop goes on
            rw [hstep] at hreturned ⊢
            rw [haccept, hfirst]
            exact ih hw' hrest hreturned
          · -- the race was lost
            rw [hstep, haccept, hfirst]
            exact hw'
          · rw [hstep, haccept]
            exact hw'

/-- A worker returns at the first turn that ends it, if not before. -/
theorem run_returns (hends : ∃ t ∈ turns, t.Ends) :
    (StreamingWorker.run job w turns).2 = false := by
  induction turns generalizing w with
  | nil => simp at hends
  | cons t turns ih =>
    unfold StreamingWorker.run
    generalize hstep : w.turn job t = step
    obtain ⟨w', goes⟩ := step
    cases goes with
    | false => rfl
    | true =>
      obtain ⟨t', hmem, ht'⟩ := hends
      rcases List.mem_cons.mp hmem with rfl | hmem
      · -- a turn that ends the worker does not let the loop go on
        exfalso
        unfold StreamingWorker.turn at hstep
        rcases ht' with hcancelled | ⟨reason, hpoll⟩ | ⟨e, hpoll⟩
        · rw [hcancelled] at hstep
          cases hstep
        · rw [hpoll] at hstep
          split at hstep <;> cases hstep
        · rw [hpoll] at hstep
          split at hstep <;> cases hstep
      · exact ih ⟨t', hmem, ht'⟩

end

/-! ## Every response -/

/-- **A response is well terminated exactly when no send loses the race against cancellation.**
For every engine script, every moment the token fires and every resolution of the race, with a
client that takes each chunk in time; and a worker does return once its turns end it. -/
theorem response_terminated (job : Job) (turns : List Turn)
    (hconnected : ∀ t ∈ turns, t.race.sent = .ok ()) :
    ((∃ t ∈ turns, t.Ends) → (runStreamingWorker job turns).2 = false) ∧
    ((runStreamingWorker job turns).2 = false →
      (WellTerminated job (runStreamingWorker job turns).1.sent ↔
        losesRace job {} turns = false)) := by
  refine ⟨run_returns, fun hreturned => ?_⟩
  have hstart : Streaming job [.start job.requestId job.seed] := ⟨[], rfl⟩
  have hrun := run_sent (w := { sent := [.start job.requestId job.seed] }) hstart hconnected
    hreturned
  unfold Terminates at hrun
  -- the response ends well exactly when no send loses the race
  cases hlost : losesRace job {} turns with
  | true =>
    simp only [hlost, if_true] at hrun
    exact ⟨fun h => absurd h hrun.not_wellTerminated, nofun⟩
  | false =>
    simp only [hlost, Bool.false_eq_true, if_false] at hrun
    exact ⟨fun _ => rfl, fun _ => hrun⟩

set_option maxRecDepth 20000 in
/-- Two packets and the end part. -/
theorem response_terminated_pair :
    WellTerminated sampleJob (runStreamingWorker sampleJob turnsToEnd).1.sent ∧
      (runStreamingWorker sampleJob turnsToEnd).1.sent.length = 4 := by
  have hrun := response_terminated sampleJob turnsToEnd (by simp [turnsToEnd])
  have hends : ∃ t ∈ turnsToEnd, t.Ends :=
    ⟨{ poll := .ok (.endOfStream .stop) }, by simp [turnsToEnd], .inr (.inl ⟨_, rfl⟩)⟩
  exact ⟨(hrun.2 (hrun.1 hends)).mpr (by decide), by decide⟩

/-! ## A response without a terminal part -/

/-- `DELETE` fires the token while the first audio part waits for its slot. -/
def turnsToLoseRace : List Turn :=
  [{ poll := .ok (.packet (framePacket 0 false)), race := { cancelledFirst := true } }]

set_option maxRecDepth 20000 in
/-- The worker returned, the client took every chunk, and the body was never closed. -/
theorem response_not_terminated :
    (∀ t ∈ turnsToLoseRace, t.race.sent = .ok ()) ∧
    (runStreamingWorker sampleJob turnsToLoseRace).2 = false ∧
    ¬ WellTerminated sampleJob (runStreamingWorker sampleJob turnsToLoseRace).1.sent := by
  refine ⟨by simp [turnsToLoseRace], by decide, ?_⟩
  -- the packet is acceptable, but the cancellation wins the race for its send
  have hsent : (runStreamingWorker sampleJob turnsToLoseRace).1.sent = [.start 1 7] := by
    have haccept : (PacketContinuity.accept {} (framePacket 0 false)).isOk = true := by
      decide
    cases h : PacketContinuity.accept {} (framePacket 0 false) with
    | error e =>
      rw [h] at haccept
      cases haccept
    | ok c =>
      simp [runStreamingWorker, turnsToLoseRace, StreamingWorker.run, StreamingWorker.turn,
        StreamingWorker.handlePacket, h, StreamingWorker.send, sendChunk, StreamingWorker.retire,
        sampleJob]
  rw [hsent]
  exact Streaming.not_wellTerminated ⟨[], rfl⟩

end Qwen3Tts.Server
