import Qwen3Tts.Lib.Fallible
import Qwen3Tts.Server.Config
import Qwen3Tts.Server.Response

/-!
# Server — the two audio workers

`StreamingWorker` and `run_buffered_worker` of `server.rs`, with the packet checks they share. A
worker loops over *turns*: what it sees of its cancellation token at the head of the loop, what
the engine answers to `poll`, and how the one send that the turn may make resolves. Time and
the other threads are in the turns only, so a worker is a function of its list of turns; a list
that ends before the worker returns leaves it running.
-/

namespace Qwen3Tts.Server

open Qwen3Tts.Lib Qwen3Tts.Runtime

/-! ## `PacketContinuity` -/

def validatePacket (packet : EnginePacket) : Except EngineError Unit :=
  failIf (packet.sampleRate ≠ Runtime.sampleRate ∨ packet.channels ≠ 1 ∨ packet.codecFrames = 0
      ∨ 4 < packet.codecFrames ∨ packet.sampleCount ≠ packet.codecFrames * samplesPerCodecFrame
      ∨ packet.pcmS16le.length ≠ packet.sampleCount * 2)
    ⟨.internal, "native runtime emitted an invalid audio packet"⟩

structure PacketContinuity where
  nextSequence : Nat := 0
  nextCodecFrame : Nat := 0
  nextSample : Nat := 0
  sawPacket : Bool := false
  sawFinal : Bool := false
  deriving DecidableEq, Repr

namespace PacketContinuity

/-- `accept`; an error leaves the worker, so the counters advanced before an overflow is found
are not kept. -/
def accept (c : PacketContinuity) (packet : EnginePacket) :
    Except EngineError PacketContinuity := do
  validatePacket packet
  failIf (c.sawFinal ∨ packet.sequence ≠ c.nextSequence
      ∨ packet.firstCodecFrame ≠ c.nextCodecFrame ∨ packet.firstSample ≠ c.nextSample)
    ⟨.internal, "native runtime emitted a discontinuous audio packet"⟩
  failIf (2 ^ 64 ≤ c.nextSequence + 1) ⟨.internal, "audio sequence overflowed"⟩
  failIf (2 ^ 64 ≤ c.nextCodecFrame + packet.codecFrames)
    ⟨.internal, "audio frame position overflowed"⟩
  failIf (2 ^ 64 ≤ c.nextSample + packet.sampleCount)
    ⟨.internal, "audio sample position overflowed"⟩
  return {
    nextSequence := c.nextSequence + 1
    nextCodecFrame := c.nextCodecFrame + packet.codecFrames
    nextSample := c.nextSample + packet.sampleCount
    sawPacket := true
    sawFinal := packet.isFinal }

def finish (c : PacketContinuity) : Except EngineError Unit :=
  failIf (!c.sawPacket || !c.sawFinal) ⟨.internal,
    "native runtime reached end-of-stream without a final audio packet"⟩

end PacketContinuity

/-! ## Turns -/

inductive SendChunkError where
  | cancelled | disconnected | timedOut
  deriving DecidableEq, Repr

/-- How a send resolves: whether `cancelled()` completes before it in the `select!`, and what the
`timeout` around `sender.send` returns by itself. -/
structure Race where
  cancelledFirst : Bool := false
  sent : Except SendChunkError Unit := .ok ()

/-- `send_chunk`. -/
def sendChunk (race : Race) (observeCancellation : Bool) : Except SendChunkError Unit :=
  if observeCancellation && race.cancelledFirst then .error .cancelled else race.sent

structure Turn where
  /-- `cancellation.is_cancelled()` at the head of the loop. -/
  cancelled : Bool := false
  poll : Except EngineError EnginePoll
  race : Race := {}

inductive Completion where
  | pending
  | completed (samples : Nat)
  | failed
  | cancelled
  | retirementTimedOut
  deriving DecidableEq, Repr

/-- What a worker is started with. `retires` is what its one call of `wait_retired` returns and
`metrics` what `request.metrics()` returns then. -/
structure Job where
  config : ServerConfig
  requestId : Uuid
  seed : Nat
  retires : Bool
  metrics : EngineMetrics

/-- `mark_retirement`. -/
def Job.markRetirement (job : Job) (completion : Completion) : Completion :=
  if job.retires then completion else .retirementTimedOut

def cancelledError : EngineError := ⟨.cancelled, "request was cancelled"⟩

/-- `error.kind == Cancelled` decides how a failed poll is counted. -/
def EngineError.completion (error : EngineError) : Completion :=
  if error.kind = .cancelled then .cancelled else .failed

/-! ## `StreamingWorker` -/

/-- `sent` are the parts that entered the channel, oldest first. -/
structure StreamingWorker where
  sent : List Part
  sentSamples : Nat := 0
  continuity : PacketContinuity := {}
  completion : Completion := .pending

namespace StreamingWorker

/-- `send`: a part that is not sent is dropped. -/
def send (w : StreamingWorker) (part : Part) (race : Race) (observeCancellation : Bool) :
    StreamingWorker × Except SendChunkError Unit :=
  match sendChunk race observeCancellation with
  | .ok () => ({ w with sent := w.sent ++ [part] }, .ok ())
  | .error e => (w, .error e)

def sendError (w : StreamingWorker) (error : ApiError) (race : Race) : StreamingWorker :=
  (w.send (.error error) race false).1

def retire (w : StreamingWorker) (job : Job) (completion : Completion) : StreamingWorker :=
  { w with completion := job.markRetirement completion }

def handleCancellation (w : StreamingWorker) (job : Job) (race : Race) : StreamingWorker :=
  (w.sendError (.engine cancelledError (some job.requestId)) race).retire job .cancelled

def failNativeOutput (w : StreamingWorker) (job : Job) (error : EngineError) (race : Race) :
    StreamingWorker :=
  (w.sendError (.engine error (some job.requestId)) race).retire job .failed

/-- `handle_packet`, with whether the loop goes on. -/
def handlePacket (w : StreamingWorker) (job : Job) (packet : EnginePacket) (race : Race) :
    StreamingWorker × Bool :=
  match w.continuity.accept packet with
  | .error error => (w.failNativeOutput job error race, false)
  | .ok continuity =>
    let w := { w with continuity := continuity }
    match w.send (.audio packet) race true with
    | (w, .error _) => (w.retire job .cancelled, false)
    | (w, .ok ()) =>
      ({ w with sentSamples := min (w.sentSamples + packet.sampleCount) (2 ^ 64 - 1) }, true)

def handleEndOfStream (w : StreamingWorker) (job : Job) (finishReason : EngineFinishReason)
    (race : Race) : StreamingWorker :=
  match w.continuity.finish with
  | .error error => w.failNativeOutput job error race
  | .ok () =>
    if !job.retires then
      { w.sendError (retirementTimeoutError job.requestId) race with
        completion := .retirementTimedOut }
    else
      match w.send (.finish job.requestId finishReason job.metrics) race true with
      | (w, .error _) => { w with completion := .cancelled }
      | (w, .ok ()) => { w with completion := .completed w.sentSamples }

def handleEngineError (w : StreamingWorker) (job : Job) (error : EngineError) (race : Race) :
    StreamingWorker :=
  (w.sendError (.engine error (some job.requestId)) race).retire job error.completion

/-- One iteration of the loop of `run`, with whether the loop goes on. -/
def turn (w : StreamingWorker) (job : Job) (t : Turn) : StreamingWorker × Bool :=
  if t.cancelled then (w.handleCancellation job t.race, false)
  else match t.poll with
  | .ok .wouldBlock => (w, true)
  | .ok (.packet packet) => w.handlePacket job packet t.race
  | .ok (.endOfStream finishReason) => (w.handleEndOfStream job finishReason t.race, false)
  | .error error => (w.handleEngineError job error t.race, false)

/-- `run`, with whether the worker is still running behind the last turn. -/
def run (job : Job) (w : StreamingWorker) : List Turn → StreamingWorker × Bool
  | [] => (w, true)
  | t :: turns =>
    match w.turn job t with
    | (w, true) => run job w turns
    | (w, false) => (w, false)

end StreamingWorker

/-- `streaming_response` puts the start part into the channel before the worker starts. -/
def runStreamingWorker (job : Job) (turns : List Turn) : StreamingWorker × Bool :=
  StreamingWorker.run job { sent := [.start job.requestId job.seed] } turns

/-! ## `run_buffered_worker` -/

structure BufferedOutput where
  wav : Bytes
  finishReason : EngineFinishReason
  deriving DecidableEq, Repr

def bufferLimitError (requestId : Uuid) : ApiError :=
  ⟨500, "buffer_limit_exceeded", "Buffered audio limit was exceeded",
    "native audio exceeded the validated duration bound", some requestId⟩

def wavEncodingError (detail : String) (requestId : Uuid) : ApiError :=
  ⟨500, "wav_encoding_failed", "WAV encoding failed", detail, some requestId⟩

structure BufferedWorker where
  pcm : Bytes := []
  continuity : PacketContinuity := {}

/-- The completion that the guard records and what the worker returns. -/
abbrev BufferedResult := Completion × Except ApiError BufferedOutput

namespace BufferedWorker

/-- A native failure: the request is cancelled and retired as failed. -/
def failNativeOutput (job : Job) (error : ApiError) : BufferedResult :=
  (job.markRetirement .failed, .error error)

def handleEndOfStream (w : BufferedWorker) (job : Job) (finishReason : EngineFinishReason) :
    BufferedResult :=
  match w.continuity.finish with
  | .error error => failNativeOutput job (.engine error (some job.requestId))
  | .ok () =>
    if !job.retires then (.retirementTimedOut, .error (retirementTimeoutError job.requestId))
    else match encodePcm16Mono w.pcm with
    | .error detail => (.pending, .error (wavEncodingError detail job.requestId))
    | .ok wav => (.completed (w.pcm.length / 2), .ok ⟨wav, finishReason⟩)

/-- One iteration of the loop: the worker goes on or returns. -/
def turn (w : BufferedWorker) (job : Job) (t : Turn) : BufferedWorker ⊕ BufferedResult :=
  if t.cancelled then .inr (job.markRetirement .cancelled,
    .error (.engine cancelledError (some job.requestId)))
  else match t.poll with
  | .ok .wouldBlock => .inl w
  | .ok (.packet packet) =>
    match w.continuity.accept packet with
    | .error error => .inr (failNativeOutput job (.engine error (some job.requestId)))
    | .ok continuity =>
      if job.config.maxBufferedPcmBytes < w.pcm.length + packet.pcmS16le.length then
        .inr (failNativeOutput job (bufferLimitError job.requestId))
      else .inl { pcm := w.pcm ++ packet.pcmS16le, continuity := continuity }
  | .ok (.endOfStream finishReason) => .inr (w.handleEndOfStream job finishReason)
  | .error error => .inr (job.markRetirement error.completion,
      .error (.engine error (some job.requestId)))

/-- The loop; `none` while the worker is still running. -/
def run (job : Job) (w : BufferedWorker) : List Turn → Option BufferedResult
  | [] => none
  | t :: turns =>
    match w.turn job t with
    | .inl w => run job w turns
    | .inr result => some result

end BufferedWorker

def runBufferedWorker (job : Job) (turns : List Turn) : Option BufferedResult :=
  BufferedWorker.run job {} turns

/-! ## A short script -/

/-- A packet of an engine whose packets have one frame. -/
def framePacket (sequence : Nat) (isFinal : Bool) : EnginePacket where
  sequence := sequence
  firstCodecFrame := sequence
  firstSample := sequence * Runtime.samplesPerCodecFrame
  codecFrames := 1
  sampleCount := Runtime.samplesPerCodecFrame
  sampleRate := Runtime.sampleRate
  channels := 1
  isFinal := isFinal
  pcmS16le := List.replicate (Runtime.samplesPerCodecFrame * 2) (UInt8.ofNat sequence)

def sampleJob : Job where
  config := .default
  requestId := 1
  seed := 7
  retires := true
  metrics := {}

/-- Two packets with a wait between them, then the end of the stream. -/
def turnsToEnd : List Turn :=
  [{ poll := .ok (.packet (framePacket 0 false)) }, { poll := .ok .wouldBlock },
    { poll := .ok (.packet (framePacket 1 true)) }, { poll := .ok (.endOfStream .stop) }]

end Qwen3Tts.Server
