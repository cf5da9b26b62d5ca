import Qwen3Tts.Bench.NativeStream

/-!
# Bench — which responses are accepted

The state of `NativeStreamState` behind a list of parts is a function of what the parts declare:
nothing seen, a start event and some packets, or an end event as well (`streaming`, `ended`).
From each of them a part is accepted when it continues the stream, and no part is accepted behind
an end event. A response is accepted exactly when its parts are a complete stream.
-/

namespace Qwen3Tts.Bench

open Qwen3Tts.Lib Qwen3Tts.Lib.Json Qwen3Tts.Server

/-! ## Statement -/

/-- An audio packet as its part declares it. -/
structure AudioPacket where
  sequence : Nat
  firstCodecFrame : Nat
  firstSample : Nat
  sampleCount : Nat
  codecFrames : Nat
  isFinal : Bool
  payload : Bytes
  arrival : Nat

/-- A counter of the client. -/
def counter (n : Nat) : Nat := n % 2 ^ 64

/-- The samples of some packets, their frames and their bytes. -/
def packetSamples (packets : List AudioPacket) : Nat := (packets.map (·.sampleCount)).sum

def packetFrames (packets : List AudioPacket) : Nat := (packets.map (·.codecFrames)).sum

def packetAudio (packets : List AudioPacket) : Bytes := packets.flatMap (·.payload)

/-- A part that holds an event. -/
structure IsEventPart (json : JsonReader) (part : Part) (event : JsonEvent) : Prop where
  contentType : ∃ value, part.header "content-type".toList = some value ∧
    mediaTypeIs value "application/json" = true
  event : json.fromSlice part.payload = some event

/-- A part that holds a packet of audio. -/
structure IsAudioPart (part : Part) (packet : AudioPacket) : Prop where
  contentType : ∃ value, part.header "content-type".toList = some value ∧
    mediaTypeIs value "audio/pcm" = true ∧ validateNativeAudioContentType value = .ok ()
  arrival : part.firstPayloadAt = some packet.arrival
  sequence : partU64 part "x-sequence" = .ok packet.sequence
  firstCodecFrame : partU64 part "x-first-codec-frame" = .ok packet.firstCodecFrame
  firstSample : partU64 part "x-first-sample" = .ok packet.firstSample
  sampleCount : partU64 part "x-sample-count" = .ok packet.sampleCount
  codecFrames : partU64 part "x-codec-frames" = .ok packet.codecFrames
  isFinal : partBool part "x-final" = .ok packet.isFinal
  payload : part.payload = packet.payload

/-- The event that opens a stream. -/
structure IsStart (requestId : Text) (event : JsonEvent) : Prop where
  type : event.eventType = "start"
  requestId : ∃ id, event.requestId = some id ∧ id.toList = requestId
  audio : event.audio = some ⟨"pcm_s16le", 24000, 1, 1920⟩

/-- The packet continues a stream of which `before` have arrived, none of them the final one. -/
structure IsNext (before : List AudioPacket) (packet : AudioPacket) : Prop where
  open_ : ∀ p ∈ before.getLast?, p.isFinal = false
  sequence : packet.sequence = counter before.length
  firstCodecFrame : packet.firstCodecFrame = counter (packetFrames before)
  firstSample : packet.firstSample = counter (packetSamples before)
  sampleCount : 0 < packet.sampleCount
  codecFrames : 0 < packet.codecFrames
  payload : packet.sampleCount * 2 = packet.payload.length
  bound : packet.sampleCount * 2 < 2 ^ 64

/-- The event ends a stream of these packets. -/
structure IsEnd (numbers : Numbers) (requestId : Text) (packets : List AudioPacket)
    (event : JsonEvent) : Prop where
  type : event.eventType = "end"
  requestId : ∃ id, event.requestId = some id ∧ id.toList = requestId
  some_packet : 0 < counter packets.length
  finishReason : event.finishReason = some "stop" ∨ event.finishReason = some "length"
  metrics : ∃ members, event.metrics = some (.object members) ∧
    (valueMember members "emitted_packets").bind (readNumber numbers.u64)
      = some (counter packets.length) ∧
    (valueMember members "emitted_samples").bind (readNumber numbers.u64)
      = some (counter (packetSamples packets))

/-- Behind `before`, each of the packets continues what is in front of it. -/
def Follow (before packets : List AudioPacket) : Prop :=
  ∀ front packet after, packets = front ++ packet :: after → IsNext (before ++ front) packet

/-- A start event, the packets of which the last one is final, and an end event. -/
structure IsComplete (json : JsonReader) (requestId : Text) (parts : List Part)
    (packets : List AudioPacket) (finish : JsonEvent) : Prop where
  parts : ∃ first audio last start, parts = first :: (audio ++ [last]) ∧
    IsEventPart json first start ∧ IsStart requestId start ∧
    List.Forall₂ IsAudioPart audio packets ∧ IsEventPart json last finish
  contiguous : Follow [] packets
  final : ∃ packet ∈ packets.getLast?, packet.isFinal = true
  finish : IsEnd json.numbers requestId packets finish
  reportable : counter (packetSamples packets) < 2 ^ 32

/-- The record of a packet behind `before`. -/
def recordOf (t0 : Nat) (before : List AudioPacket) (packet : AudioPacket) : PacketRecord where
  sequence := packet.sequence
  arrival := packet.arrival - t0
  interArrival := before.getLast?.map fun previous => packet.arrival - previous.arrival
  payloadBytes := packet.payload.length
  payload := packet.payload
  byteOffset := counter (packetAudio before).length
  firstCodecFrame := packet.firstCodecFrame
  firstSample := packet.firstSample
  sampleCount := packet.sampleCount
  codecFrames := packet.codecFrames
  isFirst := packet.sequence = 0
  isFinal := packet.isFinal

/-- The records of some packets, behind others. -/
def recordsFrom (t0 : Nat) (before : List AudioPacket) : List AudioPacket → List PacketRecord
  | [] => []
  | packet :: packets => recordOf t0 before packet :: recordsFrom t0 (before ++ [packet]) packets

/-- What the client records of a complete stream. -/
def recorded (t0 : Nat) (packets : List AudioPacket) (finish : JsonEvent) : Outcome where
  samples := counter (packetSamples packets)
  audio := packetAudio packets
  firstAudio := (packets.head?.map (·.arrival)).getD 0 - t0
  packetCount := counter packets.length
  finishReason := finish.finishReason.getD ""
  naturalEos := finish.finishReason = some "stop"
  lengthLimited := finish.finishReason = some "length"
  endMetrics := finish.metrics
  packets := recordsFrom t0 [] packets

/-- The checks on a list of parts. -/
def acceptParts (json : JsonReader) (t0 : Nat) (requestId : Text) (parts : List Part) :
    Except StreamError Outcome :=
  parts.foldlM (handlePart json t0) (.start requestId) >>= Progress.finish t0

/-! ## Checks -/

section
variable {numbers : Numbers} {u : Unit}

/-- The event names the request of the response header. -/
theorem validateEventRequestId_eq_ok {header : Text} {event : Option String} :
    validateEventRequestId header event = .ok u ↔ ∃ id, event = some id ∧ id.toList = header := by
  cases event with
  | none =>
    constructor
    · intro h
      cases h
    · rintro ⟨id, hid, -⟩
      cases hid
  | some event =>
    unfold validateEventRequestId
    rw [failIf_eq_ok, not_not]
    constructor
    · intro h
      exact ⟨event, rfl, h.symm⟩
    · rintro ⟨id, hid, h⟩
      cases hid
      exact h.symm

/-- Nothing but the one format is accepted. -/
theorem validateStartAudio_eq_ok {audio : Option JsonAudioDescription} :
    validateStartAudio audio = .ok u ↔ audio = some ⟨"pcm_s16le", 24000, 1, 1920⟩ := by
  cases audio with
  | none =>
    constructor
    · intro h
      cases h
    · intro h
      cases h
  | some audio =>
    unfold validateStartAudio Runtime.sampleRate
    rw [failIf_eq_ok, Option.some_inj]
    simp only [not_or, not_not]
    constructor
    · rintro ⟨hencoding, hrate, hchannels, hframe⟩
      rw [← hencoding, ← hrate, ← hchannels, ← hframe]
    · rintro rfl
      exact ⟨rfl, rfl, rfl, rfl⟩

/-- There are two reasons a stream can end with. -/
theorem validateNativeFinishReason_eq_ok {reason : String} :
    validateNativeFinishReason reason = .ok u ↔ reason = "stop" ∨ reason = "length" := by
  unfold validateNativeFinishReason
  rw [failIf_eq_ok, not_and_or, not_not, not_not]

/-- The counts at the end are those of the packets and samples. -/
theorem validateEndMetrics_eq_ok {metrics : Option Document} {packets samples : Nat} :
    validateEndMetrics numbers metrics packets samples = .ok u ↔
      ∃ members, metrics = some (.object members) ∧
        (valueMember members "emitted_packets").bind (readNumber numbers.u64) = some packets ∧
        (valueMember members "emitted_samples").bind (readNumber numbers.u64) = some samples := by
  constructor
  · intro h
    unfold validateEndMetrics at h
    split at h
    · rename_i members
      rw [failIf_eq_ok, not_or, not_not, not_not] at h
      exact ⟨members, rfl, h⟩
    · cases h
  · rintro ⟨members, rfl, h⟩
    unfold validateEndMetrics
    rw [failIf_eq_ok, not_or, not_not, not_not]
    exact h

/-- No media type is both of an event and of audio. -/
theorem not_json_of_audio {value : Text} (h : mediaTypeIs value "audio/pcm" = true) :
    mediaTypeIs value "application/json" = false := by
  have hne : lowercase "audio/pcm".toList ≠ lowercase "application/json".toList := by decide
  unfold mediaTypeIs at h ⊢
  rw [of_decide_eq_true h]
  exact decide_eq_false hne

/-- A part is an event or audio, and what is done with it is what its kind says. -/
theorem handlePart_eq_ok {json : JsonReader} {t0 : Nat} {p p' : Progress} {part : Part} :
    handlePart json t0 p part = .ok p' ↔
      (∃ event state, IsEventPart json part event ∧
        p.state.handleJsonEvent json.numbers event = .ok state ∧ p' = { p with state }) ∨
      (∃ value record state, part.header "content-type".toList = some value ∧
        mediaTypeIs value "audio/pcm" = true ∧ validateNativeAudioContentType value = .ok () ∧
        p.state.handleAudioPart t0 part = .ok (record, state) ∧
        p' = ⟨p.packets ++ [record], state⟩) := by
  constructor
  · intro h
    unfold handlePart at h
    -- the media type decides which
    cases hvalue : part.header "content-type".toList with
    | none =>
      rw [hvalue] at h
      cases h
    | some value =>
      rw [hvalue] at h
      dsimp only at h
      split at h
      · rename_i hjson
        cases hevent : json.fromSlice part.payload with
        | none =>
          rw [hevent] at h
          cases h
        | some event =>
          rw [hevent] at h
          obtain ⟨state, hstate, h⟩ := bind_eq_ok.mp h
          exact .inl ⟨event, state, ⟨⟨value, hvalue, hjson⟩, hevent⟩, hstate,
            (pure_eq_ok.mp h).symm⟩
      · split at h
        · rename_i haudio
          obtain ⟨_, hvalid, h⟩ := bind_eq_ok.mp h
          obtain ⟨⟨record, state⟩, hstate, h⟩ := bind_eq_ok.mp h
          exact .inr ⟨value, record, state, rfl, haudio, hvalid, hstate, (pure_eq_ok.mp h).symm⟩
        · cases h
  · rintro (⟨event, state, ⟨⟨value, hvalue, hjson⟩, hevent⟩, hstate, rfl⟩ |
      ⟨value, record, state, hvalue, haudio, hvalid, hstate, rfl⟩)
    · unfold handlePart
      rw [hvalue]
      dsimp only
      rw [if_pos hjson, hevent]
      dsimp only
      rw [hstate]
      rfl
    · unfold handlePart
      rw [hvalue]
      dsimp only
      rw [if_neg (by rw [not_json_of_audio haudio]; exact Bool.false_ne_true), if_pos haudio,
        hvalid, ok_bind, hstate]
      rfl

theorem handleJsonEvent_eq_ok {s s' : NativeStreamState} {event : JsonEvent} :
    s.handleJsonEvent numbers event = .ok s' ↔
      (∃ id, event.requestId = some id ∧ id.toList = s.serverRequestId) ∧
      (((event.eventType = "start" ∧ s.startSeen = false ∧ s.expectedSequence = 0 ∧
          s.endSeen = false) ∧
        event.audio = some ⟨"pcm_s16le", 24000, 1, 1920⟩ ∧ s' = { s with startSeen := true }) ∨
      ((event.eventType = "end" ∧ s.startSeen = true ∧ 0 < s.expectedSequence ∧
          s.endSeen = false) ∧
        (event.finishReason = some "stop" ∨ event.finishReason = some "length") ∧
        (∃ members, event.metrics = some (.object members) ∧
          (valueMember members "emitted_packets").bind (readNumber numbers.u64)
            = some s.expectedSequence ∧
          (valueMember members "emitted_samples").bind (readNumber numbers.u64)
            = some s.expectedSample) ∧
        s' = { s with
          finishReason := event.finishReason
          endMetrics := event.metrics
          endSeen := true })) := by
  constructor
  · intro h
    unfold NativeStreamState.handleJsonEvent at h
    obtain ⟨_, hid, h⟩ := bind_eq_ok.mp h
    refine ⟨validateEventRequestId_eq_ok.mp hid, ?_⟩
    split at h
    · rename_i hstart
      obtain ⟨_, haudio, h⟩ := bind_eq_ok.mp h
      exact .inl ⟨hstart, validateStartAudio_eq_ok.mp haudio, (pure_eq_ok.mp h).symm⟩
    · split at h
      · rename_i hend
        cases hreason : event.finishReason with
        | none =>
          rw [hreason] at h
          cases h
        | some reason =>
          rw [hreason] at h
          obtain ⟨_, hvalid, h⟩ := bind_eq_ok.mp h
          obtain ⟨_, hmetrics, h⟩ := bind_eq_ok.mp h
          rw [Option.some_inj, Option.some_inj]
          exact .inr ⟨hend, validateNativeFinishReason_eq_ok.mp hvalid,
            validateEndMetrics_eq_ok.mp hmetrics, (pure_eq_ok.mp h).symm⟩
      · cases h
  · rintro ⟨hid, h⟩
    unfold NativeStreamState.handleJsonEvent
    rw [validateEventRequestId_eq_ok (u := ⟨⟩) |>.mpr hid, ok_bind]
    rcases h with ⟨hstart, haudio, rfl⟩ | ⟨hend, hreason, hmetrics, rfl⟩
    · rw [if_pos hstart, validateStartAudio_eq_ok (u := ⟨⟩) |>.mpr haudio]
      rfl
    · have hnot : event.eventType ≠ "start" := by
        rw [hend.1]
        decide
      rw [if_neg (fun h => hnot h.1), if_pos hend]
      -- the end event needs a reason before the reason is looked at
      have hsome : ∃ reason, event.finishReason = some reason ∧
          (reason = "stop" ∨ reason = "length") := by
        rcases hreason with h | h
        · exact ⟨_, h, .inl rfl⟩
        · exact ⟨_, h, .inr rfl⟩
      obtain ⟨reason, hreason, hvalid⟩ := hsome
      rw [hreason]
      dsimp only
      rw [validateNativeFinishReason_eq_ok (u := ⟨⟩) |>.mpr hvalid, ok_bind,
        validateEndMetrics_eq_ok (u := ⟨⟩) |>.mpr hmetrics]
      rfl

theorem handleAudioPart_eq_ok {t0 : Nat} {s s' : NativeStreamState} {part : Part}
    {record : PacketRecord} :
    s.handleAudioPart t0 part = .ok (record, s') ↔
      (s.startSeen = true ∧ s.endSeen = false ∧ s.finalSeen = false) ∧
      ∃ arrival sequence frame sample samples frames final,
        part.firstPayloadAt = some arrival ∧
        partU64 part "x-sequence" = .ok sequence ∧
        partU64 part "x-first-codec-frame" = .ok frame ∧
        partU64 part "x-first-sample" = .ok sample ∧
        partU64 part "x-sample-count" = .ok samples ∧
        partU64 part "x-codec-frames" = .ok frames ∧
        partBool part "x-final" = .ok final ∧
        (sequence = s.expectedSequence ∧ sample = s.expectedSample ∧
          frame = s.expectedCodecFrame ∧ samples ≠ 0 ∧ frames ≠ 0 ∧ samples * 2 < 2 ^ 64 ∧
          samples * 2 = part.payload.length) ∧
        record = ⟨sequence, arrival - t0, s.previousAudioAt.map fun previous => arrival - previous,
          part.payload.length, part.payload, s.byteOffset, frame, sample, samples, frames,
          sequence = 0, final⟩ ∧
        s' = { s with
          firstAudioAt := s.firstAudioAt <|> some arrival
          audioHasher := s.audioHasher ++ part.payload
          expectedSequence := wrappingAdd s.expectedSequence 1
          expectedSample := wrappingAdd s.expectedSample samples
          expectedCodecFrame := wrappingAdd s.expectedCodecFrame frames
          byteOffset := wrappingAdd s.byteOffset part.payload.length
          previousAudioAt := some arrival
          finalSeen := final } := by
  unfold NativeStreamState.handleAudioPart
  cases harrival : part.firstPayloadAt with
  | none =>
    constructor
    · intro h
      obtain ⟨_, -, h⟩ := bind_eq_ok.mp h
      cases h
    · rintro ⟨-, arrival, -, -, -, -, -, -, h, -⟩
      cases h
  | some arrival =>
    -- every header is read before any of them is checked
    simp only [bind_eq_ok, pure_eq_ok, failIf_eq_ok, not_or, not_not, Bool.not_eq_true,
      Bool.not_eq_false, Nat.not_le, ne_eq, Prod.mk.injEq, Option.some_inj]
    constructor
    · rintro ⟨_, hopen, sequence, hsequence, frame, hframe, sample, hsample, samples, hsamples,
        frames, hframes, final, hfinal, _, hchecks, hrecord, hstate⟩
      exact ⟨hopen, arrival, sequence, frame, sample, samples, frames, final, rfl, hsequence,
        hframe, hsample, hsamples, hframes, hfinal, hchecks, hrecord.symm, hstate.symm⟩
    · rintro ⟨hopen, arrival', sequence, frame, sample, samples, frames, final, rfl, hsequence,
        hframe, hsample, hsamples, hframes, hfinal, hchecks, hrecord, hstate⟩
      exact ⟨⟨⟩, hopen, sequence, hsequence, frame, hframe, sample, hsample, samples, hsamples,
        frames, hframes, final, hfinal, ⟨⟩, hchecks, hrecord.symm, hstate.symm⟩

end

/-! ## The state behind some parts -/

/-- A counter wraps; so does the sum it stands for. -/
theorem wrappingAdd_counter (a b : Nat) : wrappingAdd (counter a) b = counter (a + b) := by
  unfold wrappingAdd counter
  omega

/-- One more packet. -/
theorem recordsFrom_append {t0 : Nat} (before packets : List AudioPacket) (packet : AudioPacket) :
    recordsFrom t0 before (packets ++ [packet])
      = recordsFrom t0 before packets ++ [recordOf t0 (before ++ packets) packet] := by
  induction packets generalizing before with
  | nil =>
    rw [List.append_nil]
    rfl
  | cons first packets ih =>
    rw [List.cons_append, recordsFrom, ih, recordsFrom, List.append_assoc]
    rfl

/-- Behind a start event and some packets. -/
def streaming (requestId : Text) (t0 : Nat) (packets : List AudioPacket) : Progress where
  packets := recordsFrom t0 [] packets
  state := {
    serverRequestId := requestId
    expectedSequence := counter packets.length
    expectedSample := counter (packetSamples packets)
    expectedCodecFrame := counter (packetFrames packets)
    byteOffset := counter (packetAudio packets).length
    firstAudioAt := packets.head?.map (·.arrival)
    previousAudioAt := packets.getLast?.map (·.arrival)
    startSeen := true
    finalSeen := packets.getLast?.any (·.isFinal)
    audioHasher := packetAudio packets }

/-- Behind an end event as well. -/
def ended (requestId : Text) (t0 : Nat) (packets : List AudioPacket) (finish : JsonEvent) :
    Progress where
  packets := recordsFrom t0 [] packets
  state := { (streaming requestId t0 packets).state with
    finishReason := finish.finishReason
    endMetrics := finish.metrics
    endSeen := true }

section
variable {json : JsonReader} {t0 : Nat} {requestId : Text} {part : Part} {p : Progress}
  {packets : List AudioPacket} {packet : AudioPacket} {finish : JsonEvent}

/-- The three sums with one more packet. -/
theorem packetSamples_append : packetSamples (packets ++ [packet])
    = packetSamples packets + packet.sampleCount := by
  simp [packetSamples]

theorem packetFrames_append : packetFrames (packets ++ [packet])
    = packetFrames packets + packet.codecFrames := by
  simp [packetFrames]

theorem packetAudio_append : packetAudio (packets ++ [packet])
    = packetAudio packets ++ packet.payload := by
  simp [packetAudio]

/-- One more packet. -/
theorem streaming_append : streaming requestId t0 (packets ++ [packet])
    = ⟨(streaming requestId t0 packets).packets ++ [recordOf t0 packets packet],
      { (streaming requestId t0 packets).state with
        firstAudioAt := (streaming requestId t0 packets).state.firstAudioAt <|> some packet.arrival
        audioHasher := (streaming requestId t0 packets).state.audioHasher ++ packet.payload
        expectedSequence :=
          wrappingAdd (streaming requestId t0 packets).state.expectedSequence 1
        expectedSample :=
          wrappingAdd (streaming requestId t0 packets).state.expectedSample packet.sampleCount
        expectedCodecFrame :=
          wrappingAdd (streaming requestId t0 packets).state.expectedCodecFrame packet.codecFrames
        byteOffset :=
          wrappingAdd (streaming requestId t0 packets).state.byteOffset packet.payload.length
        previousAudioAt := some packet.arrival
        finalSeen := packet.isFinal }⟩ := by
  have hfirst : (packets ++ [packet]).head?.map (·.arrival)
      = (packets.head?.map (·.arrival) <|> some packet.arrival) := by
    cases packets <;> rfl
  unfold streaming
  simp only [wrappingAdd_counter, recordsFrom_append, List.nil_append, hfirst,
    List.length_append, packetSamples_append, packetFrames_append, packetAudio_append,
    List.getLast?_concat, Option.map_some, Option.any_some, List.length_singleton]

/-- The stream is open as long as the last packet was not the final one. -/
theorem open_iff : (packets.getLast?.any (·.isFinal)) = false ↔
    ∀ p ∈ packets.getLast?, p.isFinal = false := by
  cases packets.getLast? with
  | none => simp
  | some p => simp

/-- In front of the start event only that event is accepted. -/
theorem handlePart_start : handlePart json t0 (.start requestId) part = .ok p ↔
    ∃ event, IsEventPart json part event ∧ IsStart requestId event ∧
      p = streaming requestId t0 [] := by
  rw [handlePart_eq_ok]
  constructor
  · rintro (⟨event, state, hevent, hstate, rfl⟩ | ⟨_, _, _, -, -, -, hstate, -⟩)
    · obtain ⟨hid, ⟨hstart, haudio, rfl⟩ | ⟨hend, -⟩⟩ := handleJsonEvent_eq_ok.mp hstate
      · exact ⟨event, hevent, ⟨hstart.1, hid, haudio⟩, rfl⟩
      · cases hend.2.1
    · obtain ⟨⟨hstart, -⟩, -⟩ := handleAudioPart_eq_ok.mp hstate
      cases hstart
  · rintro ⟨event, hevent, hstart, rfl⟩
    exact .inl ⟨event, _, hevent, handleJsonEvent_eq_ok.mpr ⟨hstart.requestId,
      .inl ⟨⟨hstart.type, rfl, rfl, rfl⟩, hstart.audio, rfl⟩⟩, rfl⟩

/-- Behind some packets the next one is accepted, or the event that ends them. -/
theorem handlePart_streaming : handlePart json t0 (streaming requestId t0 packets) part = .ok p ↔
    (∃ packet, IsAudioPart part packet ∧ IsNext packets packet ∧
      p = streaming requestId t0 (packets ++ [packet])) ∨
    ∃ finish, IsEventPart json part finish ∧ IsEnd json.numbers requestId packets finish ∧
      p = ended requestId t0 packets finish := by
  rw [handlePart_eq_ok]
  constructor
  · rintro (⟨event, state, hevent, hstate, rfl⟩ |
      ⟨value, record, state, hvalue, haudio, hvalid, hstate, rfl⟩)
    · obtain ⟨hid, ⟨hstart, -⟩ | ⟨hend, hreason, hmetrics, rfl⟩⟩ := handleJsonEvent_eq_ok.mp hstate
      -- a second start event is refused
      · cases hstart.2.1
      · exact .inr ⟨event, hevent, ⟨hend.1, hid, hend.2.2.1, hreason, hmetrics⟩, rfl⟩
    · obtain ⟨⟨-, -, hopen⟩, arrival, sequence, frame, sample, samples, frames, final, harrival,
        hsequence, hframe, hsample, hsamples, hframes, hfinal, hchecks, rfl, rfl⟩ :=
        handleAudioPart_eq_ok.mp hstate
      obtain ⟨hseq, hfirst, hfirstFrame, hsome, hsomeFrames, hbound, hlength⟩ := hchecks
      refine .inl ⟨⟨sequence, frame, sample, samples, frames, final, part.payload, arrival⟩,
        ⟨⟨value, hvalue, haudio, hvalid⟩, harrival, hsequence, hframe, hsample, hsamples, hframes,
          hfinal, rfl⟩,
        ⟨open_iff.mp hopen, hseq, hfirstFrame, hfirst, Nat.pos_of_ne_zero hsome,
          Nat.pos_of_ne_zero hsomeFrames, hlength, hbound⟩, ?_⟩
      rw [streaming_append]
      unfold streaming recordOf
      simp only [Option.map_map]
      rfl
  · rintro (⟨packet, hpart, hnext, rfl⟩ | ⟨event, hevent, hend, rfl⟩)
    · obtain ⟨value, hvalue, haudio, hvalid⟩ := hpart.contentType
      have hlength : packet.sampleCount * 2 = part.payload.length := by
        rw [hpart.payload]
        exact hnext.payload
      refine .inr ⟨value, recordOf t0 packets packet, _, hvalue, haudio, hvalid,
        handleAudioPart_eq_ok.mpr ⟨⟨rfl, rfl, open_iff.mpr hnext.open_⟩, _, _, _, _, _, _, _,
          hpart.arrival, hpart.sequence, hpart.firstCodecFrame, hpart.firstSample,
          hpart.sampleCount, hpart.codecFrames, hpart.isFinal,
          ⟨hnext.sequence, hnext.firstSample, hnext.firstCodecFrame, hnext.sampleCount.ne',
            hnext.codecFrames.ne', hnext.bound, hlength⟩, ?_, rfl⟩, ?_⟩
      · rw [hpart.payload]
        unfold recordOf streaming
        simp only [Option.map_map]
        rfl
      · rw [streaming_append, hpart.payload]
    · exact .inl ⟨event, _, hevent, handleJsonEvent_eq_ok.mpr ⟨hend.requestId,
        .inr ⟨⟨hend.type, rfl, hend.some_packet, rfl⟩, hend.finishReason, hend.metrics, rfl⟩⟩, rfl⟩

/-- Behind an end event nothing is accepted. -/
theorem handlePart_ended : handlePart json t0 (ended requestId t0 packets finish) part ≠ .ok p := by
  intro h
  rcases handlePart_eq_ok.mp h with ⟨event, state, -, hstate, -⟩ | ⟨_, _, _, -, -, -, hstate, -⟩
  · obtain ⟨-, ⟨hstart, -⟩ | ⟨hend, -⟩⟩ := handleJsonEvent_eq_ok.mp hstate
    · cases hstart.2.1
    · cases hend.2.2.2
  · obtain ⟨⟨-, hopen, -⟩, -⟩ := handleAudioPart_eq_ok.mp hstate
    cases hopen

/-! ## A run over the parts -/

/-- No packet. -/
theorem follow_nil {before : List AudioPacket} : Follow before [] := by
  intro front packet after h
  cases front <;> cases h

/-- Each packet follows those before it. -/
theorem follow_cons {before : List AudioPacket} :
    Follow before (packet :: packets) ↔
      IsNext before packet ∧ Follow (before ++ [packet]) packets := by
  constructor
  · intro h
    refine ⟨?_, fun front p after heq => ?_⟩
    · rw [← List.append_nil before]
      exact h [] packet packets rfl
    · rw [List.append_assoc]
      exact h (packet :: front) p after (by rw [heq]; rfl)
  · rintro ⟨hfirst, hrest⟩ front p after heq
    cases front with
    | nil =>
      obtain ⟨rfl, -⟩ := List.cons.inj heq
      rwa [List.append_nil]
    | cons first front =>
      obtain ⟨rfl, htail⟩ := List.cons.inj heq
      have hnext := hrest front p after htail
      rwa [List.append_assoc] at hnext

/-- Behind some packets the parts are packets that follow, up to an end event. -/
theorem foldlM_streaming {parts : List Part} :
    parts.foldlM (handlePart json t0) (streaming requestId t0 packets) = .ok p ↔
      (∃ more, List.Forall₂ IsAudioPart parts more ∧ Follow packets more ∧
        p = streaming requestId t0 (packets ++ more)) ∨
      ∃ audio last more finish, parts = audio ++ [last] ∧ List.Forall₂ IsAudioPart audio more ∧
        Follow packets more ∧ IsEventPart json last finish ∧
        IsEnd json.numbers requestId (packets ++ more) finish ∧
        p = ended requestId t0 (packets ++ more) finish := by
  induction parts generalizing packets with
  | nil =>
    constructor
    · intro h
      refine .inl ⟨[], List.Forall₂.nil, follow_nil, ?_⟩
      rw [List.append_nil]
      exact (pure_eq_ok.mp h).symm
    · rintro (⟨more, hmore, -, rfl⟩ | ⟨audio, last, _, _, hparts, -⟩)
      · cases hmore
        rw [List.append_nil]
        rfl
      · cases audio <;> cases hparts
  | cons part parts ih =>
    rw [List.foldlM_cons, bind_eq_ok]
    constructor
    · rintro ⟨p', hpart, h⟩
      rcases handlePart_streaming.mp hpart with
        ⟨packet, hpacket, hnext, rfl⟩ | ⟨finish, hevent, hend, rfl⟩
      · rcases ih.mp h with ⟨more, hmore, hfollow, rfl⟩ |
          ⟨audio, last, more, finish, rfl, hmore, hfollow, hevent, hend, rfl⟩
        · exact .inl ⟨packet :: more, .cons hpacket hmore, follow_cons.mpr ⟨hnext, hfollow⟩,
            by rw [List.append_assoc]; rfl⟩
        · rw [List.append_assoc] at hend
          exact .inr ⟨part :: audio, last, packet :: more, finish, rfl, .cons hpacket hmore,
            follow_cons.mpr ⟨hnext, hfollow⟩, hevent, hend, by rw [List.append_assoc]; rfl⟩
      · cases parts with
        | nil =>
          refine .inr ⟨[], part, [], finish, rfl, .nil, follow_nil, hevent, ?_, ?_⟩
          · rwa [List.append_nil]
          · rw [List.append_nil]
            exact (pure_eq_ok.mp h).symm
        | cons next parts =>
          rw [List.foldlM_cons, bind_eq_ok] at h
          -- nothing may stand behind the end event
          obtain ⟨_, hnext, -⟩ := h
          exact absurd hnext handlePart_ended
    · rintro (⟨more, hmore, hfollow, rfl⟩ |
        ⟨audio, last, more, finish, hparts, hmore, hfollow, hevent, hend, rfl⟩)
      · cases hmore with
        | cons hpacket hmore =>
          obtain ⟨hnext, hfollow⟩ := follow_cons.mp hfollow
          refine ⟨_, handlePart_streaming.mpr (.inl ⟨_, hpacket, hnext, rfl⟩),
            ih.mpr (.inl ⟨_, hmore, hfollow, ?_⟩)⟩
          rw [List.append_assoc]
          rfl
      · cases hmore with
        | nil =>
          rw [List.append_nil] at hend ⊢
          cases hparts
          exact ⟨_, handlePart_streaming.mpr (.inr ⟨_, hevent, hend, rfl⟩), rfl⟩
        | cons hpacket hmore =>
          cases hparts
          obtain ⟨hnext, hfollow⟩ := follow_cons.mp hfollow
          refine ⟨_, handlePart_streaming.mpr (.inl ⟨_, hpacket, hnext, rfl⟩),
            ih.mpr (.inr ⟨_, _, _, finish, rfl, hmore, hfollow, hevent, ?_, ?_⟩)⟩
          · rwa [List.append_assoc]
          · rw [List.append_assoc]
            rfl

/-- The parts of an unfinished stream have no outcome. -/
theorem finish_streaming {outcome : Outcome} :
    (streaming requestId t0 packets).finish t0 ≠ .ok outcome := by
  intro h
  obtain ⟨_, hcomplete, -⟩ := bind_eq_ok.mp h
  have hopen := failIf_eq_ok.mp hcomplete
  exact hopen (.inr (.inl rfl))

/-- The end of a stream is accepted when the last packet was the final one and its samples can be
counted. -/
theorem finish_ended {numbers : Numbers} {outcome : Outcome}
    (hend : IsEnd numbers requestId packets finish) :
    (ended requestId t0 packets finish).finish t0 = .ok outcome ↔
      (∃ packet ∈ packets.getLast?, packet.isFinal = true) ∧
      counter (packetSamples packets) < 2 ^ 32 ∧ outcome = recorded t0 packets finish := by
  obtain ⟨reason, hreason⟩ : ∃ reason, finish.finishReason = some reason := by
    rcases hend.finishReason with h | h
    · exact ⟨_, h⟩
    · exact ⟨_, h⟩
  have hfinal : (packets.getLast?.any (·.isFinal)) = true ↔
      ∃ packet ∈ packets.getLast?, packet.isFinal = true := by
    cases packets.getLast? with
    | none => simp
    | some p => simp
  -- an end without packets was refused before
  cases packets with
  | nil => cases hend.some_packet
  | cons packet packets =>
    unfold Progress.finish NativeStreamState.validateComplete
    rw [bind_eq_ok]
    simp only [failIf_eq_ok, not_or]
    rw [← hfinal]
    unfold ended streaming reportable
    simp only [hreason, List.head?_cons, Option.map_some, bind_eq_ok, failIf_eq_ok, Nat.not_le,
      pure_eq_ok]
    constructor
    · rintro ⟨_, ⟨-, -, hlast, -⟩, _, hreportable, rfl⟩
      refine ⟨by simpa using hlast, hreportable, ?_⟩
      unfold recorded
      simp [hreason]
    · rintro ⟨hlast, hreportable, rfl⟩
      refine ⟨⟨⟩, ⟨by simp, by simp, by simpa using hlast, by simp⟩, ⟨⟩, hreportable, ?_⟩
      unfold recorded
      simp [hreason]

/-- **A list of parts** is accepted exactly when it is a complete stream. -/
theorem acceptParts_eq_ok {parts : List Part} {outcome : Outcome} :
    acceptParts json t0 requestId parts = .ok outcome ↔
      ∃ packets finish, IsComplete json requestId parts packets finish ∧
        outcome = recorded t0 packets finish := by
  unfold acceptParts
  rw [bind_eq_ok]
  constructor
  · rintro ⟨p, hfold, hfinish⟩
    cases parts with
    | nil =>
      cases pure_eq_ok.mp hfold
      obtain ⟨_, hcomplete, -⟩ := bind_eq_ok.mp hfinish
      exact absurd (.inl rfl) (failIf_eq_ok.mp hcomplete)
    | cons first parts =>
      rw [List.foldlM_cons, bind_eq_ok] at hfold
      obtain ⟨_, hfirst, hrest⟩ := hfold
      -- the first part opens the stream, the last one closes it
      obtain ⟨start, hevent, hstart, rfl⟩ := handlePart_start.mp hfirst
      rcases foldlM_streaming.mp hrest with ⟨more, -, -, rfl⟩ |
        ⟨audio, last, more, finish, rfl, hmore, hfollow, hlast, hend, rfl⟩
      · exact absurd hfinish finish_streaming
      · rw [List.nil_append] at hend hfinish
        obtain ⟨hfinal, hreportable, rfl⟩ := (finish_ended hend).mp hfinish
        exact ⟨more, finish, ⟨⟨first, audio, last, start, rfl, hevent, hstart, hmore, hlast⟩,
          hfollow, hfinal, hend, hreportable⟩, rfl⟩
  · rintro ⟨packets, finish, ⟨⟨first, audio, last, start, rfl, hevent, hstart, hmore, hlast⟩,
      hfollow, hfinal, hend, hreportable⟩, rfl⟩
    refine ⟨ended requestId t0 packets finish, ?_,
      (finish_ended hend).mpr ⟨hfinal, hreportable, rfl⟩⟩
    rw [List.foldlM_cons, bind_eq_ok]
    exact ⟨_, handlePart_start.mpr ⟨start, hevent, hstart, rfl⟩,
      foldlM_streaming.mpr (.inr ⟨audio, last, packets, finish, rfl, hmore, hfollow, hlast,
        hend, rfl⟩)⟩

/-! ## A run over a body -/

/-- A run over a body is one over its parts. -/
theorem collects_of_parses {fuel : Nat} {progress : Progress} {reader : MultipartReader}
    (collected : List Part) (h : loop (parseBody json t0) fuel (progress, reader) = some (.ok p)) :
    ∃ parts, loop MultipartReader.collectParts fuel (collected, reader)
        = some (.ok (collected ++ parts)) ∧
      parts.foldlM (handlePart json t0) progress = .ok p := by
  -- by induction on the steps of the loop, one part at a time
  induction fuel generalizing progress reader collected with
  | zero => cases h
  | succ fuel ih =>
    cases hnext : reader.nextPart with
    | error e =>
      rw [loop_done (show parseBody json t0 (progress, reader) = .inl (.error (.reader e)) by
        simp only [parseBody, hnext])] at h
      cases h
    | ok answer =>
      obtain ⟨part, reader'⟩ := answer
      cases part with
      | none =>
        rw [loop_done (show parseBody json t0 (progress, reader) = .inl (.ok progress) by
          simp only [parseBody, hnext])] at h
        cases h
        refine ⟨[], ?_, rfl⟩
        rw [loop_done (show MultipartReader.collectParts (collected, reader)
          = .inl (.ok collected) by simp only [MultipartReader.collectParts, hnext]),
          List.append_nil]
      | some part =>
        cases hpart : handlePart json t0 progress part with
        | error e =>
          rw [loop_done (show parseBody json t0 (progress, reader) = .inl (.error e) by
            simp only [parseBody, hnext, hpart])] at h
          cases h
        | ok progress' =>
          rw [loop_next (show parseBody json t0 (progress, reader) = .inr (progress', reader') by
            simp only [parseBody, hnext, hpart])] at h
          obtain ⟨parts, hloop, hfold⟩ := ih (collected ++ [part]) h
          refine ⟨part :: parts, ?_, ?_⟩
          · rw [loop_next (show MultipartReader.collectParts (collected, reader)
              = .inr (collected ++ [part], reader') by
                simp only [MultipartReader.collectParts, hnext]), hloop, List.append_assoc]
            rfl
          · rw [List.foldlM_cons, hpart]
            exact hfold

theorem parses_of_collects (json : JsonReader) (t0 : Nat) (p progress : Progress) {fuel : Nat}
    {reader : MultipartReader} {collected all : List Part}
    (h : loop MultipartReader.collectParts fuel (collected, reader) = some (.ok all)) :
    ∃ parts, all = collected ++ parts ∧
      (parts.foldlM (handlePart json t0) progress = .ok p →
        loop (parseBody json t0) fuel (progress, reader) = some (.ok p)) := by
  induction fuel generalizing progress reader collected with
  | zero => cases h
  | succ fuel ih =>
    cases hnext : reader.nextPart with
    | error e =>
      rw [loop_done (show MultipartReader.collectParts (collected, reader)
        = .inl (.error e) by simp only [MultipartReader.collectParts, hnext])] at h
      cases h
    | ok answer =>
      obtain ⟨part, reader'⟩ := answer
      cases part with
      | none =>
        rw [loop_done (show MultipartReader.collectParts (collected, reader)
          = .inl (.ok collected) by simp only [MultipartReader.collectParts, hnext])] at h
        cases h
        refine ⟨[], (List.append_nil _).symm, fun hfold => ?_⟩
        cases pure_eq_ok.mp hfold
        exact loop_done (by simp only [parseBody, hnext])
      | some part =>
        rw [loop_next (show MultipartReader.collectParts (collected, reader)
          = .inr (collected ++ [part], reader') by
            simp only [MultipartReader.collectParts, hnext])] at h
        cases hpart : handlePart json t0 progress part with
        | error e =>
          -- the reader goes on, but the client stops at this part
          obtain ⟨parts, hall, -⟩ := ih progress h
          refine ⟨part :: parts, by rw [hall, List.append_assoc]; rfl, fun hfold => ?_⟩
          rw [List.foldlM_cons, hpart] at hfold
          cases hfold
        | ok progress' =>
          obtain ⟨parts, hall, hparses⟩ := ih progress' h
          refine ⟨part :: parts, by rw [hall, List.append_assoc]; rfl, fun hfold => ?_⟩
          rw [List.foldlM_cons, hpart] at hfold
          rw [loop_next (show parseBody json t0 (progress, reader) = .inr (progress', reader') by
            simp only [parseBody, hnext, hpart])]
          exact hparses hfold

/-- The checks on the parts that the reader takes out of a body decide what the client makes of
it. -/
theorem parses_iff {fuel : Nat} {reader : MultipartReader} {parts : List Part} {outcome : Outcome}
    (h : loop MultipartReader.collectParts fuel ([], reader) = some (.ok parts)) :
    ParsesNative json t0 requestId reader (.ok outcome) ↔
      acceptParts json t0 requestId parts = .ok outcome := by
  constructor
  · rintro ⟨more, looped, hloop, hresult⟩
    obtain ⟨p, rfl, hfinish⟩ := bind_eq_ok.mp hresult
    obtain ⟨parts', hcollects, hfold⟩ := collects_of_parses [] hloop
    have hparts : parts = parts' := Except.ok.inj (loop_unique h hcollects)
    rw [hparts]
    exact bind_eq_ok.mpr ⟨p, hfold, hfinish⟩
  · intro haccept
    obtain ⟨p, hfold, hfinish⟩ := bind_eq_ok.mp haccept
    obtain ⟨parts', hparts, hparses⟩ := parses_of_collects json t0 p (.start requestId) h
    rw [List.nil_append] at hparts
    subst hparts
    exact ⟨fuel, .ok p, hparses hfold, hfinish⟩

/-- **The client accepts exactly complete streams.** It has an outcome on a body when the reader
takes parts out of it that are a start event, one or more contiguous packets of which the last one
is final, and an end event that counts them; and it records what these parts declare. -/
theorem parses_complete_streams (json : JsonReader) (t0 : Nat) (requestId : Text)
    (reader : MultipartReader) (outcome : Outcome) :
    ParsesNative json t0 requestId reader (.ok outcome) ↔
      ∃ fuel parts packets finish,
        loop MultipartReader.collectParts fuel ([], reader) = some (.ok parts) ∧
        IsComplete json requestId parts packets finish ∧
        outcome = recorded t0 packets finish := by
  constructor
  · intro h
    obtain ⟨fuel, looped, hloop, hresult⟩ := h
    obtain ⟨p, rfl, hfinish⟩ := bind_eq_ok.mp hresult
    obtain ⟨parts, hcollects, hfold⟩ := collects_of_parses [] hloop
    obtain ⟨packets, finish, hcomplete, houtcome⟩ :=
      acceptParts_eq_ok.mp (bind_eq_ok.mpr ⟨p, hfold, hfinish⟩)
    exact ⟨fuel, parts, packets, finish, hcollects, hcomplete, houtcome⟩
  · rintro ⟨fuel, parts, packets, finish, hcollects, hcomplete, houtcome⟩
    exact (parses_iff hcollects).mpr (acceptParts_eq_ok.mpr ⟨packets, finish, hcomplete, houtcome⟩)

end

end Qwen3Tts.Bench
