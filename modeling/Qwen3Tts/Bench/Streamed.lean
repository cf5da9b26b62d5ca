import Qwen3Tts.Bench.Boundary
import Qwen3Tts.Bench.RoundTrip
import Qwen3Tts.Bench.StreamAccept
import Qwen3Tts.Server.Events
import Qwen3Tts.Server.StreamShape

/-!
# Bench — the client on a stream of the server

What the client makes of a response of the streaming worker, from its `Content-Type` to its last
part. However the bytes are cut, the client has an outcome exactly when the worker sent an end part
whose metrics count what was streamed, and the outcome then has the packets, the samples, the
finish reason and the audio of the engine (`streamed_response`). A response that the worker left
early, with an error part or with nothing, has none.
-/

namespace Qwen3Tts.Bench

open Qwen3Tts.Lib Qwen3Tts.Lib.Json Qwen3Tts.Server

/-! ## Arrival -/

/-- A part that is not empty has the time of its first bytes. -/
def Arrived (part : Part) : Prop := part.payload ≠ [] → part.firstPayloadAt.isSome = true

/-- A payload that is not empty has the time of its first byte. -/
theorem payload_arrives {r : MultipartReader} {length : Nat} {p : MultipartReader.Payload}
    (h : r.readPayload length = .ok p) : p.payload ≠ [] → p.firstPayloadAt.isSome = true := by
  let I := fun p : MultipartReader.Payload => p.payload ≠ [] → p.firstPayloadAt.isSome = true
  unfold MultipartReader.readPayload at h
  cases hloop : loop MultipartReader.payloadBody (length + 1) ⟨r, [], length, none⟩ with
  | none =>
    rw [hloop] at h
    cases h
  | some result =>
    -- by induction on the loop, with the same as its invariant
    have hresult := loop_induction I (fun result => ∀ p, result = .ok p → I p) ?_ ?_
      (fun hne => absurd rfl hne) hloop
    · rw [hloop] at h
      exact hresult p h
    · intro a b _ hbody _
      unfold MultipartReader.payloadBody at hbody
      split at hbody
      · cases hbody
      · split at hbody
        · cases hbody
        · split at hbody
          · cases hbody
          · cases hbody
            cases a.firstPayloadAt <;> rfl
    · intro a result ha hbody p hp
      unfold MultipartReader.payloadBody at hbody
      split at hbody
      · cases hbody
        cases hp
        exact ha
      · split at hbody
        · cases hbody
          cases hp
        · split at hbody
          · cases hbody
            cases hp
          · cases hbody

/-- So has a part, -/
theorem part_arrives {r r' : MultipartReader} {part : Part}
    (h : r.nextPart = .ok (some part, r')) : Arrived part := by
  unfold MultipartReader.nextPart at h
  split at h
  · cases h
  · simp only [bind_eq_ok, pure_eq_ok] at h
    obtain ⟨_, -, _, -, _, -, _, -, p, hp, _, -, _, -, _, -, heq⟩ := h
    cases heq
    exact payload_arrives hp

/-- and so has every part of a run. -/
theorem parts_arrive {r : MultipartReader} {fuel : Nat} {parts : List Part}
    (h : loop MultipartReader.collectParts fuel ([], r) = some (.ok parts)) :
    ∀ part ∈ parts, Arrived part := by
  -- by induction on the parts that were collected
  refine loop_induction (fun s : List Part × MultipartReader => ∀ part ∈ s.1, Arrived part)
    (fun result => ∀ parts, result = .ok parts → ∀ part ∈ parts, Arrived part) ?_ ?_
    (fun _ h => absurd h List.not_mem_nil) h parts rfl
  · intro a b ha hbody
    unfold MultipartReader.collectParts at hbody
    cases hnext : a.2.nextPart with
    | error e =>
      rw [hnext] at hbody
      cases hbody
    | ok answer =>
      obtain ⟨part, r'⟩ := answer
      rw [hnext] at hbody
      cases part with
      | none => cases hbody
      | some part =>
        cases hbody
        intro q hq
        rcases List.mem_append.mp hq with hq | hq
        · exact ha q hq
        · rw [List.mem_singleton.mp hq]
          exact part_arrives hnext
  · intro a result ha hbody parts hparts
    unfold MultipartReader.collectParts at hbody
    cases hnext : a.2.nextPart with
    | error e =>
      rw [hnext] at hbody
      cases hbody
      cases hparts
    | ok answer =>
      obtain ⟨part, r'⟩ := answer
      rw [hnext] at hbody
      cases part with
      | none =>
        cases hbody
        cases hparts
        exact ha
      | some part => cases hbody

/-! ## A received packet -/

section
variable {float : Float → Document} {part : Part} {packet : EnginePacket}

/-- The media type of a part is received as it was sent. -/
theorem contentType_received {serialize : Server.Part → Bytes} {p : Server.Part}
    (h : MultipartReader.IsPart serialize p part) :
    part.header "content-type".toList = some p.contentType.toList := by
  have hname : lowercase "content-type".toList = lowercase "Content-Type".toList := by decide
  have hfirst : ∀ {k x v : Text} {headers : List (Text × Text)}, x = k →
      assoc ((k, v) :: headers) x = some v := by
    intro k x v headers heq
    rw [assoc, if_pos heq]
  rw [Part.header, h.1, receivedHeaders, writtenHeaders, List.map_cons, List.map_cons]
  dsimp only
  exact hfirst hname

/-- The names of the headers of a packet. -/
def audioNames : List Text :=
  ["content-type", "content-length", "x-sequence", "x-first-codec-frame", "x-first-sample",
    "x-sample-count", "x-codec-frames", "x-final"].map String.toList

/-- The names of the headers of an audio part, in lower case. -/
theorem keys_received {serialize : Server.Part → Bytes} :
    Lib.keys (receivedHeaders serialize (.audio packet)) = audioNames := by
  unfold Lib.keys receivedHeaders writtenHeaders
  simp only [Server.Part.headers, List.map_cons, List.map_nil]
  decide

/-- A header of a packet is looked up in any case. -/
theorem audioHeader_received {serialize : Server.Part → Bytes}
    (h : MultipartReader.IsPart serialize (.audio packet) part) {name value : String}
    (key : String) (hname : lowercase name.toList = lowercase key.toList)
    (hmem : (key, value) ∈ (Server.Part.audio packet).headers) :
    part.header name.toList = some value.toList := by
  rw [Part.header, h.1, hname]
  apply assoc_of_mem
  · rw [keys_received]
    decide
  · unfold receivedHeaders writtenHeaders
    apply List.mem_map_of_mem (f := fun header : Text × Text => (lowercase header.1, header.2))
      (a := (key.toList, value.toList))
    apply List.mem_map_of_mem
      (f := fun header : String × String => (header.1.toList, header.2.toList)) (a := (key, value))
    exact List.mem_cons_of_mem _ (List.mem_cons_of_mem _ hmem)

/-- A number in a header is read back. -/
theorem partU64_received {name : String} {n : Nat} (hn : n < 2 ^ 64)
    (h : part.header name.toList = some (toString n).toList) : partU64 part name = .ok n := by
  unfold partU64 partHeader
  rw [h, ok_bind, fromStrRadix_toString hn]
  rfl

/-- So is a flag. -/
theorem parseBool_toString (b : Bool) : parseBool (toString b).toList = some b := by
  cases b <;> decide

/-- The packet of a part, as its headers say. -/
def receivedPacket (packet : EnginePacket) (arrival : Nat) : AudioPacket where
  sequence := packet.sequence
  firstCodecFrame := packet.firstCodecFrame
  firstSample := packet.firstSample
  sampleCount := packet.sampleCount
  codecFrames := packet.codecFrames
  isFinal := packet.isFinal
  payload := packet.pcmS16le
  arrival := arrival

/-- A packet the worker checked is accepted as one of audio. -/
theorem isAudioPart_received {serialize : Server.Part → Bytes} (hchecked : Checked packet)
    (harrived : Arrived part) (h : MultipartReader.IsPart serialize (.audio packet) part) :
    ∃ arrival, IsAudioPart part (receivedPacket packet arrival) := by
  have hcount := hchecked.sampleCount
  have hframes := hchecked.codecFrames
  have hbytes := hchecked.bytes
  have hframe : Runtime.samplesPerCodecFrame = 1920 := rfl
  rw [hframe] at hcount
  have hpayload : part.payload = packet.pcmS16le := h.2
  -- a checked packet is not empty, so it has an arrival
  have hsome : part.firstPayloadAt.isSome = true := by
    apply harrived
    rw [hpayload]
    apply List.ne_nil_of_length_pos
    omega
  obtain ⟨arrival, harrival⟩ := Option.isSome_iff_exists.mp hsome
  have hvalid : mediaTypeIs "audio/pcm;rate=24000;channels=1;format=s16le".toList "audio/pcm" = true
      ∧ validateNativeAudioContentType "audio/pcm;rate=24000;channels=1;format=s16le".toList
        = .ok () := by
    decide
  have hfinal : partBool part "x-final" = .ok packet.isFinal := by
    have hheader : part.header "x-final".toList = some (toString packet.isFinal).toList :=
      audioHeader_received h "X-Final" (by decide) (by simp [Server.Part.headers])
    unfold partBool partHeader
    rw [hheader, ok_bind, parseBool_toString]
    rfl
  -- the counters, header by header
  refine ⟨arrival, ⟨⟨_, contentType_received h, hvalid⟩, harrival, ?_, ?_, ?_, ?_, ?_, hfinal,
    hpayload⟩⟩
  · exact partU64_received (Nat.lt_of_succ_lt hchecked.sequence)
      (audioHeader_received h "X-Sequence" (by decide)
        (by simp [Server.Part.headers, receivedPacket]))
  · exact partU64_received hchecked.firstCodecFrame
      (audioHeader_received h "X-First-Codec-Frame" (by decide)
        (by simp [Server.Part.headers, receivedPacket]))
  · exact partU64_received hchecked.firstSample
      (audioHeader_received h "X-First-Sample" (by decide)
        (by simp [Server.Part.headers, receivedPacket]))
  · exact partU64_received (show packet.sampleCount < 2 ^ 64 by omega)
      (audioHeader_received h "X-Sample-Count" (by decide)
        (by simp [Server.Part.headers, receivedPacket]))
  · exact partU64_received (show packet.codecFrames < 2 ^ 64 by omega)
      (audioHeader_received h "X-Codec-Frames" (by decide)
        (by simp [Server.Part.headers, receivedPacket]))

end

/-! ## A received event -/

/-- A member is found by its name. -/
theorem named_ofString (name : String) (member : String × Document) :
    named name (Str.ofString member.1, member.2) = decide (member.1 = name) := by
  rw [named, Str.value_ofString]

/-- The field of a record that was written by its name, -/
theorem field_record (names : List String) (name : String) (members : List (String × Document)) :
    (Document.record members).field names name
      = (members.find? fun member => decide (member.1 = name)).map (·.2) := by
  show ((members.map fun member => (Str.ofString member.1, member.2)).find? (named name)).map
    (·.2) = _
  rw [List.find?_map, Option.map_map]
  congr 1
  exact congrArg (fun test => List.find? test members) (funext fun member =>
    named_ofString name member)

/-- and what makes the record a valid one. -/
theorem isOpenRecord_record (names : List String) (members : List (String × Document)) :
    isOpenRecord names (.record members)
      = decide (((members.map (·.1)).filter (· ∈ names)).Nodup) := by
  have hkeys : Json.keys (members.map fun member => (Str.ofString member.1, member.2))
      = members.map (·.1) := by
    unfold Json.keys
    rw [List.map_map]
    exact List.map_congr_left fun member _ => Str.value_ofString member.1
  show decide (((Json.keys _).filter _).Nodup) = _
  rw [hkeys]

/-- The last of the members of a name counts. -/
theorem valueMember_record (name : String) (members : List (String × Document)) :
    valueMember (members.map fun member => (Str.ofString member.1, member.2)) name
      = (members.reverse.find? fun member => decide (member.1 = name)).map (·.2) := by
  unfold valueMember
  rw [← List.map_reverse, List.find?_map, Option.map_map]
  congr 1
  exact congrArg (fun test => List.find? test members.reverse) (funext fun member =>
    named_ofString name member)

section
variable {numbers : Numbers} {float : Float → Document}

/-- A text is read back. -/
theorem readString_ofString (text : String) : readString (.ofString text) = some text :=
  congrArg some (Str.value_ofString text)

/-- An optional member that is there, -/
theorem optional_ofString (text : String) :
    optional readString (some (.ofString text)) = some (some text) :=
  congrArg (fun value => some (some value)) (Str.value_ofString text)

/-- or is not. -/
theorem optional_none {α : Type} (read : Document → Option α) : optional read none = some none :=
  rfl

theorem optional_record {α : Type} (read : Document → Option α)
    (members : List (String × Document)) :
    optional read (some (.record members)) = (read (.record members)).map some := rfl

/-- The event that opens the stream is read back. -/
theorem read_startEvent (hnumbers : ∀ n < 2 ^ 64, numbers.u64 (.ofNat n) = some n)
    (requestId : Uuid) (seed : Nat) :
    JsonEvent.deserialize numbers (startEvent requestId seed)
      = some ⟨"start", some (hyphenated requestId), none, none,
          some ⟨"pcm_s16le", 24000, 1, 1920⟩⟩ := by
  have haudio : JsonAudioDescription.deserialize numbers (.record [
      ("encoding", .ofString "pcm_s16le"), ("sample_rate_hz", .ofNat 24000),
      ("channels", .ofNat 1), ("samples_per_codec_frame", .ofNat 1920)])
      = some ⟨"pcm_s16le", 24000, 1, 1920⟩ := by
    have hnumber : ∀ n < 2 ^ 64, readNumber numbers.u64 (.ofNat n) = some n := hnumbers
    simp [JsonAudioDescription.deserialize, isOpenRecord_record, field_record, jsonAudioFields,
      readString_ofString, hnumber 24000 (by decide), hnumber 1 (by decide),
      hnumber 1920 (by decide)]
  simp [JsonEvent.deserialize, startEvent, isOpenRecord_record, field_record, jsonEventFields,
    readString_ofString, optional_ofString, optional_none, optional_record, haudio]

/-- So is the one that ends it. -/
theorem read_endEvent (requestId : Uuid) (reason : EngineFinishReason) (metrics : EngineMetrics) :
    JsonEvent.deserialize numbers (endEvent float requestId reason metrics)
      = some ⟨"end", some (hyphenated requestId), some reason.name,
          some (metricsDocument float metrics), none⟩ := by
  have hmetrics : optional some (some (metricsDocument float metrics))
      = some (some (metricsDocument float metrics)) := rfl
  simp [JsonEvent.deserialize, endEvent, isOpenRecord_record, field_record, jsonEventFields,
    readString_ofString, optional_ofString, optional_none, hmetrics]

/-- An error event is not of the types that the client accepts. -/
theorem read_streamPayload {error : ApiError} {event : JsonEvent}
    (h : JsonEvent.deserialize numbers error.streamPayload = some event) :
    event.eventType = "error" := by
  unfold JsonEvent.deserialize ApiError.streamPayload at h
  simp only [field_record, Option.bind_eq_bind, Option.bind_eq_some_iff, Option.pure_def,
    Option.some.injEq] at h
  obtain ⟨-, -, eventType, ⟨document, hdocument, htype⟩, -, -, -, -, -, -, -, -, rfl⟩ := h
  have htype' : document = .ofString "error" := (Option.some.inj hdocument).symm
  rw [htype', readString_ofString] at htype
  exact (Option.some.inj htype).symm

/-- The counters of an end event. -/
theorem counts_metricsDocument (float : Float → Document)
    (hnumbers : ∀ n < 2 ^ 64, numbers.u64 (.ofNat n) = some n)
    {metrics : EngineMetrics} (hpackets : metrics.emittedPackets < 2 ^ 64)
    (hsamples : metrics.emittedSamples < 2 ^ 64) :
    ∃ members, metricsDocument float metrics = .object members ∧
      (valueMember members "emitted_packets").bind (readNumber numbers.u64)
        = some metrics.emittedPackets ∧
      (valueMember members "emitted_samples").bind (readNumber numbers.u64)
        = some metrics.emittedSamples := by
  refine ⟨_, rfl, ?_, ?_⟩
  · rw [valueMember_record]
    exact hnumbers _ hpackets
  · rw [valueMember_record]
    exact hnumbers _ hsamples

end

/-! ## Statement -/

/-- `parse_native` of a streamed request. -/
def ParsesResponse (json : JsonReader) (t0 : Nat) (head : ResponseHead) (body : BodySegments)
    (result : Except StreamError Outcome) : Prop :=
  match head.header "x-request-id".toList, head.header "content-type".toList with
  | none, _ => result = .error (.validation "native response has no x-request-id header")
  | some _, none => result = .error (.validation "response has no Content-Type")
  | some requestId, some contentType =>
    match boundaryFromContentType contentType with
    | .error e => result = .error (.reader e)
    | .ok boundary => ParsesNative json t0 requestId (.new body boundary) result

/-- The parts that the worker sent. -/
def sentParts (job : Job) (turns : List Turn) : List Server.Part :=
  (runStreamingWorker job turns).1.sent

/-- The bytes of the response. -/
def streamOf (float : Float → Document) (job : Job) (turns : List Turn) : Bytes :=
  (sentParts job turns).flatMap
    (Server.Part.encode (Server.Part.toVec float) (Server.boundary job.requestId))

/-- The headers of `streaming_response` that the client reads. -/
structure ServerHead (job : Job) (head : ResponseHead) : Prop where
  requestId : head.header "x-request-id".toList = some (hyphenated job.requestId).toList
  contentType : head.header "content-type".toList
    = some (mixedType (Server.boundary job.requestId).toList)

/-- The metrics count the packets and samples of the engine, which the client can report. -/
structure Counted (job : Job) (packets : List EnginePacket) : Prop where
  emittedPackets : job.metrics.emittedPackets = packets.length
  emittedSamples : job.metrics.emittedSamples = sampleCount packets
  reportable : sampleCount packets < 2 ^ 32

/-- What a client that reads the documents as they are written needs of the events. -/
structure Readable (json : JsonReader) (float : Float → Document) (job : Job)
    (parts : List Server.Part) : Prop where
  numbers : ∀ n < 2 ^ 64, json.numbers.u64 (.ofNat n) = some n
  documents : ∀ p ∈ parts, ∀ document, p.event float = some document →
    json.document (utf8 document.text) = some document
  payload_le : ∀ p ∈ parts, p.event float ≠ none →
    (p.toVec float).length ≤ maxPartPayloadBytes
  emittedPackets_lt : job.metrics.emittedPackets < 2 ^ 64
  emittedSamples_lt : job.metrics.emittedSamples < 2 ^ 64

/-! ## The packets -/

/-- The packet as it is received. -/
def Received (packet : EnginePacket) (a : AudioPacket) : Prop :=
  ∃ arrival, a = receivedPacket packet arrival

section
variable {packets : List EnginePacket} {received : List AudioPacket}

/-- The samples of the packets, their frames and their bytes are received. -/
theorem samples_received (h : List.Forall₂ Received packets received) :
    packetSamples received = sampleCount packets := by
  induction h with
  | nil => rfl
  | cons hfirst _ ih =>
    obtain ⟨arrival, rfl⟩ := hfirst
    unfold packetSamples sampleCount at ih ⊢
    rw [List.map_cons, List.map_cons, List.sum_cons, List.sum_cons, ih]
    rfl

theorem frames_received (h : List.Forall₂ Received packets received) :
    packetFrames received = frameCount packets := by
  induction h with
  | nil => rfl
  | cons hfirst _ ih =>
    obtain ⟨arrival, rfl⟩ := hfirst
    unfold packetFrames frameCount at ih ⊢
    rw [List.map_cons, List.map_cons, List.sum_cons, List.sum_cons, ih]
    rfl

theorem audio_received (h : List.Forall₂ Received packets received) :
    packetAudio received = audioBytes packets := by
  induction h with
  | nil => rfl
  | cons hfirst _ ih =>
    obtain ⟨arrival, rfl⟩ := hfirst
    unfold packetAudio audioBytes at ih ⊢
    rw [List.flatMap_cons, List.flatMap_cons, ih]
    rfl

/-- A part is one packet. -/
theorem IsAudioPart.unique {part : Part} {a b : AudioPacket} (ha : IsAudioPart part a)
    (hb : IsAudioPart part b) : a = b := by
  obtain ⟨sequence, frame, sample, samples, frames, final, payload, arrival⟩ := a
  obtain ⟨sequence', frame', sample', samples', frames', final', payload', arrival'⟩ := b
  cases Except.ok.inj (ha.sequence.symm.trans hb.sequence)
  cases Except.ok.inj (ha.firstCodecFrame.symm.trans hb.firstCodecFrame)
  cases Except.ok.inj (ha.firstSample.symm.trans hb.firstSample)
  cases Except.ok.inj (ha.sampleCount.symm.trans hb.sampleCount)
  cases Except.ok.inj (ha.codecFrames.symm.trans hb.codecFrames)
  cases Except.ok.inj (ha.isFinal.symm.trans hb.isFinal)
  cases ha.payload.symm.trans hb.payload
  cases Option.some.inj (ha.arrival.symm.trans hb.arrival)
  rfl

/-- Every audio part is received as one. -/
theorem audioParts_received {serialize : Server.Part → Bytes} {parts : List Part}
    (hchecked : ∀ packet ∈ packets, Checked packet) (harrived : ∀ part ∈ parts, Arrived part)
    (h : List.Forall₂ (MultipartReader.IsPart serialize) (packets.map .audio) parts) :
    ∃ received, List.Forall₂ Received packets received ∧
      List.Forall₂ IsAudioPart parts received := by
  induction packets generalizing parts with
  | nil =>
    cases h
    exact ⟨[], .nil, .nil⟩
  | cons packet packets ih =>
    rw [List.map_cons] at h
    cases h with
    | cons hfirst hrest =>
      rename_i part parts
      obtain ⟨arrival, haudio⟩ := isAudioPart_received (hchecked packet List.mem_cons_self)
        (harrived part List.mem_cons_self) hfirst
      obtain ⟨received, hreceived, hparts⟩ := ih
        (fun p hp => hchecked p (List.mem_cons_of_mem _ hp))
        (fun p hp => harrived p (List.mem_cons_of_mem _ hp)) hrest
      exact ⟨_, .cons ⟨arrival, rfl⟩ hreceived, .cons haudio hparts⟩

/-- The packets of a part list are no others. -/
theorem audioParts_unique {parts : List Part} {a b : List AudioPacket}
    (ha : List.Forall₂ IsAudioPart parts a) (hb : List.Forall₂ IsAudioPart parts b) : a = b := by
  induction ha generalizing b with
  | nil =>
    cases hb
    rfl
  | cons hfirst _ ih =>
    cases hb with
    | cons hfirst' hrest' => rw [hfirst.unique hfirst', ih hrest']

/-- A contiguous stream is contiguous as it is received. -/
theorem follow_received (hchecked : ∀ packet ∈ packets, Checked packet)
    (hcontinues : Continues {} packets) (h : List.Forall₂ Received packets received) :
    Follow [] received := by
  intro front a after heq
  subst heq
  have hbefore := List.forall₂_take_append _ _ _ h
  have hrest := List.forall₂_drop_append _ _ _ h
  -- the packets of the engine split where the received ones do
  obtain ⟨before, rest, hsplit, htake, hdrop⟩ : ∃ before rest, packets = before ++ rest ∧
      packets.take front.length = before ∧ packets.drop front.length = rest :=
    ⟨_, _, (List.take_append_drop _ _).symm, rfl, rfl⟩
  rw [htake] at hbefore
  rw [hdrop] at hrest
  subst hsplit
  cases hrest with
  | cons hfirst hafter =>
    rename_i packet rest
    obtain ⟨arrival, rfl⟩ := hfirst
    have hpacket := hchecked packet (List.mem_append_right _ List.mem_cons_self)
    obtain ⟨hsequence, hframe, hsample⟩ := hcontinues.positions before packet rest rfl
    have hlength := hbefore.length_eq
    have hseq := hpacket.sequence
    have hfirstFrame := hpacket.firstCodecFrame
    have hfirstSample := hpacket.firstSample
    have hframes := hpacket.codecFrames
    have hcount := hpacket.sampleCount
    have hbytes := hpacket.bytes
    rw [show Runtime.samplesPerCodecFrame = 1920 from rfl] at hcount
    change packet.sequence = 0 + before.length at hsequence
    change packet.firstCodecFrame = 0 + frameCount before at hframe
    change packet.firstSample = 0 + sampleCount before at hsample
    rw [List.nil_append]
    constructor
    case open_ =>
      -- only the last packet is final, and this one stands behind `front`
      intro p hp
      obtain ⟨hnil, -⟩ | ⟨-, others, last, hlast, -, hothers⟩ := hcontinues.final
      · exact absurd hnil (by simp)
      · have hmem := List.mem_of_mem_getLast? hp
        obtain ⟨packet', hpacket', hreceived⟩ : ∃ packet' ∈ before, Received packet' p := by
          obtain ⟨i, hi, rfl⟩ := List.getElem_of_mem hmem
          have hi' : i < before.length := by omega
          exact ⟨before[i], List.getElem_mem hi', List.forall₂_iff_get.mp hbefore |>.2 i hi' hi⟩
        obtain ⟨arrival', rfl⟩ := hreceived
        have hlead : before <+: others := by
          have hdrop := congrArg List.dropLast hlast
          rw [List.dropLast_concat, List.dropLast_append_of_ne_nil (List.cons_ne_nil _ _)] at hdrop
          exact ⟨_, hdrop⟩
        exact hothers packet' (hlead.subset hpacket')
    case sequence =>
      show packet.sequence = front.length % 2 ^ 64
      omega
    case firstCodecFrame =>
      show packet.firstCodecFrame = packetFrames front % 2 ^ 64
      rw [frames_received hbefore]
      omega
    case firstSample =>
      show packet.firstSample = packetSamples front % 2 ^ 64
      rw [samples_received hbefore]
      omega
    case sampleCount =>
      show 0 < packet.sampleCount
      omega
    case codecFrames => exact hframes.1
    case payload => exact hbytes.symm
    case bound =>
      show packet.sampleCount * 2 < 2 ^ 64
      omega

/-- The last packet is received as the final one. -/
theorem final_received (hcontinues : Continues {} packets)
    (h : List.Forall₂ Received packets received) :
    ∃ a ∈ received.getLast?, a.isFinal = true := by
  obtain ⟨-, hfalse⟩ | ⟨-, others, last, rfl, hfinal, -⟩ := hcontinues.final
  · cases hfalse
  · have hback := List.forall₂_drop_append _ _ _ h.flip
    have hfront := List.take_append_drop others.length received
    generalize received.drop others.length = back at hback hfront
    cases hback with
    | cons hlast hnil =>
      cases hnil
      obtain ⟨arrival, rfl⟩ := hlast
      rw [← hfront]
      exact ⟨_, List.getLast?_concat, hfinal⟩

end

/-! ## The parts -/

section
variable {json : JsonReader} {t0 : Nat} {float : Float → Document} {job : Job}
  {packets : List EnginePacket} {reason : EngineFinishReason} {sent : List Server.Part}
  {received : List Part}

/-- The end event as it is read. -/
def endRead (float : Float → Document) (job : Job) (reason : EngineFinishReason) : JsonEvent :=
  ⟨"end", some (hyphenated job.requestId), some reason.name,
    some (metricsDocument float job.metrics), none⟩

/-- A part with an event that the reader reads is one. -/
theorem isEventPart_received {p : Server.Part} {part : Part} {document : Document}
    {event : JsonEvent} (hreadable : Readable json float job sent) (hmem : p ∈ sent)
    (hp : p.event float = some document)
    (hread : JsonEvent.deserialize json.numbers document = some event)
    (h : MultipartReader.IsPart (Server.Part.toVec float) p part) :
    IsEventPart json part event := by
  have htype : p.contentType = "application/json" ∧
      p.payload (Server.Part.toVec float) = p.toVec float := by
    cases p with
    | audio packet => cases hp
    | start | finish | error => exact ⟨rfl, rfl⟩
  refine ⟨⟨_, contentType_received h, ?_⟩, ?_⟩
  · rw [htype.1]
    decide
  · unfold JsonReader.fromSlice
    rw [h.2, htype.2, Server.Part.toVec, hp]
    dsimp only
    rw [hreadable.documents p hmem document hp]
    exact hread

/-- There is one event in a part. -/
theorem isEventPart_unique {part : Part} {a b : JsonEvent} (ha : IsEventPart json part a)
    (hb : IsEventPart json part b) : a = b :=
  Option.some.inj (ha.event.symm.trans hb.event)

/-- A stream that ends with an error part is not accepted. -/
theorem not_accepted_of_error {error : ApiError} {outcome : Outcome} {requestId : Text}
    (hreadable : Readable json float job sent) (hmem : Server.Part.error error ∈ sent)
    {front : List Part} {last : Part}
    (h : MultipartReader.IsPart (Server.Part.toVec float) (.error error) last) :
    acceptParts json t0 requestId (front ++ [last]) ≠ .ok outcome := by
  intro haccept
  obtain ⟨_, finish, hcomplete, -⟩ := acceptParts_eq_ok.mp haccept
  obtain ⟨first, audio, last', start, hparts, -, -, -, hlast⟩ := hcomplete.parts
  -- an accepted stream ends with an end event, and this is the last part
  have heq : last = last' := by
    have hget := congrArg List.getLast? hparts
    rw [← List.cons_append, List.getLast?_concat, List.getLast?_concat] at hget
    exact Option.some.inj hget
  rw [← heq] at hlast
  -- the payload is read as an event of another type
  have hpayload : last.payload = utf8 error.streamPayload.text := h.2
  have hevent := hlast.event
  unfold JsonReader.fromSlice at hevent
  rw [hpayload, hreadable.documents _ hmem _ rfl] at hevent
  have htype := read_streamPayload hevent
  rw [hcomplete.finish.type] at htype
  exact absurd htype (by decide)

/-- The numbers of a stream are within their types. -/
theorem continues_lt (hchecked : ∀ packet ∈ packets, Checked packet)
    (hcontinues : Continues {} packets) :
    packets ≠ [] ∧ packets.length < 2 ^ 64 ∧ sampleCount packets < 2 ^ 64 := by
  obtain ⟨-, hfalse⟩ | ⟨-, others, last, rfl, -, -⟩ := hcontinues.final
  · cases hfalse
  · have hsequence := (hcontinues.positions others last [] rfl).1
    have hlast := (hchecked last (by simp)).sequence
    change last.sequence = 0 + others.length at hsequence
    refine ⟨by simp, ?_, ?_⟩
    · rw [List.length_append, List.length_singleton]
      omega
    · rcases hcontinues.bound with hnil | hbound
      · simp at hnil
      · rwa [show ({} : PacketContinuity).nextSample = 0 from rfl, Nat.zero_add] at hbound

/-- A stream that ends with an end part is accepted when its metrics count it. -/
theorem accepted_iff_counted (hreadable : Readable json float job sent)
    (hsent : sent = .start job.requestId job.seed :: (packets.map .audio
      ++ [.finish job.requestId reason job.metrics]))
    (hchecked : ∀ packet ∈ packets, Checked packet) (hcontinues : Continues {} packets)
    (harrived : ∀ part ∈ received, Arrived part)
    (h : List.Forall₂ (MultipartReader.IsPart (Server.Part.toVec float)) sent received) :
    ∃ audio, List.Forall₂ Received packets audio ∧ ∀ outcome,
      acceptParts json t0 (hyphenated job.requestId).toList received = .ok outcome ↔
        Counted job packets ∧ outcome = recorded t0 audio (endRead float job reason) := by
  subst hsent
  obtain ⟨first, rest, hfirst, hrest, rfl⟩ := List.forall₂_cons_left_iff.mp h
  have hfront := List.forall₂_take_append _ _ _ hrest.flip
  have hback := List.forall₂_drop_append _ _ _ hrest.flip
  have hsplit := List.take_append_drop (packets.map Server.Part.audio).length rest
  generalize rest.take (packets.map Server.Part.audio).length = parts at hfront hsplit
  generalize rest.drop (packets.map Server.Part.audio).length = back at hback hsplit
  cases hback with
  | cons hlast hnil =>
    rename_i last back
    cases hnil
    subst hsplit
    obtain ⟨audio, haudio, hparts⟩ := audioParts_received hchecked
      (fun part hpart => harrived part (by simp [hpart])) hfront.flip
    -- the counters of the client do not wrap on such a stream
    obtain ⟨hsome, hlength, hsamples⟩ := continues_lt hchecked hcontinues
    have hstart : IsEventPart json first _ := isEventPart_received hreadable List.mem_cons_self
      rfl (read_startEvent hreadable.numbers job.requestId job.seed) hfirst
    have hend : IsEventPart json last (endRead float job reason) := isEventPart_received hreadable
      (List.mem_cons_of_mem _ (List.mem_append_right _ List.mem_cons_self)) rfl
      (read_endEvent job.requestId reason job.metrics) hlast
    have hcount : audio.length = packets.length := haudio.length_eq.symm
    have hsum := samples_received haudio
    obtain ⟨members, hmembers, hpacketCount, hsampleCount⟩ := counts_metricsDocument float
      hreadable.numbers hreadable.emittedPackets_lt hreadable.emittedSamples_lt
    refine ⟨audio, haudio, fun outcome => ?_⟩
    rw [acceptParts_eq_ok]
    constructor
    · rintro ⟨audio', finish, hcomplete, rfl⟩
      obtain ⟨first', parts', last', start, hall, -, -, hparts', hlast'⟩ := hcomplete.parts
      obtain ⟨hfirst', htail⟩ := List.cons.inj hall
      obtain ⟨rfl, hlasts⟩ := List.append_inj' htail rfl
      obtain ⟨rfl, -⟩ := List.cons.inj hlasts
      -- what the client takes for the packets are those that were sent
      obtain rfl := audioParts_unique hparts hparts'
      obtain rfl := isEventPart_unique hend hlast'
      obtain ⟨members', hmembers', hpackets', hsamples'⟩ := hcomplete.finish.metrics
      cases Document.object.inj ((Option.some.inj hmembers').symm.trans hmembers)
      have hreportable := hcomplete.reportable
      rw [hsum] at hreportable
      refine ⟨⟨?_, ?_, ?_⟩, rfl⟩
      · have heq := Option.some.inj (hpacketCount.symm.trans hpackets')
        rw [heq, hcount, counter, Nat.mod_eq_of_lt hlength]
      · have heq := Option.some.inj (hsampleCount.symm.trans hsamples')
        rw [heq, hsum, counter, Nat.mod_eq_of_lt hsamples]
      · rwa [counter, Nat.mod_eq_of_lt hsamples] at hreportable
    · rintro ⟨hcounted, rfl⟩
      have hreason : (endRead float job reason).finishReason = some "stop" ∨
          (endRead float job reason).finishReason = some "length" := by
        cases reason
        · exact .inl rfl
        · exact .inr rfl
      refine ⟨audio, _, ⟨⟨first, parts, last, _, rfl, hstart, ⟨rfl, ⟨_, rfl, rfl⟩, rfl⟩, hparts,
        hend⟩, follow_received hchecked hcontinues haudio, final_received hcontinues haudio,
        ⟨rfl, ⟨_, rfl, rfl⟩, ?_, hreason, members, congrArg some hmembers, ?_, ?_⟩, ?_⟩, rfl⟩
      · rw [hcount, counter, Nat.mod_eq_of_lt hlength]
        exact List.length_pos_iff.mpr hsome
      · rw [hpacketCount, hcounted.emittedPackets, hcount, counter, Nat.mod_eq_of_lt hlength]
      · rw [hsampleCount, hcounted.emittedSamples, hsum, counter, Nat.mod_eq_of_lt hsamples]
      · rw [hsum, counter, Nat.mod_eq_of_lt hsamples]
        exact hcounted.reportable

/-! ## The response -/

/-- A checked packet is in the range of its types, -/
theorem typed_of_checked {packet : EnginePacket} (h : Checked packet) : Typed (.audio packet) := by
  have hframes := h.codecFrames.2
  have hcount := h.sampleCount
  rw [show Runtime.samplesPerCodecFrame = 1920 from rfl] at hcount
  refine ⟨Nat.lt_of_succ_lt h.sequence, h.firstCodecFrame, h.firstSample, ?_, ?_⟩
  · omega
  · omega

/-- and not too large for the client. -/
theorem payload_le_of_checked {packet : EnginePacket} (h : Checked packet) :
    packet.pcmS16le.length ≤ maxPartPayloadBytes := by
  have hframes := h.codecFrames.2
  have hcount := h.sampleCount
  have hbytes := h.bytes
  have hmaximum : maxPartPayloadBytes = 536870912 := rfl
  rw [show Runtime.samplesPerCodecFrame = 1920 from rfl] at hcount
  omega

/-- The reader on a stream that a closing part ends, whole or cut. -/
theorem collects_closed {last : Server.Part} {segments : List TimedBytes} {missing : Bytes}
    (hclose : last.close = true)
    (hstart : (Server.Part.toVec float (.start job.requestId job.seed)).length
      ≤ maxPartPayloadBytes)
    (hlast : (last.toVec float).length ≤ maxPartPayloadBytes)
    (hchecked : ∀ packet ∈ packets, Checked packet)
    (hlive : ∀ segment ∈ segments, segment.bytes ≠ [])
    (hwhole : segments.flatMap TimedBytes.bytes ++ missing
      = (.start job.requestId job.seed :: (packets.map .audio ++ [last])).flatMap
        (Server.Part.encode (Server.Part.toVec float) (Server.boundary job.requestId))) :
    MultipartReader.Collects (Server.Part.toVec float)
      (.start job.requestId job.seed :: (packets.map .audio ++ [last])) missing []
      (.new ⟨segments, none⟩ (Server.boundary job.requestId).toList) := by
  have hclosing : Typed last ∧ last.payload (Server.Part.toVec float) = last.toVec float := by
    cases last with
    | start | audio => cases hclose
    | finish | error => exact ⟨trivial, rfl⟩
  -- these parts are a response of the round trip
  let response : ProgressiveResponse := {
    requestId := job.requestId
    serialize := Server.Part.toVec float
    front := .start job.requestId job.seed :: packets.map .audio
    last := last
    front_open := by
      intro p hp
      rcases List.mem_cons.mp hp with rfl | hp
      · rfl
      · obtain ⟨packet, -, rfl⟩ := List.mem_map.mp hp
        rfl
    last_closes := hclose
    typed := by
      intro p hp
      rcases List.mem_append.mp hp with hp | hp
      · rcases List.mem_cons.mp hp with rfl | hp
        · trivial
        · obtain ⟨packet, hpacket, rfl⟩ := List.mem_map.mp hp
          exact typed_of_checked (hchecked packet hpacket)
      · rw [List.mem_singleton.mp hp]
        exact hclosing.1
    payload_le := by
      intro p hp
      rcases List.mem_append.mp hp with hp | hp
      · rcases List.mem_cons.mp hp with rfl | hp
        · exact hstart
        · obtain ⟨packet, hpacket, rfl⟩ := List.mem_map.mp hp
          exact payload_le_of_checked (hchecked packet hpacket)
      · rw [List.mem_singleton.mp hp, hclosing.2]
        exact hlast }
  exact @ProgressiveResponse.collects response ⟨segments, none⟩ missing hlive hwhole fun _ => rfl

theorem validateBoundary_boundary (requestId : Uuid) :
    validateBoundary (Server.boundary requestId).toList = .ok () := by
  -- a name and thirty-two hexadecimal digits
  have hdigit : ∀ n < 16, n.digitChar.utf8Size = 1 ∧ isBoundaryCharacter n.digitChar = true ∧
      n.digitChar ≠ ' ' := by
    decide
  have htext : (Server.boundary requestId).toList = ['q', 'w', 'e', 'n', '3', 't', 't', 's', '-']
      ++ (List.range 32).map fun i => (requestId / 16 ^ (31 - i) % 16).digitChar := by
    rw [Server.boundary, String.toList_append, show "qwen3tts-".toList = _ from rfl]
    exact congrArg (_ ++ ·) String.toList_ofList
  have hcharacters : ∀ c ∈ (Server.boundary requestId).toList,
      c.utf8Size = 1 ∧ isBoundaryCharacter c = true ∧ c ≠ ' ' := by
    rw [htext]
    intro c hc
    rcases List.mem_append.mp hc with hc | hc
    · have hname : ∀ c ∈ ['q', 'w', 'e', 'n', '3', 't', 't', 's', '-'],
          c.utf8Size = 1 ∧ isBoundaryCharacter c = true ∧ c ≠ ' ' := by
        simp [isBoundaryCharacter]
        decide
      exact hname c hc
    · obtain ⟨i, -, rfl⟩ := List.mem_map.mp hc
      exact hdigit _ (Nat.mod_lt _ (by decide))
  have hlength : (utf8 (Server.boundary requestId).toList).length = 41 := by
    have hones : ∀ text : Text, (∀ c ∈ text, c.utf8Size = 1) →
        (utf8 text).length = text.length := by
      intro text h
      induction text with
      | nil => rfl
      | cons c text ih =>
        unfold utf8 at ih ⊢
        rw [List.flatMap_cons, List.length_append, String.length_utf8EncodeChar,
          h c List.mem_cons_self, ih fun d hd => h d (List.mem_cons_of_mem _ hd),
          List.length_cons, Nat.add_comm]
    rw [hones _ fun c hc => (hcharacters c hc).1, htext, List.length_append, List.length_map,
      List.length_range]
    rfl
  unfold validateBoundary
  rw [if_neg, if_neg]
  · rintro (hlast | hall)
    · exact (hcharacters ' ' (List.mem_of_mem_getLast? hlast)).2.2 rfl
    · exact hall (List.all_eq_true.mpr fun c hc => (hcharacters c hc).2.1)
  · rintro (hnil | hlong)
    · rw [hnil] at hlength
      exact absurd hlength (by decide)
    · rw [hlength] at hlong
      omega

/-- The client reads with the boundary that the server writes. -/
theorem parsesResponse_iff {head : ResponseHead} {body : BodySegments}
    {result : Except StreamError Outcome} (hhead : ServerHead job head) :
    ParsesResponse json t0 head body result ↔
      ParsesNative json t0 (hyphenated job.requestId).toList
        (.new body (Server.boundary job.requestId).toList) result := by
  have hfirst : (Server.boundary job.requestId).toList.head? ≠ some ' ' := by
    have hchars : (Server.boundary job.requestId).toList.head? = some 'q' := by
      rw [Server.boundary, String.toList_append]
      rfl
    rw [hchars]
    decide
  have hboundary := bare_found (validateBoundary_boundary job.requestId) hfirst
  unfold ParsesResponse
  rw [hhead.requestId, hhead.contentType]
  dsimp only
  rw [hboundary]

/-- A closing part has bytes. -/
theorem closing_ne_nil {serialize : Server.Part → Bytes} {boundary : String} {last : Server.Part}
    (hclose : last.close = true) : last.encode serialize boundary ≠ [] := by
  intro hnil
  have hsuffix := @Server.Part.encode_closes serialize boundary last hclose
  rw [hnil, List.suffix_nil, asBytes_eq] at hsuffix
  refine utf8_ne_nil (fun hempty => ?_) hsuffix
  rw [String.toList_eq_nil_iff] at hempty
  have hlength := congrArg String.length hempty
  simp at hlength
  exact absurd hlength.2 (by decide)

/-- A response that stops behind a packet is cut. -/
theorem cut_not_parsed {segments : List TimedBytes}
    (hstart : (Server.Part.toVec float (.start job.requestId job.seed)).length
      ≤ maxPartPayloadBytes)
    (hchecked : ∀ packet ∈ packets, Checked packet)
    (hlive : ∀ segment ∈ segments, segment.bytes ≠ [])
    (hwhole : segments.flatMap TimedBytes.bytes
      = (.start job.requestId job.seed :: packets.map .audio).flatMap
        (Server.Part.encode (Server.Part.toVec float) (Server.boundary job.requestId)))
    (requestId : Text) (outcome : Outcome) :
    ¬ ParsesNative json t0 requestId
      (.new ⟨segments, none⟩ (Server.boundary job.requestId).toList) (.ok outcome) := by
  -- whatever part had closed it, its bytes are missing
  let last : Server.Part := .error ⟨500, "", "", "", none⟩
  let missing := last.encode (Server.Part.toVec float) (Server.boundary job.requestId)
  have hcut : segments.flatMap TimedBytes.bytes ++ missing
      = (.start job.requestId job.seed :: (packets.map .audio ++ [last])).flatMap
        (Server.Part.encode (Server.Part.toVec float) (Server.boundary job.requestId)) := by
    rw [hwhole, ← List.cons_append, List.flatMap_append, List.flatMap_singleton]
  have hlast : (last.toVec float).length ≤ maxPartPayloadBytes := by
    show (utf8 (ApiError.streamPayload ⟨500, "", "", "", none⟩).text).length ≤ _
    decide
  have hmissing : missing ≠ [] := closing_ne_nil rfl
  obtain ⟨fuel, result, hloop, hresult⟩ :=
    collects_closed rfl hstart hlast hchecked hlive hcut
  rw [if_neg hmissing] at hresult
  rintro ⟨more, looped, hlooped, hfinish⟩
  obtain ⟨p, rfl, -⟩ := bind_eq_ok.mp hfinish
  obtain ⟨parts, hcollects, -⟩ := collects_of_parses [] hlooped
  obtain ⟨e, he⟩ := hresult
  rw [he] at hloop
  cases loop_unique hloop hcollects

/-- The parts that the reader takes out of a whole response. -/
theorem parsed_iff_accepted {last : Server.Part} {segments : List TimedBytes}
    (hclose : last.close = true)
    (hstart : (Server.Part.toVec float (.start job.requestId job.seed)).length
      ≤ maxPartPayloadBytes)
    (hlast : (last.toVec float).length ≤ maxPartPayloadBytes)
    (hchecked : ∀ packet ∈ packets, Checked packet)
    (hlive : ∀ segment ∈ segments, segment.bytes ≠ [])
    (hwhole : segments.flatMap TimedBytes.bytes
      = (.start job.requestId job.seed :: (packets.map .audio ++ [last])).flatMap
        (Server.Part.encode (Server.Part.toVec float) (Server.boundary job.requestId)))
    (json : JsonReader) (t0 : Nat) (requestId : Text) :
    ∃ received, (∀ part ∈ received, Arrived part) ∧
      List.Forall₂ (MultipartReader.IsPart (Server.Part.toVec float))
        (.start job.requestId job.seed :: (packets.map .audio ++ [last])) received ∧
      ∀ outcome, ParsesNative json t0 requestId
        (.new ⟨segments, none⟩ (Server.boundary job.requestId).toList) (.ok outcome) ↔
          acceptParts json t0 requestId received = .ok outcome := by
  have hsent : segments.flatMap TimedBytes.bytes ++ []
      = (.start job.requestId job.seed :: (packets.map .audio ++ [last])).flatMap
        (Server.Part.encode (Server.Part.toVec float) (Server.boundary job.requestId)) := by
    rw [List.append_nil, hwhole]
  -- the client collects the parts the server sent
  obtain ⟨fuel, result, hloop, hresult⟩ :=
    collects_closed hclose hstart hlast hchecked hlive hsent
  rw [if_pos rfl] at hresult
  obtain ⟨received, hresult, hreceived⟩ := hresult
  rw [hresult, List.nil_append] at hloop
  exact ⟨received, parts_arrive hloop, hreceived, fun outcome => parses_iff hloop⟩

/-- The two sides of a stream that no client accepts. -/
theorem rejected {Parses accounted : Outcome → Prop} {ends counted : Prop} (hend : ¬ ends)
    (hnever : ∀ outcome, ¬ Parses outcome) :
    ((∃ outcome, Parses outcome) ↔ ends ∧ counted) ∧
      ∀ outcome, Parses outcome → accounted outcome := by
  refine ⟨⟨?_, fun h => absurd h.1 hend⟩, fun outcome h => absurd h (hnever outcome)⟩
  rintro ⟨outcome, h⟩
  exact absurd h (hnever outcome)

/-- **The client on a stream of the server.** Cut into segments in any way, a response of the
streaming worker has an outcome exactly when the worker sent an end part whose metrics count what
the engine handed out; the outcome then has the samples, finish reason and audio of the engine, and
a record of each of its packets. -/
theorem streamed_response (json : JsonReader) (t0 : Nat) (float : Float → Document) (job : Job)
    (turns : List Turn) (head : ResponseHead) (segments : List TimedBytes)
    (hhead : ServerHead job head) (hreadable : Readable json float job (sentParts job turns))
    (hlive : ∀ segment ∈ segments, segment.bytes ≠ [])
    (hwhole : segments.flatMap TimedBytes.bytes = streamOf float job turns) :
    ((∃ outcome, ParsesResponse json t0 head ⟨segments, none⟩ (.ok outcome)) ↔
      EmitsEnd job turns ∧ Counted job (enginePackets turns)) ∧
    ∀ outcome, ParsesResponse json t0 head ⟨segments, none⟩ (.ok outcome) →
      outcome.packetCount = (enginePackets turns).length ∧
      outcome.samples = sampleCount (enginePackets turns) ∧
      outcome.audio = audioBytes (enginePackets turns) ∧
      (∃ received, List.Forall₂ Received (enginePackets turns) received ∧
        outcome.packets = recordsFrom t0 [] received) ∧
      ∃ reason, Server.Part.finish job.requestId reason job.metrics ∈ sentParts job turns ∧
        outcome.finishReason = reason.name := by
  simp only [parsesResponse_iff hhead]
  obtain ⟨packets, tail, hsent, hchecked, hclosing⟩ := streamed_parts job turns
  change sentParts job turns = _ at hsent
  have hmem : ∀ requestId reason metrics, Server.Part.finish requestId reason metrics
      ∈ sentParts job turns ↔ Server.Part.finish requestId reason metrics ∈ tail := by
    intro requestId reason metrics
    rw [hsent]
    simp
  have hstart : (Server.Part.toVec float (.start job.requestId job.seed)).length
      ≤ maxPartPayloadBytes := by
    refine hreadable.payload_le (.start job.requestId job.seed) ?_ (Option.some_ne_none _)
    rw [hsent]
    exact List.mem_cons_self
  unfold streamOf at hwhole
  rw [hsent] at hwhole
  have hunended : (∀ requestId reason metrics,
      Server.Part.finish requestId reason metrics ∉ tail) → ¬ EmitsEnd job turns := by
    rintro htail ⟨requestId, reason, metrics, hend⟩
    exact htail requestId reason metrics ((hmem _ _ _).mp hend)
  -- a stream ends in one of three ways
  cases hclosing with
  | cut =>
    rw [List.append_nil] at hwhole
    exact rejected (hunended fun _ _ _ h => absurd h List.not_mem_nil)
      (cut_not_parsed hstart hchecked hlive hwhole _)
  | failed error =>
    have herror : Server.Part.error error ∈ sentParts job turns := by
      rw [hsent]
      exact List.mem_cons_of_mem _ (List.mem_append_right _ List.mem_cons_self)
    obtain ⟨received, -, hreceived, hparsed⟩ := parsed_iff_accepted rfl hstart
      (hreadable.payload_le _ herror (Option.some_ne_none _)) hchecked hlive hwhole json t0
      (hyphenated job.requestId).toList
    -- an error part is no end
    refine rejected (hunended fun _ _ _ h => ?_) fun outcome houtcome => ?_
    · cases List.mem_singleton.mp h
    · rw [← List.cons_append] at hreceived
      have hback := List.forall₂_drop_append _ _ _ hreceived.flip
      have hsplit := List.take_append_drop
        (.start job.requestId job.seed :: packets.map Server.Part.audio).length received
      generalize List.drop _ received = back at hback hsplit
      cases hback with
      | cons hlast hnil =>
        cases hnil
        rw [hparsed, ← hsplit] at houtcome
        exact not_accepted_of_error hreadable herror hlast houtcome
  | ended houtcome =>
    rename_i reason
    obtain ⟨hpackets, hcontinues⟩ := outcome_packets houtcome
    rw [hpackets]
    have hend : Server.Part.finish job.requestId reason job.metrics ∈ sentParts job turns :=
      (hmem _ _ _).mpr List.mem_cons_self
    obtain ⟨received, harrived, hreceived, hparsed⟩ := parsed_iff_accepted rfl hstart
      (hreadable.payload_le _ hend (Option.some_ne_none _)) hchecked hlive hwhole json t0
      (hyphenated job.requestId).toList
    rw [← hsent] at hreceived
    -- the end part is accepted when its counts are right
    obtain ⟨audio, haudio, haccepted⟩ := @accepted_iff_counted json t0 float job packets reason _ _
      hreadable hsent hchecked hcontinues harrived hreceived
    simp only [hparsed, haccepted]
    obtain ⟨-, hlength, hsamples⟩ := continues_lt hchecked hcontinues
    refine ⟨⟨fun ⟨_, hcounted, _⟩ => ⟨⟨_, _, _, hend⟩, hcounted⟩,
      fun ⟨_, hcounted⟩ => ⟨_, hcounted, rfl⟩⟩, ?_⟩
    rintro outcome ⟨-, rfl⟩
    refine ⟨?_, ?_, audio_received haudio, ⟨audio, haudio, rfl⟩, reason, hend, rfl⟩
    · show counter audio.length = _
      rw [← haudio.length_eq, counter, Nat.mod_eq_of_lt hlength]
    · show counter (packetSamples audio) = _
      rw [samples_received haudio, counter, Nat.mod_eq_of_lt hsamples]

end

/-! ## Two packets -/

/-- Two packets, and the metrics that count them. -/
def countedJob : Job :=
  { sampleJob with metrics := { emittedSamples := 3840, emittedPackets := 2 } }

/-- The head of the response. -/
def countedHead : ResponseHead where
  status := 200
  headers := [
    ("content-type".toList, mixedType (Server.boundary 1).toList),
    ("x-request-id".toList, (hyphenated 1).toList)]

/-- A float of the default metrics. -/
def zeroDocument (_ : Float) : Document :=
  .number ⟨false, [0], by decide, by decide, [0], none⟩

/-- A number without fraction and exponent. -/
def readWhole (n : Number) : Option Nat :=
  if n.negative = false ∧ n.fraction = [] ∧ n.exponent.isNone then
    some (Nat.ofDigits 10 (n.whole.reverse.map Fin.val))
  else none

/-- A reader of the two events of the response. -/
def countedReader : JsonReader where
  document bytes :=
    [startEvent 1 7, endEvent zeroDocument 1 .stop countedJob.metrics].find? fun document =>
      bytes = utf8 document.text
  numbers := ⟨fun n => (readWhole n).filter (· < 2 ^ 32),
    fun n => (readWhole n).filter (· < 2 ^ 64), fun _ => none, fun _ => none⟩

/-- Such a number is read back. -/
theorem readWhole_ofNat (n : Nat) : readWhole (.ofNat n) = some n := by
  show some (Nat.ofDigits 10 ((decimal n).reverse.map Fin.val)) = some n
  congr 1
  unfold decimal
  split
  · rename_i hzero
    rw [hzero]
    rfl
  · rw [← List.map_reverse, List.reverse_reverse, List.map_map]
    have hdigits : (Nat.digits 10 n).map (Fin.val ∘ Fin.ofNat 10) = Nat.digits 10 n := by
      refine (List.map_congr_left fun d hd => ?_).trans (List.map_id _)
      exact Nat.mod_eq_of_lt (Nat.digits_lt_base (by decide : 1 < 10) hd)
    rw [hdigits, Nat.ofDigits_digits]

/-- The engine gives two packets and stops. -/
theorem outcome_turnsToEnd :
    Server.outcome {} turnsToEnd = some ([framePacket 0 false, framePacket 1 true], .stop) := by
  have hfirst : PacketContinuity.accept {} (framePacket 0 false)
      = .ok ⟨1, 1, 1920, true, false⟩ := by
    simp [PacketContinuity.accept, validatePacket, framePacket, failIf]
    rfl
  have hsecond : PacketContinuity.accept ⟨1, 1, 1920, true, false⟩ (framePacket 1 true)
      = .ok ⟨2, 2, 3840, true, true⟩ := by
    simp [PacketContinuity.accept, validatePacket, framePacket, failIf]
    rfl
  simp [Server.outcome, turnsToEnd, hfirst, hsecond, PacketContinuity.finish, failIf]

/-- The four parts of the stream. -/
theorem sent_countedJob : sentParts countedJob turnsToEnd
    = [.start 1 7, .audio (framePacket 0 false), .audio (framePacket 1 true),
      .finish 1 .stop countedJob.metrics] := by
  have hcalm : Calm turnsToEnd := by simp [Calm, turnsToEnd]
  have hrun := (@stream_some countedJob turnsToEnd _ _ { sent := [.start 1 7] } hcalm rfl rfl
    outcome_turnsToEnd).1
  unfold sentParts runStreamingWorker
  rw [show countedJob.requestId = 1 from rfl, show countedJob.seed = 7 from rfl, hrun]
  rfl

/-- The events of the response. -/
theorem events_countedJob {p : Server.Part} {document : Document}
    (hp : p ∈ sentParts countedJob turnsToEnd) (h : p.event zeroDocument = some document) :
    document = startEvent 1 7 ∨ document = endEvent zeroDocument 1 .stop countedJob.metrics := by
  rw [sent_countedJob] at hp
  simp only [List.mem_cons, List.not_mem_nil, or_false] at hp
  rcases hp with rfl | rfl | rfl | rfl
  · exact .inl (Option.some.inj h).symm
  · cases h
  · cases h
  · exact .inr (Option.some.inj h).symm

/-- The reader reads their two events. -/
theorem readable_countedJob :
    Readable countedReader zeroDocument countedJob (sentParts countedJob turnsToEnd) := by
  have htexts : (utf8 (startEvent 1 7).text).length < 1000 ∧
      (utf8 (endEvent zeroDocument 1 .stop countedJob.metrics).text).length < 1000 ∧
      (utf8 (startEvent 1 7).text)
        ≠ utf8 (endEvent zeroDocument 1 .stop countedJob.metrics).text := by
    decide +kernel
  constructor
  · intro n hn
    unfold countedReader
    dsimp only
    rw [readWhole_ofNat, Option.filter, if_pos (decide_eq_true hn)]
  · intro p hp document hevent
    unfold countedReader
    dsimp only
    -- the start and the end
    rcases events_countedJob hp hevent with rfl | rfl
    · exact List.find?_cons_of_pos (decide_eq_true rfl)
    · rw [List.find?_cons_of_neg]
      · exact List.find?_cons_of_pos (decide_eq_true rfl)
      · rw [decide_eq_true_eq]
        exact Ne.symm htexts.2.2
  · intro p hp hevent
    obtain ⟨document, hdocument⟩ := Option.ne_none_iff_exists'.mp hevent
    have hmaximum : maxPartPayloadBytes = 536870912 := rfl
    rw [Server.Part.toVec, hdocument]
    dsimp only
    rcases events_countedJob hp hdocument with rfl | rfl
    · omega
    · omega
  · decide
  · decide

/-- Both packets are counted. -/
theorem counted_countedJob :
    enginePackets turnsToEnd = [framePacket 0 false, framePacket 1 true] ∧
    EmitsEnd countedJob turnsToEnd ∧ Counted countedJob (enginePackets turnsToEnd) := by
  have hpackets := (outcome_packets outcome_turnsToEnd).1
  refine ⟨hpackets, ⟨1, .stop, countedJob.metrics, ?_⟩, ?_⟩
  · show _ ∈ sentParts countedJob turnsToEnd
    rw [sent_countedJob]
    exact List.mem_cons_of_mem _ (List.mem_cons_of_mem _ (List.mem_cons_of_mem _ List.mem_cons_self))
  · rw [hpackets]
    exact ⟨rfl, rfl, by decide⟩

/-- The response is longer than the samples of a packet. -/
theorem long_countedJob : 3840 < (streamOf zeroDocument countedJob turnsToEnd).length := by
  have hpayload : ((Server.Part.audio (framePacket 1 true)).payload
      (Server.Part.toVec zeroDocument)).length = 3840 := List.length_replicate
  rw [streamOf, sent_countedJob, List.flatMap_cons, List.flatMap_cons, List.flatMap_cons,
    Server.Part.encode, Server.Part.encode, Server.Part.encode]
  simp only [List.length_append, hpayload]
  have hline : 0 < (asBytes "\r\n").length := by
    rw [asBytes_eq]
    decide
  omega

set_option maxRecDepth 20000 in
/-- Two packets, their response cut within the first one. -/
theorem streamed_response_pair : ∃ first second outcome,
    streamOf zeroDocument countedJob turnsToEnd = first ++ second ∧ first.length = 1000 ∧
    ParsesResponse countedReader 0 countedHead ⟨[⟨first, 5⟩, ⟨second, 9⟩], none⟩ (.ok outcome) ∧
    outcome.samples = 3840 ∧ outcome.packets.map (·.firstSample) = [0, 1920] ∧
    outcome.finishReason = "stop" := by
  have hlong := long_countedJob
  obtain ⟨body, hbody⟩ : ∃ body, body = streamOf zeroDocument countedJob turnsToEnd := ⟨_, rfl⟩
  rw [← hbody] at hlong ⊢
  have hfirst : (body.take 1000).length = 1000 := List.length_take_of_le (by omega)
  have hsecond : (body.drop 1000).length = body.length - 1000 := List.length_drop
  have hlive : ∀ segment ∈ [(⟨body.take 1000, 5⟩ : TimedBytes), ⟨body.drop 1000, 9⟩],
      segment.bytes ≠ [] := by
    intro segment hsegment
    rcases List.mem_pair.mp hsegment with rfl | rfl
    · exact List.ne_nil_of_length_pos (Nat.lt_of_lt_of_eq (by decide) hfirst.symm)
    · exact List.ne_nil_of_length_pos (Nat.lt_of_lt_of_eq (by omega) hsecond.symm)
  -- the body is cut behind its first thousand bytes
  have hwhole : [(⟨body.take 1000, 5⟩ : TimedBytes), ⟨body.drop 1000, 9⟩].flatMap TimedBytes.bytes
      = streamOf zeroDocument countedJob turnsToEnd := by
    rw [List.flatMap_cons, List.flatMap_singleton, List.take_append_drop, hbody]
  have hhead : ServerHead countedJob countedHead := ⟨by decide, by decide⟩
  obtain ⟨hpackets, hcounted⟩ := counted_countedJob
  obtain ⟨hends, hall⟩ := streamed_response countedReader 0 zeroDocument countedJob turnsToEnd
    countedHead _ hhead readable_countedJob hlive hwhole
  -- and is accepted
  obtain ⟨outcome, hparses⟩ := hends.mpr hcounted
  obtain ⟨-, hsamples, -, ⟨received, hreceived, hrecords⟩, reason, hmem, hreason⟩ :=
    hall outcome hparses
  rw [hpackets] at hsamples hreceived
  rw [sent_countedJob] at hmem
  refine ⟨_, _, outcome, (List.take_append_drop _ _).symm, hfirst, hparses, hsamples, ?_, ?_⟩
  · obtain ⟨_, _, ⟨_, rfl⟩, hmore, rfl⟩ := List.forall₂_cons_left_iff.mp hreceived
    obtain ⟨_, _, ⟨_, rfl⟩, hnone, rfl⟩ := List.forall₂_cons_left_iff.mp hmore
    rw [hrecords, List.forall₂_nil_left_iff.mp hnone]
    rfl
  · simp at hmem
    rw [hreason, hmem.2]
    rfl

end Qwen3Tts.Bench
