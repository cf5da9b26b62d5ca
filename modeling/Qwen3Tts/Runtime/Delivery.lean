import Mathlib.Algebra.BigOperators.Group.List.Basic
import Qwen3Tts.Lib.History
import Qwen3Tts.Runtime.Accept
import Qwen3Tts.Runtime.Invariant

/-!
# Runtime — ordered, gap-free delivery

What the worker published for a request and what `poll` returned to the client, read off the
request's history. `Queue` relates the two through the queue between them; `Numbering` follows
the worker's private `RequestRecord` and shows that every published packet continues the ones
before it (`Next`). Together they are the contract of the audio stream.
-/

namespace Qwen3Tts.Runtime

open Qwen3Tts.Lib

/-! ## Reading a history -/

/-- The packet an event publishes, or hands out. -/
def publishedEvent : Event → Option OwnedAudioPacket
  | .published packet => some packet
  | _ => none

def deliveredEvent : Event → Option OwnedAudioPacket
  | .polled (.packet packet) => some packet
  | _ => none

/-- The packets the worker published, oldest first. -/
def publishedOf (h : List Event) : List OwnedAudioPacket := h.filterMap publishedEvent

/-- The packets `poll` returned, oldest first. -/
def deliveredOf (h : List Event) : List OwnedAudioPacket := h.filterMap deliveredEvent

/-- Both lists, event by event. -/
@[simp] theorem publishedOf_append (h h' : List Event) :
    publishedOf (h ++ h') = publishedOf h ++ publishedOf h' := List.filterMap_append

@[simp] theorem deliveredOf_append (h h' : List Event) :
    deliveredOf (h ++ h') = deliveredOf h ++ deliveredOf h' := List.filterMap_append

@[simp] theorem publishedOf_nil : publishedOf [] = [] := rfl
@[simp] theorem deliveredOf_nil : deliveredOf [] = [] := rfl

@[simp] theorem publishedOf_cons (e : Event) (h : List Event) :
    publishedOf (e :: h) = (publishedEvent e).toList ++ publishedOf h := by
  unfold publishedOf
  cases he : publishedEvent e <;> simp [he]

@[simp] theorem deliveredOf_cons (e : Event) (h : List Event) :
    deliveredOf (e :: h) = (deliveredEvent e).toList ++ deliveredOf h := by
  unfold deliveredOf
  cases he : deliveredEvent e <;> simp [he]

@[simp] theorem publishedOf_session (c : Prop) [Decidable c] (e : Event) :
    publishedOf (if c then [e] else []) = if c then publishedOf [e] else [] := by
  split <;> rfl

@[simp] theorem deliveredOf_session (c : Prop) [Decidable c] (e : Event) :
    deliveredOf (if c then [e] else []) = if c then deliveredOf [e] else [] := by
  split <;> rfl

@[simp] theorem publishedOf_startEvents (result : Except FailureCause BackendStarted) :
    publishedOf (Sys.startEvents result) = [] := by
  cases result <;> rfl

@[simp] theorem deliveredOf_startEvents (result : Except FailureCause BackendStarted) :
    deliveredOf (Sys.startEvents result) = [] := by
  cases result <;> rfl

attribute [simp] publishedEvent deliveredEvent

/-! ## Reading a list of packets -/

/-- A packet that ends the stream. -/
def OwnedAudioPacket.ends (packet : OwnedAudioPacket) : Bool := packet.descriptor.isFinal != 0

/-- The frames of some packets, and their samples. -/
def frames (packets : List OwnedAudioPacket) : Nat :=
  (packets.map (·.descriptor.codecFrames)).sum

def samples (packets : List OwnedAudioPacket) : Nat :=
  (packets.map (·.descriptor.sampleCount)).sum

/-- One of the packets ends the stream. -/
def sawFinal (packets : List OwnedAudioPacket) : Bool := packets.any (·.ends)

/-- The reason given by the last packet, if that one ends the stream. -/
def endReason (packets : List OwnedAudioPacket) : Option FinishReason :=
  packets.getLast?.bind fun last => if last.ends then some last.finishReason else none

section Packets

variable {packets packets' : List OwnedAudioPacket} {packet : OwnedAudioPacket}

/-- Both sums, list by list. -/
@[simp] theorem frames_nil : frames [] = 0 := rfl
@[simp] theorem samples_nil : samples [] = 0 := rfl
@[simp] theorem sawFinal_nil : sawFinal [] = false := rfl

@[simp] theorem frames_append : frames (packets ++ packets') = frames packets + frames packets' := by
  simp [frames]

@[simp] theorem samples_append :
    samples (packets ++ packets') = samples packets + samples packets' := by
  simp [samples]

@[simp] theorem sawFinal_append :
    sawFinal (packets ++ packets') = (sawFinal packets || sawFinal packets') := by
  simp only [sawFinal, List.any_append]

@[simp] theorem frames_singleton : frames [packet] = packet.descriptor.codecFrames := by
  simp [frames]

@[simp] theorem samples_singleton : samples [packet] = packet.descriptor.sampleCount := by
  simp [samples]

@[simp] theorem sawFinal_singleton : sawFinal [packet] = packet.ends := by
  simp [sawFinal]

@[simp] theorem endReason_concat :
    endReason (packets ++ [packet]) = if packet.ends then some packet.finishReason else none := by
  simp [endReason]

/-- A reason can be read off only if there is a last packet that gives it. -/
theorem endReason_eq_some {reason : FinishReason} (h : endReason packets = some reason) :
    ∃ last, packets.getLast? = some last ∧ last.ends = true ∧ last.finishReason = reason := by
  unfold endReason at h
  obtain ⟨last, hlast, hreason⟩ := Option.bind_eq_some_iff.mp h
  refine ⟨last, hlast, ?_⟩
  by_cases hends : last.ends = true
  · simpa [hends] using hreason
  · simp [hends] at hreason

end Packets

/-! ## The queue between worker and client -/

/-- At the moment `poll` reports the end of the stream with reason `r`, everything published has
been returned, and the last packet was final with that reason. -/
def EndsStream (before : List Event) (r : FinishReason) : Prop :=
  deliveredOf before = publishedOf before ∧ endReason (publishedOf before) = some r

/-- Every report of the end of the stream was justified. -/
def EndsJustified (h : List Event) : Prop :=
  Always (fun before e => ∀ r, e = .polled (.endOfStream r) → EndsStream before r) h

structure Queue (l : Local) : Prop where
  /-- Delivered, then queued: nothing lost, doubled or out of order. -/
  queued : l.request.state.cancelRequested = false → l.request.state.failure = none →
    deliveredOf l.request.history ++ l.request.state.packets = publishedOf l.request.history
  delivered : deliveredOf l.request.history <+: publishedOf l.request.history
  finished : sawFinal (publishedOf l.request.history) = true →
    l.request.state.producerFinished = true
  ending : l.request.state.producerFinished = true → l.request.state.cancelRequested = false →
    l.request.state.failure = none →
    endReason (publishedOf l.request.history) = some l.request.state.finishReason
  ended : EndsJustified l.request.history

/-- No other event has to be justified. -/
@[simp] theorem endsJustified_append (h events : List Event)
    (hquiet : ∀ r, .polled (.endOfStream r) ∉ events) :
    EndsJustified (h ++ events) ↔ EndsJustified h := by
  refine always_append fun e he before r hr => ?_
  subst hr
  exact absurd he (hquiet r)

/-- A report of the end of the stream has to be justified when it is made. -/
@[simp] theorem endsJustified_concat (h : List Event) (e : Event) :
    EndsJustified (h ++ [e]) ↔
      EndsJustified h ∧ ∀ r, e = .polled (.endOfStream r) → EndsStream h r := by
  exact always_concat

section

variable {env : Env} {calls : Nat} {label : Label} {l l' : Local}

theorem Queue.step_queued (hl : Queue l) (h : LocalStep env calls label l l') :
    l'.request.state.cancelRequested = false → l'.request.state.failure = none →
      deliveredOf l'.request.history ++ l'.request.state.packets =
        publishedOf l'.request.history := by
  have hqueued := hl.queued
  cases h
  case publish hcancel hfailure _ =>
    intro _ _
    simp [← hqueued hcancel hfailure]
  all_goals simp_all

theorem Queue.step_delivered (hl : Queue l) (h : LocalStep env calls label l l') :
    deliveredOf l'.request.history <+: publishedOf l'.request.history := by
  have hdelivered := hl.delivered
  have hqueued := hl.queued
  cases h
  case pollPacket packet rest hfailure hcancel hpackets =>
    -- the head of the queue is the packet after the ones delivered
    have h := hqueued hcancel hfailure
    rw [hpackets] at h
    refine ⟨rest, ?_⟩
    simpa using h
  case publish r a packet metrics _ _ _ =>
    have hgrow : publishedOf r.history <+: publishedOf r.history ++ [packet] :=
      List.prefix_append _ _
    simpa using hdelivered.trans hgrow
  all_goals simp_all

theorem Queue.step_finished (hl : Queue l) (h : LocalStep env calls label l l') :
    sawFinal (publishedOf l'.request.history) = true →
      l'.request.state.producerFinished = true := by
  have hfinished := hl.finished
  cases h
  case publish r a packet metrics _ _ _ =>
    intro hsaw
    have hcases : sawFinal (publishedOf r.history) = true ∨ packet.ends = true := by
      simpa using hsaw
    rcases hcases with hold | hnew
    · have hproducer : r.shared.state.producerFinished = true := hfinished hold
      simp [hproducer]
    · simp [show packet.descriptor.isFinal ≠ 0 by simpa [OwnedAudioPacket.ends] using hnew]
  all_goals simp_all

/-- The producer only finishes without an error by publishing a final packet. -/
theorem Queue.step_ending (hl : Queue l) (hlife : Lifecycle l)
    (h : LocalStep env calls label l l') :
    l'.request.state.producerFinished = true → l'.request.state.cancelRequested = false →
      l'.request.state.failure = none →
      endReason (publishedOf l'.request.history) = some l'.request.state.finishReason := by
  have hending := hl.ending
  have hfresh := hlife.fresh
  have hproducing := hlife.producing
  cases h
  case publish => simp_all [OwnedAudioPacket.ends]
  all_goals simp_all

theorem Queue.step_ended (hl : Queue l) (h : LocalStep env calls label l l') :
    EndsJustified l'.request.history := by
  have hended := hl.ended
  cases h
  case enter => exact (endsJustified_append [] _ (by simp)).mpr hended
  case pollEnd r v hfailure hcancel hpackets hproducer =>
    refine (endsJustified_concat _ _).mpr ⟨hended, fun reason hreason => ?_⟩
    cases hreason
    have hqueued := hl.queued hcancel hfailure
    rw [hpackets, List.append_nil] at hqueued
    exact ⟨hqueued, hl.ending hproducer hcancel hfailure⟩
  all_goals simp_all

theorem queue_inductive : Inductive anyLabel fun _ l => Lifecycle l ∧ Queue l := by
  refine lifecycle_inductive.and (fun _ _ => ?_) (fun _ h => h) fun _ _ h hlife hl => {
    queued := hl.step_queued h
    delivered := hl.step_delivered h
    finished := hl.step_finished h
    ending := hl.step_ending hlife h
    ended := hl.step_ended h }
  constructor
  case ended => exact always_nil
  all_goals simp

end

/-! ## Numbering -/

/-- `packet` continues the packets in `before`: it is numbered after them, has the size the
configuration and the limit of the request allow, and none of them ended the stream. -/
structure Next (packetFrames limit : Nat) (before : List OwnedAudioPacket)
    (packet : OwnedAudioPacket) : Prop where
  sequence : packet.descriptor.sequence = before.length
  firstCodecFrame : packet.descriptor.firstCodecFrame = frames before
  firstSample : packet.descriptor.firstSample = samples before
  positive : 1 ≤ packet.descriptor.codecFrames
  fits : packet.descriptor.codecFrames ≤ packetFrames
  sampleCount : packet.descriptor.sampleCount = 1920 * packet.descriptor.codecFrames
  bounded : frames before + packet.descriptor.codecFrames ≤ limit
  last : frames before + packet.descriptor.codecFrames = limit → packet.ends = true
  terminal : packet.ends = true → packet.finishReason ≠ .none
  opened : sawFinal before = false

/-- The positions the record keeps are those of the packet after `packets`. -/
structure RequestRecord.Counts (r : RequestRecord) (packets : List OwnedAudioPacket) : Prop where
  sequence : r.nextPacketSequence = packets.length
  frames : r.nextCodecFrame = frames packets
  samples : r.nextSample = samples packets

section

variable {a : ActiveRequest} {packet : BackendPacket} {pcm : Pcm} {packetFrames now : Nat}
  {stepMicroseconds : F32} {owned : OwnedAudioPacket} {record : RequestRecord}
  {before : List OwnedAudioPacket}

/-- The record after an accepted packet counts it. -/
theorem ActiveRequest.Accepted.counts
    (h : a.Accepted packet pcm packetFrames now stepMicroseconds owned record)
    (hbefore : a.record.Counts before) : record.Counts (before ++ [owned]) where
  sequence := by
    rw [h.sequence, hbefore.sequence, List.length_append, List.length_singleton]
  frames := by
    rw [h.frames, hbefore.frames, frames_append, frames_singleton, h.owned_eq]
    rfl
  samples := by
    rw [h.samples, hbefore.samples, samples_append, samples_singleton, h.owned_eq]
    rfl

/-- An accepted packet continues what the record counted so far. -/
theorem ActiveRequest.Accepted.next
    (h : a.Accepted packet pcm packetFrames now stepMicroseconds owned record)
    (hbefore : a.record.Counts before) (hopened : sawFinal before = false) :
    Next packetFrames a.maxCodecFrames before owned := by
  have hends : owned.ends = packet.isFinal := by
    rw [h.owned_eq]
    cases hfinal : packet.isFinal with
    | true => simp [OwnedAudioPacket.ends, descriptor, hfinal]
    | false => simp [OwnedAudioPacket.ends, descriptor, hfinal]
  have hframes : owned.descriptor.codecFrames = packet.codecFrames := by rw [h.owned_eq]; rfl
  have hbounded := h.bounded
  have hlast := h.last
  rw [hbefore.frames, ← hframes] at hbounded hlast
  exact {
    sequence := by rw [h.owned_eq]; exact hbefore.sequence
    firstCodecFrame := by rw [h.owned_eq]; exact hbefore.frames
    firstSample := by rw [h.owned_eq]; exact hbefore.samples
    positive := by rw [hframes]; exact h.positive
    fits := by rw [hframes]; exact h.fits
    sampleCount := by rw [h.owned_eq]; exact Nat.mul_comm _ _
    bounded := hbounded
    last := fun heq => by rw [hends]; exact hlast heq
    terminal := fun hfinal hreason => by
      rw [hends, h.terminal] at hfinal
      rw [h.owned_eq] at hreason
      rw [show packet.finishReason = FinishReason.none from hreason] at hfinal
      cases hfinal
    opened := hopened }

end

/-- The limit of the request, once it was admitted. -/
def limitOf (h : List Event) : Option Nat :=
  h.findSome? fun e =>
    match e with
    | .admitted generation => some generation.maxCodecFrames
    | _ => none

/-- Only the admission sets the limit. -/
@[simp] theorem limitOf_append (h events : List Event)
    (hquiet : ∀ generation, .admitted generation ∉ events) :
    limitOf (h ++ events) = limitOf h := by
  have hnone : limitOf events = none := by
    refine List.findSome?_eq_none_iff.mpr fun e he => ?_
    cases e with
    | admitted generation => exact absurd he (hquiet generation)
    | _ => rfl
  unfold limitOf at hnone ⊢
  rw [List.findSome?_append, hnone, Option.or_none]

/-- Where the worker's record is kept in step with the packets it published. -/
@[simp] def recordOwner : Option Stage → Option ActiveRequest
  | some (.active a) | some (.eligible a) | some (.poolEmpty a) | some (.selected a _)
  | some (.stepped a _ _) | some (.settling a (.push _ _)) | some (.settled a) => some a
  | _ => none

/-- The packet about to be published, which the record already counts. -/
@[simp] def pushing : Option Stage → Option OwnedAudioPacket
  | some (.settling _ (.push packet _)) => some packet
  | _ => none

/-- The limit the worker works with. -/
@[simp] def stageLimit : Option Stage → Option Nat
  | some (.waiting p) | some (.ready p) | some (.prefilling p) | some (.outcome p _)
  | some (.snapshot p) => some p.request.generation.maxCodecFrames
  | some (.active a) | some (.eligible a) | some (.poolEmpty a) | some (.selected a _)
  | some (.stepped a _ _) | some (.settling a _) | some (.settled a) => some a.maxCodecFrames
  | _ => none

structure Numbering (packetFrames : Nat) (l : Local) : Prop where
  limit : ∀ limit, stageLimit l.stage = some limit → limitOf l.request.history = some limit
  fresh : isFresh l.stage = true → publishedOf l.request.history = []
  counts : ∀ a, recordOwner l.stage = some a → l.request.state.cancelRequested = false →
    l.request.state.failure = none →
    a.record.Counts (publishedOf l.request.history ++ (pushing l.stage).toList)
  next : ∀ packet limit, pushing l.stage = some packet →
    limitOf l.request.history = some limit → l.request.state.cancelRequested = false →
    Next packetFrames limit (publishedOf l.request.history) packet
  numbered : ∀ limit, limitOf l.request.history = some limit →
    Always (Next packetFrames limit) (publishedOf l.request.history)

section

variable {env : Env} {calls : Nat} {label : Label} {l l' : Local} {packetFrames : Nat}

theorem Numbering.step_limit (hl : Numbering packetFrames l)
    (h : LocalStep env calls label l l') :
    ∀ limit, stageLimit l'.stage = some limit → limitOf l'.request.history = some limit := by
  have hlimit := hl.limit
  cases h
  case enter hgen _ =>
    intro limit hlimit
    subst hgen
    exact hlimit
  all_goals simp_all

theorem Numbering.step_fresh (hl : Numbering packetFrames l)
    (h : LocalStep env calls label l l') :
    isFresh l'.stage = true → publishedOf l'.request.history = [] := by
  have hfresh := hl.fresh
  cases h
  all_goals simp_all

theorem Numbering.step_counts (hl : Numbering packetFrames l)
    (h : LocalStep env calls label l l') :
    ∀ a, recordOwner l'.stage = some a → l'.request.state.cancelRequested = false →
      l'.request.state.failure = none →
      a.record.Counts (publishedOf l'.request.history ++ (pushing l'.stage).toList) := by
  have hcounts := hl.counts
  have hfresh := hl.fresh
  cases h
  case snapshot r p =>
    rintro a ha - -
    cases ha
    have hnone : publishedOf r.history = [] := hfresh rfl
    simp only [hnone, pushing, Option.toList_none, List.append_nil]
    constructor <;> simp [RequestRecord.new]
  case settleAccepted r a entry packet owned record _ haccept =>
    rintro a' ha' hcancel hfailure
    cases ha'
    have hbefore := hcounts a rfl hcancel hfailure
    simp only [pushing, Option.toList_none, List.append_nil] at hbefore
    exact (ActiveRequest.accept_ok haccept).counts hbefore
  all_goals simp_all

theorem Numbering.step_next (hl : Numbering env.config.packetFrames l) (hlife : Lifecycle l)
    (hqueue : Queue l) (h : LocalStep env calls label l l') :
    ∀ packet limit, pushing l'.stage = some packet → limitOf l'.request.history = some limit →
      l'.request.state.cancelRequested = false →
      Next env.config.packetFrames limit (publishedOf l'.request.history) packet := by
  have hnext := hl.next
  cases h
  case settleAccepted r a entry packet owned record _ haccept =>
    rintro packet' limit hpacket hlimit hcancel
    cases hpacket
    have hown : limitOf r.history = some a.maxCodecFrames := hl.limit _ rfl
    obtain rfl : limit = a.maxCodecFrames := Option.some.inj (hlimit.symm.trans hown)
    obtain ⟨hfailure, hproducer⟩ := hlife.producing rfl
    have hbefore := hl.counts a rfl hcancel hfailure
    simp only [pushing, Option.toList_none, List.append_nil] at hbefore
    refine (ActiveRequest.accept_ok haccept).next hbefore ?_
    -- a final packet would have finished the producer, and only a cancel does so at this stage
    by_contra hsaw
    have hflag := hproducer (hqueue.finished (by simpa using hsaw))
    rw [hcancel] at hflag
    cases hflag
  all_goals simp_all

theorem Numbering.step_numbered (hl : Numbering packetFrames l)
    (h : LocalStep env calls label l l') :
    ∀ limit, limitOf l'.request.history = some limit →
      Always (Next packetFrames limit) (publishedOf l'.request.history) := by
  have hnumbered := hl.numbered
  cases h
  case enter =>
    intro limit _
    exact always_nil
  case publish r a packet metrics hcancel _ _ =>
    intro limit hlimit
    have hold : limitOf r.history = some limit := by simpa using hlimit
    have hall := always_concat.mpr ⟨hnumbered limit hold, hl.next packet limit rfl hold hcancel⟩
    simpa using hall
  all_goals simp_all

/-- **The stream invariant**: every published packet continues the ones before it, and the
queue loses and reorders nothing. -/
theorem delivery_inductive : Inductive anyLabel fun env l =>
    (Lifecycle l ∧ Queue l) ∧ Numbering env.config.packetFrames l := by
  refine queue_inductive.and (fun _ _ => ?_) (fun hlater h => ?_) fun _ _ h hold hl => {
    limit := hl.step_limit h
    fresh := hl.step_fresh h
    counts := hl.step_counts h
    next := hl.step_next hold.1 hold.2 h
    numbered := hl.step_numbered h }
  · constructor
    case numbered => exact fun _ _ => always_nil
    all_goals simp
  · rw [hlater.config]
    exact h

end

/-! ## The contract of the stream -/

/-- What the client of one request gets, against what the worker published for it. -/
structure Delivery (packetFrames limit : Nat) (h : List Event) : Prop where
  inOrder : deliveredOf h <+: publishedOf h
  /-- Numbers, positions, sizes and the limit, packet by packet. -/
  numbered : Always (Next packetFrames limit) (deliveredOf h)
  /-- No packet follows a final one, so there is at most one. -/
  final : ∀ before packet after, deliveredOf h = before ++ packet :: after →
    packet.ends = true → after = []
  bounded : frames (deliveredOf h) ≤ limit
  /-- The end of the stream comes after everything that is ever published, with the reason of
  the final packet. -/
  ended : ∀ before r after, h = before ++ .polled (.endOfStream r) :: after →
    deliveredOf before = publishedOf h ∧ r ≠ .none ∧
      ∃ last, (deliveredOf before).getLast? = some last ∧ last.ends = true ∧ last.finishReason = r

section

variable {packetFrames limit : Nat} {packets : List OwnedAudioPacket}

/-- Nothing follows a packet that ends the stream. -/
theorem nothing_after_final (hall : Always (Next packetFrames limit) packets)
    {before after : List OwnedAudioPacket} (hsplit : packets = before ++ after)
    (hsaw : sawFinal before = true) : after = [] := by
  cases after with
  | nil => rfl
  | cons packet rest =>
    have hopened := (hall before packet rest hsplit).opened
    rw [hsaw] at hopened
    cases hopened

theorem frames_le_limit (hall : Always (Next packetFrames limit) packets) :
    frames packets ≤ limit := by
  rcases List.eq_nil_or_concat packets with rfl | ⟨init, last, rfl⟩
  · exact Nat.zero_le _
  · rw [List.concat_eq_append] at hall ⊢
    have hbounded := (hall init last [] rfl).bounded
    rwa [frames_append, frames_singleton]

end

/-- **Exact, ordered, gap-free delivery** in every reachable state. -/
theorem delivery_exact {config : EngineConfig} {s : Sys} (h : Reachable config s) (id : Nat)
    {generation : GenerationConfig}
    (hadmitted : (s.requests id).history.head? = some (.admitted generation)) :
    Delivery config.packetFrames generation.maxCodecFrames (s.requests id).history := by
  obtain ⟨⟨-, hqueue⟩, hnumbering⟩ := delivery_inductive.reachable h id
  have hconfig : s.env.config = config := h.config_eq
  rw [hconfig] at hnumbering
  have hlimit : limitOf (s.requests id).history = some generation.maxCodecFrames := by
    obtain ⟨rest, hrest⟩ := List.head?_eq_some_iff.mp hadmitted
    rw [hrest]
    rfl
  have hpublished : Always (Next config.packetFrames generation.maxCodecFrames)
      (publishedOf (s.requests id).history) := hnumbering.numbered _ hlimit
  have hdelivered := hpublished.of_prefix hqueue.delivered
  refine {
    inOrder := hqueue.delivered
    numbered := hdelivered
    final := fun before packet after hsplit hends => ?_
    bounded := frames_le_limit hdelivered
    ended := fun before r after hsplit => ?_ }
  · have hsplit' : deliveredOf (s.requests id).history = (before ++ [packet]) ++ after := by
      simp [hsplit]
    refine nothing_after_final hdelivered hsplit' ?_
    simp [hends]
  · obtain ⟨hall, hreason⟩ := hqueue.ended before _ after hsplit r rfl
    obtain ⟨last, hlast, hends, hr⟩ := endReason_eq_some hreason
    have hsplit' : publishedOf (s.requests id).history
        = publishedOf before ++ publishedOf after := by
      rw [hsplit]
      simp
    have hmem : last ∈ publishedOf before := List.mem_of_getLast? hlast
    have hsaw : sawFinal (publishedOf before) = true := List.any_eq_true.mpr ⟨last, hmem, hends⟩
    have hnil := nothing_after_final hpublished hsplit' hsaw
    rw [hsplit', hnil, List.append_nil, hall]
    refine ⟨rfl, ?_, last, hlast, hends, hr⟩
    -- the final packet's own reason is not `none`
    obtain ⟨init, hinit⟩ := List.getLast?_eq_some_iff.mp hlast
    have hnext := hpublished init last (publishedOf after) (by rw [hsplit', hinit]; simp)
    rw [← hr]
    exact hnext.terminal hends

set_option maxRecDepth 20000 in
/-- A stream of one packet, received to its end. -/
theorem delivery_exact_single :
    ∃ s, run Sys.step (.init smallConfig) runToEnd = some s ∧
      frames (deliveredOf (s.requests 1).history) = 1 ∧ Delivery 1 1 (s.requests 1).history := by
  have hrun : (run Sys.step (.init smallConfig) runToEnd).map
      (fun s => ((s.requests 1).history.head?, frames (deliveredOf (s.requests 1).history))) =
        some (some (.admitted { GenerationConfig.default with maxCodecFrames := 1 }), 1) := by
    decide
  obtain ⟨s, hs, hresult⟩ := Option.map_eq_some_iff.mp hrun
  obtain ⟨hadmitted, hframes⟩ := Prod.mk.inj hresult
  exact ⟨s, hs, hframes, delivery_exact ⟨by decide, runToEnd, hs⟩ 1 hadmitted⟩

end Qwen3Tts.Runtime
