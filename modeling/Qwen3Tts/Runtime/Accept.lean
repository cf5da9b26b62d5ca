import Qwen3Tts.Runtime.Worker

/-!
# Runtime — what `step_eligible` lets through

Every packet a backend returns passes `validate_backend_packet`, the `max_codec_frames` test and
`record_packet` before it is published. `ActiveRequest.Accepted` collects what the three of them
guarantee about the packet and about the record after it, so that nothing else has to look
inside them.
-/

namespace Qwen3Tts.Runtime

/-- The packet passed every test; `owned` and `record` are what is published and kept. -/
structure ActiveRequest.Accepted (a : ActiveRequest) (packet : BackendPacket) (pcm : Pcm)
    (packetFrames now : Nat) (stepMicroseconds : F32) (owned : OwnedAudioPacket)
    (record : RequestRecord) : Prop where
  owned_eq : owned = ⟨a.descriptor packet stepMicroseconds, packet.finishReason, pcm⟩
  positive : 0 < packet.codecFrames
  fits : packet.codecFrames ≤ packetFrames
  terminal : packet.isFinal = packet.finishReason.isTerminal
  bounded : a.record.nextCodecFrame + packet.codecFrames ≤ a.maxCodecFrames
  last : a.record.nextCodecFrame + packet.codecFrames = a.maxCodecFrames → packet.isFinal = true
  id : record.id = a.record.id
  sequence : record.nextPacketSequence = a.record.nextPacketSequence + 1
  frames : record.nextCodecFrame = a.record.nextCodecFrame + packet.codecFrames
  samples : record.nextSample =
    a.record.nextSample + packet.codecFrames * samplesPerCodecFrame
  metrics : record.metrics = (RequestRecord.observe { a.record with
    metrics := { a.record.metrics with
      generatedCodecFrames := a.record.metrics.generatedCodecFrames + packet.codecFrames
      talkerGpuMicroseconds :=
        a.record.metrics.talkerGpuMicroseconds + packet.talkerGpuMicroseconds.toF64
      codecGpuMicroseconds :=
        a.record.metrics.codecGpuMicroseconds + packet.codecGpuMicroseconds.toF64 } }
    packet (durationMicroseconds (now - a.startedAt))).metrics

/-- The causes the tests themselves have. -/
def FailureCause.fromAccept : FailureCause → Bool
  | .invalidPacket _ | .maxCodecFrames | .recordInvariant => true
  | _ => false

/-- Each of the checks fails with a cause of its own. -/
theorem ActiveRequest.accept_error {a : ActiveRequest} {packet : BackendPacket} {pcm : Pcm}
    {packetFrames now : Nat} {stepMicroseconds : F32} {cause : FailureCause}
    (h : a.accept packet pcm packetFrames now stepMicroseconds = .error cause) :
    cause.fromAccept = true := by
  unfold accept at h
  split at h
  · cases h
    rfl
  · dsimp only at h
    split at h
    · cases h
      rfl
    · split at h
      · cases h
        rfl
      · cases h

/-- What `validate_backend_packet` lets through. -/
theorem validateBackendPacket_ok {packet : BackendPacket} {packetFrames : Nat} {pcm : Pcm}
    (h : validateBackendPacket packet packetFrames pcm = .ok ()) :
    (0 < packet.codecFrames ∧ packet.codecFrames ≤ packetFrames) ∧
      packet.isFinal = packet.finishReason.isTerminal := by
  unfold validateBackendPacket at h
  split at h
  · cases h
  · split at h
    · cases h
    · rename_i hframes hfinal
      refine ⟨?_, by simpa using hfinal⟩
      omega

namespace RequestRecord

variable {r r' : RequestRecord}

@[simp] theorem transition_id {next : RequestPhase} : (r.transition next).id = r.id := by
  unfold transition
  split <;> rfl

@[simp] theorem transition_sequence {next : RequestPhase} :
    (r.transition next).nextPacketSequence = r.nextPacketSequence := by
  unfold transition
  split <;> rfl

@[simp] theorem transition_frames {next : RequestPhase} :
    (r.transition next).nextCodecFrame = r.nextCodecFrame := by
  unfold transition
  split <;> rfl

@[simp] theorem transition_samples {next : RequestPhase} :
    (r.transition next).nextSample = r.nextSample := by
  unfold transition
  split <;> rfl

@[simp] theorem transition_metrics {next : RequestPhase} :
    (r.transition next).metrics = r.metrics := by
  unfold transition
  split <;> rfl

/-- A recorded packet advances the three positions by its own size. -/
theorem recordPacket_ok {packet : AudioPacketDescriptor} {packetFrames : Nat}
    (h : r.recordPacket packet packetFrames = .ok r') :
    r' = { r with
      nextPacketSequence := r.nextPacketSequence + 1
      nextCodecFrame := r.nextCodecFrame + packet.codecFrames
      nextSample := r.nextSample + packet.sampleCount
      metrics := { r.metrics with
        generatedCodecFrames := r.metrics.generatedCodecFrames + packet.codecFrames
        talkerGpuMicroseconds :=
          r.metrics.talkerGpuMicroseconds + packet.talkerGpuMicroseconds.toF64
        codecGpuMicroseconds :=
          r.metrics.codecGpuMicroseconds + packet.codecGpuMicroseconds.toF64 } } := by
  -- every branch but the last is an error
  unfold recordPacket at h
  split at h
  · cases h
  · split at h
    · cases h
    · repeat' split at h
      all_goals cases h
      rfl

end RequestRecord

/-- **The gate.** What the three tests of `step_eligible` guarantee together. -/
theorem ActiveRequest.accept_ok {a : ActiveRequest} {packet : BackendPacket} {pcm : Pcm}
    {packetFrames now : Nat} {stepMicroseconds : F32} {owned : OwnedAudioPacket}
    {record : RequestRecord}
    (h : a.accept packet pcm packetFrames now stepMicroseconds = .ok (owned, record)) :
    a.Accepted packet pcm packetFrames now stepMicroseconds owned record := by
  unfold accept at h
  split at h
  · cases h
  · -- the packet is valid in itself
    rename_i hvalid
    obtain ⟨⟨hpositive, hfits⟩, hterminal⟩ := validateBackendPacket_ok hvalid
    dsimp only at h
    split at h
    · cases h
    · -- it stays within the limit, and is final when it reaches it
      rename_i hframes
      rw [not_or, not_and, Bool.not_eq_false, Nat.not_lt] at hframes
      split at h
      · cases h
      · rename_i recorded hrecord
        have hrecorded := RequestRecord.recordPacket_ok hrecord
        have hbase := Except.ok.inj h
        obtain ⟨howned, hrec⟩ := Prod.mk.inj hbase
        -- only the phase depends on whether it is final
        have hlast : record = (if packet.isFinal = true then
            (recorded.observe packet (durationMicroseconds (now - a.startedAt))).transition .draining
          else recorded.observe packet (durationMicroseconds (now - a.startedAt))) := hrec.symm
        refine {
          owned_eq := howned.symm
          positive := hpositive
          fits := hfits
          terminal := hterminal
          bounded := hframes.1
          last := hframes.2
          id := ?_
          sequence := ?_
          frames := ?_
          samples := ?_
          metrics := ?_ }
        all_goals
          rw [hlast]
          split
          all_goals simp [RequestRecord.observe, hrecorded, descriptor]

/-- What the tests ask for is enough: a packet that passes the first two is published. -/
theorem ActiveRequest.accept_of_valid {a : ActiveRequest} {packet : BackendPacket} {pcm : Pcm}
    {packetFrames : Nat} (hphase : a.record.phase = .generating)
    (hvalid : validateBackendPacket packet packetFrames pcm = .ok ())
    (hbounded : a.record.nextCodecFrame + packet.codecFrames ≤ a.maxCodecFrames)
    (hlast : a.record.nextCodecFrame + packet.codecFrames = a.maxCodecFrames →
      packet.isFinal = true) (now : Nat) (stepMicroseconds : F32) :
    ∃ published, a.accept packet pcm packetFrames now stepMicroseconds = .ok published := by
  obtain ⟨⟨hpositive, hfits⟩, -⟩ := validateBackendPacket_ok hvalid
  have hlimit : ¬ (a.maxCodecFrames < a.record.nextCodecFrame + packet.codecFrames
      ∨ (a.record.nextCodecFrame + packet.codecFrames = a.maxCodecFrames
        ∧ packet.isFinal = false)) := by
    rintro (hover | ⟨heq, hfinal⟩)
    · omega
    · rw [hlast heq] at hfinal
      cases hfinal
  -- the descriptor is built from the record, so its own check passes
  have hdescriptor : (a.descriptor packet stepMicroseconds).validate packetFrames = .ok () := by
    unfold AudioPacketDescriptor.validate
    rw [if_neg (by show ¬ packet.codecFrames = 0; omega),
      if_neg (by show ¬ packetFrames < packet.codecFrames; omega),
      if_neg (by simp [descriptor]), if_neg (by simp [descriptor])]
  -- and so do the comparisons with the record
  have hrecord : ∃ record, a.record.recordPacket (a.descriptor packet stepMicroseconds) packetFrames
      = .ok record := by
    unfold RequestRecord.recordPacket
    rw [hdescriptor]
    simp [hphase, descriptor]
  obtain ⟨record, hrecord⟩ := hrecord
  unfold accept
  rw [hvalid]
  dsimp only
  rw [if_neg hlimit, hrecord]
  exact ⟨_, rfl⟩

end Qwen3Tts.Runtime
