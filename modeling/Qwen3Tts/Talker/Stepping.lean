import Qwen3Tts.Runtime.Accept
import Qwen3Tts.Talker.NativeBackend
import Mathlib.Algebra.BigOperators.Group.List.Basic

/-!
# Talker — stepping a session to its last packet

The talker of a session follows a stream of native frames: each frame has its codes and the token
behind it, and the stream ends for the session with the first end-of-stream token or with the last
frame that was asked for. `talkerAt` is the session in front of a frame of the stream, the two
loops of `native_backend.rs` walk from one such session to another, and what a run of steps hands to
the codec and to the scheduler follows from where the walk stands.
-/

namespace Qwen3Tts.Talker.Backend

open Qwen3Tts.Lib Qwen3Tts.Runtime

/-! ## Streams -/

/-- A session as `start_session` lets it pass: no frame is emitted and the prefill has not ended
it. -/
structure Fresh (base : NativeTalkerSession) : Prop where
  framesEmitted : base.framesEmitted = 0
  endReason : base.endReason = none
  currentSemantic : base.currentSemantic ≠ base.codecEosToken
  maxFrames : 1 ≤ base.maxFrames

section Stream

variable (base : NativeTalkerSession) (frame : Nat → NativeFrame)

/-- The frame with the first end-of-stream token, where there is one below the limit. -/
def eosIndex : Nat :=
  (List.range base.maxFrames).findIdx fun i => (frame i).nextSemanticToken = base.codecEosToken

/-- The frames that the session emits. -/
def totalFrames : Nat := min base.maxFrames (eosIndex base frame + 1)

/-- The end reason behind a frame of the stream. -/
def endReasonAt (index : Nat) : Option SessionEndReason :=
  if (frame index).nextSemanticToken = base.codecEosToken then some .codecEos
  else if base.maxFrames ≤ index + 1 then some .maxFrames
  else none

/-- The session in front of a frame of the stream. -/
def talkerAt : Nat → NativeTalkerSession
  | 0 => base
  | e + 1 => { base with
      framesEmitted := e + 1
      currentSemantic := (frame e).nextSemanticToken
      endReason := endReasonAt base frame e }

/-- The reason that the last packet carries. -/
def finalReason : FinishReason :=
  if eosIndex base frame < base.maxFrames then .codecEos else .maxCodecFrames

end Stream

/-- What the libraries answer when every call succeeds: the frames of the stream with consistent
EOS flags, on either path. -/
structure Succeeds (lib : Libraries) (base : NativeTalkerSession) (frame : Nat → NativeFrame) :
    Prop where
  flag : ∀ i, (frame i).nextSemanticToken = base.codecEosToken ↔ (frame i).info.endedByEos ≠ 0
  /-- The token ids of the trailing text fit the native type. -/
  text : ∀ i, ∃ id, lib.model.config.textSourceId (base.trailingText.getD i .ttsPad) = .ok id
  nextFrame : ∀ i, lib.nextFrame i = .ok (frame i)
  deviceFrameApi : lib.model.deviceFrameApi = true
  beginFrame : ∀ i, ∃ view, lib.beginFrame i = .ok view ∧ lib.pump i = .view view
    ∧ view.validate lib.model.deviceIndex = .ok ()
  codesAt : ∀ i, lib.codesAt i = (frame i).codes
  finish : ∀ i, lib.finish i = .ok ⟨(frame i).nextSemanticToken, (frame i).info⟩
  cuda : ∀ i, lib.selectDevice i = 0 ∧ lib.streamWaitEvent i = 0 ∧ lib.memcpyAsync i = 0
    ∧ lib.eventRecord i = 0
  decode : ∀ log frames isFinal, ∃ result samples, lib.decode log frames isFinal
    = .ok (result, samples) ∧ ¬ result.Inconsistent frames.length isFinal
  devicePacket : lib.devicePacket = true
  beginPacket : ∀ log frames, ∃ output, lib.beginPacket log frames = .ok output
    ∧ output.codesConsumedEvent ≠ 0 ∧ output.ticketId ≠ 0

section Talker

variable {lib : Libraries} {base : NativeTalkerSession} {frame : Nat → NativeFrame} {e : Nat}

/-- Before `eosIndex` no frame ends the stream, -/
theorem not_eos_of_lt (h : e < eosIndex base frame) :
    (frame e).nextSemanticToken ≠ base.codecEosToken := by
  have hfind := List.not_of_lt_findIdx h
  simpa using hfind

/-- it is at most the limit on the frames, -/
theorem eosIndex_le (base : NativeTalkerSession) (frame : Nat → NativeFrame) :
    eosIndex base frame ≤ base.maxFrames := by
  have hle : (List.range base.maxFrames).findIdx
      (fun i => decide ((frame i).nextSemanticToken = base.codecEosToken))
      ≤ (List.range base.maxFrames).length := List.findIdx_le_length
  rwa [List.length_range] at hle

/-- and below that limit its frame is the one that ends the stream. -/
theorem eos_of_lt (h : eosIndex base frame < base.maxFrames) :
    (frame (eosIndex base frame)).nextSemanticToken = base.codecEosToken := by
  have hlength : eosIndex base frame < (List.range base.maxFrames).length := by
    rwa [List.length_range]
  have hvalue : (List.range base.maxFrames)[eosIndex base frame] = eosIndex base frame :=
    List.getElem_range hlength
  have hfind : decide ((frame (List.range base.maxFrames)[eosIndex base frame]).nextSemanticToken
      = base.codecEosToken) = true := List.findIdx_getElem (w := hlength)
  rw [hvalue] at hfind
  exact of_decide_eq_true hfind

/-- There is at least one frame, -/
theorem totalFrames_pos (frame : Nat → NativeFrame) (hbase : Fresh base) : 0 < totalFrames base frame := by
  have hmax := hbase.maxFrames
  unfold totalFrames
  omega

/-- and at most the limit. -/
theorem totalFrames_le (base : NativeTalkerSession) (frame : Nat → NativeFrame) :
    totalFrames base frame ≤ base.maxFrames := min_le_left _ _

/-- A frame before the last one neither ends the stream nor reaches the limit. -/
theorem lt_of_lt_total (h : e + 1 < totalFrames base frame) :
    e < eosIndex base frame ∧ e + 1 < base.maxFrames := by
  unfold totalFrames at h
  omega

/-- The stream goes on behind every frame but the last. -/
theorem endReasonAt_none (h : e + 1 < totalFrames base frame) :
    endReasonAt base frame e = none := by
  obtain ⟨heos, hmax⟩ := lt_of_lt_total h
  unfold endReasonAt
  rw [if_neg (not_eos_of_lt heos), if_neg (by omega)]

/-- Behind the last frame the reason is the token's where it ends the stream, and otherwise the
limit's. -/
theorem endReasonAt_last (h : e + 1 = totalFrames base frame) :
    endReasonAt base frame e = some
      (if eosIndex base frame < base.maxFrames then .codecEos else .maxFrames) := by
  have hle := eosIndex_le base frame
  unfold totalFrames at h
  unfold endReasonAt
  by_cases heos : eosIndex base frame < base.maxFrames
  · have hindex : e = eosIndex base frame := by omega
    rw [hindex, if_pos (eos_of_lt heos), if_pos heos]
  · rw [if_neg (not_eos_of_lt (by omega)), if_pos (by omega), if_neg heos]

/-- The end token and the limit stay. -/
theorem talkerAt_pooled (base : NativeTalkerSession) (frame : Nat → NativeFrame) (e : Nat) :
    (talkerAt base frame e).codecEosToken = base.codecEosToken
    ∧ (talkerAt base frame e).maxFrames = base.maxFrames := by
  cases e with
  | zero => exact ⟨rfl, rfl⟩
  | succ e => exact ⟨rfl, rfl⟩

/-- The number of frames. -/
theorem talkerAt_framesEmitted (frame : Nat → NativeFrame) (e : Nat) (hbase : Fresh base) :
    (talkerAt base frame e).framesEmitted = e := by
  cases e with
  | zero => exact hbase.framesEmitted
  | succ e => rfl

/-- The stream has not ended before its last frame, -/
theorem talkerAt_endReason (hbase : Fresh base) (h : e < totalFrames base frame) :
    (talkerAt base frame e).endReason = none := by
  cases e with
  | zero => exact hbase.endReason
  | succ e => exact endReasonAt_none h

/-- and has behind it. -/
theorem talkerAt_isEnded (hbase : Fresh base) (h : e ≤ totalFrames base frame) :
    (talkerAt base frame e).isEnded = decide (e = totalFrames base frame) := by
  rcases Nat.lt_or_eq_of_le h with hlt | heq
  · have hnone := talkerAt_endReason hbase hlt
    unfold NativeTalkerSession.isEnded
    rw [hnone, decide_eq_false (Nat.ne_of_lt hlt)]
    rfl
  · have hpos := totalFrames_pos frame hbase
    cases e with
    | zero => omega
    | succ e =>
      have hlast := endReasonAt_last heq
      rw [decide_eq_true heq]
      show (endReasonAt base frame e).isSome = true
      rw [hlast]
      rfl

/-- The limit is not reached before. -/
theorem talkerAt_exhausted (hbase : Fresh base) (h : e < totalFrames base frame) :
    (talkerAt base frame e).exhausted = none := by
  have hreason := talkerAt_endReason hbase h
  have hemitted := talkerAt_framesEmitted frame e hbase
  have hle := totalFrames_le base frame
  have hsemantic : (talkerAt base frame e).currentSemantic ≠ base.codecEosToken := by
    cases e with
    | zero => exact hbase.currentSemantic
    | succ e => exact not_eos_of_lt (lt_of_lt_total h).1
  unfold NativeTalkerSession.exhausted
  obtain ⟨heos, hmax⟩ := talkerAt_pooled base frame e
  rw [hreason, hemitted, heos, hmax]
  rw [if_neg (by simp), if_neg (by omega), if_neg hsemantic]

/-- What both paths make of a session behind a frame is the session in front of the next. -/
theorem talkerAt_succ (hbase : Fresh base) (h : e < totalFrames base frame) :
    let s : NativeTalkerSession := { talkerAt base frame e with
      framesEmitted := (talkerAt base frame e).framesEmitted + 1
      currentSemantic := (frame e).nextSemanticToken }
    ({ s with endReason := s.reasonAfter (decide ((frame e).nextSemanticToken
        = (talkerAt base frame e).codecEosToken)) } : NativeTalkerSession)
      = talkerAt base frame (e + 1) := by
  have hreason := talkerAt_endReason hbase h
  have hemitted := talkerAt_framesEmitted frame e hbase
  have heos := talkerAt_pooled base frame e
  simp only [NativeTalkerSession.reasonAfter, hreason, hemitted, heos.1, heos.2,
    decide_eq_true_eq]
  cases e <;> rfl

/-- There is a text token, or padding, for each frame. -/
theorem talkerAt_textId (hlib : Succeeds lib base frame) :
    ∃ id, (talkerAt base frame e).textId lib.model = .ok id := by
  have htext : (talkerAt base frame e).trailingText = base.trailingText := by
    cases e <;> rfl
  obtain ⟨id, hid⟩ := hlib.text (talkerAt base frame e).framesEmitted
  refine ⟨id, ?_⟩
  unfold NativeTalkerSession.textId
  rw [htext, hid]

/-! ## One frame -/

/-- A frame of the host path takes the session to the next one. -/
theorem nextFrame_talkerAt (hlib : Succeeds lib base frame) (hbase : Fresh base)
    (h : e < totalFrames base frame) :
    ∃ out : StreamingCodecFrame, (talkerAt base frame e).nextFrame lib.model (.ok (frame e))
        = (talkerAt base frame (e + 1), .ok (some out))
      ∧ out.codes = (frame e).codes
      ∧ out.talkerGpuMilliseconds = (frame e).info.talkerGpuMilliseconds
      ∧ out.predictorGpuMilliseconds = (frame e).info.predictorGpuMilliseconds := by
  obtain ⟨id, hid⟩ := talkerAt_textId (e := e) hlib
  have hreason := talkerAt_endReason hbase h
  have hemitted := talkerAt_framesEmitted frame e hbase
  have hflag := hlib.flag e
  have hagree : ¬ decide ((frame e).nextSemanticToken = (talkerAt base frame e).codecEosToken)
      ≠ decide ((frame e).info.endedByEos ≠ 0) := by
    rw [(talkerAt_pooled base frame e).1, not_not]
    exact decide_eq_decide.mpr hflag
  unfold NativeTalkerSession.nextFrame
  rw [talkerAt_exhausted hbase h, hid]
  dsimp only
  rw [if_neg hagree]
  refine ⟨_, Prod.ext ?_ rfl, rfl, rfl, rfl⟩
  exact talkerAt_succ hbase h


/-- A valid view is lent. -/
theorem lend_valid {s : NativeTalkerSession} {view : NativeDeviceFrameView}
    (hview : view.validate lib.model.deviceIndex = .ok ()) :
    s.lend lib.model view = (s, .ok (some view)) := by
  unfold NativeTalkerSession.lend
  rw [hview]

/-- A frame of the device path is lent out by whichever of the two calls begins it. -/
theorem begin_talkerAt (hlib : Succeeds lib base frame) (hbase : Fresh base)
    (h : e < totalFrames base frame) {view : NativeDeviceFrameView}
    (hview : view.validate lib.model.deviceIndex = .ok ()) :
    (talkerAt base frame e).beginDeviceFrameBatched lib.model (.ok view) (.view view)
      = (talkerAt base frame e, .ok (some view)) := by
  obtain ⟨id, hid⟩ := talkerAt_textId (e := e) hlib
  have hexhausted := talkerAt_exhausted hbase h
  have hdirect : (talkerAt base frame e).beginDeviceFrame lib.model (.ok view)
      = (talkerAt base frame e, .ok (some view)) := by
    unfold NativeTalkerSession.beginDeviceFrame
    rw [hexhausted, hid, hlib.deviceFrameApi]
    exact lend_valid hview
  have hbatched : (talkerAt base frame e).beginBatched lib.model (.view view)
      = (talkerAt base frame e, .ok (some view)) := by
    unfold NativeTalkerSession.beginBatched
    rw [hexhausted, hid]
    exact lend_valid hview
  unfold NativeTalkerSession.beginDeviceFrameBatched
  split
  · exact hdirect
  split
  · exact hdirect
  · exact hbatched

/-- A pending frame that is finished takes the session to the next one, as the host path does. -/
theorem finish_talkerAt (hlib : Succeeds lib base frame) (hbase : Fresh base)
    (h : e < totalFrames base frame) {event : Nat} (hevent : event ≠ 0)
    (again : Except NativeStatusError NativeFinish) :
    ∃ out : FinishedDeviceFrame, (talkerAt base frame e).finishWithConsumerEvent lib.model event
        (.ok ⟨(frame e).nextSemanticToken, (frame e).info⟩) again
        = (talkerAt base frame (e + 1), .ok out)
      ∧ out.talkerGpuMilliseconds = (frame e).info.talkerGpuMilliseconds
      ∧ out.predictorGpuMilliseconds = (frame e).info.predictorGpuMilliseconds := by
  have hagree : ¬ decide ((frame e).nextSemanticToken = (talkerAt base frame e).codecEosToken)
      ≠ decide ((frame e).info.endedByEos ≠ 0) := by
    rw [(talkerAt_pooled base frame e).1, not_not]
    exact decide_eq_decide.mpr (hlib.flag e)
  unfold NativeTalkerSession.finishWithConsumerEvent NativeTalkerSession.complete
    NativeTalkerSession.finishDeviceNativeRaw NativeTalkerSession.commitFinishedDeviceFrame
  rw [if_neg hevent, hlib.deviceFrameApi]
  simp only [Bool.not_true, Bool.false_eq_true, if_false]
  rw [if_neg hagree]
  refine ⟨_, Prod.ext ?_ rfl, rfl, rfl⟩
  exact talkerAt_succ hbase h

end Talker

/-! ## The two loops -/

/-- The time of a packet's frames. -/
def framesTime (frame : Nat → NativeFrame) (e k : Nat) (time : Float32) : Float32 :=
  (List.range' e k).foldl (fun time i => addFrameTime time
    (frame i).info.predictorGpuMilliseconds (frame i).info.talkerGpuMilliseconds) time

/-- The codes of a packet's frames. -/
def framesCodes (frame : Nat → NativeFrame) (e k : Nat) : List Codes :=
  (List.range' e k).map fun i => (frame i).codes

/-- One list of codes for each frame. -/
theorem framesCodes_length (frame : Nat → NativeFrame) (e k : Nat) :
    (framesCodes frame e k).length = k := by
  simp [framesCodes]

/-- The first frame, and the ones behind it. -/
theorem framesCodes_succ (frame : Nat → NativeFrame) (e k : Nat) :
    framesCodes frame e (k + 1) = (frame e).codes :: framesCodes frame (e + 1) k := by
  simp [framesCodes, List.range'_succ]

/-- The time of the first frame is added first. -/
theorem framesTime_succ (frame : Nat → NativeFrame) (e k : Nat) (time : Float32) :
    framesTime frame e (k + 1) time = framesTime frame (e + 1) k (addFrameTime time
      (frame e).info.predictorGpuMilliseconds (frame e).info.talkerGpuMilliseconds) := by
  simp [framesTime, List.range'_succ]

section Loops

variable {lib : Libraries} {base : NativeTalkerSession} {frame : Nat → NativeFrame}

/-- The state with another talker session. -/
def StepState.setTalker (st : StepState) (talker : NativeTalkerSession) : StepState :=
  { st with session := { st.session with talker := talker } }

/-- The state's setters. -/
@[simp] theorem setTalker_talker (st : StepState) (talker : NativeTalkerSession) :
    (st.setTalker talker).session.talker = talker := rfl

@[simp] theorem setTalker_setTalker (st : StepState) (t t' : NativeTalkerSession) :
    (st.setTalker t).setTalker t' = st.setTalker t' := rfl

/-- Setting what is there changes nothing. -/
theorem setTalker_self {st : StepState} {talker : NativeTalkerSession}
    (h : st.session.talker = talker) : st.setTalker talker = st := by
  rw [← h]
  rfl

/-- A call on the talker that succeeds. -/
theorem talkerCall_ok {α : Type} {context : String} {st : StepState} {t t' : NativeTalkerSession}
    {method : NativeTalkerSession → NativeTalkerSession × Except TalkerError α} {value : α}
    (ht : st.session.talker = t) (h : method t = (t', .ok value)) :
    talkerCall context method st = .ok value (st.setTalker t') := by
  unfold talkerCall
  rw [ht, h]
  rfl

/-- **The host loop** takes the frames that were asked for, or all that the stream has left. -/
theorem hostFrames_eq (hlib : Succeeds lib base frame) (hbase : Fresh base) (left : Nat) :
    ∀ {e : Nat} {st : StepState} (frames : List Codes) (time : Float32),
      e < totalFrames base frame → st.session.talker = talkerAt base frame e →
      hostFrames lib left frames time st
        = .ok (frames ++ framesCodes frame e (min left (totalFrames base frame - e)),
            framesTime frame e (min left (totalFrames base frame - e)) time)
          (st.setTalker (talkerAt base frame (e + min left (totalFrames base frame - e)))) := by
  induction left with
  | zero =>
    intro e st frames time h hst
    have hnil : frames ++ framesCodes frame e 0 = frames := List.append_nil frames
    rw [Nat.zero_min, Nat.add_zero, hnil, setTalker_self hst]
    rfl
  | succ left ih =>
    intro e st frames time h hst
    obtain ⟨out, hnext, hcodes, htalker, hpredictor⟩ := nextFrame_talkerAt hlib hbase h
    have hemitted : st.session.talker.framesEmitted = e :=
      hst ▸ talkerAt_framesEmitted frame e hbase
    have hcall : talkerCall "talker frame generation failed"
        (·.nextFrame lib.model (lib.nextFrame st.session.talker.framesEmitted)) st
        = .ok (some out) (st.setTalker (talkerAt base frame (e + 1))) := by
      refine talkerCall_ok hst ?_
      rw [hemitted, hlib.nextFrame e]
      exact hnext
    have hended : (talkerAt base frame (e + 1)).isEnded = _ := talkerAt_isEnded hbase h
    have hstep : min (left + 1) (totalFrames base frame - e)
        = min left (totalFrames base frame - (e + 1)) + 1 := by omega
    unfold hostFrames
    simp only [bind, EStateM.bind, get_apply, hcall,
      setTalker_talker, hended]
    rw [hstep, framesCodes_succ, framesTime_succ, hcodes, htalker, hpredictor]
    by_cases hlast : e + 1 = totalFrames base frame
    · -- The frame was the last of the stream.
      have hnone : totalFrames base frame - (e + 1) = 0 := by omega
      rw [if_pos (decide_eq_true hlast), hnone, Nat.min_zero]
      rfl
    · rw [if_neg (by simpa using hlast), ih _ _ (by omega) (setTalker_talker st _)]
      rw [setTalker_setTalker, List.append_assoc]
      have hsum : e + 1 + min left (totalFrames base frame - (e + 1))
          = e + (min left (totalFrames base frame - (e + 1)) + 1) := by omega
      rw [hsum]
      rfl

/-- The stager holds these frames, and nothing has failed on it. -/
structure Staged (lib : Libraries) (g : CudaPacketStager) (frames : List Codes) : Prop where
  deviceIndex : g.deviceIndex = lib.model.deviceIndex
  pointer : g.pointer ≠ 0
  copiedEvent : g.copiedEvent ≠ 0
  poisoned : g.poisoned = false
  capacity : g.deviceCodes.length = codecMaxPacketFrames
  stagedFrames : g.stagedFrames = frames.length
  codes : g.deviceCodes.take frames.length = frames

/-- The state with another stager in place. -/
def StepState.setStager (st : StepState) (g : CudaPacketStager) : StepState :=
  { st with session := { st.session with cudaStager := some g } }

@[simp] theorem setStager_talker (st : StepState) (g : CudaPacketStager) :
    (st.setStager g).session.talker = st.session.talker := rfl

@[simp] theorem setStager_setStager (st : StepState) (g g' : CudaPacketStager) :
    (st.setStager g).setStager g' = st.setStager g' := rfl

/-- What the validation of a view guarantees. -/
theorem validate_ok {view : NativeDeviceFrameView} {deviceIndex : Int}
    (h : view.validate deviceIndex = .ok ()) :
    view.codeCount = codebooks ∧ ¬ (view.deviceCodes = 0 ∨ view.readyEvent = 0)
      ∧ view.deviceIndex = deviceIndex := by
  unfold NativeDeviceFrameView.validate at h
  obtain ⟨_, -, h⟩ := bind_eq_ok.mp h
  obtain ⟨_, hcount, h⟩ := bind_eq_ok.mp h
  obtain ⟨_, hnull, h⟩ := bind_eq_ok.mp h
  obtain ⟨_, -, h⟩ := bind_eq_ok.mp h
  obtain ⟨_, hdevice, -⟩ := bind_eq_ok.mp h
  exact ⟨not_not.mp (failIf_eq_ok.mp hcount), failIf_eq_ok.mp hnull,
    not_not.mp (failIf_eq_ok.mp hdevice)⟩

/-- One more item is set. -/
theorem take_set_succ {α : Type} {xs : List α} {n : Nat} {x : α} (h : n < xs.length) :
    (xs.set n x).take (n + 1) = xs.take n ++ [x] := by
  have hlength : n < (xs.set n x).length := by rwa [List.length_set]
  rw [List.take_succ_eq_append_getElem hlength, List.getElem_set_self, List.take_set_of_le le_rfl]

/-- A frame is copied behind those that are staged. -/
theorem stageFrame_ok (hlib : Succeeds lib base frame) {g : CudaPacketStager}
    {frames : List Codes} {view : NativeDeviceFrameView} {e : Nat} (hg : Staged lib g frames)
    (hroom : frames.length < codecMaxPacketFrames)
    (hview : view.validate lib.model.deviceIndex = .ok ()) :
    ∃ g', g.stageFrame lib e view = (g', .ok g.copiedEvent) ∧ g'.copiedEvent = g.copiedEvent
      ∧ Staged lib g' (frames ++ [(frame e).codes]) := by
  obtain ⟨hcount, hnull, hdevice⟩ := validate_ok hview
  obtain ⟨hselect, hwait, hcopy, hrecord⟩ := hlib.cuda e
  have hcheck : g.checkFrame view = .ok () := by
    unfold CudaPacketStager.checkFrame
    rw [if_neg (by simp [hg.poisoned]), if_neg (by simp [hg.deviceIndex, hdevice]), if_neg hnull,
      if_neg (by simp [hcount]), if_neg (by rw [hg.stagedFrames]; omega)]
  refine ⟨{ g with
    deviceCodes := g.deviceCodes.set g.stagedFrames (frame e).codes
    stagedFrames := g.stagedFrames + 1 }, ?_, rfl, ?_⟩
  · unfold CudaPacketStager.stageFrame selectDevice check
    rw [hcheck, hselect, hwait, hcopy, hrecord, hlib.codesAt e]
    rfl
  · refine { hg with capacity := ?_, stagedFrames := ?_, codes := ?_ }
    · show (g.deviceCodes.set g.stagedFrames _).length = _
      rw [List.length_set]
      exact hg.capacity
    · show g.stagedFrames + 1 = (frames ++ [_]).length
      rw [hg.stagedFrames, List.length_append]
      rfl
    · show (g.deviceCodes.set g.stagedFrames _).take (frames ++ [_]).length = _
      rw [List.length_append, hg.stagedFrames]
      show (g.deviceCodes.set frames.length _).take (frames.length + 1) = _
      rw [take_set_succ (by rw [hg.capacity]; exact hroom), hg.codes]

/-- The same on the stager of the session. -/
theorem stagePending_ok {st : StepState} {g g' : CudaPacketStager} {e event : Nat}
    {view : NativeDeviceFrameView} (hg : st.session.cudaStager = some g)
    (h : g.stageFrame lib e view = (g', .ok event)) :
    stagePending lib e view st = .ok event (st.setStager g') := by
  unfold stagePending stagerCall
  rw [hg]
  dsimp only
  rw [h]
  rfl

/-- **The device loop** stages the frames that the host loop takes, and leaves the talker where the
host loop does. -/
theorem deviceFrames_eq (hlib : Succeeds lib base frame) (hbase : Fresh base) (left : Nat) :
    ∀ {e : Nat} {st : StepState} {g : CudaPacketStager} {frames : List Codes} (time : Float32),
      e < totalFrames base frame → st.session.talker = talkerAt base frame e →
      st.session.cudaStager = some g → Staged lib g frames →
      frames.length + left ≤ codecMaxPacketFrames →
      ∃ g', deviceFrames lib left frames.length time st
          = .ok (frames.length + min left (totalFrames base frame - e),
              framesTime frame e (min left (totalFrames base frame - e)) time)
            ((st.setTalker (talkerAt base frame
              (e + min left (totalFrames base frame - e)))).setStager g')
        ∧ Staged lib g'
          (frames ++ framesCodes frame e (min left (totalFrames base frame - e))) := by
  induction left with
  | zero =>
    intro e st g frames time h hst hstager hg hroom
    have hnil : frames ++ framesCodes frame e 0 = frames := List.append_nil frames
    refine ⟨g, ?_, ?_⟩
    · have hsame : st.setStager g = st := by
        unfold StepState.setStager
        rw [← hstager]
      rw [Nat.zero_min, Nat.add_zero, Nat.add_zero e, setTalker_self hst, hsame]
      rfl
    · rw [Nat.zero_min, hnil]
      exact hg
  | succ left ih =>
    intro e st g frames time h hst hstager hg hroom
    obtain ⟨view, hbegin, hpump, hview⟩ := hlib.beginFrame e
    obtain ⟨g', hstage, hevent, hg'⟩ := stageFrame_ok (e := e) hlib hg (by omega) hview
    obtain ⟨out, hfinish, htalker, hpredictor⟩ :=
      finish_talkerAt hlib hbase h hg.copiedEvent (lib.abandon e)
    have hemitted : st.session.talker.framesEmitted = e :=
      hst ▸ talkerAt_framesEmitted frame e hbase
    -- the frame begins, is copied behind the staged ones and is finished
    have hlent : talkerCall "Talker device-frame generation failed"
        (·.beginDeviceFrameBatched lib.model (lib.beginFrame e) (lib.pump e)) st
        = .ok (some view) st := by
      rw [hbegin, hpump, talkerCall_ok hst (begin_talkerAt hlib hbase h hview), setTalker_self hst]
    have hstaged := stagePending_ok (e := e) hstager hstage
    have hfinished : talkerCall "Talker device-frame completion failed"
        (·.finishWithConsumerEvent lib.model g.copiedEvent (lib.finish e) (lib.abandon e))
        (st.setStager g')
        = .ok out ((st.setStager g').setTalker (talkerAt base frame (e + 1))) := by
      refine talkerCall_ok hst ?_
      rw [hlib.finish e]
      exact hfinish
    have hended : (talkerAt base frame (e + 1)).isEnded = _ := talkerAt_isEnded hbase h
    have hstep : min (left + 1) (totalFrames base frame - e)
        = min left (totalFrames base frame - (e + 1)) + 1 := by omega
    unfold deviceFrames
    simp only [bind, EStateM.bind, get_apply, hemitted, hlent,
      hstaged, hfinished, setTalker_talker, hended]
    rw [hstep, framesCodes_succ, framesTime_succ, htalker, hpredictor]
    -- the stream ends with this frame, or the loop goes on
    by_cases hlast : e + 1 = totalFrames base frame
    · have hnone : totalFrames base frame - (e + 1) = 0 := by omega
      rw [if_pos (decide_eq_true hlast), hnone, Nat.min_zero]
      exact ⟨g', rfl, hg'⟩
    · rw [if_neg (by simpa using hlast)]
      have hlength : (frames ++ [(frame e).codes]).length = frames.length + 1 := by simp
      obtain ⟨g'', hrest, hg''⟩ := @ih (e + 1)
        ((st.setStager g').setTalker (talkerAt base frame (e + 1))) g' _
        (addFrameTime time (frame e).info.predictorGpuMilliseconds
          (frame e).info.talkerGpuMilliseconds) (by omega) rfl rfl hg' (by rw [hlength]; omega)
      rw [hlength] at hrest
      have hsum : e + 1 + min left (totalFrames base frame - (e + 1))
          = e + (min left (totalFrames base frame - (e + 1)) + 1) := by omega
      have hcount : frames.length + 1 + min left (totalFrames base frame - (e + 1))
          = frames.length + (min left (totalFrames base frame - (e + 1)) + 1) := by omega
      rw [hsum, hcount] at hrest
      refine ⟨g'', hrest, ?_⟩
      rwa [List.append_assoc] at hg''

end Loops

/-! ## One step -/

section Step

variable {lib : Libraries} {base : NativeTalkerSession} {frame : Nat → NativeFrame} {e : Nat}

/-- The reason of a packet: only the last one has one. -/
def packetReason (base : NativeTalkerSession) (frame : Nat → NativeFrame) (isFinal : Bool) :
    FinishReason :=
  if isFinal then finalReason base frame else .none

/-- What a step makes of a state in front of a frame of the stream: `k` frames go to the codec. -/
structure Stepped (lib : Libraries) (base : NativeTalkerSession) (frame : Nat → NativeFrame)
    (e k : Nat) (st st' : StepState) (packet : BackendPacket) : Prop where
  talker : st'.session.talker = talkerAt base frame (e + k)
  codec : st'.session.codec = st.session.codec
    ++ [(framesCodes frame e k, decide (e + k = totalFrames base frame))]
  deviceBytes : st'.session.peakRequestDeviceBytes = st.session.peakRequestDeviceBytes
  hostBytes : st'.session.peakRequestHostBytes = st.session.peakRequestHostBytes
  /-- The packet and the samples, from the answer of the codec. -/
  decoded : ∃ result samples, lib.decode st.session.codec (framesCodes frame e k)
      (decide (e + k = totalFrames base frame)) = .ok (result, samples)
    ∧ packet = backendPacket st.session k (decide (e + k = totalFrames base frame))
      (packetReason base frame (decide (e + k = totalFrames base frame)))
      (framesTime frame e k 0) result.gpuMicroseconds
    ∧ st'.pcm = writePcm samples st.pcm (k * samplesPerFrame)

/-- The state that a step leaves, up to its stager. -/
def steppedState (base : NativeTalkerSession) (frame : Nat → NativeFrame) (e k : Nat)
    (samples : Pcm) (st : StepState) : StepState where
  session := { st.session with
    talker := talkerAt base frame (e + k)
    codec := st.session.codec
      ++ [(framesCodes frame e k, decide (e + k = totalFrames base frame))] }
  pcm := writePcm samples st.pcm (k * samplesPerFrame)

/-- The reason of a packet is that of the stream when it is the last one. -/
theorem mapFinishReason_eq (hbase : Fresh base) (hpos : 0 < e) (h : e ≤ totalFrames base frame) :
    mapFinishReason (talkerAt base frame e) (decide (e = totalFrames base frame))
      = .ok (packetReason base frame (decide (e = totalFrames base frame))) := by
  unfold mapFinishReason packetReason
  rcases Nat.lt_or_eq_of_le h with hlt | heq
  · rw [talkerAt_endReason hbase hlt, decide_eq_false (Nat.ne_of_lt hlt)]
    rfl
  · have hreason : (talkerAt base frame e).endReason = some
        (if eosIndex base frame < base.maxFrames then .codecEos else .maxFrames) := by
      cases e with
      | zero => omega
      | succ e => exact endReasonAt_last heq
    rw [hreason, decide_eq_true heq]
    unfold finalReason
    by_cases heos : eosIndex base frame < base.maxFrames
    · rw [if_pos heos, if_pos heos]
      rfl
    · rw [if_neg heos, if_neg heos]
      rfl

/-- A result without an error. -/
theorem liftResult_ok {α : Type} (value : α) :
    liftResult (.ok value : Except BackendError α) = pure value := rfl

/-- The host path decodes into the buffer of the caller. -/
theorem decodeInto_ok (st : StepState) {context : String} {frames : List Codes} {isFinal : Bool}
    {sampleCount : Nat} {result : PacketResult} {samples : Pcm}
    (h : lib.decode st.session.codec frames isFinal = .ok (result, samples)) :
    decodeInto lib context frames isFinal sampleCount st = .ok result {
      session := { st.session with codec := st.session.codec ++ [(frames, isFinal)] }
      pcm := writePcm samples st.pcm sampleCount } := by
  unfold decodeInto
  rw [h]

/-- The host step. -/
theorem stepHostSession_ok (hlib : Succeeds lib base frame) (hbase : Fresh base) {st : StepState}
    {requested : Nat} (h : e < totalFrames base frame)
    (hst : st.session.talker = talkerAt base frame e) (hpos : 0 < requested)
    (hstager : st.session.cudaStager = none) :
    ∃ packet st', stepHostSession lib requested st = .ok packet st'
      ∧ Stepped lib base frame e (min requested (totalFrames base frame - e)) st st' packet
      ∧ st'.session.cudaStager = none := by
  have hframes := hostFrames_eq hlib hbase requested [] 0 h hst
  generalize hk : min requested (totalFrames base frame - e) = k at hframes ⊢
  have hkpos : 0 < k := by omega
  have hle : e + k ≤ totalFrames base frame := by omega
  rw [List.nil_append] at hframes
  obtain ⟨result, samples, hdecode, hconsistent⟩ := hlib.decode st.session.codec
    (framesCodes frame e k) (decide (e + k = totalFrames base frame))
  have hended := talkerAt_isEnded hbase hle
  have hreason := mapFinishReason_eq hbase (by omega) hle
  have hlength := framesCodes_length frame e k
  rw [hlength] at hconsistent
  refine ⟨_, steppedState base frame e k samples st, ?_,
    ⟨rfl, rfl, rfl, rfl, result, samples, hdecode, rfl, rfl⟩, hstager⟩
  unfold stepHostSession
  rw [bind_of_ok hframes]
  dsimp only
  rw [hlength, bind_of_ok (throwIf_of_not (by omega) _), get_bind, setTalker_talker, hended,
    get_bind, setTalker_talker, hreason, liftResult_ok, pure_bind]
  rw [bind_of_ok (decodeInto_ok (st.setTalker (talkerAt base frame (e + k))) hdecode),
    bind_of_ok (throwIf_of_not hconsistent _), get_bind]
  rfl

/-- A call on the stager that succeeds. -/
theorem stagerCall_ok {α : Type} {status : RuntimeStatus} {context : String} {st : StepState}
    (g g' : CudaPacketStager) (value : α)
    {method : CudaPacketStager → CudaPacketStager × Except String α}
    (hg : st.session.cudaStager = some g) (h : method g = (g', .ok value)) :
    stagerCall status context method st = .ok value (st.setStager g') := by
  unfold stagerCall
  rw [hg]
  dsimp only
  rw [h]
  rfl

/-- Setting what is there changes nothing. -/
theorem setStager_self {st : StepState} {g : CudaPacketStager}
    (h : st.session.cudaStager = some g) : st.setStager g = st := by
  unfold StepState.setStager
  rw [← h]

/-- The staged frames as one packet. -/
theorem packetView_ok {g : CudaPacketStager} {frames : List Codes} (hg : Staged lib g frames)
    (hpos : 0 < frames.length) : g.packetView = .ok frames.length := by
  unfold CudaPacketStager.packetView
  rw [hg.poisoned, hg.stagedFrames, if_neg (by decide), if_neg (by omega)]

/-- The codec gets the frames that are staged. -/
theorem beginPacket_ok (hlib : Succeeds lib base frame) (st : StepState) {g : CudaPacketStager}
    {frames : List Codes} (hstager : st.session.cudaStager = some g) (hg : Staged lib g frames)
    (hpos : 0 < frames.length) (hroom : frames.length ≤ codecMaxPacketFrames) :
    ∃ output : DevicePacketBeginResult, beginPacket lib frames.length st
      = .ok (output, frames) st ∧ output.codesConsumedEvent ≠ 0 := by
  obtain ⟨output, hbegin, hevent, hticket⟩ := hlib.beginPacket st.session.codec frames
  refine ⟨output, ?_, hevent⟩
  have hdevice : beginDevicePacket lib st.session.codec g frames.length = .ok output := by
    unfold beginDevicePacket
    rw [if_neg (by omega), if_neg hg.pointer, if_neg hg.copiedEvent, hlib.devicePacket, hg.codes,
      hbegin]
    dsimp only
    rw [if_neg hevent, if_neg hticket]
    rfl
  unfold beginPacket
  rw [hstager]
  dsimp only
  rw [hdevice, hg.codes]

/-- The stager is empty again behind the event of the consumer. -/
theorem releaseAfterConsumer_ok (hlib : Succeeds lib base frame) {g : CudaPacketStager}
    {frames : List Codes} (hg : Staged lib g frames) (hpos : 0 < frames.length) {event : Nat}
    (hevent : event ≠ 0) (i : Nat) :
    ∃ g', g.releaseAfterConsumer lib i event = (g', .ok ()) ∧ Staged lib g' [] := by
  obtain ⟨hselect, hwait, -, -⟩ := hlib.cuda i
  refine ⟨{ g with stagedFrames := 0 }, ?_, { hg with stagedFrames := rfl, codes := rfl }⟩
  unfold CudaPacketStager.releaseAfterConsumer selectDevice check
  rw [hg.poisoned, hg.stagedFrames, if_neg (by decide), if_neg (by omega), if_neg hevent, hselect,
    hwait]
  rfl

/-- The codec accepts the packet and reports what was asked of it. -/
theorem finishPacket_ok (st : StepState) {frames : List Codes} {isFinal : Bool}
    {result : PacketResult} {samples : Pcm}
    (hdecode : lib.decode st.session.codec frames isFinal = .ok (result, samples))
    (hconsistent : ¬ result.Inconsistent frames.length isFinal) :
    finishPacket lib frames isFinal (frames.length * samplesPerFrame) st = .ok result {
      session := { st.session with codec := st.session.codec ++ [(frames, isFinal)] }
      pcm := writePcm samples st.pcm (frames.length * samplesPerFrame) } := by
  obtain ⟨hframes, hrest⟩ := not_or.mp hconsistent
  obtain ⟨hsamples, -⟩ := not_or.mp hrest
  unfold finishPacket
  simp only [bind, EStateM.bind]
  rw [throwIf_of_not (lt_irrefl _)]
  simp only
  rw [decodeInto_ok st hdecode]
  simp only
  rw [throwIf_of_not (by rintro (h | h); exacts [hframes h, hsamples h])]
  rfl

/-- The device step does what the host step does, by way of the staging buffer. -/
theorem stepDeviceSession_ok (hlib : Succeeds lib base frame) (hbase : Fresh base) {st : StepState}
    {requested : Nat} {g : CudaPacketStager} (h : e < totalFrames base frame)
    (hst : st.session.talker = talkerAt base frame e) (hpos : 0 < requested)
    (hrequested : requested ≤ codecMaxPacketFrames)
    (hstager : st.session.cudaStager = some g) (hg : Staged lib g []) :
    ∃ packet st', stepDeviceSession lib requested st = .ok packet st'
      ∧ Stepped lib base frame e (min requested (totalFrames base frame - e)) st st' packet
      ∧ ∃ g', st'.session.cudaStager = some g' ∧ Staged lib g' [] := by
  obtain ⟨g₁, hframes, hg₁⟩ := deviceFrames_eq hlib hbase requested 0 h hst hstager hg
    (by rw [List.length_nil]; omega)
  generalize hk : min requested (totalFrames base frame - e) = k at hframes hg₁ ⊢
  have hkpos : 0 < k := by omega
  have hle : e + k ≤ totalFrames base frame := by omega
  rw [List.nil_append] at hg₁
  have hlength := framesCodes_length frame e k
  obtain ⟨result, samples, hdecode, hconsistent⟩ := hlib.decode st.session.codec
    (framesCodes frame e k) (decide (e + k = totalFrames base frame))
  have hended := talkerAt_isEnded hbase hle
  have hreason := mapFinishReason_eq hbase (by omega) hle
  -- Behind the loop the frames are staged; the codec snapshots them and the buffer is free again.
  have hview := packetView_ok hg₁ (by rw [hlength]; exact hkpos)
  obtain ⟨output, hbegin, hevent⟩ := beginPacket_ok hlib
    ((st.setTalker (talkerAt base frame (e + k))).setStager g₁) rfl hg₁
    (by rw [hlength]; exact hkpos) (by rw [hlength]; omega)
  obtain ⟨g₂, hrelease, hg₂⟩ := releaseAfterConsumer_ok hlib hg₁ (by rw [hlength]; exact hkpos)
    hevent (talkerAt base frame (e + k)).framesEmitted
  have hfinish := finishPacket_ok
    ((st.setTalker (talkerAt base frame (e + k))).setStager g₂) hdecode hconsistent
  rw [hlength] at hview hbegin hconsistent hfinish
  rw [List.length_nil, Nat.zero_add] at hframes
  refine ⟨_, (steppedState base frame e k samples st).setStager g₂, ?_,
    ⟨rfl, rfl, rfl, rfl, result, samples, hdecode, rfl, rfl⟩, g₂, rfl, hg₂⟩
  unfold stepDeviceSession
  rw [bind_of_ok (stagerCall_ok g g 0 hstager (by rw [hg.stagedFrames]; rfl)),
    setStager_self hstager, bind_of_ok (throwIf_of_not (by decide) _), bind_of_ok hframes]
  dsimp only
  rw [bind_of_ok (throwIf_of_not (by omega) _),
    bind_of_ok (stagerCall_ok g₁ g₁ k rfl (by rw [hview])),
    setStager_self (g := g₁) rfl, bind_of_ok (throwIf_of_not (by omega) _), bind_of_ok hbegin]
  dsimp only
  rw [get_bind, bind_of_ok (stagerCall_ok g₁ g₂ () rfl hrelease),
    get_bind, setStager_setStager, setStager_talker, setTalker_talker, hended, get_bind,
    setStager_talker, setTalker_talker, hreason, liftResult_ok, pure_bind, bind_of_ok hfinish,
    bind_of_ok (throwIf_of_not hconsistent _), get_bind]
  rfl

/-- A session in front of a frame of the stream, between two steps. -/
structure InFront (lib : Libraries) (base : NativeTalkerSession) (frame : Nat → NativeFrame)
    (e : Nat) (s : NativeBackendSession) : Prop where
  talker : s.talker = talkerAt base frame e
  firstPacket : s.firstPacket = decide (e = 0)
  stager : ∀ g, s.cudaStager = some g → Staged lib g []

/-- The frames that a step in front of a frame asks for. -/
def requestedFrames (q e : Nat) : Nat := if e = 0 then 1 else q

/-- The frames of the packet that begins in front of a frame. -/
def packetFramesAt (base : NativeTalkerSession) (frame : Nat → NativeFrame) (q e : Nat) : Nat :=
  min (requestedFrames q e) (totalFrames base frame - e)

/-- A packet has a frame, and no more than the quota and the stream allow. -/
theorem packetFramesAt_spec {q : Nat} (hq : 1 ≤ q) (h : e < totalFrames base frame) :
    0 < packetFramesAt base frame q e ∧ packetFramesAt base frame q e ≤ q
      ∧ e + packetFramesAt base frame q e ≤ totalFrames base frame := by
  unfold packetFramesAt requestedFrames
  split <;> omega

/-- **One step**, on whichever path the session has. -/
theorem stepSession_ok (hlib : Succeeds lib base frame) (hbase : Fresh base) {q : Nat}
    (st : StepState) (hq : 1 ≤ q) (hq' : q ≤ codecMaxPacketFrames)
    (h : e < totalFrames base frame) (hst : InFront lib base frame e st.session)
    (hpcm : q * samplesPerFrame ≤ st.pcm.length) :
    ∃ packet st', stepSession lib q st = .ok packet st'
      ∧ Stepped lib base frame e (packetFramesAt base frame q e) st st' packet
      ∧ InFront lib base frame (e + packetFramesAt base frame q e) st'.session := by
  obtain ⟨hpos, -, -⟩ := packetFramesAt_spec hq h
  have hrequested : (if st.session.firstPacket = true then 1 else q) = requestedFrames q e := by
    rw [hst.firstPacket]
    unfold requestedFrames
    simp only [decide_eq_true_eq]
  have hrange : 0 < requestedFrames q e ∧ requestedFrames q e ≤ q := by
    unfold requestedFrames
    split <;> omega
  have hcapacity : requestedFrames q e * samplesPerFrame ≤ st.pcm.length :=
    le_trans (Nat.mul_le_mul_right _ hrange.2) hpcm
  -- Both paths leave a state that differs from the step's only in the first-packet flag.
  have hpath : ∃ packet st', stepOnPath lib (requestedFrames q e) st = .ok packet st'
      ∧ Stepped lib base frame e (packetFramesAt base frame q e) st st' packet
      ∧ ∀ g, st'.session.cudaStager = some g → Staged lib g [] := by
    unfold stepOnPath
    rw [get_bind]
    cases hstager : st.session.cudaStager with
    | none =>
      obtain ⟨packet, st', hstep, hstepped, hnone⟩ :=
        stepHostSession_ok hlib hbase h hst.talker hrange.1 hstager
      exact ⟨packet, st', hstep, hstepped, fun g hg => by rw [hnone] at hg; cases hg⟩
    | some g =>
      obtain ⟨packet, st', hstep, hstepped, g', hg', hstaged⟩ := stepDeviceSession_ok hlib hbase h
        hst.talker hrange.1 (le_trans hrange.2 hq') hstager (hst.stager g hstager)
      exact ⟨packet, st', hstep, hstepped, fun g'' hg'' => by
        rw [hg'] at hg''
        cases hg''
        exact hstaged⟩
  obtain ⟨packet, st', hstep, hstepped, hstaged⟩ := hpath
  refine ⟨packet, { st' with session := { st'.session with firstPacket := false } }, ?_,
    ⟨hstepped.talker, hstepped.codec, hstepped.deviceBytes, hstepped.hostBytes,
      hstepped.decoded⟩, ⟨hstepped.talker, ?_, hstaged⟩⟩
  · unfold stepSession
    rw [get_bind]
    dsimp only
    rw [hrequested, bind_of_ok (throwIf_of_not (by omega) _), get_bind,
      bind_of_ok (throwIf_of_not (not_lt.mpr hcapacity) _), bind_of_ok hstep]
    rfl
  · exact (decide_eq_false (by omega)).symm

end Step

/-! ## Runs -/

/-- The packets cover the stream from a frame to its last: each has the frames that were asked for
or all that are left, and only the one that reaches the end is final. -/
inductive Tiles (base : NativeTalkerSession) (frame : Nat → NativeFrame) (q : Nat) :
    Nat → List BackendPacket → Prop
  | last {e : Nat} {packet : BackendPacket}
      (hframes : packet.codecFrames = packetFramesAt base frame q e)
      (hend : e + packet.codecFrames = totalFrames base frame)
      (hfinal : packet.isFinal = true) (hreason : packet.finishReason = finalReason base frame) :
      Tiles base frame q e [packet]
  | more {e : Nat} {packet : BackendPacket} {rest : List BackendPacket}
      (hframes : packet.codecFrames = packetFramesAt base frame q e)
      (hmore : e + packet.codecFrames < totalFrames base frame)
      (hfinal : packet.isFinal = false) (hreason : packet.finishReason = .none)
      (hrest : Tiles base frame q (e + packet.codecFrames) rest) :
      Tiles base frame q e (packet :: rest)

/-- The scheduler publishes the packet of any request that has come as far. -/
def Accepted (maxFrames q before : Nat) (packet : BackendPacket) (pcm : Pcm) : Prop :=
  ∀ (a : ActiveRequest) (now : Nat) (stepMicroseconds : Runtime.F32), a.record.phase = .generating →
    a.record.nextCodecFrame = before → a.maxCodecFrames = maxFrames →
    ∃ published, a.accept packet pcm q now stepMicroseconds = .ok published

/-- The frames of the packets in front of a packet. -/
def framesOf (packets : List (BackendPacket × Pcm)) : Nat :=
  (packets.map (·.1.codecFrames)).sum

/-- What a run of steps owes the codec and the scheduler, from a frame of the stream on. -/
structure Honours (base : NativeTalkerSession) (frame : Nat → NativeFrame) (q e : Nat)
    (log : CodecLog) (out : Outcome) : Prop where
  noError : out.error = none
  tiles : Tiles base frame q e (out.packets.map (·.1))
  /-- The codec gets the frames of the stream, each once and in order, in the packets that go
  out. -/
  codec : ∃ entries, out.session.codec = log ++ entries
    ∧ entries.flatMap (·.1) = framesCodes frame e (totalFrames base frame - e)
    ∧ entries.map (fun entry => (entry.1.length, entry.2))
      = out.packets.map fun p => (p.1.codecFrames, p.1.isFinal)
  accepted : ∀ before p after, out.packets = before ++ p :: after →
    Accepted base.maxFrames q (e + framesOf before) p.1 p.2

section Runs

variable {lib : Libraries} {base : NativeTalkerSession} {frame : Nat → NativeFrame} {e q : Nat}

/-- The two sides count samples alike. -/
theorem samplesPerCodecFrame_eq : samplesPerCodecFrame = samplesPerFrame := rfl

/-- The buffer keeps its length. -/
theorem writePcm_length {samples pcm : Pcm} {n : Nat} (h : n ≤ pcm.length) :
    (writePcm samples pcm n).length = pcm.length := by
  unfold writePcm
  rw [List.length_append, List.length_take, List.length_drop]
  omega

/-- Behind the packet's own samples the buffer is untouched. -/
theorem writePcm_drop (samples pcm : Pcm) (n : Nat) : (writePcm samples pcm n).drop n = pcm.drop n := by
  unfold writePcm
  rw [List.drop_append, List.length_take, List.drop_take_self, List.nil_append, List.drop_drop]
  congr 1
  omega

/-- Frames in two stretches. -/
theorem framesCodes_append (frame : Nat → NativeFrame) (e k l : Nat) :
    framesCodes frame e k ++ framesCodes frame (e + k) l = framesCodes frame e (k + l) := by
  unfold framesCodes
  rw [← List.map_append, List.range'_append_1]

/-- What a step says of its packet. -/
theorem Stepped.packet_spec {st st' : StepState} {packet : BackendPacket} {k : Nat}
    (h : Stepped lib base frame e k st st' packet) : packet.codecFrames = k
      ∧ packet.isFinal = decide (e + k = totalFrames base frame)
      ∧ packet.finishReason
        = packetReason base frame (decide (e + k = totalFrames base frame)) := by
  obtain ⟨result, samples, -, hpacket, -⟩ := h.decoded
  rw [hpacket]
  exact ⟨rfl, rfl, rfl⟩

/-- The reason of the last packet ends the request. -/
theorem finalReason_terminal : (finalReason base frame).isTerminal = true := by
  unfold finalReason
  split <;> rfl

/-- The packet of a step passes `validate_backend_packet` with the buffer it was written to. -/
theorem Stepped.validate {s : NativeBackendSession} {st' : StepState} {packet : BackendPacket}
    (hq : 1 ≤ q) (h : e < totalFrames base frame)
    (hstep : Stepped lib base frame e (packetFramesAt base frame q e) ⟨s, freshPcm q⟩ st' packet) :
    validateBackendPacket packet q st'.pcm = .ok () := by
  obtain ⟨hpos, hle, -⟩ := packetFramesAt_spec hq h
  obtain ⟨hframes, hfinal, hreason⟩ := hstep.packet_spec
  obtain ⟨result, samples, -, -, hpcm⟩ := hstep.decoded
  have hlength : (freshPcm q).length = q * samplesPerFrame := List.length_replicate
  have hfits : packetFramesAt base frame q e * samplesPerFrame ≤ (freshPcm q).length := by
    rw [hlength]
    exact Nat.mul_le_mul_right _ hle
  have hterminal : packet.isFinal = packet.finishReason.isTerminal := by
    rw [hfinal, hreason]
    cases decide (e + packetFramesAt base frame q e = totalFrames base frame) with
    | false => rfl
    | true => exact finalReason_terminal.symm
  have hsentinel : ((freshPcm q).drop (packetFramesAt base frame q e * samplesPerFrame)).any
      (· ≠ pcmSentinel) = false := by
    rw [List.any_eq_false]
    intro sample hmem
    have hsample := List.eq_of_mem_replicate (List.mem_of_mem_drop hmem)
    simp [hsample]
  unfold validateBackendPacket
  rw [hframes, hpcm, if_neg (by omega), if_neg (not_not.mpr hterminal)]
  dsimp only
  rw [samplesPerCodecFrame_eq, writePcm_length hfits, writePcm_drop, if_neg (not_lt.mpr hfits),
    hsentinel]
  rfl

/-- The scheduler publishes the packet of a step. -/
theorem Stepped.accepted {s : NativeBackendSession} {st' : StepState} {packet : BackendPacket}
    (hq : 1 ≤ q) (h : e < totalFrames base frame)
    (hstep : Stepped lib base frame e (packetFramesAt base frame q e) ⟨s, freshPcm q⟩ st' packet) :
    Accepted base.maxFrames q e packet st'.pcm := by
  intro a now stepMicroseconds hphase hbefore hmax
  obtain ⟨-, -, hle⟩ := packetFramesAt_spec hq h
  obtain ⟨hframes, hfinal, -⟩ := hstep.packet_spec
  have hlimit := totalFrames_le base frame
  refine ActiveRequest.accept_of_valid hphase (hstep.validate hq h) ?_ ?_ now stepMicroseconds
  · omega
  · intro heq
    rw [hfinal]
    exact decide_eq_true (by omega)

/-- **A run of steps**, from any frame of the stream. -/
theorem honours_from (hlib : Succeeds lib base frame) (hbase : Fresh base) (hq : 1 ≤ q)
    (hq' : q ≤ codecMaxPacketFrames) (fuel : Nat) :
    ∀ {e : Nat} {s : NativeBackendSession}, e < totalFrames base frame →
      totalFrames base frame - e ≤ fuel → InFront lib base frame e s →
      Honours base frame q e s.codec (stepUntilFinal lib q fuel s) := by
  -- by induction on the steps that are left
  induction fuel with
  | zero =>
    intro e s h hfuel
    omega
  | succ fuel ih =>
    intro e s h hfuel hs
    obtain ⟨hpos, hle, hend⟩ := packetFramesAt_spec hq h
    obtain ⟨packet, st', hstep, hstepped, hnext⟩ := stepSession_ok hlib hbase
      ⟨s, freshPcm q⟩ hq hq' h hs (le_of_eq List.length_replicate.symm)
    obtain ⟨hframes, hfinal, hreason⟩ := hstepped.packet_spec
    have haccepted := hstepped.accepted hq h
    have hcodec : st'.session.codec = s.codec ++ [(framesCodes frame e
        (packetFramesAt base frame q e), packet.isFinal)] := by
      rw [hfinal]
      exact hstepped.codec
    have hlength := framesCodes_length frame e (packetFramesAt base frame q e)
    unfold stepUntilFinal
    rw [hstep]
    dsimp only
    -- the packet is the last one, or the frames behind it are tiled by the rest
    by_cases hlast : e + packetFramesAt base frame q e = totalFrames base frame
    · rw [decide_eq_true hlast] at hfinal hreason
      rw [if_pos hfinal]
      refine ⟨rfl, ?_, ⟨[_], hcodec, ?_, ?_⟩, fun before p after hsplit => ?_⟩
      · exact .last hframes (hframes ▸ hlast) hfinal hreason
      · have hrest : totalFrames base frame - e = packetFramesAt base frame q e := by omega
        simp [hrest]
      · simp [hlength, hframes]
      · cases before with
        | nil => cases hsplit; exact haccepted
        | cons first before => cases before <;> cases hsplit
    · rw [decide_eq_false hlast] at hfinal hreason
      rw [if_neg (by rw [hfinal]; decide)]
      have hrest := ih (by omega) (by omega) hnext
      obtain ⟨entries, hentries, hcodes, hsizes⟩ := hrest.codec
      have hmore : e + packet.codecFrames < totalFrames base frame := by omega
      refine ⟨hrest.noError, ?_, ⟨(framesCodes frame e (packetFramesAt base frame q e),
        packet.isFinal) :: entries, ?_, ?_, ?_⟩, fun before p after hsplit => ?_⟩
      · refine .more hframes hmore hfinal hreason ?_
        rw [hframes]
        exact hrest.tiles
      · rw [hentries, hcodec, List.append_assoc]
        rfl
      · have hsum : totalFrames base frame - e = packetFramesAt base frame q e
            + (totalFrames base frame - (e + packetFramesAt base frame q e)) := by omega
        rw [List.flatMap_cons, hcodes, framesCodes_append, ← hsum]
      · rw [List.map_cons, List.map_cons, hsizes, hlength, hframes]
      · cases before with
        | nil => cases hsplit; exact haccepted
        | cons first before =>
          obtain ⟨rfl, hrests⟩ := List.cons.inj hsplit
          have hpos : framesOf ((packet, st'.pcm) :: before)
              = packetFramesAt base frame q e + framesOf before := by
            rw [← hframes]
            rfl
          rw [hpos, ← Nat.add_assoc]
          exact hrest.accepted before p after hrests

/-- A packet under the memory figures of another session. -/
def accounted (deviceBytes hostBytes : Nat) (p : BackendPacket × Pcm) : BackendPacket × Pcm :=
  ({ p.1 with peakRequestDeviceBytes := deviceBytes, peakRequestHostBytes := hostBytes }, p.2)

/-- Two steps in front of the same frame and behind the same log have the same packet. -/
theorem Stepped.agree {k : Nat} {st st' sd sd' : StepState} {packet other : BackendPacket}
    (h : Stepped lib base frame e k st st' packet) (h' : Stepped lib base frame e k sd sd' other)
    (hcodec : sd.session.codec = st.session.codec) (hpcm : sd.pcm = st.pcm) :
    (other, sd'.pcm) = accounted sd.session.peakRequestDeviceBytes sd.session.peakRequestHostBytes
        (packet, st'.pcm)
      ∧ sd'.session.codec = st'.session.codec := by
  obtain ⟨result, samples, hdecode, hpacket, hout⟩ := h.decoded
  obtain ⟨result', samples', hdecode', hpacket', hout'⟩ := h'.decoded
  rw [hcodec, hdecode] at hdecode'
  cases hdecode'
  constructor
  · rw [hpacket, hpacket', hout, hout', hpcm]
    rfl
  · rw [h.codec, h'.codec, hcodec]

/-- The run does not depend on the path. -/
theorem agree_from (hlib : Succeeds lib base frame) (hbase : Fresh base) (hq : 1 ≤ q)
    (hq' : q ≤ codecMaxPacketFrames) (fuel : Nat) :
    ∀ {e : Nat} {s d : NativeBackendSession}, e < totalFrames base frame →
      InFront lib base frame e s → InFront lib base frame e d → d.codec = s.codec →
      (stepUntilFinal lib q fuel d).packets = (stepUntilFinal lib q fuel s).packets.map
          (accounted d.peakRequestDeviceBytes d.peakRequestHostBytes)
        ∧ (stepUntilFinal lib q fuel d).session.codec
          = (stepUntilFinal lib q fuel s).session.codec := by
  -- by induction on the steps, side by side
  induction fuel with
  | zero =>
    intro e s d h hs hd hcodec
    exact ⟨rfl, hcodec⟩
  | succ fuel ih =>
    intro e s d h hs hd hcodec
    have hpcm : q * samplesPerFrame ≤ (freshPcm q).length := le_of_eq List.length_replicate.symm
    obtain ⟨packet, st', hstep, hstepped, hnext⟩ := stepSession_ok hlib hbase
      ⟨s, freshPcm q⟩ hq hq' h hs hpcm
    obtain ⟨other, sd', hstep', hstepped', hnext'⟩ := stepSession_ok hlib hbase
      ⟨d, freshPcm q⟩ hq hq' h hd hpcm
    obtain ⟨hsame, hlog⟩ := hstepped.agree hstepped' hcodec rfl
    -- both end with the same packet
    have hfinal : other.isFinal = packet.isFinal := by
      rw [hstepped.packet_spec.2.1, hstepped'.packet_spec.2.1]
    have hbytes := hstepped'.deviceBytes
    have hhost := hstepped'.hostBytes
    unfold stepUntilFinal
    rw [hstep, hstep']
    dsimp only
    rw [hfinal]
    by_cases hlast : packet.isFinal = true
    · rw [if_pos hlast, if_pos hlast]
      exact ⟨by rw [hsame]; rfl, hlog⟩
    · rw [if_neg hlast, if_neg hlast]
      have hmore : e + packetFramesAt base frame q e < totalFrames base frame := by
        have hend := (packetFramesAt_spec hq h).2.2
        rw [hstepped.packet_spec.2.1, decide_eq_true_eq] at hlast
        omega
      obtain ⟨hrest, hcodecs⟩ := ih hmore hnext hnext' hlog
      refine ⟨?_, hcodecs⟩
      show (other, sd'.pcm) :: _ = List.map _ ((packet, st'.pcm) :: _)
      rw [List.map_cons, hsame, hrest, hbytes, hhost]

/-- A session as `start_session` makes it. -/
structure Started (lib : Libraries) (base : NativeTalkerSession) (s : NativeBackendSession) :
    Prop where
  talker : s.talker = base
  codec : s.codec = []
  firstPacket : s.firstPacket = true
  stager : ∀ g, s.cudaStager = some g → Staged lib g []

/-- Before the first step. -/
theorem Started.inFront {s : NativeBackendSession} (h : Started lib base s) :
    InFront lib base frame 0 s :=
  ⟨h.talker, h.firstPacket, h.stager⟩

/-- **Native stepping honours the scheduler's packet contract, and the two paths agree.** For every
stream of the native talker, a run of steps ends without an error in the packets that tile the
stream, hands every frame to the codec once and in order, and the scheduler publishes every packet.
This holds for a session without a stager, which takes the host path, and for one with a stager,
which takes the device path; whichever paths two sessions take, their packets are the same, each
with its session's memory figures. -/
theorem stepping_honours_scheduler {host device : NativeBackendSession}
    {fuel : Nat} (hlib : Succeeds lib base frame) (hbase : Fresh base) (hq : 1 ≤ q)
    (hq' : q ≤ codecMaxPacketFrames) (hfuel : base.maxFrames ≤ fuel)
    (hhost : Started lib base host) (hdevice : Started lib base device) :
    Honours base frame q 0 [] (stepUntilFinal lib q fuel host)
      ∧ Honours base frame q 0 [] (stepUntilFinal lib q fuel device)
      ∧ totalFrames base frame ≤ base.maxFrames
      ∧ (stepUntilFinal lib q fuel device).packets
        = (stepUntilFinal lib q fuel host).packets.map
          (accounted device.peakRequestDeviceBytes device.peakRequestHostBytes)
      ∧ (stepUntilFinal lib q fuel device).session.codec
        = (stepUntilFinal lib q fuel host).session.codec := by
  have hpos := totalFrames_pos frame hbase
  have hlimit := totalFrames_le base frame
  have hrun := honours_from hlib hbase hq hq' fuel hpos (by omega) hhost.inFront
  have hrun' := honours_from hlib hbase hq hq' fuel hpos (by omega) hdevice.inFront
  have hagree := agree_from hlib hbase hq hq' fuel hpos hhost.inFront hdevice.inFront
    (hdevice.codec.trans hhost.codec.symm)
  rw [hhost.codec] at hrun
  rw [hdevice.codec] at hrun'
  exact ⟨hrun, hrun', hlimit, hagree⟩

end Runs

/-! ## A stream of three frames -/

/-- The third frame ends the stream. -/
def sampleFrame (i : Nat) : NativeFrame where
  codes := List.replicate codebooks i
  nextSemanticToken := if i = 2 then 2150 else 11
  info := { talkerPosition := 9 + i, endedByEos := if i = 2 then 1 else 0,
            predictorGpuMilliseconds := 0, talkerGpuMilliseconds := 0 }

/-- Its talker, -/
def sampleTalker : NativeTalkerSession where
  pooled := ⟨0, 32⟩
  trailingText := [.ttsEos]
  currentSemantic := 10
  codecEosToken := 2150
  maxFrames := 8
  recyclable := true

/-- Libraries whose calls all succeed. -/
def sampleLibraries : Libraries where
  model := {
    config := { ttsBosTokenId := 1, ttsEosTokenId := 2, ttsPadTokenId := 3, codecBosId := 4,
                codecLanguageId := [], codecNothinkId := 5, codecPadId := 6, codecThinkBosId := 7,
                codecThinkEosId := 8, codecThinkId := 9 }
    deviceIndex := 0
    deviceFrameApi := true
    batchPump := true }
  nextFrame i := .ok (sampleFrame i)
  beginFrame i := .ok ⟨40, codebooks, 4096, 512, i + 1, 0, 0⟩
  pump i := .view ⟨40, codebooks, 4096, 512, i + 1, 0, 0⟩
  codesAt i := (sampleFrame i).codes
  finish i := .ok ⟨(sampleFrame i).nextSemanticToken, (sampleFrame i).info⟩
  abandon _ := .error ⟨-3, "no frame is pending"⟩
  selectDevice _ := 0
  streamWaitEvent _ := 0
  memcpyAsync _ := 0
  eventRecord _ := 0
  cudaError _ := "no error"
  decode _ frames isFinal := .ok (⟨frames.length, frames.length * samplesPerFrame,
    if isFinal then 1 else 0, 0⟩, List.replicate (frames.length * samplesPerFrame) 1)
  beginPacket log _ := .ok ⟨77, log.length + 1⟩
  resetError := none
  devicePacket := true

/-- whose calls all succeed, -/
theorem sample_succeeds : Succeeds sampleLibraries sampleTalker sampleFrame where
  flag i := by
    show (if i = 2 then 2150 else 11) = 2150 ↔ (if i = 2 then 1 else 0) ≠ 0
    split <;> decide
  text i := by
    cases i with
    | zero => exact ⟨2, rfl⟩
    | succ i => exact ⟨3, rfl⟩
  nextFrame _ := rfl
  deviceFrameApi := rfl
  beginFrame i := ⟨_, rfl, rfl, rfl⟩
  codesAt _ := rfl
  finish _ := rfl
  cuda _ := ⟨rfl, rfl, rfl, rfl⟩
  decode log frames isFinal := by
    refine ⟨_, _, rfl, ?_⟩
    cases isFinal <;> simp [PacketResult.Inconsistent]
  devicePacket := rfl
  beginPacket log frames := ⟨_, rfl, Nat.succ_ne_zero 76, Nat.succ_ne_zero _⟩

/-- its stager -/
def sampleStager : CudaPacketStager where
  deviceIndex := 0
  deviceCodes := List.replicate codecMaxPacketFrames []
  pointer := 8192
  copiedEvent := 640

/-- and its two sessions. -/
def sampleSession (stager : Option CudaPacketStager) (deviceBytes : Nat) :
    NativeBackendSession where
  talker := sampleTalker
  cudaStager := stager
  peakRequestDeviceBytes := deviceBytes
  peakRequestHostBytes := 64

theorem stepping_honours_scheduler_sample :
    Honours sampleTalker sampleFrame 2 0 []
        (stepUntilFinal sampleLibraries 2 8 (sampleSession none 100))
      ∧ Honours sampleTalker sampleFrame 2 0 []
        (stepUntilFinal sampleLibraries 2 8 (sampleSession (some sampleStager) 228))
      ∧ totalFrames sampleTalker sampleFrame = 3
      ∧ finalReason sampleTalker sampleFrame = .codecEos := by
  have hhost : Started sampleLibraries sampleTalker (sampleSession none 100) :=
    ⟨rfl, rfl, rfl, fun g hg => by cases hg⟩
  have hdevice : Started sampleLibraries sampleTalker (sampleSession (some sampleStager) 228) :=
    ⟨rfl, rfl, rfl, fun g hg => by
      cases hg
      exact ⟨rfl, by decide, by decide, rfl, rfl, rfl, rfl⟩⟩
  have hboth := stepping_honours_scheduler (q := 2) sample_succeeds
    ⟨rfl, rfl, by decide, by decide⟩ (by decide) (by decide)
    (show sampleTalker.maxFrames ≤ 8 from le_refl 8) hhost hdevice
  exact ⟨hboth.1, hboth.2.1, by decide, by decide⟩

end Qwen3Tts.Talker.Backend
