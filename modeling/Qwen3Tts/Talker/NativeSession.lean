import Qwen3Tts.Talker.Prompt

/-!
# Talker — the session of `native_talker.rs`

`NativeTalkerSession` as a value: the host path (`next_frame`), the device path
(`begin_device_frame`, `begin_device_frame_batched` and the `PendingTalkerFrame` they lend out) and
`cancel`. A method that calls the native library takes the library's answer as an argument and
returns the session behind the call with what the caller gets; an answer is read only where the
method makes its call.

A handle is a number, never null. Lease ids, CUDA pointers and events are their bit patterns,
where only zero is told apart; the sampling configurations are handed on to the library unread
and are left out.
-/

namespace Qwen3Tts.Talker

open Qwen3Tts.Lib Qwen3Tts.Runtime

/-! ## Types -/

abbrev SessionHandle := Nat

def maxPooledSessions : Nat := 8

def codebooks : Nat := 16

inductive SessionEndReason where
  | codecEos | maxFrames | cancelled
  deriving DecidableEq, Repr

/-- What a native call that does not return zero leaves behind. -/
structure NativeStatusError where
  status : Int
  message : String
  deriving DecidableEq, Repr

/-- An `anyhow` error of the session: a native status, under the context it was given, or a
message of its own. -/
inductive TalkerError where
  | status (context : Option String) (error : NativeStatusError)
  | message (text : String)
  deriving DecidableEq, Repr

structure NativeFrameInfo where
  talkerPosition : Nat
  endedByEos : Nat
  predictorGpuMilliseconds : Float32
  talkerGpuMilliseconds : Float32
  deriving DecidableEq

/-- What `qwen3_tts_session_next_frame` writes. -/
structure NativeFrame where
  codes : List Nat
  nextSemanticToken : Nat
  info : NativeFrameInfo
  deriving DecidableEq

structure NativeDeviceFrameView where
  structSize : Nat
  codeCount : Nat
  deviceCodes : Nat
  readyEvent : Nat
  leaseId : Nat
  deviceIndex : Int
  reserved : Nat
  deriving DecidableEq, Repr

/-- `size_of::<NativeDeviceFrameViewV2>()`. -/
def NativeDeviceFrameView.sizeOf : Nat := 40

/-- What `qwen3_tts_session_next_frame_finish` writes. -/
structure NativeFinish where
  nextSemanticToken : Nat
  info : NativeFrameInfo
  deriving DecidableEq

structure StreamingCodecFrame where
  codes : List Nat
  frameIndex : Nat
  nextSemanticToken : Nat
  talkerPosition : Nat
  predictorGpuMilliseconds : Float32
  talkerGpuMilliseconds : Float32
  endedByEos : Bool
  deriving DecidableEq

structure FinishedDeviceFrame where
  frameIndex : Nat
  nextSemanticToken : Nat
  talkerPosition : Nat
  predictorGpuMilliseconds : Float32
  talkerGpuMilliseconds : Float32
  endedByEos : Bool
  deriving DecidableEq

structure PooledSession where
  handle : SessionHandle
  maxSequenceLength : Nat
  deriving DecidableEq, Repr

structure NativeTalkerSession where
  pooled : PooledSession
  trailingText : List TextSource
  currentSemantic : Nat
  codecEosToken : Nat
  framesEmitted : Nat := 0
  maxFrames : Nat
  endReason : Option SessionEndReason := none
  recyclable : Bool := false
  deriving DecidableEq, Repr

/-- What a session sees of its model. -/
structure TalkerModelInfo where
  config : ModelConfig
  deviceIndex : Int
  /-- Whether the loaded library has the device-frame calls. -/
  deviceFrameApi : Bool
  /-- Whether the batch pump was started. -/
  batchPump : Bool
  deriving DecidableEq, Repr

/-! ## Methods -/

namespace NativeTalkerSession

def isEnded (s : NativeTalkerSession) : Bool := s.endReason.isSome

def cancel (s : NativeTalkerSession) : NativeTalkerSession :=
  if s.endReason.isNone then { s with endReason := some .cancelled } else s

/-- The three tests that open `next_frame`, `begin_device_frame` and
`begin_device_frame_batched`: the session that returns `Ok(None)`. -/
def exhausted (s : NativeTalkerSession) : Option NativeTalkerSession :=
  if s.endReason.isSome then some s
  else if s.maxFrames ≤ s.framesEmitted then some { s with endReason := some .maxFrames }
  else if s.currentSemantic = s.codecEosToken then some { s with endReason := some .codecEos }
  else none

/-- The text that goes with the next frame. -/
def textId (s : NativeTalkerSession) (model : TalkerModelInfo) : Except TalkerError Int :=
  match model.config.textSourceId (s.trailingText.getD s.framesEmitted .ttsPad) with
  | .ok id => .ok id
  | .error text => .error (.message text)

/-- The end reason behind a frame. -/
def reasonAfter (s : NativeTalkerSession) (endedByEos : Bool) : Option SessionEndReason :=
  if endedByEos then some .codecEos
  else if s.maxFrames ≤ s.framesEmitted then some .maxFrames
  else s.endReason

def eosDisagrees : String := "native EOS flag disagrees with the semantic token"

/-- `next_frame`. -/
def nextFrame (s : NativeTalkerSession) (model : TalkerModelInfo)
    (answer : Except NativeStatusError NativeFrame) :
    NativeTalkerSession × Except TalkerError (Option StreamingCodecFrame) :=
  match s.exhausted with
  | some s => (s, .ok none)
  | none =>
    match s.textId model with
    | .error error => (s, .error error)
    | .ok _ =>
      match answer with
      | .error error => ({ s with recyclable := false }, .error (.status none error))
      | .ok native =>
        let frameIndex := s.framesEmitted
        let s := { s with
          framesEmitted := s.framesEmitted + 1
          currentSemantic := native.nextSemanticToken }
        let endedByEos := s.currentSemantic = s.codecEosToken
        if decide endedByEos ≠ decide (native.info.endedByEos ≠ 0) then
          (s, .error (.message eosDisagrees))
        else
          ({ s with endReason := s.reasonAfter endedByEos }, .ok (some {
            codes := native.codes
            frameIndex := frameIndex
            nextSemanticToken := native.nextSemanticToken
            talkerPosition := native.info.talkerPosition
            predictorGpuMilliseconds := native.info.predictorGpuMilliseconds
            talkerGpuMilliseconds := native.info.talkerGpuMilliseconds
            endedByEos := endedByEos }))

end NativeTalkerSession

/-- The checks on the view of a device frame. -/
def NativeDeviceFrameView.validate (view : NativeDeviceFrameView) (deviceIndex : Int) :
    Except TalkerError Unit := do
  failIf (view.structSize ≠ sizeOf) (.message "native device-frame view has an invalid size")
  failIf (view.codeCount ≠ codebooks)
    (.message "native device-frame view has an invalid code count")
  failIf (view.deviceCodes = 0 ∨ view.readyEvent = 0)
    (.message "native device-frame view returned a null CUDA value")
  failIf (view.leaseId = 0) (.message "native device-frame view returned lease zero")
  failIf (view.deviceIndex ≠ deviceIndex)
    (.message "native device-frame view returned the wrong CUDA device")
  failIf (view.reserved ≠ 0)
    (.message "native device-frame view returned a nonzero reserved field")

/-- How the batch pump answers a frame request. -/
inductive PumpAnswer where
  /-- `submit` fails. -/
  | shutDown
  /-- The responder is dropped without an answer. -/
  | dropped
  | failed (message : String)
  | view (view : NativeDeviceFrameView)
  deriving DecidableEq, Repr

namespace NativeTalkerSession

/-- What both ways to begin a device frame do with the view. -/
def lend (s : NativeTalkerSession) (model : TalkerModelInfo) (view : NativeDeviceFrameView) :
    NativeTalkerSession × Except TalkerError (Option NativeDeviceFrameView) :=
  match view.validate model.deviceIndex with
  | .error error => ({ s with recyclable := false }, .error error)
  | .ok () => (s, .ok (some view))

/-- `begin_device_frame`; the view stands for the `PendingTalkerFrame` around it. -/
def beginDeviceFrame (s : NativeTalkerSession) (model : TalkerModelInfo)
    (answer : Except NativeStatusError NativeDeviceFrameView) :
    NativeTalkerSession × Except TalkerError (Option NativeDeviceFrameView) :=
  match s.exhausted with
  | some s => (s, .ok none)
  | none =>
    if !model.deviceFrameApi then
      (s, .error (.message "native talker does not support device-frame leases"))
    else match s.textId model with
    | .error error => (s, .error error)
    | .ok _ =>
      match answer with
      | .error error => ({ s with recyclable := false },
          .error (.status (some "failed to begin a native device frame") error))
      | .ok view => s.lend model view

/-- `begin_device_frame_batched` behind its two detours to `begin_device_frame`. -/
def beginBatched (s : NativeTalkerSession) (model : TalkerModelInfo) (answer : PumpAnswer) :
    NativeTalkerSession × Except TalkerError (Option NativeDeviceFrameView) :=
  match s.exhausted with
  | some s => (s, .ok none)
  | none =>
    match s.textId model with
    | .error error => (s, .error error)
    | .ok _ =>
      let failed := fun text =>
        ({ s with recyclable := false }, .error (TalkerError.message text))
      match answer with
      | .shutDown => failed "the batch frame pump has shut down"
      | .dropped => failed "the batch frame pump dropped a pending frame request"
      | .failed message =>
        failed ("failed to begin a native batched device frame: " ++ message)
      | .view view => s.lend model view

/-- `begin_device_frame_batched`. The first frame of a session does not wait for the
rendezvous. -/
def beginDeviceFrameBatched (s : NativeTalkerSession) (model : TalkerModelInfo)
    (direct : Except NativeStatusError NativeDeviceFrameView) (pump : PumpAnswer) :
    NativeTalkerSession × Except TalkerError (Option NativeDeviceFrameView) :=
  if !model.batchPump then s.beginDeviceFrame model direct
  else if s.framesEmitted = 0 then s.beginDeviceFrame model direct
  else s.beginBatched model pump

/-- `finish_device_native_raw`. -/
def finishDeviceNativeRaw (s : NativeTalkerSession) (model : TalkerModelInfo)
    (answer : Except NativeStatusError NativeFinish) :
    NativeTalkerSession × Except TalkerError NativeFinish :=
  if !model.deviceFrameApi then
    (s, .error (.message "native talker does not support device-frame leases"))
  else match answer with
  | .error error => ({ s with recyclable := false },
      .error (.status (some "failed to finish a native device frame") error))
  | .ok native => (s, .ok native)

/-- `commit_finished_device_frame`. -/
def commitFinishedDeviceFrame (s : NativeTalkerSession) (native : NativeFinish) :
    NativeTalkerSession × Except TalkerError FinishedDeviceFrame :=
  let endedByEos := native.nextSemanticToken = s.codecEosToken
  if decide endedByEos ≠ decide (native.info.endedByEos ≠ 0) then
    ({ s with recyclable := false }, .error (.message eosDisagrees))
  else
    let frameIndex := s.framesEmitted
    let s := { s with
      framesEmitted := s.framesEmitted + 1
      currentSemantic := native.nextSemanticToken }
    ({ s with endReason := s.reasonAfter endedByEos }, .ok {
      frameIndex := frameIndex
      nextSemanticToken := native.nextSemanticToken
      talkerPosition := native.info.talkerPosition
      predictorGpuMilliseconds := native.info.predictorGpuMilliseconds
      talkerGpuMilliseconds := native.info.talkerGpuMilliseconds
      endedByEos := endedByEos })

/-- `PendingTalkerFrame::drop` of a frame that was not finished; the answer of its own finish call
is thrown away. -/
def abandon (s : NativeTalkerSession) (model : TalkerModelInfo)
    (answer : Except NativeStatusError NativeFinish) : NativeTalkerSession :=
  { (s.finishDeviceNativeRaw model answer).1 with
    recyclable := false
    endReason := some .cancelled }

/-- `PendingTalkerFrame::complete` with the drop of the frame behind it; `again` is what the finish
call of that drop returns, where there is one. -/
def complete (s : NativeTalkerSession) (model : TalkerModelInfo)
    (answer again : Except NativeStatusError NativeFinish) :
    NativeTalkerSession × Except TalkerError FinishedDeviceFrame :=
  match s.finishDeviceNativeRaw model answer with
  | (s, .error error) => (s.abandon model again, .error error)
  | (s, .ok native) => s.commitFinishedDeviceFrame native

/-- `finish_with_consumer_event`. A null event leaves the frame to its drop. -/
def finishWithConsumerEvent (s : NativeTalkerSession) (model : TalkerModelInfo) (event : Nat)
    (answer again : Except NativeStatusError NativeFinish) :
    NativeTalkerSession × Except TalkerError FinishedDeviceFrame :=
  if event = 0 then
    (s.abandon model again, .error (.message "consumer completion event must not be null"))
  else s.complete model answer again

/-! ## What the methods keep -/

/-- The methods keep the handle of a session, and none of them makes a session recyclable. -/
structure Kept (s s' : NativeTalkerSession) : Prop where
  pooled : s'.pooled = s.pooled
  recyclable : s'.recyclable = true → s.recyclable = true

variable {s : NativeTalkerSession} {model : TalkerModelInfo}

theorem Kept.refl (s : NativeTalkerSession) : Kept s s := ⟨rfl, id⟩

/-- What one method keeps and the next keeps is kept. -/
theorem Kept.trans {s₁ s₂ s₃ : NativeTalkerSession} (h : Kept s₁ s₂) (h' : Kept s₂ s₃) :
    Kept s₁ s₃ :=
  ⟨h'.pooled.trans h.pooled, fun hr => h.recyclable (h'.recyclable hr)⟩

theorem kept_cancel : Kept s s.cancel := by
  unfold cancel
  split
  · exact ⟨rfl, id⟩
  · exact .refl s

theorem kept_exhausted {s' : NativeTalkerSession} (h : s.exhausted = some s') : Kept s s' := by
  unfold exhausted at h
  split at h
  · cases h; exact .refl s
  split at h
  · cases h; exact ⟨rfl, id⟩
  split at h
  · cases h; exact ⟨rfl, id⟩
  · cases h

/-- `next_frame` keeps it, whatever the library answers. -/
theorem kept_nextFrame (answer : Except NativeStatusError NativeFrame) :
    Kept s (s.nextFrame model answer).1 := by
  unfold nextFrame
  split
  · exact kept_exhausted ‹_›
  split
  · exact .refl s
  split
  · exact ⟨rfl, fun h => by cases h⟩
  · dsimp only
    split <;> exact ⟨rfl, id⟩

theorem kept_lend (view : NativeDeviceFrameView) : Kept s (s.lend model view).1 := by
  unfold lend
  split
  · exact ⟨rfl, fun h => by cases h⟩
  · exact .refl s

/-- So does `begin_device_frame`. -/
theorem kept_beginDeviceFrame (answer : Except NativeStatusError NativeDeviceFrameView) :
    Kept s (s.beginDeviceFrame model answer).1 := by
  unfold beginDeviceFrame
  split
  · exact kept_exhausted ‹_›
  split
  · exact .refl s
  split
  · exact .refl s
  split
  · exact ⟨rfl, fun h => by cases h⟩
  · exact kept_lend _

/-- So does the batched begin. -/
theorem kept_beginBatched (answer : PumpAnswer) : Kept s (s.beginBatched model answer).1 := by
  unfold beginBatched
  split
  · exact kept_exhausted ‹_›
  split
  · exact .refl s
  cases answer with
  | shutDown | dropped | failed message => exact ⟨rfl, fun h => by cases h⟩
  | view view => exact kept_lend view

theorem kept_beginDeviceFrameBatched (direct : Except NativeStatusError NativeDeviceFrameView)
    (pump : PumpAnswer) : Kept s (s.beginDeviceFrameBatched model direct pump).1 := by
  unfold beginDeviceFrameBatched
  split
  · exact kept_beginDeviceFrame direct
  split
  · exact kept_beginDeviceFrame direct
  · exact kept_beginBatched pump

theorem kept_finishDeviceNativeRaw (answer : Except NativeStatusError NativeFinish) :
    Kept s (s.finishDeviceNativeRaw model answer).1 := by
  unfold finishDeviceNativeRaw
  split
  · exact .refl s
  split
  · exact ⟨rfl, fun h => by cases h⟩
  · exact .refl s

theorem kept_commitFinishedDeviceFrame (native : NativeFinish) :
    Kept s (s.commitFinishedDeviceFrame native).1 := by
  unfold commitFinishedDeviceFrame
  dsimp only
  split
  · exact ⟨rfl, fun h => by cases h⟩
  · exact ⟨rfl, id⟩

theorem kept_abandon (answer : Except NativeStatusError NativeFinish) :
    Kept s (s.abandon model answer) :=
  ⟨(kept_finishDeviceNativeRaw answer).pooled, fun h => by cases h⟩

/-- So does the end of a frame. -/
theorem kept_complete (answer again : Except NativeStatusError NativeFinish) :
    Kept s (s.complete model answer again).1 := by
  have hfinish : Kept s (s.finishDeviceNativeRaw model answer).1 := kept_finishDeviceNativeRaw answer
  unfold complete
  split <;> rename_i heq <;> rw [heq] at hfinish
  · exact hfinish.trans (kept_abandon again)
  · exact hfinish.trans (kept_commitFinishedDeviceFrame _)

theorem kept_finishWithConsumerEvent (event : Nat)
    (answer again : Except NativeStatusError NativeFinish) :
    Kept s (s.finishWithConsumerEvent model event answer again).1 := by
  unfold finishWithConsumerEvent
  split
  · exact kept_abandon again
  · exact kept_complete answer again

/-! ## Failed frame calls -/

/-- Whether a frame method gets as far as its native call. -/
def reachesCall (s : NativeTalkerSession) (model : TalkerModelInfo) : Bool :=
  s.exhausted.isNone && (s.textId model).isOk

/-- Whether `begin_device_frame` reaches the library. -/
def callsBegin (s : NativeTalkerSession) (model : TalkerModelInfo) : Bool :=
  s.reachesCall model && model.deviceFrameApi

/-- Whether `begin_device_frame_batched` gets as far as its native call, or as its submission to
the pump. -/
def callsBeginBatched (s : NativeTalkerSession) (model : TalkerModelInfo) : Bool :=
  if model.batchPump && s.framesEmitted ≠ 0 then s.reachesCall model else s.callsBegin model

/-- The flag of a native frame disagrees with its token. -/
def disagrees (s : NativeTalkerSession) (native : NativeFrame) : Bool :=
  decide (native.nextSemanticToken = s.codecEosToken) != decide (native.info.endedByEos ≠ 0)

/-- A failed `next_frame` leaves a session that does not go back to the pool. -/
theorem not_recyclable_nextFrame {answer : Except NativeStatusError NativeFrame}
    (hcall : s.reachesCall model = true) (herror : (s.nextFrame model answer).2.isOk = false)
    (htrusted : ∀ native, answer = .ok native → s.recyclable = true → s.disagrees native = false) :
    (s.nextFrame model answer).1.recyclable = false := by
  obtain ⟨hnone, hok⟩ : s.exhausted = none ∧ (s.textId model).isOk = true := by
    simpa [reachesCall] using hcall
  unfold nextFrame at herror ⊢
  rw [hnone] at herror ⊢
  dsimp only at herror ⊢
  cases htext : s.textId model with
  | error error => rw [htext] at hok; cases hok
  | ok id =>
    rw [htext] at herror
    cases answer with
    | error error => rfl
    | ok native =>
      dsimp only at herror ⊢
      -- Only the test of the flag can fail here, and it leaves the session as recyclable as it was.
      split at herror
      · rename_i hflag
        rw [if_pos hflag]
        refine Bool.eq_false_iff.mpr fun hrecyclable => hflag ?_
        exact bne_eq_false_iff_eq.mp (htrusted native rfl hrecyclable)
      · cases herror

/-- So does a view that is refused. -/
theorem not_recyclable_lend {view : NativeDeviceFrameView}
    (herror : (s.lend model view).2.isOk = false) :
    (s.lend model view).1.recyclable = false := by
  unfold lend at herror ⊢
  split at herror
  · rfl
  · cases herror

/-- So does a failed `begin_device_frame`. -/
theorem not_recyclable_beginDeviceFrame {answer : Except NativeStatusError NativeDeviceFrameView}
    (hcall : s.callsBegin model = true) (herror : (s.beginDeviceFrame model answer).2.isOk = false) :
    (s.beginDeviceFrame model answer).1.recyclable = false := by
  obtain ⟨⟨hnone, hok⟩, hapi⟩ :
      (s.exhausted = none ∧ (s.textId model).isOk = true) ∧ model.deviceFrameApi = true := by
    simpa [callsBegin, reachesCall] using hcall
  unfold beginDeviceFrame at herror ⊢
  rw [hnone] at herror ⊢
  simp only [hapi, Bool.not_true, Bool.false_eq_true, if_false] at herror ⊢
  cases htext : s.textId model with
  | error error => rw [htext] at hok; cases hok
  | ok id =>
    rw [htext] at herror
    cases answer with
    | error error => rfl
    | ok view => exact not_recyclable_lend herror

/-- So does a failed batched begin. -/
theorem not_recyclable_beginBatched {answer : PumpAnswer} (hcall : s.reachesCall model = true)
    (herror : (s.beginBatched model answer).2.isOk = false) :
    (s.beginBatched model answer).1.recyclable = false := by
  obtain ⟨hnone, hok⟩ : s.exhausted = none ∧ (s.textId model).isOk = true := by
    simpa [reachesCall] using hcall
  unfold beginBatched at herror ⊢
  rw [hnone] at herror ⊢
  dsimp only at herror ⊢
  cases htext : s.textId model with
  | error error => rw [htext] at hok; cases hok
  | ok id =>
    rw [htext] at herror
    cases answer with
    | shutDown | dropped | failed message => rfl
    | view view => exact not_recyclable_lend herror

/-- And in either of the two ways to begin. -/
theorem not_recyclable_beginDeviceFrameBatched
    {direct : Except NativeStatusError NativeDeviceFrameView} {pump : PumpAnswer}
    (hcall : s.callsBeginBatched model = true)
    (herror : (s.beginDeviceFrameBatched model direct pump).2.isOk = false) :
    (s.beginDeviceFrameBatched model direct pump).1.recyclable = false := by
  unfold beginDeviceFrameBatched at herror ⊢
  unfold callsBeginBatched at hcall
  cases hpump : model.batchPump with
  | false =>
    simp only [hpump, Bool.not_false, if_true, Bool.false_and, Bool.false_eq_true,
      if_false] at herror hcall ⊢
    exact not_recyclable_beginDeviceFrame hcall herror
  | true =>
    simp only [hpump, Bool.not_true, Bool.false_eq_true, if_false, Bool.true_and,
      decide_eq_true_eq] at herror hcall ⊢
    split at herror
    · rename_i hfirst
      rw [if_neg (not_not.mpr hfirst)] at hcall
      rw [if_pos hfirst]
      exact not_recyclable_beginDeviceFrame hcall herror
    · rename_i hlater
      rw [if_pos hlater] at hcall
      rw [if_neg hlater]
      exact not_recyclable_beginBatched hcall herror

/-- So does a failed end of a frame. -/
theorem not_recyclable_complete {answer again : Except NativeStatusError NativeFinish}
    (herror : (s.complete model answer again).2.isOk = false) :
    (s.complete model answer again).1.recyclable = false := by
  unfold complete at herror ⊢
  split at herror
  · rfl
  · unfold commitFinishedDeviceFrame at herror ⊢
    dsimp only at herror ⊢
    split at herror
    · rename_i hflag
      rw [if_pos hflag]
    · cases herror

/-- So does a failed finish. -/
theorem not_recyclable_finishWithConsumerEvent {event : Nat}
    {answer again : Except NativeStatusError NativeFinish}
    (herror : (s.finishWithConsumerEvent model event answer again).2.isOk = false) :
    (s.finishWithConsumerEvent model event answer again).1.recyclable = false := by
  unfold finishWithConsumerEvent at herror ⊢
  split at herror
  · rename_i hnull
    rw [if_pos hnull]
    rfl
  · rename_i hevent
    rw [if_neg hevent]
    exact not_recyclable_complete herror

end NativeTalkerSession

end Qwen3Tts.Talker
