import Qwen3Tts.Runtime.Handout
import Qwen3Tts.Talker.NativeBackend

/-!
# Talker — the statuses of the backend's errors

Every error of `start_session` and `step_session` has a status of `RuntimeStatus.isFailure`: a
literal of `native_backend.rs`, or what `map_talker_error` and `map_codec_error` make of a native
status code. So the results that `start_batch` and `step_batch` give the scheduler are those that
the C interface may rely on (`batches_native`).

A start is a sequence of `Except`, for which `nativeResult` is the property that is carried through;
a step is a program over the session, for which it is the triple `FailsNatively`.
-/

namespace Qwen3Tts.Talker.Backend

open Qwen3Tts.Lib Qwen3Tts.Runtime

/-- The program returns, or throws an error of the native backend. -/
abbrev FailsNatively {α : Type} (x : Step α) : Prop :=
  Triple (fun _ => True) x (fun _ _ => True) fun error _ => error.Native

section

variable {α β : Type} {lib : Libraries}

/-- The translation of a native status code: every code, also one that no call returns, becomes a
failure. -/
theorem talkerStatus_native {status : Int} : (talkerStatus status).isFailure = true := by
  unfold talkerStatus
  split <;> rfl

/-- An error of the talker. -/
theorem mapTalkerError_native {context : String} {error : TalkerError} :
    (mapTalkerError context error .state).Native := by
  cases error with
  | status context native => exact talkerStatus_native
  | message text => rfl

/-- An error of the codec. -/
theorem mapCodecError_native {context : String} {error : Int × String} :
    (mapCodecError context error).Native := talkerStatus_native

/-- Two programs one behind the other. -/
theorem FailsNatively.bind {x : Step α} {f : α → Step β} (hx : FailsNatively x)
    (hf : ∀ a, FailsNatively (f a)) : FailsNatively (x >>= f) :=
  Triple.bind hx hf

/-- A program that only returns. -/
theorem failsNatively_pure {a : α} : FailsNatively (pure a) :=
  Triple.pure fun _ _ => trivial

/-- A program that only reads its state. -/
theorem failsNatively_get : FailsNatively (get : Step StepState) :=
  Triple.get fun _ _ => trivial

/-- A check whose error has a failure status. -/
theorem failsNatively_throwIf {p : Prop} [Decidable p] {error : BackendError}
    (h : error.Native) : FailsNatively (throwIf p error) :=
  Triple.throwIf (fun _ _ _ => h) fun _ _ _ => trivial

/-- A result from outside the state. -/
theorem failsNatively_liftResult {result : Except BackendError α}
    (h : ∀ error, result = .error error → error.Native) : FailsNatively (liftResult result) := by
  cases result with
  | ok value => exact failsNatively_pure
  | error error => exact Triple.throw fun _ _ => h error rfl

/-- A call of the talker: its error goes through `map_talker_error`. -/
theorem failsNatively_talkerCall {context : String}
    {method : NativeTalkerSession → NativeTalkerSession × Except TalkerError α} :
    FailsNatively (talkerCall context method) := by
  intro st _
  unfold talkerCall
  dsimp only
  cases (method st.session.talker).2 with
  | ok value => trivial
  | error error => exact mapTalkerError_native

/-- A call of the codec: its error goes through `map_codec_error`. -/
theorem failsNatively_decodeInto {context : String} {frames : List Codes} {isFinal : Bool}
    {sampleCount : Nat} : FailsNatively (decodeInto lib context frames isFinal sampleCount) := by
  intro st _
  unfold decodeInto
  cases lib.decode st.session.codec frames isFinal with
  | ok result => trivial
  | error error => exact mapCodecError_native

/-- A call of the packet stager: its error has the status that the caller names. -/
theorem failsNatively_stagerCall {status : RuntimeStatus} {context : String}
    {method : CudaPacketStager → CudaPacketStager × Except String α}
    (hstatus : status.isFailure = true) : FailsNatively (stagerCall status context method) := by
  intro st _
  unfold stagerCall
  cases st.session.cudaStager with
  | none => rfl
  | some stager =>
    dsimp only
    cases (method stager).2 with
    | ok value => trivial
    | error message => exact hstatus

/-- A frame is staged. -/
theorem failsNatively_stagePending {index : Nat} {view : NativeDeviceFrameView} :
    FailsNatively (stagePending lib index view) := by
  intro st _
  have hnative : FailsNatively (stagerCall .cuda "failed to stage Talker device frame"
      (·.stageFrame lib index view)) := failsNatively_stagerCall rfl
  have hcall := hnative st trivial
  unfold stagePending
  generalize stagerCall .cuda "failed to stage Talker device frame"
    (·.stageFrame lib index view) st = staged at hcall ⊢
  cases staged with
  | ok event st => trivial
  | error error st => exact hcall

/-- A packet is begun on the device. -/
theorem failsNatively_beginPacket {frameCount : Nat} : FailsNatively (beginPacket lib frameCount) := by
  intro st _
  unfold beginPacket
  cases st.session.cudaStager with
  | none => rfl
  | some stager =>
    dsimp only
    cases beginDevicePacket lib st.session.codec stager frameCount with
    | ok output => trivial
    | error error => exact mapCodecError_native

/-- The finish reason of the last packet, for which the talker may give none. -/
theorem mapFinishReason_native {talker : NativeTalkerSession} {isFinal : Bool}
    {error : BackendError} (h : mapFinishReason talker isFinal = .error error) : error.Native := by
  unfold mapFinishReason at h
  split at h
  · cases h
    rfl
  all_goals
    split at h
    · cases h
      rfl
    · cases h

/-! ## The two loops and the step -/

/-- The loop of a packet with a copy of each frame to the host, by induction on the frames that are
left. -/
theorem failsNatively_hostFrames {left : Nat} {frames : List Codes} {time : Float32} :
    FailsNatively (hostFrames lib left frames time) := by
  induction left generalizing frames time with
  | zero => exact failsNatively_pure
  | succ left ih =>
    unfold hostFrames
    refine failsNatively_get.bind fun st => failsNatively_talkerCall.bind fun frame => ?_
    cases frame with
    | none => exact failsNatively_pure
    | some frame =>
      refine failsNatively_get.bind fun st => ?_
      split
      · exact failsNatively_pure
      · exact ih

/-- The loop of a packet that stays on the device. -/
theorem failsNatively_deviceFrames {left frameCount : Nat} {time : Float32} :
    FailsNatively (deviceFrames lib left frameCount time) := by
  induction left generalizing frameCount time with
  | zero => exact failsNatively_pure
  | succ left ih =>
    unfold deviceFrames
    refine failsNatively_get.bind fun st => failsNatively_talkerCall.bind fun view => ?_
    cases view with
    | none => exact failsNatively_pure
    | some view =>
      refine failsNatively_stagePending.bind fun event =>
        failsNatively_talkerCall.bind fun finished => failsNatively_get.bind fun st => ?_
      split
      · exact failsNatively_pure
      · exact ih

/-- A step with copies to the host. -/
theorem failsNatively_stepHostSession {requestedFrames : Nat} :
    FailsNatively (stepHostSession lib requestedFrames) := by
  unfold stepHostSession
  refine failsNatively_hostFrames.bind fun (frames, talkerTime) => ?_
  refine (failsNatively_throwIf (by rfl)).bind fun _ => failsNatively_get.bind fun st =>
    failsNatively_get.bind fun st' => ?_
  refine (failsNatively_liftResult fun _ => mapFinishReason_native).bind fun reason => ?_
  refine failsNatively_decodeInto.bind fun result => (failsNatively_throwIf (by rfl)).bind fun _ => ?_
  exact failsNatively_get.bind fun _ => failsNatively_pure

/-- The end of a packet: the codec's samples and the metrics. -/
theorem failsNatively_finishPacket {frames : List Codes} {isFinal : Bool} {sampleCount : Nat} :
    FailsNatively (finishPacket lib frames isFinal sampleCount) := by
  unfold finishPacket
  refine (failsNatively_throwIf mapCodecError_native).bind fun _ =>
    failsNatively_decodeInto.bind fun result => ?_
  exact (failsNatively_throwIf mapCodecError_native).bind fun _ => failsNatively_pure

/-- A step on the device; the two arms are a packet with frames and one without. -/
theorem failsNatively_stepDeviceSession {requestedFrames : Nat} :
    FailsNatively (stepDeviceSession lib requestedFrames) := by
  unfold stepDeviceSession
  refine (failsNatively_stagerCall (by rfl)).bind fun staged => (failsNatively_throwIf (by rfl)).bind fun _ => ?_
  refine failsNatively_deviceFrames.bind fun (frameCount, talkerTime) => ?_
  refine (failsNatively_throwIf (by rfl)).bind fun _ => (failsNatively_stagerCall (by rfl)).bind fun viewed => ?_
  refine (failsNatively_throwIf (by rfl)).bind fun _ =>
    failsNatively_beginPacket.bind fun (packet, frames) => failsNatively_get.bind fun st => ?_
  refine (failsNatively_stagerCall (by rfl)).bind fun _ => failsNatively_get.bind fun st =>
    failsNatively_get.bind fun st' => ?_
  refine (failsNatively_liftResult fun _ => mapFinishReason_native).bind fun reason => ?_
  refine failsNatively_finishPacket.bind fun result => (failsNatively_throwIf (by rfl)).bind fun _ => ?_
  exact failsNatively_get.bind fun _ => failsNatively_pure

/-- `step_session` picks one of the two. -/
theorem failsNatively_stepSession {packetFrames : Nat} :
    FailsNatively (stepSession lib packetFrames) := by
  unfold stepSession
  refine failsNatively_get.bind fun st => (failsNatively_throwIf (by rfl)).bind fun _ =>
    failsNatively_get.bind fun st' => (failsNatively_throwIf (by rfl)).bind fun _ => ?_
  refine FailsNatively.bind ?_ fun packet => FailsNatively.bind ?_ fun _ => failsNatively_pure
  · unfold stepOnPath
    refine failsNatively_get.bind fun st => ?_
    split
    · exact failsNatively_stepDeviceSession
    · exact failsNatively_stepHostSession
  · exact Triple.modify fun _ _ => trivial

end

/-! ## The start -/

section

variable {α β : Type} {x : Except BackendError α}

/-- Two stages one behind the other. -/
theorem nativeResult_bind {f : α → Except BackendError β} (hx : nativeResult x = true)
    (hf : ∀ a, nativeResult (f a) = true) : nativeResult (x >>= f) = true := by
  cases x with
  | error error => exact hx
  | ok a => exact hf a

/-- A stage whose error is translated. -/
theorem nativeResult_mapError {ε : Type} {x : Except ε α} {f : ε → BackendError}
    (hf : ∀ error, (f error).Native) : nativeResult (x.mapError f) = true := by
  cases x with
  | error error => exact hf error
  | ok a => rfl

/-- A stage whose value is used further. -/
theorem nativeResult_map {f : α → β} (hx : nativeResult x = true) :
    nativeResult (x.map f) = true := by
  cases x with
  | error error => exact hx
  | ok a => rfl

/-- A check whose error has a failure status. -/
theorem nativeResult_failIf {p : Prop} [Decidable p] {error : BackendError} (h : error.Native) :
    nativeResult (failIf p error) = true := by
  unfold failIf
  split
  · exact h
  · rfl

/-- A panic of the thread is an error of the native backend too. -/
theorem nativeResult_joined {panicked : String} {thread : Option (Except BackendError α)}
    (h : ∀ result, thread = some result → nativeResult result = true) :
    nativeResult (joined panicked thread) = true := by
  cases thread with
  | none => rfl
  | some result => exact h result rfl

end

/-- The sum of the memory sizes, which may overflow. -/
theorem checkedSum_native {values : List Nat} {message : String} :
    nativeResult (checkedSum values message) = true := by
  unfold checkedSum
  generalize 0 = total
  induction values generalizing total with
  | nil => rfl
  | cons value values ih =>
    rw [List.foldlM_cons]
    refine nativeResult_bind ?_ ih
    split <;> rfl

/-- The packet stager, where it is asked for. -/
theorem startStager_native {stager : Option (Except String (CudaPacketStager × Nat))} :
    nativeResult (startStager stager) = true := by
  cases stager with
  | none => rfl
  | some made => exact nativeResult_mapError fun _ => rfl

/-- `start_session`, stage by stage: the parallel creation of talker and codec, the stager, the
memory sums and the prefill. -/
theorem startSession_native {answers : StartAnswers} :
    nativeResult (startSession answers) = true := by
  unfold startSession
  refine nativeResult_bind (nativeResult_mapError fun _ => mapTalkerError_native)
    fun (talker, memory) => ?_
  refine nativeResult_bind (nativeResult_failIf (by rfl)) fun _ => ?_
  refine nativeResult_bind (nativeResult_mapError fun _ => by rfl) fun _ => ?_
  refine nativeResult_bind (nativeResult_mapError fun _ => by rfl) fun codecMemory => ?_
  exact nativeResult_bind startStager_native fun stager =>
    nativeResult_bind checkedSum_native fun _ => rfl

/-! ## The batch calls -/

/-- The result of one session's step. -/
theorem stepResult_native {packetFrames : Nat} {lib : Libraries} {st : StepState} :
    nativeResult (stepResult packetFrames lib st) = true := by
  have hstep := @failsNatively_stepSession lib packetFrames st trivial
  unfold stepResult
  cases hrun : stepSession lib packetFrames st with
  | ok packet st' => rfl
  | error error st' =>
    rw [hrun] at hstep
    exact hstep

/-- **The backend keeps its side**: a call of `start_batch` or `step_batch`, one request a thread,
is a native choice of the scheduler, threads that panic included. -/
theorem batches_native :
    (∀ starts, (Choice.startBatch (some (startBatch starts))).native = true) ∧
    ∀ packetFrames steps write,
      (Choice.stepBatch write (some (stepBatch packetFrames steps))).native = true := by
  constructor
  · intro starts
    show (startBatch starts).all nativeResult = true
    rw [startBatch, List.all_map, List.all_eq_true]
    intro answers _
    refine nativeResult_joined fun result hresult => ?_
    obtain ⟨answers, -, rfl⟩ := Option.map_eq_some_iff.mp hresult
    exact nativeResult_map startSession_native
  · intro packetFrames steps write
    show (stepBatch packetFrames steps).all nativeResult = true
    rw [stepBatch, List.all_map, List.all_eq_true]
    intro thread _
    refine nativeResult_joined fun result hresult => ?_
    obtain ⟨thread, -, rfl⟩ := Option.map_eq_some_iff.mp hresult
    exact stepResult_native

end Qwen3Tts.Talker.Backend
