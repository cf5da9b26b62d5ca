import Mathlib.Data.List.GetD
import Qwen3Tts.Lib.Throwing
import Qwen3Tts.Runtime.Buffers
import Qwen3Tts.Runtime.Handout

/-!
# Runtime — `qwen3_tts_request_poll_v1`

The C entry point of `ffi.rs` over the scheduler: `ffi_call`, the five argument checks, the loop
of `RequestHandle::poll` and the copy into the caller's buffers. One thread makes the calls on one
request, one after the other, and every lock it takes is a step of its own, so that the worker,
`cancel` and the clients of other requests move in between.

Pointers are addresses, null is zero. The caller's memory is kept by type: buffers that overlap,
or a request pointer that passes its check without being the request's handle, are outside the
contract of the C header. What a call took from the queue (`taken`) is recorded with what it
returned; the code does not keep it.
-/

namespace Qwen3Tts.Runtime

open Qwen3Tts.Lib

/-! ## Errors -/

structure CallError where
  status : RuntimeStatus
  message : String
  deriving DecidableEq, Repr

def CallError.invalidArgument (message : String) : CallError := ⟨.invalidArgument, message⟩

/-- `From<BackendError>`. -/
def CallError.ofBackend (error : BackendError) : CallError := ⟨error.status, error.message⟩

/-! ## The caller's memory -/

/-- The `char`, `i16` and descriptor cells, by address. -/
structure Memory where
  chars : Nat → UInt8
  samples : Nat → Int16
  descriptors : Nat → AudioPacketDescriptor

/-- `AudioPacketDescriptor::default`. -/
def AudioPacketDescriptor.default : AudioPacketDescriptor where
  requestId := 0
  sequence := 0
  firstCodecFrame := 0
  firstSample := 0
  codecFrames := 0
  sampleCount := 0
  sampleRate := 0
  channels := 0
  isFinal := 0
  talkerGpuMicroseconds := .zero
  codecGpuMicroseconds := .zero
  endToEndMicroseconds := .zero

namespace Memory

/-- `pointer.write` of a descriptor. -/
def writeDescriptor (m : Memory) (pointer : Nat) (descriptor : AudioPacketDescriptor) : Memory :=
  { m with descriptors := Function.update m.descriptors pointer descriptor }

/-- `ptr::copy_nonoverlapping` of samples; two bytes each. -/
def copySamples (m : Memory) (pointer : Nat) (samples : Pcm) : Memory :=
  { m with samples := fun address =>
      if pointer ≤ address ∧ (address - pointer) % 2 = 0 then
        samples.getD ((address - pointer) / 2) (m.samples address)
      else m.samples address }

/-- `ptr::copy_nonoverlapping` of bytes. -/
def copyChars (m : Memory) (pointer : Nat) (bytes : List UInt8) : Memory :=
  { m with chars := fun address =>
      if pointer ≤ address then bytes.getD (address - pointer) (m.chars address)
      else m.chars address }

/-- The `count` samples from `pointer` on, as the caller reads them back. -/
def readSamples (m : Memory) (pointer count : Nat) : Pcm :=
  (List.range count).map fun k => m.samples (pointer + 2 * k)

/-- `clear_error_buffer`; `none` is `false`. -/
def clearErrorBuffer (m : Memory) (pointer capacity : Nat) : Option Memory :=
  if capacity = 0 then
    if pointer = 0 then some m else none
  else if pointer = 0 then none
  else some (m.copyChars pointer [0])

end Memory

/-- `while !message.is_char_boundary(end) { end -= 1 }`. -/
def charBoundaryBelow (message : String) : Nat → Nat
  | 0 => 0
  | n + 1 =>
    if String.Pos.Raw.isValid message ⟨n + 1⟩ then n + 1 else charBoundaryBelow message n

def Memory.writeErrorBuffer (m : Memory) (pointer capacity : Nat) (message : String) : Memory :=
  if pointer = 0 ∨ capacity = 0 then m
  else
    let stop := charBoundaryBelow message (min message.utf8ByteSize (capacity - 1))
    m.copyChars pointer (message.toUTF8.data.toList.take stop ++ [0])

/-! ## The argument checks -/

structure PollArguments where
  request : Nat
  timeoutMilliseconds : Nat
  pcmOutput : Nat
  pcmCapacitySamples : Nat
  packet : Nat
  error : Nat
  errorCapacity : Nat
  deriving DecidableEq, Repr

/-- `align_of::<Qwen3TtsRequestV1>()`. -/
def requestAlign : Nat := 8

/-- `align_of::<AudioPacketDescriptor>()`. -/
def descriptorAlign : Nat := 8

/-- `align_of::<i16>()`. -/
def sampleAlign : Nat := 2

def validateConstPointer (pointer alignOf : Nat) (message : String) : Except CallError Unit :=
  if pointer = 0 ∨ pointer % alignOf ≠ 0 then .error (.invalidArgument message) else .ok ()

def validateMutPointer (pointer alignOf : Nat) (message : String) : Except CallError Unit :=
  validateConstPointer pointer alignOf message

def validateMutHandle (pointer alignOf : Nat) (message : String) : Except CallError Unit :=
  validateMutPointer pointer alignOf message

/-- `borrow_handle`, up to the reference it returns. -/
def borrowHandle (pointer alignOf : Nat) (message : String) : Except CallError Unit :=
  validateMutHandle pointer alignOf message

def validatePcmOutput (pointer capacity : Nat) : Except CallError Unit :=
  if capacity = 0 then .error (.invalidArgument "PCM output capacity must not be zero")
  else validateMutPointer pointer sampleAlign "PCM output pointer is null or misaligned"

/-- `packet_frames as usize` times `SAMPLES_PER_CODEC_FRAME as usize`, by `checked_mul`. -/
def requiredCapacity (packetFrames : Nat) : Except CallError Nat :=
  if packetFrames * samplesPerCodecFrame < 2 ^ 64 then .ok (packetFrames * samplesPerCodecFrame)
  else .error (.invalidArgument "configured PCM capacity overflowed")

/-- `prepare_value_output` of the packet descriptor. -/
def prepareValueOutput (pointer : Nat) (message : String) : EStateM CallError Memory Unit := do
  MonadExcept.ofExcept (validateMutPointer pointer descriptorAlign message)
  modify (·.writeDescriptor pointer .default)

/-- The closure of `qwen3_tts_request_poll_v1` up to its call of `poll`. -/
def checkArguments (packetFrames : Nat) (arguments : PollArguments) :
    EStateM CallError Memory Unit := do
  MonadExcept.ofExcept (borrowHandle arguments.request requestAlign
    "request pointer is null or misaligned")
  prepareValueOutput arguments.packet "packet output pointer is null or misaligned"
  let required ← MonadExcept.ofExcept (requiredCapacity packetFrames)
  throwIf (arguments.pcmCapacitySamples < required)
    (.invalidArgument "PCM output capacity is smaller than the configured packet size")
  MonadExcept.ofExcept (validatePcmOutput arguments.pcmOutput arguments.pcmCapacitySamples)

/-! ## A thread that polls one request -/

/-- `OwnedAudioPacket::pcm`; `none` is the panic of the slice. -/
def OwnedAudioPacket.pcmSlice (audio : OwnedAudioPacket) : Option Pcm :=
  if audio.descriptor.sampleCount ≤ audio.pcm.length then
    some (audio.pcm.take audio.descriptor.sampleCount)
  else none

/-- A call that has passed the argument checks. -/
structure PollCall where
  arguments : PollArguments
  /-- Microseconds; `u32` milliseconds never overflow an `Instant`. -/
  deadline : Nat
  deriving DecidableEq, Repr

/-- Where the thread is. -/
inductive Progress where
  | idle
  /-- `poll` is about to lock the state. -/
  | polling (call : PollCall)
  /-- `poll` waits on `changed`. -/
  | waiting (call : PollCall)
  /-- The packet is popped, nothing is copied. -/
  | writing (call : PollCall) (audio : OwnedAudioPacket)
  /-- The closure has its result, the packet is about to be dropped. -/
  | dropping (call : PollCall) (audio : OwnedAudioPacket) (result : Except CallError RuntimeStatus)

/-- The packets a call in progress has taken from the queue. -/
def Progress.taken : Progress → List OwnedAudioPacket
  | .idle | .polling _ | .waiting _ => []
  | .writing _ audio | .dropping _ audio _ => [audio]

/-- A call that has returned. -/
structure Return where
  status : RuntimeStatus
  taken : List OwnedAudioPacket
  /-- What the caller finds at its two output pointers after `OK`. -/
  output : Option (AudioPacketDescriptor × Pcm)

structure Caller where
  sys : Sys
  memory : Memory
  progress : Progress
  returns : List Return

inductive CallerAction where
  | call (arguments : PollArguments)
  /-- One turn of the loop of `poll`. -/
  | turn
  /-- The wait ends: `changed` was notified, or woke up for nothing, or the time is over. -/
  | wake (timedOut : Bool)
  | write
  | release
  /-- The worker, another client, or `cancel` and `destroy` of this request. -/
  | other (action : Action)

/-- What only the polling thread does to request `id`, and the end of `destroy` while a call is
going on. -/
def Progress.forbids (id : Nat) : Progress → Action → Bool
  | _, .poll key => key = id
  | _, .dropPacket key _ => key = id
  | .idle, .dropHandle _ => false
  | _, .dropHandle key => key = id
  | _, _ => false

namespace Caller

/-- No call was made yet. -/
def init (config : EngineConfig) (memory : Memory) : Caller where
  sys := .init config
  memory := memory
  progress := .idle
  returns := []

/-- `ffi_call` returns; it owes the caller a message after an error. -/
def finish (c : Caller) (arguments : PollArguments) (result : Except CallError RuntimeStatus) :
    Caller :=
  match result with
  | .error error => { c with
      memory := c.memory.writeErrorBuffer arguments.error arguments.errorCapacity error.message
      progress := .idle
      returns := c.returns ++ [⟨error.status, c.progress.taken, none⟩] }
  | .ok status =>
    let descriptor := c.memory.descriptors arguments.packet
    let output := (descriptor, c.memory.readSamples arguments.pcmOutput descriptor.sampleCount)
    { c with
      progress := .idle
      returns := c.returns ++
        [⟨status, c.progress.taken, if status = .ok then some output else none⟩] }

/-- `ffi_call` up to the call of `poll`. -/
def call (c : Caller) (arguments : PollArguments) : Caller :=
  match c.memory.clearErrorBuffer arguments.error arguments.errorCapacity with
  | none => { c with returns := c.returns ++ [⟨.invalidArgument, [], none⟩] }
  | some memory =>
    match checkArguments c.sys.config.packetFrames arguments memory with
    | .error error memory => { c with memory := memory }.finish arguments (.error error)
    | .ok () memory => { c with
        memory := memory
        progress := .polling ⟨arguments, c.sys.now + arguments.timeoutMilliseconds * 1000⟩ }

/-- What `poll` and the `match` on its result do with the answer of one turn. -/
def answered (c : Caller) (call : PollCall) : PollAnswer → Caller
  | .packet audio => { c with progress := .writing call audio }
  | .wouldBlock =>
    if call.arguments.timeoutMilliseconds = 0 ∨ call.deadline ≤ c.sys.now then
      c.finish call.arguments (.ok .wouldBlock)
    else { c with progress := .waiting call }
  | .endOfStream _ => c.finish call.arguments (.ok .endOfStream)
  | .cancelled => c.finish call.arguments (.error ⟨.cancelled, "request was cancelled"⟩)
  | .failed error => c.finish call.arguments (.error (.ofBackend error))

/-- The copy of samples and descriptor; a panic is caught by `ffi_call` after the packet was
dropped. -/
def write (c : Caller) (call : PollCall) (audio : OwnedAudioPacket) : Caller :=
  match audio.pcmSlice with
  | none =>
    { c with progress := .dropping call audio (.error ⟨.internal, "runtime FFI call panicked"⟩) }
  | some samples => { c with
      memory := (c.memory.copySamples call.arguments.pcmOutput samples).writeDescriptor
        call.arguments.packet audio.descriptor
      progress := .dropping call audio (.ok .ok) }

def step (id : Nat) (c : Caller) : CallerAction → Option Caller
  | .call arguments =>
    match c.progress with
    | .idle => if (c.sys.requests id).handle = .owned then some (c.call arguments) else none
    | _ => none
  | .turn =>
    match c.progress with
    | .polling call => (c.sys.poll id).map fun sys =>
        { c with sys := sys }.answered call ((c.sys.shared id).poll c.sys.now).1
    | _ => none
  | .wake timedOut =>
    match c.progress with
    | .waiting call => some (if timedOut then c.finish call.arguments (.ok .wouldBlock)
        else { c with progress := .polling call })
    | _ => none
  | .write =>
    match c.progress with
    | .writing call audio => some (c.write call audio)
    | _ => none
  | .release =>
    match c.progress with
    -- the client holds no other packet
    | .dropping call _ result => (c.sys.dropPacket id 0).map fun sys =>
        { c with sys := sys }.finish call.arguments result
    | _ => none
  | .other action =>
    -- the engine's scheduler is one of the `NativeBackend`
    if c.progress.forbids id action || !action.native then none
    else (c.sys.step action).map fun sys => { c with sys := sys }

/-- What the calls that returned `OK` wrote, oldest first. -/
def written (c : Caller) : List (AudioPacketDescriptor × Pcm) := c.returns.filterMap (·.output)

end Caller

/-! ## The caller's memory, read back -/

section

variable {m : Memory} {pointer : Nat}

@[simp] theorem Memory.copySamples_descriptors {samples : Pcm} :
    (m.copySamples pointer samples).descriptors = m.descriptors := rfl

@[simp] theorem Memory.writeDescriptor_samples {descriptor : AudioPacketDescriptor} :
    (m.writeDescriptor pointer descriptor).samples = m.samples := rfl

@[simp] theorem Memory.writeDescriptor_self {descriptor : AudioPacketDescriptor} :
    (m.writeDescriptor pointer descriptor).descriptors pointer = descriptor :=
  Function.update_self ..

/-- What was copied is read back. -/
theorem Memory.readSamples_copySamples {samples : Pcm} :
    (m.copySamples pointer samples).readSamples pointer samples.length = samples := by
  unfold readSamples
  refine List.ext_getElem ?_ fun k hk hk' => ?_
  · rw [List.length_map, List.length_range]
  · have hoffset : pointer + 2 * k - pointer = 2 * k := by omega
    have hcell : pointer ≤ pointer + 2 * k ∧ (pointer + 2 * k - pointer) % 2 = 0 := by omega
    rw [List.getElem_map, List.getElem_range]
    show (if pointer ≤ pointer + 2 * k ∧ (pointer + 2 * k - pointer) % 2 = 0 then
      samples.getD ((pointer + 2 * k - pointer) / 2) (m.samples (pointer + 2 * k))
      else m.samples (pointer + 2 * k)) = samples[k]
    rw [if_pos hcell, hoffset, Nat.mul_div_cancel_left k (by decide),
      List.getD_eq_getElem _ _ hk']

end

/-! ## The argument checks, inverted -/

/-- Every check but the capacity's own is about a pointer; all of them fail with
`InvalidArgument`. -/
theorem checkArguments_spec {packetFrames : Nat} {arguments : PollArguments} :
    Triple (fun _ => True) (checkArguments packetFrames arguments)
      (fun _ _ => packetFrames * samplesPerCodecFrame ≤ arguments.pcmCapacitySamples)
      (fun error _ => error.status = .invalidArgument) := by
  -- a null or misaligned pointer is an invalid argument
  have hpointer : ∀ pointer alignOf message error,
      validateConstPointer pointer alignOf message = .error error →
        error.status = .invalidArgument := by
    intro pointer alignOf message error h
    unfold validateConstPointer at h
    split at h
    · cases h
      rfl
    · cases h
  unfold checkArguments
  refine Triple.bind (Q := fun _ _ => True)
    (Triple.ofExcept (fun _ _ _ _ => trivial) fun error h _ _ => hpointer _ _ _ _ h) fun _ => ?_
  refine Triple.bind (Q := fun _ _ => True) ?_ fun _ => ?_
  · unfold prepareValueOutput
    refine Triple.bind (Q := fun _ _ => True)
      (Triple.ofExcept (fun _ _ _ _ => trivial) fun error h _ _ => hpointer _ _ _ _ h) fun _ => ?_
    exact Triple.modify fun _ _ => trivial
  refine Triple.bind (Q := fun required _ => required = packetFrames * samplesPerCodecFrame)
    (Triple.ofExcept (fun required h _ _ => ?_) fun error h _ _ => ?_) fun required => ?_
  · unfold requiredCapacity at h
    split at h
    · cases h
      rfl
    · cases h
  · unfold requiredCapacity at h
    split at h
    · cases h
    · cases h
      rfl
  refine Triple.bind (Q := fun _ _ => packetFrames * samplesPerCodecFrame ≤
    arguments.pcmCapacitySamples) (Triple.throwIf (fun _ _ _ => rfl) fun _ hrequired hcapacity => ?_)
    fun _ => Triple.ofExcept (fun _ _ _ hcapacity => hcapacity) fun error h _ _ => ?_
  · -- the capacity was just compared
    omega
  · unfold validatePcmOutput at h
    split at h
    · cases h
      rfl
    · exact hpointer _ _ _ _ h

/-! ## The invariant -/

/-- What a packet holds for the client. -/
def OwnedAudioPacket.audio (packet : OwnedAudioPacket) : AudioPacketDescriptor × Pcm :=
  (packet.descriptor, packet.pcm.take packet.descriptor.sampleCount)

/-- A call that returned `OK` took one packet and wrote it; any other call took none. -/
def Return.Sound (r : Return) : Prop :=
  (r.status = .ok ∧ ∃ packet, r.taken = [packet] ∧ r.output = some packet.audio) ∨
    (r.status ≠ .ok ∧ r.taken = [] ∧ r.output = none)

/-- A packet whose slice does not panic and fits the caller's buffer. -/
structure PollCall.Fits (call : PollCall) (packet : OwnedAudioPacket) : Prop where
  slice : packet.descriptor.sampleCount ≤ packet.pcm.length
  buffer : packet.descriptor.sampleCount ≤ call.arguments.pcmCapacitySamples

/-- What holds at each point of a call. -/
def Progress.Sound (config : EngineConfig) (m : Memory) : Progress → Prop
  | .idle => True
  | .polling call | .waiting call =>
    config.packetFrames * samplesPerCodecFrame ≤ call.arguments.pcmCapacitySamples
  | .writing call packet => call.Fits packet
  | .dropping call packet result => result = .ok .ok ∧
    m.descriptors call.arguments.packet = packet.descriptor ∧
    m.readSamples call.arguments.pcmOutput packet.descriptor.sampleCount = packet.audio.2

structure Caller.Inv (id : Nat) (config : EngineConfig) (c : Caller) : Prop where
  reachable : Reachable config c.sys
  native : c.sys.NativeFailures
  hands : (c.sys.requests id).outstanding = c.progress.taken
  accounted : c.returns.flatMap (·.taken) ++ c.progress.taken =
    deliveredOf (c.sys.requests id).history
  returned : ∀ r ∈ c.returns, r.Sound
  progress : c.progress.Sound config c.memory

/-- A step leads from a reachable state to one. -/
theorem Reachable.step {config : EngineConfig} {s s' : Sys} {a : Action} (h : Reachable config s)
    (hstep : s.step a = some s') : Reachable config s' := by
  obtain ⟨hconfig, actions, hrun⟩ := h
  refine ⟨hconfig, actions ++ [a], ?_⟩
  rw [run_append, hrun]
  exact run_cons.mpr ⟨s', hstep, rfl⟩

/-! ## The size of a delivered packet -/

/-- Whatever was published was published for an admitted request. -/
def Limited (l : Local) : Prop :=
  publishedOf l.request.history ≠ [] → (limitOf l.request.history).isSome = true

/-- A step keeps the sizes of the packets. -/
theorem Limited.step {env : Env} {calls : Nat} {label : Label} {l l' : Local}
    (hnumbering : Numbering env.config.packetFrames l) (hl : Limited l)
    (h : LocalStep env calls label l l') : Limited l' := by
  unfold Limited at hl ⊢
  have hlimit := hnumbering.limit
  cases h
  case publish r a packet metrics _ _ _ =>
    intro _
    have hsome : limitOf r.history = some a.maxCodecFrames := hlimit _ rfl
    simp [hsome]
  case enter => simp
  all_goals simp_all

/-- The sizes hold along every run. -/
theorem limited_inductive : Inductive anyLabel fun env l =>
    ((Lifecycle l ∧ Queue l) ∧ Numbering env.config.packetFrames l) ∧ Limited l := by
  refine delivery_inductive.and (fun _ _ => ?_) (fun _ h => h) fun _ _ h hold hl => ?_
  · intro h
    exact absurd rfl h
  · exact hl.step hold.2 h

/-- **The copy is in bounds**: a packet in the client's hands has all its samples, and no more
than a packet of the configured size. -/
theorem Reachable.fits {config : EngineConfig} {s : Sys} {id : Nat} {packet : OwnedAudioPacket}
    (h : Reachable config s) (hheld : packet ∈ (s.requests id).outstanding)
    (hdelivered : packet ∈ deliveredOf (s.requests id).history) :
    packet.descriptor.sampleCount ≤ packet.pcm.length ∧
      packet.descriptor.sampleCount ≤ config.packetFrames * samplesPerCodecFrame := by
  obtain ⟨⟨⟨-, hqueue⟩, hnumbering⟩, hlimited⟩ := limited_inductive.reachable h id
  have hconfig : s.env.config = config := h.config_eq
  rw [hconfig] at hnumbering
  have hpublished : packet ∈ publishedOf (s.requests id).history :=
    hqueue.delivered.subset hdelivered
  obtain ⟨limit, hlimit⟩ := Option.isSome_iff_exists.mp (hlimited (List.ne_nil_of_mem hpublished))
  obtain ⟨before, after, hsplit⟩ := List.append_of_mem hpublished
  have hnext := hnumbering.numbered limit hlimit before packet after hsplit
  have hsized := (pool_intact h id).sized
  have hlength : packet.pcm.length = config.packetFrames * 1920 :=
    hsized _ (List.mem_append_right _ (List.mem_map_of_mem hheld))
  have hframes := hnext.fits
  have hcount := hnext.sampleCount
  unfold samplesPerCodecFrame
  omega

/-! ## One step -/

theorem deliveredOf_polled {h : List Event} {answer : PollAnswer} :
    deliveredOf (h ++ [.polled answer]) = deliveredOf h ++ answer.packets := by
  rw [deliveredOf_append]
  cases answer <;> rfl

/-- `poll` reports the failure the request has. -/
theorem RequestShared.poll_failed {r : RequestShared} {now : Nat} {error : BackendError}
    (h : (r.poll now).1 = .failed error) : r.state.failure = some error := by
  unfold poll at h
  split at h
  · rename_i error' hfailure
    cases h
    exact hfailure
  · split at h
    · cases h
    · split at h
      · cases h
      · split at h <;> cases h

namespace Caller

variable {id : Nat} {config : EngineConfig} {c c' : Caller}

/-- What is left of the invariant when a call is about to return: its packet is dropped. -/
structure Returning (id : Nat) (config : EngineConfig) (c : Caller) : Prop where
  reachable : Reachable config c.sys
  native : c.sys.NativeFailures
  hands : (c.sys.requests id).outstanding = []
  accounted : c.returns.flatMap (·.taken) ++ c.progress.taken =
    deliveredOf (c.sys.requests id).history
  returned : ∀ r ∈ c.returns, r.Sound

/-- A call that took no packet is ready to return. -/
theorem Inv.returning (h : c.Inv id config) (htaken : c.progress.taken = []) :
    c.Returning id config where
  reachable := h.reachable
  native := h.native
  hands := h.hands.trans htaken
  accounted := h.accounted
  returned := h.returned

/-- A return adds one entry, which accounts for what the call took. -/
theorem Returning.finish (h : c.Returning id config) {arguments : PollArguments}
    {result : Except CallError RuntimeStatus} {r : Return}
    (hreturns : (c.finish arguments result).returns = c.returns ++ [r])
    (htaken : r.taken = c.progress.taken) (hsound : r.Sound) :
    (c.finish arguments result).Inv id config := by
  have hsys : (c.finish arguments result).sys = c.sys := by cases result <;> rfl
  have hidle : (c.finish arguments result).progress = .idle := by cases result <;> rfl
  constructor
  · rw [hsys]; exact h.reachable
  · rw [hsys]; exact h.native
  · rw [hsys, hidle]; exact h.hands
  · rw [hsys, hidle, hreturns, List.flatMap_append, List.flatMap_singleton, htaken, h.accounted]
    exact List.append_nil _
  · rw [hreturns]
    intro r' hr'
    rcases List.mem_append.mp hr' with hold | hnew
    · exact h.returned r' hold
    · rw [List.mem_singleton.mp hnew]
      exact hsound
  · rw [hidle]
    trivial

/-- A call that took nothing returns something else than `OK`. -/
theorem Returning.error (h : c.Returning id config) (htaken : c.progress.taken = [])
    {arguments : PollArguments} {error : CallError} (hstatus : error.status ≠ .ok) :
    (c.finish arguments (.error error)).Inv id config :=
  h.finish rfl rfl (.inr ⟨hstatus, htaken, rfl⟩)

/-- It may return any status but success. -/
theorem Returning.status (h : c.Returning id config) (htaken : c.progress.taken = [])
    {arguments : PollArguments} {status : RuntimeStatus} (hstatus : status ≠ .ok) :
    (c.finish arguments (.ok status)).Inv id config :=
  h.finish rfl rfl (.inr ⟨hstatus, htaken, if_neg hstatus⟩)

/-- A new call keeps the invariant. -/
theorem Inv.call (h : c.Inv id config) (hidle : c.progress = .idle) (arguments : PollArguments) :
    (c.call arguments).Inv id config := by
  have htaken : c.progress.taken = [] := by rw [hidle]; rfl
  unfold Caller.call
  split
  · -- the error buffer is refused, nothing is written
    have hsound : Return.Sound ⟨.invalidArgument, [], none⟩ := .inr ⟨by decide, rfl, rfl⟩
    refine { h with accounted := ?_, returned := ?_ }
    · rw [List.flatMap_append, List.flatMap_singleton, List.append_nil]
      exact h.accounted
    · intro r hr
      rcases List.mem_append.mp hr with hold | hnew
      · exact h.returned r hold
      · rw [List.mem_singleton.mp hnew]
        exact hsound
  · rename_i memory _
    have hspec := @checkArguments_spec c.sys.config.packetFrames arguments memory trivial
    have hconfig : c.sys.config = config := h.reachable.config_eq
    split
    · rename_i error memory' hcheck
      rw [hcheck] at hspec
      have hreturning : ({ c with memory := memory' } : Caller).Returning id config :=
        { h.returning htaken with }
      refine hreturning.error htaken ?_
      rw [hspec]
      decide
    · rename_i memory' hcheck
      rw [hcheck, hconfig] at hspec
      have haccounted := h.accounted
      rw [htaken] at haccounted
      exact { h with hands := h.hands.trans htaken, accounted := haccounted, progress := hspec }

/-- One `poll` of the scheduler keeps it. -/
theorem Inv.turn (h : c.Inv id config) {call : PollCall} (hpolling : c.progress = .polling call)
    {sys : Sys} (hsys : c.sys.poll id = some sys) :
    ({ c with sys := sys }.answered call ((c.sys.shared id).poll c.sys.now).1).Inv id config := by
  have htaken : c.progress.taken = [] := by rw [hpolling]; rfl
  have hcapacity := h.progress
  rw [hpolling] at hcapacity
  have hreachable := h.reachable.step (a := .poll id) hsys
  have hnative := Sys.nativeFailures_step (a := .poll id) h.reachable.coherent h.native rfl hsys
  have hrequest := Sys.poll_requests hsys
  have hhands : (sys.requests id).outstanding = ((c.sys.shared id).poll c.sys.now).1.packets := by
    rw [hrequest]
    show (c.sys.requests id).outstanding ++ ((c.sys.shared id).poll c.sys.now).1.packets = _
    rw [h.hands, htaken, List.nil_append]
  have haccounted : c.returns.flatMap (·.taken) ++ ((c.sys.shared id).poll c.sys.now).1.packets =
      deliveredOf (sys.requests id).history := by
    rw [hrequest]
    show _ = deliveredOf ((c.sys.requests id).history ++ [.polled _])
    rw [deliveredOf_polled, ← h.accounted, htaken, List.append_nil]
    rfl
  cases hanswer : ((c.sys.shared id).poll c.sys.now).1 with
  | packet audio =>
    rw [hanswer] at hhands haccounted
    have hheld : audio ∈ (sys.requests id).outstanding := by
      rw [hhands]
      exact List.mem_singleton_self audio
    have hdelivered : audio ∈ deliveredOf (sys.requests id).history := by
      rw [← haccounted]
      exact List.mem_append_right _ (List.mem_singleton_self audio)
    obtain ⟨hslice, hpacket⟩ := hreachable.fits hheld hdelivered
    exact {
      reachable := hreachable
      native := hnative
      hands := hhands
      accounted := haccounted
      returned := h.returned
      progress := ⟨hslice, Nat.le_trans hpacket hcapacity⟩ }
  | wouldBlock =>
    rw [hanswer] at hhands haccounted
    have hreturning : ({ c with sys := sys } : Caller).Returning id config :=
      ⟨hreachable, hnative, hhands, by rw [htaken]; exact haccounted, h.returned⟩
    show (if call.arguments.timeoutMilliseconds = 0 ∨ call.deadline ≤ sys.now then _ else _ :
      Caller).Inv id config
    split
    · exact hreturning.status htaken (by decide)
    · exact {
        reachable := hreachable
        native := hnative
        hands := hhands
        accounted := haccounted
        returned := h.returned
        progress := hcapacity }
  | endOfStream reason =>
    rw [hanswer] at hhands haccounted
    have hreturning : ({ c with sys := sys } : Caller).Returning id config :=
      ⟨hreachable, hnative, hhands, by rw [htaken]; exact haccounted, h.returned⟩
    exact hreturning.status htaken (by decide)
  | cancelled =>
    rw [hanswer] at hhands haccounted
    have hreturning : ({ c with sys := sys } : Caller).Returning id config :=
      ⟨hreachable, hnative, hhands, by rw [htaken]; exact haccounted, h.returned⟩
    exact hreturning.error htaken (by decide)
  | failed error =>
    rw [hanswer] at hhands haccounted
    have hreturning : ({ c with sys := sys } : Caller).Returning id config :=
      ⟨hreachable, hnative, hhands, by rw [htaken]; exact haccounted, h.returned⟩
    -- no error of the backend has the status of a success
    have hfailure := h.native.requests id error (RequestShared.poll_failed hanswer)
    refine hreturning.error htaken fun hstatus => ?_
    have hok : error.status = .ok := hstatus
    unfold BackendError.Native at hfailure
    rw [hok] at hfailure
    cases hfailure

/-- The end of a wait keeps it. -/
theorem Inv.wake (h : c.Inv id config) {call : PollCall} (hwaiting : c.progress = .waiting call)
    (timedOut : Bool) : (if timedOut then c.finish call.arguments (.ok .wouldBlock)
      else { c with progress := .polling call } : Caller).Inv id config := by
  have htaken : c.progress.taken = [] := by rw [hwaiting]; rfl
  have haccounted := h.accounted
  rw [htaken] at haccounted
  have hcapacity := h.progress
  rw [hwaiting] at hcapacity
  split
  · exact (h.returning htaken).status htaken (by decide)
  · exact { h with
      hands := h.hands.trans htaken, accounted := haccounted, progress := hcapacity }

/-- The copy into the memory of the caller keeps it. -/
theorem Inv.write (h : c.Inv id config) {call : PollCall} {packet : OwnedAudioPacket}
    (hwriting : c.progress = .writing call packet) : (c.write call packet).Inv id config := by
  have htaken : c.progress.taken = [packet] := by rw [hwriting]; rfl
  have haccounted := h.accounted
  rw [htaken] at haccounted
  have hfits : call.Fits packet := by
    have hsound := h.progress
    rw [hwriting] at hsound
    exact hsound
  have hlength : (packet.pcm.take packet.descriptor.sampleCount).length =
      packet.descriptor.sampleCount := by
    rw [List.length_take, Nat.min_eq_left hfits.slice]
  have hslice : packet.pcmSlice = some (packet.pcm.take packet.descriptor.sampleCount) := by
    unfold OwnedAudioPacket.pcmSlice
    rw [if_pos hfits.slice]
  unfold Caller.write
  rw [hslice]
  refine { h with hands := h.hands.trans htaken, accounted := haccounted, progress := ?_ }
  refine ⟨rfl, Memory.writeDescriptor_self, ?_⟩
  have hread := @Memory.readSamples_copySamples c.memory call.arguments.pcmOutput
    (packet.pcm.take packet.descriptor.sampleCount)
  rw [hlength] at hread
  exact hread

/-- The drop of the packet keeps it. -/
theorem Inv.release (h : c.Inv id config) {call : PollCall} {packet : OwnedAudioPacket}
    {result : Except CallError RuntimeStatus} (hdropping : c.progress = .dropping call packet result)
    {sys : Sys} (hsys : c.sys.dropPacket id 0 = some sys) :
    ({ c with sys := sys }.finish call.arguments result).Inv id config := by
  have htaken : c.progress.taken = [packet] := by rw [hdropping]; rfl
  -- the caller holds the one packet it was given
  have hheld : (c.sys.requests id).outstanding = [packet] := h.hands.trans htaken
  have hget : (c.sys.requests id).outstanding[0]? = some packet := by rw [hheld]; rfl
  have hrequest := Sys.dropPacket_requests hget hsys
  obtain ⟨hresult, hdescriptor, hsamples⟩ : result = .ok .ok ∧
      c.memory.descriptors call.arguments.packet = packet.descriptor ∧
      c.memory.readSamples call.arguments.pcmOutput packet.descriptor.sampleCount =
        packet.audio.2 := by
    have hsound := h.progress
    rw [hdropping] at hsound
    exact hsound
  -- dropping it empties the hands and changes no history
  have hreturning : ({ c with sys := sys } : Caller).Returning id config := {
    reachable := h.reachable.step (a := .dropPacket id 0) hsys
    native := Sys.nativeFailures_step (a := .dropPacket id 0) h.reachable.coherent h.native rfl
      hsys
    hands := by
      show (sys.requests id).outstanding = []
      rw [hrequest, Request.dropPacket_outstanding, hheld]
      rfl
    accounted := by
      show _ = deliveredOf (sys.requests id).history
      rw [hrequest, Request.dropPacket_history]
      exact h.accounted
    returned := h.returned }
  rw [hresult]
  refine hreturning.finish rfl rfl (.inl ⟨rfl, packet, htaken, ?_⟩)
  show (if RuntimeStatus.ok = .ok then some _ else none) = some packet.audio
  rw [if_pos rfl, hdescriptor, hsamples]
  rfl

/-- The rest of the system hands the polling thread nothing and takes nothing from it. -/
theorem Inv.other (h : c.Inv id config) {action : Action} (hnative : action.native = true)
    (hallowed : c.progress.forbids id action = false) {sys : Sys}
    (hsys : c.sys.step action = some sys) : ({ c with sys := sys } : Caller).Inv id config := by
  have hpoll : action ≠ .poll id := by
    rintro rfl
    cases c.progress <;> simp [Progress.forbids] at hallowed
  have hdrop : ∀ index, action ≠ .dropPacket id index := by
    rintro index rfl
    cases c.progress <;> simp [Progress.forbids] at hallowed
  have hcoherent := h.reachable.coherent
  exact { h with
    reachable := h.reachable.step hsys
    native := Sys.nativeFailures_step hcoherent h.native hnative hsys
    hands := (Sys.step_outstanding hcoherent h.native.control hpoll hdrop hsys).trans h.hands
    accounted := h.accounted.trans
      (Sys.step_delivered hcoherent h.native.control hpoll hdrop hsys).symm }

/-- Every step keeps it. -/
theorem inv_step (h : c.Inv id config) {a : CallerAction} (hstep : c.step id a = some c') :
    c'.Inv id config := by
  unfold step at hstep
  cases a with
  | call arguments =>
    dsimp only at hstep
    split at hstep
    · split at hstep
      · cases hstep
        exact h.call ‹_› arguments
      · cases hstep
    · cases hstep
  | turn =>
    dsimp only at hstep
    split at hstep
    · obtain ⟨sys, hsys, rfl⟩ := Option.map_eq_some_iff.mp hstep
      exact h.turn ‹_› hsys
    · cases hstep
  | wake timedOut =>
    dsimp only at hstep
    split at hstep
    · cases hstep
      exact h.wake ‹_› timedOut
    · cases hstep
  | write =>
    dsimp only at hstep
    split at hstep
    · cases hstep
      exact h.write ‹_›
    · cases hstep
  | release =>
    dsimp only at hstep
    split at hstep
    · obtain ⟨sys, hsys, rfl⟩ := Option.map_eq_some_iff.mp hstep
      exact h.release ‹_› hsys
    · cases hstep
  | other action =>
    dsimp only at hstep
    split at hstep
    · cases hstep
    · -- a step of anybody else, which must leave the buffers of the call alone
      rename_i hguard
      obtain ⟨hallowed, hnative⟩ : c.progress.forbids id action = false ∧ action.native = true := by
        simpa using hguard
      obtain ⟨sys, hsys, rfl⟩ := Option.map_eq_some_iff.mp hstep
      exact h.other hnative hallowed hsys

/-- It holds before the first call. -/
theorem inv_init (hconfig : validateConfig config = .ok ()) (memory : Memory) :
    (Caller.init config memory).Inv id config where
  reachable := ⟨hconfig, [], rfl⟩
  native := Sys.nativeFailures_init config
  hands := rfl
  accounted := rfl
  returned := by
    intro r hr
    cases hr
  progress := trivial

/-- It holds in every run. -/
theorem inv_run (hconfig : validateConfig config = .ok ()) {memory : Memory}
    {actions : List CallerAction} (hrun : run (Caller.step id) (.init config memory) actions = some c) :
    c.Inv id config :=
  invariant_of_step (fun _ _ _ h _ hstep => inv_step h hstep) (inv_init hconfig memory)
    (along_trivial (fun _ _ => trivial) _ _) hrun

/-! ## What a call leaves alone -/

/-- The polling thread moves. -/
def own : CallerAction → Bool
  | .call _ | .turn | .wake _ | .write | .release => true
  | .other _ => false

theorem finish_sys {arguments : PollArguments} {result : Except CallError RuntimeStatus} :
    (c.finish arguments result).sys = c.sys := by
  cases result <;> rfl

theorem call_sys {arguments : PollArguments} : (c.call arguments).sys = c.sys := by
  unfold Caller.call
  split
  · rfl
  · split
    · exact finish_sys
    · rfl

/-- A call that returns at once was refused. -/
theorem call_refused {arguments : PollArguments}
    (hreturned : (c.call arguments).progress = .idle) :
    ∃ r, (c.call arguments).returns = c.returns ++ [r] ∧ r.status = .invalidArgument := by
  unfold Caller.call at hreturned ⊢
  split at hreturned
  · exact ⟨_, rfl, rfl⟩
  · rename_i memory _
    have hspec := @checkArguments_spec c.sys.config.packetFrames arguments memory trivial
    split at hreturned
    · rename_i error memory' hcheck
      rw [hcheck] at hspec
      exact ⟨_, rfl, hspec⟩
    · cases hreturned

end Caller

/-- One turn of `poll` changes the state if it pops a packet or reports the end of the stream. -/
theorem RequestShared.poll_quiet {r : RequestShared} {now : Nat} :
    (r.poll now).2.state = r.state ∨ (∃ packet, (r.poll now).1 = .packet packet) ∨
      ∃ reason, (r.poll now).1 = .endOfStream reason := by
  unfold poll
  split
  · exact .inl rfl
  · split
    · exact .inl rfl
    · split
      · exact .inr (.inl ⟨_, rfl⟩)
      · split
        · exact .inr (.inr ⟨_, rfl⟩)
        · exact .inl rfl

namespace Caller

variable {id : Nat} {config : EngineConfig} {c c' : Caller}

/-- **Only the pop and the end of the stream change the request**: its queue, its metrics and its
phase stay what they are at every other step of the polling thread. -/
theorem Inv.quiet (h : c.Inv id config) {a : CallerAction} (hown : own a = true)
    (hstep : c.step id a = some c') :
    (c'.sys.shared id).state = (c.sys.shared id).state ∨
      (∃ call packet, c'.progress = .writing call packet) ∨
        ∃ r, c'.returns = c.returns ++ [r] ∧ r.status = .endOfStream := by
  unfold step at hstep
  cases a with
  | call arguments =>
    dsimp only at hstep
    split at hstep
    · split at hstep
      · cases hstep
        rw [call_sys]
        exact .inl rfl
      · cases hstep
    · cases hstep
  | turn =>
    dsimp only at hstep
    split at hstep
    · rename_i call _
      obtain ⟨sys, hsys, rfl⟩ := Option.map_eq_some_iff.mp hstep
      have hstate : (sys.shared id).state = ((c.sys.shared id).poll c.sys.now).2.state := by
        show (sys.requests id).shared.state = _
        rw [Sys.poll_requests hsys]
        rfl
      -- answering the caller does not touch the scheduler
      have hanswered : ∀ answer, ({ c with sys := sys }.answered call answer).sys = sys := by
        intro answer
        cases answer with
        | packet audio => rfl
        | wouldBlock =>
          show (if _ then _ else _ : Caller).sys = sys
          split
          · exact finish_sys
          · rfl
        | endOfStream reason => exact finish_sys
        | cancelled => exact finish_sys
        | failed error => exact finish_sys
      rw [hanswered, hstate]
      -- `poll` changes the state only when it hands out a packet or ends the stream
      rcases @RequestShared.poll_quiet (c.sys.shared id) c.sys.now with hsame | ⟨packet, hanswer⟩ | hend
      · exact .inl hsame
      · rw [hanswer]
        exact .inr (.inl ⟨call, packet, rfl⟩)
      · obtain ⟨reason, hanswer⟩ := hend
        rw [hanswer]
        exact .inr (.inr ⟨_, rfl, rfl⟩)
    · cases hstep
  | wake timedOut =>
    dsimp only at hstep
    split at hstep
    · cases hstep
      left
      split
      · rw [finish_sys]
      · rfl
    · cases hstep
  | write =>
    dsimp only at hstep
    split at hstep
    · cases hstep
      left
      unfold Caller.write
      split
      · rfl
      · rfl
    · cases hstep
  | release =>
    dsimp only at hstep
    split at hstep
    · rename_i call packet result hdropping
      obtain ⟨sys, hsys, rfl⟩ := Option.map_eq_some_iff.mp hstep
      have hheld : (c.sys.requests id).outstanding = [packet] := by rw [h.hands, hdropping]; rfl
      have hget : (c.sys.requests id).outstanding[0]? = some packet := by rw [hheld]; rfl
      have hrequest := Sys.dropPacket_requests hget hsys
      left
      rw [finish_sys]
      show (sys.requests id).shared.state = _
      rw [hrequest, Request.dropPacket_state]
      rfl
    · cases hstep
  | other action => cases hown

end Caller

/-! ## The contract of the C call -/

/-- What a client of the C interface gets of one request, against what the worker published. -/
structure KeepsAudio (id : Nat) (c : Caller) : Prop where
  /-- The calls that returned `OK` wrote the packets delivered so far, in their order, but for the
  one a call in progress has in hand. -/
  written : c.written ++ c.progress.taken.map (·.audio) =
    (deliveredOf (c.sys.requests id).history).map (·.audio)
  inOrder : deliveredOf (c.sys.requests id).history <+: publishedOf (c.sys.requests id).history
  /-- Of a request that was neither cancelled nor failed, the rest is still queued. -/
  queued : (c.sys.shared id).state.cancelRequested = false →
    (c.sys.shared id).state.failure = none →
    deliveredOf (c.sys.requests id).history ++ (c.sys.shared id).state.packets =
      publishedOf (c.sys.requests id).history
  /-- Every packet taken from the queue was taken by a call that returned `OK`. -/
  taken : c.returns.flatMap (·.taken) ++ c.progress.taken =
    deliveredOf (c.sys.requests id).history ∧
      ∀ r ∈ c.returns, r.status ≠ .ok → r.taken = [] ∧ r.output = none
  /-- A call that returns without a look at the queue returns an argument error and leaves the
  whole scheduler alone. -/
  refused : ∀ arguments c', c.step id (.call arguments) = some c' → c'.progress = .idle →
    c'.sys = c.sys ∧ ∃ r, c'.returns = c.returns ++ [r] ∧ r.status = .invalidArgument
  quiet : ∀ a c', Caller.own a = true → c.step id a = some c' →
    (c'.sys.shared id).state = (c.sys.shared id).state ∨
      (∃ call packet, c'.progress = .writing call packet) ∨
        ∃ r, c'.returns = c.returns ++ [r] ∧ r.status = .endOfStream

/-- What the calls wrote is what they took. -/
theorem written_eq {returns : List Return} (h : ∀ r ∈ returns, r.Sound) :
    returns.filterMap (·.output) = (returns.flatMap (·.taken)).map (·.audio) := by
  induction returns with
  | nil => rfl
  | cons r returns ih =>
    obtain ⟨hr, hrest⟩ := List.forall_mem_cons.mp h
    rw [List.flatMap_cons, List.map_append, ← ih hrest]
    rcases hr with ⟨-, packet, htaken, houtput⟩ | ⟨-, htaken, houtput⟩
    · rw [List.filterMap_cons_some houtput, htaken]
      rfl
    · rw [List.filterMap_cons_none houtput, htaken]
      rfl

/-- **A failing C poll never loses audio**, over every run of calls, worker and other clients. -/
theorem poll_keeps_audio {id : Nat} {config : EngineConfig} {memory : Memory}
    {actions : List CallerAction} {c : Caller} (hconfig : validateConfig config = .ok ())
    (hrun : run (Caller.step id) (.init config memory) actions = some c) : KeepsAudio id c := by
  have h := Caller.inv_run hconfig hrun
  -- what the request has delivered is what the scheduler queued, in order
  obtain ⟨⟨-, hqueue⟩, -⟩ := delivery_inductive.reachable h.reachable id
  refine {
    written := ?_
    inOrder := hqueue.delivered
    queued := hqueue.queued
    taken := ⟨h.accounted, fun r hr hstatus => ?_⟩
    refused := fun arguments c' hstep hidle => ?_
    quiet := fun a c' hown hstep => h.quiet hown hstep }
  · unfold Caller.written
    rw [written_eq h.returned, ← List.map_append, h.accounted]
  · rcases h.returned r hr with ⟨hok, -⟩ | ⟨-, htaken, houtput⟩
    · exact absurd hok hstatus
    · exact ⟨htaken, houtput⟩
  · unfold Caller.step at hstep
    dsimp only at hstep
    split at hstep
    · split at hstep
      · cases hstep
        exact ⟨Caller.call_sys, Caller.call_refused hidle⟩
      · cases hstep
    · cases hstep

/-- A caller's memory before the first call. -/
def blankMemory : Memory where
  chars := fun _ => 0
  samples := fun _ => 0
  descriptors := fun _ => .default

/-- Buffers at the addresses 16 and 64; the handle is at 8. -/
def smallCall (capacity : Nat) : PollArguments where
  request := 8
  timeoutMilliseconds := 0
  pcmOutput := 64
  pcmCapacitySamples := capacity
  packet := 16
  error := 0
  errorCapacity := 0

/-- The one packet of request 1 is published; a call with a short buffer is refused, the next one
gets the packet, the third the end of the stream. -/
def runOfCalls : List CallerAction :=
  (runToStep 1 ++ [stepReturns (some [.ok finalPacket])] ++ Action.workerRuns 8).map .other ++
    [.call (smallCall 1919), .call (smallCall 1920), .turn, .write, .release,
      .call (smallCall 1920), .turn]

set_option maxRecDepth 20000 in
theorem poll_keeps_audio_single :
    ∃ c, run (Caller.step 1) (.init smallConfig blankMemory) runOfCalls = some c ∧
      c.returns.map (·.status) = [.invalidArgument, .ok, .endOfStream] ∧
        c.written.length = 1 ∧ KeepsAudio 1 c := by
  have hdone : (run (Caller.step 1) (.init smallConfig blankMemory) runOfCalls).map
      (fun c => (c.returns.map (·.status), c.written.length)) =
        some ([.invalidArgument, .ok, .endOfStream], 1) := by
    decide
  obtain ⟨c, hc, hresult⟩ := Option.map_eq_some_iff.mp hdone
  obtain ⟨hstatuses, hwritten⟩ := Prod.mk.inj hresult
  exact ⟨c, hc, hstatuses, hwritten, poll_keeps_audio (by decide) hc⟩

end Qwen3Tts.Runtime
