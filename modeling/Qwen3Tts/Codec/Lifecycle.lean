import Mathlib.Algebra.Ring.Nat
import Qwen3Tts.Lib.Assoc
import Qwen3Tts.Lib.Fallible
import Qwen3Tts.Lib.Machine
import Qwen3Tts.Lib.Throwing

/-!
# Codec — shared models and their sessions

The calls that create, load, warm up and destroy a shared codec model, and those that create and
destroy its sessions, with the reference counts, the temporary contexts and the weight buffers they
work on. An object is known by a number that is never given twice, and so is a device buffer: an
address may come back from `cudaMalloc`, an allocation does not. A failed `new` outside the
`nothrow` ones throws out of a C function and ends the process.
-/

namespace Qwen3Tts.Codec.Lifecycle

open Qwen3Tts.Lib

/-! ## Objects -/

structure DeviceTensor where
  buffer : Nat
  byteLength : UInt64
  shape : List UInt64
  deriving DecidableEq, Repr

/-- `Qwen3TtsCodecModelInfoV1`. -/
structure ModelInfo where
  loaded : Bool
  sourceBytes : UInt64
  deviceBytes : UInt64
  parameterCount : UInt64
  tensorCount : UInt32
  sourceDtypeF32Count : UInt32
  sourceDtypeBf16Count : UInt32
  deriving DecidableEq, Repr

def ModelInfo.empty : ModelInfo := ⟨false, 0, 0, 0, 0, 0, 0⟩

/-- `Qwen3TtsCodecModelV1`; its counters never get near their 32 bits. -/
structure Model where
  referenceCount : Nat
  activeSessionCount : Nat
  warmupCompleted : Bool
  weights : List (String × DeviceTensor)
  modelInfo : ModelInfo
  deriving DecidableEq, Repr

def Model.new : Model where
  referenceCount := 1
  activeSessionCount := 0
  warmupCompleted := false
  weights := []
  modelInfo := .empty

/-- `fetch_add` and `fetch_sub` on the two counters. -/
def Model.retain (m : Model) : Model := { m with referenceCount := m.referenceCount + 1 }
def Model.release (m : Model) : Model := { m with referenceCount := m.referenceCount - 1 }
def Model.enter (m : Model) : Model := { m with activeSessionCount := m.activeSessionCount + 1 }
def Model.leave (m : Model) : Model := { m with activeSessionCount := m.activeSessionCount - 1 }

/-- The fields of `Qwen3TtsCodecContextV1` that bind it. -/
structure Context where
  model : Nat
  countsAsSharedSession : Bool
  deriving DecidableEq, Repr

structure State where
  models : List (Nat × Model)
  contexts : List (Nat × Context)
  /-- The model handles and the sessions that the callers hold. -/
  handles : List Nat
  sessions : List Nat
  nextModel : Nat
  nextContext : Nat
  nextBuffer : Nat
  /-- Every `cudaFree` of a weight, in order. -/
  freed : List Nat
  deriving DecidableEq, Repr

def State.init : State := ⟨[], [], [], [], 0, 0, 0, []⟩

/-! ## References -/

def allocateModel (s : State) : Nat × State :=
  (s.nextModel, { s with
    models := (s.nextModel, .new) :: s.models, nextModel := s.nextModel + 1 })

def retainModel (a : Nat) (s : State) : State :=
  { s with models := modifyAt a Model.retain s.models }

def buffers (m : Model) : List Nat := m.weights.map fun t => t.2.buffer

def cleared (m : Model) : Model :=
  { m with weights := [], modelInfo := .empty, warmupCompleted := false }

def clearModelWeights (a : Nat) (s : State) : State :=
  match assoc s.models a with
  | none => s
  | some m => { s with models := modifyAt a cleared s.models, freed := s.freed ++ buffers m }

def releaseModelReference (a : Nat) (s : State) : State :=
  match assoc s.models a with
  | none => s
  | some m =>
    let s := { s with models := modifyAt a Model.release s.models }
    if m.referenceCount ≠ 1 then s
    else
      let s := clearModelWeights a s
      { s with models := eraseAt a s.models }

def releaseContext (c : Nat) (s : State) : State :=
  match assoc s.contexts c with
  | none => s
  | some context =>
    let s := if context.countsAsSharedSession then
        { s with models := modifyAt context.model Model.leave s.models }
      else s
    let s := releaseModelReference context.model s
    { s with contexts := eraseAt c s.contexts }

/-! ## Contexts -/

/-- Where `qwen3_tts_codec_create_v1` fails: before the context exists, in the allocation of its
own model, or behind it. -/
inductive CreateFault where
  | early (message : String)
  | model
  | late (message : String)
  deriving DecidableEq, Repr

/-- `qwen3_tts_codec_create_v1`: a context starts with a model of its own. -/
def create (fault : Option CreateFault) (s : State) : Except String Nat × State :=
  match fault with
  | some (.early message) => (.error message, s)
  | some .model => (.error "allocate codec model", s)
  | some (.late message) =>
    let (own, s) := allocateModel s
    let c := s.nextContext
    let s := { s with contexts := (c, ⟨own, false⟩) :: s.contexts, nextContext := c + 1 }
    (.error message, releaseContext c s)
  | none =>
    let (own, s) := allocateModel s
    let c := s.nextContext
    (.ok c, { s with contexts := (c, ⟨own, false⟩) :: s.contexts, nextContext := c + 1 })

/-- A new context leaves its own model for `a`. -/
def bind (a : Nat) (countsAsSharedSession : Bool) (c : Nat) (s : State) : State :=
  let s := match assoc s.contexts c with
    | none => s
    | some context => releaseModelReference context.model s
  let s := { s with contexts := modifyAt c (fun context => { context with model := a }) s.contexts }
  let s := retainModel a s
  let s := { s with
    contexts := modifyAt c
      (fun context => { context with countsAsSharedSession := countsAsSharedSession }) s.contexts }
  if countsAsSharedSession then
    { s with models := modifyAt a Model.enter s.models }
  else s

def createBoundContext (a : Nat) (countsAsSharedSession : Bool) (fault : Option CreateFault)
    (s : State) : Except String Nat × State :=
  match create fault s with
  | (.error message, s) => (.error message, s)
  | (.ok c, s) => (.ok c, bind a countsAsSharedSession c s)

/-! ## `qwen3_tts_codec_load_model_v1` -/

/-- `Qwen3TtsCodecTensorViewV1`; the rank is the length of the shape. -/
structure TensorView where
  hasData : Bool
  byteLength : UInt64
  shape : List UInt64
  dtype : UInt32
  deriving DecidableEq, Repr

/-- What `tensor_at` does for an index: it fails, with a message or an empty one, or it gives a
name, which may be null, and a view. -/
inductive ProviderItem where
  | rejected (message : String)
  | tensor (name : Option String) (view : TensorView)
  deriving DecidableEq, Repr

structure WeightProvider where
  abiVersion : UInt32
  reserved : UInt32
  hasCallback : Bool
  tensors : List ProviderItem
  deriving DecidableEq, Repr

def tensorF32 : UInt32 := 1
def tensorBf16 : UInt32 := 2
def maxTensorRank : Nat := 4
def expectedDecoderTensors : UInt32 := 271

def requiredNames : List String :=
  [ "decoder.quantizer.rvq_first.vq.layers.0._codebook.embedding_sum",
    "decoder.pre_transformer.layers.0.self_attn.q_proj.weight",
    "decoder.decoder.6.conv.weight" ]

/-- The checks of a view; its number of elements. -/
def checkView (view : TensorView) : Except String Nat := do
  failIf (view.hasData = false ∨ view.byteLength = 0 ∨ view.shape.length = 0 ∨
      maxTensorRank < view.shape.length ∨ (view.dtype ≠ tensorF32 ∧ view.dtype ≠ tensorBf16))
    "decoder tensor metadata is invalid"
  let elements ← view.shape.foldlM (fun elements dimension => do
    failIf (dimension = 0 ∨ (2 ^ 64 - 1) / dimension.toNat < elements)
      "decoder tensor shape is invalid"
    pure (elements * dimension.toNat)) 1
  let scalarBytes := if view.dtype = tensorF32 then 4 else 2
  failIf ((2 ^ 64 - 1) / scalarBytes < elements ∨
      elements * scalarBytes ≠ view.byteLength.toNat)
    "decoder tensor byte length is invalid"
  failIf ((2 ^ 64 - 1) / 4 < elements) "decoder tensor is too large for F32 execution"
  pure elements

/-- Where a load fails besides its checks: the selection of the device, the upload of a tensor (was
its buffer allocated?), the synchronisation. -/
inductive LoadPoint where
  | select
  | upload (index : Nat) (allocated : Bool)
  | synchronize
  deriving DecidableEq, Repr

/-- What a load works on: the model, the buffers, and what it has counted. -/
structure Loading where
  weights : List (String × DeviceTensor)
  nextBuffer : Nat
  freed : List Nat
  info : ModelInfo
  deriving DecidableEq, Repr

abbrev Loader := EStateM String Loading

/-- The model info behind one more tensor. -/
def ModelInfo.count (info : ModelInfo) (view : TensorView) (elements : Nat) : ModelInfo :=
  { info with
    sourceBytes := info.sourceBytes + view.byteLength
    deviceBytes := info.deviceBytes + (elements * 4).toUInt64
    parameterCount := info.parameterCount + elements.toUInt64
    tensorCount := info.tensorCount + 1
    sourceDtypeF32Count := info.sourceDtypeF32Count + if view.dtype = tensorF32 then 1 else 0
    sourceDtypeBf16Count := info.sourceDtypeBf16Count + if view.dtype = tensorF32 then 0 else 1 }

section
variable (fault : Option (LoadPoint × String))

/-- One tensor of the decoder: its buffer is allocated and filled, or freed again. -/
def upload (index : Nat) (name : String) (view : TensorView) (elements : Nat) : Loader Unit := do
  if fault.map Prod.fst = some (.upload index false) then
    throw ("upload decoder tensor: " ++ (fault.map Prod.snd).getD "")
  else
    let s ← get
    let tensor : DeviceTensor := {
      buffer := s.nextBuffer, byteLength := (elements * 4).toUInt64, shape := view.shape }
    modify fun s => { s with nextBuffer := s.nextBuffer + 1 }
    if fault.map Prod.fst = some (.upload index true) then
      modify fun s => { s with freed := s.freed ++ [tensor.buffer] }
      throw ("upload decoder tensor: " ++ (fault.map Prod.snd).getD "")
    else if (assoc s.weights name).isSome then
      modify fun s => { s with freed := s.freed ++ [tensor.buffer] }
      throw "duplicate decoder tensor name"
    else
      modify fun s => { s with
        weights := (name, tensor) :: s.weights, info := s.info.count view elements }

def loadTensor (index : Nat) : ProviderItem → Loader Unit
  | .rejected message =>
    throw (if message = "" then "weight provider rejected tensor index" else message)
  | .tensor none _ => pure ()
  | .tensor (some name) view =>
    if name.startsWith "decoder." then
      match checkView view with
      | .error message => throw message
      | .ok elements => upload fault index name view elements
    else pure ()

/-- The body of a load behind its first checks. -/
def loadTensors (tensors : List ProviderItem) : Loader ModelInfo := do
  tensors.zipIdx.forM fun item => loadTensor fault item.2 item.1
  throwIf (fault.map Prod.fst = some .synchronize)
    ("finish decoder upload: " ++ (fault.map Prod.snd).getD "")
  let s ← get
  throwIf (s.info.tensorCount ≠ expectedDecoderTensors)
    "model does not contain exactly 271 decoder tensors"
  throwIf (∃ name ∈ requiredNames, (assoc s.weights name).isNone)
    "model is missing a required decoder tensor"
  pure { s.info with loaded := true }

def loadModel (c : Nat) (provider : WeightProvider) (s : State) :
    Except String ModelInfo × State :=
  match (assoc s.contexts c).bind fun context => (assoc s.models context.model).map fun m =>
      (context.model, m) with
  | none => (.error "context, weight provider, output, and tensor callback are required", s)
  | some (a, m) =>
    if provider.hasCallback = false then
      (.error "context, weight provider, output, and tensor callback are required", s)
    else if provider.abiVersion ≠ 1 ∨ provider.reserved ≠ 0 then
      (.error "unsupported weight-provider ABI", s)
    else if m.weights ≠ [] then (.error "model is already loaded", s)
    else if fault.map Prod.fst = some .select then
      (.error ("select CUDA device: " ++ (fault.map Prod.snd).getD ""), s)
    else
      match loadTensors fault provider.tensors ⟨m.weights, s.nextBuffer, s.freed, .empty⟩ with
      | .ok info loading =>
        (.ok info, { s with
          models := modifyAt a (fun m => { m with weights := loading.weights, modelInfo := info })
            s.models
          nextBuffer := loading.nextBuffer, freed := loading.freed })
      | .error message loading =>
        -- every error behind the selection calls `release_model`
        (.error message, clearModelWeights a { s with
          models := modifyAt a (fun m => { m with weights := loading.weights }) s.models
          nextBuffer := loading.nextBuffer, freed := loading.freed })

end

/-! ## The calls -/

inductive Call where
  | modelCreate (fault : Option String)
  | modelLoad (model : Nat) (provider : WeightProvider) (createFault : Option CreateFault)
      (fault : Option (LoadPoint × String))
  | modelWarmup (model : Nat) (createFault : Option CreateFault) (fault : Option String)
  | modelDestroy (model : Nat)
  | sessionCreate (model : Nat) (createFault : Option CreateFault)
  | sessionDestroy (session : Nat)
  deriving DecidableEq, Repr

inductive Answer where
  | failed (message : String)
  | done
  | created (id : Nat)
  | loaded (info : ModelInfo)
  deriving DecidableEq, Repr

/-- `qwen3_tts_codec_shared_model_create_v1`; `fault` is any of its errors. -/
def sharedModelCreate (fault : Option String) (s : State) : Answer × State :=
  match fault with
  | some message => (.failed message, s)
  | none => (.created s.nextModel, { (allocateModel s).2 with handles := s.nextModel :: s.handles })

def sharedModelLoad (a : Nat) (m : Model) (provider : WeightProvider)
    (createFault : Option CreateFault) (fault : Option (LoadPoint × String)) (s : State) :
    Answer × State :=
  if m.activeSessionCount ≠ 0 then (.failed "cannot load a model with active sessions", s)
  else if m.modelInfo.loaded ∨ m.weights ≠ [] then (.failed "model is already loaded", s)
  else
    match createBoundContext a false createFault s with
    | (.error message, s) => (.failed message, s)
    | (.ok loader, s) =>
      match loadModel fault loader provider s with
      | (.error message, s) => (.failed message, releaseContext loader s)
      | (.ok info, s) => (.loaded info, releaseContext loader s)

/-- `fault` is any error of `qwen3_tts_codec_warmup_v1`. -/
def sharedModelWarmup (a : Nat) (m : Model) (createFault : Option CreateFault)
    (fault : Option String) (s : State) : Answer × State :=
  if m.modelInfo.loaded = false then (.failed "decoder model is not loaded", s)
  else if m.warmupCompleted then (.done, s)
  else if m.activeSessionCount ≠ 0 then
    (.failed "warmup must finish before sessions are created", s)
  else
    match createBoundContext a false createFault s with
    | (.error message, s) => (.failed message, s)
    | (.ok warmup, s) =>
      let s := releaseContext warmup s
      match fault with
      | some message => (.failed message, s)
      | none => (.done, { s with
          models := modifyAt a (fun m => { m with warmupCompleted := true }) s.models })

def sessionCreate (a : Nat) (m : Model) (createFault : Option CreateFault) (s : State) :
    Answer × State :=
  if m.modelInfo.loaded = false ∨ m.warmupCompleted = false then
    (.failed "model must be loaded and warmed before session start", s)
  else
    match createBoundContext a true createFault s with
    | (.error message, s) => (.failed message, s)
    | (.ok session, s) => (.created session, { s with sessions := session :: s.sessions })

/-- A call with a handle that the caller holds; the model behind it must be there. -/
def onModel (a : Nat) (f : Model → Answer × State) (s : State) : Option (Answer × State) :=
  if a ∈ s.handles then (assoc s.models a).map f else none

/-- One call. Load, warmup and the creation of a session hold the lifecycle mutex of their model;
the destroy calls take no lock, and what they do to a model is done by its atomic counters. -/
def call (s : State) : Call → Option (Answer × State)
  | .modelCreate fault => some (sharedModelCreate fault s)
  | .modelLoad a provider createFault fault =>
    onModel a (sharedModelLoad a · provider createFault fault s) s
  | .modelWarmup a createFault fault => onModel a (sharedModelWarmup a · createFault fault s) s
  | .modelDestroy a =>
    onModel a (fun _ =>
      (.done, releaseModelReference a { s with handles := s.handles.erase a })) s
  | .sessionCreate a createFault => onModel a (sessionCreate a · createFault s) s
  | .sessionDestroy c =>
    if c ∈ s.sessions then
      some (.done, releaseContext c { s with sessions := s.sessions.erase c })
    else none

def step (s : State) (c : Call) : Option State := (call s c).map Prod.snd

end Qwen3Tts.Codec.Lifecycle
