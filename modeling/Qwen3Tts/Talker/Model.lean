import Qwen3Tts.Lib.Assoc
import Qwen3Tts.Lib.Ranges
import Qwen3Tts.Lib.Throwing
import Qwen3Tts.Talker.Context

/-!
# Talker — `TalkerModel` while it is loaded

`upload_tensor` and `finalize` of `talker.cu`: the tensor map, the byte total, and the layer lists
that every session copies. Both are programs that throw and keep what they wrote; an argument says
where an allocation or a CUDA call fails. Which address `cudaMalloc` returns is an argument too,
restricted to memory that is free.
-/

namespace Qwen3Tts.Talker

open Qwen3Tts.Lib

/-! ## Dimensions -/

def kTalkerHidden : Nat := 2048
def kTalkerIntermediate : Nat := 6144
def kTalkerHeadDimension : Nat := 128
def kTalkerKeyValueWidth : Nat := 1024
def kPredictorHidden : Nat := 1024
def kPredictorIntermediate : Nat := 3072
def kPredictorHeadDimension : Nat := 128
def kPredictorQueryWidth : Nat := 2048
def kPredictorKeyValueWidth : Nat := 1024
def kPredictorVocabulary : Nat := 2048

/-- The fields of `ModelDimensions` that the shapes of the weights depend on. -/
structure ModelDimensions where
  hidden : Nat
  intermediate : Nat
  headDimension : Nat
  queryWidth : Nat
  keyValueWidth : Nat
  deriving DecidableEq, Repr

def kTalkerDimensions : ModelDimensions where
  hidden := kTalkerHidden
  intermediate := kTalkerIntermediate
  headDimension := kTalkerHeadDimension
  queryWidth := kTalkerHidden
  keyValueWidth := kTalkerKeyValueWidth

def kPredictorDimensions : ModelDimensions where
  hidden := kPredictorHidden
  intermediate := kPredictorIntermediate
  headDimension := kPredictorHeadDimension
  queryWidth := kPredictorQueryWidth
  keyValueWidth := kPredictorKeyValueWidth

/-! ## The model -/

structure DeviceTensor where
  address : Address
  bytes : UInt64
  shape : List UInt64
  deriving DecidableEq, Repr

structure DecoderWeights where
  inputNorm : Address
  qProjection : Address
  kProjection : Address
  vProjection : Address
  outputProjection : Address
  qNorm : Address
  kNorm : Address
  postAttentionNorm : Address
  gateProjection : Address
  upProjection : Address
  downProjection : Address
  deriving DecidableEq, Repr

/-- The INT8 image of a matrix, known by the weight that was quantised. -/
structure QuantizedTensor where
  weight : Address
  inFeatures : Nat
  outFeatures : Nat
  deriving DecidableEq, Repr

structure DecoderWeightsInt8 where
  qProjection : QuantizedTensor
  kProjection : QuantizedTensor
  vProjection : QuantizedTensor
  outputProjection : QuantizedTensor
  gateProjection : QuantizedTensor
  upProjection : QuantizedTensor
  downProjection : QuantizedTensor
  /-- The halves of the fused tensor. -/
  gateUpFused : QuantizedTensor × QuantizedTensor
  deriving DecidableEq, Repr

/-- The members of the model that hold one weight each, or one per residual codebook. They are
null until a `finalize` sets them, and only the constructor of a session reads them. -/
structure Members where
  codecEmbedding : Address
  textEmbedding : Address
  textFc1 : Address
  textFc1Bias : Address
  textFc2 : Address
  textFc2Bias : Address
  talkerNorm : Address
  codecHead : Address
  smallToPredictor : Address
  smallToPredictorBias : Address
  predictorNorm : Address
  predictorEmbeddings : List Address
  predictorHeads : List Address
  int8Decode : Bool
  codecHeadInt8 : Option QuantizedTensor
  smallToPredictorInt8 : Option QuantizedTensor
  textFc1Int8 : Option QuantizedTensor
  textFc2Int8 : Option QuantizedTensor
  predictorHeadsInt8 : List (Option QuantizedTensor)
  deriving DecidableEq, Repr

def Members.null : Members where
  codecEmbedding := 0
  textEmbedding := 0
  textFc1 := 0
  textFc1Bias := 0
  textFc2 := 0
  textFc2Bias := 0
  talkerNorm := 0
  codecHead := 0
  smallToPredictor := 0
  smallToPredictorBias := 0
  predictorNorm := 0
  predictorEmbeddings := List.replicate kResidualCodebooks 0
  predictorHeads := List.replicate kResidualCodebooks 0
  int8Decode := false
  codecHeadInt8 := none
  smallToPredictorInt8 := none
  textFc1Int8 := none
  textFc2Int8 := none
  predictorHeadsInt8 := List.replicate kResidualCodebooks none

structure TalkerModel where
  deviceIndex : Int32
  finalized : Bool
  weightBytes : UInt64
  /-- The sizes of the buffers that hold INT8 images. -/
  int8Storage : List Nat
  talkerLayersInt8 : List DecoderWeightsInt8
  predictorLayersInt8 : List DecoderWeightsInt8
  tensors : List (String × DeviceTensor)
  talkerLayers : List DecoderWeights
  predictorLayers : List DecoderWeights
  members : Members
  deriving DecidableEq, Repr

/-- The constructor. -/
def TalkerModel.new (deviceIndex : Int32) : TalkerModel where
  deviceIndex := deviceIndex
  finalized := false
  weightBytes := 0
  int8Storage := []
  talkerLayersInt8 := []
  predictorLayersInt8 := []
  tensors := []
  talkerLayers := []
  predictorLayers := []
  members := .null

/-- Code that works on a model and may throw. -/
abbrev Load := EStateM String TalkerModel

namespace TalkerModel

/-! ## `upload_tensor` -/

/-- The arguments; a null pointer is `none`, and the rank is the length of the shape. -/
structure Upload where
  name : Option String
  data : Option Address
  byteSize : UInt64
  shape : Option (List UInt64)
  deriving DecidableEq, Repr

/-- What happens behind the checks: a host allocation, `cudaMalloc` or the copy fails, the tensor
was copied and the map cannot allocate its node, or everything succeeds. -/
inductive UploadOutcome where
  | hostFailed (message : String)
  | mallocFailed (message : String)
  | copyFailed (message : String)
  | insertFailed (message : String)
  | uploaded (address : Address)
  deriving DecidableEq, Repr

/-- The number of elements, in 64 bits. -/
def elements (shape : List UInt64) : Except String Nat :=
  shape.foldlM (fun elements dimension => do
    failIf (dimension = 0 ∨ (2 ^ 64 - 1) / dimension.toNat < elements)
      "tensor shape is empty or overflows"
    pure (elements * dimension.toNat)) 1

/-- The checks of `upload_tensor`: the name and the shape of the tensor they accept. -/
def uploadChecks (m : TalkerModel) (upload : Upload) : Except String (String × List UInt64) := do
  failIf m.finalized "model weights are already finalized"
  match upload.name, upload.data, upload.shape with
  | some name, some _, some shape =>
    failIf (name = "") "tensor upload received a null argument"
    failIf (shape.length = 0 ∨ 4 < shape.length ∨ upload.byteSize = 0)
      "tensor upload has an invalid rank or byte size"
    let elements ← elements shape
    failIf ((2 ^ 64 - 1) / 2 < elements ∨ elements * 2 ≠ upload.byteSize.toNat)
      "tensor byte size does not match BF16 shape"
    failIf ((assoc m.tensors name).isSome) ("duplicate tensor upload: " ++ name)
    pure (name, shape)
  | _, _, _ => .error "tensor upload received a null argument"

def uploadTensor (upload : Upload) (outcome : UploadOutcome) : Load Unit := do
  let m ← get
  match m.uploadChecks upload with
  | .error message => throw message
  | .ok (name, shape) =>
    match outcome with
    | .hostFailed message | .mallocFailed message | .copyFailed message => throw message
    | .insertFailed message =>
      modify fun m => { m with weightBytes := m.weightBytes + upload.byteSize }
      throw message
    | .uploaded address =>
      modify fun m => { m with weightBytes := m.weightBytes + upload.byteSize }
      let tensor : DeviceTensor := { address := address, bytes := upload.byteSize, shape := shape }
      modify fun m => { m with tensors := (name, tensor) :: m.tensors }

/-! ## `finalize` -/

/-- Where a `finalize` can fail besides its own checks: the strings of a lookup, the growth of a
layer list, a quantisation that finds so many buffers stored, the last synchronisation. -/
inductive FinalizePoint where
  | lookup (name : String)
  | reserveTalker
  | reservePredictor
  | quantize (stored : Nat)
  | synchronize
  deriving DecidableEq, Repr

structure ModelMemory where
  sharedWeightBytes : UInt64
  tensorCount : UInt32
  deviceIndex : Int32
  deriving DecidableEq, Repr

section
variable (fault : Option (FinalizePoint × String))

/-- The code gets to a point. -/
def reach (point : FinalizePoint) : Load Unit :=
  match fault with
  | some (failing, message) => throwIf (failing = point) message
  | none => pure ()

/-- A required tensor: its name and its shape. -/
abbrev Required := String × List Nat

/-- The lookup of `require`. -/
def found (m : TalkerModel) (required : Required) : Except String Address :=
  match assoc m.tensors required.1 with
  | none => .error ("checkpoint is missing required tensor " ++ required.1)
  | some tensor =>
    if tensor.shape.map UInt64.toNat ≠ required.2 then
      .error ("unexpected shape for tensor " ++ required.1)
    else .ok tensor.address

def require (required : Required) : Load Address := do
  reach fault (.lookup required.1)
  let m ← get
  match m.found required with
  | .error message => throw message
  | .ok address => pure address

/-- The tensors of a layer, in the order in which they are looked up. -/
def layerTensors (stem : String) (dimensions : ModelDimensions) : List Required :=
  [ (stem ++ ".input_layernorm.weight", [dimensions.hidden]),
    (stem ++ ".self_attn.q_proj.weight", [dimensions.queryWidth, dimensions.hidden]),
    (stem ++ ".self_attn.k_proj.weight", [dimensions.keyValueWidth, dimensions.hidden]),
    (stem ++ ".self_attn.v_proj.weight", [dimensions.keyValueWidth, dimensions.hidden]),
    (stem ++ ".self_attn.o_proj.weight", [dimensions.hidden, dimensions.queryWidth]),
    (stem ++ ".self_attn.q_norm.weight", [dimensions.headDimension]),
    (stem ++ ".self_attn.k_norm.weight", [dimensions.headDimension]),
    (stem ++ ".post_attention_layernorm.weight", [dimensions.hidden]),
    (stem ++ ".mlp.gate_proj.weight", [dimensions.intermediate, dimensions.hidden]),
    (stem ++ ".mlp.up_proj.weight", [dimensions.intermediate, dimensions.hidden]),
    (stem ++ ".mlp.down_proj.weight", [dimensions.hidden, dimensions.intermediate]) ]

/-- The weights that were found, in the same order. -/
def layerOf : List Address → Option DecoderWeights
  | [inputNorm, q, k, v, o, qNorm, kNorm, postAttentionNorm, gate, up, down] =>
    some {
      inputNorm := inputNorm, qProjection := q, kProjection := k, vProjection := v
      outputProjection := o, qNorm := qNorm, kNorm := kNorm
      postAttentionNorm := postAttentionNorm, gateProjection := gate, upProjection := up
      downProjection := down }
  | _ => none

def loadLayer (stem : String) (dimensions : ModelDimensions) : Load (Option DecoderWeights) := do
  let addresses ← (layerTensors stem dimensions).mapM (require fault)
  pure (layerOf addresses)

def talkerStem (layer : Nat) : String := "talker.model.layers." ++ toString layer

def predictorStem (layer : Nat) : String :=
  "talker.code_predictor.model.layers." ++ toString layer

/-- The lookups before the talker layers, and the member that each of them sets. -/
def talkerMembers : List (Required × (Address → Members → Members)) :=
  [ (("talker.model.codec_embedding.weight", [kTalkerVocabulary, kTalkerHidden]),
      fun a m => { m with codecEmbedding := a }),
    (("talker.model.text_embedding.weight", [kTextVocabulary, kTalkerHidden]),
      fun a m => { m with textEmbedding := a }),
    (("talker.text_projection.linear_fc1.weight", [kTalkerHidden, kTalkerHidden]),
      fun a m => { m with textFc1 := a }),
    (("talker.text_projection.linear_fc1.bias", [kTalkerHidden]),
      fun a m => { m with textFc1Bias := a }),
    (("talker.text_projection.linear_fc2.weight", [kTalkerHidden, kTalkerHidden]),
      fun a m => { m with textFc2 := a }),
    (("talker.text_projection.linear_fc2.bias", [kTalkerHidden]),
      fun a m => { m with textFc2Bias := a }),
    (("talker.model.norm.weight", [kTalkerHidden]), fun a m => { m with talkerNorm := a }),
    (("talker.codec_head.weight", [kTalkerVocabulary, kTalkerHidden]),
      fun a m => { m with codecHead := a }) ]

/-- The lookups before the predictor layers. -/
def predictorMembers : List (Required × (Address → Members → Members)) :=
  [ (("talker.code_predictor.small_to_mtp_projection.weight", [kPredictorHidden, kTalkerHidden]),
      fun a m => { m with smallToPredictor := a }),
    (("talker.code_predictor.small_to_mtp_projection.bias", [kPredictorHidden]),
      fun a m => { m with smallToPredictorBias := a }),
    (("talker.code_predictor.model.norm.weight", [kPredictorHidden]),
      fun a m => { m with predictorNorm := a }) ]

/-- The lookups of a residual codebook. -/
def groupMembers (group : Nat) : List (Required × (Address → Members → Members)) :=
  [ (("talker.code_predictor.model.codec_embedding." ++ toString group ++ ".weight",
        [kPredictorVocabulary, kTalkerHidden]),
      fun a m => { m with predictorEmbeddings := m.predictorEmbeddings.set group a }),
    (("talker.code_predictor.lm_head." ++ toString group ++ ".weight",
        [kPredictorVocabulary, kPredictorHidden]),
      fun a m => { m with predictorHeads := m.predictorHeads.set group a }) ]

def onMembers (f : Members → Members) (m : TalkerModel) : TalkerModel :=
  { m with members := f m.members }

/-- Looks tensors up and sets their members. -/
def loadMembers (members : List (Required × (Address → Members → Members))) : Load Unit :=
  members.forM fun member => do
    let address ← require fault member.1
    modify (onMembers (member.2 address))

/-- `push_back` of a layer behind the reserved capacity. -/
def pushTalkerLayer (layer : Nat) : Load Unit := do
  let weights ← loadLayer fault (talkerStem layer) kTalkerDimensions
  modify fun m => { m with talkerLayers := m.talkerLayers ++ weights.toList }

def pushPredictorLayer (layer : Nat) : Load Unit := do
  let weights ← loadLayer fault (predictorStem layer) kPredictorDimensions
  modify fun m => { m with predictorLayers := m.predictorLayers ++ weights.toList }

/-- The lookups of `finalize` up to the talker layers. -/
def loadTalker : Load Unit := do
  loadMembers fault talkerMembers
  reach fault .reserveTalker
  (List.range kTalkerLayers).forM (pushTalkerLayer fault)

/-- The lookups of `finalize` behind them. -/
def loadPredictor : Load Unit := do
  loadMembers fault predictorMembers
  reach fault .reservePredictor
  (List.range kPredictorLayers).forM (pushPredictorLayer fault)
  (List.range kResidualCodebooks).forM fun group => loadMembers fault (groupMembers group)

/-! ### INT8 images -/

/-- A buffer moves into `int8_storage_`. -/
def storeInt8 (bytes : Nat) : Load Unit := do
  let m ← get
  reach fault (.quantize m.int8Storage.length)
  modify fun m => { m with int8Storage := m.int8Storage ++ [bytes] }

def quantize (weight : Address) (inFeatures outFeatures : Nat) : Load QuantizedTensor := do
  storeInt8 fault (inFeatures * outFeatures)
  storeInt8 fault (outFeatures * 4)
  pure { weight := weight, inFeatures := inFeatures, outFeatures := outFeatures }

/-- The image of one layer. -/
def quantizeLayer (dimensions : ModelDimensions) (layer : DecoderWeights) :
    Load DecoderWeightsInt8 := do
  storeInt8 fault (2 * (dimensions.hidden * dimensions.intermediate))
  storeInt8 fault (2 * dimensions.intermediate * 4)
  let gate : QuantizedTensor := {
    weight := layer.gateProjection
    inFeatures := dimensions.hidden, outFeatures := dimensions.intermediate }
  let up : QuantizedTensor := { gate with weight := layer.upProjection }
  let q ← quantize fault layer.qProjection dimensions.hidden dimensions.queryWidth
  let k ← quantize fault layer.kProjection dimensions.hidden dimensions.keyValueWidth
  let v ← quantize fault layer.vProjection dimensions.hidden dimensions.keyValueWidth
  let o ← quantize fault layer.outputProjection dimensions.queryWidth dimensions.hidden
  let down ← quantize fault layer.downProjection dimensions.intermediate dimensions.hidden
  pure {
    qProjection := q, kProjection := k, vProjection := v, outputProjection := o
    gateProjection := gate, upProjection := up, downProjection := down, gateUpFused := (gate, up) }

def quantizeLayers (layers : List DecoderWeights) (dimensions : ModelDimensions) :
    Load (List DecoderWeightsInt8) :=
  layers.mapM (quantizeLayer fault dimensions)

/-- The matrices outside the layers. -/
def quantizeMembers : Load Unit := do
  let m ← get
  let codecHead ← quantize fault m.members.codecHead kTalkerHidden kTalkerVocabulary
  modify (onMembers fun m => { m with codecHeadInt8 := some codecHead })
  let small ← quantize fault m.members.smallToPredictor kTalkerHidden kPredictorHidden
  modify (onMembers fun m => { m with smallToPredictorInt8 := some small })
  let fc1 ← quantize fault m.members.textFc1 kTalkerHidden kTalkerHidden
  modify (onMembers fun m => { m with textFc1Int8 := some fc1 })
  let fc2 ← quantize fault m.members.textFc2 kTalkerHidden kTalkerHidden
  modify (onMembers fun m => { m with textFc2Int8 := some fc2 })
  (List.range kResidualCodebooks).forM fun group => do
    let head ← quantize fault (m.members.predictorHeads.getD group 0) kPredictorHidden
      kPredictorVocabulary
    modify (onMembers fun m =>
      { m with predictorHeadsInt8 := m.predictorHeadsInt8.set group (some head) })

/-- All images. -/
def quantizeModel : Load Unit := do
  quantizeMembers fault
  let m ← get
  let talkerLayers ← quantizeLayers fault m.talkerLayers kTalkerDimensions
  modify fun m => { m with talkerLayersInt8 := talkerLayers }
  let m ← get
  let predictorLayers ← quantizeLayers fault m.predictorLayers kPredictorDimensions
  modify fun m => { m with predictorLayersInt8 := predictorLayers }

/-- The block behind `QWEN3_TTS_INT8_DECODE`. -/
def quantizeIf (int8 : Bool) : Load Unit := if int8 then quantizeModel fault else pure ()

/-- `finalize`; `int8` is what the environment variable says. -/
def finalize (int8 : Bool) : Load ModelMemory := do
  let m ← get
  throwIf m.finalized "model weights are already finalized"
  throwIf (m.tensors.length ≠ 404)
    ("expected exactly 404 VoiceDesign tensors, found " ++ toString m.tensors.length)
  loadTalker fault
  loadPredictor fault
  modify (onMembers fun m => { m with int8Decode := int8 })
  quantizeIf fault int8
  reach fault .synchronize
  modify fun m => { m with finalized := true }
  let m ← get
  pure {
    sharedWeightBytes := m.weightBytes, tensorCount := m.tensors.length.toUInt32
    deviceIndex := m.deviceIndex }

end

/-! ## The machine -/

inductive ModelCall where
  | upload (upload : Upload) (outcome : UploadOutcome)
  | finalize (int8 : Bool) (fault : Option (FinalizePoint × String))
  deriving DecidableEq, Repr

inductive ModelAnswer where
  | failed (message : String)
  | uploaded
  | finalized (memory : ModelMemory)
  deriving DecidableEq, Repr

/-- The bytes of an allocation. -/
def range (address bytes : UInt64) : Nat × Nat := (address.toNat, bytes.toNat)

def ranges (m : TalkerModel) : List (Nat × Nat) := m.tensors.map fun t => range t.2.address t.2.bytes

/-- What `cudaMalloc` can return: memory behind the null pointer that no tensor occupies. -/
def CanReturn (m : TalkerModel) (bytes : UInt64) : UploadOutcome → Prop
  | .uploaded address => 0 < address.toNat ∧ address.toNat + bytes.toNat ≤ 2 ^ 64 ∧
      ∀ held ∈ m.ranges, Apart (range address bytes) held
  | _ => True

instance (m : TalkerModel) (bytes : UInt64) (outcome : UploadOutcome) :
    Decidable (m.CanReturn bytes outcome) :=
  match outcome with
  | .uploaded _ => inferInstanceAs (Decidable (_ ∧ _ ∧ _))
  | .hostFailed _ | .mallocFailed _ | .copyFailed _ | .insertFailed _ => .isTrue trivial

def call (m : TalkerModel) : ModelCall → Option (ModelAnswer × TalkerModel)
  | .upload upload outcome =>
    if m.CanReturn upload.byteSize outcome then
      match uploadTensor upload outcome m with
      | .ok _ m' => some (.uploaded, m')
      | .error message m' => some (.failed message, m')
    else none
  | .finalize int8 fault =>
    match finalize fault int8 m with
    | .ok memory m' => some (.finalized memory, m')
    | .error message m' => some (.failed message, m')

def step (m : TalkerModel) (call : ModelCall) : Option TalkerModel := (m.call call).map Prod.snd

end TalkerModel

end Qwen3Tts.Talker
