import Qwen3Tts.Lib.Assoc
import Qwen3Tts.Talker.Context

/-!
# Talker — a lockstep frame as enqueued by `batch_begin_frames`

The parts of `TalkerContext::batch_begin_frames` that do not depend on the device: the checks of
the whole call, the pinned tables it writes, the key of the cached graph, and the sequence of
operations that `enqueue_frame` puts on the batch stream (executed at once or captured into a
graph). An operation records what it refers to of a session, with the session's row in the call,
and which of the uploaded tables it reads; what it computes is not needed here.
-/

namespace Qwen3Tts.Talker

open Qwen3Tts.Lib

/-- The sessions of a call, in the order of its rows, with their state. -/
abbrev Rows := List (Slot × TalkerContext)

/-- The rows of a call that names these slots, if all of them are live session objects. -/
def rowsOf (sessions : List (Address × TalkerContext)) (slots : List Slot) : Option Rows :=
  slots.mapM fun slot => (assoc sessions slot.session).map (Prod.mk slot)

/-- Applies `f` to the session of each slot in turn. -/
def onSlots (f : TalkerContext → TalkerContext) (slots : List Slot)
    (sessions : List (Address × TalkerContext)) : List (Address × TalkerContext) :=
  slots.foldl (fun sessions slot => modifyAt slot.session f sessions) sessions

/-- The rows of a call are its slots in order, each with its live session. -/
theorem mem_rowsOf {sessions : List (Address × TalkerContext)} {slots : List Slot} {rows : Rows}
    (h : rowsOf sessions slots = some rows) :
    rows.map Prod.fst = slots ∧ ∀ row ∈ rows, assoc sessions row.1.session = some row.2 := by
  unfold rowsOf at h
  induction slots generalizing rows with
  | nil =>
    cases h
    exact ⟨rfl, nofun⟩
  | cons slot slots ih =>
    rw [List.mapM_cons] at h
    obtain ⟨row, hrow, h⟩ := Option.bind_eq_some_iff.mp h
    obtain ⟨rest, hrest, h⟩ := Option.bind_eq_some_iff.mp h
    cases h
    obtain ⟨c, hc, rfl⟩ := Option.map_eq_some_iff.mp hrow
    obtain ⟨hslots, hlive⟩ := ih hrest
    refine ⟨by rw [List.map_cons, hslots], fun row hmem => ?_⟩
    rcases List.mem_cons.mp hmem with rfl | hmem
    · exact hc
    · exact hlive row hmem

/-! ## Checks of a call -/

/-- The preamble: the argument check, then every session in order. -/
def preamble (rows : Rows) : Except String Unit := do
  failIf (rows = [] ∨ kCapacity < rows.length) "invalid batch frame arguments"
  rows.forM fun row => row.2.validate row.1

/-! ## The pinned tables -/

/-- The host-visible tables of `BatchWorkspace`, each indexed by its slot and the row. -/
structure PinnedTables where
  positions : Nat → Nat → Nat
  kvBases : Nat → Nat → Address
  tokenBases : Nat → Address
  trailing : Nat → Int
  counts : Nat → Nat

/-- The cache bases of a session: key and value of each talker layer, then of each predictor
layer. -/
def Handles.kvBase (handles : Handles) (slot : Nat) : Option Address :=
  ((handles.talkerCache ++ handles.predictorCache)[slot / 2]?).map fun cache =>
    if slot % 2 = 0 then cache.key else cache.value

/-- What a call writes to the tables; the rows behind its last session keep what they held. -/
def PinnedTables.write (tables : PinnedTables) (rows : Rows) : PinnedTables where
  positions slot row := match rows[row]? with
    | some (_, c) =>
      if slot < kPredictorSequence then slot
      else if slot = kPredictorSequence then c.position
      else tables.positions slot row
    | none => tables.positions slot row
  kvBases slot row := match rows[row]? with
    | some (_, c) => (c.handles.kvBase slot).getD (tables.kvBases slot row)
    | none => tables.kvBases slot row
  tokenBases row := match rows[row]? with
    | some (_, c) => c.handles.frameTokens
    | none => tables.tokenBases row
  trailing row := match rows[row]? with
    | some (slot, _) => slot.trailingTextToken
    | none => tables.trailing row
  counts row := match rows[row]? with
    | some (_, c) => c.generatedSemanticCount
    | none => tables.counts row

/-! ## The graph key -/

/-- `static_cast<uint64_t>` of an `int`. -/
def signExtend (x : Int32) : UInt64 := x.toInt64.toUInt64

def SamplingConfig.keyWords (config : SamplingConfig) : List UInt64 :=
  [signExtend config.doSample, signExtend config.topK, config.topP.bits.toUInt64,
    config.temperature.bits.toUInt64, config.repetitionPenalty.bits.toUInt64]

/-- The twelve words of one session. -/
def rowKey (row : Slot × TalkerContext) : List UInt64 :=
  row.1.session :: UInt64.ofNat row.2.maxSequenceLength
    :: (row.1.talkerSampling.keyWords ++ row.1.predictorSampling.keyWords)

def graphKey (rows : Rows) : List UInt64 := UInt64.ofNat rows.length :: rows.flatMap rowKey

/-! ## The operations of a frame -/

/-- The five tables a frame uploads. -/
inductive Table where
  | positions | kvBases | tokenBases | trailing | counts
  deriving DecidableEq, Repr

/-- Something of a session that an operation refers to by its address or handle. -/
inductive Resource where
  | device (buffer : Address)
  | pinned (word : Address)
  | event (handle : Address)
  deriving DecidableEq, Repr

/-- One operation of `enqueue_frame`. `shared` is a kernel or GEMM that touches only the workspace
and the weights. -/
inductive FrameOp where
  | upload (table : Table)
  | storeSampledToken (row : Nat) (frameTokens : Address) (index : Nat) (sampledToken : Address)
  | recordEvent (row : Nat) (event : Address)
  | gatherLastHidden (row : Nat) (lastHidden : Address)
  | gatherEmbeddingRows (index : Nat)
  | addEmbeddingRows (index : Nat)
  | gatherTrailingRows
  | shared
  | ropeRowsAt (positionSlot : Nat)
  | kvScatterRows (kvSlot positionSlot : Nat)
  | attention (keySlot positionSlot : Nat)
  | sampleLogitsAt (row : Nat) (semanticHistory randomState sampledToken : Address)
  | storeSampledTokenAt (row : Nat) (semanticHistory sampledToken : Address)
  | packFrameCodes (row : Nat) (frameTokens frameCodes : Address)
  | copyTalkerHidden (row : Nat) (lastHidden : Address)
  | copySampledToken (row : Nat) (hostSampledToken sampledToken : Address)
  deriving DecidableEq, Repr

namespace FrameOp

/-- What the operation refers to of the session in a row. -/
def references : FrameOp → List (Nat × Resource)
  | storeSampledToken row frameTokens _ sampledToken =>
    [(row, .device frameTokens), (row, .device sampledToken)]
  | recordEvent row event => [(row, .event event)]
  | gatherLastHidden row lastHidden => [(row, .device lastHidden)]
  | sampleLogitsAt row semanticHistory randomState sampledToken =>
    [(row, .device semanticHistory), (row, .device randomState), (row, .device sampledToken)]
  | storeSampledTokenAt row semanticHistory sampledToken =>
    [(row, .device semanticHistory), (row, .device sampledToken)]
  | packFrameCodes row frameTokens frameCodes =>
    [(row, .device frameTokens), (row, .device frameCodes)]
  | copyTalkerHidden row lastHidden => [(row, .device lastHidden)]
  | copySampledToken row hostSampledToken sampledToken =>
    [(row, .pinned hostSampledToken), (row, .device sampledToken)]
  | upload _ | gatherEmbeddingRows _ | addEmbeddingRows _ | gatherTrailingRows | shared
  | ropeRowsAt _ | kvScatterRows _ _ | attention _ _ => []

/-- The uploaded tables the operation reads. -/
def reads : FrameOp → List Table
  | gatherEmbeddingRows _ | addEmbeddingRows _ => [.tokenBases]
  | gatherTrailingRows => [.trailing]
  | ropeRowsAt _ => [.positions]
  | kvScatterRows _ _ | attention _ _ => [.kvBases, .positions]
  | sampleLogitsAt _ _ _ _ | storeSampledTokenAt _ _ _ => [.counts]
  | upload _ | storeSampledToken _ _ _ _ | recordEvent _ _ | gatherLastHidden _ _ | shared
  | packFrameCodes _ _ _ | copyTalkerHidden _ _ | copySampledToken _ _ _ => []

end FrameOp

/-- A loop over the sessions of the call. -/
def eachRow (sessions : List Handles) (body : Nat → Handles → List FrameOp) : List FrameOp :=
  sessions.zipIdx.flatMap fun (handles, row) => body row handles

def uploads : List FrameOp :=
  [.upload .positions, .upload .kvBases, .upload .tokenBases, .upload .trailing, .upload .counts]

/-- `batch_run_decoder` for one layer: norm and the three projections, both head norms, RoPE,
the two cache writes, attention, and the output projection and MLP with their residuals. -/
def batchDecoderLayer (layerSlot positionSlot : Nat) : List FrameOp :=
  List.replicate 6 .shared
    ++ [.ropeRowsAt positionSlot, .ropeRowsAt positionSlot,
      .kvScatterRows (2 * layerSlot) positionSlot, .kvScatterRows (2 * layerSlot + 1) positionSlot,
      .attention (2 * layerSlot) positionSlot]
    ++ List.replicate 8 .shared

def batchRunDecoder (layerSlotBase layers positionSlot : Nat) : List FrameOp :=
  (List.range layers).flatMap fun layer => batchDecoderLayer (layerSlotBase + layer) positionSlot

/-- The input rows of a predictor position. -/
def predictorInput (sessions : List Handles) (position : Nat) : List FrameOp :=
  if position = 0 then eachRow sessions fun row h => [.gatherLastHidden row h.lastHidden]
  else [.gatherEmbeddingRows (position - 1)]

/-- One of the sixteen lockstep positions of the predictor. -/
def predictorPosition (sessions : List Handles) (position : Nat) : List FrameOp :=
  predictorInput sessions position ++ [.shared, .shared]
    ++ batchRunDecoder kTalkerLayers kPredictorLayers position
    ++ if position = 0 then []
      else [.shared, .shared] ++ eachRow sessions fun row h =>
        [.sampleLogitsAt row h.semanticHistory h.randomState h.sampledToken,
          .storeSampledToken row h.frameTokens position h.sampledToken]

/-- The embedding of the next talker position: the codes of the frame and the trailing text. -/
def nextEmbedding : List FrameOp :=
  [.gatherEmbeddingRows 0]
    ++ (List.range kResidualCodebooks).map (fun residual => .addEmbeddingRows (residual + 1))
    ++ [.gatherTrailingRows] ++ List.replicate 5 .shared

/-- `enqueue_frame` behind its uploads. -/
def frameBody (sessions : List Handles) : List FrameOp :=
  eachRow sessions (fun row h =>
      [.storeSampledToken row h.frameTokens 0 h.sampledToken, .recordEvent row h.predictorStart])
    ++ (List.range kPredictorSequence).flatMap (predictorPosition sessions)
    ++ eachRow sessions (fun row h =>
      [.recordEvent row h.predictorStop, .packFrameCodes row h.frameTokens h.frameCodes,
        .recordEvent row h.frameCodesReady])
    ++ nextEmbedding
    ++ eachRow sessions (fun row h => [.recordEvent row h.start])
    ++ batchRunDecoder 0 kTalkerLayers kPredictorSequence
    ++ [.shared]
    ++ eachRow sessions (fun row h => [.copyTalkerHidden row h.lastHidden])
    ++ [.shared]
    ++ eachRow sessions fun row h =>
      [.recordEvent row h.stop,
        .sampleLogitsAt row h.semanticHistory h.randomState h.sampledToken,
        .storeSampledTokenAt row h.semanticHistory h.sampledToken,
        .copySampledToken row h.hostSampledToken h.sampledToken,
        .recordEvent row h.semanticReady]

/-- `enqueue_frame`. -/
def enqueueFrame (sessions : List Handles) : List FrameOp := uploads ++ frameBody sessions

/-! ## What a frame consists of -/

/-- The operations on the buffers and events of one session. -/
inductive RowOp (row : Nat) (h : Handles) : FrameOp → Prop
  | storeSampledToken (index : Nat) :
    RowOp row h (.storeSampledToken row h.frameTokens index h.sampledToken)
  | predictorStart : RowOp row h (.recordEvent row h.predictorStart)
  | predictorStop : RowOp row h (.recordEvent row h.predictorStop)
  | frameCodesReady : RowOp row h (.recordEvent row h.frameCodesReady)
  | start : RowOp row h (.recordEvent row h.start)
  | stop : RowOp row h (.recordEvent row h.stop)
  | semanticReady : RowOp row h (.recordEvent row h.semanticReady)
  | gatherLastHidden : RowOp row h (.gatherLastHidden row h.lastHidden)
  | sampleLogitsAt :
    RowOp row h (.sampleLogitsAt row h.semanticHistory h.randomState h.sampledToken)
  | storeSampledTokenAt : RowOp row h (.storeSampledTokenAt row h.semanticHistory h.sampledToken)
  | packFrameCodes : RowOp row h (.packFrameCodes row h.frameTokens h.frameCodes)
  | copyTalkerHidden : RowOp row h (.copyTalkerHidden row h.lastHidden)
  | copySampledToken : RowOp row h (.copySampledToken row h.hostSampledToken h.sampledToken)

/-- The operations of a frame's body: those on the workspace and the uploaded tables, and those on
the session of a row. -/
inductive BodyOp (sessions : List Handles) : FrameOp → Prop
  | gatherEmbeddingRows (index : Nat) : BodyOp sessions (.gatherEmbeddingRows index)
  | addEmbeddingRows (index : Nat) : BodyOp sessions (.addEmbeddingRows index)
  | gatherTrailingRows : BodyOp sessions .gatherTrailingRows
  | shared : BodyOp sessions .shared
  | ropeRowsAt (slot : Nat) : BodyOp sessions (.ropeRowsAt slot)
  | kvScatterRows (kvSlot slot : Nat) : BodyOp sessions (.kvScatterRows kvSlot slot)
  | attention (keySlot slot : Nat) : BodyOp sessions (.attention keySlot slot)
  | row {row : Nat} {h : Handles} {op : FrameOp} (hrow : sessions[row]? = some h)
      (hop : RowOp row h op) : BodyOp sessions op

section
variable {sessions : List Handles}

/-- Work for each row touches its own session only. -/
theorem bodyOp_eachRow {body : Nat → Handles → List FrameOp}
    (h : ∀ row handles, ∀ op ∈ body row handles, RowOp row handles op) :
    ∀ op ∈ eachRow sessions body, BodyOp sessions op := by
  intro op hop
  obtain ⟨⟨handles, row⟩, hmem, hop⟩ := List.mem_flatMap.mp hop
  have hget : sessions[row]? = some handles := List.mem_zipIdx_iff_getElem?.mp hmem
  exact .row hget (h row handles op hop)

theorem bodyOp_replicate_shared (count : Nat) :
    ∀ op ∈ List.replicate count FrameOp.shared, BodyOp sessions op := by
  intro op hop
  rw [List.eq_of_mem_replicate hop]
  exact .shared

theorem bodyOp_batchRunDecoder (layerSlotBase layers positionSlot : Nat) :
    ∀ op ∈ batchRunDecoder layerSlotBase layers positionSlot, BodyOp sessions op := by
  intro op hop
  obtain ⟨layer, -, hop⟩ := List.mem_flatMap.mp hop
  rcases List.mem_append.mp hop with hop | hop
  · rcases List.mem_append.mp hop with hop | hop
    · exact bodyOp_replicate_shared 6 op hop
    · simp only [List.mem_cons, List.not_mem_nil, or_false] at hop
      rcases hop with rfl | rfl | rfl | rfl | rfl <;> constructor
  · exact bodyOp_replicate_shared 8 op hop

theorem bodyOp_predictorPosition (position : Nat) :
    ∀ op ∈ predictorPosition sessions position, BodyOp sessions op := by
  unfold predictorPosition predictorInput
  simp only [List.forall_mem_append]
  refine ⟨⟨⟨?_, bodyOp_replicate_shared 2⟩, bodyOp_batchRunDecoder _ _ _⟩, ?_⟩
  · split
    · refine bodyOp_eachRow fun row h op hop => ?_
      rw [List.mem_singleton.mp hop]
      exact .gatherLastHidden
    · intro op hop
      rw [List.mem_singleton.mp hop]
      exact .gatherEmbeddingRows (position - 1)
  · split
    · exact fun op hop => absurd hop List.not_mem_nil
    · refine List.forall_mem_append.mpr ⟨bodyOp_replicate_shared 2, bodyOp_eachRow ?_⟩
      intro row h op hop
      simp only [List.mem_cons, List.not_mem_nil, or_false] at hop
      rcases hop with rfl | rfl <;> constructor

theorem bodyOp_nextEmbedding : ∀ op ∈ nextEmbedding, BodyOp sessions op := by
  unfold nextEmbedding
  simp only [List.forall_mem_append, List.forall_mem_map, List.forall_mem_singleton]
  refine ⟨⟨⟨.gatherEmbeddingRows 0, fun residual _ => .addEmbeddingRows _⟩, .gatherTrailingRows⟩,
    bodyOp_replicate_shared 5⟩

/-- **The body of a frame, operation by operation.** -/
theorem bodyOp_frameBody : ∀ op ∈ frameBody sessions, BodyOp sessions op := by
  unfold frameBody
  simp only [List.forall_mem_append]
  refine ⟨⟨⟨⟨⟨⟨⟨⟨⟨?_, ?_⟩, ?_⟩, bodyOp_nextEmbedding⟩, ?_⟩, bodyOp_batchRunDecoder _ _ _⟩,
    bodyOp_replicate_shared 1⟩, ?_⟩, bodyOp_replicate_shared 1⟩, ?_⟩
  · refine bodyOp_eachRow fun row h op hop => ?_
    simp only [List.mem_cons, List.not_mem_nil, or_false] at hop
    rcases hop with rfl | rfl <;> constructor
  · intro op hop
    obtain ⟨position, -, hop⟩ := List.mem_flatMap.mp hop
    exact bodyOp_predictorPosition position op hop
  · refine bodyOp_eachRow fun row h op hop => ?_
    simp only [List.mem_cons, List.not_mem_nil, or_false] at hop
    rcases hop with rfl | rfl | rfl <;> constructor
  · refine bodyOp_eachRow fun row h op hop => ?_
    rw [List.mem_singleton.mp hop]
    exact .start
  · refine bodyOp_eachRow fun row h op hop => ?_
    rw [List.mem_singleton.mp hop]
    exact .copyTalkerHidden
  · refine bodyOp_eachRow fun row h op hop => ?_
    simp only [List.mem_cons, List.not_mem_nil, or_false] at hop
    rcases hop with rfl | rfl | rfl | rfl | rfl <;> constructor

end

/-! ## What a frame refers to -/

/-- The allocations of a session that a frame bakes in. -/
def Handles.resources (h : Handles) : List Resource :=
  [.device h.frameTokens, .device h.sampledToken, .device h.lastHidden, .device h.semanticHistory,
    .device h.randomState, .device h.frameCodes, .pinned h.hostSampledToken, .event h.start,
    .event h.stop, .event h.predictorStart, .event h.predictorStop, .event h.frameCodesReady,
    .event h.semanticReady]

/-- An operation of a row refers to the resources of that row. -/
theorem RowOp.references_subset {row : Nat} {h : Handles} {op : FrameOp} (hop : RowOp row h op) :
    op.references ⊆ h.resources.map (Prod.mk row) := by
  cases hop <;> simp [FrameOp.references, Handles.resources]

/-- **A frame refers to its own sessions only, each in its own row.** -/
theorem references_enqueueFrame {sessions : List Handles} {op : FrameOp}
    (hop : op ∈ enqueueFrame sessions) {reference : Nat × Resource}
    (href : reference ∈ op.references) :
    ∃ handles, sessions[reference.1]? = some handles ∧ reference.2 ∈ handles.resources := by
  rcases List.mem_append.mp hop with hop | hop
  · simp only [uploads, List.mem_cons, List.not_mem_nil, or_false] at hop
    rcases hop with rfl | rfl | rfl | rfl | rfl <;> cases href
  · cases bodyOp_frameBody op hop with
    | row hrow hop =>
      obtain ⟨resource, hres, rfl⟩ := List.mem_map.mp (hop.references_subset href)
      exact ⟨_, hrow, hres⟩
    | _ => cases href

/-! ## Equal keys name the same sessions -/

theorem rowKey_length (row : Slot × TalkerContext) : (rowKey row).length = 12 := by
  simp [rowKey, SamplingConfig.keyWords]

/-- The key determines the session addresses, row by row. -/
theorem sessions_of_graphKey_eq {rows rows' : Rows} (h : graphKey rows = graphKey rows') :
    rows.map (·.1.session) = rows'.map (·.1.session) := by
  have hwords : rows.flatMap rowKey = rows'.flatMap rowKey := (List.cons.inj h).2
  clear h
  induction rows generalizing rows' with
  | nil =>
    cases rows' with
    | nil => rfl
    | cons row' rows' => simp [rowKey] at hwords
  | cons row rows ih =>
    cases rows' with
    | nil => simp [rowKey] at hwords
    | cons row' rows' =>
      rw [List.flatMap_cons, List.flatMap_cons] at hwords
      have hlength : (rowKey row).length = (rowKey row').length := by
        rw [rowKey_length, rowKey_length]
      obtain ⟨hhead, htail⟩ := List.append_inj hwords hlength
      have hsession : row.1.session = row'.1.session := (List.cons.inj hhead).1
      rw [List.map_cons, List.map_cons, hsession, ih htail]

/-! ## Sample sessions -/

/-- Allocations at `base` and behind it. -/
def handlesAt (base : UInt64) : Handles where
  frameTokens := base
  sampledToken := base + 1
  lastHidden := base + 2
  semanticHistory := base + 3
  randomState := base + 4
  frameCodes := base + 5
  hostSampledToken := base + 6
  start := base + 7
  stop := base + 8
  predictorStart := base + 9
  predictorStop := base + 10
  frameCodesReady := base + 11
  semanticReady := base + 12
  talkerCache := (List.range kTalkerLayers).map fun layer =>
    ⟨base + 16 + 2 * UInt64.ofNat layer, base + 17 + 2 * UInt64.ofNat layer⟩
  predictorCache := (List.range kPredictorLayers).map fun layer =>
    ⟨base + 80 + 2 * UInt64.ofNat layer, base + 81 + 2 * UInt64.ofNat layer⟩

/-- Greedy sampling: `top_p`, temperature and penalty are 1. -/
def greedy : SamplingConfig where
  doSample := 0
  topK := 0
  topP := ⟨0x3f800000⟩
  temperature := ⟨0x3f800000⟩
  repetitionPenalty := ⟨0x3f800000⟩

def slotAt (session : Address) : Slot where
  session := session
  trailingTextToken := 0
  talkerSampling := greedy
  predictorSampling := greedy

end Qwen3Tts.Talker
