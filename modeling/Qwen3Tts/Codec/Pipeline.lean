import Mathlib.Algebra.Ring.Nat
import Mathlib.Data.List.Basic

/-!
# Codec — the calls a packet makes

Every function of the decoder pipeline is a sequence of calls that each may fail, and returns at
the first failure. What such a function did to the device is irrelevant here; what matters is
which of its calls enqueue work. So a pipeline function is the list of its calls, under the name
of the source, and `runOps` executes a list against the set of calls that fail.

A cuBLAS product counts as a kernel. `weight` is a lookup of `require_f32_weight`, `api` any other
call of the CUDA runtime.
-/

namespace Qwen3Tts.Codec

inductive Op where
  | weight
  | kernel
  | api
  deriving DecidableEq, Repr

/-! ## Running a list of calls -/

/-- How a list of calls ended; on failure, whether a kernel had been enqueued. -/
inductive OpsResult where
  | ok
  | failed (enqueued : Bool)
  deriving DecidableEq, Repr

/-- The calls are numbered from `index`; those whose number is in `faults` fail. -/
def runOps (faults : List Nat) : Nat → Bool → List Op → OpsResult
  | _, _, [] => .ok
  | index, enqueued, op :: ops =>
    if index ∈ faults then .failed enqueued
    else runOps faults (index + 1) (enqueued || op = .kernel) ops

/-- The number of the first kernel. -/
def firstKernel (index : Nat) (ops : List Op) : Nat := index + ops.findIdx (· = .kernel)

/-- Calls fail after a kernel was enqueued only if one behind the first kernel fails. -/
theorem runOps_early {faults : List Nat} {ops : List Op} {index : Nat}
    (h : ∀ i ∈ faults, i ≤ firstKernel index ops) :
    runOps faults index false ops ≠ .failed true := by
  induction ops generalizing index with
  | nil => exact nofun
  | cons op ops ih =>
    rw [runOps]
    split
    · exact nofun
    · rename_i hfault
      by_cases hop : op = .kernel
      · -- the first kernel is here: no later call fails
        subst hop
        have hnone : ∀ i ∈ faults, i < index + 1 := by
          intro i hi
          have hle := h i hi
          rw [firstKernel, List.findIdx_cons] at hle
          simpa using Nat.lt_succ_of_le hle
        have hok : ∀ (ops : List Op) (n : Nat) (b : Bool), index + 1 ≤ n →
            runOps faults n b ops = .ok := by
          intro ops
          induction ops with
          | nil => exact fun _ _ _ => rfl
          | cons op ops ih =>
            intro n b hn
            rw [runOps, if_neg fun hmem => by have := hnone n hmem; omega]
            exact ih _ _ (by omega)
        rw [hok _ _ _ le_rfl]
        exact nofun
      · have hnext : ∀ i ∈ faults, i ≤ firstKernel (index + 1) ops := by
          intro i hi
          have hle := h i hi
          rw [firstKernel, List.findIdx_cons] at hle
          simp only [hop, decide_false, cond_false] at hle
          rw [firstKernel]
          omega
        simpa [hop] using ih hnext

/-! ## The pipeline -/

/-- `launch_linear_vector` and `launch_linear_matrix`. -/
def launchLinear (bias : Bool) : List Op :=
  [.weight, .kernel] ++ if bias then [.weight, .kernel] else []

def runFrontendStagedDevice : List Op :=
  List.replicate 4 .weight ++ [.kernel]
    ++ (List.replicate 15 [Op.weight, .weight, .kernel]).flatten
    ++ [.kernel, .kernel, .kernel] ++ [.weight, .weight, .kernel, .kernel]

def transformerLayer : List Op :=
  [.weight, .kernel] ++ (List.replicate 3 (launchLinear false)).flatten ++ [.kernel, .kernel]
    ++ launchLinear false ++ [.weight, .kernel] ++ [.weight, .kernel]
    ++ (List.replicate 2 (launchLinear false)).flatten ++ [.kernel]
    ++ launchLinear false ++ [.weight, .kernel]

def runTransformerFrame : List Op :=
  launchLinear true ++ (List.replicate 8 transformerLayer).flatten ++ [.weight, .kernel]
    ++ launchLinear true

def runConvnextStage : List Op :=
  [.weight, .weight, .kernel, .kernel] ++ [.weight, .weight, .kernel] ++ launchLinear true
    ++ [.kernel] ++ launchLinear true ++ [.weight, .kernel]

def runLatentUpsampling : List Op :=
  (List.replicate 2 ([Op.weight, .weight, .kernel] ++ runConvnextStage)).flatten

def runSnakeBeta : List Op := [.weight, .weight, .kernel]

def runCausalConvolution (historyPositions : Nat) : List Op :=
  [.kernel] ++ (if 0 < historyPositions then [.kernel] else []) ++ launchLinear true

/-- `repack`: in fast mode, no repacked copy of the weight is known yet. -/
def runDecoderTranspose (repack : Bool) : List Op :=
  [.weight, .weight] ++ (if repack then [.api, .kernel, .api] else []) ++ [.kernel, .kernel]

def runDecoderResidualUnit (dilation : Nat) : List Op :=
  runSnakeBeta ++ runCausalConvolution ((7 - 1) * dilation) ++ runSnakeBeta
    ++ runCausalConvolution ((1 - 1) * 1) ++ [.kernel]

/-- `uncached`: the stages whose weights have to be repacked. -/
def runWaveformDecoder (uncached : List Nat) : List Op :=
  runCausalConvolution ((7 - 1) * 1)
    ++ ((List.range 4).map fun stage =>
      runSnakeBeta ++ runDecoderTranspose (decide (stage ∈ uncached))
        ++ ([1, 3, 9].map runDecoderResidualUnit).flatten).flatten
    ++ runSnakeBeta ++ runCausalConvolution ((7 - 1) * 1) ++ [.kernel]

/-- The kernels from the codes of a packet to its waveform. -/
def decodeOps (uncached : List Nat) (frameCount : Nat) : List Op :=
  runFrontendStagedDevice ++ (List.replicate frameCount runTransformerFrame).flatten
    ++ runLatentUpsampling ++ runWaveformDecoder uncached

/-- Followed by the conversion to PCM, its copy to the host and `stop_event`. -/
def enqueueStagedNeuralPacket (uncached : List Nat) (frameCount : Nat) : List Op :=
  decodeOps uncached frameCount ++ [.kernel, .api, .api]

/-- `finish_staged_neural_packet`: the wait for `stop_event` and the time measurement. -/
def finishStagedNeuralPacket : List Op := [.api, .api]

/-- `run_graph_decode_body`. -/
def runGraphDecodeBody (uncached : List Nat) (frameCount : Nat) : List Op :=
  [.api, .api] ++ decodeOps uncached frameCount ++ [.kernel, .api]

/-- Calls on a capturing stream enqueue nothing. -/
def captured (ops : List Op) : List Op :=
  ops.map fun op => if op = .kernel then .api else op

/-- `process_packet_graph` up to `graph_ready`: the first packet of a size runs the body once and
then captures it, later ones launch the graph. -/
def processPacketGraph (ready : Bool) (uncached : List Nat) (frameCount : Nat) : List Op :=
  [.api] ++ if ready then [.kernel, .api, .api]
    else runGraphDecodeBody uncached frameCount ++ [.api, .api, .api]
      ++ captured (runGraphDecodeBody [] frameCount) ++ [.api, .api]

/-- The calls of `process_packet_v1` in eager mode: `start_event`, the upload of the codes, the
pipeline, and its completion. -/
def processPacketEager (frameCount : Nat) : List Op :=
  [.api, .api] ++ enqueueStagedNeuralPacket [] frameCount ++ finishStagedNeuralPacket

/-- The calls of the fixture pipeline. -/
def processFixturePacket : List Op :=
  [.api, .api] ++ [.kernel, .kernel] ++ [.kernel, .kernel]
    ++ (List.replicate 4 [Op.kernel, .kernel]).flatten ++ [.kernel, .api, .api, .api, .api]

/-- `reset_device_state`: nine `memset`s and the wait. -/
def resetDeviceState : List Op := List.replicate 10 .api

end Qwen3Tts.Codec
