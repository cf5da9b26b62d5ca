import Qwen3Tts.Runtime.Types

/-!
# Server — deployment limits

`ServerConfig` of `config.rs` with its validator, and the conversion of a duration to codec
frames. An `f64` is Lean's `Float`, whose arithmetic is the IEEE model of the core library;
only `Float.ceil` has no model there, so the ceiling is taken on the truncation. A `Duration`
is its nanoseconds.
-/

namespace Qwen3Tts.Server

open Qwen3Tts.Runtime

def defaultMaxTextBytes : Nat := 32 * 1024
def defaultMaxVoiceDescriptionBytes : Nat := 4 * 1024
def defaultMaxDurationSeconds : Float := 120.0
def intrinsicMaxDurationSeconds : Float := 655.36

abbrev Duration := Nat

def Duration.fromSecs (seconds : Nat) : Duration := seconds * 10 ^ 9
def Duration.fromMillis (milliseconds : Nat) : Duration := milliseconds * 10 ^ 6

/-- `checked_add`: the seconds of a `Duration` are a `u64`. -/
def Duration.checkedAdd (d e : Duration) : Option Duration :=
  if d + e < 2 ^ 64 * 10 ^ 9 then some (d + e) else none

structure ServerConfig where
  maxConcurrentRequests : Nat
  maxTextBytes : Nat
  maxVoiceDescriptionBytes : Nat
  maxDurationSeconds : Float
  defaultDurationSeconds : Float
  pollTimeout : Duration
  slowClientTimeout : Duration
  retirementTimeout : Duration
  shutdownTimeout : Duration

def ServerConfig.default : ServerConfig where
  maxConcurrentRequests := EngineConfig.default.maxConcurrentRequests
  maxTextBytes := defaultMaxTextBytes
  maxVoiceDescriptionBytes := defaultMaxVoiceDescriptionBytes
  maxDurationSeconds := defaultMaxDurationSeconds
  defaultDurationSeconds := defaultMaxDurationSeconds
  pollTimeout := .fromMillis 100
  slowClientTimeout := .fromSecs 5
  retirementTimeout := .fromSecs 25
  shutdownTimeout := .fromSecs 35

/-- `x.ceil()` of a positive `x` below `2^64`, as an integer. -/
def ceilToNat (x : Float) : Nat :=
  let whole := x.toUInt64
  if whole.toFloat < x then whole.toNat + 1 else whole.toNat

/-- `duration_to_frames`. The ceiling of a number is finite, or not positive, exactly when the
number is, so both tests are made before rounding; the last one saturates at `u32::MAX`. -/
def durationToFrames (seconds : Float) : Nat :=
  let frames := seconds * 12.5
  if !frames.isFinite || frames ≤ 0 then 0 else min (ceilToNat frames) (2 ^ 32 - 1)

namespace ServerConfig

def validate (config : ServerConfig) : Except String Unit :=
  if config.maxConcurrentRequests = 0
      ∨ Runtime.maxConcurrentRequests < config.maxConcurrentRequests then
    .error "max_concurrent_requests must be in 1..=6"
  else if config.maxTextBytes = 0 ∨ Runtime.maxTextBytes < config.maxTextBytes then
    .error "max_text_bytes must be in 1..=1048576"
  else if config.maxVoiceDescriptionBytes = 0
      ∨ maxInstructBytes < config.maxVoiceDescriptionBytes then
    .error "max_voice_description_bytes must be in 1..=262144"
  else if !config.maxDurationSeconds.isFinite ∨ config.maxDurationSeconds < 0.08
      ∨ intrinsicMaxDurationSeconds < config.maxDurationSeconds then
    .error "max_duration_seconds must be in 0.08..=655.36"
  else if !config.defaultDurationSeconds.isFinite ∨ config.defaultDurationSeconds < 0.08
      ∨ config.maxDurationSeconds < config.defaultDurationSeconds then
    .error "default_duration_seconds must be finite and inside the configured duration limit"
  else if config.pollTimeout = 0 ∨ config.slowClientTimeout = 0 ∨ config.retirementTimeout = 0
      ∨ config.shutdownTimeout = 0 then
    .error "server timeouts must be non-zero"
  else match config.slowClientTimeout.checkedAdd config.retirementTimeout with
  | none => .error "server cleanup timeout budget overflowed"
  | some cleanupBudget =>
    if config.shutdownTimeout ≤ cleanupBudget then
      .error "slow_client_timeout + retirement_timeout must be below shutdown_timeout"
    else
      let maximumFrames := durationToFrames config.maxDurationSeconds
      if maximumFrames = 0 ∨ Runtime.maxCodecFrames < maximumFrames then
        .error "duration limit exceeds the native frame ceiling"
      else .ok ()

/-- `max_codec_frames`. -/
def maxCodecFrames (config : ServerConfig) : Nat := durationToFrames config.maxDurationSeconds

/-- `max_body_bytes`, whose sums saturate at `usize::MAX`. -/
def maxBodyBytes (config : ServerConfig) : Nat :=
  min (min (config.maxTextBytes + config.maxVoiceDescriptionBytes) (2 ^ 64 - 1) + 16 * 1024)
    (2 ^ 64 - 1)

/-- `max_buffered_pcm_bytes`, which saturates at `usize::MAX`. -/
def maxBufferedPcmBytes (config : ServerConfig) : Nat :=
  min (config.maxCodecFrames * samplesPerCodecFrame * 2) (2 ^ 64 - 1)

end ServerConfig

example : durationToFrames intrinsicMaxDurationSeconds = 8192 := by decide
example : durationToFrames 0.081 = 2 := by decide
example : ServerConfig.default.validate = .ok () := by decide

end Qwen3Tts.Server
