import Qwen3Tts.Runtime.Answers
import Qwen3Tts.Runtime.Retirement
import Qwen3Tts.Runtime.Metrics
import Qwen3Tts.Runtime.Buffers
import Qwen3Tts.Runtime.Capacity
import Qwen3Tts.Runtime.Sessions
import Qwen3Tts.Runtime.Phases
import Qwen3Tts.Runtime.Exit
import Qwen3Tts.Codec.Rejection
import Qwen3Tts.Codec.Tickets
import Qwen3Tts.Codec.Lifetime
import Qwen3Tts.Codec.FixtureParity
import Qwen3Tts.Talker.Sizing
import Qwen3Tts.Talker.GraphCache
import Qwen3Tts.Talker.Streams
import Qwen3Tts.Talker.PromptPlan
import Qwen3Tts.Talker.Leases
import Qwen3Tts.Talker.Prefill
import Qwen3Tts.Talker.Finalize
import Qwen3Tts.Talker.NativeSession
import Qwen3Tts.Talker.SessionPool
import Qwen3Tts.Talker.BatchPump
import Qwen3Tts.Talker.NativeBackend
import Qwen3Tts.Talker.Stepping
import Qwen3Tts.Talker.PacketStager
import Qwen3Tts.Artifact.Digest
import Qwen3Tts.Artifact.Packing
import Qwen3Tts.Talker.Scan
import Qwen3Tts.Talker.Lossless
import Qwen3Tts.Talker.ChatTemplate
import Qwen3Tts.Talker.MergeFile
import Qwen3Tts.Server.Terminal
import Qwen3Tts.Server.SameAudio
import Qwen3Tts.Server.Bookkeeping
import Qwen3Tts.Server.Admission
import Qwen3Tts.Server.Validated
import Qwen3Tts.Codec.Fixture
import Qwen3Tts.Lib.Incremental
import Qwen3Tts.Lib.Loop
import Qwen3Tts.Lib.PairMerge
import Qwen3Tts.Lib.Segment
import Qwen3Tts.Runtime.FfiPoll
import Qwen3Tts.Talker.BackendErrors
import Qwen3Tts.Talker.SamplerDraw
import Qwen3Tts.Runtime.ErrorBuffer
import Qwen3Tts.Bench.Wav
import Qwen3Tts.Artifact.Upload
import Qwen3Tts.Codec.SlidingAttention
import Qwen3Tts.Bench.Limits
import Qwen3Tts.Server.Body
import Qwen3Tts.Bench.RoundTrip
import Qwen3Tts.Bench.Streamed
import Qwen3Tts.Artifact.Opened
