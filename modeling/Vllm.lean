import Vllm.Hash.Isolation
import Vllm.KV.RefCount
import Vllm.Mm.Mirror
import Vllm.KV.HashMap
import Vllm.Shm.Readers
import Vllm.Sched.Loras
import Vllm.Structured.Bitmask
import Vllm.Eplb.Moves
import Vllm.Eplb.Rebalance
import Vllm.Eplb.Optimal
import Vllm.Worker.RowRuns
import Vllm.Worker.PromptLogprobs
import Vllm.Sched.LengthLimit
import Vllm.Nixl.Heads
import Vllm.Worker.UBatch
import Vllm.Engine.StreamedText
import Vllm.Engine.DeltaOutputs
import Vllm.Engine.Microbatch
import Vllm.Connector.Aggregator
import Vllm.V2.BadWords
import Vllm.Worker.MinTokensDrafts
import Vllm.Sched.FcfsOrder
import Vllm.Structured.Xgrammar
