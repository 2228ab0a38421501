import Vllm.Sched.RequestQueue
import Vllm.Sched.EncoderCache
import Vllm.Hash.Session
import Vllm.KV.CacheManager

/-! The state of the scheduler, what it tells the workers in a step and what they report
back. Request objects live in a store and are named by references, as several queues and
dictionaries share them. `K` is the state of the scheduler half of the KV connector and
`M` the metadata it sends; statistics, events and tracing are not modelled. -/
namespace Vllm

inductive PauseState where
  | unpaused
  | pausedNew
  | pausedAll
  deriving DecidableEq, Repr

structure NewRequestData where
  reqId : String
  promptTokenIds : Option (List TokenId)
  mmFeatures : List MultiModalFeatureSpec
  samplingParams : Option SamplingParams
  poolingParams : Option PoolingParams
  blockIds : KVCacheBlocks
  numComputedTokens : Int
  loraRequest : Option LoRARequest
  promptEmbeds : Option (List (List UInt8))
  prefillTokenIds : Option (List TokenId)

/-- One entry of the parallel lists of `CachedRequestData`. `newTokenIds` and
`allTokenIds` are `none` when they are not sent. -/
structure CachedRequest where
  reqId : String
  resumed : Bool
  newTokenIds : Option (List TokenId)
  allTokenIds : Option (List TokenId)
  newBlockIds : Option KVCacheBlocks
  numComputedTokens : Int
  numOutputTokens : Int

structure SchedulerOutput (M : Type) where
  scheduledNewReqs : List NewRequestData
  scheduledCachedReqs : List CachedRequest
  numScheduledTokens : Dict String Int
  totalNumScheduledTokens : Int
  scheduledSpecDecodeTokens : Dict String (List TokenId)
  scheduledEncoderInputs : Dict String (List Nat)
  preemptedReqIds : List String
  finishedReqIds : List String
  freeEncoderMmHashes : List String
  hasStructuredOutputRequests : Bool
  pendingStructuredOutputTokens : Bool
  newBlockIdsToZero : List BlockId
  kvConnectorMetadata : Option M

structure KVConnectorOutput where
  finishedSending : List String := []
  finishedRecving : List String := []
  invalidBlockIds : List BlockId := []

structure ModelRunnerOutput where
  reqIdToIndex : Dict String Nat
  sampledTokenIds : List (List TokenId)
  /-- Whether each request has a pooler output. -/
  poolerOutput : List Bool := []
  kvConnectorOutput : Option KVConnectorOutput := none

inductive FinishReason where
  | stop
  | length
  | abort
  | error
  | repetition
  deriving DecidableEq, Repr

def RequestStatus.getFinishedReason : RequestStatus → Option FinishReason
  | finishedStopped => some .stop
  | finishedLengthCapped => some .length
  | finishedAborted => some .abort
  | finishedIgnored => some .length
  | finishedError => some .error
  | waitingForStreamingReq => some .stop
  | finishedRepetition => some .repetition
  | _ => none

structure EngineCoreOutput where
  requestId : String
  clientIndex : Nat
  newTokenIds : List TokenId
  finishReason : Option FinishReason
  hasPoolingOutput : Bool
  deriving DecidableEq, Repr

structure KVConnector (H K M : Type) where
  supportsHma : Bool
  getNumNewMatchedTokens : K → Request H → Nat → Py ((Option Nat × Bool) × K)
  updateStateAfterAlloc : K → Request H → KVCacheBlocks → Int → Py K
  buildConnectorMeta : K → SchedulerOutput M → Py (M × K)
  requestFinished : K → Request H → KVCacheBlocks → Py (Bool × K)
  updateConnectorOutput : K → KVConnectorOutput → Py K
  /-- `None` counts as success. -/
  resetCache : K → Bool × K

structure SchedulerConfig (H K M : Type) where
  policy : SchedulingPolicy
  maxNumRunningReqs : Nat
  maxNumScheduledTokens : Nat
  maxModelLen : Nat
  longPrefillTokenThreshold : Nat := 0
  enableChunkedPrefill : Bool := true
  disableChunkedMmInput : Bool := false
  /-- `max_loras` of the LoRA configuration. -/
  loraConfig : Option Nat := none
  isEncoderDecoder : Bool := false
  useEagle : Bool := false
  numSpecTokens : Nat := 0
  numLookaheadTokens : Nat := 0
  /-- The size of the scheduler's blocks, and that of the cache configuration. -/
  blockSize : Nat
  cacheBlockSize : Nat
  needMambaBlockAlignedSplit : Bool := false
  maxNumEncoderInputTokens : Nat := 0
  needsKvCacheZeroing : Bool := false
  usePp : Bool := false
  useV2ModelRunner : Bool := false
  /-- The scheduler is an `AsyncScheduler`. -/
  asyncScheduling : Bool := false
  connector : Option (KVConnector H K M) := none
  recomputeKvLoadFailures : Bool := true
  hasher : Option (BlockHasher H) := none
  /-- The drafts that the grammar of a request lets through. -/
  validateTokens : Request H → List TokenId → List TokenId := fun _ drafts => drafts

structure Scheduler (H K : Type) where
  /-- The request objects created so far have the references below `numObjects`. -/
  objects : Ref → Request H
  numObjects : Nat
  requests : Dict String Ref
  waiting : RequestQueue
  skippedWaiting : RequestQueue
  running : List Ref
  prevStepScheduledReqIds : List String
  finishedReqIds : List String
  numWaitingForStreamingInput : Int
  finishedRecvingKvReqIds : List String
  failedRecvingKvReqIds : List String
  encoderCacheManager : EncoderCache
  kvCacheManager : KVCacheManager H
  connectorState : K
  pauseState : PauseState
  /-- The requests whose grammar is compiled. -/
  compiledGrammars : List Ref
  /-- The items of the remote encoder cache, if there is an EC connector. -/
  ecConnector : Option (List String)

namespace Scheduler
variable {H K : Type} (sched : Scheduler H K)

def modify (ref : Ref) (change : Request H → Request H) : Scheduler H K :=
  { sched with objects := fun other =>
      if other = ref then change (sched.objects ref) else sched.objects other }

def lt : Ref → Ref → Bool := requestLt sched.objects

def requestId (ref : Ref) : String := (sched.objects ref).requestId

@[simp] theorem modify_objects_self (ref : Ref) (change : Request H → Request H) :
    (sched.modify ref change).objects ref = change (sched.objects ref) := if_pos rfl

theorem modify_objects_of_ne (change : Request H → Request H) (ne : other ≠ ref) :
    (sched.modify ref change).objects other = sched.objects other := if_neg ne

end Scheduler

namespace Dict
variable {β : Type} {dict : Dict String β} {key : String} {value : β}

/-- `dict.pop(key)`. -/
def popKey (dict : Dict String β) (key : String) : Py (β × Dict String β) :=
  match dict.get? key with
  | none => .error (.keyError key)
  | some value => .ok (value, dict.erase key)

/-- `dict[key]`. -/
def lookup (dict : Dict String β) (key : String) : Py β :=
  match dict.get? key with
  | none => .error (.keyError key)
  | some value => .ok value

theorem popKey_ok (h : dict.popKey key = .ok (value, rest)) : rest = dict.erase key := by
  unfold popKey at h
  split at h <;> cases h
  rfl

end Dict

end Vllm
