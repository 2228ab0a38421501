import Vllm.Python

/-! Requests as the engine core holds them. `H` is the type of hash digests: the
digest functions are parameters of the model, so nothing but equality of digests
is ever inspected. -/
namespace Vllm

abbrev TokenId := Int

inductive RequestStatus where
  | waiting
  | waitingForFsm
  | waitingForRemoteKvs
  | waitingForStreamingReq
  | running
  | preempted
  | finishedStopped
  | finishedLengthCapped
  | finishedAborted
  | finishedIgnored
  | finishedError
  | finishedRepetition
  deriving DecidableEq, Repr

namespace RequestStatus

/-- The value `enum.auto()` assigns. -/
def value : RequestStatus → Nat
  | waiting => 1
  | waitingForFsm => 2
  | waitingForRemoteKvs => 3
  | waitingForStreamingReq => 4
  | running => 5
  | preempted => 6
  | finishedStopped => 7
  | finishedLengthCapped => 8
  | finishedAborted => 9
  | finishedIgnored => 10
  | finishedError => 11
  | finishedRepetition => 12

/-- Anything after `PREEMPTED` is a finished status. -/
def isFinished (status : RequestStatus) : Bool := status.value > preempted.value

end RequestStatus

structure LoRARequest where
  loraName : String
  loraIntId : Nat
  deriving DecidableEq, Repr

structure PlaceholderRange where
  offset : Nat
  length : Nat
  isEmbed : Option (List Bool) := none
  deriving DecidableEq, Repr

structure MultiModalFeatureSpec where
  identifier : String
  mmPosition : PlaceholderRange
  deriving DecidableEq, Repr

structure RepetitionDetectionParams where
  maxPatternSize : Int
  minPatternSize : Int
  minCount : Int
  deriving DecidableEq, Repr

structure SamplingParams where
  maxTokens : Option Nat := none
  minTokens : Nat := 0
  eosTokenId : Option TokenId := none
  stopTokenIds : List TokenId := []
  repetitionDetection : Option RepetitionDetectionParams := none
  /-- Some constraint of `structured_outputs` is set. -/
  structuredOutputs : Bool := false
  skipReadingPrefixCache : Option Bool := none
  deriving DecidableEq, Repr

structure PoolingParams where
  skipReadingPrefixCache : Option Bool := none
  deriving DecidableEq, Repr

/-- The part of a later input chunk that continues a streaming session. Arrival
times are only ever compared, so any linearly ordered stamps stand for them. -/
structure StreamingUpdate where
  mmFeatures : List MultiModalFeatureSpec
  promptTokenIds : Option (List TokenId)
  maxTokens : Nat
  arrivalTime : Int
  samplingParams : Option SamplingParams
  deriving DecidableEq, Repr

structure Request (H : Type) where
  requestId : String
  clientIndex : Nat := 0
  priority : Int := 0
  samplingParams : Option SamplingParams := none
  poolingParams : Option PoolingParams := none
  loraRequest : Option LoRARequest := none
  useStructuredOutput : Bool := false
  arrivalTime : Int := 0
  status : RequestStatus := .waiting
  maxTokens : Nat := 1
  promptTokenIds : Option (List TokenId)
  /-- One row of raw bytes for each prompt position. -/
  promptEmbeds : Option (List (List UInt8)) := none
  numPromptTokens : Nat
  outputTokenIds : List TokenId := []
  allTokenIds : List TokenId
  numOutputPlaceholders : Int := 0
  discardLatestAsyncTokens : Bool := false
  specTokenIds : List TokenId := []
  numComputedTokens : Int := 0
  cacheSalt : Option String := none
  mmFeatures : List MultiModalFeatureSpec := []
  numCachedTokens : Int := -1
  isPrefillChunk : Bool := false
  numPreemptions : Nat := 0
  numExternalComputedTokens : Int := 0
  blockHashes : List H := []
  skipReadingPrefixCache : Bool := false
  resumable : Bool := false
  /-- `none` in the queue is the end of the session. -/
  streamingQueue : Option (List (Option StreamingUpdate)) := none

variable (req : Request H)

namespace Request

def numTokens : Nat := req.allTokenIds.length

def numTokensWithSpec : Nat := req.allTokenIds.length + req.specTokenIds.length

def numOutputTokens : Nat := req.outputTokenIds.length

def hasEncoderInputs : Bool := req.mmFeatures.length > 0

def isFinished : Bool := req.status.isFinished

end Request

def StreamingUpdate.fromRequest : Option StreamingUpdate :=
  if !req.resumable then none
  else some {
    mmFeatures := req.mmFeatures
    promptTokenIds := req.promptTokenIds
    maxTokens := req.maxTokens
    arrivalTime := req.arrivalTime
    samplingParams := req.samplingParams }

end Vllm
