import Vllm.Request
import Vllm.Lib.Dict

/-! The persistent batch of a worker. A CPU array is a function of the row that is read below
its length; the rounding of a value to the element type of its array is left out. A reference to
a mutable list of output tokens is a number. -/
namespace Vllm.Worker
open Function

inductive SamplingType where
  | greedy
  | random
  | randomSeed
  deriving DecidableEq, Repr

structure SamplingParams where
  samplingType : SamplingType := .greedy
  temperature : Rat := 1
  topP : Rat := 1
  topK : Int := 0
  frequencyPenalty : Rat := 0
  presencePenalty : Rat := 0
  repetitionPenalty : Rat := 1
  logprobs : Option Int := none
  /-- `None` and the empty list are treated alike. -/
  allowedTokenIds : List Nat := []
  badWordsTokenIds : List (List TokenId) := []
  minP : Rat := 0
  logitBias : List (TokenId × Rat) := []
  minTokens : Nat := 0
  allStopTokenIds : List TokenId := []
  deriving DecidableEq, Repr

structure PoolingParams where
  requiresTokenIds : Bool
  deriving DecidableEq, Repr

/-- A tensor of prompt embeddings, one row per prompt token. -/
structure PromptEmbeds where
  tensor : Nat
  length : Nat
  deriving DecidableEq, Repr

structure CachedRequestState where
  reqId : String
  promptTokenIds : Option (List TokenId) := none
  promptEmbeds : Option PromptEmbeds := none
  samplingParams : Option SamplingParams := none
  poolingParams : Option PoolingParams := none
  poolingStates : Option Nat := none
  generator : Option Nat := none
  blockIds : List (List Nat) := []
  numComputedTokens : Nat := 0
  /-- The list that the sampler appends to, and what it holds. -/
  outputRef : Nat := 0
  outputTokenIds : List TokenId := []
  loraRequest : Option LoRARequest := none
  deriving DecidableEq, Repr

def lengthFromPromptTokenIdsOrEmbeds (promptTokenIds : Option (List TokenId))
    (promptEmbeds : Option PromptEmbeds) : Py Nat :=
  match promptTokenIds, promptEmbeds with
  | none, none => .error (.valueError "Neither prompt_token_ids nor prompt_embeds were defined.")
  | none, some embeds => .ok embeds.length
  | some ids, none => .ok ids.length
  | some ids, some embeds =>
    if embeds.length ≠ ids.length then
      .error (.valueError ("Prompt token ids and prompt embeds had different lengths" ++
        s!" prompt_token_ids={ids.length} prompt_embeds={embeds.length}"))
    else .ok ids.length

inductive MoveDirectionality where
  | unidirectional
  | swap
  deriving DecidableEq, Repr

structure MovedRequest where
  src : Nat
  dst : Nat
  direction : MoveDirectionality
  deriving DecidableEq, Repr

structure AddedRequest where
  index : Nat
  params : SamplingParams
  outputRef : Nat
  deriving DecidableEq, Repr

structure BatchUpdate where
  batchSize : Nat
  removed : List Nat
  added : List AddedRequest
  moved : List MovedRequest
  deriving DecidableEq, Repr

structure BatchUpdateBuilder where
  removed : List Nat := []
  isRemovedSorted : Bool := false
  added : List AddedRequest := []
  moved : List MovedRequest := []
  batchChanged : Bool := false

namespace BatchUpdateBuilder

variable (builder : BatchUpdateBuilder)

def ensureRemovedSorted : BatchUpdateBuilder :=
  if builder.isRemovedSorted then builder
  else { builder with removed := builder.removed.insertionSort (· ≥ ·), isRemovedSorted := true }

def removedAppend (index : Nat) : Py BatchUpdateBuilder :=
  if builder.isRemovedSorted then
    .error (.runtimeError "Cannot register new removed request after self.removed has been read.")
  else .ok { builder with removed := builder.removed ++ [index], batchChanged := true }

def popRemoved : Option Nat × BatchUpdateBuilder :=
  if builder.removed = [] then (none, builder)
  else
    let sorted := builder.ensureRemovedSorted
    (sorted.removed.getLast?, { sorted with removed := sorted.removed.dropLast })

def reset : Bool × BatchUpdateBuilder := (builder.batchChanged, {})

def getAndReset (batchSize : Nat) : Option BatchUpdate × BatchUpdateBuilder :=
  if builder.removed = [] ∧ builder.moved = [] ∧ builder.added = [] then
    (none, { builder with isRemovedSorted := false, batchChanged := false })
  else (some ⟨batchSize, builder.removed, builder.added, builder.moved⟩, {})

end BatchUpdateBuilder

section Arrays
variable {α : Type}

/-- `cells[start : start + len(values)] = values`. -/
def writeFrom (cells : Nat → α) (start : Nat) (values : List α) (column : Nat) : α :=
  ((if start ≤ column then values[column - start]? else none).getD (cells column))

/-- `target[:n] = source[:n]`. -/
def copyFirst (target source : Nat → α) (n column : Nat) : α :=
  if column < n then source column else target column

/-- `array[i], array[j] = array[j], array[i]` for numbers. -/
def swapCells (array : Nat → α) (i j : Nat) : Nat → α :=
  update (update array i (array j)) j (array i)

/-- The same assignment for rows of a tensor. The right side is a pair of views, and the first
assignment has overwritten what the second one reads. -/
def swapViews (rows : Nat → α) (i j : Nat) : Nat → α :=
  let first := update rows i (rows j)
  update first j (first i)

def swapItems (list : List α) (i j : Nat) : List α :=
  match list[i]?, list[j]? with
  | some x, some y => (list.set i y).set j x
  | _, _ => list

def swapDictValues (obj : Dict Nat α) (key1 key2 : Nat) : Dict Nat α :=
  let v1 := obj.get? key1
  let v2 := obj.get? key2
  let obj := match v1 with
    | some v => obj.set key2 v
    | none => obj.erase key2
  match v2 with
  | some v => obj.set key1 v
  | none => obj.erase key1

/-- `value = obj.pop(src, None); if value is not None: obj[dst] = value`. -/
def moveDictValue (obj : Dict Nat α) (src dst : Nat) : Dict Nat α :=
  match obj.get? src with
  | some v => (obj.erase src).set dst v
  | none => obj

end Arrays

structure BlockTable where
  blocksPerKvBlock : Nat
  blockTable : Nat → Nat → Nat
  numBlocksPerRow : Nat → Nat

namespace BlockTable

def mapToKernelBlocks (blocksPerKvBlock : Nat) (blockIds : List Nat) : List Nat :=
  if blocksPerKvBlock = 1 then blockIds
  else blockIds.flatMap (fun block =>
    (List.range blocksPerKvBlock).map (fun i => block * blocksPerKvBlock + i))

variable (table : BlockTable) (blockIds : List Nat) (src tgt row : Nat)

def appendRow : BlockTable :=
  if blockIds = [] then table
  else
    let kernelBlocks := mapToKernelBlocks table.blocksPerKvBlock blockIds
    let start := table.numBlocksPerRow row
    { table with
      numBlocksPerRow := update table.numBlocksPerRow row (start + kernelBlocks.length)
      blockTable := update table.blockTable row
        (writeFrom (table.blockTable row) start kernelBlocks) }

def addRow : BlockTable :=
  appendRow { table with numBlocksPerRow := update table.numBlocksPerRow row 0 } blockIds
    row

def moveRow : BlockTable :=
  let numBlocks := table.numBlocksPerRow src
  { table with
    blockTable := update table.blockTable tgt
      (copyFirst (table.blockTable tgt) (table.blockTable src) numBlocks)
    numBlocksPerRow := update table.numBlocksPerRow tgt numBlocks }

def swapRow : BlockTable :=
  { table with
    numBlocksPerRow := swapCells table.numBlocksPerRow src tgt
    blockTable := swapCells table.blockTable src tgt }

end BlockTable

structure InputBatch where
  maxNumReqs : Nat
  vocabSize : Nat
  isPoolingModel : Bool
  reqIds : List (Option String)
  reqIdToIndex : Dict String Nat
  tokenIdsCpu : Nat → Nat → TokenId
  isTokenIds : Nat → Nat → Bool
  reqPromptEmbeds : Dict Nat PromptEmbeds
  numTokensNoSpec : Nat → Nat
  numPromptTokens : Nat → Nat
  numComputedTokensCpu : Nat → Nat
  blockTable : List BlockTable
  temperatureCpu : Nat → Rat
  greedyReqs : Finset String
  randomReqs : Finset String
  topPCpu : Nat → Rat
  topPReqs : Finset String
  topKCpu : Nat → Int
  topKReqs : Finset String
  frequencyPenaltiesCpu : Nat → Rat
  frequencyPenaltiesReqs : Finset String
  presencePenaltiesCpu : Nat → Rat
  presencePenaltiesReqs : Finset String
  repetitionPenaltiesCpu : Nat → Rat
  repetitionPenaltiesReqs : Finset String
  numAcceptedTokensCpu : Nat → Nat
  requestLoraMapping : Nat → Nat
  loraIdToRequestIds : Dict Nat (Finset String)
  loraIdToLoraRequest : Dict Nat LoRARequest
  generators : Dict Nat Nat
  numLogprobs : Dict String Int
  batchUpdateBuilder : BatchUpdateBuilder
  hasAllowedTokenIds : Finset String
  /-- True where a token is not allowed; allocated when it is first needed. -/
  allowedTokenIdsMask : Option (Nat → Nat → Bool)
  badWordsTokenIds : Dict Nat (List (List TokenId))
  logitsProcessingNeedsTokenIds : Nat → Bool
  reqOutputTokenIds : List (Option Nat)
  specTokenIds : List (List TokenId)
  poolingParams : Dict String PoolingParams
  poolingStates : Dict String Nat

namespace InputBatch

def init (maxNumReqs vocabSize : Nat) (isPoolingModel : Bool) (blocksPerKvBlock : List Nat) :
    InputBatch where
  maxNumReqs
  vocabSize
  isPoolingModel
  reqIds := []
  reqIdToIndex := .empty
  tokenIdsCpu _ _ := 0
  isTokenIds _ _ := false
  reqPromptEmbeds := .empty
  numTokensNoSpec _ := 0
  numPromptTokens _ := 0
  numComputedTokensCpu _ := 0
  blockTable := blocksPerKvBlock.map (fun blocks => ⟨blocks, fun _ _ => 0, fun _ => 0⟩)
  temperatureCpu _ := 0
  greedyReqs := ∅
  randomReqs := ∅
  topPCpu _ := 0
  topPReqs := ∅
  topKCpu _ := 0
  topKReqs := ∅
  frequencyPenaltiesCpu _ := 0
  frequencyPenaltiesReqs := ∅
  presencePenaltiesCpu _ := 0
  presencePenaltiesReqs := ∅
  repetitionPenaltiesCpu _ := 0
  repetitionPenaltiesReqs := ∅
  numAcceptedTokensCpu _ := 1
  requestLoraMapping _ := 0
  loraIdToRequestIds := .empty
  loraIdToLoraRequest := .empty
  generators := .empty
  numLogprobs := .empty
  batchUpdateBuilder := {}
  hasAllowedTokenIds := ∅
  allowedTokenIdsMask := none
  badWordsTokenIds := .empty
  logitsProcessingNeedsTokenIds _ := false
  reqOutputTokenIds := []
  specTokenIds := List.replicate maxNumReqs []
  poolingParams := .empty
  poolingStates := .empty

variable (batch : InputBatch)

def numReqs : Nat := batch.reqIdToIndex.size

variable (req : CachedRequestState)

def registerAddRequest : Py (Nat × InputBatch) := do
  let popped := batch.batchUpdateBuilder.popRemoved
  let index := popped.1.getD batch.numReqs
  Py.assert (index < batch.maxNumReqs) "new_req_index < self.max_num_reqs"
  let builder := { popped.2 with
    batchChanged := true
    added := match req.samplingParams with
      | some params => popped.2.added ++ [⟨index, params, req.outputRef⟩]
      | none => popped.2.added }
  .ok (index, { batch with batchUpdateBuilder := builder })

section
variable (index : Nat)

def placeRequest : InputBatch :=
  let batch := if index = batch.reqIds.length then
      { batch with
        reqIds := batch.reqIds ++ [some req.reqId]
        reqOutputTokenIds := batch.reqOutputTokenIds ++ [some req.outputRef]
        specTokenIds := batch.specTokenIds ++ [[]] }
    else
      { batch with
        reqIds := batch.reqIds.set index (some req.reqId)
        reqOutputTokenIds := batch.reqOutputTokenIds.set index (some req.outputRef)
        specTokenIds := batch.specTokenIds.set index [] }
  { batch with reqIdToIndex := batch.reqIdToIndex.set req.reqId index }

def writeTokens (numPromptTokens : Nat) : InputBatch :=
  let numTokens := numPromptTokens + req.outputTokenIds.length
  let tokens := match req.promptTokenIds with
    | some ids => writeFrom (batch.tokenIdsCpu index) 0 ids
    | none => batch.tokenIdsCpu index
  let isToken := writeFrom (batch.isTokenIds index) 0
    (List.replicate numPromptTokens req.promptTokenIds.isSome)
  { batch with
    numPromptTokens := update batch.numPromptTokens index numPromptTokens
    tokenIdsCpu := update batch.tokenIdsCpu index
      (writeFrom tokens numPromptTokens req.outputTokenIds)
    isTokenIds := update batch.isTokenIds index
      (writeFrom isToken numPromptTokens (List.replicate req.outputTokenIds.length true))
    reqPromptEmbeds := match req.promptEmbeds with
      | some embeds => batch.reqPromptEmbeds.set index embeds
      | none => batch.reqPromptEmbeds
    numTokensNoSpec := update batch.numTokensNoSpec index numTokens
    numComputedTokensCpu := update batch.numComputedTokensCpu index req.numComputedTokens
    blockTable := batch.blockTable.mapIdx
      (fun group table => table.addRow (req.blockIds.getD group []) index) }

def insertIf (condition : Bool) (reqId : String) (set : Finset String) : Finset String :=
  if condition then insert reqId set else set

def maskOf (allowedTokenIds : List Nat) (token : Nat) : Bool := decide (token ∉ allowedTokenIds)

def writeSamplingParams (params : SamplingParams) : InputBatch :=
  let reqId := req.reqId
  let greedy := params.samplingType == .greedy
  let topKUsed := 0 < params.topK ∧ params.topK < batch.vocabSize
  { batch with
    temperatureCpu := update batch.temperatureCpu index (if greedy then 0 else params.temperature)
    greedyReqs := insertIf greedy reqId batch.greedyReqs
    randomReqs := insertIf (!greedy) reqId batch.randomReqs
    topPCpu := update batch.topPCpu index params.topP
    topPReqs := insertIf (params.topP < 1) reqId batch.topPReqs
    topKCpu := update batch.topKCpu index (if topKUsed then params.topK else batch.vocabSize)
    topKReqs := insertIf topKUsed reqId batch.topKReqs
    frequencyPenaltiesCpu := update batch.frequencyPenaltiesCpu index params.frequencyPenalty
    frequencyPenaltiesReqs :=
      insertIf (params.frequencyPenalty ≠ 0) reqId batch.frequencyPenaltiesReqs
    presencePenaltiesCpu := update batch.presencePenaltiesCpu index params.presencePenalty
    presencePenaltiesReqs := insertIf (params.presencePenalty ≠ 0) reqId batch.presencePenaltiesReqs
    repetitionPenaltiesCpu := update batch.repetitionPenaltiesCpu index params.repetitionPenalty
    repetitionPenaltiesReqs :=
      insertIf (params.repetitionPenalty ≠ 1) reqId batch.repetitionPenaltiesReqs
    generators := match req.generator with
      | some generator => batch.generators.set index generator
      | none => batch.generators
    numLogprobs := match params.logprobs with
      | some logprobs =>
        batch.numLogprobs.set reqId (if logprobs = -1 then batch.vocabSize else logprobs)
      | none => batch.numLogprobs
    hasAllowedTokenIds := insertIf (params.allowedTokenIds ≠ []) reqId batch.hasAllowedTokenIds
    allowedTokenIdsMask := if params.allowedTokenIds = [] then batch.allowedTokenIdsMask
      else some (update (batch.allowedTokenIdsMask.getD (fun _ _ => false)) index
        (maskOf params.allowedTokenIds))
    badWordsTokenIds := if params.badWordsTokenIds = [] then batch.badWordsTokenIds
      else batch.badWordsTokenIds.set index params.badWordsTokenIds }

def writePoolingParams (params : PoolingParams) : Py InputBatch := do
  match req.poolingStates with
  | none => .error (.assertionError "pooling_states is not None")
  | some states => .ok { batch with
      poolingParams := batch.poolingParams.set req.reqId params
      poolingStates := batch.poolingStates.set req.reqId states
      logitsProcessingNeedsTokenIds :=
        update batch.logitsProcessingNeedsTokenIds index params.requiresTokenIds }

def writeParams : Py InputBatch :=
  match req.samplingParams, req.poolingParams with
  | some params, _ => .ok (batch.writeSamplingParams req index params)
  | none, some params => batch.writePoolingParams req index params
  | none, none => .error (.notImplementedError "Unrecognized request type")

def writeLora : InputBatch :=
  let batch := { batch with
    numAcceptedTokensCpu := update batch.numAcceptedTokensCpu index 1 }
  match req.loraRequest with
  | some lora =>
    { batch with
      requestLoraMapping := update batch.requestLoraMapping index lora.loraIntId
      loraIdToRequestIds := batch.loraIdToRequestIds.set lora.loraIntId
        (insert req.reqId ((batch.loraIdToRequestIds.get? lora.loraIntId).getD ∅))
      loraIdToLoraRequest := batch.loraIdToLoraRequest.set lora.loraIntId lora }
  | none => { batch with requestLoraMapping := update batch.requestLoraMapping index 0 }

end

def addRequest : Py InputBatch := do
  let (index, batch) ← batch.registerAddRequest req
  let batch := batch.placeRequest req index
  let numPromptTokens ← lengthFromPromptTokenIdsOrEmbeds req.promptTokenIds req.promptEmbeds
  let batch ← (batch.writeTokens req index numPromptTokens).writeParams req index
  .ok (batch.writeLora req index)

section
variable (i1 i2 last empty : Nat) (reqId : String)

def removeLora (index : Nat) : Py InputBatch :=
  let loraId := batch.requestLoraMapping index
  if loraId = 0 then .ok batch
  else
    match batch.loraIdToRequestIds.get? loraId with
    | none => .error (.keyError (toString loraId))
    | some reqIds =>
      let left := reqIds.erase reqId
      .ok { batch with
        loraIdToRequestIds := if left = ∅ then batch.loraIdToRequestIds.erase loraId
          else batch.loraIdToRequestIds.set loraId left
        loraIdToLoraRequest := if left = ∅ then batch.loraIdToLoraRequest.erase loraId
          else batch.loraIdToLoraRequest
        requestLoraMapping := update batch.requestLoraMapping index 0 }

/-- The part of a removal that pooling models skip, and what they do instead. -/
def removeParams (index : Nat) : InputBatch :=
  if batch.isPoolingModel then
    { batch with
      poolingParams := batch.poolingParams.erase reqId
      poolingStates := batch.poolingStates.erase reqId }
  else
    { batch with
      greedyReqs := batch.greedyReqs.erase reqId
      randomReqs := batch.randomReqs.erase reqId
      topPReqs := batch.topPReqs.erase reqId
      topKReqs := batch.topKReqs.erase reqId
      frequencyPenaltiesReqs := batch.frequencyPenaltiesReqs.erase reqId
      presencePenaltiesReqs := batch.presencePenaltiesReqs.erase reqId
      repetitionPenaltiesReqs := batch.repetitionPenaltiesReqs.erase reqId
      generators := batch.generators.erase index
      numLogprobs := batch.numLogprobs.erase reqId
      hasAllowedTokenIds := batch.hasAllowedTokenIds.erase reqId
      allowedTokenIdsMask := batch.allowedTokenIdsMask.map
        (fun mask => update mask index (fun _ => false))
      badWordsTokenIds := batch.badWordsTokenIds.erase index }

def removeRequest : Py InputBatch :=
  match batch.reqIdToIndex.get? reqId with
  | none => .ok batch
  | some index => do
    let builder ← batch.batchUpdateBuilder.removedAppend index
    let batch := { batch with
      reqIdToIndex := batch.reqIdToIndex.erase reqId
      batchUpdateBuilder := builder
      reqIds := batch.reqIds.set index none
      reqOutputTokenIds := batch.reqOutputTokenIds.set index none
      specTokenIds := batch.specTokenIds.set index [] }
    let batch ← batch.removeLora reqId index
    .ok (batch.removeParams reqId index)

def swapShared (id1 id2 : String) (index1 index2 : Nat) : InputBatch :=
  { batch with
    reqIds := swapItems batch.reqIds i1 i2
    reqOutputTokenIds := swapItems batch.reqOutputTokenIds i1 i2
    specTokenIds := swapItems batch.specTokenIds i1 i2
    reqIdToIndex := (batch.reqIdToIndex.set id1 index2).set id2 index1
    numTokensNoSpec := swapCells batch.numTokensNoSpec i1 i2
    numPromptTokens := swapCells batch.numPromptTokens i1 i2
    numComputedTokensCpu := swapCells batch.numComputedTokensCpu i1 i2
    tokenIdsCpu := swapCells batch.tokenIdsCpu i1 i2
    isTokenIds := swapCells batch.isTokenIds i1 i2
    reqPromptEmbeds := swapDictValues batch.reqPromptEmbeds i1 i2
    blockTable := batch.blockTable.map (fun table => table.swapRow i1 i2)
    requestLoraMapping := swapCells batch.requestLoraMapping i1 i2 }

def swapSampling : InputBatch :=
  { batch with
    batchUpdateBuilder := { batch.batchUpdateBuilder with
      moved := batch.batchUpdateBuilder.moved ++ [⟨i1, i2, .swap⟩] }
    temperatureCpu := swapCells batch.temperatureCpu i1 i2
    topPCpu := swapCells batch.topPCpu i1 i2
    topKCpu := swapCells batch.topKCpu i1 i2
    frequencyPenaltiesCpu := swapCells batch.frequencyPenaltiesCpu i1 i2
    presencePenaltiesCpu := swapCells batch.presencePenaltiesCpu i1 i2
    repetitionPenaltiesCpu := swapCells batch.repetitionPenaltiesCpu i1 i2
    numAcceptedTokensCpu := swapCells batch.numAcceptedTokensCpu i1 i2
    generators := swapDictValues batch.generators i1 i2
    badWordsTokenIds := swapDictValues batch.badWordsTokenIds i1 i2
    allowedTokenIdsMask := batch.allowedTokenIdsMask.map (fun mask => swapViews mask i1 i2) }

def swapStates : Py InputBatch :=
  match batch.reqIds[i1]?, batch.reqIds[i2]? with
  | some (some id1), some (some id2) =>
    match batch.reqIdToIndex.get? id1, batch.reqIdToIndex.get? id2 with
    | some index1, some index2 =>
      let swapped := batch.swapShared i1 i2 id1 id2 index1 index2
      .ok (if batch.isPoolingModel then swapped else swapped.swapSampling i1 i2)
    | _, _ => .error (.keyError "req_id_to_index")
  | some _, some _ => .error (.assertionError "old_id_i1 is not None and old_id_i2 is not None")
  | _, _ => .error (.indexError "list index out of range")

def moveShared : InputBatch :=
  let spec := batch.specTokenIds.getD last []
  let numTokens := batch.numTokensNoSpec last + spec.length
  { batch with
    reqIds := (batch.reqIds.set empty (some reqId)).set last none
    reqOutputTokenIds := (batch.reqOutputTokenIds.set empty
      (batch.reqOutputTokenIds.getD last none)).set last none
    reqIdToIndex := batch.reqIdToIndex.set reqId empty
    specTokenIds := (swapItems batch.specTokenIds last empty).set last []
    tokenIdsCpu := update batch.tokenIdsCpu empty
      (copyFirst (batch.tokenIdsCpu empty) (batch.tokenIdsCpu last) numTokens)
    isTokenIds := update batch.isTokenIds empty
      (copyFirst (batch.isTokenIds empty) (batch.isTokenIds last) numTokens)
    reqPromptEmbeds := moveDictValue batch.reqPromptEmbeds last empty
    numTokensNoSpec := update batch.numTokensNoSpec empty (batch.numTokensNoSpec last)
    numPromptTokens := update batch.numPromptTokens empty (batch.numPromptTokens last)
    numComputedTokensCpu :=
      update batch.numComputedTokensCpu empty (batch.numComputedTokensCpu last)
    blockTable := batch.blockTable.map (fun table => table.moveRow last empty)
    requestLoraMapping := update batch.requestLoraMapping empty (batch.requestLoraMapping last) }

def moveSampling : InputBatch :=
  { batch with
    batchUpdateBuilder := { batch.batchUpdateBuilder with
      moved := batch.batchUpdateBuilder.moved ++ [⟨last, empty, .unidirectional⟩] }
    temperatureCpu := update batch.temperatureCpu empty (batch.temperatureCpu last)
    topPCpu := update batch.topPCpu empty (batch.topPCpu last)
    topKCpu := update batch.topKCpu empty (batch.topKCpu last)
    frequencyPenaltiesCpu :=
      update batch.frequencyPenaltiesCpu empty (batch.frequencyPenaltiesCpu last)
    presencePenaltiesCpu :=
      update batch.presencePenaltiesCpu empty (batch.presencePenaltiesCpu last)
    repetitionPenaltiesCpu :=
      update batch.repetitionPenaltiesCpu empty (batch.repetitionPenaltiesCpu last)
    numAcceptedTokensCpu :=
      update batch.numAcceptedTokensCpu empty (batch.numAcceptedTokensCpu last)
    generators := moveDictValue batch.generators last empty
    allowedTokenIdsMask := batch.allowedTokenIdsMask.map
      (fun mask => update mask empty (mask last))
    badWordsTokenIds := moveDictValue batch.badWordsTokenIds last empty }

def moveRequest : InputBatch :=
  let popped := { batch with batchUpdateBuilder := batch.batchUpdateBuilder.popRemoved.2 }
  let moved := popped.moveShared last empty reqId
  if batch.isPoolingModel then moved else moved.moveSampling last empty

end

def moveDown (last empty : Nat) : Py InputBatch :=
  match batch.reqIds[last]? with
  | some (some reqId) => .ok (batch.moveRequest last empty reqId)
  | _ => .error (.assertionError "req_id is not None")

/-- The largest index up to `last` that is not empty. -/
def skipEmpty (removed : List Nat) : Nat → Nat
  | 0 => 0
  | last + 1 => if last + 1 ∈ removed then skipEmpty removed last else last + 1

/-- The loop of `condense`. Every round takes one index from the removed ones. -/
def condenseLoop : Nat → InputBatch → Nat → Py InputBatch
  | 0, batch, _ => .ok batch
  | fuel + 1, batch, last =>
    if batch.batchUpdateBuilder.removed = [] then .ok batch
    else
      let last := skipEmpty batch.batchUpdateBuilder.removed last
      match batch.batchUpdateBuilder.removed.getLast? with
      | none => .error (.assertionError "empty_index is not None")
      | some empty =>
        if empty ≥ last then .ok batch
        else do
          let batch ← batch.moveDown last empty
          condenseLoop fuel batch (last - 1)

def condense : Py InputBatch := do
  let numReqs := batch.numReqs
  let batch := { batch with batchUpdateBuilder := batch.batchUpdateBuilder.ensureRemovedSorted }
  let numEmpty := batch.batchUpdateBuilder.removed.length
  if numEmpty = 0 then .ok batch
  else if numReqs = 0 then
    .ok { batch with reqIds := [], reqOutputTokenIds := [], specTokenIds := [] }
  else do
    let batch ← condenseLoop numEmpty batch (numReqs + numEmpty - 1)
    .ok { batch with
      reqIds := batch.reqIds.take numReqs
      reqOutputTokenIds := batch.reqOutputTokenIds.take numReqs
      specTokenIds := batch.specTokenIds.take numReqs }

/-- The pending update for the logits processors; nothing for pooling models. -/
def refreshMetadata : Option BatchUpdate × InputBatch :=
  if batch.isPoolingModel then
    (none, { batch with batchUpdateBuilder := batch.batchUpdateBuilder.reset.2 })
  else
    let update := batch.batchUpdateBuilder.getAndReset batch.numReqs
    (update.1, { batch with batchUpdateBuilder := update.2 })

end InputBatch
end Vllm.Worker
