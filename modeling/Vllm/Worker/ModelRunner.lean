import Vllm.Worker.BatchStep

/-! The model runner of a generation model on its last pipeline rank: how it follows the scheduler,
and how it collects the log probabilities of prompts that are processed in chunks. A hidden state
is the request and the position it was computed for. The scheduler's counts of computed tokens are
those after rejected drafts have been subtracted. -/
namespace Vllm.Worker

structure NewRequestData where
  reqId : String
  promptTokenIds : Option (List TokenId) := none
  promptEmbeds : Option PromptEmbeds := none
  samplingParams : Option SamplingParams := none
  promptLogprobs : Option Int := none
  seed : Nat := 0
  blockIds : List (List Nat) := []
  numComputedTokens : Nat := 0
  loraRequest : Option LoRARequest := none
  /-- The list object for the outputs of the request. -/
  outputRef : Nat := 0

/-- An entry of the scheduled requests that the runner knows. -/
structure CachedRequestData where
  reqId : String
  numComputedTokens : Nat
  newBlockIds : Option (List (List Nat)) := none
  numOutputTokens : Nat := 0
  resumed : Bool := false

structure SchedulerOutput where
  finishedReqIds : List String := []
  scheduledNewReqs : List NewRequestData := []
  scheduledCachedReqs : List CachedRequestData := []
  numScheduledTokens : Dict String Nat := .empty
  scheduledSpecDecodeTokens : Dict String (List TokenId) := .empty
  allTokenIds : Dict String (List TokenId) := .empty
  /-- How the attention backend reorders the batch. -/
  swaps : List (Nat × Nat) := []

namespace SchedulerOutput

def totalNumScheduledTokens (out : SchedulerOutput) : Nat := out.numScheduledTokens.total id

def resumedReqIds (out : SchedulerOutput) : List String :=
  (out.scheduledCachedReqs.filter CachedRequestData.resumed).map CachedRequestData.reqId

end SchedulerOutput

/-- The log probabilities at a prompt position: the hidden state they are computed from, and the
token whose probability is asked for. -/
structure LogprobsRow where
  hidden : String × Nat
  target : TokenId
  deriving DecidableEq, Repr

/-- A row that was not written has whatever was in memory. -/
structure LogprobsTensors where
  rows : List (Option LogprobsRow)
  width : Int
  deriving DecidableEq, Repr

def LogprobsTensors.emptyCpu (numPositions : Nat) (width : Int) : LogprobsTensors where
  rows := List.replicate numPositions none
  width

/-- `rows[start : start + len(chunk)].copy_(chunk)`. -/
def copySlice {α : Type} (rows : List (Option α)) (start : Nat) (chunk : List α) :
    Py (List (Option α)) :=
  if start + chunk.length ≤ rows.length then
    .ok (rows.take start ++ chunk.map some ++ rows.drop (start + chunk.length))
  else .error (.runtimeError "The size of tensor a must match the size of tensor b")

structure ModelRunner where
  useAsyncScheduling : Bool
  batch : InputBatch
  requests : Dict String CachedRequestState := .empty
  /-- The requests whose prompt log probabilities are not complete. -/
  numPromptLogprobs : Dict String Int := .empty
  inProgressPromptLogprobs : Dict String LogprobsTensors := .empty

/-- What `_update_states` has gathered when it changes the batch. Requests to be added are
references into `requests`. -/
structure StateUpdate where
  requests : Dict String CachedRequestState
  numPromptLogprobs : Dict String Int
  removals : List String
  writes : List (String × RowWrite) := []
  reqsToAdd : List String := []

namespace ModelRunner

variable (runner : ModelRunner)

def unscheduledReqIds (out : SchedulerOutput) : List String :=
  (runner.batch.reqIdToIndex.keys.filter (fun reqId => reqId ∉ out.finishedReqIds)).filter
    (fun reqId => !(out.numScheduledTokens.contains reqId && reqId ∉ out.resumedReqIds))

def dropRequests (out : SchedulerOutput) : StateUpdate where
  requests := out.finishedReqIds.foldl Dict.erase runner.requests
  numPromptLogprobs := out.finishedReqIds.foldl Dict.erase runner.numPromptLogprobs
  removals := out.finishedReqIds ++ runner.unscheduledReqIds out

def newRequestState (new : NewRequestData) : CachedRequestState where
  reqId := new.reqId
  promptTokenIds := new.promptTokenIds
  promptEmbeds := new.promptEmbeds
  samplingParams := new.samplingParams
  generator := match new.samplingParams with
    | some params => if params.samplingType = .randomSeed then some new.seed else none
    | none => none
  blockIds := new.blockIds
  numComputedTokens := new.numComputedTokens
  outputRef := new.outputRef
  loraRequest := new.loraRequest

/-- The request continues with a prompt that its outputs have become part of. -/
def updateStreamingRequest (req : CachedRequestState) (new : NewRequestData) :
    CachedRequestState :=
  { req with
    promptTokenIds := new.promptTokenIds
    promptEmbeds := new.promptEmbeds
    samplingParams := new.samplingParams
    blockIds := new.blockIds
    numComputedTokens := new.numComputedTokens
    outputTokenIds := [] }

def updateNewRequest (vocabSize : Nat) (update : StateUpdate) (new : NewRequestData) :
    StateUpdate :=
  match update.requests.get? new.reqId with
  | some req =>
    { update with
      requests := update.requests.set new.reqId (updateStreamingRequest req new)
      removals := update.removals ++ [new.reqId]
      reqsToAdd := update.reqsToAdd ++ [new.reqId] }
  | none =>
    { update with
      requests := update.requests.set new.reqId (newRequestState new)
      numPromptLogprobs := match new.promptLogprobs with
        | some numPromptLogprobs => update.numPromptLogprobs.set new.reqId
            (if numPromptLogprobs = -1 then vocabSize else numPromptLogprobs)
        | none => update.numPromptLogprobs
      reqsToAdd := update.reqsToAdd ++ [new.reqId] }

def updateBlockIds (blockIds : List (List Nat)) (entry : CachedRequestData)
    (reqIndex : Option Nat) : Py (List (List Nat)) :=
  if entry.resumed then do
    Py.assert reqIndex.isNone "req_index is None"
    match entry.newBlockIds with
    | none => .error (.assertionError "new_block_ids is not None")
    | some newBlockIds => .ok newBlockIds
  else
    match entry.newBlockIds with
    | none => .ok blockIds
    | some newBlockIds => .ok (blockIds.mapIdx (fun group ids => ids ++ newBlockIds.getD group []))

variable (batch : InputBatch)

section
variable (out : SchedulerOutput) (update : StateUpdate) (entry : CachedRequestData)

def rowWrites (req : CachedRequestState) (entry : CachedRequestData)
    (index : Nat) : List (String × RowWrite) :=
  (if entry.numOutputTokens < req.outputTokenIds.length then
      [(entry.reqId, .numTokens (batch.numPromptTokens index + entry.numOutputTokens))]
    else []) ++
  [(entry.reqId, .numComputedTokens entry.numComputedTokens)] ++
  (match entry.newBlockIds with
    | some newBlockIds => [(entry.reqId, .newBlocks newBlockIds)]
    | none => []) ++
  [(entry.reqId, .specTokens ((out.scheduledSpecDecodeTokens.get? entry.reqId).getD []))]

/-- The outputs of a request that comes back are taken from the scheduler. -/
def recoverOutputs (outputTokenIds : List TokenId) : Py (List TokenId) :=
  if runner.useAsyncScheduling ∧ 0 < entry.numOutputTokens then
    match out.allTokenIds.get? entry.reqId with
    | none => .error (.keyError entry.reqId)
    | some tokens => .ok (tokens.drop (tokens.length - entry.numOutputTokens))
  else .ok outputTokenIds

def updateCachedRequest : Py StateUpdate :=
  match update.requests.get? entry.reqId with
  | none => .error (.keyError entry.reqId)
  | some req => do
    let reqIndex := if entry.reqId ∈ update.removals then none
      else runner.batch.reqIdToIndex.get? entry.reqId
    let blockIds ← updateBlockIds req.blockIds entry reqIndex
    let updated := { req with
      numComputedTokens := entry.numComputedTokens
      outputTokenIds := req.outputTokenIds.take entry.numOutputTokens
      blockIds }
    match reqIndex with
    | none => do
      let outputTokenIds ← runner.recoverOutputs out entry updated.outputTokenIds
      .ok { update with
        requests := update.requests.set entry.reqId { updated with outputTokenIds }
        reqsToAdd := update.reqsToAdd ++ [entry.reqId] }
    | some index =>
      .ok { update with
        requests := update.requests.set entry.reqId updated
        writes := update.writes ++ rowWrites runner.batch out req entry index }

/-- The references to the requests to be added are read when they are added. -/
def additions : List (CachedRequestState × List TokenId) :=
  update.reqsToAdd.filterMap (fun reqId => (update.requests.get? reqId).map (fun req =>
    (req, (out.scheduledSpecDecodeTokens.get? reqId).getD [])))

/-- `remove_request` also drops what has been collected for a request in the batch. -/
def removeInProgress (removals : List String)
    (inProgress : Dict String LogprobsTensors) : Dict String LogprobsTensors :=
  removals.foldl (fun inProgress reqId =>
    if batch.reqIdToIndex.contains reqId then inProgress.erase reqId else inProgress) inProgress

end

section
variable (counts : List (String × Nat)) (out : SchedulerOutput)
  (numScheduledTokens : Dict String Nat)

def gather : Py StateUpdate :=
  out.scheduledCachedReqs.foldlM (updateCachedRequest runner out)
    (out.scheduledNewReqs.foldl (updateNewRequest runner.batch.vocabSize) (runner.dropRequests out))

def updateStates : Py ModelRunner := do
  let update ← runner.gather out
  let stepped ← runner.batch.step {
    removals := update.removals
    writes := update.writes
    additions := additions out update
    swaps := out.swaps }
  .ok { runner with
    batch := stepped.2
    requests := update.requests
    numPromptLogprobs := update.numPromptLogprobs
    inProgressPromptLogprobs :=
      removeInProgress runner.batch update.removals runner.inProgressPromptLogprobs }

/-- `scheduler_output.num_scheduled_tokens[i] for i in req_ids`. -/
def scheduledTokens (entry : Option String) : Py (String × Nat) :=
  match entry with
  | none => .error (.keyError "None")
  | some reqId =>
    match numScheduledTokens.get? reqId with
    | none => .error (.keyError reqId)
    | some numTokens => .ok (reqId, numTokens)

def queryStartLoc (index : Nat) : Nat :=
  ((counts.take index).map Prod.snd).sum

/-- The model is run on the scheduled positions of the requests in the order of the batch. -/
def hiddenStates : List (String × Nat) :=
  (counts.mapIdx (fun index entry => (List.range entry.2).map (fun i =>
    (entry.1, batch.numComputedTokensCpu index + i)))).flatten

structure LogprobsUpdate where
  inProgress : Dict String LogprobsTensors
  completed : List (String × LogprobsTensors) := []

def writeChunk (reqId : String) (promptTokenIds : List TokenId)
    (startIdx numLogits : Nat) (tensors : LogprobsTensors) : Py LogprobsTensors :=
  match runner.batch.reqIdToIndex.get? reqId with
  | none => .error (.keyError reqId)
  | some reqIdx => do
    let hidden := ((hiddenStates runner.batch counts).drop (queryStartLoc counts reqIdx)).take
      numLogits
    let targets := (promptTokenIds.drop (startIdx + 1)).take numLogits
    if hidden.length ≠ targets.length then
      .error (.runtimeError "Size does not match at dimension 0")
    else do
      let rows ← copySlice tensors.rows startIdx (List.zipWith LogprobsRow.mk hidden targets)
      .ok { tensors with rows }

/-- One round: the tensors are returned in the round after which no prompt position is left. Their
last rows are still written then. -/
def promptLogprobsRound (update : LogprobsUpdate) (entry : String × Int) : Py LogprobsUpdate :=
  match numScheduledTokens.get? entry.1 with
  | none => .ok update
  | some numTokens =>
    match runner.requests.get? entry.1 with
    | none => .error (.keyError entry.1)
    | some req =>
      match req.promptTokenIds with
      | none => .ok update
      | some promptTokenIds =>
        if promptTokenIds.length = 0 then
          .error (.runtimeError "Trying to create tensor with negative dimension -1")
        else do
          let tensors := (update.inProgress.get? entry.1).getD
            (.emptyCpu (promptTokenIds.length - 1) (entry.2 + 1))
          let startIdx := req.numComputedTokens
          let numRemainingTokens : Int := promptTokenIds.length - (startIdx + 1)
          let last := decide (numRemainingTokens < numTokens)
          let numLogits : Int := if last then numRemainingTokens else numTokens
          let tensors ← if numLogits ≤ 0 then .ok tensors
            else runner.writeChunk counts entry.1 promptTokenIds startIdx numLogits.toNat tensors
          .ok {
            inProgress := update.inProgress.set entry.1 tensors
            completed := if last then update.completed ++ [(entry.1, tensors)]
              else update.completed }

def getPromptLogprobsDict : Py (List (String × LogprobsTensors) × ModelRunner) := do
  let update ← runner.numPromptLogprobs.entries.foldlM
    (runner.promptLogprobsRound counts numScheduledTokens)
    { inProgress := runner.inProgressPromptLogprobs }
  .ok (update.completed, { runner with
    numPromptLogprobs := (update.completed.map Prod.fst).foldl Dict.erase runner.numPromptLogprobs
    inProgressPromptLogprobs := (update.completed.map Prod.fst).foldl Dict.erase update.inProgress })

end

def cacheSampled (entry : String × List TokenId) : Py ModelRunner := do
  let batch ← runner.batch.updateRow entry.1 (.sampled entry.2)
  match runner.requests.get? entry.1 with
  | none => .error (.keyError entry.1)
  | some req =>
    .ok { runner with
      batch
      requests := runner.requests.set entry.1
        { req with outputTokenIds := req.outputTokenIds ++ entry.2 } }

/-- A step of the runner; `sampled` are the tokens that the sampler returns. -/
def executeModel (out : SchedulerOutput) (sampled : List (String × List TokenId)) :
    Py (List (String × LogprobsTensors) × ModelRunner) := do
  let runner ← runner.updateStates out
  if out.totalNumScheduledTokens = 0 then .ok ([], runner)
  else do
    let counts ← runner.batch.reqIds.mapM (scheduledTokens out.numScheduledTokens)
    let runner ← sampled.foldlM cacheSampled runner
    runner.getPromptLogprobsDict counts out.numScheduledTokens

end ModelRunner
end Vllm.Worker
