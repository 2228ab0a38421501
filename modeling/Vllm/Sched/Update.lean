import Vllm.Sched.Schedule

/-! What changes the scheduler between two `schedule` calls: requests come and end, the
workers report the outputs of a step, KV transfers finish or fail, caches are reset. -/
namespace Vllm
variable {H K M : Type} [DecidableEq H]

def tokenFromEnd (tokenIds : List TokenId) (n : Nat) : Option TokenId := tokenIds.reverse[n - 1]?

def hasRepeatingPattern (tokenIds : List TokenId) (patternLen repetitionMinCount : Nat) : Bool :=
  (List.range' 1 patternLen).all (fun n =>
    (List.range' 1 (repetitionMinCount - 1)).all (fun m =>
      tokenFromEnd tokenIds (patternLen * m + n) = tokenFromEnd tokenIds n))

def repetitionLoop (tokenIds : List TokenId) (minCount : Nat) : List Nat → Bool
  | [] => false
  | patternLen :: rest =>
    if patternLen * minCount > tokenIds.length then false
    else if hasRepeatingPattern tokenIds patternLen minCount then true
    else repetitionLoop tokenIds minCount rest

def checkSequenceRepetition (tokenIds : List TokenId) (params : RepetitionDetectionParams) : Bool :=
  let minPatternSize := if params.minPatternSize ≤ 0 then 1 else params.minPatternSize
  if params.maxPatternSize ≤ 0 ∨ params.minCount < 2 ∨ minPatternSize > params.maxPatternSize then
    false
  else
    repetitionLoop tokenIds params.minCount.toNat
      (List.range' minPatternSize.toNat (params.maxPatternSize - minPatternSize + 1).toNat)

variable (req : Request H)

def stopStatus (params : SamplingParams) (maxModelLen : Nat) (lastTokenId : TokenId) :
    Option RequestStatus :=
  if params.eosTokenId = some lastTokenId then some .finishedStopped
  else if lastTokenId ∈ params.stopTokenIds then some .finishedStopped
  else if req.numTokens ≥ maxModelLen ∨ req.numOutputTokens ≥ req.maxTokens then
    some .finishedLengthCapped
  else
    match params.repetitionDetection with
    | none => none
    | some repetition =>
      if checkSequenceRepetition req.outputTokenIds repetition then some .finishedRepetition
      else none

def checkStop (maxModelLen : Nat) : Py (Option RequestStatus) := do
  Py.assert req.poolingParams.isNone "not request.pooling_params"
  match req.samplingParams with
  | none => .error (.assertionError "sampling_params is not None")
  | some params =>
    if req.numOutputTokens < params.minTokens then return none
    else
      match req.outputTokenIds.getLast? with
      | none => .error (.indexError "list index out of range")
      | some lastTokenId => return stopStatus req params maxModelLen lastTokenId

/-- `Scheduler._update_request_with_output`: the tokens that are kept, whether the request
stopped, and the request. -/
def appendOutput (cfg : SchedulerConfig H K M) :
    List TokenId → Request H → Py ((List TokenId × Bool) × Request H)
  | [], req => .ok (([], false), req)
  | outputTokenId :: rest, req => do
    let appended := req.appendOutputTokenIds cfg.hasher [outputTokenId]
    let stop ← checkStop appended cfg.maxModelLen
    match stop with
    | some status => return (([outputTokenId], true), { appended with status := status })
    | none =>
      let ((kept, stopped), last) ← appendOutput cfg rest appended
      return ((outputTokenId :: kept, stopped), last)

namespace Scheduler

/-- Cache the new tokens. Preempted requests are skipped. -/
def cacheOutput (sched : Scheduler H K) (ref : Ref) (statusBefore : RequestStatus) :
    Py (Scheduler H K) :=
  if statusBefore = .running then do
    let req := sched.objects ref
    let mgr ← sched.kvCacheManager.cacheBlocks req
      (req.numComputedTokens - req.numOutputPlaceholders)
    return sched.withKv mgr
  else .ok sched

variable (cfg : SchedulerConfig H K M)

section
variable (sched : Scheduler H K) (ref : Ref) (newTokenIds : List TokenId)

/-- `AsyncScheduler._update_request_with_output`. -/
def asyncUpdateRequestWithOutput : Py ((List TokenId × Bool) × Scheduler H K) :=
  let req := sched.objects ref
  if req.discardLatestAsyncTokens then
    .ok (([], false), sched.modify ref
      (fun req => { req with discardLatestAsyncTokens := false }))
  else do
    let ((kept, stopped), appended) ← appendOutput cfg newTokenIds req
    let settled := { appended with
      numOutputPlaceholders := appended.numOutputPlaceholders - kept.length }
    Py.assert (settled.numOutputPlaceholders ≥ 0) "request.num_output_placeholders >= 0"
    let cached ← (sched.modify ref (fun _ => settled)).cacheOutput ref req.status
    return ((kept, stopped), cached)

def updateRequestWithOutput : Py ((List TokenId × Bool) × Scheduler H K) :=
  if cfg.asyncScheduling then sched.asyncUpdateRequestWithOutput cfg ref newTokenIds
  else do
    let (result, appended) ← appendOutput cfg newTokenIds (sched.objects ref)
    return (result, sched.modify ref (fun _ => appended))

end

variable (policy : SchedulingPolicy)

section
variable (sched : Scheduler H K) (ref : Ref)

def enqueueWaitingRequest : Scheduler H K :=
  let name : QueueName := if isBlockedWaitingStatus (sched.objects ref).status
    then .skippedWaiting else .waiting
  sched.setQueue name (RequestQueue.addRequest policy sched.lt (sched.queue name) ref)

/-- `_update_request_as_session`. -/
def updateSession (update : StreamingUpdate) : Py (Scheduler H K) := do
  let session := sched.objects ref
  let updated ← updateRequestAsSession cfg.hasher session update
  return { sched.modify ref (fun _ => updated) with
    numWaitingForStreamingInput := if session.status = .waitingForStreamingReq
      then sched.numWaitingForStreamingInput - 1 else sched.numWaitingForStreamingInput }

/-- True if the request is finished: a resumable one may go on. -/
def handleStoppedRequest : Py (Bool × Scheduler H K) :=
  let req := sched.objects ref
  if !req.resumable then .ok (true, sched)
  else
    match req.streamingQueue.getD [] with
    | [] =>
      let idle := { sched.setStatus ref .waitingForStreamingReq with
        numWaitingForStreamingInput := sched.numWaitingForStreamingInput + 1 }
      .ok (false, idle.enqueueWaitingRequest cfg.policy ref)
    | none :: rest =>
      .ok (true, sched.modify ref (fun req => { req with streamingQueue := some rest }))
    | some update :: rest => do
      let popped := sched.modify ref
        (fun req => { req with streamingQueue := some rest })
      let updated ← popped.updateSession cfg ref update
      return (false, updated.enqueueWaitingRequest cfg.policy ref)

def connectorFinished : Py (Bool × Scheduler H K) :=
  match cfg.connector with
  | none => .ok (false, sched)
  | some connector => do
    let req := sched.objects ref
    let mgr ← sched.kvCacheManager.removeSkippedBlocks req.requestId req.numTokens
    Py.assert (connector.supportsHma || mgr.coordinator.singleTypeManagers.length = 1)
      "len(self.kv_cache_config.kv_cache_groups) == 1"
    let (delayFreeBlocks, state) ← connector.requestFinished sched.connectorState req
      (mgr.getBlocks req.requestId)
    return (delayFreeBlocks, { sched.withKv mgr with connectorState := state })

def freeBlocks : Py (Scheduler H K) := do
  let req := sched.objects ref
  Py.assert req.isFinished "request.is_finished()"
  let mgr ← sched.kvCacheManager.free req.requestId
  let (_, requests) ← sched.requests.popKey req.requestId
  return { sched.withKv mgr with requests := requests }

def freeUnlessDelayed (delayFreeBlocks : Bool) : Py (Scheduler H K) :=
  if delayFreeBlocks then .ok sched else sched.freeBlocks ref

def freeRequest (delayFreeBlocks : Bool) : Py (Scheduler H K) := do
  Py.assert (sched.objects ref).isFinished "request.is_finished()"
  let (connectorDelay, told) ← sched.connectorFinished cfg ref
  let cache ← told.encoderCacheManager.free (told.objects ref)
  let released := { told.withEncoder cache with
    finishedReqIds := told.finishedReqIds ++ [told.requestId ref] }
  released.freeUnlessDelayed ref (delayFreeBlocks || connectorDelay)

/-- Remove items from a list: a single item once, several by filtering. -/
def removeAll (list items : List Ref) : List Ref :=
  match items with
  | [] => list
  | [item] => list.erase item
  | _ => list.filter (· ∉ items)

end

section
variable (sched : Scheduler H K) (requestIds : Option (List String))
  (finishedStatus : RequestStatus)

def liveRefs (requestIds : List String) : List Ref :=
  requestIds.filterMap (fun reqId =>
    match sched.requests.get? reqId with
    | none => none
    | some ref => if (sched.objects ref).isFinished then none else some ref)

def finishRequest (sched : Scheduler H K) (ref : Ref) : Py (Scheduler H K) :=
  let req := sched.objects ref
  if req.status = .waitingForRemoteKvs then
    let delayFreeBlocks := req.requestId ∉ sched.finishedRecvingKvReqIds
    let discarded := { sched with
      finishedRecvingKvReqIds := sched.finishedRecvingKvReqIds.filter (· ≠ req.requestId)
      failedRecvingKvReqIds := sched.failedRecvingKvReqIds.filter (· ≠ req.requestId) }
    (discarded.setStatus ref finishedStatus).freeRequest cfg ref delayFreeBlocks
  else (sched.setStatus ref finishedStatus).freeRequest cfg ref false

/-- Take the requests out of the queues that their status points to. -/
def dequeue (refs : List Ref) : Scheduler H K :=
  let isRunning := fun ref => decide ((sched.objects ref).status = .running)
  let fromRunning := refs.filter isRunning
  let fromWaiting := refs.filter (fun ref => !isRunning ref)
  let streaming := fromWaiting.filter
    (fun ref => (sched.objects ref).status = .waitingForStreamingReq)
  { sched with
    running := removeAll sched.running fromRunning
    waiting := if fromWaiting.isEmpty then sched.waiting
      else RequestQueue.removeRequests policy sched.lt sched.waiting fromWaiting
    skippedWaiting := if fromWaiting.isEmpty then sched.skippedWaiting
      else RequestQueue.removeRequests policy sched.lt sched.skippedWaiting fromWaiting
    numWaitingForStreamingInput := sched.numWaitingForStreamingInput - streaming.length }

/-- `finish_requests`; `none` stands for all requests. A set is listed in some order. -/
def finishRequests : Py (List (String × Nat) × Scheduler H K) := do
  Py.assert finishedStatus.isFinished "RequestStatus.is_finished(finished_status)"
  let refs := sched.liveRefs ((requestIds.map List.dedup).getD sched.requests.keys)
  let finished ← refs.foldlM (finishRequest cfg finishedStatus)
    (sched.dequeue cfg.policy refs)
  return (refs.map (fun ref => ((sched.objects ref).requestId, (sched.objects ref).clientIndex)),
    finished)

def registerRequest (req : Request H) : Scheduler H K :=
  let ref := sched.numObjects
  let added := if req.resumable then { req with streamingQueue := some [] } else req
  let stored := { sched.modify ref (fun _ => added) with numObjects := ref + 1 }
  let queued := stored.enqueueWaitingRequest policy ref
  { queued with requests := queued.requests.set req.requestId ref }

def addRequest (req : Request H) : Py (Scheduler H K) :=
  match sched.requests.get? req.requestId with
  | none => .ok (sched.registerRequest cfg.policy req)
  | some existing =>
    let update := StreamingUpdate.fromRequest req
    if (sched.objects existing).status ≠ .waitingForStreamingReq then
      match (sched.objects existing).streamingQueue with
      | none => .error (.assertionError "duplicate request id")
      | some queue => .ok (sched.modify existing
          (fun session => { session with streamingQueue := some (queue ++ [update]) }))
    else
      match update with
      | some update => sched.updateSession cfg existing update
      | none => do
        let (_, finished) ← sched.finishRequests cfg (some [req.requestId])
          .finishedAborted
        return finished

/-- The accumulators of `_update_requests_with_invalid_blocks`. -/
structure InvalidScan where
  affectedReqIds : List String := []
  blocksToEvict : List BlockId := []
  markedInvalidBlockIds : List BlockId := []

structure BlockScan where
  isAffected : Bool := false
  /-- The index of the first block that this request recomputes. -/
  firstInvalid : Option Nat := none
  marked : List BlockId

def scanBlock (invalidBlockIds : List BlockId) (scan : BlockScan)
    (block : BlockId × Nat) : BlockScan :=
  if block.1 ∉ invalidBlockIds then scan
  else if block.1 ∈ scan.marked then { scan with isAffected := true }
  else { scan with
    isAffected := true
    marked := scan.marked ++ [block.1]
    firstInvalid := scan.firstInvalid.or (some block.2) }

end

def loadedTokens : Int :=
  if req.status = .waitingForRemoteKvs then req.numComputedTokens
  else req.numCachedTokens

/-- Back to the first block to recompute, or to the cached tokens if others recompute them. -/
def truncateComputed (blockSize : Nat) (req : Request H) : Option Nat → Request H
  | none => { req with numComputedTokens := req.numCachedTokens }
  | some idx =>
    let numComputedTokens : Int := idx * blockSize
    { req with
      numComputedTokens := numComputedTokens
      numExternalComputedTokens :=
        req.numExternalComputedTokens - (loadedTokens req - numComputedTokens) }

def updateRequestWithInvalidBlocks (invalidBlockIds : List BlockId) (evictBlocks : Bool)
    (state : InvalidScan × Scheduler H K) (ref : Ref) : Py (InvalidScan × Scheduler H K) :=
  let (scan, sched) := state
  let req := sched.objects ref
  match sched.kvCacheManager.getBlocks req.requestId with
  | [reqBlockIds] =>
    let numBlocks := ((loadedTokens req + cfg.blockSize - 1) / cfg.blockSize).toNat
    let blocks := (reqBlockIds.take numBlocks).zipIdx.foldl (scanBlock invalidBlockIds)
      { marked := scan.markedInvalidBlockIds }
    if blocks.isAffected then
      .ok ({
        affectedReqIds := scan.affectedReqIds ++ [req.requestId]
        markedInvalidBlockIds := blocks.marked
        blocksToEvict := match blocks.firstInvalid with
          | some idx => if evictBlocks then scan.blocksToEvict ++ reqBlockIds.drop idx
            else scan.blocksToEvict
          | none => scan.blocksToEvict },
        sched.modify ref (truncateComputed cfg.blockSize · blocks.firstInvalid))
    else .ok ({ scan with markedInvalidBlockIds := blocks.marked }, sched)
  | [] => .error (.valueError "not enough values to unpack (expected 1, got 0)")
  | _ => .error (.valueError "too many values to unpack (expected 1)")

section
variable (sched : Scheduler H K) (output : Option KVConnectorOutput) (requests : List Ref)
  (invalidBlockIds : List BlockId)

def updateRequestsWithInvalidBlocks (evictBlocks : Bool) : Py (InvalidScan × Scheduler H K) :=
  requests.foldlM (updateRequestWithInvalidBlocks cfg invalidBlockIds evictBlocks) ({}, sched)

def evictInvalid (blocks : List BlockId) : Py (Scheduler H K) :=
  if !blocks.isEmpty ∧ !cfg.recomputeKvLoadFailures then do
    let mgr ← sched.kvCacheManager.evictBlocks blocks.dedup
    return sched.withKv mgr
  else .ok sched

/-- The ids of the requests whose output is skipped. -/
def handleInvalidBlocks : Py (List String × Scheduler H K) := do
  let loading := (RequestQueue.iter cfg.policy sched.lt sched.skippedWaiting).filter
    (fun ref => (sched.objects ref).status = .waitingForRemoteKvs)
  let (asyncScan, first) ← sched.updateRequestsWithInvalidBlocks cfg loading
    invalidBlockIds false
  let (syncScan, second) ← first.updateRequestsWithInvalidBlocks cfg first.running
    invalidBlockIds true
  if asyncScan.affectedReqIds.isEmpty ∧ syncScan.affectedReqIds.isEmpty then return ([], second)
  else
    let evicted ← second.evictInvalid cfg syncScan.blocksToEvict
    if !cfg.recomputeKvLoadFailures then
      return (asyncScan.affectedReqIds ++ syncScan.affectedReqIds, evicted)
    else
      return (syncScan.affectedReqIds, { evicted with
        failedRecvingKvReqIds := evicted.failedRecvingKvReqIds ++ asyncScan.affectedReqIds })

/-- Identify the requests that a failed load affects. -/
def handleLoadFailures : Py (List String × Scheduler H K) :=
  match output with
  | none => .ok ([], sched)
  | some output =>
    if output.invalidBlockIds.isEmpty then .ok ([], sched)
    else sched.handleInvalidBlocks cfg output.invalidBlockIds

def finishRecving (reqId : String) : Py (Scheduler H K) :=
  match sched.requests.get? reqId with
  | none => .error (.assertionError "req_id in self.requests")
  | some ref =>
    if (sched.objects ref).status = .waitingForRemoteKvs then
      .ok { sched with
        finishedRecvingKvReqIds := sched.finishedRecvingKvReqIds ++ [reqId] }
    else do
      Py.assert (sched.objects ref).isFinished "RequestStatus.is_finished(req.status)"
      sched.freeBlocks ref

def finishSending (reqId : String) : Py (Scheduler H K) :=
  match sched.requests.get? reqId with
  | none => .error (.assertionError "req_id in self.requests")
  | some ref => sched.freeBlocks ref

def tellConnectorOutput (output : KVConnectorOutput) : Py (Scheduler H K) :=
  match cfg.connector with
  | none => .ok sched
  | some connector => do
    let state ← connector.updateConnectorOutput sched.connectorState output
    return { sched with connectorState := state }

def updateFromKvXferFinished : Py (Scheduler H K) :=
  match output with
  | none => .ok sched
  | some output => do
    let told ← sched.tellConnectorOutput cfg output
    let received ← output.finishedRecving.foldlM finishRecving told
    output.finishedSending.foldlM finishSending received

end

structure UpdateState (H K : Type) where
  scheduler : Scheduler H K
  stoppedRunningReqs : List Ref := []
  stoppedPreemptedReqs : List Ref := []
  outputs : List EngineCoreOutput := []

def rejectDrafts (numDraftTokens numGenerated : Nat) : Request H :=
  let numRejected : Int := numDraftTokens - (numGenerated - 1)
  { req with
    numComputedTokens := if req.numComputedTokens > 0
      then req.numComputedTokens - numRejected else req.numComputedTokens
    numOutputPlaceholders := if req.numOutputPlaceholders > 0
      then req.numOutputPlaceholders - numRejected else req.numOutputPlaceholders }

section
variable (sched : Scheduler H K) (ref : Ref) (drafts generated : List TokenId)

def settleDrafts : Scheduler H K :=
  if drafts.isEmpty || generated.isEmpty then sched
  else sched.modify ref (rejectDrafts · drafts.length generated.length)

def applyOutput (hasPoolerOutput : Bool) : Py ((List TokenId × Bool) × Scheduler H K) :=
  if !generated.isEmpty then sched.updateRequestWithOutput cfg ref generated
  else if (sched.objects ref).poolingParams.isSome && hasPoolerOutput then
    .ok (([], true), sched.setStatus ref .finishedStopped)
  else .ok (([], false), sched)

def settleStopped : Py (Scheduler H K) := do
  let (finished, handled) ← sched.handleStoppedRequest cfg ref
  if finished then handled.freeRequest cfg ref false else return handled

end

/-- `sampled_token_ids[req_index] if sampled_token_ids else []`. -/
def atIndex {α : Type} (items : List α) (default : α) (index : Nat) : Py α :=
  if items.isEmpty then .ok default
  else
    match items[index]? with
    | none => .error (.indexError "list index out of range")
    | some item => .ok item

section
variable (output : SchedulerOutput M) (runnerOutput : ModelRunnerOutput)
  (failedKvLoadReqIds : List String) (state : UpdateState H K)

/-- The output of a live request, round by round of the loop. -/
def updateLive (reqId : String) (ref : Ref) : Py (UpdateState H K) := do
  let reqIndex ← runnerOutput.reqIdToIndex.lookup reqId
  let generated ← atIndex runnerOutput.sampledTokenIds [] reqIndex
  let hasPoolerOutput ← atIndex runnerOutput.poolerOutput false reqIndex
  let drafts := (output.scheduledSpecDecodeTokens.get? reqId).getD []
  let adjusted := state.scheduler.settleDrafts ref drafts generated
  let statusBeforeStop := (adjusted.objects ref).status
  let ((newTokenIds, stopped), applied) ← adjusted.applyOutput cfg ref generated hasPoolerOutput
  let req := applied.objects ref
  let emitted (finishReason : Option FinishReason) : EngineCoreOutput :=
    { requestId := reqId
      clientIndex := req.clientIndex
      newTokenIds := newTokenIds
      finishReason := finishReason
      hasPoolingOutput := hasPoolerOutput }
  if stopped then
    let settled ← applied.settleStopped cfg ref
    let wasRunning := statusBeforeStop = .running
    return {
      scheduler := settled
      stoppedRunningReqs := if wasRunning then state.stoppedRunningReqs ++ [ref]
        else state.stoppedRunningReqs
      stoppedPreemptedReqs := if wasRunning then state.stoppedPreemptedReqs
        else state.stoppedPreemptedReqs ++ [ref]
      outputs := state.outputs ++ [emitted req.status.getFinishedReason] }
  else if newTokenIds.isEmpty && !hasPoolerOutput then
    return { state with scheduler := applied }
  else return { state with scheduler := applied, outputs := state.outputs ++ [emitted none] }

def updateEntry (entry : String × Int) : Py (UpdateState H K) := do
  Py.assert (entry.2 > 0) "num_tokens_scheduled > 0"
  if entry.1 ∈ failedKvLoadReqIds then return state
  else
    match state.scheduler.requests.get? entry.1 with
    | none => return state
    | some ref =>
      if (state.scheduler.objects ref).isFinished then return state
      else updateLive cfg output runnerOutput state entry.1 ref

def removeStopped : Scheduler H K :=
  let sched := state.scheduler
  { sched with
    running := removeAll sched.running state.stoppedRunningReqs
    waiting := if state.stoppedPreemptedReqs.isEmpty then sched.waiting
      else RequestQueue.removeRequests policy sched.lt sched.waiting
        state.stoppedPreemptedReqs }

end

section
variable (sched : Scheduler H K) (drafts : List (String × List TokenId))
  (output : SchedulerOutput M)

def failLoads (failedKvLoadReqIds : List String) : Py (List EngineCoreOutput × Scheduler H K) :=
  if !failedKvLoadReqIds.isEmpty ∧ !cfg.recomputeKvLoadFailures then do
    let refs ← failedKvLoadReqIds.mapM sched.requests.lookup
    let (_, failed) ← sched.finishRequests cfg (some failedKvLoadReqIds) .finishedError
    return (refs.map (fun ref =>
      { requestId := (failed.objects ref).requestId
        clientIndex := (failed.objects ref).clientIndex
        newTokenIds := []
        finishReason := (failed.objects ref).status.getFinishedReason
        hasPoolingOutput := false }), failed)
  else .ok ([], sched)

def updateFromOutput (runnerOutput : ModelRunnerOutput)
    : Py (List EngineCoreOutput × Scheduler H K) := do
  let (failedKvLoadReqIds, scanned) ← sched.handleLoadFailures cfg
    runnerOutput.kvConnectorOutput
  let updated ← output.numScheduledTokens.entries.foldlM
    (updateEntry cfg output runnerOutput failedKvLoadReqIds) { scheduler := scanned }
  let (errors, failed) ← (removeStopped cfg.policy updated).failLoads cfg failedKvLoadReqIds
  let transferred ← failed.updateFromKvXferFinished cfg runnerOutput.kvConnectorOutput
  return (updated.outputs ++ errors, transferred)

/-- One round of `update_draft_token_ids`. -/
def updateDrafts (drafts : String × List TokenId) : Scheduler H K :=
  match sched.requests.get? drafts.1 with
  | none => sched
  | some ref =>
    let req := sched.objects ref
    if req.isFinished then sched
    else if req.isPrefillChunk then
      sched.modify ref (fun req => { req with specTokenIds := [] })
    else sched.modify ref
      (fun req => { req with specTokenIds := cfg.validateTokens req drafts.2 })

def updateDraftTokenIds : Scheduler H K :=
  drafts.foldl (updateDrafts cfg) sched

/-- One round of `update_draft_token_ids_in_output`: the drafts take the places of the
scheduled ones, and those that the grammar rejects are padding. -/
def updateDraftsInOutput (scheduled : Dict String (List TokenId))
    (drafts : String × List TokenId) : Dict String (List TokenId) :=
  match sched.requests.get? drafts.1, scheduled.get? drafts.1 with
  | some ref, some (first :: rest) =>
    let req := sched.objects ref
    if req.isFinished then scheduled
    else
      let origNumSpecTokens := (first :: rest).length
      let valid := cfg.validateTokens req (drafts.2.take origNumSpecTokens)
      scheduled.set drafts.1 (valid ++ List.replicate (origNumSpecTokens - valid.length) (-1))
  | _, _ => scheduled

def updateDraftTokenIdsInOutput : SchedulerOutput M :=
  { output with scheduledSpecDecodeTokens :=
      drafts.foldl (updateDraftsInOutput cfg sched) output.scheduledSpecDecodeTokens }

end

/-- Preempt the running requests, the last one first; what is in flight is discarded. -/
def preemptAll (policy : SchedulingPolicy) : Nat → Scheduler H K → Py (Scheduler H K)
  | 0, sched => .ok sched
  | rounds + 1, sched =>
    match sched.running.getLast? with
    | none => .ok sched
    | some ref => do
      let preempted ← { sched with running := sched.running.dropLast }.preemptRequest
        policy ref
      preemptAll policy rounds (preempted.modify ref (fun req =>
        { req with numOutputPlaceholders := 0, discardLatestAsyncTokens := true }))

variable (sched : Scheduler H K)

def preemptForReset (resetRunningRequests : Bool) : Py (Scheduler H K) :=
  if resetRunningRequests then do
    let preempted ← preemptAll cfg.policy sched.running.length sched
    return { preempted with prevStepScheduledReqIds := [] }
  else .ok sched

def resetConnectorCache : Bool × Scheduler H K :=
  match cfg.connector with
  | none => (false, sched)
  | some connector =>
    let (success, state) := connector.resetCache sched.connectorState
    (success, { sched with connectorState := state })

def resetPrefixCache (sched : Scheduler H K) (resetRunningRequests resetConnector : Bool) :
    Py (Bool × Scheduler H K) := do
  let preempted ← sched.preemptForReset cfg resetRunningRequests
  let (resetSuccessful, mgr) := preempted.kvCacheManager.resetPrefixCache
  let reset := preempted.withKv mgr
  if resetRunningRequests && !resetSuccessful then
    .error (.runtimeError ("Failed to reset KV cache even when all the running requests are " ++
      "preempted and moved to the waiting queue. This is likely due to " ++
      "the presence of running requests waiting for remote KV transfer, " ++
      "which is not supported yet."))
  else if resetConnector then
    let (success, told) := reset.resetConnectorCache cfg
    return (success && resetSuccessful, told)
  else return (resetSuccessful, reset)

def resetEncoderCache : Scheduler H K :=
  sched.withEncoder sched.encoderCacheManager.reset

def setPauseState (pauseState : PauseState) : Scheduler H K :=
  { sched with pauseState := pauseState }

end Scheduler
end Vllm
