import Vllm.Sched.State

/-! `Scheduler.schedule`: the running loop with its preemptions, the waiting loop, and the
output that a step sends to the workers. The local variables of the method are a `Pass`. -/
namespace Vllm
variable {H K M : Type} [DecidableEq H]

def RequestStatus.name : RequestStatus → String
  | waiting => "WAITING"
  | waitingForFsm => "WAITING_FOR_FSM"
  | waitingForRemoteKvs => "WAITING_FOR_REMOTE_KVS"
  | waitingForStreamingReq => "WAITING_FOR_STREAMING_REQ"
  | running => "RUNNING"
  | preempted => "PREEMPTED"
  | finishedStopped => "FINISHED_STOPPED"
  | finishedLengthCapped => "FINISHED_LENGTH_CAPPED"
  | finishedAborted => "FINISHED_ABORTED"
  | finishedIgnored => "FINISHED_IGNORED"
  | finishedError => "FINISHED_ERROR"
  | finishedRepetition => "FINISHED_REPETITION"

/-- What `_try_schedule_encoder_inputs` works out, with its trackers. -/
structure EncoderPlan where
  encoderInputsToSchedule : List Nat := []
  numNewTokens : Int
  encoderComputeBudget : Int
  externalLoadEncoderInput : List Nat := []
  mmHashesToSchedule : List String := []
  numEmbedsToSchedule : Int := 0

namespace EncoderPlan

def add (plan : EncoderPlan) (ecConnector : Option (List String)) (feat : MultiModalFeatureSpec)
    (i : Nat) : EncoderPlan :=
  let numEncoderEmbeds := feat.mmPosition.getNumEmbeds
  let tracked := { plan with
    numEmbedsToSchedule := plan.numEmbedsToSchedule + numEncoderEmbeds
    mmHashesToSchedule := plan.mmHashesToSchedule ++ [feat.identifier] }
  if feat.identifier ∈ ecConnector.getD [] then
    { tracked with externalLoadEncoderInput := plan.externalLoadEncoderInput ++ [i] }
  else
    { tracked with
      encoderComputeBudget := plan.encoderComputeBudget - numEncoderEmbeds
      encoderInputsToSchedule := plan.encoderInputsToSchedule ++ [i] }

/-- `allocate` for every input of the plan. -/
def allocateAll (plan : EncoderPlan) (req : Request H) (cache : EncoderCache) :
    Py EncoderCache :=
  (plan.encoderInputsToSchedule ++ plan.externalLoadEncoderInput).foldlM
    (EncoderCache.allocate req) cache

end EncoderPlan

namespace SchedulerConfig
variable (cfg : SchedulerConfig H K M)

section
variable (req : Request H) (numNewTokens : Int)
  (numNewLocalComputedTokens numExternalComputedTokens : Nat)

def mambaBlockAlignedSplit : Py Int := do
  Py.assert (numExternalComputedTokens = 0) "External KV connector is not verified yet"
  let numComputedTokens :=
    req.numComputedTokens + numNewLocalComputedTokens + numExternalComputedTokens
  if numComputedTokens < max (req.numPromptTokens : Int) (req.numTokens - 1) then
    let blockSize := cfg.cacheBlockSize
    let fullBlocks := req.numTokens - req.numTokens % blockSize
    let lastCachePosition := if cfg.useEagle then fullBlocks - blockSize else fullBlocks
    let numComputedTokensAfterSched := numComputedTokens + numNewTokens
    if numComputedTokensAfterSched < lastCachePosition then
      return numNewTokens / blockSize * blockSize
    else if numComputedTokens < lastCachePosition ∧
        lastCachePosition < numComputedTokensAfterSched then
      return lastCachePosition - numComputedTokens
    else return numNewTokens
  else return numNewTokens

def alignNewTokens : Py Int :=
  if cfg.needMambaBlockAlignedSplit then
    cfg.mambaBlockAlignedSplit req numNewTokens numNewLocalComputedTokens
      numExternalComputedTokens
  else .ok numNewTokens

def shiftComputedTokens : Int := if cfg.useEagle then 1 else 0

/-- The cache is not used for encoder-decoder models. -/
def checkEncoderCache (i : Nat) (cache : EncoderCache) : Py (Bool × EncoderCache) :=
  if cfg.isEncoderDecoder then .ok (false, cache) else cache.checkAndUpdateCache req i

end

def encoderInputsLoop (req : Request H) (ecConnector : Option (List String))
    (numComputedTokens : Int) :
    List (MultiModalFeatureSpec × Nat) → EncoderPlan → EncoderCache → Py (EncoderPlan × EncoderCache)
  | [], plan, cache => .ok (plan, cache)
  | (feat, i) :: rest, plan, cache =>
    let startPos : Int := feat.mmPosition.offset
    let numEncoderTokens : Int := feat.mmPosition.length
    let numNewTokens := plan.numNewTokens
    let shift := cfg.shiftComputedTokens
    if startPos ≥ numComputedTokens + numNewTokens + shift then .ok (plan, cache)
    else if cfg.isEncoderDecoder && numComputedTokens > 0 then
      if startPos = 0 then encoderInputsLoop req ecConnector numComputedTokens rest plan cache
      else .error (.assertionError ("Encoder input should be processed at the beginning of " ++
        "the sequence when encoder-decoder models are used."))
    else if startPos + numEncoderTokens ≤ numComputedTokens then
      encoderInputsLoop req ecConnector numComputedTokens rest plan cache
    else if !cfg.isEncoderDecoder && feat.identifier ∈ plan.mmHashesToSchedule then
      encoderInputsLoop req ecConnector numComputedTokens rest plan cache
    else do
      let (hit, checked) ← cfg.checkEncoderCache req i cache
      if hit then encoderInputsLoop req ecConnector numComputedTokens rest plan checked
      else if cfg.disableChunkedMmInput ∧ numComputedTokens < startPos ∧
          numComputedTokens + numNewTokens < startPos + numEncoderTokens then
        return ({ plan with numNewTokens := max 0 (startPos - (numComputedTokens + shift)) }, checked)
      else do
        let (fits, evicted) ← checked.canAllocate req i plan.encoderComputeBudget
          plan.numEmbedsToSchedule
        if !fits then
          let before := if numComputedTokens + shift < startPos
            then startPos - (numComputedTokens + shift) else 0
          return ({ plan with numNewTokens := before }, evicted)
        else do
          let (currEmbedsStart, currEmbedsEnd) ← feat.mmPosition.getEmbedsIndicesInRange
            (max 0 (numComputedTokens - startPos))
            (min numEncoderTokens (numComputedTokens + numNewTokens - startPos))
          if currEmbedsEnd - currEmbedsStart = 0 then
            encoderInputsLoop req ecConnector numComputedTokens rest plan evicted
          else
            encoderInputsLoop req ecConnector numComputedTokens rest
              (plan.add ecConnector feat i) evicted

def tryScheduleEncoderInputs (sched : Scheduler H K) (req : Request H)
    (numComputedTokens numNewTokens encoderComputeBudget : Int) : Py (EncoderPlan × EncoderCache) :=
  let plan : EncoderPlan :=
    { numNewTokens := numNewTokens, encoderComputeBudget := encoderComputeBudget }
  if numNewTokens = 0 ∨ !req.hasEncoderInputs then .ok (plan, sched.encoderCacheManager)
  else
    cfg.encoderInputsLoop req sched.ecConnector numComputedTokens
      req.mmFeatures.zipIdx plan sched.encoderCacheManager

def capLongPrefill (numNewTokens : Int) : Int :=
  if 0 < cfg.longPrefillTokenThreshold ∧ cfg.longPrefillTokenThreshold < numNewTokens
  then cfg.longPrefillTokenThreshold else numNewTokens

end SchedulerConfig

variable (cfg : SchedulerConfig H K M) (policy : SchedulingPolicy)

namespace Scheduler

variable (sched : Scheduler H K)

def withEncoder (cache : EncoderCache) : Scheduler H K :=
  { sched with encoderCacheManager := cache }

def withKv (mgr : KVCacheManager H) : Scheduler H K :=
  { sched with kvCacheManager := mgr }

def preemptRequest (ref : Ref) : Py (Scheduler H K) := do
  let req := sched.objects ref
  Py.assert (req.status = .running) "Only running requests can be preempted"
  let mgr ← sched.kvCacheManager.free req.requestId
  let cache ← sched.encoderCacheManager.free req
  let preempted := ((sched.withKv mgr).withEncoder cache).modify ref (fun req =>
    { req with
      status := .preempted
      numComputedTokens := 0
      specTokenIds := []
      numPreemptions := req.numPreemptions + 1 })
  return { preempted with
    waiting := RequestQueue.prependRequest policy preempted.lt preempted.waiting ref }

/-- The first request with the largest key `(priority, arrival_time)`. -/
def lowestPriority (objects : Ref → Request H) : List Ref → Option Ref
  | [] => none
  | first :: rest => some (rest.foldl (fun lowest ref =>
      let key := objects ref
      let most := objects lowest
      if most.priority < key.priority ∨
        (most.priority = key.priority ∧ most.arrivalTime < key.arrivalTime) then ref else lowest) first)

inductive QueueName where
  | waiting
  | skippedWaiting
  deriving DecidableEq, Repr

def queue : QueueName → RequestQueue
  | .waiting => sched.waiting
  | .skippedWaiting => sched.skippedWaiting

def setQueue (name : QueueName) (queue : RequestQueue) : Scheduler H K :=
  match name with
  | .waiting => { sched with waiting := queue }
  | .skippedWaiting => { sched with skippedWaiting := queue }

def selectWaitingQueueForScheduling : Option QueueName :=
  match policy with
  | .fcfs =>
    match sched.skippedWaiting, sched.waiting with
    | _ :: _, _ => some .skippedWaiting
    | [], _ :: _ => some .waiting
    | [], [] => none
  | .priority =>
    match sched.waiting, sched.skippedWaiting with
    | waitingReq :: _, skippedReq :: _ =>
      some (if sched.lt waitingReq skippedReq then .waiting else .skippedWaiting)
    | _ :: _, [] => some .waiting
    | [], _ :: _ => some .skippedWaiting
    | [], [] => none

def isBlockedWaitingStatus : RequestStatus → Bool
  | .waitingForFsm | .waitingForRemoteKvs | .waitingForStreamingReq => true
  | _ => false

variable (ref : Ref)

/-- The blocks of a failed load that are worth keeping are cached, or all are freed. -/
def cacheReceived : Py (KVCacheManager H) :=
  let req := sched.objects ref
  if req.requestId ∈ sched.failedRecvingKvReqIds ∧ req.numComputedTokens = 0 then
    sched.kvCacheManager.free req.requestId
  else sched.kvCacheManager.cacheBlocks req req.numComputedTokens

def countReceived (req : Request H) : Request H :=
  let numComputedTokens :=
    if req.numComputedTokens = req.numTokens then (req.numTokens : Int) - 1
    else req.numComputedTokens
  { req with
    numComputedTokens := numComputedTokens
    numCachedTokens :=
      if req.numCachedTokens < 0 then numComputedTokens else req.numCachedTokens }

def updateWaitingForRemoteKv : Py (Scheduler H K) := do
  Py.assert cfg.connector.isSome "self.connector is not None"
  let reqId := sched.requestId ref
  let mgr ← sched.cacheReceived ref
  let cached := sched.withKv mgr
  let counted := if reqId ∈ sched.failedRecvingKvReqIds then cached
    else cached.modify ref countReceived
  return { counted with
    failedRecvingKvReqIds := sched.failedRecvingKvReqIds.filter (· ≠ reqId)
    finishedRecvingKvReqIds := sched.finishedRecvingKvReqIds.filter (· ≠ reqId) }

def setStatus (status : RequestStatus) : Scheduler H K :=
  sched.modify ref (fun req => { req with status := status })

def tryPromoteBlockedWaitingRequest : Py (Bool × Scheduler H K) :=
  let req := sched.objects ref
  match req.status with
  | .waitingForRemoteKvs =>
    if req.requestId ∉ sched.finishedRecvingKvReqIds then .ok (false, sched)
    else do
      let received ← sched.updateWaitingForRemoteKv cfg ref
      return (true, received.setStatus ref
        (if req.numPreemptions ≠ 0 then .preempted else .waiting))
  | .waitingForFsm =>
    if req.useStructuredOutput ∧ ref ∈ sched.compiledGrammars then
      .ok (true, sched.setStatus ref .waiting)
    else .ok (false, sched)
  | .waitingForStreamingReq => do
    Py.assert (req.streamingQueue.getD []).isEmpty "not request.streaming_queue"
    return (false, sched)
  | status => .error (.assertionError ("Unexpected blocked waiting status in promotion: " ++
      s!"{status.name} for request {req.requestId}"))

/-- A request that is not blocked counts as promoted. -/
def promoteIfBlocked : Py (Bool × Scheduler H K) :=
  if isBlockedWaitingStatus (sched.objects ref).status then
    sched.tryPromoteBlockedWaitingRequest cfg ref
  else .ok (true, sched)

end Scheduler

/-- The local variables of `schedule`. -/
structure Pass (H K : Type) where
  scheduler : Scheduler H K
  scheduledNewReqs : List Ref := []
  scheduledResumedReqs : List Ref := []
  scheduledRunningReqs : List Ref := []
  preemptedReqs : List Ref := []
  reqToNewBlocks : Dict String KVCacheBlocks := .empty
  numScheduledTokens : Dict String Int := .empty
  tokenBudget : Int
  scheduledEncoderInputs : Dict String (List Nat) := .empty
  encoderComputeBudget : Int
  scheduledSpecDecodeTokens : Dict String (List TokenId) := .empty
  reqIndex : Nat := 0
  scheduledLoras : List Nat := []
  stepSkippedWaiting : RequestQueue := []

variable (pass : Pass H K) (ref : Ref)

namespace Pass

def withScheduler (sched : Scheduler H K) : Pass H K := { pass with scheduler := sched }

def start (sched : Scheduler H K) : Pass H K where
  scheduler := sched.withKv sched.kvCacheManager.newStepStarts
  tokenBudget := if sched.pauseState = .pausedAll then 0 else cfg.maxNumScheduledTokens
  encoderComputeBudget := cfg.maxNumEncoderInputTokens

def restoredEmbeds (req : Request H) (inputs : List Nat) : Py Int :=
  inputs.foldlM (fun (total : Int) i => do
    let numEmbeds ← req.getNumEncoderEmbeds i
    return total + numEmbeds) 0

def unschedule (victim : Ref) : Py (Pass H K) :=
  if victim ∈ pass.scheduledRunningReqs then do
    let req := pass.scheduler.objects victim
    let (numTokens, numScheduledTokens) ← pass.numScheduledTokens.popKey req.requestId
    let (_, reqToNewBlocks) ← pass.reqToNewBlocks.popKey req.requestId
    let inputs := (pass.scheduledEncoderInputs.get? req.requestId).getD []
    let numEmbedsToRestore ← restoredEmbeds req inputs
    return { pass with
      scheduledRunningReqs := pass.scheduledRunningReqs.erase victim
      tokenBudget := pass.tokenBudget + numTokens
      numScheduledTokens := numScheduledTokens
      reqToNewBlocks := reqToNewBlocks
      scheduledSpecDecodeTokens := pass.scheduledSpecDecodeTokens.erase req.requestId
      scheduledEncoderInputs := pass.scheduledEncoderInputs.erase req.requestId
      encoderComputeBudget := pass.encoderComputeBudget + numEmbedsToRestore
      reqIndex := pass.reqIndex - 1 }
  else .ok pass

def withRunning (running : List Ref) : Pass H K :=
  pass.withScheduler { pass.scheduler with running := running }

def popVictim (pass : Pass H K) : Py (Ref × Pass H K) :=
  match policy with
  | .priority =>
    match Scheduler.lowestPriority pass.scheduler.objects pass.scheduler.running with
    | none => .error (.valueError "max() iterable argument is empty")
    | some victim => do
      let left ← (pass.withRunning (pass.scheduler.running.erase victim)).unschedule victim
      return (victim, left)
  | .fcfs =>
    match pass.scheduler.running.getLast? with
    | none => .error (.indexError "pop from empty list")
    | some victim => .ok (victim, pass.withRunning pass.scheduler.running.dropLast)

def preemptVictim (pass : Pass H K) : Py (Ref × Pass H K) := do
  let (victim, left) ← pass.popVictim policy
  let sched ← left.scheduler.preemptRequest policy victim
  return (victim, { left.withScheduler sched with
    preemptedReqs := left.preemptedReqs ++ [victim] })

/-- Ask for slots and preempt until they are there, or the request itself is preempted.
Each round takes a request out of the running queue. -/
def allocateOrPreempt (cfg : SchedulerConfig H K M) (ref : Ref) (numNewTokens : Int) :
    Nat → Pass H K → Py (Option KVCacheBlocks × Pass H K)
  | 0, _ => .error (.indexError "pop from empty list")
  | rounds + 1, pass => do
    let (newBlocks, mgr) ← pass.scheduler.kvCacheManager.allocateSlots
      (pass.scheduler.objects ref)
      { numNewTokens := numNewTokens, numLookaheadTokens := cfg.numLookaheadTokens }
    let asked := pass.withScheduler (pass.scheduler.withKv mgr)
    match newBlocks with
    | some blocks => return (some blocks, asked)
    | none =>
      let (victim, preempted) ← asked.preemptVictim cfg.policy
      if victim = ref then return (none, preempted)
      else allocateOrPreempt cfg ref numNewTokens rounds preempted

section
variable (req : Request H)

def outputsReachMaxTokens : Bool :=
  req.numOutputPlaceholders > 0 ∧
    req.numComputedTokens + 2 - req.numOutputPlaceholders ≥
      req.numPromptTokens + req.maxTokens

def numNewTokensRunning (tokenBudget : Int) : Int :=
  let behind :=
    req.numTokensWithSpec + req.numOutputPlaceholders - req.numComputedTokens
  min (min (cfg.capLongPrefill behind) tokenBudget)
    (cfg.maxModelLen - 1 - req.numComputedTokens)

def planRunning : Py (EncoderPlan × EncoderCache) := do
  let (plan, cache) ← cfg.tryScheduleEncoderInputs pass.scheduler req
    req.numComputedTokens (numNewTokensRunning cfg req pass.tokenBudget)
    pass.encoderComputeBudget
  let numNewTokens ← cfg.alignNewTokens req plan.numNewTokens 0 0
  return ({ plan with numNewTokens := numNewTokens }, cache)

def specTokens (numNewTokens : Int) : List TokenId :=
  let numScheduledSpecTokens := numNewTokens + req.numComputedTokens - req.numTokens -
    req.numOutputPlaceholders
  if numScheduledSpecTokens > 0 then req.specTokenIds.take numScheduledSpecTokens.toNat else []

end

def withInputs (requestId : String) (plan : EncoderPlan) : Pass H K :=
  if plan.encoderInputsToSchedule.isEmpty then pass
  else { pass with
    scheduledEncoderInputs := pass.scheduledEncoderInputs.set requestId plan.encoderInputsToSchedule
    encoderComputeBudget := plan.encoderComputeBudget }

def scheduleRunning (plan : EncoderPlan) (newBlocks : KVCacheBlocks) : Py (Pass H K) := do
  let req := pass.scheduler.objects ref
  let cache ← plan.allocateAll req pass.scheduler.encoderCacheManager
  let specTokenIds := specTokens req plan.numNewTokens
  let sched := (pass.scheduler.withEncoder cache).modify ref
    (fun req => { req with specTokenIds := [] })
  return { (pass.withScheduler sched).withInputs req.requestId plan with
    scheduledRunningReqs := pass.scheduledRunningReqs ++ [ref]
    reqToNewBlocks := pass.reqToNewBlocks.set req.requestId newBlocks
    numScheduledTokens := pass.numScheduledTokens.set req.requestId plan.numNewTokens
    tokenBudget := pass.tokenBudget - plan.numNewTokens
    reqIndex := pass.reqIndex + 1
    scheduledSpecDecodeTokens := if specTokenIds.isEmpty then pass.scheduledSpecDecodeTokens
      else pass.scheduledSpecDecodeTokens.set req.requestId specTokenIds }

def passOver : Pass H K := { pass with reqIndex := pass.reqIndex + 1 }

/-- One round of the running loop, and whether the loop goes on. -/
def runningRound : Py (Pass H K × Bool) :=
  let req := pass.scheduler.objects ref
  if outputsReachMaxTokens req then .ok (pass.passOver, true)
  else do
    let (plan, cache) ← pass.planRunning cfg req
    let planned := pass.withScheduler (pass.scheduler.withEncoder cache)
    if plan.numNewTokens = 0 then return (planned.passOver, true)
    else
      let (newBlocks, asked) ← allocateOrPreempt cfg ref plan.numNewTokens
        planned.scheduler.running.length planned
      match newBlocks with
      | none => return (asked, false)
      | some blocks =>
        let scheduled ← asked.scheduleRunning ref plan blocks
        return (scheduled, true)

/-- The running loop. A round moves on by one request or shortens the queue. -/
def runningLoop (cfg : SchedulerConfig H K M) : Nat → Pass H K → Py (Pass H K)
  | 0, pass => .ok pass
  | rounds + 1, pass =>
    match pass.scheduler.running[pass.reqIndex]? with
    | none => .ok pass
    | some ref =>
      if pass.tokenBudget ≤ 0 then .ok pass
      else do
        let (next, goesOn) ← pass.runningRound cfg ref
        if goesOn then runningLoop cfg rounds next else return next

def loraIntId (sched : Scheduler H K) (ref : Ref) : Option Nat :=
  (sched.objects ref).loraRequest.map (·.loraIntId)

def runningLoras : List Nat :=
  ((pass.scheduledRunningReqs.filterMap (loraIntId pass.scheduler)).filter (· > 0)).dedup

def recordLoras : Py (Pass H K) :=
  match cfg.loraConfig with
  | none => .ok pass
  | some maxLoras => do
    Py.assert (pass.runningLoras.length ≤ maxLoras)
      "len(scheduled_loras) <= self.lora_config.max_loras"
    return { pass with scheduledLoras := pass.runningLoras }

def exceedsMaxLoras : Bool :=
  match cfg.loraConfig, loraIntId pass.scheduler ref with
  | some maxLoras, some lora =>
    pass.scheduledLoras.length = maxLoras ∧ lora ∉ pass.scheduledLoras
  | _, _ => false

section
variable (sched : Scheduler H K) (name : Scheduler.QueueName) (ref : Ref)

def skipRequest : Py (Pass H K) := do
  let (_, rest) ← RequestQueue.popRequest cfg.policy pass.scheduler.lt
    (pass.scheduler.queue name)
  return { pass.withScheduler (pass.scheduler.setQueue name rest) with
    stepSkippedWaiting := RequestQueue.prependRequest cfg.policy pass.scheduler.lt
      pass.stepSkippedWaiting ref }

structure Computed where
  newComputedBlocks : KVCacheBlocks
  numNewLocalComputedTokens : Nat := 0
  numExternalComputedTokens : Nat := 0
  loadKvAsync : Bool := false
  numComputedTokens : Int

/-- The tokens that the connector can load: `none` if it cannot tell yet. -/
def matchExternal (numNewLocalComputedTokens : Nat) : Py (Option (Nat × Bool) × Scheduler H K) :=
  match cfg.connector with
  | none => .ok (some (0, false), sched)
  | some connector => do
    let ((extTokens, loadKvAsync), state) ← connector.getNumNewMatchedTokens
      sched.connectorState (sched.objects ref) numNewLocalComputedTokens
    let matched := { sched with connectorState := state }
    match extTokens with
    | none => return (none, matched)
    | some extTokens =>
      return (some (extTokens, loadKvAsync), matched.modify ref
        (fun req => { req with numExternalComputedTokens := extTokens }))

def lookUpComputed : Py (Option Computed × Scheduler H K) :=
  let req := sched.objects ref
  if req.numComputedTokens = 0 then do
    let (newComputedBlocks, numLocal) ← sched.kvCacheManager.getComputedBlocks req
    let (external, matched) ← matchExternal cfg sched ref numLocal
    match external with
    | none => return (none, matched)
    | some (extTokens, loadKvAsync) =>
      Py.assert (numLocal + extTokens ≤ req.numTokens)
        "num_computed_tokens <= request.num_tokens"
      return (some {
        newComputedBlocks := newComputedBlocks
        numNewLocalComputedTokens := numLocal
        numExternalComputedTokens := extTokens
        loadKvAsync := loadKvAsync
        numComputedTokens := numLocal + extTokens }, matched)
  else .ok (some {
    newComputedBlocks := sched.kvCacheManager.emptyKvCacheBlocks
    numComputedTokens := req.numComputedTokens }, sched)

end

section
variable (req : Request H) (computed : Computed)

/-- The tokens of a waiting request that this step could compute, before the encoder
inputs are looked at: `none` if a prompt may not be cut. -/
def numNewTokensWaiting (numComputedTokens tokenBudget : Int) : Option Int :=
  let numNewTokens := cfg.capLongPrefill (req.numTokens - numComputedTokens)
  if !cfg.enableChunkedPrefill ∧ numNewTokens > tokenBudget then none
  else some (min numNewTokens tokenBudget)

/-- The plan without new tokens of a request that loads its KV. -/
def planNewTokens : Py (Option EncoderPlan × EncoderCache) :=
  let cache := pass.scheduler.encoderCacheManager
  if computed.loadKvAsync then do
    Py.assert (computed.numExternalComputedTokens > 0) "num_external_computed_tokens > 0"
    return (some { numNewTokens := 0, encoderComputeBudget := pass.encoderComputeBudget }, cache)
  else
    match numNewTokensWaiting cfg req computed.numComputedTokens pass.tokenBudget with
    | none => .ok (none, cache)
    | some numNewTokens => do
      Py.assert (numNewTokens > 0) "num_new_tokens > 0"
      let (plan, next) ← cfg.tryScheduleEncoderInputs pass.scheduler req
        computed.numComputedTokens numNewTokens pass.encoderComputeBudget
      if plan.numNewTokens = 0 then return (none, next) else return (some plan, next)

def planWaiting : Py (Option EncoderPlan × EncoderCache) := do
  let (plan, cache) ← planNewTokens cfg pass req computed
  match plan with
  | none => return (none, cache)
  | some plan =>
    let numNewTokens ← cfg.alignNewTokens req plan.numNewTokens
      computed.numNewLocalComputedTokens computed.numExternalComputedTokens
    if cfg.needMambaBlockAlignedSplit ∧ numNewTokens = 0 then return (none, cache)
    else return (some { plan with numNewTokens := numNewTokens }, cache)

def numEncoderTokens (plan : EncoderPlan) : Py Int :=
  if cfg.isEncoderDecoder then restoredEmbeds req plan.encoderInputsToSchedule else .ok 0

def slotArgs (plan : EncoderPlan)
    (encoderTokens : Int) : SlotArgs where
  numNewTokens := plan.numNewTokens
  numNewComputedTokens := computed.numNewLocalComputedTokens
  newComputedBlocks := some computed.newComputedBlocks
  numLookaheadTokens := if req.numComputedTokens = 0 then 0 else cfg.numLookaheadTokens
  numExternalComputedTokens := computed.numExternalComputedTokens
  delayCacheBlocks := computed.loadKvAsync
  numEncoderTokens := encoderTokens

end

def tellConnector (sched : Scheduler H K) (ref : Ref) (computed : Computed) :
    Py (Scheduler H K) :=
  match cfg.connector with
  | none => .ok sched
  | some connector => do
    let req := sched.objects ref
    let state ← connector.updateStateAfterAlloc sched.connectorState req
      (sched.kvCacheManager.getBlocks req.requestId) computed.numExternalComputedTokens
    return { sched with connectorState := state }

def startLoading (computed : Computed) : Pass H K :=
  let sched := pass.scheduler.modify ref (fun req =>
    { req with
      status := .waitingForRemoteKvs
      numComputedTokens := computed.numComputedTokens })
  { pass.withScheduler sched with
    stepSkippedWaiting := RequestQueue.prependRequest cfg.policy pass.scheduler.lt
      pass.stepSkippedWaiting ref }

def recordAdmitted : Py (Pass H K) :=
  match (pass.scheduler.objects ref).status with
  | .waiting => .ok { pass with scheduledNewReqs := pass.scheduledNewReqs ++ [ref] }
  | .preempted => .ok { pass with scheduledResumedReqs := pass.scheduledResumedReqs ++ [ref] }
  | status => .error (.runtimeError s!"Invalid request status: {status.name}")

def recordLora : List Nat :=
  match cfg.loraConfig, loraIntId pass.scheduler ref with
  | some _, some lora =>
    if lora ∈ pass.scheduledLoras then pass.scheduledLoras else pass.scheduledLoras ++ [lora]
  | _, _ => pass.scheduledLoras

def scheduleWaiting (computed : Computed) (plan : EncoderPlan) : Py (Pass H K) := do
  let recorded ← pass.recordAdmitted ref
  let req := pass.scheduler.objects ref
  let cache ← plan.allocateAll req pass.scheduler.encoderCacheManager
  let sched := (pass.scheduler.withEncoder cache).modify ref (fun req =>
    { req with
      status := .running
      numComputedTokens := computed.numComputedTokens
      numCachedTokens :=
        if req.numCachedTokens < 0 then computed.numComputedTokens
        else req.numCachedTokens })
  return { (recorded.withScheduler { sched with
      running := pass.scheduler.running ++ [ref] }).withInputs req.requestId plan with
    scheduledLoras := recordLora cfg pass ref
    reqToNewBlocks := pass.reqToNewBlocks.set req.requestId
      (pass.scheduler.kvCacheManager.getBlocks req.requestId)
    numScheduledTokens := pass.numScheduledTokens.set req.requestId plan.numNewTokens
    tokenBudget := pass.tokenBudget - plan.numNewTokens }

def admitRequest (name : Scheduler.QueueName) (ref : Ref) (computed : Computed)
    (plan : EncoderPlan) : Py (Pass H K) := do
  let told ← tellConnector cfg pass.scheduler ref computed
  let (popped, rest) ← RequestQueue.popRequest cfg.policy told.lt (told.queue name)
  let taken := pass.withScheduler (told.setQueue name rest)
  if computed.loadKvAsync then return taken.startLoading cfg popped computed
  else taken.scheduleWaiting cfg popped computed plan

variable (sched : Scheduler H K)

/-- Release the references that the probe of the encoder cache took. -/
def untouchEncoder (ref : Ref) : Py (Scheduler H K) :=
  let req := sched.objects ref
  if req.hasEncoderInputs then do
    let cache ← sched.encoderCacheManager.free req
    return sched.withEncoder cache
  else .ok sched

def tryAdmit (name : Scheduler.QueueName) (ref : Ref) : Py (Pass H K × Bool) := do
  let (found, matched) ← lookUpComputed cfg pass.scheduler ref
  let lookedUp := pass.withScheduler matched
  match found with
  | none =>
    let skipped ← lookedUp.skipRequest cfg name ref
    return (skipped, true)
  | some computed =>
    let req := matched.objects ref
    let (planned, cache) ← planWaiting cfg lookedUp req computed
    let probed := lookedUp.withScheduler (matched.withEncoder cache)
    match planned with
    | none => return (probed, false)
    | some plan =>
      let encoderTokens ← numEncoderTokens cfg req plan
      let (newBlocks, mgr) ← matched.kvCacheManager.allocateSlots req
        (slotArgs cfg req computed plan encoderTokens)
      let asked := probed.withScheduler (probed.scheduler.withKv mgr)
      match newBlocks with
      | none =>
        let released ← untouchEncoder asked.scheduler ref
        return (asked.withScheduler released, false)
      | some _ =>
        let admitted ← asked.admitRequest cfg name ref computed plan
        return (admitted, true)

/-- One round of the waiting loop, and whether the loop goes on. -/
def waitingRound : Py (Pass H K × Bool) :=
  if pass.scheduler.running.length = cfg.maxNumRunningReqs then .ok (pass, false)
  else
    match pass.scheduler.selectWaitingQueueForScheduling cfg.policy with
    | none => .error (.assertionError "request_queue is not None")
    | some name => do
      let ref ← RequestQueue.peekRequest cfg.policy (pass.scheduler.queue name)
      let (ready, promoted) ← pass.scheduler.promoteIfBlocked cfg ref
      let tried := pass.withScheduler promoted
      if !ready || tried.exceedsMaxLoras cfg ref then
        let skipped ← tried.skipRequest cfg name ref
        return (skipped, true)
      else tried.tryAdmit cfg name ref

/-- The waiting loop. A round takes a request out of its queue or ends the loop. -/
def waitingLoop (cfg : SchedulerConfig H K M) : Nat → Pass H K → Py (Pass H K)
  | 0, pass => .ok pass
  | rounds + 1, pass =>
    if (pass.scheduler.waiting.isEmpty ∧ pass.scheduler.skippedWaiting.isEmpty) ∨
        pass.tokenBudget ≤ 0 then .ok pass
    else do
      let (next, goesOn) ← pass.waitingRound cfg
      if goesOn then waitingLoop cfg rounds next else return next

def requeueSkipped : Pass H K :=
  { pass.withScheduler { pass.scheduler with
      skippedWaiting := RequestQueue.prependRequests cfg.policy pass.scheduler.lt
        pass.scheduler.skippedWaiting pass.stepSkippedWaiting } with
    stepSkippedWaiting := [] }

def runningPass : Py (Pass H K) :=
  runningLoop cfg sched.running.length (start cfg sched)

def waitingPass : Py (Pass H K) :=
  if pass.preemptedReqs.isEmpty ∧ pass.scheduler.pauseState = .unpaused then do
    let waited ← waitingLoop cfg
      (pass.scheduler.waiting.length + pass.scheduler.skippedWaiting.length) pass
    return waited.requeueSkipped cfg
  else .ok pass

def totalNumScheduledTokens : Int := pass.numScheduledTokens.values.sum

def checkConstraints : Py Unit := do
  Py.assert (pass.totalNumScheduledTokens ≤ cfg.maxNumScheduledTokens)
    "total_num_scheduled_tokens <= self.max_num_scheduled_tokens"
  Py.assert (pass.tokenBudget ≥ 0) "token_budget >= 0"
  Py.assert (pass.scheduler.running.length ≤ cfg.maxNumRunningReqs)
    "len(self.running) <= self.max_num_running_reqs"
  Py.assert (pass.scheduledNewReqs.length + pass.scheduledResumedReqs.length +
      pass.scheduledRunningReqs.length ≤ pass.scheduler.running.length)
    ("len(scheduled_new_reqs) + len(scheduled_resumed_reqs) + len(scheduled_running_reqs) " ++
      "<= len(self.running)")

def schedulePass : Py (Pass H K) := do
  let ran ← runningPass cfg sched
  let recorded ← ran.recordLoras cfg
  let waited ← recorded.waitingPass cfg
  waited.checkConstraints cfg
  return waited

/-- `get_block_ids(allow_none=True)`. -/
def getBlockIds (blocks : KVCacheBlocks) : Option KVCacheBlocks :=
  if blocks.isEmptyBlocks then none else some blocks

def newRequestData : Py NewRequestData := do
  let req := pass.scheduler.objects ref
  let blockIds ← pass.reqToNewBlocks.lookup req.requestId
  return {
    reqId := req.requestId
    promptTokenIds := req.promptTokenIds
    mmFeatures := req.mmFeatures
    samplingParams := req.samplingParams
    poolingParams := req.poolingParams
    blockIds := blockIds
    numComputedTokens := req.numComputedTokens
    loraRequest := req.loraRequest
    promptEmbeds := req.promptEmbeds
    prefillTokenIds := if cfg.useV2ModelRunner then some req.allTokenIds else none }

/-- The sampled tokens go back to the first stage of a pipeline. -/
def newTokenIds (req : Request H) : Py (Option (List TokenId)) :=
  if cfg.usePp ∧ !cfg.asyncScheduling then do
    let numScheduled ← pass.numScheduledTokens.lookup req.requestId
    let numTokens := numScheduled -
      ((pass.scheduledSpecDecodeTokens.get? req.requestId).getD []).length
    return some ((req.allTokenIds.drop req.numComputedTokens.toNat).take numTokens.toNat)
  else .ok none

/-- One round of `_make_cached_request_data`. -/
def cachedRequest (resumed : Bool) (ref : Ref) : Py CachedRequest := do
  let req := pass.scheduler.objects ref
  let tokenIds ← newTokenIds cfg pass req
  let scheduledInPrevStep := req.requestId ∈ pass.scheduler.prevStepScheduledReqIds
  Py.assert (!(resumed && scheduledInPrevStep)) "not scheduled_in_prev_step"
  let newBlocks ← pass.reqToNewBlocks.lookup req.requestId
  return {
    reqId := req.requestId
    resumed := resumed
    newTokenIds := tokenIds
    allTokenIds := if scheduledInPrevStep then none else some req.allTokenIds
    newBlockIds := getBlockIds newBlocks
    numComputedTokens := req.numComputedTokens
    numOutputTokens := req.numOutputTokens + req.numOutputPlaceholders }

def makeCachedRequestData (resumedReqs : List Ref) : Py (List CachedRequest) := do
  let running ← pass.scheduledRunningReqs.mapM (cachedRequest cfg pass false)
  let resumed ← resumedReqs.mapM (cachedRequest cfg pass true)
  return running ++ resumed

def takeBlocksToZero (mgr : KVCacheManager H) : List BlockId × KVCacheManager H :=
  if cfg.needsKvCacheZeroing then mgr.takeNewBlockIds else ([], mgr)

/-- The output of the step. With the second model runner resumed requests are sent as new. -/
def makeOutput : Py (SchedulerOutput M × Scheduler H K) := do
  let newReqs := if cfg.useV2ModelRunner
    then pass.scheduledNewReqs ++ pass.scheduledResumedReqs else pass.scheduledNewReqs
  let resumedReqs := if cfg.useV2ModelRunner then [] else pass.scheduledResumedReqs
  let newReqsData ← newReqs.mapM (newRequestData cfg pass)
  let cachedReqsData ← makeCachedRequestData cfg pass resumedReqs
  let (newBlockIdsToZero, mgr) := takeBlocksToZero cfg pass.scheduler.kvCacheManager
  let (freed, cache) := pass.scheduler.encoderCacheManager.getFreedMmHashes
  return ({
    scheduledNewReqs := newReqsData
    scheduledCachedReqs := cachedReqsData
    numScheduledTokens := pass.numScheduledTokens
    totalNumScheduledTokens := pass.totalNumScheduledTokens
    scheduledSpecDecodeTokens := pass.scheduledSpecDecodeTokens
    scheduledEncoderInputs := pass.scheduledEncoderInputs
    preemptedReqIds := pass.preemptedReqs.map pass.scheduler.requestId
    finishedReqIds := pass.scheduler.finishedReqIds
    freeEncoderMmHashes := freed
    hasStructuredOutputRequests := false
    pendingStructuredOutputTokens := false
    newBlockIdsToZero := newBlockIdsToZero
    kvConnectorMetadata := none },
    { (pass.scheduler.withKv mgr).withEncoder cache with
      prevStepScheduledReqIds := pass.numScheduledTokens.keys })

end Pass

namespace Scheduler

def buildConnectorMeta (sched : Scheduler H K) (output : SchedulerOutput M) :
    Py (SchedulerOutput M × Scheduler H K) :=
  match cfg.connector with
  | none => .ok (output, sched)
  | some connector => do
    let (metadata, state) ← connector.buildConnectorMeta sched.connectorState output
    return ({ output with kvConnectorMetadata := some metadata },
      { sched with connectorState := state })

/-- The encoder input is stored in the decoder's KV cache. -/
def encoderInputDone (req : Request H) (inputId : Nat) : Bool :=
  match req.mmFeatures[inputId]? with
  | none => false
  | some feat =>
    (cfg.isEncoderDecoder && req.numComputedTokens > 0) ||
      (feat.mmPosition.offset + feat.mmPosition.length : Int) ≤ req.numComputedTokens

def freeEncoderInputs (cache : EncoderCache) (req : Request H) : Py EncoderCache :=
  ((cache.getCachedInputIds req).filter (encoderInputDone cfg req)).foldlM
    (EncoderCache.freeEncoderInput req) cache

def advance (req : Request H) (numScheduledToken : Int) : Request H :=
  let numComputedTokens := req.numComputedTokens + numScheduledToken
  { req with
    numComputedTokens := numComputedTokens
    isPrefillChunk := numComputedTokens < req.numTokens + req.numOutputPlaceholders }

variable (specDecodeTokens : Dict String (List TokenId)) (state : Bool × Scheduler H K)
  (sched : Scheduler H K)

/-- One round of `Scheduler._update_after_schedule`. -/
def advanceScheduled (entry : String × Int) : Py (Bool × Scheduler H K) := do
  let ref ← state.2.requests.lookup entry.1
  let advanced := state.2.modify ref (advance · entry.2)
  let req := advanced.objects ref
  let cache ← freeEncoderInputs cfg advanced.encoderCacheManager req
  return (state.1 || (req.useStructuredOutput && !req.isPrefillChunk),
    advanced.withEncoder cache)

def addPlaceholders (req : Request H) (numDrafts : Nat) : Request H :=
  { req with
    numOutputPlaceholders := req.numOutputPlaceholders + (1 + numDrafts)
    specTokenIds := List.replicate cfg.numSpecTokens (-1) }

/-- One round of `AsyncScheduler._update_after_schedule`. -/
def awaitOutput (reqId : String) : Py (Bool × Scheduler H K) := do
  let ref ← state.2.requests.lookup reqId
  let req := state.2.objects ref
  if req.isPrefillChunk then return state
  else
    return (state.1 || (req.useStructuredOutput && req.numOutputPlaceholders > 0),
      state.2.modify ref
        (addPlaceholders cfg · ((specDecodeTokens.get? reqId).getD []).length))

/-- The part of `_update_after_schedule` that only `AsyncScheduler` has. -/
def awaitOutputs (output : SchedulerOutput M) : Py (Bool × Scheduler H K) :=
  if cfg.asyncScheduling then
    output.numScheduledTokens.keys.foldlM
      (awaitOutput cfg output.scheduledSpecDecodeTokens) (false, sched)
  else .ok (false, sched)

def updateAfterSchedule (output : SchedulerOutput M) : Py (SchedulerOutput M × Scheduler H K) := do
  let (structured, advanced) ← output.numScheduledTokens.entries.foldlM
    (advanceScheduled cfg) (false, sched)
  let (pending, awaiting) ← awaitOutputs cfg { advanced with finishedReqIds := [] } output
  return ({ output with
    hasStructuredOutputRequests := structured
    pendingStructuredOutputTokens := pending }, awaiting)

def schedule : Py (SchedulerOutput M × Scheduler H K) := do
  let pass ← Pass.schedulePass cfg sched
  let (output, sent) ← pass.makeOutput cfg
  let (described, built) ← sent.buildConnectorMeta cfg output
  built.updateAfterSchedule cfg described

end Scheduler
end Vllm
