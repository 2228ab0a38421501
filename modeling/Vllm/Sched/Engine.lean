import Vllm.Sched.Steps

/-! The engine core around the scheduler: clients add and abort requests, steps are
scheduled, and the output of a step may come after later steps were scheduled. -/
namespace Vllm
variable {H K M : Type} [DecidableEq H]

structure Engine (H K M : Type) where
  scheduler : Scheduler H K
  inFlight : List (SchedulerOutput M) := []

inductive EngineOp where
  | addRequest (args : RequestArgs)
  /-- `none` finishes all requests. -/
  | finishRequests (requestIds : Option (List String)) (finishedStatus : RequestStatus)
  | schedule
  /-- The output of the in-flight step at a place. -/
  | updateFromOutput (step : Nat) (runnerOutput : ModelRunnerOutput)
  | updateDraftTokenIds (drafts : List (String × List TokenId))
  | updateDraftTokenIdsInOutput (step : Nat) (drafts : List (String × List TokenId))
  | resetPrefixCache (resetRunningRequests resetConnector : Bool)
  | resetEncoderCache
  | setPauseState (pauseState : PauseState)
  /-- The grammar of a request is compiled. -/
  | compileGrammar (ref : Ref)
  /-- The items of the remote encoder cache change. -/
  | changeRemoteItems (items : List String)

namespace Engine

def withScheduler (engine : Engine H K M) (sched : Scheduler H K) : Engine H K M :=
  { engine with scheduler := sched }

def stepAt (engine : Engine H K M) (step : Nat) : Py (SchedulerOutput M) :=
  match engine.inFlight[step]? with
  | none => .error (.indexError "deque index out of range")
  | some output => .ok output

def exec (cfg : SchedulerConfig H K M) (engine : Engine H K M) : EngineOp → Py (Engine H K M)
  | .addRequest args => do
    let req ← Request.init cfg.hasher args
    let added ← engine.scheduler.addRequest cfg req
    return engine.withScheduler added
  | .finishRequests requestIds finishedStatus => do
    let (_, finished) ← engine.scheduler.finishRequests cfg requestIds finishedStatus
    return engine.withScheduler finished
  | .schedule => do
    let (output, scheduled) ← engine.scheduler.schedule cfg
    return { scheduler := scheduled, inFlight := engine.inFlight ++ [output] }
  | .updateFromOutput step runnerOutput => do
    let output ← engine.stepAt step
    let (_, updated) ← engine.scheduler.updateFromOutput cfg output runnerOutput
    return { scheduler := updated, inFlight := engine.inFlight.eraseIdx step }
  | .updateDraftTokenIds drafts =>
    .ok (engine.withScheduler (engine.scheduler.updateDraftTokenIds cfg drafts))
  | .updateDraftTokenIdsInOutput step drafts => do
    let output ← engine.stepAt step
    let drafted := engine.scheduler.updateDraftTokenIdsInOutput cfg drafts output
    return { engine with inFlight := engine.inFlight.set step drafted }
  | .resetPrefixCache resetRunningRequests resetConnector => do
    let (_, reset) ← engine.scheduler.resetPrefixCache cfg resetRunningRequests resetConnector
    return engine.withScheduler reset
  | .resetEncoderCache => .ok (engine.withScheduler engine.scheduler.resetEncoderCache)
  | .setPauseState pauseState => .ok (engine.withScheduler (engine.scheduler.setPauseState pauseState))
  | .compileGrammar ref => .ok (engine.withScheduler { engine.scheduler with
      compiledGrammars := engine.scheduler.compiledGrammars ++ [ref] })
  | .changeRemoteItems items => .ok (engine.withScheduler { engine.scheduler with
      ecConnector := engine.scheduler.ecConnector.map (fun _ => items) })

/-- A new engine core. `absent` is what an unused reference stands for. -/
def init (cfg : SchedulerConfig H K M) (mgr : KVCacheManager H) (encoderCacheSize : Nat)
    (connectorState : K) (ecConnector : Option (List String)) (absent : Request H) :
    Engine H K M where
  scheduler := {
    objects := fun _ => absent
    numObjects := 0
    requests := .empty
    waiting := []
    skippedWaiting := []
    running := []
    prevStepScheduledReqIds := []
    finishedReqIds := []
    numWaitingForStreamingInput := 0
    finishedRecvingKvReqIds := []
    failedRecvingKvReqIds := []
    encoderCacheManager := .init cfg.isEncoderDecoder encoderCacheSize
    kvCacheManager := mgr
    connectorState := connectorState
    pauseState := .unpaused
    compiledGrammars := []
    ecConnector := ecConnector }

def small (cfg : SchedulerConfig Nat Unit Unit) (encoderCacheSize : Nat) :
    Py (Engine Nat Unit Unit) := do
  let spec := KVCacheSpec.fullAttention
    { blockSize := 4, blockSize_pos := four_pos, numKvHeads := 1, headSize := 1, dtype := ⟨"f", 1⟩
      headSizeV := 1 }
  let mgr ← KVCacheManager.init 10 [spec] cfg.maxModelLen 4 false false false 1 1
    (decimalHasher 4 four_pos)
  return init cfg mgr encoderCacheSize () none
    { requestId := "", promptTokenIds := none, numPromptTokens := 0, allTokenIds := [] }

end Engine

def promptArgs (requestId : String) (length maxTokens : Nat) : RequestArgs where
  requestId := requestId
  promptTokenIds := some (List.replicate length 7)
  samplingParams := some { maxTokens := some maxTokens, eosTokenId := some 2 }
  poolingParams := none

def sampledOutput (outputs : List (String × List TokenId)) : ModelRunnerOutput where
  reqIdToIndex := outputs.zipIdx.foldl (fun dict entry => dict.set entry.1.1 entry.2) .empty
  sampledTokenIds := outputs.map Prod.snd

end Vllm
