import Vllm.Engine.Detokenizer
import Vllm.Sched.State

/-! The outputs of a generation request: `RequestState` of `v1/engine/output_processor.py`
with the bodies of the loops of `process_outputs` and `abort_requests`, and the
`ParentRequest` of `v1/engine/parallel_sampling.py`. -/
namespace Vllm

inductive RequestOutputKind
  | cumulative
  | delta
  | finalOnly
  deriving DecidableEq

/-- What an `EngineCoreOutput` brings a generation request, with one row of logprobs `L` for
each position. -/
structure TokenOutput (L : Type) where
  newTokenIds : List TokenId
  newLogprobs : Option (List L)
  finishReason : Option FinishReason

structure CompletionOutput (L : Type) where
  index : Nat
  text : Text
  tokenIds : List TokenId
  logprobs : Option (List L)
  finishReason : Option FinishReason

/-- The completions are those of a parent's aggregator, which starts with `None`s. -/
structure RequestOutput (L : Type) where
  requestId : String
  outputs : List (Option (CompletionOutput L))
  finished : Bool

structure ParentRequest (L : Type) where
  requestId : String
  externalReqId : String
  outputKind : RequestOutputKind
  childRequests : Finset String := ∅
  outputAggregator : List (Option (CompletionOutput L))

def ParentRequest.getOutputs (parent : ParentRequest L) (childRequestId : String)
    (output : CompletionOutput L) :
    Py (List (Option (CompletionOutput L)) × Bool × ParentRequest L) :=
  let finished := output.finishReason.isSome
  let alreadyFinishedAndReturned : Bool := finished && childRequestId ∉ parent.childRequests
  let childRequests :=
    if finished then parent.childRequests.erase childRequestId else parent.childRequests
  if parent.outputKind ≠ .finalOnly then
    .ok (if alreadyFinishedAndReturned then [] else [some output], childRequests = ∅,
      { parent with childRequests })
  else if output.index < parent.outputAggregator.length then
    let outputAggregator := parent.outputAggregator.set output.index (some output)
    .ok (if childRequests = ∅ then outputAggregator else [], childRequests = ∅,
      { parent with childRequests, outputAggregator })
  else .error (.indexError "list assignment index out of range")

structure RequestState (σ L : Type) where
  requestId : String
  externalReqId : String
  requestIndex : Nat
  outputKind : RequestOutputKind
  params : StopParams
  detokenizer : Detokenizer σ
  /-- The list of the logprobs processor, if logprobs were asked for. -/
  logprobs : Option (List L)
  streamInterval : Nat
  sentTokensOffset : Nat := 0
  hasQueue : Bool
  streamingInput : Bool

def lastItems (all : List α) (k : Nat) : List α := if k = 0 then all else all.drop (all.length - k)

/-- The rows that `_update_sample_logprobs` adds. -/
def updateSampleLogprobs : Option (List L) → Option (List L) → Py (Option (List L))
  | logprobs, none => .ok logprobs
  | none, some _ => .error (.assertionError "")
  | some logprobs, some rows => .ok (some (logprobs ++ rows))

namespace RequestState
variable (state : RequestState σ L)

def outputTokenIds : List TokenId := state.detokenizer.tokenIds.drop state.params.promptLen

def numOutputTokens : Nat := state.detokenizer.numOutputTokens state.params

variable (decodeNext : List TokenId → σ → TokenId → Py (Text × σ))
  (parent : Option (ParentRequest L))

def newCompletionOutput (tokenIds : List TokenId) (finishReason : Option FinishReason) :
    CompletionOutput L × RequestState σ L :=
  let delta : Bool := state.outputKind = .delta
  let (text, detokenizer) :=
    state.detokenizer.getNextOutputText state.params finishReason.isSome delta
  let tokenIds := if delta then tokenIds else state.outputTokenIds
  let logprobs := state.logprobs.map fun all => if delta then lastItems all tokenIds.length else all
  (⟨state.requestIndex, text, tokenIds, logprobs, finishReason⟩, { state with detokenizer })

/-- An output is held back until the stream interval is full. -/
def Deferred (finishReason : Option FinishReason) : Prop :=
  1 < state.streamInterval ∧ finishReason = none ∧ state.sentTokensOffset ≠ 0 ∧
    state.numOutputTokens - state.sentTokensOffset < state.streamInterval

instance : Decidable (state.Deferred finishReason) := inferInstanceAs (Decidable (_ ∧ _))

def makeRequestOutput (newTokenIds : List TokenId) (finishReason : Option FinishReason) :
    Py (Option (RequestOutput L) × RequestState σ L × Option (ParentRequest L)) :=
  if finishReason = none ∧ state.outputKind = .finalOnly ∨ state.Deferred finishReason then
    .ok (none, state, parent)
  else do
    let fromOffset := 1 < state.streamInterval ∧ state.outputKind = .delta
    let newTokenIds :=
      if fromOffset then state.outputTokenIds.drop state.sentTokensOffset else newTokenIds
    let sentTokensOffset :=
      if fromOffset then state.numOutputTokens else state.sentTokensOffset
    let (output, next) :=
      newCompletionOutput { state with sentTokensOffset } newTokenIds finishReason
    match parent with
    | none => return (some ⟨state.externalReqId, [some output], finishReason.isSome⟩, next, none)
    | some parent =>
      let (outputs, finished, parent) ← parent.getOutputs state.requestId output
      return (if outputs = [] then none else some ⟨parent.externalReqId, outputs, finished⟩, next,
        some parent)

/-- The body of the loop of `process_outputs` for a request that is known, up to the freeing of
completed requests, with the finish reason that decides on it. -/
def processOutput (output : TokenOutput L) :
    Py (Option FinishReason × Option (RequestOutput L) × RequestState σ L ×
      Option (ParentRequest L)) := do
  let (stopString, detokenizer) ← state.detokenizer.update state.params decodeNext
    output.newTokenIds (output.finishReason = some .stop)
  let finishReason := if stopString.isSome then some .stop else output.finishReason
  let logprobs ← updateSampleLogprobs state.logprobs output.newLogprobs
  let (requestOutput, next, parent) ← makeRequestOutput { state with detokenizer, logprobs } parent
    output.newTokenIds finishReason
  return (finishReason, requestOutput.map fun output =>
    { output with finished := output.finished && !state.streamingInput }, next, parent)

/-- What `abort_requests` does with a request it has taken from `request_states`. -/
def abort (parent : Option (ParentRequest L)) :
    Py (Option (RequestOutput L) × RequestState σ L × Option (ParentRequest L)) :=
  if state.hasQueue then state.makeRequestOutput parent [] (some .abort)
  else .ok (none, state, parent)

end RequestState
end Vllm
