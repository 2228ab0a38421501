import Vllm.Request
import Vllm.Lib.Dict
import Vllm.Lib.Segments
import Vllm.Lib.Launch

/-! The second model runner: its request states, the inputs that its kernels prepare for the
model, and what it keeps of the sampled tokens. -/
namespace Vllm.V2
open Segments Launch

structure Config where
  maxModelLen : Nat
  maxNumReqs : Nat
  numSpeculativeSteps : Nat

structure Slot where
  allTokenIds : Nat → TokenId
  prefillLen : Nat
  totalLen : Nat
  numComputedPrefillTokens : Nat
  numComputedTokens : Nat
  lastSampledToken : TokenId
  draftTokens : Nat → TokenId
  nextPrefillToken : TokenId

structure RequestState where
  reqIdToIndex : Dict String Nat
  freeIndices : List Nat
  slots : Nat → Slot

namespace RequestState

variable (states : RequestState) (reqId : String)

/-- The staged writes are applied before anything reads them. -/
def addRequest (promptLen : Nat) (allTokenIds : List TokenId) (numComputedTokens : Nat)
    : Py RequestState :=
  match states.freeIndices.getLast? with
  | none => .error (.assertionError "No free indices")
  | some reqIdx => do
    Py.assert (promptLen ≤ allTokenIds.length) "prefill_len < prompt_len"
    return {
      freeIndices := states.freeIndices.dropLast
      reqIdToIndex := states.reqIdToIndex.set reqId reqIdx
      slots := Function.update states.slots reqIdx { states.slots reqIdx with
        prefillLen := allTokenIds.length
        totalLen := allTokenIds.length
        allTokenIds := store (states.slots reqIdx).allTokenIds 0 allTokenIds.length
          (fun i => allTokenIds.getD i 0)
        numComputedPrefillTokens := numComputedTokens
        numComputedTokens := numComputedTokens } }

def removeRequest : RequestState :=
  match states.reqIdToIndex.get? reqId with
  | none => states
  | some reqIdx => { states with
      reqIdToIndex := states.reqIdToIndex.erase reqId
      freeIndices := states.freeIndices ++ [reqIdx] }

def index : Py Nat :=
  match states.reqIdToIndex.get? reqId with
  | none => .error (.runtimeError "TypeError: an integer is required, not None")
  | some reqIdx => .ok reqIdx

end RequestState

structure SchedulerOutput where
  numScheduledTokens : Dict String Nat
  scheduledSpecDecodeTokens : Dict String (List TokenId)

def SchedulerOutput.numDraftTokens (output : SchedulerOutput) (reqId : String) : Nat :=
  ((output.scheduledSpecDecodeTokens.get? reqId).getD []).length

/-- The arrays that the host prepares: the requests with their numbers of tokens, their slots,
and where their logits start. -/
structure Layout where
  requests : List (String × Nat)
  idxMapping : List Nat
  cuNumLogits : List Nat

namespace Layout
variable (layout : Layout) (batchIdx : Nat)

def numReqs : Nat := layout.requests.length

def idx : Nat := layout.idxMapping.getD batchIdx 0

def numScheduledTokens : List Nat := layout.requests.map Prod.snd

/-- The entries after the last request are the number of all tokens. -/
def queryStartLoc : Nat :=
  (0 :: cumsum layout.numScheduledTokens).getD batchIdx layout.numScheduledTokens.sum

def queryLen : Nat := layout.queryStartLoc (batchIdx + 1) - layout.queryStartLoc batchIdx

def logitsStart : Nat := layout.cuNumLogits.getD batchIdx 0

def numLogits : Nat := layout.logitsStart (batchIdx + 1) - layout.logitsStart batchIdx

end Layout

/-- Requests with few tokens come first. -/
def layoutOf (states : RequestState) (output : SchedulerOutput) : Py Layout := do
  Py.assert (0 < output.numScheduledTokens.values.sum) ""
  let requests := output.numScheduledTokens.entries.insertionSort (fun a b => a.2 ≤ b.2)
  let idxMapping ← requests.mapM (fun req => states.index req.1)
  return {
    requests := requests
    idxMapping := idxMapping
    cuNumLogits :=
      if output.scheduledSpecDecodeTokens.entries = [] then List.range (requests.length + 1)
      else 0 :: cumsum (requests.map (fun req => output.numDraftTokens req.1 + 1)) }

section Kernels
variable (cfg : Config) (slots : Nat → Slot) (layout : Layout) (batchIdx : Nat)

/-- The input ids, and the next tokens of the prefills. -/
def preparePrefillInputsKernel (memory : (Nat → TokenId) × (Nat → Slot)) :
    (Nat → TokenId) × (Nat → Slot) :=
  let reqStateIdx := layout.idx batchIdx
  let slot := slots reqStateIdx
  if slot.numComputedTokens ≥ slot.prefillLen then memory
  else
    let nextPos := slot.numComputedTokens + layout.queryLen batchIdx
    (store memory.1 (layout.queryStartLoc batchIdx) (layout.queryLen batchIdx)
        (fun i => slot.allTokenIds (slot.numComputedTokens + i)),
      if nextPos < slot.prefillLen then
        Function.update memory.2 reqStateIdx
          { memory.2 reqStateIdx with nextPrefillToken := slot.allTokenIds nextPos }
      else memory.2)

/-- The positions and the lengths of the sequences. The last program pads. -/
def preparePosSeqLensKernel (memory : (Nat → Nat) × (Nat → Nat)) : (Nat → Nat) × (Nat → Nat) :=
  if batchIdx = layout.numReqs then
    (memory.1, store memory.2 layout.numReqs (cfg.maxNumReqs - layout.numReqs) (fun _ => 0))
  else
    let numComputed := (slots (layout.idx batchIdx)).numComputedTokens
    (store memory.1 (layout.queryStartLoc batchIdx) (layout.queryLen batchIdx) (numComputed + ·),
      Function.update memory.2 batchIdx (numComputed + layout.queryLen batchIdx))

/-- The input ids after the prefill, and the rows of the logits. -/
def combineSampledAndDraftTokensKernel (seqLens : Nat → Nat)
    (memory : (Nat → TokenId) × (Nat → Nat)) : (Nat → TokenId) × (Nat → Nat) :=
  let slot := slots (layout.idx batchIdx)
  let blockSize := 2 ^ Nat.clog 2 (cfg.numSpeculativeSteps + 1)
  let numLogits := layout.numLogits batchIdx
  let numDraftTokens := numLogits - 1
  let queryEnd := layout.queryStartLoc (batchIdx + 1)
  let logitsIndices := store memory.2 (layout.logitsStart batchIdx) (min blockSize numLogits)
    (queryEnd - numLogits + ·)
  if seqLens batchIdx ≤ slot.prefillLen then (memory.1, logitsIndices)
  else
    (store (Function.update memory.1 (queryEnd - numLogits) slot.lastSampledToken)
      (queryEnd - numDraftTokens) (min blockSize numDraftTokens) slot.draftTokens, logitsIndices)

def anyPrefills : Bool :=
  layout.idxMapping.any (fun reqIdx =>
    (slots reqIdx).numComputedPrefillTokens < (slots reqIdx).prefillLen)

end Kernels

structure InputBuffers where
  inputIds : Nat → TokenId
  positions : Nat → Nat
  seqLens : Nat → Nat

structure InputBatch extends Layout, InputBuffers where
  logitsIndices : Nat → Nat

structure Runner where
  states : RequestState
  buffers : InputBuffers

def prepareInputs (cfg : Config) (runner : Runner) (output : SchedulerOutput) :
    Py (InputBatch × Runner) := do
  let slots := runner.states.slots
  let layout ← layoutOf runner.states output
  let prefilled :=
    if anyPrefills slots layout then
      launch (preparePrefillInputsKernel slots layout) layout.numReqs (runner.buffers.inputIds, slots)
    else (runner.buffers.inputIds, slots)
  let placed := launch (preparePosSeqLensKernel cfg slots layout) (layout.numReqs + 1)
    (runner.buffers.positions, runner.buffers.seqLens)
  let combined := launch
    (fun batchIdx => combineSampledAndDraftTokensKernel cfg slots layout batchIdx placed.2)
    layout.numReqs (prefilled.1, fun _ => 0)
  let buffers : InputBuffers := ⟨combined.1, placed.1, placed.2⟩
  return ({ layout, buffers with logitsIndices := combined.2 },
    ⟨{ runner.states with slots := prefilled.2 }, buffers⟩)

section Update
variable (batch : InputBatch)

/-- How many of the tokens that the sampler returned are kept, and how many drafts are not. -/
def getNumSampledAndRejected (slots : Nat → Slot) (numSampled batchIdx : Nat) : Nat × Nat :=
  let isChunkedPrefilling := batch.seqLens batchIdx < (slots (batch.idx batchIdx)).prefillLen
  (if isChunkedPrefilling then 0 else numSampled,
    if isChunkedPrefilling then 0 else batch.numLogits batchIdx - numSampled)

/-- What a program of the kernel makes of the slot of its request. -/
def postUpdateKernel (sampledTokens : Nat → TokenId) (counts : Nat × Nat) (batchIdx : Nat)
    (slot : Slot) : Slot :=
  let (numSampled, numRejected) := counts
  { slot with
    lastSampledToken :=
      if numSampled > 0 then sampledTokens (numSampled - 1) else slot.lastSampledToken
    totalLen := if numSampled > 0 then slot.totalLen + numSampled else slot.totalLen
    allTokenIds := store slot.allTokenIds slot.totalLen numSampled sampledTokens
    numComputedTokens := slot.numComputedTokens + batch.queryLen batchIdx - numRejected }

/-- The host counts the tokens of the prefills on its own. -/
def countPrefillTokens (batchIdx : Nat) (slot : Slot) : Slot :=
  { slot with numComputedPrefillTokens :=
      slot.numComputedPrefillTokens + batch.numScheduledTokens.getD batchIdx 0 }

def boundPrefillTokens (slot : Slot) : Slot :=
  { slot with numComputedPrefillTokens := min slot.numComputedPrefillTokens slot.prefillLen }

def postprocess (slots : Nat → Slot) (sampled : Nat → List TokenId) : Nat → Slot :=
  let updated := scatter batch.idx (fun batchIdx => postUpdateKernel batch
    (fun i => (sampled batchIdx).getD i 0)
    (getNumSampledAndRejected batch slots (sampled batchIdx).length batchIdx) batchIdx)
    batch.numReqs slots
  boundPrefillTokens ∘ scatter batch.idx (countPrefillTokens batch) batch.numReqs updated

/-- The speculator writes a row of drafts for each request of the batch. -/
def writeDrafts (slots : Nat → Slot) (drafts : Nat → Nat → TokenId) : Nat → Slot :=
  scatter batch.idx (fun batchIdx slot => { slot with draftTokens := drafts batchIdx })
    batch.numReqs slots

end Update

/-- A step in which the sampler returns some tokens and the speculator some drafts for each
request. -/
def step (cfg : Config) (runner : Runner) (output : SchedulerOutput)
    (sampled : String → List TokenId) (drafts : String → Nat → TokenId) :
    Py (InputBatch × Runner) := do
  let (batch, prepared) ← prepareInputs cfg runner output
  let reqId := fun batchIdx => ((batch.requests[batchIdx]?).map Prod.fst).getD ""
  let updated := postprocess batch prepared.states.slots (sampled ∘ reqId)
  return (batch, { prepared with
    states := { prepared.states with slots := writeDrafts batch updated (drafts ∘ reqId) } })

def init (cfg : Config) : Runner where
  states := ⟨.empty, List.range cfg.maxNumReqs,
    fun _ => ⟨fun _ => 0, 0, 0, 0, 0, 0, fun _ => 0, 0⟩⟩
  buffers := ⟨fun _ => 0, fun _ => 0, fun _ => 0⟩

end Vllm.V2
