import Vllm.Worker.Tracking

/-! What belongs to a request in the persistent batch. In the abstract every request owns a row,
and only its own additions and writes change it; the batch keeps the rows at indices that move. -/
namespace Vllm.Worker
open Relocate

def BlockTable.row (table : BlockTable) (i : Nat) : Nat × List Nat :=
  (table.blocksPerKvBlock, (List.range (table.numBlocksPerRow i)).map (table.blockTable i))

@[ext] structure SharedRow where
  cells : Nat → TokenId
  isToken : Nat → Bool
  embeds : Option PromptEmbeds
  numTokensNoSpec : Nat
  numPromptTokens : Nat
  numComputedTokens : Nat
  blocks : List (Nat × List Nat)
  loraId : Nat
  outputs : Option Nat
  spec : List TokenId

/-- What a batch for generation keeps at an index, apart from the mask of allowed tokens. -/
@[ext] structure SamplingRow where
  temperature : Rat
  topP : Rat
  topK : Int
  frequencyPenalty : Rat
  presencePenalty : Rat
  repetitionPenalty : Rat
  numAcceptedTokens : Nat
  generator : Option Nat
  badWords : Option (List (List TokenId))
  deriving DecidableEq, Repr

namespace InputBatch

variable (batch : InputBatch) (i : Nat)

def shared : SharedRow where
  cells := batch.tokenIdsCpu i
  isToken := batch.isTokenIds i
  embeds := batch.reqPromptEmbeds.get? i
  numTokensNoSpec := batch.numTokensNoSpec i
  numPromptTokens := batch.numPromptTokens i
  numComputedTokens := batch.numComputedTokensCpu i
  blocks := batch.blockTable.map (·.row i)
  loraId := batch.requestLoraMapping i
  outputs := (batch.reqOutputTokenIds[i]?).join
  spec := batch.specTokenIds.getD i []

def sampling : SamplingRow where
  temperature := batch.temperatureCpu i
  topP := batch.topPCpu i
  topK := batch.topKCpu i
  frequencyPenalty := batch.frequencyPenaltiesCpu i
  presencePenalty := batch.presencePenaltiesCpu i
  repetitionPenalty := batch.repetitionPenaltiesCpu i
  numAcceptedTokens := batch.numAcceptedTokensCpu i
  generator := batch.generators.get? i
  badWords := batch.badWordsTokenIds.get? i

/-- The tokens that are masked out at an index. -/
def maskRow : Nat → Bool :=
  batch.allowedTokenIdsMask.getD (fun _ _ => false) i

def ratios : List Nat := batch.blockTable.map BlockTable.blocksPerKvBlock

end InputBatch

def CachedRequestState.promptLength (req : CachedRequestState) : Nat :=
  match req.promptTokenIds, req.promptEmbeds with
  | some ids, _ => ids.length
  | none, some embeds => embeds.length
  | none, none => 0

def CachedRequestState.loraId (req : CachedRequestState) : Nat :=
  match req.loraRequest with
  | some lora => lora.loraIntId
  | none => 0

def CachedRequestState.allowedTokenIds (req : CachedRequestState) : Option (List Nat) :=
  req.samplingParams.map SamplingParams.allowedTokenIds

def CachedRequestState.requiresTokenIds (req : CachedRequestState) : Option Bool :=
  req.poolingParams.map PoolingParams.requiresTokenIds

/-- What a request owns. A position is unknown if nothing was written there for it. -/
structure Row where
  request : CachedRequestState
  tokens : List (Option TokenId)
  isToken : List (Option Bool)
  numComputedTokens : Nat
  blocks : List (Nat × List Nat)
  spec : List TokenId := []
  /-- The draft tokens also stand after the tokens. -/
  specWritten : Bool := true
  numAcceptedTokens : Nat := 1
  deriving DecidableEq, Repr

namespace Row

def ofRequest (ratios : List Nat) (req : CachedRequestState) : Row where
  request := req
  tokens := (match req.promptTokenIds with
    | some ids => ids.map some
    | none => List.replicate req.promptLength none) ++ req.outputTokenIds.map some
  isToken := List.replicate req.promptLength (some req.promptTokenIds.isSome) ++
    List.replicate req.outputTokenIds.length (some true)
  numComputedTokens := req.numComputedTokens
  blocks := ratios.mapIdx (fun group ratio =>
    (ratio, BlockTable.mapToKernelBlocks ratio (req.blockIds.getD group [])))

def resize {α : Type} (known : List (Option α)) (n : Nat) : List (Option α) :=
  known.take n ++ List.replicate (n - known.length) none

def write (row : Row) : RowWrite → Row
  | .sampled tokens =>
    { row with
      tokens := row.tokens ++ tokens.map some
      isToken := row.isToken ++ List.replicate tokens.length (some true)
      specWritten := false }
  | .numComputedTokens value => { row with numComputedTokens := value }
  | .numTokens value =>
    { row with
      tokens := resize row.tokens value
      isToken := resize row.isToken value
      specWritten := false }
  | .newBlocks blockIds =>
    { row with
      blocks := row.blocks.mapIdx (fun group entry =>
        (entry.1, entry.2 ++ BlockTable.mapToKernelBlocks entry.1 (blockIds.getD group []))) }
  | .specTokens tokens => { row with spec := tokens, specWritten := true }
  | .numAcceptedTokens value => { row with numAcceptedTokens := value }

def sampling (row : Row) (vocabSize : Nat) (params : SamplingParams) : SamplingRow where
  temperature := if params.samplingType = .greedy then 0 else params.temperature
  topP := params.topP
  topK := if 0 < params.topK ∧ params.topK < vocabSize then params.topK else vocabSize
  frequencyPenalty := params.frequencyPenalty
  presencePenalty := params.presencePenalty
  repetitionPenalty := params.repetitionPenalty
  numAcceptedTokens := row.numAcceptedTokens
  generator := row.request.generator
  badWords := if params.badWordsTokenIds = [] then none else some params.badWordsTokenIds

end Row

def maskFor (params : SamplingParams) (token : Nat) : Bool :=
  if params.allowedTokenIds = [] then false else InputBatch.maskOf params.allowedTokenIds token

/-- Every request in the batch with its row, and the request that was last added for each
adapter. The ratios are those of the block tables. -/
structure Ledger where
  ratios : List Nat
  rows : Dict String Row := .empty
  loras : Dict Nat LoRARequest := .empty

namespace Ledger

variable (ledger : Ledger)

def remove (reqId : String) : Ledger :=
  { ledger with rows := ledger.rows.erase reqId }

def write (ledger : Ledger) (reqId : String) (change : RowWrite) : Ledger :=
  match ledger.rows.get? reqId with
  | some row => { ledger with rows := ledger.rows.set reqId (row.write change) }
  | none => ledger

def add (req : CachedRequestState) : Ledger :=
  { ledger with
    rows := ledger.rows.set req.reqId (Row.ofRequest ledger.ratios req)
    loras := match req.loraRequest with
      | some lora => ledger.loras.set lora.loraIntId lora
      | none => ledger.loras }

def addWithSpec (addition : CachedRequestState × List TokenId) : Ledger :=
  (ledger.add addition.1).write addition.1.reqId (.specTokens addition.2)

/-- Condensing and reordering change no row. -/
def step (change : BatchStep) : Ledger :=
  let ledger := change.sampled.foldl (fun ledger entry => ledger.write entry.1 (.sampled entry.2))
    ledger
  let ledger := change.removals.foldl remove ledger
  let ledger := change.writes.foldl (fun ledger entry => ledger.write entry.1 entry.2) ledger
  change.additions.foldl addWithSpec ledger

end Ledger

/-- The cells of a row hold what is known about them. -/
def Knows {α : Type} (known : List (Option α)) (n : Nat) (cells : Nat → α) : Prop :=
  n = known.length ∧ ∀ p v, known[p]? = some (some v) → cells p = v

structure SharedRow.Holds (data : SharedRow) (row : Row) : Prop where
  tokens : Knows row.tokens data.numTokensNoSpec data.cells
  isToken : Knows row.isToken data.numTokensNoSpec data.isToken
  prompt : data.numPromptTokens = row.request.promptLength
  computed : data.numComputedTokens = row.numComputedTokens
  blocks : data.blocks = row.blocks
  lora : data.loraId = row.request.loraId
  outputs : data.outputs = some row.request.outputRef
  spec : data.spec = row.spec
  specCells : row.specWritten = true →
    ∀ p token, row.spec[p]? = some token → data.cells (data.numTokensNoSpec + p) = token
  embeds : ∀ embeds, row.request.promptEmbeds = some embeds → data.embeds = some embeds

section Owners
variable (rows : Dict String Row) (batch : InputBatch)

def OwnedShared : Prop :=
  Owned (fun data : SharedRow => data.spec = []) (fun row data => data.Holds row) rows.get?
    batch.occupant batch.shared

def OwnedSampling : Prop :=
  Owned (fun data : SamplingRow => data.generator = none ∧ data.badWords = none)
    (fun row data => ∀ params, row.request.samplingParams = some params →
      data = row.sampling batch.vocabSize params)
    rows.get? batch.occupant batch.sampling

def OwnedMask : Prop :=
  Owned (fun _ : Nat → Bool => True)
    (fun row mask => ∀ params, row.request.samplingParams = some params →
      ∀ token < batch.vocabSize, mask token = maskFor params token)
    rows.get? batch.occupant batch.maskRow

def OwnedNeeds : Prop :=
  Owned (fun _ : Bool => True)
    (fun row needs => ∀ params, row.request.poolingParams = some params →
      needs = params.requiresTokenIds)
    rows.get? batch.occupant batch.logitsProcessingNeedsTokenIds

end Owners

section ById
variable (find : String → Option CachedRequestState)

/-- A set that has the requests whose parameters meet a test. -/
def Members (test : SamplingParams → Bool) (set : Finset String) : Prop :=
  ∀ reqId, reqId ∈ set ↔ ∃ req params, find reqId = some req ∧
    req.samplingParams = some params ∧ test params = true

/-- A dictionary that has a value for the requests that call for one. -/
def Entries {α : Type} (value : CachedRequestState → Option α) (dict : Dict String α) : Prop :=
  ∀ reqId, dict.get? reqId = (find reqId).bind value

/-- The sets and dictionaries by request id. -/
structure OwnedById (batch : InputBatch) : Prop where
  greedy : Members find (fun params => params.samplingType == .greedy) batch.greedyReqs
  random : Members find (fun params => !(params.samplingType == .greedy)) batch.randomReqs
  topP : Members find (fun params => params.topP < 1) batch.topPReqs
  topK : Members find (fun params => 0 < params.topK ∧ params.topK < batch.vocabSize)
    batch.topKReqs
  frequency : Members find (fun params => params.frequencyPenalty ≠ 0) batch.frequencyPenaltiesReqs
  presence : Members find (fun params => params.presencePenalty ≠ 0) batch.presencePenaltiesReqs
  repetition : Members find (fun params => params.repetitionPenalty ≠ 1)
    batch.repetitionPenaltiesReqs
  allowed : Members find (fun params => params.allowedTokenIds ≠ []) batch.hasAllowedTokenIds
  logprobs : Entries find (fun req => req.samplingParams.bind (fun params =>
    params.logprobs.map (fun logprobs =>
      if logprobs = -1 then (batch.vocabSize : Int) else logprobs))) batch.numLogprobs
  poolingParams : batch.isPoolingModel = true →
    Entries find CachedRequestState.poolingParams batch.poolingParams
  poolingStates : batch.isPoolingModel = true →
    Entries find CachedRequestState.poolingStates batch.poolingStates

def Uses (loraId : Nat) (reqId : String) : Prop :=
  ∃ req lora, find reqId = some req ∧ req.loraRequest = some lora ∧
    lora.loraIntId = loraId

/-- The maps of the adapters that are in use. -/
structure OwnedLoras (loras : Dict Nat LoRARequest) (batch : InputBatch) : Prop where
  users : ∀ loraId reqIds, batch.loraIdToRequestIds.get? loraId = some reqIds →
    reqIds.Nonempty ∧ ∀ reqId, reqId ∈ reqIds ↔ Uses find loraId reqId
  unused : ∀ loraId reqId, batch.loraIdToRequestIds.get? loraId = none → ¬ Uses find loraId reqId
  requests : ∀ loraId, batch.loraIdToLoraRequest.get? loraId =
    (batch.loraIdToRequestIds.get? loraId).bind (fun _ => loras.get? loraId)

/-- A request for the kind of model that the batch serves. -/
def Suits (isPoolingModel : Bool) (req : CachedRequestState) : Prop :=
  (if isPoolingModel then req.samplingParams = none ∧ req.poolingParams.isSome
    else req.samplingParams.isSome) ∧
  ∀ lora ∈ req.loraRequest, 0 < lora.loraIntId

end ById

def Ledger.request (ledger : Ledger) (reqId : String) : Option CachedRequestState :=
  (ledger.rows.get? reqId).map Row.request

/-- The batch has every request's row at its index, and what belongs to it by its id. -/
structure Carried (batch : InputBatch) (ledger : Ledger) : Prop where
  ratios : batch.ratios = ledger.ratios
  known : ∀ reqId, (batch.reqIdToIndex.get? reqId).isSome = (ledger.request reqId).isSome
  suits : ∀ reqId req, ledger.request reqId = some req → Suits batch.isPoolingModel req
  outputs : batch.reqOutputTokenIds.length = batch.reqIds.length
  specs : batch.reqIds.length ≤ batch.specTokenIds.length
  shared : OwnedShared ledger.rows batch
  sampling : batch.isPoolingModel = false → OwnedSampling ledger.rows batch
  idle : batch.isPoolingModel = true →
    ∀ i, (batch.sampling i).generator = none ∧ (batch.sampling i).badWords = none
  mask : batch.isPoolingModel = false → OwnedMask ledger.rows batch
  needs : batch.isPoolingModel = true → OwnedNeeds ledger.rows batch
  byId : OwnedById ledger.request batch
  loras : OwnedLoras ledger.request ledger.loras batch

theorem Ledger.request_eq {ledger : Ledger} {row : Row} (found : ledger.rows.get? reqId = some row) :
    ledger.request reqId = some row.request := by
  rw [request, found]
  rfl

theorem Carried.found (carried : Carried batch ledger)
    (loc : batch.reqIdToIndex.get? reqId = some index) :
    ∃ row, ledger.rows.get? reqId = some row ∧ ledger.request reqId = some row.request := by
  have known := carried.known reqId
  rw [loc, Ledger.request, Option.isSome_map] at known
  obtain ⟨row, found⟩ := Option.isSome_iff_exists.mp known.symm
  exact ⟨row, found, Ledger.request_eq found⟩

variable {find : String → Option CachedRequestState}

/-- What belongs to the requests by their ids does not depend on the rows. -/
theorem OwnedById.congr (byId : OwnedById find batch) (same : next = { next with
      vocabSize := batch.vocabSize
      isPoolingModel := batch.isPoolingModel
      greedyReqs := batch.greedyReqs
      randomReqs := batch.randomReqs
      topPReqs := batch.topPReqs
      topKReqs := batch.topKReqs
      frequencyPenaltiesReqs := batch.frequencyPenaltiesReqs
      presencePenaltiesReqs := batch.presencePenaltiesReqs
      repetitionPenaltiesReqs := batch.repetitionPenaltiesReqs
      hasAllowedTokenIds := batch.hasAllowedTokenIds
      numLogprobs := batch.numLogprobs
      poolingParams := batch.poolingParams
      poolingStates := batch.poolingStates }) : OwnedById find next := by
  rw [same]
  exact { byId with }

theorem OwnedLoras.congr (owned : OwnedLoras find loras batch)
    (users : next.loraIdToRequestIds = batch.loraIdToRequestIds)
    (requests : next.loraIdToLoraRequest = batch.loraIdToLoraRequest) :
    OwnedLoras find loras next := by
  constructor
  · rw [users]
    exact owned.users
  · rw [users]
    exact owned.unused
  · rw [users, requests]
    exact owned.requests

end Vllm.Worker
