import Vllm.Request

/-! Block hashes of a request: the extra keys of a block, the hash of a block
chained to its parent, and the hasher that appends the hashes of the blocks
completed since the last call. The two digest functions are parameters. -/
namespace Vllm

inductive ExtraKey (H : Type) where
  | str (text : String)
  | bytes (digest : H)
  deriving DecidableEq, Repr

/-- What `get_request_block_hasher` closes over, with the module constant
`NONE_HASH` and the digest of prompt embeddings. -/
structure BlockHasher (H : Type) where
  blockSize : Nat
  blockSize_pos : 0 < blockSize
  cachingHashFn : H → List TokenId → Option (List (ExtraKey H)) → H
  noneHash : H
  sha256 : List UInt8 → H

variable {H : Type}

/-- The loop of `_gen_mm_extra_hash_keys`, over the features from `currMmIdx` on. -/
def genMmLoop (startTokenIdx endTokenIdx : Nat) :
    List MultiModalFeatureSpec → Nat → List String × Nat
  | [], currMmIdx => ([], currMmIdx)
  | mmFeature :: rest, currMmIdx =>
    let offset := mmFeature.mmPosition.offset
    let length := mmFeature.mmPosition.length
    if endTokenIdx > offset then
      if startTokenIdx > offset + length then
        genMmLoop startTokenIdx endTokenIdx rest (currMmIdx + 1)
      else if endTokenIdx ≥ offset + length then
        let (keys, idx) := genMmLoop startTokenIdx endTokenIdx rest (currMmIdx + 1)
        (mmFeature.identifier :: keys, idx)
      else ([mmFeature.identifier], currMmIdx)
    else ([], currMmIdx)

/-- A negative `startMmIdx` counts from the end of the features. Only `-1` is ever
passed, and never for an empty feature list, so the assertion on its range holds. -/
def genMmExtraHashKeys (mmFeatures : List MultiModalFeatureSpec)
    (startTokenIdx endTokenIdx : Nat) (startMmIdx : Int) : List String × Int :=
  match mmFeatures.getLast? with
  | none => ([], startMmIdx)
  | some last =>
    if last.mmPosition.offset + last.mmPosition.length < startTokenIdx then ([], startMmIdx)
    else
      let start := (if startMmIdx < 0 then mmFeatures.length + startMmIdx else startMmIdx).toNat
      let (keys, idx) := genMmLoop startTokenIdx endTokenIdx (mmFeatures.drop start) start
      (keys, idx)

def genLoraExtraHashKeys (req : Request H) : List String :=
  match req.loraRequest with
  | none => []
  | some lora => [lora.loraName]

/-- `tensor_data(prompt_embeds[start:end])`. -/
def promptEmbedsData (rows : List (List UInt8)) (startTokenIdx endTokenIdx : Nat) : List UInt8 :=
  ((rows.take endTokenIdx).drop startTokenIdx).flatten

variable (hasher : BlockHasher H)

section
variable (req : Request H) (tokens : List TokenId) (startTokenIdx endTokenIdx : Nat)

def genPromptEmbedsExtraHashKeys : List H :=
  match req.promptEmbeds with
  | none => []
  | some rows => [hasher.sha256 (promptEmbedsData rows startTokenIdx endTokenIdx)]

/-- An empty salt is falsy and leaves no key. -/
def cacheSaltKeys : List String :=
  match req.cacheSalt with
  | none => []
  | some salt => if startTokenIdx = 0 ∧ salt ≠ "" then [salt] else []

def generateBlockHashExtraKeys (startMmIdx : Int) : Option (List (ExtraKey H)) × Int :=
  let (mmExtraKeys, newStartMmIdx) :=
    genMmExtraHashKeys req.mmFeatures startTokenIdx endTokenIdx startMmIdx
  let extraKeys := (genLoraExtraHashKeys req).map .str ++ mmExtraKeys.map .str ++
    (cacheSaltKeys req startTokenIdx).map .str ++
    (genPromptEmbedsExtraHashKeys hasher req startTokenIdx endTokenIdx).map .bytes
  (if extraKeys.isEmpty then none else some extraKeys, newStartMmIdx)

def hashBlockTokens (parentBlockHash : Option H) (currBlockTokenIds : List TokenId)
    (extraKeys : Option (List (ExtraKey H))) : H :=
  hasher.cachingHashFn (parentBlockHash.getD hasher.noneHash) currBlockTokenIds extraKeys

def tokenSlice : List TokenId :=
  (tokens.take endTokenIdx).drop startTokenIdx

end

/-- The loop of the hasher. It leaves when the next block would pass the last
token, that is after `count` whole blocks. -/
def hashBlocks (hasher : BlockHasher H) (req : Request H) :
    (count startTokenIdx : Nat) → (currMmIdx : Int) → (prevBlockHash : Option H) → List H
  | 0, _, _, _ => []
  | count + 1, startTokenIdx, currMmIdx, prevBlockHash =>
    let endTokenIdx := startTokenIdx + hasher.blockSize
    let (extraKeys, nextMmIdx) :=
      generateBlockHashExtraKeys hasher req startTokenIdx endTokenIdx currMmIdx
    let blockTokens := tokenSlice req.allTokenIds startTokenIdx endTokenIdx
    let blockHash := hashBlockTokens hasher prevBlockHash blockTokens extraKeys
    blockHash :: hashBlocks hasher req count endTokenIdx nextMmIdx (some blockHash)

def requestBlockHasher (req : Request H) : List H :=
  let startTokenIdx := req.blockHashes.length * hasher.blockSize
  let currMmIdx : Int := if startTokenIdx > 0 then -1 else 0
  hashBlocks hasher req ((req.numTokens - startTokenIdx) / hasher.blockSize)
    startTokenIdx currMmIdx req.blockHashes.getLast?

namespace Request

variable (hasher : Option (BlockHasher H)) (req : Request H) (tokenIds : List TokenId)

/-- Requests carry no hasher when neither prefix caching nor a connector needs one. -/
def updateBlockHashes : Request H :=
  match hasher with
  | none => req
  | some hasher =>
    { req with blockHashes := req.blockHashes ++ requestBlockHasher hasher req }

def extendOutputTokenIds : Request H :=
  { req with
    outputTokenIds := req.outputTokenIds ++ tokenIds
    allTokenIds := req.allTokenIds ++ tokenIds }

def appendOutputTokenIds : Request H :=
  (req.extendOutputTokenIds tokenIds).updateBlockHashes hasher

end Request

def lengthFromPromptTokenIdsOrEmbeds (promptTokenIds : Option (List TokenId))
    (promptEmbeds : Option (List (List UInt8))) : Py Nat :=
  match promptTokenIds, promptEmbeds with
  | none, none =>
    .error (.valueError "Neither prompt_token_ids nor prompt_embeds were defined.")
  | none, some rows => .ok rows.length
  | some tokens, none => .ok tokens.length
  | some tokens, some rows =>
    if rows.length ≠ tokens.length then
      .error (.valueError ("Prompt token ids and prompt embeds had different lengths" ++
        s!" prompt_token_ids={tokens.length}" ++ s!" prompt_embeds={rows.length}"))
    else .ok tokens.length

/-- The arguments of `Request.__init__`. -/
structure RequestArgs where
  requestId : String
  promptTokenIds : Option (List TokenId)
  samplingParams : Option SamplingParams
  poolingParams : Option PoolingParams
  clientIndex : Nat := 0
  arrivalTime : Int := 0
  promptEmbeds : Option (List (List UInt8)) := none
  mmFeatures : List MultiModalFeatureSpec := []
  loraRequest : Option LoRARequest := none
  cacheSalt : Option String := none
  priority : Int := 0
  resumable : Bool := false

namespace Request

def getSkipReadingPrefixCache (samplingParams : Option SamplingParams)
    (poolingParams : Option PoolingParams) : Bool :=
  match samplingParams.bind (·.skipReadingPrefixCache) with
  | some skip => skip
  | none => (poolingParams.bind (·.skipReadingPrefixCache)).getD false

def initMaxTokens (args : RequestArgs) : Py Nat :=
  match args.poolingParams, args.samplingParams with
  | some _, _ => .ok 1
  | none, some params =>
    match params.maxTokens with
    | none => .error (.assertionError "sampling_params.max_tokens is not None")
    | some maxTokens => .ok maxTokens
  | none, none => .error (.valueError "sampling_params and pooling_params can't both be unset")

def init (hasher : Option (BlockHasher H)) (args : RequestArgs) : Py (Request H) := do
  let structured := match args.samplingParams with
    | none => false
    | some params => params.structuredOutputs
  let maxTokens ← initMaxTokens args
  let numPromptTokens ← lengthFromPromptTokenIdsOrEmbeds args.promptTokenIds args.promptEmbeds
  return updateBlockHashes hasher {
    requestId := args.requestId
    clientIndex := args.clientIndex
    priority := args.priority
    samplingParams := args.samplingParams
    poolingParams := args.poolingParams
    loraRequest := args.loraRequest
    useStructuredOutput := structured
    arrivalTime := args.arrivalTime
    status := if args.poolingParams.isNone && structured then .waitingForFsm else .waiting
    maxTokens := maxTokens
    promptTokenIds := args.promptTokenIds
    promptEmbeds := args.promptEmbeds
    numPromptTokens := numPromptTokens
    allTokenIds := args.promptTokenIds.getD (List.replicate numPromptTokens 0)
    cacheSalt := args.cacheSalt
    mmFeatures := args.mmFeatures
    skipReadingPrefixCache := getSkipReadingPrefixCache args.samplingParams args.poolingParams
    resumable := args.resumable }

end Request
end Vllm
