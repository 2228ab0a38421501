import Vllm.KV.Manager
import Vllm.KV.Lookup

/-! The coordinator runs the managers of all groups over one pool, one after the
other, and finds prefix-cache hits that all groups can use. -/
namespace Vllm
variable {H : Type} [DecidableEq H]

/-- What the three classes of coordinators add to the base class. -/
inductive CoordinatorKind where
  | noPrefixCache
  | unitary (spec : KVCacheSpec) (blockSize dcpWorldSize pcpWorldSize : Nat)
  | hybrid (attentionGroups : List (KVCacheSpec × List Nat)) (lcmBlockSize : Nat)

structure KVCacheCoordinator (H : Type) where
  maxModelLen : Nat
  useEagle : Bool
  enableCaching : Bool
  kind : CoordinatorKind
  blockPool : BlockPool H
  singleTypeManagers : List (SingleTypeKVCacheManager H)

def mapManagers (f : Nat → SingleTypeKVCacheManager H → BlockPool H →
    Py (α × SingleTypeKVCacheManager H × BlockPool H)) :
    Nat → List (SingleTypeKVCacheManager H) → BlockPool H →
      Py (List α × List (SingleTypeKVCacheManager H) × BlockPool H)
  | _, [], pool => .ok ([], [], pool)
  | i, mgr :: rest, pool => do
    let (result, mgr, pool) ← f i mgr pool
    let (results, managers, pool) ← mapManagers f (i + 1) rest pool
    return (result :: results, mgr :: managers, pool)

namespace KVCacheCoordinator

def initManagers (enableCaching : Bool) (dcpWorldSize pcpWorldSize : Nat) :
    Nat → List KVCacheSpec → BlockPool H → Py (List (SingleTypeKVCacheManager H) × BlockPool H)
  | _, [], pool => .ok ([], pool)
  | i, spec :: rest, pool => do
    let (mgr, pool) ←
      SingleTypeKVCacheManager.init spec pool enableCaching i dcpWorldSize pcpWorldSize
    let (managers, pool) ← initManagers enableCaching dcpWorldSize pcpWorldSize (i + 1) rest pool
    return (mgr :: managers, pool)

/-- Group `i` joins the attention group of its format, or opens a new one. -/
def joinAttentionGroup (spec : KVCacheSpec) (i : Nat) :
    List (KVCacheSpec × List Nat) → List (KVCacheSpec × List Nat)
  | [] => [(spec, [i])]
  | (existing, groupIds) :: rest =>
    if existing = spec then (existing, groupIds ++ [i]) :: rest
    else (existing, groupIds) :: joinAttentionGroup spec i rest

def splitAttentionGroups : Nat → List KVCacheSpec → List (KVCacheSpec × List Nat) →
    List (KVCacheSpec × List Nat)
  | _, [], groups => groups
  | i, spec :: rest, groups => splitAttentionGroups (i + 1) rest (joinAttentionGroup spec i groups)

variable (specs : List KVCacheSpec)

/-- Full attention comes first, in the given order. -/
def verifyAndSplitKvCacheGroups : Py CoordinatorKind := do
  let attentionGroups := splitAttentionGroups 0 specs []
  Py.assert (attentionGroups.length > 1)
    "HybridKVCacheCoordinator requires at least two attention groups."
  let sorted := attentionGroups.filter (·.1.isFullAttention) ++
    attentionGroups.filter (fun group => !group.1.isFullAttention)
  return .hybrid sorted (attentionGroups.foldl (fun n group => n.lcm group.1.blockSize) 1)

section
variable (enableCaching : Bool) (dcpWorldSize pcpWorldSize hashBlockSize : Nat)

def initUnitary : Py CoordinatorKind :=
  match specs with
  | [] => .error (.indexError "list index out of range")
  | spec :: rest => do
    let blockSize := (if dcpWorldSize > 1 then spec.blockSize * dcpWorldSize else spec.blockSize) *
      (if pcpWorldSize > 1 then pcpWorldSize else 1)
    Py.assert (!enableCaching || hashBlockSize = blockSize)
      "UnitaryKVCacheCoordinator assumes hash_block_size == block_size"
    Py.assert rest.isEmpty "UnitaryKVCacheCoordinator assumes only one kv cache group"
    return .unitary spec blockSize dcpWorldSize pcpWorldSize

def initHybrid : Py CoordinatorKind := do
  Py.assert (specs.all (fun spec => spec.blockSize % hashBlockSize = 0))
    "block_size must be divisible by hash_block_size"
  Py.assert (dcpWorldSize = 1) "DCP not support hybrid attn now."
  Py.assert (pcpWorldSize = 1) "PCP not support hybrid attn now."
  verifyAndSplitKvCacheGroups specs

/-- The class that `get_kv_cache_coordinator` chooses. -/
def initKind : Py CoordinatorKind :=
  if !enableCaching then .ok .noPrefixCache
  else if specs.length = 1 then
    initUnitary specs enableCaching dcpWorldSize pcpWorldSize hashBlockSize
  else initHybrid specs dcpWorldSize pcpWorldSize hashBlockSize

end

def init (numBlocks : Nat) (specs : List KVCacheSpec) (maxModelLen : Nat)
    (useEagle enableCaching enableKvCacheEvents : Bool)
    (dcpWorldSize pcpWorldSize hashBlockSize : Nat) (hasher : BlockHasher H) :
    Py (KVCacheCoordinator H) := do
  let pool ← BlockPool.init numBlocks enableCaching hashBlockSize enableKvCacheEvents hasher
  let (managers, pool) ← initManagers enableCaching dcpWorldSize pcpWorldSize 0 specs pool
  let kind ← initKind specs enableCaching dcpWorldSize pcpWorldSize hashBlockSize
  return {
    maxModelLen := maxModelLen
    useEagle := useEagle
    enableCaching := enableCaching
    kind := kind
    blockPool := pool
    singleTypeManagers := managers }

variable (coord : KVCacheCoordinator H)

def forManagers
    (f : Nat → SingleTypeKVCacheManager H → BlockPool H →
      Py (α × SingleTypeKVCacheManager H × BlockPool H)) : Py (List α × KVCacheCoordinator H) := do
  let (results, managers, pool) ←
    mapManagers f 0 coord.singleTypeManagers coord.blockPool
  return (results, { coord with singleTypeManagers := managers, blockPool := pool })

def numBlocksOfGroup (mgr : SingleTypeKVCacheManager H) (pool : BlockPool H)
    (requestId : String) (numTokens : Int) (newComputedBlocks : List BlockId)
    (numEncoderTokens totalComputedTokens numTokensMainModel : Int) :
    Py (Int × SingleTypeKVCacheManager H) :=
  if mgr.isCrossAttention then
    mgr.getNumBlocksToAllocate pool requestId numEncoderTokens [] 0 numEncoderTokens
  else
    mgr.getNumBlocksToAllocate pool requestId numTokens newComputedBlocks totalComputedTokens
      numTokensMainModel

section
variable (requestId : String) (attentionGroups : List (KVCacheSpec × List Nat)) (lcmBlockSize : Nat)
  (blockHashes : List H)

def getNumBlocksToAllocate (numTokens : Int) (newComputedBlocks : List (List BlockId))
    (numEncoderTokens : Int)
    (totalComputedTokens numTokensMainModel : Int) : Py (Int × KVCacheCoordinator H) := do
  let (nums, counted) ← coord.forManagers (fun i mgr pool => do
    let (num, mgr) ← numBlocksOfGroup mgr pool requestId numTokens
      (newComputedBlocks.getD i []) numEncoderTokens totalComputedTokens numTokensMainModel
    return (num, mgr, pool))
  return (nums.sum, counted)

def allocateNewComputedBlocks (requestId : String) (newComputedBlocks : List (List BlockId))
    (numLocalComputedTokens numExternalComputedTokens : Int) : Py (KVCacheCoordinator H) := do
  let (_, allocated) ← coord.forManagers (fun i mgr pool => do
    let (mgr, pool) ← mgr.allocateNewComputedBlocks pool requestId
      (newComputedBlocks.getD i []) numLocalComputedTokens numExternalComputedTokens
    return ((), mgr, pool))
  return allocated

def allocateNewBlocks (requestId : String) (numTokens numTokensMainModel numEncoderTokens : Int) :
    Py (List (List BlockId) × KVCacheCoordinator H) :=
  coord.forManagers (fun _ mgr pool =>
    mgr.allocateNewBlocks pool requestId
      (if mgr.isCrossAttention then numEncoderTokens else numTokens) numTokensMainModel)

def cacheBlocks (req : Request H) (numComputedTokens : Int) : Py (KVCacheCoordinator H) := do
  let (_, cached) ← coord.forManagers (fun _ mgr pool => do
    let (mgr, pool) ← mgr.cacheBlocks pool req numComputedTokens
    return ((), mgr, pool))
  return cached

def free (requestId : String) : Py (KVCacheCoordinator H) := do
  let (_, freed) ← coord.forManagers (fun _ mgr pool =>
    let (mgr, pool) := mgr.free pool requestId
    .ok ((), mgr, pool))
  return freed

def removeSkippedBlocks (requestId : String) (totalComputedTokens : Int) :
    Py (KVCacheCoordinator H) := do
  let (_, removed) ← coord.forManagers (fun _ mgr pool => do
    let (mgr, pool) ← mgr.removeSkippedBlocks pool requestId totalComputedTokens
    return ((), mgr, pool))
  return removed

def getBlocks : List (List BlockId) :=
  coord.singleTypeManagers.map (·.blocksOf requestId)

def newStepStarts : KVCacheCoordinator H :=
  { coord with
    singleTypeManagers := coord.singleTypeManagers.map (·.newStepStarts) }

/-- The hit of each group, once there is one. -/
abbrev GroupHits := List (Option (List BlockId))

def storeHits : List Nat → List (List BlockId) → GroupHits → GroupHits
  | groupId :: groupIds, blocks :: rest, hits =>
    storeHits groupIds rest (hits.set groupId (some blocks))
  | _, _, hits => hits

def lookupGroup (group : KVCacheSpec × List Nat)
    (maxLength : Nat) : Py (List (List BlockId)) := do
  let hashes ← coord.blockPool.blockHashList blockHashes group.1.blockSize
  Vllm.findLongestCacheHit {
    blockHashes := hashes
    maxLength := maxLength
    kvCacheGroupIds := group.2
    blockPool := coord.blockPool
    kvCacheSpec := group.1
    useEagle := coord.useEagle
    alignmentTokens := lcmBlockSize }

/-- One pass over the attention groups: each accepts the current length or lowers it.
Full attention is looked up in the first pass only. -/
def hybridPass (coord : KVCacheCoordinator H) (lcmBlockSize : Nat) (blockHashes : List H) :
    List (KVCacheSpec × List Nat) → (currHitLength : Nat) →
      (hits : GroupHits) → Py (Nat × GroupHits)
  | [], currHitLength, hits => .ok (currHitLength, hits)
  | group :: rest, currHitLength, hits =>
    let cachedBlocks := hits.getD (group.2.headD 0) none
    if group.1.isFullAttention ∧ cachedBlocks.isSome then
      hybridPass coord lcmBlockSize blockHashes rest
        (currHitLength / group.1.blockSize * group.1.blockSize) hits
    else do
      let hitBlocks ← coord.lookupGroup lcmBlockSize blockHashes group currHitLength
      hybridPass coord lcmBlockSize blockHashes rest
        ((hitBlocks.headD []).length * group.1.blockSize) (storeHits group.2 hitBlocks hits)

/-- The passes, until the length is accepted. Each pass but the last lowers the
length, so `hitLength + 1` passes are enough. -/
def hybridLoop (coord : KVCacheCoordinator H)
    (attentionGroups : List (KVCacheSpec × List Nat)) (lcmBlockSize : Nat) (blockHashes : List H)
    (isSimpleHybrid : Bool) :
    (passes hitLength : Nat) → (hits : GroupHits) → Py (Nat × GroupHits)
  | 0, _, _ => .error (.runtimeError "no accepted length")
  | passes + 1, hitLength, hits => do
    let (currHitLength, hits) ← hybridPass coord lcmBlockSize blockHashes attentionGroups
      hitLength hits
    if currHitLength ≥ hitLength then return (hitLength, hits)
    else if isSimpleHybrid then return (currHitLength, hits)
    else
      hybridLoop coord attentionGroups lcmBlockSize blockHashes isSimpleHybrid passes
        currHitLength hits

def truncateHits (numBlocks : Nat) : List Nat → GroupHits → GroupHits
  | [], hits => hits
  | groupId :: rest, hits =>
    truncateHits numBlocks rest
      (hits.set groupId ((hits.getD groupId none).map (·.take numBlocks)))

def findHybridCacheHit (maxCacheHitLength : Nat) : Py (List (List BlockId) × Nat) :=
  match attentionGroups with
  | [] => .error (.indexError "list index out of range")
  | (spec, groupIds) :: _ => do
    let isSimpleHybrid := decide (attentionGroups.length = 2) && spec.isFullAttention
    let (hitLength, hits) ← hybridLoop coord attentionGroups lcmBlockSize blockHashes
      isSimpleHybrid (maxCacheHitLength + 1) maxCacheHitLength
      (List.replicate coord.singleTypeManagers.length none)
    let truncated := if spec.isFullAttention then
        truncateHits (hitLength / spec.blockSize) groupIds hits
      else hits
    return (truncated.map (·.getD []), hitLength)

end

def findLongestCacheHit (blockHashes : List H) (maxCacheHitLength : Nat) :
    Py (List (List BlockId) × Nat) :=
  match coord.kind with
  | .noPrefixCache => .ok (coord.singleTypeManagers.map (fun _ => []), 0)
  | .unitary spec blockSize dcpWorldSize pcpWorldSize => do
    let hitBlocks ← Vllm.findLongestCacheHit {
      blockHashes := ⟨blockHashes, 1, Nat.one_pos⟩
      maxLength := maxCacheHitLength
      kvCacheGroupIds := [0]
      blockPool := coord.blockPool
      kvCacheSpec := spec
      useEagle := coord.useEagle
      alignmentTokens := blockSize
      dcpWorldSize := dcpWorldSize
      pcpWorldSize := pcpWorldSize }
    return (hitBlocks, (hitBlocks.headD []).length * blockSize)
  | .hybrid attentionGroups lcmBlockSize =>
    coord.findHybridCacheHit attentionGroups lcmBlockSize blockHashes maxCacheHitLength

end KVCacheCoordinator
end Vllm
