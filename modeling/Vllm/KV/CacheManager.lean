import Vllm.KV.Coordinator

/-! The KV-cache manager that the scheduler calls. Statistics are not modelled. -/
namespace Vllm
variable {H : Type} [DecidableEq H]

structure KVCacheManager (H : Type) where
  maxModelLen : Nat
  enableCaching : Bool
  coordinator : KVCacheCoordinator H

/-- The blocks of each group. An object without any block is always
`empty_kv_cache_blocks`. -/
abbrev KVCacheBlocks := List (List BlockId)

/-- `blocks is empty_kv_cache_blocks`. -/
def KVCacheBlocks.isEmptyBlocks (blocks : KVCacheBlocks) : Bool := blocks.all (·.isEmpty)

structure SlotArgs where
  numNewTokens : Int
  numNewComputedTokens : Int := 0
  newComputedBlocks : Option KVCacheBlocks := none
  numLookaheadTokens : Int := 0
  numExternalComputedTokens : Int := 0
  delayCacheBlocks : Bool := false
  numEncoderTokens : Int := 0

namespace KVCacheManager

def init (numBlocks : Nat) (specs : List KVCacheSpec) (maxModelLen hashBlockSize : Nat)
    (enableCaching useEagle enableKvCacheEvents : Bool) (dcpWorldSize pcpWorldSize : Nat)
    (hasher : BlockHasher H) : Py (KVCacheManager H) := do
  let coord ← KVCacheCoordinator.init numBlocks specs maxModelLen useEagle enableCaching
    enableKvCacheEvents dcpWorldSize pcpWorldSize hashBlockSize hasher
  return { maxModelLen := maxModelLen, enableCaching := enableCaching, coordinator := coord }

variable (mgr : KVCacheManager H)

def blockPool : BlockPool H := mgr.coordinator.blockPool

def emptyKvCacheBlocks : KVCacheBlocks := mgr.coordinator.singleTypeManagers.map (fun _ => [])

variable (req : Request H)

/-- A request has at least one token, and its last token is always computed. -/
def getComputedBlocks : Py (KVCacheBlocks × Nat) :=
  if !mgr.enableCaching || req.skipReadingPrefixCache then
    .ok (mgr.emptyKvCacheBlocks, 0)
  else mgr.coordinator.findLongestCacheHit req.blockHashes (req.numTokens - 1)

structure SlotCounts where
  numLocalComputedTokens : Int
  totalComputedTokens : Int
  numTokensMainModel : Int
  numTokensNeedSlot : Int

variable (args : SlotArgs)

def slotCounts : SlotCounts :=
  let numLocalComputedTokens := req.numComputedTokens + args.numNewComputedTokens
  let totalComputedTokens :=
    min (numLocalComputedTokens + args.numExternalComputedTokens) mgr.maxModelLen
  let numTokensMainModel := totalComputedTokens + args.numNewTokens
  { numLocalComputedTokens := numLocalComputedTokens
    totalComputedTokens := totalComputedTokens
    numTokensMainModel := numTokensMainModel
    numTokensNeedSlot := min (numTokensMainModel + args.numLookaheadTokens) mgr.maxModelLen }

def withCoordinator (coord : KVCacheCoordinator H) : KVCacheManager H :=
  { mgr with coordinator := coord }

/-- Append the hits to the table of the request, and blocks for external tokens. -/
def allocateComputed (counts : SlotCounts) : Py (KVCacheCoordinator H) :=
  let newComputedBlocks := args.newComputedBlocks.getD mgr.emptyKvCacheBlocks
  if !newComputedBlocks.isEmptyBlocks || args.numExternalComputedTokens > 0 then
    mgr.coordinator.allocateNewComputedBlocks req.requestId newComputedBlocks
      counts.numLocalComputedTokens args.numExternalComputedTokens
  else .ok mgr.coordinator

/-- The last two stages of `allocate_slots`, once the blocks are known to suffice. -/
def takeSlots (counts : SlotCounts) : Py (KVCacheBlocks × KVCacheManager H) := do
  let computed ← mgr.allocateComputed req args counts
  let (newBlocks, allocated) ← computed.allocateNewBlocks req.requestId
    counts.numTokensNeedSlot counts.numTokensMainModel args.numEncoderTokens
  if !mgr.enableCaching || args.delayCacheBlocks then
    return (newBlocks, mgr.withCoordinator allocated)
  else
    let numTokensToCache := min (counts.totalComputedTokens + args.numNewTokens) req.numTokens
    let cached ← allocated.cacheBlocks req numTokensToCache
    return (newBlocks, mgr.withCoordinator cached)

def allocateSlots : Py (Option KVCacheBlocks × KVCacheManager H) :=
  if args.numNewTokens = 0 ∧ args.numExternalComputedTokens = 0 then
    .error (.valueError ("num_new_tokens must be greater than 0 when there are no " ++
      "external computed tokens"))
  else do
    let counts := mgr.slotCounts req args
    let removed ← mgr.coordinator.removeSkippedBlocks req.requestId
      counts.totalComputedTokens
    let (numBlocksToAllocate, counted) ← removed.getNumBlocksToAllocate req.requestId
      counts.numTokensNeedSlot (args.newComputedBlocks.getD mgr.emptyKvCacheBlocks)
      args.numEncoderTokens
      (counts.numLocalComputedTokens + args.numExternalComputedTokens) counts.numTokensMainModel
    if numBlocksToAllocate > counted.blockPool.getNumFreeBlocks then
      return (none, mgr.withCoordinator counted)
    else
      let (blocks, final) ← (mgr.withCoordinator counted).takeSlots req args counts
      return (some blocks, final)

def free (requestId : String) : Py (KVCacheManager H) := do
  let freed ← mgr.coordinator.free requestId
  return mgr.withCoordinator freed

def removeSkippedBlocks (requestId : String) (totalComputedTokens : Int) :
    Py (KVCacheManager H) := do
  let removed ← mgr.coordinator.removeSkippedBlocks requestId totalComputedTokens
  return mgr.withCoordinator removed

def withPool (pool : BlockPool H) : KVCacheManager H :=
  mgr.withCoordinator { mgr.coordinator with blockPool := pool }

def evictBlocks (blockIds : List BlockId) : Py (KVCacheManager H) := do
  let evicted ← mgr.blockPool.evictBlocks blockIds
  return mgr.withPool evicted

def resetPrefixCache : Bool × KVCacheManager H :=
  let (success, pool) := mgr.blockPool.resetPrefixCache
  (success, mgr.withPool pool)

def cacheBlocks (numComputedTokens : Int) : Py (KVCacheManager H) :=
  if mgr.enableCaching then do
    let cached ← mgr.coordinator.cacheBlocks req numComputedTokens
    return mgr.withCoordinator cached
  else .ok mgr

def getBlocks (requestId : String) : KVCacheBlocks := mgr.coordinator.getBlocks requestId

def newStepStarts : KVCacheManager H := mgr.withCoordinator mgr.coordinator.newStepStarts

def takeNewBlockIds : List BlockId × KVCacheManager H :=
  (mgr.coordinator.singleTypeManagers.flatMap (·.newBlockIds),
    mgr.withCoordinator { mgr.coordinator with
      singleTypeManagers := mgr.coordinator.singleTypeManagers.map
        (fun single => { single with newBlockIds := [] }) })

end KVCacheManager
end Vllm
