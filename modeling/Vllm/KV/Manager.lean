import Vllm.KV.BlockPool
import Vllm.KV.Spec
import Vllm.Lib.Dict

/-! The manager of one KV-cache group: the block table of each request and how it
grows and shrinks. The pool is shared by all managers and passed along. Formats
differ in the tokens they skip, and Mamba in how it allocates. -/
namespace Vllm
variable {H : Type} [DecidableEq H]

/-- `last_state_block_idx` and `_allocated_block_reqs` are used by Mamba in the
`align` mode only, `cached_blocks_this_step` by Mamba only. -/
structure SingleTypeKVCacheManager (H : Type) where
  kvCacheSpec : KVCacheSpec
  blockSize : Nat
  blockSize_pos : 0 < blockSize
  enableCaching : Bool
  kvCacheGroupId : Nat
  newBlockIds : List BlockId := []
  reqToBlocks : Dict String (List BlockId) := Dict.empty
  numCachedBlock : Dict String Nat := Dict.empty
  cachedBlocksThisStep : List (BlockHashWithGroupId H) := []
  lastStateBlockIdx : Dict String Int := Dict.empty
  allocatedBlockReqs : List String := []
  sinkBlocks : List BlockId := []

variable (mgr : SingleTypeKVCacheManager H) (pool : BlockPool H) (spec : MambaSpec)
  (req : Request H)

namespace SingleTypeKVCacheManager

/-- `get_manager_for_kv_cache_spec`. Attention sinks take their blocks at once. -/
def init (spec : KVCacheSpec) (pool : BlockPool H) (enableCaching : Bool)
    (kvCacheGroupId dcpWorldSize pcpWorldSize : Nat) :
    Py (SingleTypeKVCacheManager H × BlockPool H) :=
  let blockSize := if dcpWorldSize * pcpWorldSize > 1 then
      spec.blockSize * (dcpWorldSize * pcpWorldSize)
    else spec.blockSize
  have blockSize_pos : 0 < blockSize := by
    simp only [blockSize]
    split
    · exact Nat.mul_pos spec.blockSize_pos (by omega)
    · exact spec.blockSize_pos
  let mgr : SingleTypeKVCacheManager H :=
    { kvCacheSpec := spec, blockSize, blockSize_pos, enableCaching, kvCacheGroupId }
  match spec with
  | .encoderOnlyAttention _ => .error (.keyError "EncoderOnlyAttentionSpec")
  | .sinkFullAttention _ sinkLen =>
    match sinkLen with
    | none => .error (.assertionError "sink_len is not None")
    | some sinkLen => do
      Py.assert (0 < sinkLen ∧ sinkLen % blockSize = 0)
        "sink_len > 0 and sink_len % self.block_size == 0"
      let (sinkBlocks, popped) ← pool.popleftN (sinkLen / blockSize : Nat)
      return ({ mgr with sinkBlocks := sinkBlocks }, popped)
  | _ => .ok (mgr, pool)

section
variable (requestId : String) (blocks : List BlockId)

/-- `req_to_blocks[request_id]` of a request without a table is empty. -/
def blocksOf : List BlockId := (mgr.reqToBlocks.get? requestId).getD []

def setBlocks : SingleTypeKVCacheManager H :=
  { mgr with reqToBlocks := mgr.reqToBlocks.set requestId blocks }

/-- Reading a `defaultdict` stores the empty table it returns. -/
def touchBlocks : SingleTypeKVCacheManager H :=
  mgr.setBlocks requestId (mgr.blocksOf requestId)

def getNumEvictableBlocks : Nat :=
  blocks.countP (fun block => pool.refCnt block = 0 ∧ block ≠ nullBlock)

end

def getNumSkippedTokens (numComputedTokens : Int) : Int :=
  mgr.kvCacheSpec.getNumSkippedTokens numComputedTokens

namespace Base

variable (requestId : String) (numTokens : Int) (newComputedBlocks : List BlockId)
  (totalComputedTokens : Int)

def getNumBlocksToAllocate : Py Int :=
  let numRequiredBlocks := cdiv numTokens mgr.blockSize
  let numReqBlocks : Int := (mgr.blocksOf requestId).length
  if mgr.numCachedBlock.contains requestId then do
    Py.assert (newComputedBlocks.length = 0) "len(new_computed_blocks) == 0"
    return max (numRequiredBlocks - numReqBlocks) 0
  else
    let numSkippedTokens := mgr.getNumSkippedTokens totalComputedTokens
    let numLocalComputedBlocks := newComputedBlocks.length + numReqBlocks
    let numSkippedBlocks := numSkippedTokens / mgr.blockSize
    let numNewBlocks := max (numRequiredBlocks - max numSkippedBlocks numLocalComputedBlocks) 0
    let numSkippedNewComputedBlocks := max 0 (numSkippedBlocks - numReqBlocks)
    let numEvictableBlocks :=
      getNumEvictableBlocks pool (newComputedBlocks.drop numSkippedNewComputedBlocks.toNat)
    .ok (numNewBlocks + numEvictableBlocks)

def keptComputedBlocks (numSkippedBlocks : Int) (newComputedBlocks : List BlockId) : List BlockId :=
  if numSkippedBlocks > 0 then newComputedBlocks.drop numSkippedBlocks.toNat
  else newComputedBlocks

/-- Touch the hits so that they are not evicted. Without caching there are none. -/
def touchComputed (enableCaching : Bool)
    (pool : BlockPool H) (blocks : List BlockId) : Py (BlockPool H) :=
  if enableCaching then pool.touch blocks
  else if blocks.isEmpty then .ok pool
  else .error (.assertionError "Computed blocks should be empty when prefix caching is disabled")

/-- The external tokens that need blocks: some may be skipped as well. -/
def externalTokens (numSkippedTokens numSkippedBlocks numTotalComputedTokens
    numExternalComputedTokens : Int) : Int :=
  if numSkippedBlocks > 0 then
    min (numTotalComputedTokens - numSkippedTokens) numExternalComputedTokens
  else numExternalComputedTokens

def allocateNewComputedBlocks (numLocalComputedTokens numExternalComputedTokens : Int) :
    Py (SingleTypeKVCacheManager H × BlockPool H) :=
  if mgr.numCachedBlock.contains requestId then do
    Py.assert (newComputedBlocks.length = 0) "len(new_computed_blocks) == 0"
    return (mgr, pool)
  else do
    Py.assert ((mgr.blocksOf requestId).length = 0) "len(req_blocks) == 0"
    let numTotalComputedTokens := numLocalComputedTokens + numExternalComputedTokens
    let numSkippedTokens := mgr.getNumSkippedTokens numTotalComputedTokens
    let numSkippedBlocks := numSkippedTokens / mgr.blockSize
    let kept := keptComputedBlocks numSkippedBlocks newComputedBlocks
    let touched ← touchComputed mgr.enableCaching pool kept
    let reqBlocks := List.replicate numSkippedBlocks.toNat nullBlock ++ kept
    let marked := { mgr with
      numCachedBlock := mgr.numCachedBlock.set requestId reqBlocks.length }
    if externalTokens numSkippedTokens numSkippedBlocks numTotalComputedTokens
        numExternalComputedTokens > 0 then
      let (allocatedBlocks, taken) ← touched.getNewBlocks
        (cdiv numTotalComputedTokens mgr.blockSize - reqBlocks.length)
      return ({ marked.setBlocks requestId (reqBlocks ++ allocatedBlocks) with newBlockIds :=
        if mgr.kvCacheSpec.isExactlyFullAttention then mgr.newBlockIds ++ allocatedBlocks
        else mgr.newBlockIds }, taken)
    else return (marked.setBlocks requestId reqBlocks, touched)

def allocateNewBlocks : Py (List BlockId × SingleTypeKVCacheManager H × BlockPool H) :=
  let reqBlocks := mgr.blocksOf requestId
  let numRequiredBlocks := cdiv numTokens mgr.blockSize
  let numNewBlocks := numRequiredBlocks - reqBlocks.length
  if numNewBlocks ≤ 0 then .ok ([], mgr.touchBlocks requestId, pool)
  else do
    let (newBlocks, taken) ← pool.getNewBlocks numNewBlocks
    let extended := mgr.setBlocks requestId (reqBlocks ++ newBlocks)
    return (newBlocks, { extended with newBlockIds :=
      if mgr.kvCacheSpec.isExactlyFullAttention then mgr.newBlockIds ++ newBlocks
      else mgr.newBlockIds }, taken)

def cacheBlocks : Py (SingleTypeKVCacheManager H × BlockPool H) :=
  let numCachedBlocks := (mgr.numCachedBlock.get? req.requestId).getD 0
  let numFullBlocks := numTokens / mgr.blockSize
  if (numCachedBlocks : Int) ≥ numFullBlocks then .ok (mgr, pool)
  else do
    let cached ← pool.cacheFullBlocks req (mgr.blocksOf req.requestId)
      numCachedBlocks numFullBlocks.toNat mgr.blockSize mgr.kvCacheGroupId
    return ({ mgr.touchBlocks req.requestId with
      numCachedBlock := mgr.numCachedBlock.set req.requestId numFullBlocks.toNat }, cached)

def free : SingleTypeKVCacheManager H × BlockPool H :=
  ({ mgr with
    reqToBlocks := mgr.reqToBlocks.erase requestId
    numCachedBlock := mgr.numCachedBlock.erase requestId },
    pool.freeBlocks (mgr.blocksOf requestId).reverse)

/-- The loop of `remove_skipped_blocks` over the first `count` blocks, from the last
of them down to the first null block: the removed blocks and the table after it. -/
def removeLoop (blocks : List BlockId) : (count : Nat) → List BlockId × List BlockId
  | 0 => ([], blocks)
  | i + 1 =>
    let block := blocks.getD i nullBlock
    if block = nullBlock then ([], blocks)
    else
      let (removed, table) := removeLoop (blocks.set i nullBlock) i
      (block :: removed, table)

def removeSkippedBlocks : SingleTypeKVCacheManager H × BlockPool H :=
  let numSkippedTokens := mgr.getNumSkippedTokens totalComputedTokens
  if numSkippedTokens ≤ 0 then (mgr, pool)
  else
    let blocks := mgr.blocksOf requestId
    let numSkippedBlocks := min (numSkippedTokens / mgr.blockSize) blocks.length
    let (removed, table) := removeLoop blocks numSkippedBlocks.toNat
    (mgr.setBlocks requestId table, pool.freeBlocks removed)

end Base

namespace Mamba

/-- The last hit was cached in this step, its state is not computed yet. -/
def hitCachedThisStep (newComputedBlocks : List BlockId) : Bool :=
  match newComputedBlocks.getLast? with
  | none => false
  | some last => match pool.blockHash last with
    | none => false
    | some key => decide (key ∈ mgr.cachedBlocksThisStep)

def getNumBlocksToAllocate (pool : BlockPool H) (requestId : String) (numTokens : Int)
    (newComputedBlocks : List BlockId) (totalComputedTokens numTokensMainModel : Int) :
    Py (Int × SingleTypeKVCacheManager H) :=
  if hitCachedThisStep mgr pool newComputedBlocks then .ok (pool.numGpuBlocks + 1, mgr)
  else if spec.mambaCacheMode ≠ .align then do
    let padded := if spec.numSpeculativeBlocks > 0 then
        numTokens + spec.blockSize * spec.numSpeculativeBlocks
      else numTokens
    let num ← Base.getNumBlocksToAllocate mgr pool requestId padded newComputedBlocks
      totalComputedTokens
    return (num, mgr)
  else
    let numRequiredBlocks := cdiv numTokensMainModel mgr.blockSize + spec.numSpeculativeBlocks
    let numMissingBlocks := numRequiredBlocks - newComputedBlocks.length -
      (mgr.blocksOf requestId).length
    let numNewBlocks : Int := if numMissingBlocks > 0 then
        if requestId ∈ mgr.allocatedBlockReqs then 1
        else 1 + spec.numSpeculativeBlocks
      else numMissingBlocks
    .ok (numNewBlocks + getNumEvictableBlocks pool newComputedBlocks, mgr.touchBlocks requestId)

/-- The loop that reuses the speculative blocks of the previous step: `count` indices
from `blockIdx` on. -/
def reuseSpeculative (numSkippedBlocks : Int) :
    (count : Nat) → (blockIdx : Int) → List BlockId → Py (List BlockId)
  | 0, _, reqBlocks => .ok reqBlocks
  | count + 1, blockIdx, reqBlocks =>
    if blockIdx < numSkippedBlocks then
      match Py.place reqBlocks.length blockIdx with
      | none => .error (.indexError "list index out of range")
      | some place =>
        let appended := reqBlocks ++ [reqBlocks.getD place nullBlock]
        match Py.place appended.length blockIdx with
        | none => .error (.indexError "list assignment index out of range")
        | some target =>
          reuseSpeculative numSkippedBlocks count (blockIdx + 1) (appended.set target nullBlock)
    else .ok reqBlocks

/-- The table padded with null blocks for the skipped ones, the speculative blocks of
the previous step moved behind them. -/
def extendTable (blocksAllocated : Bool) (numSkippedBlocks : Int) (reqBlocks : List BlockId) :
    Py (List BlockId) :=
  let padded := reqBlocks ++ List.replicate (numSkippedBlocks - reqBlocks.length).toNat nullBlock
  if blocksAllocated then
    reuseSpeculative numSkippedBlocks spec.numSpeculativeBlocks
      (reqBlocks.length - spec.numSpeculativeBlocks) padded
  else .ok padded

/-- `allocate_new_blocks` in the `align` mode. -/
def allocateAligned (pool : BlockPool H) (requestId : String) (numTokensMainModel : Int) :
    Py (List BlockId × SingleTypeKVCacheManager H × BlockPool H) :=
  let reqBlocks := mgr.blocksOf requestId
  let numRequiredBlocks := cdiv numTokensMainModel mgr.blockSize + spec.numSpeculativeBlocks
  if numRequiredBlocks = reqBlocks.length then .ok ([], mgr.touchBlocks requestId, pool)
  else do
    Py.assert (numRequiredBlocks > reqBlocks.length)
      s!"num_required_blocks {numRequiredBlocks} < len(req_blocks) {reqBlocks.length}"
    let prevBlockLen : Int := reqBlocks.length
    let blocksAllocated := decide (requestId ∈ mgr.allocatedBlockReqs)
    let lastStateBlockIdx := if blocksAllocated then
        mgr.lastStateBlockIdx.set requestId (prevBlockLen - 1 - spec.numSpeculativeBlocks)
      else if prevBlockLen > 0 then mgr.lastStateBlockIdx.set requestId (prevBlockLen - 1)
      else mgr.lastStateBlockIdx
    let numSkippedBlocks := numRequiredBlocks - spec.numSpeculativeBlocks - 1
    let reused ← extendTable spec blocksAllocated numSkippedBlocks reqBlocks
    let numNewBlocks := numRequiredBlocks - reused.length
    Py.assert (if blocksAllocated then numNewBlocks ≤ 1
      else numNewBlocks ≤ spec.numSpeculativeBlocks + 1)
      (if blocksAllocated then "num_new_blocks <= 1"
        else "num_new_blocks <= self.num_speculative_blocks + 1")
    let (newBlocks, taken) ← pool.getNewBlocks numNewBlocks
    let table := reused ++ newBlocks
    let extended := mgr.setBlocks requestId table
    return (table.drop reqBlocks.length, { extended with
      lastStateBlockIdx := lastStateBlockIdx
      allocatedBlockReqs := if requestId ∈ mgr.allocatedBlockReqs then
          mgr.allocatedBlockReqs
        else mgr.allocatedBlockReqs ++ [requestId] }, taken)

def allocateNewBlocks (pool : BlockPool H) (requestId : String)
    (numTokens numTokensMainModel : Int) :
    Py (List BlockId × SingleTypeKVCacheManager H × BlockPool H) :=
  if spec.mambaCacheMode ≠ .align then
    let padded := if spec.numSpeculativeBlocks > 0 then
        numTokens + mgr.blockSize * spec.numSpeculativeBlocks
      else numTokens
    Base.allocateNewBlocks mgr pool requestId padded
  else allocateAligned mgr spec pool requestId numTokensMainModel

def removeLastState (requestId : String) (numComputedTokens : Int) :
    Py (SingleTypeKVCacheManager H × BlockPool H) :=
  match mgr.lastStateBlockIdx.get? requestId with
  | none => .ok (mgr, pool)
  | some lastStateBlockIdx =>
    if lastStateBlockIdx < cdiv numComputedTokens mgr.blockSize - 1 then
      let blocks := mgr.blocksOf requestId
      match Py.place blocks.length lastStateBlockIdx with
      | none => .error (.indexError "list index out of range")
      | some place =>
        let block := blocks.getD place nullBlock
        if block ≠ nullBlock then
          .ok (mgr.setBlocks requestId (blocks.set place nullBlock), pool.freeBlocks [block])
        else .ok (mgr.touchBlocks requestId, pool)
    else .ok (mgr, pool)

def removeSkippedBlocks (pool : BlockPool H) (requestId : String) (totalComputedTokens : Int) :
    Py (SingleTypeKVCacheManager H × BlockPool H) :=
  let numComputedTokens := max 0 (totalComputedTokens - spec.numSpeculativeBlocks)
  let (removed, freed) := Base.removeSkippedBlocks mgr pool requestId numComputedTokens
  if spec.mambaCacheMode = .align then removeLastState removed freed requestId numComputedTokens
  else .ok (removed, freed)

def recordCached (pool : BlockPool H) : List BlockId → Py (List (BlockHashWithGroupId H))
  | [] => .ok []
  | block :: rest =>
    if block = nullBlock then recordCached pool rest
    else match pool.blockHash block with
      | none => .error (.assertionError "block.block_hash is not None")
      | some key => do
        let keys ← recordCached pool rest
        return key :: keys

def cacheBlocks (numTokens : Int) : Py (SingleTypeKVCacheManager H × BlockPool H) := do
  let before := (mgr.numCachedBlock.get? req.requestId).getD 0
  let (cached, stored) ← Base.cacheBlocks mgr pool req numTokens
  let after := (cached.numCachedBlock.get? req.requestId).getD 0
  if after > before then
    let keys ← recordCached stored (((cached.blocksOf req.requestId).take after).drop before)
    return ({ cached with cachedBlocksThisStep := cached.cachedBlocksThisStep ++ keys }, stored)
  else return (cached, stored)

def free (pool : BlockPool H) (requestId : String) : SingleTypeKVCacheManager H × BlockPool H :=
  let discarded := if spec.mambaCacheMode = .align then
      { mgr with
        allocatedBlockReqs := mgr.allocatedBlockReqs.filter (· ≠ requestId)
        lastStateBlockIdx := mgr.lastStateBlockIdx.erase requestId }
    else mgr
  Base.free discarded pool requestId

end Mamba

/-- `isinstance(manager, CrossAttentionManager)`. -/
def isCrossAttention : Bool :=
  match mgr.kvCacheSpec with
  | .crossAttention _ => true
  | _ => false

def getNumBlocksToAllocate (requestId : String) (numTokens : Int) (newComputedBlocks : List BlockId)
    (totalComputedTokens numTokensMainModel : Int) : Py (Int × SingleTypeKVCacheManager H) :=
  match mgr.kvCacheSpec with
  | .mamba spec => Mamba.getNumBlocksToAllocate mgr spec pool requestId numTokens
      newComputedBlocks totalComputedTokens numTokensMainModel
  | _ => do
    let num ← Base.getNumBlocksToAllocate mgr pool requestId numTokens newComputedBlocks
      totalComputedTokens
    return (num, mgr)

def allocateNewComputedBlocks (requestId : String) (newComputedBlocks : List BlockId)
    (numLocalComputedTokens numExternalComputedTokens : Int) :
    Py (SingleTypeKVCacheManager H × BlockPool H) :=
  match mgr.kvCacheSpec with
  | .crossAttention _ => do
    Py.assert (newComputedBlocks.length = 0) "len(new_computed_blocks) == 0"
    return (mgr, pool)
  | _ => Base.allocateNewComputedBlocks mgr pool requestId newComputedBlocks
      numLocalComputedTokens numExternalComputedTokens

def allocateNewBlocks (requestId : String) (numTokens numTokensMainModel : Int) :
    Py (List BlockId × SingleTypeKVCacheManager H × BlockPool H) :=
  match mgr.kvCacheSpec with
  | .mamba spec =>
    Mamba.allocateNewBlocks mgr spec pool requestId numTokens numTokensMainModel
  | _ => Base.allocateNewBlocks mgr pool requestId numTokens

def cacheBlocks (numTokens : Int) : Py (SingleTypeKVCacheManager H × BlockPool H) :=
  match mgr.kvCacheSpec with
  | .mamba _ => Mamba.cacheBlocks mgr pool req numTokens
  | .crossAttention _ =>
    .error (.valueError "Should not be called as prefix caching is disabled.")
  | _ => Base.cacheBlocks mgr pool req numTokens

def free (requestId : String) : SingleTypeKVCacheManager H × BlockPool H :=
  match mgr.kvCacheSpec with
  | .mamba spec => Mamba.free mgr spec pool requestId
  | _ => Base.free mgr pool requestId

def removeSkippedBlocks (requestId : String) (totalComputedTokens : Int) :
    Py (SingleTypeKVCacheManager H × BlockPool H) :=
  match mgr.kvCacheSpec with
  | .mamba spec => Mamba.removeSkippedBlocks mgr spec pool requestId totalComputedTokens
  | _ => .ok (Base.removeSkippedBlocks mgr pool requestId totalComputedTokens)

def newStepStarts : SingleTypeKVCacheManager H := { mgr with cachedBlocksThisStep := [] }

end SingleTypeKVCacheManager
end Vllm
