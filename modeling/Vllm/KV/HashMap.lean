import Vllm.KV.Accounting
import Vllm.Lib.Run

/-! Every run of the block pool keeps its map of cached blocks and the hashes of the
blocks in step: a block is stored under a key iff the key is its hash. -/
namespace Vllm
open Py
variable {H : Type} [DecidableEq H]

/-- The calls that the managers of the KV cache make. -/
inductive PoolOp (H : Type) where
  | cacheFullBlocks (req : Request H) (blocks : List BlockId)
      (numCachedBlocks numFullBlocks blockSize kvCacheGroupId : Nat)
  | getCachedBlock (blockHash : BlockHash H) (kvCacheGroupIds : List Nat)
  | getNewBlocks (numBlocks : Int)
  | touch (blocks : List BlockId)
  | freeBlocks (orderedBlocks : List BlockId)
  | evictBlocks (blockIds : List BlockId)
  | resetPrefixCache

namespace BlockPool

def exec (pool : BlockPool H) : PoolOp H → Py (BlockPool H)
  | .cacheFullBlocks req blocks numCachedBlocks numFullBlocks blockSize kvCacheGroupId =>
    pool.cacheFullBlocks req blocks numCachedBlocks numFullBlocks blockSize kvCacheGroupId
  | .getCachedBlock _ _ => .ok pool
  | .getNewBlocks numBlocks => do
    let (_, next) ← pool.getNewBlocks numBlocks
    return next
  | .touch blocks => pool.touch blocks
  | .freeBlocks orderedBlocks => .ok (pool.freeBlocks orderedBlocks)
  | .evictBlocks blockIds => pool.evictBlocks blockIds
  | .resetPrefixCache => .ok pool.resetPrefixCache.2

/-- Blocks that are evicted one after the other, by `evict_blocks` or because they are
handed out: each one that has a hash is found in the map when its turn comes. -/
def NeverMissing (pool : BlockPool H) : List BlockId → Prop
  | [] => True
  | block :: rest =>
    (∀ key, pool.blockHash block = some key →
      (pool.cachedBlockHashToBlock.pop key block).1 = some block) ∧
    (pool.maybeEvictCachedBlock block).NeverMissing rest

variable {pool after : BlockPool H}

theorem MapExact.neverMissing (exact : pool.MapExact) (blocks : List BlockId) :
    pool.NeverMissing blocks := by
  induction blocks generalizing pool with
  | nil => trivial
  | cons block rest ih =>
    refine ⟨?_, ih (maybeEvict_exact exact block)⟩
    intro key hashed
    rw [BlockHashToBlockMap.pop_fst, if_pos (exact.stored block key hashed)]

theorem exec_exact {op : PoolOp H} (exact : pool.MapExact) (ran : pool.exec op = .ok after) :
    after.MapExact := by
  cases op with
  | cacheFullBlocks => exact (cacheFullBlocks_ok exact ran).2
  | getCachedBlock =>
    cases ran
    exact exact
  | getNewBlocks =>
    obtain ⟨_, got, final⟩ := bind_ok ran
    cases final
    exact getNewBlocks_hashes exact got
  | touch => exact exact.same (touch_hashes ran)
  | freeBlocks =>
    cases ran
    exact exact.same ⟨rfl, rfl⟩
  | evictBlocks => exact (evictBlocks_ok exact ran).2
  | resetPrefixCache =>
    cases ran
    exact (resetPrefixCache_ok exact).2

/-- In every state that calls of the pool reach, the map and the hashes of the blocks
agree, the map holds neither an empty dict nor the null block, and eviction finds every
block that has a hash. -/
theorem cached_map_agrees {numGpuBlocks hashBlockSize : Nat}
    {enableCaching enableKvCacheEvents : Bool} {hasher : BlockHasher H}
    {start reached : BlockPool H} {ops : List (PoolOp H)}
    (made : init numGpuBlocks enableCaching hashBlockSize enableKvCacheEvents hasher = .ok start)
    (ran : Run.run exec start ops = .ok reached) :
    (∀ b key, reached.blockHash b = some key ↔ b ∈ reached.cachedBlockHashToBlock key) ∧
    (∀ key, reached.cachedBlockHashToBlock.cache key ≠ some (.dict []) ∧
      nullBlock ∉ reached.cachedBlockHashToBlock key) ∧
    (∀ key b, reached.getOneBlock key = some b → reached.blockHash b = some key) ∧
    ∀ blocks, reached.NeverMissing blocks := by
  have any : Run.AllSteps exec (fun _ _ => True) start ops :=
    Run.allSteps_of_forall start (fun _ _ _ => trivial)
  have exact : reached.MapExact := Run.run_invariant MapExact
    (fun exact _ ran => exec_exact exact ran) (init_balanced made).2 any ran
  refine ⟨?_, ?_, ?_, exact.neverMissing⟩
  · intro b key
    exact ⟨exact.stored b key, exact.hashed key b⟩
  · intro key
    exact ⟨exact.filled key, exact.nullUncached key⟩
  · intro key b found
    rw [getOneBlock, BlockHashToBlockMap.getOneBlock_eq] at found
    exact exact.hashed key b (List.mem_of_mem_head? found)

def onePrompt : Request Nat :=
  Request.updateBlockHashes (some (decimalHasher 2 (by decide)))
    { requestId := "a", promptTokenIds := some [1, 2], numPromptTokens := 2, allTokenIds := [1, 2] }

/-- Two blocks under one key, of which one is evicted and the other handed out again. -/
def sharedHash : List (PoolOp Nat) :=
  [.getNewBlocks 2, .cacheFullBlocks onePrompt [1] 0 1 2 0, .cacheFullBlocks onePrompt [2] 0 1 2 0,
    .evictBlocks [1], .freeBlocks [1, 2], .getNewBlocks 1, .touch [2]]

theorem cached_map_agrees_shared_hash : ∃ start reached,
    (init 3 true 2 false (decimalHasher 2 (by decide)) : Py (BlockPool Nat)) = .ok start ∧
    Run.run exec start sharedHash = .ok reached ∧
    (reached.cachedBlockHashToBlock.cache ⟨onePrompt.blockHashes, 0⟩ = some (.dict [2])) ∧
    ∀ b key, reached.blockHash b = some key ↔ b ∈ reached.cachedBlockHashToBlock key := by
  have stored : (do
      let start ← init 3 true 2 false (decimalHasher 2 (by decide))
      let reached ← Run.run exec start sharedHash
      return reached.cachedBlockHashToBlock.cache ⟨onePrompt.blockHashes, 0⟩) =
      (.ok (some (.dict [2])) : Py (Option CachedBlocks)) := by
    decide +kernel
  obtain ⟨start, made, stored⟩ := bind_ok stored
  obtain ⟨reached, ran, stored⟩ := bind_ok stored
  exact ⟨start, reached, made, ran, Except.ok.inj stored, (cached_map_agrees made ran).1⟩

end BlockPool
end Vllm
