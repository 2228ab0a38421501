import Vllm.Hash.Keys

/-! The pool of KV-cache blocks: reference counts, the queue of free blocks in
eviction order, and the map from block hashes to cached blocks. A block is its id,
block 0 is the null block, and the metadata of the blocks is kept by id. Only the
bookkeeping is modelled, metrics are not. -/
namespace Vllm
open Function Option
variable {H : Type} [DecidableEq H]

abbrev BlockId := Nat

/-- `null_block`, the first block popped when the pool is built. -/
def nullBlock : BlockId := 0

/-- The hash of a block whose size is a multiple of the hashed size is the
concatenation of several digests. -/
abbrev BlockHash (H : Type) := List H

structure BlockHashWithGroupId (H : Type) where
  blockHash : BlockHash H
  groupId : Nat
  deriving DecidableEq

/-- `BlockHashList`: hashes at the granularity of `scaleFactor` hashed blocks. A plain
list has the factor 1. -/
structure BlockHashList (H : Type) where
  blockHashes : List H
  scaleFactor : Nat
  scaleFactor_pos : 0 < scaleFactor

namespace BlockHashList

def length (hashes : BlockHashList H) : Nat := hashes.blockHashes.length / hashes.scaleFactor

def getValueAt (hashes : BlockHashList H) (idx : Nat) : Py (BlockHash H) :=
  let base := idx * hashes.scaleFactor
  if base + hashes.scaleFactor ≤ hashes.blockHashes.length then
    .ok ((hashes.blockHashes.drop base).take hashes.scaleFactor)
  else .error (.indexError "list index out of range")

def valuesFrom (hashes : BlockHashList H) (start : Nat) : List (BlockHash H) :=
  (List.range' start (hashes.length - start)).map (fun idx =>
    (hashes.blockHashes.drop (idx * hashes.scaleFactor)).take hashes.scaleFactor)

end BlockHashList

/-- Events for consumers outside. Hashes appear as they are, before the optional
truncation to 64 bits. -/
inductive KVCacheEvent (H : Type) where
  | blockStored (blockHashes : List (BlockHash H)) (parentBlockHash : Option (BlockHash H))
      (tokenIds : List TokenId) (blockSize : Nat) (loraId : Option Nat) (medium : String)
      (loraName : Option String) (extraKeys : Option (List (Option (List (ExtraKey H)))))
  | blockRemoved (blockHashes : List (BlockHash H)) (medium : String)
  | allBlocksCleared

/-- What is stored under a key: one block, or a dict from block ids to blocks, as the
list of its ids in the order of their insertion. -/
inductive CachedBlocks where
  | single (block : BlockId)
  | dict (ids : List BlockId)
  deriving DecidableEq

def CachedBlocks.blocks : CachedBlocks → List BlockId
  | .single block => [block]
  | .dict ids => ids

structure BlockHashToBlockMap (H : Type) where
  cache : BlockHashWithGroupId H → Option CachedBlocks

namespace BlockHashToBlockMap

def empty : BlockHashToBlockMap H := ⟨fun _ => none⟩

/-- The blocks stored under a key, oldest first. -/
def blocks (map : BlockHashToBlockMap H) (key : BlockHashWithGroupId H) : List BlockId :=
  (map.cache key).elim [] CachedBlocks.blocks

instance : CoeFun (BlockHashToBlockMap H) (fun _ => BlockHashWithGroupId H → List BlockId) :=
  ⟨blocks⟩

section
variable (map : BlockHashToBlockMap H) (key : BlockHashWithGroupId H)

/-- On an empty dict the code would raise; none is ever stored. -/
def getOneBlock : Option BlockId :=
  match map.cache key with
  | none => none
  | some (.single block) => some block
  | some (.dict ids) => ids.head?

def insert (block : BlockId) : BlockHashToBlockMap H :=
  match map.cache key with
  | none => ⟨update map.cache key (some (.single block))⟩
  | some (.single other) => ⟨update map.cache key
      (some (.dict (if block = other then [other] else [other, block])))⟩
  | some (.dict ids) => ⟨update map.cache key
      (some (.dict (if block ∈ ids then ids else ids ++ [block])))⟩

def pop (blockId : BlockId) : Option BlockId × BlockHashToBlockMap H :=
  let popped : BlockHashToBlockMap H := ⟨update map.cache key none⟩
  match map.cache key with
  | none => (none, popped)
  | some (.single block) =>
    if block = blockId then (some block, popped)
    else (none, ⟨update popped.cache key (some (.single block))⟩)
  | some (.dict ids) =>
    let found := if blockId ∈ ids then some blockId else none
    let left := ids.erase blockId
    if left.length > 0 then (found, ⟨update popped.cache key (some (.dict left))⟩)
    else (found, popped)

end

omit [DecidableEq H] in
theorem getOneBlock_eq (map : BlockHashToBlockMap H) (key : BlockHashWithGroupId H) :
    map.getOneBlock key = (map key).head? := by
  unfold getOneBlock blocks
  cases map.cache key with
  | none => rfl
  | some stored => cases stored <;> rfl

variable (map : BlockHashToBlockMap H) (key other : BlockHashWithGroupId H) (block : BlockId)

theorem blocks_update
    (stored : Option CachedBlocks) : (⟨update map.cache key stored⟩ : BlockHashToBlockMap H) other =
      if other = key then stored.elim [] CachedBlocks.blocks else map other := by
  unfold blocks
  by_cases same : other = key
  · subst same
    simp
  · simp [same]

theorem blocks_insert : map.insert key block other =
      if other = key then (if block ∈ map key then map key else map key ++ [block])
      else map other := by
  have own : map key = (map.cache key).elim [] CachedBlocks.blocks := rfl
  rw [own]
  unfold insert
  split
  all_goals
    rename_i stored
    rw [blocks_update, stored]
    by_cases same : other = key
  · simp [same, CachedBlocks.blocks]
  · simp [same]
  · rename_i first
    by_cases again : block = first <;> simp [same, CachedBlocks.blocks, again]
  · simp [same]
  · rename_i ids
    by_cases mem : block ∈ ids <;> simp [same, CachedBlocks.blocks, mem]
  · simp [same]

theorem pop_fst : (map.pop key block).1 = if block ∈ map key then some block else none := by
  have own : map key = (map.cache key).elim [] CachedBlocks.blocks := rfl
  rw [own]
  unfold pop
  split
  · rename_i stored
    simp [stored]
  · rename_i only stored
    by_cases same : only = block
    · simp [stored, CachedBlocks.blocks, same]
    · simp [stored, CachedBlocks.blocks, same, Ne.symm same]
  · rename_i ids stored
    dsimp only
    split <;> simp [stored, CachedBlocks.blocks]

theorem blocks_pop : (map.pop key block).2 other =
      if other = key then (map key).erase block else map other := by
  have own : map key = (map.cache key).elim [] CachedBlocks.blocks := rfl
  rw [own]
  unfold pop
  split
  · rename_i stored
    rw [blocks_update, stored]
    rfl
  · rename_i only stored
    split
    · rename_i same
      rw [blocks_update, stored]
      simp [CachedBlocks.blocks, same]
    · rename_i ne
      rw [blocks_update, blocks_update, stored]
      by_cases same : other = key
      · simp [same, CachedBlocks.blocks, List.erase_cons_tail, ne]
      · simp [same]
  · rename_i ids stored
    dsimp only
    split
    · rw [blocks_update, blocks_update, stored]
      by_cases same : other = key <;> simp [same, CachedBlocks.blocks]
    · rename_i nothing
      have none : ids.erase block = [] := List.length_eq_zero_iff.mp (by omega)
      rw [blocks_update, stored]
      simp [CachedBlocks.blocks, none]

theorem update_filled {cache : BlockHashWithGroupId H → Option CachedBlocks}
    (filled : ∀ key, cache key ≠ some (.dict []))
    (nonempty : stored ≠ some (.dict [])) (key other : BlockHashWithGroupId H) :
    update cache key stored other ≠ some (.dict []) := by
  by_cases same : other = key
  · subst same
    rwa [update_self]
  · rw [update_of_ne same]
    exact filled other

/-- No call leaves an empty dict. -/
theorem insert_filled {map : BlockHashToBlockMap H} (filled : ∀ key, map.cache key ≠ some (.dict []))
    (key : BlockHashWithGroupId H) (block : BlockId) (other : BlockHashWithGroupId H) :
    (map.insert key block).cache other ≠ some (.dict []) := by
  unfold insert
  split
  all_goals
    refine update_filled filled ?_ key other
  · exact nofun
  · split <;> exact nofun
  · rename_i ids stored
    split
    · intro empty
      exact filled key (stored.trans empty)
    · simp

theorem pop_filled {map : BlockHashToBlockMap H} (filled : ∀ key, map.cache key ≠ some (.dict []))
    (key : BlockHashWithGroupId H) (block : BlockId) (other : BlockHashWithGroupId H) :
    (map.pop key block).2.cache other ≠ some (.dict []) := by
  have nothing : (none : Option CachedBlocks) ≠ some (.dict []) := nofun
  have popped : ∀ other, update map.cache key none other ≠ some (.dict []) :=
    update_filled filled nothing key
  unfold pop
  split
  · exact popped other
  · rename_i only _
    split
    · exact popped other
    · have nonempty : some (CachedBlocks.single only) ≠ some (.dict []) := nofun
      exact update_filled popped nonempty key other
  · dsimp only
    split
    · rename_i ids _ left
      have nonempty : some (CachedBlocks.dict (ids.erase block)) ≠ some (.dict []) := by
        intro empty
        rw [some.injEq, CachedBlocks.dict.injEq] at empty
        rw [empty] at left
        cases left
      exact update_filled popped nonempty key other
    · exact popped other

end BlockHashToBlockMap

/-- The queue of free blocks is the list that its links spell out, and
`numFreeBlocks` the counter kept beside it. -/
structure BlockPool (H : Type) where
  numGpuBlocks : Nat
  enableCaching : Bool
  hashBlockSize : Nat
  enableKvCacheEvents : Bool
  hasher : BlockHasher H
  refCnt : BlockId → Int
  blockHash : BlockId → Option (BlockHashWithGroupId H)
  freeBlockQueue : List BlockId
  numFreeBlocks : Int
  cachedBlockHashToBlock : BlockHashToBlockMap H
  kvEventQueue : List (KVCacheEvent H)

namespace BlockPool

def mediumGpu : String := "GPU"

variable (pool : BlockPool H) (req : Request H)

def init (numGpuBlocks : Nat) (enableCaching : Bool) (hashBlockSize : Nat)
    (enableKvCacheEvents : Bool) (hasher : BlockHasher H) : Py (BlockPool H) :=
  if 0 < numGpuBlocks then
    .ok {
      numGpuBlocks := numGpuBlocks
      enableCaching := enableCaching
      hashBlockSize := hashBlockSize
      enableKvCacheEvents := enableKvCacheEvents
      hasher := hasher
      refCnt := fun _ => 0
      blockHash := fun _ => none
      freeBlockQueue := List.range' 1 (numGpuBlocks - 1)
      numFreeBlocks := numGpuBlocks - 1
      cachedBlockHashToBlock := .empty
      kvEventQueue := [] }
  else .error (.assertionError "num_gpu_blocks > 0")

def getNumFreeBlocks : Int := pool.numFreeBlocks

def getOneBlock (pool : BlockPool H) (key : BlockHashWithGroupId H) : Option BlockId :=
  pool.cachedBlockHashToBlock.getOneBlock key

def getCachedBlock (blockHash : BlockHash H) (kvCacheGroupIds : List Nat) : Option (List BlockId) :=
  kvCacheGroupIds.mapM (fun groupId => pool.getOneBlock ⟨blockHash, groupId⟩)

/-- `FreeKVCacheBlockQueue.popleft_n`. A negative `n` pops nothing and raises the
counter. Past the last free block the code would hand out its list sentinel; the
model stops there. -/
def popleftN (n : Int) : Py (List BlockId × BlockPool H) :=
  if n = 0 then .ok ([], pool)
  else if pool.numFreeBlocks ≥ n then
    if n.toNat ≤ pool.freeBlockQueue.length then
      .ok (pool.freeBlockQueue.take n.toNat, { pool with
        freeBlockQueue := pool.freeBlockQueue.drop n.toNat
        numFreeBlocks := pool.numFreeBlocks - n })
    else .error (.runtimeError "the free list is shorter than num_free_blocks")
  else .error (.assertionError "self.num_free_blocks >= n")

def insertCached (key : BlockHashWithGroupId H) (block : BlockId) : BlockPool H :=
  { pool with cachedBlockHashToBlock := pool.cachedBlockHashToBlock.insert key block }

def maybeEvictCachedBlock (block : BlockId) : BlockPool H :=
  match pool.blockHash block with
  | none => pool
  | some key =>
    match pool.cachedBlockHashToBlock.pop key block with
    | (none, map) => { pool with cachedBlockHashToBlock := map }
    | (some _, map) =>
      { pool with
        cachedBlockHashToBlock := map
        blockHash := update pool.blockHash block none
        kvEventQueue := if pool.enableKvCacheEvents then
            pool.kvEventQueue ++ [.blockRemoved [key.blockHash] mediumGpu]
          else pool.kvEventQueue }

def takeBlocks (pool : BlockPool H) : List BlockId → Py (BlockPool H)
  | [] => .ok pool
  | block :: rest =>
    let evicted := if pool.enableCaching then pool.maybeEvictCachedBlock block else pool
    if evicted.refCnt block = 0 then
      takeBlocks { evicted with refCnt := update evicted.refCnt block 1 } rest
    else .error (.assertionError "block.ref_cnt == 0")

def getNewBlocks (numBlocks : Int) : Py (List BlockId × BlockPool H) :=
  if numBlocks > pool.getNumFreeBlocks then
    .error (.valueError s!"Cannot get {numBlocks} free blocks from the pool")
  else do
    let (blocks, popped) ← pool.popleftN numBlocks
    let taken ← popped.takeBlocks blocks
    return (blocks, taken)

def removeFree (block : BlockId) : Py (BlockPool H) :=
  if block ∈ pool.freeBlockQueue then
    .ok { pool with
      freeBlockQueue := pool.freeBlockQueue.erase block
      numFreeBlocks := pool.numFreeBlocks - 1 }
  else .error (.runtimeError s!"remove() called on an invalid block: {block}")

def unqueue (block : BlockId) : Py (BlockPool H) :=
  if pool.refCnt block = 0 ∧ block ≠ nullBlock then pool.removeFree block else .ok pool

def touchBlock (block : BlockId) : Py (BlockPool H) := do
  let removed ← pool.unqueue block
  return { removed with refCnt := update removed.refCnt block (removed.refCnt block + 1) }

def touch (pool : BlockPool H) : List BlockId → Py (BlockPool H)
  | [] => .ok pool
  | block :: rest => do
    let touched ← pool.touchBlock block
    touched.touch rest

def decrement (refCnt : BlockId → Int) : List BlockId → BlockId → Int
  | [] => refCnt
  | block :: rest => decrement (update refCnt block (refCnt block - 1)) rest

def freeBlocks (orderedBlocks : List BlockId) : BlockPool H :=
  let refCnt := decrement pool.refCnt orderedBlocks
  let freed := orderedBlocks.filter (fun block => refCnt block = 0 ∧ block ≠ nullBlock)
  { pool with
    refCnt := refCnt
    freeBlockQueue := pool.freeBlockQueue ++ freed
    numFreeBlocks := pool.numFreeBlocks + freed.length }

def evictBlocks (pool : BlockPool H) : List BlockId → Py (BlockPool H)
  | [] => .ok pool
  | blockId :: rest =>
    if blockId < pool.numGpuBlocks then evictBlocks (pool.maybeEvictCachedBlock blockId) rest
    else .error (.assertionError (s!"Invalid block_id {blockId} >= {pool.numGpuBlocks}. " ++
      "This indicates a bug in the KV connector - workers should " ++
      "only report block IDs that were allocated by the scheduler."))

/-- The null block always counts as used. -/
def resetPrefixCache : Bool × BlockPool H :=
  if pool.numGpuBlocks - pool.getNumFreeBlocks ≠ 1 then (false, pool)
  else (true, { pool with
    cachedBlockHashToBlock := .empty
    blockHash := fun _ => none
    kvEventQueue := if pool.enableKvCacheEvents then
        pool.kvEventQueue ++ [.allBlocksCleared]
      else pool.kvEventQueue })

/-- The hashes a group with blocks of `blockSize` tokens uses. -/
def blockHashList (blockHashes : List H) (blockSize : Nat) : Py (BlockHashList H) :=
  if blockSize = pool.hashBlockSize then .ok ⟨blockHashes, 1, Nat.one_pos⟩
  else if blockSize % pool.hashBlockSize = 0 then
    if pos : 0 < blockSize / pool.hashBlockSize then
      .ok ⟨blockHashes, blockSize / pool.hashBlockSize, pos⟩
    else .error (.runtimeError "integer division or modulo by zero")
  else .error (.assertionError "block_size % self.hash_block_size == 0")

/-- The loop of `cache_full_blocks`, with one hash for each block. Returns the hashes
of the blocks that were cached. -/
def cacheNewFullBlocks (pool : BlockPool H) (kvCacheGroupId : Nat) :
    List BlockId → List (BlockHash H) → Py (List (BlockHash H) × BlockPool H)
  | [], _ => .ok ([], pool)
  | block :: rest, hashes =>
    if block = nullBlock then cacheNewFullBlocks pool kvCacheGroupId rest hashes.tail
    else if pool.blockHash block = none then
      match hashes with
      | [] => .error (.indexError "list index out of range")
      | blockHash :: others => do
        let key : BlockHashWithGroupId H := ⟨blockHash, kvCacheGroupId⟩
        let cached := { pool with blockHash := update pool.blockHash block (some key) }
        let (newHashes, final) ←
          cacheNewFullBlocks (cached.insertCached key block) kvCacheGroupId rest others
        return (blockHash :: newHashes, final)
    else .error (.assertionError "blk.block_hash is None")

def eventExtraKeys (hasher : BlockHasher H) (req : Request H) (blockSize : Nat) :
    (blocks : List BlockId) → (i : Nat) → (currMmIdx : Int) → List (Option (List (ExtraKey H)))
  | [], _, _ => []
  | block :: rest, i, currMmIdx =>
    if block = nullBlock then eventExtraKeys hasher req blockSize rest (i + 1) currMmIdx
    else
      let (extraKeys, nextMmIdx) := generateBlockHashExtraKeys hasher req (i * blockSize)
        (i * blockSize + blockSize) currMmIdx
      extraKeys :: eventExtraKeys hasher req blockSize rest (i + 1) nextMmIdx

def storedEvent (blocks : List BlockId)
    (blockHashes : BlockHashList H) (newHashes : List (BlockHash H))
    (numCachedBlocks numFullBlocks blockSize : Nat) : Py (KVCacheEvent H) := do
  let parentBlockHash ← if numCachedBlocks = 0 then .ok none
    else some <$> blockHashes.getValueAt (numCachedBlocks - 1)
  if numFullBlocks ≤ blocks.length then
    let extraKeysList := eventExtraKeys pool.hasher req blockSize
      ((blocks.take numFullBlocks).drop numCachedBlocks) numCachedBlocks 0
    return .blockStored newHashes parentBlockHash
      (tokenSlice req.allTokenIds (numCachedBlocks * blockSize) (numFullBlocks * blockSize))
      blockSize (req.loraRequest.map (·.loraIntId)) mediumGpu
      (req.loraRequest.map (·.loraName))
      (if extraKeysList.isEmpty then none else some extraKeysList)
  else .error (.indexError "list index out of range")

def cacheFullBlocks (blocks : List BlockId)
    (numCachedBlocks numFullBlocks blockSize kvCacheGroupId : Nat) : Py (BlockPool H) :=
  if numCachedBlocks ≥ numFullBlocks then .ok pool
  else do
    Py.assert (numFullBlocks ≤ req.blockHashes.length)
      "len(request.block_hashes) >= num_full_blocks"
    let blockHashes ← pool.blockHashList req.blockHashes blockSize
    let (newHashes, cached) ← pool.cacheNewFullBlocks kvCacheGroupId
      ((blocks.take numFullBlocks).drop numCachedBlocks) (blockHashes.valuesFrom numCachedBlocks)
    if cached.enableKvCacheEvents then
      let event ← cached.storedEvent req blocks blockHashes newHashes numCachedBlocks
        numFullBlocks blockSize
      return { cached with kvEventQueue := cached.kvEventQueue ++ [event] }
    else return cached

end BlockPool

theorem four_pos : 0 < 4 := by decide

/-- Digests that spell out the tokens, for concrete runs with small tokens. -/
def decimalHasher (blockSize : Nat) (pos : 0 < blockSize) : BlockHasher Nat where
  blockSize := blockSize
  blockSize_pos := pos
  cachingHashFn := fun parent tokens _ =>
    tokens.foldl (fun digest token => 100 * digest + token.toNat) parent
  noneHash := 1
  sha256 := fun bytes => bytes.foldl (fun digest byte => 256 * digest + byte.toNat) 1

end Vllm
