import Vllm.KV.Window

/-! What the block pool keeps count of. The pool is balanced over `held`, the number
of places that hold each block, if its reference counts are these numbers and the
queue is the list of blocks nobody holds. Each operation changes `held` by the blocks
it hands out or takes back. -/
namespace Vllm
open List hiding next
open Function Py Option BlockHashToBlockMap
variable {H : Type} {blocks : List BlockId}

/-- No block but the null block occurs twice. -/
def DistinctBlocks (blocks : List BlockId) : Prop := ∀ b ≠ nullBlock, blocks.count b ≤ 1

theorem DistinctBlocks.sublist (distinct : DistinctBlocks blocks) (sub : part.Sublist blocks) :
    DistinctBlocks part :=
  fun b real => le_trans (sub.count_le b) (distinct b real)

namespace BlockPool
variable {block : BlockId} {key : BlockHashWithGroupId H} {pool after : BlockPool H}
  {held : BlockId → Nat}

structure Balanced (pool : BlockPool H) (held : BlockId → Nat) : Prop where
  counted : ∀ b ≠ nullBlock, pool.refCnt b = held b
  nodup : pool.freeBlockQueue.Nodup
  free : ∀ b, b ∈ pool.freeBlockQueue ↔ b ≠ nullBlock ∧ b < pool.numGpuBlocks ∧ pool.refCnt b = 0
  counter : pool.numFreeBlocks = pool.freeBlockQueue.length
  range : ∀ b ≠ nullBlock, pool.numGpuBlocks ≤ b → held b = 0

/-- A block is stored under a key iff the key is its hash. -/
structure MapExact (pool : BlockPool H) : Prop where
  hashed : ∀ key, ∀ b ∈ pool.cachedBlockHashToBlock key, pool.blockHash b = some key
  stored : ∀ b key, pool.blockHash b = some key → b ∈ pool.cachedBlockHashToBlock key
  nodup : ∀ key, (pool.cachedBlockHashToBlock key).Nodup
  nullUncached : pool.NullUncached
  filled : ∀ key, pool.cachedBlockHashToBlock.cache key ≠ some (.dict [])

theorem MapExact.cleared (empty : pool.cachedBlockHashToBlock = .empty)
    (unhashed : ∀ b, pool.blockHash b = none) : pool.MapExact := by
  constructor
  · intro key b mem
    rw [empty] at mem
    cases mem
  · intro b key hashed
    rw [unhashed b] at hashed
    cases hashed
  · intro key
    rw [empty]
    exact nodup_nil
  · intro key
    rw [empty]
    exact not_mem_nil
  · intro key
    rw [empty]
    exact nofun

theorem Balanced.congr (bal : pool.Balanced held)
    (same : ∀ b ≠ nullBlock, other b = held b) : pool.Balanced other where
  counted := fun b real => by rw [same b real]; exact bal.counted b real
  nodup := bal.nodup
  free := bal.free
  counter := bal.counter
  range := fun b real far => by rw [same b real]; exact bal.range b real far

structure SameCounts (pool after : BlockPool H) : Prop where
  refCnt : after.refCnt = pool.refCnt
  queue : after.freeBlockQueue = pool.freeBlockQueue
  counter : after.numFreeBlocks = pool.numFreeBlocks
  blocks : after.numGpuBlocks = pool.numGpuBlocks

theorem SameCounts.refl (pool : BlockPool H) : SameCounts pool pool := ⟨rfl, rfl, rfl, rfl⟩

theorem SameCounts.trans (first : SameCounts pool after)
    (second : SameCounts after last) : SameCounts pool last :=
  ⟨second.refCnt.trans first.refCnt, second.queue.trans first.queue,
    second.counter.trans first.counter, second.blocks.trans first.blocks⟩

theorem Balanced.same (bal : pool.Balanced held) (same : SameCounts pool after) :
    after.Balanced held where
  counted := by rw [same.refCnt]; exact bal.counted
  nodup := by rw [same.queue]; exact bal.nodup
  free := by rw [same.queue, same.refCnt, same.blocks]; exact bal.free
  counter := by rw [same.queue, same.counter]; exact bal.counter
  range := by rw [same.blocks]; exact bal.range

theorem init_balanced {numGpuBlocks hashBlockSize : Nat} {enableCaching enableKvCacheEvents : Bool}
    {hasher : BlockHasher H}
    (h : init numGpuBlocks enableCaching hashBlockSize enableKvCacheEvents hasher = .ok pool) :
    pool.Balanced (fun _ => 0) ∧ pool.MapExact := by
  unfold init at h
  split at h
  · rename_i pos
    cases h
    have queue : ∀ b : Nat, b ∈ range' 1 (numGpuBlocks - 1) ↔ b ≠ 0 ∧ b < numGpuBlocks := by
      intro b
      rw [mem_range'_1]
      omega
    refine ⟨⟨fun _ _ => rfl, nodup_range', ?_, ?_, fun _ _ _ => rfl⟩, .cleared rfl (fun _ => rfl)⟩
    · intro b
      rw [queue b]
      exact ⟨fun both => ⟨both.1, both.2, rfl⟩, fun all => ⟨all.1, all.2.1⟩⟩
    · simp only [length_range']
      omega
  · cases h

theorem resetPrefixCache_ok (agree : pool.MapExact) :
    SameCounts pool pool.resetPrefixCache.2 ∧ pool.resetPrefixCache.2.MapExact := by
  unfold resetPrefixCache
  split
  · exact ⟨SameCounts.refl pool, agree⟩
  · exact ⟨⟨rfl, rfl, rfl, rfl⟩, .cleared rfl (fun _ => rfl)⟩

section Evict
variable [DecidableEq H]

theorem maybeEvict_same (block : BlockId) : SameCounts pool (pool.maybeEvictCachedBlock block) := by
  unfold maybeEvictCachedBlock
  split
  · exact SameCounts.refl pool
  · split
    · exact ⟨rfl, rfl, rfl, rfl⟩
    · exact ⟨rfl, rfl, rfl, rfl⟩

/-- A block with a hash is found in the map, and evicted. -/
theorem MapExact.maybeEvict_eq (exact : pool.MapExact) (hashed : pool.blockHash block = some key) :
    pool.maybeEvictCachedBlock block = { pool with
      cachedBlockHashToBlock := (pool.cachedBlockHashToBlock.pop key block).2
      blockHash := update pool.blockHash block none
      kvEventQueue := if pool.enableKvCacheEvents then
          pool.kvEventQueue ++ [.blockRemoved [key.blockHash] mediumGpu]
        else pool.kvEventQueue } := by
  have found := pool.cachedBlockHashToBlock.pop_fst key block
  rw [if_pos (exact.stored block key hashed)] at found
  unfold maybeEvictCachedBlock
  rw [hashed]
  dsimp only
  split
  · rename_i missing
    rw [missing] at found
    cases found
  · rename_i popped
    rw [popped]

theorem maybeEvict_exact (exact : pool.MapExact) (block : BlockId) :
    (pool.maybeEvictCachedBlock block).MapExact := by
  cases hashed : pool.blockHash block with
  | none =>
    unfold maybeEvictCachedBlock
    rw [hashed]
    exact exact
  | some key =>
    rw [exact.maybeEvict_eq hashed]
    have left : ∀ other b, b ∈ (pool.cachedBlockHashToBlock.pop key block).2 other ↔
        b ∈ pool.cachedBlockHashToBlock other ∧ b ≠ block := by
      intro other b
      rw [blocks_pop]
      split
      · rename_i same
        subst same
        exact (exact.nodup other).mem_erase_iff.trans and_comm
      · rename_i ne
        refine (and_iff_left_of_imp ?_).symm
        rintro mem rfl
        have := exact.hashed other b mem
        rw [hashed] at this
        exact ne (some.inj this).symm
    constructor
    · intro other b mem
      obtain ⟨before, ne⟩ := (left other b).mp mem
      show update pool.blockHash block none b = _
      rw [update_of_ne ne]
      exact exact.hashed other b before
    · intro b other still
      dsimp only at still
      have ne : b ≠ block := by
        rintro rfl
        rw [update_self] at still
        cases still
      rw [update_of_ne ne] at still
      exact (left other b).mpr ⟨exact.stored b other still, ne⟩
    · intro other
      show ((pool.cachedBlockHashToBlock.pop key block).2 other).Nodup
      rw [blocks_pop]
      split
      · exact (exact.nodup key).erase block
      · exact exact.nodup other
    · intro other mem
      exact exact.nullUncached other ((left other nullBlock).mp mem).1
    · exact pop_filled exact.filled key block

theorem evictBlocks_ok (agree : pool.MapExact) (h : pool.evictBlocks blockIds = .ok after) :
    SameCounts pool after ∧ after.MapExact := by
  induction blockIds generalizing pool with
  | nil =>
    cases h
    exact ⟨SameCounts.refl _, agree⟩
  | cons block rest ih =>
    unfold evictBlocks at h
    split at h
    · obtain ⟨same, hashes⟩ := ih (maybeEvict_exact agree block) h
      exact ⟨(maybeEvict_same block).trans same, hashes⟩
    · cases h

end Evict

theorem removeFree_ok (h : pool.removeFree block = .ok after) :
    block ∈ pool.freeBlockQueue ∧ after = { pool with
      freeBlockQueue := pool.freeBlockQueue.erase block
      numFreeBlocks := pool.numFreeBlocks - 1 } := by
  unfold removeFree at h
  split at h
  · rename_i mem
    cases h
    exact ⟨mem, rfl⟩
  · cases h

theorem touchBlock_balanced (bal : pool.Balanced held)
    (h : pool.touchBlock block = .ok after) :
    after.Balanced (fun b => held b + [block].count b) := by
  obtain ⟨removed, left, final⟩ := bind_ok h
  cases final
  have others : ∀ b, b ≠ block → held b + [block].count b = held b := by
    intro b ne
    rw [count_singleton, beq_false_of_ne (Ne.symm ne)]
    rfl
  have counted : ∀ b ≠ nullBlock, removed.refCnt = pool.refCnt →
      update removed.refCnt block (removed.refCnt block + 1) b =
        ((held b + [block].count b : Nat) : Int) := by
    intro b real same
    rw [same]
    by_cases this : b = block
    · subst this
      rw [update_self, bal.counted b real, count_singleton_self]
      rfl
    · rw [update_of_ne this, bal.counted b real, others b this]
  unfold unqueue at left
  split at left
  · rename_i idle
    obtain ⟨mem, rfl⟩ := removeFree_ok left
    have inside := ((bal.free block).mp mem).2.1
    refine ⟨fun b real => counted b real rfl, bal.nodup.erase block, ?_, ?_, ?_⟩
    · intro b
      show b ∈ pool.freeBlockQueue.erase block ↔ b ≠ nullBlock ∧ b < pool.numGpuBlocks ∧
        update pool.refCnt block (pool.refCnt block + 1) b = 0
      rw [bal.nodup.mem_erase_iff, bal.free b]
      by_cases this : b = block
      · subst this
        rw [update_self, idle.1]
        simp
      · rw [update_of_ne this]
        simp [this]
    · show pool.numFreeBlocks - 1 = _
      rw [bal.counter, length_erase_of_mem mem]
      have := length_pos_of_mem mem
      omega
    · intro b real far
      have ne : b ≠ block := by
        rintro rfl
        exact absurd inside (Nat.not_lt.mpr far)
      rw [others b ne]
      exact bal.range b real far
  · rename_i busy
    cases left
    refine ⟨fun b real => counted b real rfl, bal.nodup, ?_, bal.counter, ?_⟩
    · intro b
      show b ∈ pool.freeBlockQueue ↔ b ≠ nullBlock ∧ b < pool.numGpuBlocks ∧
        update pool.refCnt block (pool.refCnt block + 1) b = 0
      rw [bal.free b]
      by_cases this : b = block
      · subst this
        rw [update_self]
        constructor
        · intro all
          exact absurd ⟨all.2.2, all.1⟩ busy
        · rintro ⟨real, _, zero⟩
          have := bal.counted b real
          omega
      · rw [update_of_ne this]
    · intro b real far
      have unheld := bal.range b real far
      have ne : b ≠ block := by
        rintro rfl
        refine busy ⟨?_, real⟩
        rw [bal.counted b real, unheld]
        rfl
      rw [others b ne, unheld]

theorem touch_balanced (bal : pool.Balanced held) (h : pool.touch blocks = .ok after) :
    after.Balanced (fun b => held b + blocks.count b) := by
  induction blocks generalizing pool held with
  | nil =>
    cases h
    exact bal
  | cons block rest ih =>
    obtain ⟨_, one, later⟩ := bind_ok h
    refine (ih (touchBlock_balanced bal one) later).congr ?_
    intro b _
    rw [count_cons, count_singleton]
    omega

structure SameHashes (pool after : BlockPool H) : Prop where
  cached : after.cachedBlockHashToBlock = pool.cachedBlockHashToBlock
  hashes : after.blockHash = pool.blockHash

theorem MapExact.same (exact : pool.MapExact) (same : SameHashes pool after) : after.MapExact := by
  constructor
  · rw [same.cached, same.hashes]
    exact exact.hashed
  · rw [same.cached, same.hashes]
    exact exact.stored
  · rw [same.cached]
    exact exact.nodup
  · unfold NullUncached
    rw [same.cached]
    exact exact.nullUncached
  · rw [same.cached]
    exact exact.filled

theorem touch_hashes (h : pool.touch blocks = .ok after) : SameHashes pool after := by
  induction blocks generalizing pool with
  | nil =>
    cases h
    exact ⟨rfl, rfl⟩
  | cons block rest ih =>
    obtain ⟨_, one, later⟩ := bind_ok h
    obtain ⟨removed, left, final⟩ := bind_ok one
    cases final
    have first : SameHashes pool removed := by
      unfold unqueue at left
      split at left
      · obtain ⟨_, rfl⟩ := removeFree_ok left
        exact ⟨rfl, rfl⟩
      · cases left
        exact ⟨rfl, rfl⟩
    have rest := ih later
    exact ⟨rest.cached.trans first.cached, rest.hashes.trans first.hashes⟩

theorem decrement_apply (refCnt : BlockId → Int) (blocks : List BlockId) (b : BlockId) :
    decrement refCnt blocks b = refCnt b - blocks.count b := by
  induction blocks generalizing refCnt with
  | nil => simp [decrement]
  | cons block rest ih =>
    unfold decrement
    rw [ih, count_cons]
    by_cases same : b = block
    · subst same
      rw [update_self, beq_self_eq_true, if_pos rfl]
      omega
    · rw [update_of_ne same, beq_false_of_ne (Ne.symm same)]
      simp

theorem freeBlocks_balanced (distinct : DistinctBlocks blocks)
    (bal : pool.Balanced (fun b => held b + blocks.count b)) :
    (pool.freeBlocks blocks).Balanced held := by
  have counts : ∀ b ≠ nullBlock, decrement pool.refCnt blocks b = held b := by
    intro b real
    rw [decrement_apply, bal.counted b real]
    omega
  have held_of_mem : ∀ b ≠ nullBlock, b ∈ blocks → pool.refCnt b ≠ 0 := by
    intro b real mem
    rw [bal.counted b real]
    have := count_pos_iff.mpr mem
    omega
  refine ⟨counts, ?_, ?_, ?_, ?_⟩
  · refine nodup_append.mpr ⟨bal.nodup, ?_, ?_⟩
    · refine nodup_iff_count_le_one.mpr (fun b => ?_)
      by_cases null : b = nullBlock
      · subst null
        rw [count_eq_zero_of_not_mem (by simp)]
        exact Nat.zero_le 1
      · exact le_trans (filter_sublist.count_le b) (distinct b null)
    · rintro b queued _ freed rfl
      obtain ⟨mem, _⟩ := mem_filter.mp freed
      obtain ⟨real, _, zero⟩ := (bal.free b).mp queued
      exact held_of_mem b real mem zero
  · intro b
    show b ∈ pool.freeBlockQueue ++ _ ↔ b ≠ nullBlock ∧ b < pool.numGpuBlocks ∧
      decrement pool.refCnt blocks b = 0
    rw [mem_append, mem_filter, bal.free b, decide_eq_true_eq]
    constructor
    · rintro (⟨real, bound, zero⟩ | ⟨mem, zero, real⟩)
      · refine ⟨real, bound, ?_⟩
        have := bal.counted b real
        rw [counts b real]
        omega
      · refine ⟨real, ?_, zero⟩
        by_contra far
        have := bal.range b real (Nat.not_lt.mp far)
        have := count_pos_iff.mpr mem
        omega
    · rintro ⟨real, bound, zero⟩
      by_cases mem : b ∈ blocks
      · exact .inr ⟨mem, zero, real⟩
      · refine .inl ⟨real, bound, ?_⟩
        rw [decrement_apply, count_eq_zero_of_not_mem mem] at zero
        simpa using zero
  · show pool.numFreeBlocks + _ = ((pool.freeBlockQueue ++ _ : List BlockId).length : Int)
    rw [bal.counter, length_append, Int.natCast_add]
  · intro b real far
    have := bal.range b real far
    omega

theorem popleftN_ok (h : pool.popleftN n = .ok (blocks, after)) :
    n.toNat ≤ pool.freeBlockQueue.length ∧ blocks = pool.freeBlockQueue.take n.toNat ∧
      after = { pool with
        freeBlockQueue := pool.freeBlockQueue.drop n.toNat
        numFreeBlocks := pool.numFreeBlocks - n } := by
  unfold popleftN at h
  split at h
  · rename_i zero
    cases h
    subst zero
    exact ⟨Nat.zero_le _, rfl, by simp⟩
  · split at h
    · split at h
      · rename_i enough
        cases h
        exact ⟨enough, rfl, rfl⟩
      · cases h
    · cases h

section New
variable [DecidableEq H] {numBlocks : Int}

structure Claimed (pool : BlockPool H) (blocks : List BlockId) (after : BlockPool H) : Prop where
  queue : after.freeBlockQueue = pool.freeBlockQueue
  counter : after.numFreeBlocks = pool.numFreeBlocks
  numBlocks : after.numGpuBlocks = pool.numGpuBlocks
  unheld : ∀ b ∈ blocks, pool.refCnt b = 0
  refCnt : ∀ b, after.refCnt b = if b ∈ blocks then 1 else pool.refCnt b
  hashes : pool.MapExact → after.MapExact

theorem takeBlocks_ok (taken : pool.takeBlocks blocks = .ok after) : Claimed pool blocks after := by
  induction blocks generalizing pool with
  | nil =>
    cases taken
    exact ⟨rfl, rfl, rfl, fun _ mem => absurd mem not_mem_nil, fun b => by simp, id⟩
  | cons block rest ih =>
    unfold takeBlocks at taken
    dsimp only at taken
    have evicted : SameCounts pool
          (if pool.enableCaching then pool.maybeEvictCachedBlock block else pool) ∧
        (pool.MapExact →
          (if pool.enableCaching then pool.maybeEvictCachedBlock block else pool).MapExact) := by
      split
      · exact ⟨maybeEvict_same block, fun agree => maybeEvict_exact agree block⟩
      · exact ⟨SameCounts.refl pool, id⟩
    generalize (if pool.enableCaching then pool.maybeEvictCachedBlock block else pool) = next
      at taken evicted
    obtain ⟨same, agrees⟩ := evicted
    split at taken
    · rename_i zero
      obtain ⟨queue, counter, numBlocks, unheld, refCnt, hashes⟩ := ih taken
      dsimp only at unheld refCnt
      have fresh : block ∉ rest := by
        intro mem
        have := unheld block mem
        rw [update_self] at this
        cases this
      refine ⟨queue.trans same.queue, counter.trans same.counter, numBlocks.trans same.blocks,
        ?_, ?_, fun agree => hashes ((agrees agree).same ⟨rfl, rfl⟩)⟩
      · intro b mem
        rcases mem_cons.mp mem with rfl | mem
        · rw [← same.refCnt]
          exact zero
        · have := unheld b mem
          have ne : b ≠ block := fun h => fresh (h ▸ mem)
          rw [update_of_ne ne, same.refCnt] at this
          exact this
      · intro b
        rw [refCnt b]
        by_cases this : b = block
        · subst this
          simp [fresh]
        · simp [same.refCnt, this]
    · cases taken

theorem getNewBlocks_ok (got : pool.getNewBlocks numBlocks = .ok (blocks, after)) :
    numBlocks.toNat ≤ pool.freeBlockQueue.length ∧
      blocks = pool.freeBlockQueue.take numBlocks.toNat ∧ Claimed { pool with
        freeBlockQueue := pool.freeBlockQueue.drop numBlocks.toNat
        numFreeBlocks := pool.numFreeBlocks - numBlocks } blocks after := by
  unfold getNewBlocks at got
  split at got
  · cases got
  · obtain ⟨⟨_, _⟩, first, got⟩ := bind_ok got
    obtain ⟨_, second, final⟩ := bind_ok got
    cases final
    obtain ⟨bound, rfl, rfl⟩ := popleftN_ok first
    exact ⟨bound, rfl, takeBlocks_ok second⟩

theorem getNewBlocks_balanced (nonneg : 0 ≤ numBlocks) (bal : pool.Balanced held)
    (got : pool.getNewBlocks numBlocks = .ok (blocks, after)) :
    after.Balanced (fun b => held b + blocks.count b) ∧ blocks.Nodup ∧
      (∀ b ∈ blocks, b ≠ nullBlock ∧ held b = 0) ∧ (blocks.length : Int) = numBlocks := by
  obtain ⟨bound, rfl, claimed⟩ := getNewBlocks_ok got
  have parts := take_append_drop numBlocks.toNat pool.freeBlockQueue
  have nodup := bal.nodup
  rw [← parts] at nodup
  obtain ⟨front, back, apart⟩ := nodup_append.mp nodup
  have idle : ∀ b ∈ pool.freeBlockQueue.take numBlocks.toNat, b ≠ nullBlock ∧ held b = 0 ∧
      b < pool.numGpuBlocks := by
    intro b mem
    obtain ⟨real, inside, zero⟩ := (bal.free b).mp (mem_of_mem_take mem)
    have := bal.counted b real
    exact ⟨real, by omega, inside⟩
  have count : ∀ b, (pool.freeBlockQueue.take numBlocks.toNat).count b =
      if b ∈ pool.freeBlockQueue.take numBlocks.toNat then 1 else 0 := fun b => front.count
  refine ⟨⟨?_, ?_, ?_, ?_, ?_⟩, front, fun b mem => ⟨(idle b mem).1, (idle b mem).2.1⟩, ?_⟩
  · intro b real
    rw [claimed.refCnt b, count b]
    split
    · rename_i mem
      rw [(idle b mem).2.1]
      rfl
    · exact bal.counted b real
  · rw [claimed.queue]
    exact back
  · intro b
    rw [claimed.queue, claimed.numBlocks, claimed.refCnt b]
    show b ∈ pool.freeBlockQueue.drop numBlocks.toNat ↔ b ≠ nullBlock ∧ b < pool.numGpuBlocks ∧
      (if b ∈ pool.freeBlockQueue.take numBlocks.toNat then (1 : Int) else pool.refCnt b) = 0
    constructor
    · intro mem
      have all := (bal.free b).mp (mem_of_mem_drop mem)
      rw [if_neg (fun taken => apart b taken b mem rfl)]
      exact all
    · rintro ⟨real, inside, zero⟩
      split at zero
      · cases zero
      · rename_i left
        have queued := (bal.free b).mpr ⟨real, inside, zero⟩
        rw [← parts] at queued
        exact (mem_append.mp queued).resolve_left left
  · rw [claimed.counter, claimed.queue]
    show pool.numFreeBlocks - numBlocks = ((pool.freeBlockQueue.drop numBlocks.toNat).length : Int)
    rw [bal.counter, length_drop]
    omega
  · intro b real far
    rw [claimed.numBlocks] at far
    have left : b ∉ pool.freeBlockQueue.take numBlocks.toNat :=
      fun mem => absurd (idle b mem).2.2 (Nat.not_lt.mpr far)
    rw [count b, if_neg left]
    exact bal.range b real far
  · rw [length_take, min_eq_left bound]
    omega

theorem getNewBlocks_hashes (agree : pool.MapExact)
    (got : pool.getNewBlocks numBlocks = .ok (blocks, after)) : after.MapExact :=
  (getNewBlocks_ok got).2.2.hashes (agree.same ⟨rfl, rfl⟩)

end New

variable [DecidableEq H]

/-- A block without a hash gets the key it is stored under. -/
theorem insertCached_exact (exact : pool.MapExact) (real : block ≠ nullBlock)
    (unhashed : pool.blockHash block = none) :
    ({ pool with blockHash := update pool.blockHash block (some key) }.insertCached key
      block).MapExact := by
  have unstored : ∀ other, block ∉ pool.cachedBlockHashToBlock other := by
    intro other mem
    have := exact.hashed other block mem
    rw [unhashed] at this
    cases this
  have inserted : ∀ other, pool.cachedBlockHashToBlock.insert key block other =
      if other = key then pool.cachedBlockHashToBlock key ++ [block]
      else pool.cachedBlockHashToBlock other := by
    intro other
    rw [blocks_insert, if_neg (unstored key)]
  have mem_inserted : ∀ other b, b ∈ pool.cachedBlockHashToBlock.insert key block other ↔
      b ∈ pool.cachedBlockHashToBlock other ∨ b = block ∧ other = key := by
    intro other b
    rw [inserted]
    by_cases same : other = key <;> simp [same]
  unfold insertCached
  constructor
  · intro other b mem
    show update pool.blockHash block (some key) b = some other
    rcases (mem_inserted other b).mp mem with old | ⟨rfl, rfl⟩
    · have ne : b ≠ block := fun same => unstored other (same ▸ old)
      rw [update_of_ne ne]
      exact exact.hashed other b old
    · exact update_self ..
  · intro b other hashed
    dsimp only at hashed
    refine (mem_inserted other b).mpr ?_
    by_cases this : b = block
    · subst this
      rw [update_self] at hashed
      exact .inr ⟨rfl, (some.inj hashed).symm⟩
    · rw [update_of_ne this] at hashed
      exact .inl (exact.stored b other hashed)
  · intro other
    rw [inserted]
    split
    · refine nodup_append.mpr ⟨exact.nodup key, nodup_singleton _, ?_⟩
      rintro b mem _ new rfl
      rw [mem_singleton.mp new] at mem
      exact unstored key mem
    · exact exact.nodup other
  · intro other mem
    rcases (mem_inserted other nullBlock).mp mem with old | ⟨same, _⟩
    · exact exact.nullUncached other old
    · exact real same.symm
  · exact insert_filled exact.filled key block

theorem cacheNewFullBlocks_ok (agree : pool.MapExact)
    (h : pool.cacheNewFullBlocks kvCacheGroupId blocks hashes = .ok (newHashes, after)) :
    SameCounts pool after ∧ after.MapExact := by
  induction blocks generalizing pool hashes newHashes with
  | nil =>
    cases h
    exact ⟨SameCounts.refl _, agree⟩
  | cons block rest ih =>
    unfold cacheNewFullBlocks at h
    split at h
    · exact ih agree h
    · rename_i real
      split at h
      · rename_i unhashed
        split at h
        · cases h
        · obtain ⟨⟨_, _⟩, next, result⟩ := bind_ok h
          cases result
          obtain ⟨same, agrees⟩ := ih (insertCached_exact agree real unhashed) next
          exact ⟨{ same with }, agrees⟩
      · cases h

theorem cacheFullBlocks_ok (agree : pool.MapExact)
    (h : pool.cacheFullBlocks req blocks numCachedBlocks numFullBlocks blockSize
      kvCacheGroupId = .ok after) : SameCounts pool after ∧ after.MapExact := by
  unfold cacheFullBlocks at h
  split at h
  · cases h
    exact ⟨SameCounts.refl _, agree⟩
  · obtain ⟨_, h⟩ := assert_bind_ok h
    obtain ⟨_, _, h⟩ := bind_ok h
    obtain ⟨⟨_, _⟩, inserted, h⟩ := bind_ok h
    obtain ⟨same, agrees⟩ := cacheNewFullBlocks_ok agree inserted
    dsimp only at h
    split at h
    · obtain ⟨_, _, final⟩ := bind_ok h
      cases final
      exact ⟨same.trans ⟨rfl, rfl, rfl, rfl⟩, agrees.same ⟨rfl, rfl⟩⟩
    · cases h
      exact ⟨same, agrees⟩

end BlockPool
end Vllm
