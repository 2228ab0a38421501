import Vllm.KV.Accounting
import Vllm.KV.Manager

/-! How the operations of one manager change its block tables and the pool. The pool
counts the blocks in the tables of the manager, next to the blocks that the other
managers hold (`rest`); every operation keeps that. -/
namespace Vllm
open List hiding next
open Py Dict BlockPool
variable {H : Type}

namespace SingleTypeKVCacheManager
variable {blocks newBlocks : List BlockId} {numTokens : Int}

section
variable (rest : BlockId → Nat) (mgr : SingleTypeKVCacheManager H)

def held (b : BlockId) : Nat :=
  mgr.reqToBlocks.total (fun blocks => blocks.count b)

def heldByOthers (requestId : String) (b : BlockId) : Nat :=
  (mgr.reqToBlocks.erase requestId).total (fun blocks => blocks.count b)

/-- No table lists a block twice, and a Mamba table with speculative blocks has all
of them. -/
structure Ok : Prop where
  distinct : ∀ requestId, DistinctBlocks (mgr.blocksOf requestId)
  speculative : ∀ spec, mgr.kvCacheSpec = .mamba spec → spec.mambaCacheMode = .align →
    ∀ requestId ∈ mgr.allocatedBlockReqs,
      spec.numSpeculativeBlocks ≤ (mgr.blocksOf requestId).length

/-- The pool counts the blocks of the manager and those in `rest`. -/
structure Accounted (pool : BlockPool H) : Prop where
  balanced : pool.Balanced (fun b => rest b + mgr.held b)
  hashes : pool.MapExact
  ok : mgr.Ok

/-- The format and the parameters of a manager never change. -/
structure SameFormat (after : SingleTypeKVCacheManager H) : Prop where
  spec : after.kvCacheSpec = mgr.kvCacheSpec
  blockSize : after.blockSize = mgr.blockSize
  enableCaching : after.enableCaching = mgr.enableCaching

end

theorem SameFormat.trans {after : SingleTypeKVCacheManager H} (first : SameFormat mgr middle)
    (second : SameFormat middle after) : SameFormat mgr after :=
  ⟨second.spec.trans first.spec, second.blockSize.trans first.blockSize,
    second.enableCaching.trans first.enableCaching⟩

variable {mgr after : SingleTypeKVCacheManager H} {requestId : String}
  {pool next : BlockPool H} {rest : BlockId → Nat}

theorem held_eq (mgr : SingleTypeKVCacheManager H) (requestId : String) (b : BlockId) :
    mgr.held b = mgr.heldByOthers requestId b + (mgr.blocksOf requestId).count b := by
  have split := total_erase mgr.reqToBlocks requestId (fun blocks => blocks.count b)
  unfold held heldByOthers blocksOf
  rw [← split]
  cases mgr.reqToBlocks.get? requestId <;> rfl

theorem held_set (tables : after.reqToBlocks = mgr.reqToBlocks.set requestId blocks)
    (b : BlockId) : after.held b = mgr.heldByOthers requestId b + blocks.count b := by
  have split := total_erase mgr.reqToBlocks requestId (fun blocks => blocks.count b)
  have sets := total_set mgr.reqToBlocks requestId blocks (fun blocks => blocks.count b)
  unfold held heldByOthers
  rw [tables]
  omega

theorem blocksOf_set (tables : after.reqToBlocks = mgr.reqToBlocks.set requestId blocks)
    (other : String) :
    after.blocksOf other = if other = requestId then blocks else mgr.blocksOf other := by
  unfold blocksOf
  rw [tables, get?_set]
  split <;> rfl

section
variable (acc : Accounted rest mgr pool)
include acc

theorem Accounted.table {next : BlockPool H}
    (tables : after.reqToBlocks = mgr.reqToBlocks.set requestId blocks)
    (bal : next.Balanced (fun b => rest b + mgr.heldByOthers requestId b + blocks.count b))
    (hashes : next.MapExact) (distinct : DistinctBlocks blocks)
    (format : after.kvCacheSpec = mgr.kvCacheSpec)
    (allocated : after.allocatedBlockReqs = mgr.allocatedBlockReqs)
    (longer : (mgr.blocksOf requestId).length ≤ blocks.length) : Accounted rest after next := by
  refine ⟨bal.congr ?_, hashes, ?_, ?_⟩
  · intro b _
    rw [held_set tables b, add_assoc]
  · intro other
    rw [blocksOf_set tables]
    split
    · exact distinct
    · exact acc.ok.distinct other
  · intro spec mamba align other mem
    rw [format] at mamba
    rw [allocated] at mem
    have enough := acc.ok.speculative spec mamba align other mem
    rw [blocksOf_set tables]
    split
    · rename_i same
      subst same
      exact le_trans enough longer
    · exact enough

theorem Accounted.split (requestId : String) :
    pool.Balanced (fun b => rest b + mgr.heldByOthers requestId b +
      (mgr.blocksOf requestId).count b) := by
  refine acc.balanced.congr (fun b _ => ?_)
  rw [held_eq mgr requestId b, add_assoc]

theorem Accounted.touchBlocks {next : BlockPool H}
    (same : BlockPool.SameCounts pool next) (hashes : next.MapExact)
    (tables : after.reqToBlocks = mgr.reqToBlocks.set requestId (mgr.blocksOf requestId))
    (format : after.kvCacheSpec = mgr.kvCacheSpec)
    (allocated : after.allocatedBlockReqs = mgr.allocatedBlockReqs) :
    Accounted rest after next :=
  acc.table tables ((acc.split requestId).same same) hashes
    (acc.ok.distinct requestId) format allocated (le_refl _)

end

theorem append_distinct {held : BlockId → Nat}
    (distinct : DistinctBlocks blocks) (nodup : new.Nodup)
    (fresh : ∀ b ∈ new, b ≠ nullBlock ∧ held b + blocks.count b = 0) :
    DistinctBlocks (blocks ++ new) := by
  intro b real
  rw [count_append]
  by_cases mem : b ∈ new
  · have := (fresh b mem).2
    have := nodup_iff_count_le_one.mp nodup b
    omega
  · rw [count_eq_zero_of_not_mem mem]
    exact distinct b real

theorem count_set_null (inside : i < blocks.length) (real : b ≠ nullBlock) :
    (blocks.set i nullBlock).count b + [blocks[i]].count b = blocks.count b := by
  have null : (nullBlock == b) = false := beq_false_of_ne (symm real)
  have found : blocks[i] = b → 0 < blocks.count b := by
    rintro rfl
    exact count_pos_iff.mpr (getElem_mem inside)
  rw [count_set inside, null]
  by_cases same : blocks[i] = b
  · have := found same
    simp only [same, beq_self_eq_true]
    simp
    omega
  · simp [same]

namespace Base

theorem touchComputed_ok {enableCaching : Bool} {held : BlockId → Nat}
    (bal : pool.Balanced held) (hashes : pool.MapExact)
    (h : touchComputed enableCaching pool blocks = .ok next) :
    next.Balanced (fun b => held b + blocks.count b) ∧ next.MapExact := by
  unfold touchComputed at h
  split at h
  · exact ⟨touch_balanced bal h, hashes.same (touch_hashes h)⟩
  · split at h
    · rename_i empty
      cases h
      rw [List.isEmpty_iff.mp empty]
      exact ⟨bal, hashes⟩
    · cases h

theorem kept_length (numSkipped : Int) (hits : List BlockId) :
    ((replicate numSkipped.toNat nullBlock ++
      keptComputedBlocks numSkipped hits).length : Int) =
      max numSkipped hits.length := by
  unfold keptComputedBlocks
  rw [length_append, length_replicate]
  split
  · rw [length_drop]
    omega
  · omega

theorem kept_distinct (numSkipped : Int) (distinct : DistinctBlocks hits) :
    DistinctBlocks (keptComputedBlocks numSkipped hits) := by
  unfold keptComputedBlocks
  split
  · exact distinct.sublist (drop_sublist ..)
  · exact distinct

theorem removeLoop_counts (blocks : List BlockId) (count : Nat) :
    (removeLoop blocks count).2.length = blocks.length ∧ ∀ b ≠ nullBlock,
      (removeLoop blocks count).2.count b + (removeLoop blocks count).1.count b =
        blocks.count b := by
  induction count generalizing blocks with
  | zero => exact ⟨rfl, fun b _ => rfl⟩
  | succ i ih =>
    unfold removeLoop
    dsimp only
    split
    · exact ⟨rfl, fun b _ => rfl⟩
    · rename_i real
      obtain ⟨length, counts⟩ := ih (blocks.set i nullBlock)
      refine ⟨length.trans (length_set ..), ?_⟩
      intro b other
      have inside : i < blocks.length := by
        by_contra far
        rw [getD_eq_default _ _ (Nat.not_lt.mp far)] at real
        exact real rfl
      dsimp only
      rw [getD_eq_getElem _ _ inside, count_cons, ← count_singleton]
      have before := counts b other
      have placed := count_set_null inside other
      omega

theorem removeSkippedBlocks_accounted (acc : Accounted rest mgr pool)
    (requestId : String) (numTotal : Int) :
    Accounted rest (removeSkippedBlocks mgr pool requestId numTotal).1
      (removeSkippedBlocks mgr pool requestId numTotal).2 ∧
      SameFormat mgr (removeSkippedBlocks mgr pool requestId numTotal).1 := by
  unfold removeSkippedBlocks
  dsimp only
  split
  · exact ⟨acc, ⟨rfl, rfl, rfl⟩⟩
  · generalize (min (mgr.getNumSkippedTokens numTotal / (mgr.blockSize : Int))
      ((mgr.blocksOf requestId).length : Int)).toNat = count
    obtain ⟨length, counts⟩ := removeLoop_counts (mgr.blocksOf requestId) count
    have distinct := acc.ok.distinct requestId
    have removed : DistinctBlocks (removeLoop (mgr.blocksOf requestId) count).1 := by
      intro b real
      have := counts b real
      have := distinct b real
      omega
    have stays : DistinctBlocks (removeLoop (mgr.blocksOf requestId) count).2 := by
      intro b real
      have := counts b real
      have := distinct b real
      omega
    refine ⟨acc.table rfl (freeBlocks_balanced removed ?_)
      (acc.hashes.same ⟨rfl, rfl⟩) stays rfl rfl (le_of_eq length.symm), ⟨rfl, rfl, rfl⟩⟩
    refine (acc.split requestId).congr (fun b real => ?_)
    have := counts b real
    omega

theorem free_accounted (acc : Accounted rest mgr pool)
    (unlisted : ∀ spec, mgr.kvCacheSpec = .mamba spec → spec.mambaCacheMode = .align →
      requestId ∉ mgr.allocatedBlockReqs) :
    Accounted rest (free mgr pool requestId).1 (free mgr pool requestId).2 ∧
      SameFormat mgr (free mgr pool requestId).1 := by
  have distinct := acc.ok.distinct requestId
  have tables : ∀ other, (free mgr pool requestId).1.blocksOf other =
      if other = requestId then [] else mgr.blocksOf other := by
    intro other
    unfold free blocksOf
    rw [get?_erase]
    split <;> rfl
  refine ⟨⟨freeBlocks_balanced ?_ ?_, acc.hashes.same ⟨rfl, rfl⟩, ?_, ?_⟩, ⟨rfl, rfl, rfl⟩⟩
  · intro b real
    rw [count_reverse]
    exact distinct b real
  · refine (acc.split requestId).congr (fun b _ => ?_)
    rw [count_reverse]
    rfl
  · intro other
    rw [tables other]
    split
    · exact fun b _ => Nat.zero_le 1
    · exact acc.ok.distinct other
  · intro spec mamba align other mem
    rw [tables other]
    split
    · rename_i same
      subst same
      exact absurd mem (unlisted spec mamba align)
    · exact acc.ok.speculative spec mamba align other mem

variable [DecidableEq H] (acc : Accounted rest mgr pool)
include acc

theorem allocateNewBlocks_accounted
    (h : allocateNewBlocks mgr pool requestId numTokens = .ok (newBlocks, after, next)) :
    Accounted rest after next ∧ SameFormat mgr after := by
  unfold allocateNewBlocks at h
  dsimp only at h
  split at h
  · cases h
    exact ⟨acc.touchBlocks (BlockPool.SameCounts.refl _) acc.hashes rfl rfl rfl, ⟨rfl, rfl, rfl⟩⟩
  · rename_i pos
    obtain ⟨⟨_, _⟩, got, final⟩ := bind_ok h
    cases final
    obtain ⟨bal, nodup, fresh, _⟩ :=
      getNewBlocks_balanced (by omega) (acc.split requestId) got
    refine ⟨acc.table rfl (bal.congr ?_)
      (getNewBlocks_hashes acc.hashes got)
      (append_distinct (acc.ok.distinct requestId) nodup fresh) rfl rfl ?_, ⟨rfl, rfl, rfl⟩⟩
    · intro b _
      rw [count_append, Nat.add_assoc _ (count ..)]
    · rw [length_append]
      exact Nat.le_add_right _ _

theorem allocateNewComputedBlocks_accounted {hits : List BlockId}
    {numLocal numExternal : Int} (distinct : DistinctBlocks hits)
    (nonneg : 0 ≤ numLocal + numExternal)
    (fits : numExternal > 0 → (hits.length : Int) ≤
      cdiv (numLocal + numExternal) mgr.blockSize)
    (h : allocateNewComputedBlocks mgr pool requestId hits
      numLocal numExternal = .ok (after, next)) :
    Accounted rest after next ∧ SameFormat mgr after := by
  unfold allocateNewComputedBlocks at h
  split at h
  · obtain ⟨_, final⟩ := assert_bind_ok h
    cases final
    exact ⟨acc, ⟨rfl, rfl, rfl⟩⟩
  · obtain ⟨empty, h⟩ := assert_bind_ok h
    have table : mgr.blocksOf requestId = [] := length_eq_zero_iff.mp (of_decide_eq_true empty)
    have before := acc.split requestId
    rw [table] at before
    dsimp only at h
    generalize skip : mgr.getNumSkippedTokens
      (numLocal + numExternal) / (mgr.blockSize : Int) = skipped
      at h
    obtain ⟨touched, touches, h⟩ := bind_ok h
    obtain ⟨bal, hashes⟩ := touchComputed_ok before acc.hashes touches
    have keptDistinct := kept_distinct skipped distinct
    have counts : ∀ b ≠ nullBlock, (replicate skipped.toNat nullBlock ++
        keptComputedBlocks skipped hits).count b =
        (keptComputedBlocks skipped hits).count b := by
      intro b real
      rw [count_append, count_replicate, if_neg, Nat.zero_add]
      simpa using Ne.symm real
    have reqDistinct : DistinctBlocks (replicate skipped.toNat nullBlock ++
        keptComputedBlocks skipped hits) := by
      intro b real
      rw [counts b real]
      exact keptDistinct b real
    have longer : ∀ blocks : List BlockId, (mgr.blocksOf requestId).length ≤ blocks.length := by
      intro blocks
      rw [table]
      exact Nat.zero_le _
    have marked : touched.Balanced (fun b => rest b + mgr.heldByOthers requestId b +
        (replicate skipped.toNat nullBlock ++
          keptComputedBlocks skipped hits).count b) := by
      refine bal.congr (fun b real => ?_)
      rw [counts b real]
      rfl
    have length := kept_length skipped hits
    generalize replicate skipped.toNat nullBlock ++
      keptComputedBlocks skipped hits = reqBlocks at h reqDistinct marked length
    split at h
    · rename_i external
      obtain ⟨⟨blocks, taken⟩, got, final⟩ := bind_ok h
      cases final
      have some : numExternal > 0 := by
        unfold externalTokens at external
        split at external <;> omega
      have skipBound : skipped ≤
          cdiv (numLocal + numExternal) mgr.blockSize := by
        rw [← skip]
        have pos := Int.natCast_pos.mpr mgr.blockSize_pos
        refine le_trans (Int.ediv_le_ediv pos ?_) (ediv_le_cdiv pos _)
        exact mgr.kvCacheSpec.getNumSkippedTokens_le nonneg
      have enough := fits some
      obtain ⟨final, nodup, fresh, _⟩ := getNewBlocks_balanced (by omega) marked got
      refine ⟨acc.table rfl (final.congr ?_) (getNewBlocks_hashes hashes got)
        (append_distinct reqDistinct nodup fresh) rfl rfl (longer _), ⟨rfl, rfl, rfl⟩⟩
      intro b _
      rw [count_append, Nat.add_assoc _ (count ..)]
    · cases h
      exact ⟨acc.table rfl marked hashes reqDistinct rfl rfl (longer _), ⟨rfl, rfl, rfl⟩⟩

theorem cacheBlocks_accounted (h : cacheBlocks mgr pool req numTokens = .ok (after, next)) :
    Accounted rest after next ∧ SameFormat mgr after := by
  unfold cacheBlocks at h
  dsimp only at h
  split at h
  · cases h
    exact ⟨acc, ⟨rfl, rfl, rfl⟩⟩
  · obtain ⟨_, full, final⟩ := bind_ok h
    cases final
    obtain ⟨same, hashes⟩ := cacheFullBlocks_ok acc.hashes full
    exact ⟨acc.touchBlocks same hashes rfl rfl rfl, ⟨rfl, rfl, rfl⟩⟩

end Base

namespace Mamba
variable {spec : MambaSpec}

theorem place_nonneg (nonneg : 0 ≤ i) (h : Py.place n i = some k) : k = i.toNat := by
  unfold Py.place at h
  rw [if_pos nonneg] at h
  split at h
  · exact (Option.some.inj h).symm
  · cases h

theorem reuseSpeculative_counts {count : Nat} (nonneg : 0 ≤ blockIdx)
    (h : reuseSpeculative numSkipped count blockIdx blocks = .ok table) :
    (table.length : Int) = blocks.length + min (count : Int) (max 0 (numSkipped - blockIdx)) ∧
      ∀ b ≠ nullBlock, table.count b = blocks.count b := by
  induction count generalizing blockIdx blocks with
  | zero =>
    cases h
    refine ⟨?_, fun b _ => rfl⟩
    rw [Int.natCast_zero, min_eq_left (le_max_left _ _), Int.add_zero]
  | succ count ih =>
    unfold reuseSpeculative at h
    split at h
    · rename_i below
      split at h
      · cases h
      · rename_i place found
        dsimp only at h
        split at h
        · cases h
        · rename_i target goal
          have inside := place_lt found
          have same : target = place := (place_nonneg nonneg goal).trans (place_nonneg nonneg found).symm
          subst same
          obtain ⟨length, counts⟩ := ih (by omega) h
          constructor
          · rw [length_set, length_append, length_singleton] at length
            omega
          · intro b real
            have long : target < (blocks ++ [blocks.getD target nullBlock]).length := by
              rw [length_append]
              omega
            have moved := count_set_null long real
            rw [getElem_append_left inside, count_append, getD_eq_getElem _ _ inside] at moved
            rw [counts b real, getD_eq_getElem _ _ inside]
            omega
    · rename_i past
      cases h
      refine ⟨?_, fun b _ => rfl⟩
      omega

section
variable (acc : Accounted rest mgr pool)
include acc

theorem removeLastState_accounted
    (h : removeLastState mgr pool requestId numComputedTokens = .ok (after, next)) :
    Accounted rest after next ∧ SameFormat mgr after := by
  unfold removeLastState at h
  split at h
  · cases h
    exact ⟨acc, ⟨rfl, rfl, rfl⟩⟩
  · split at h
    · dsimp only at h
      split at h
      · cases h
      · rename_i place found
        have inside := place_lt found
        split at h
        · rename_i real
          rw [getD_eq_getElem _ _ inside] at real h
          cases h
          have distinct := acc.ok.distinct requestId
          have single : DistinctBlocks [(mgr.blocksOf requestId)[place]] := by
            intro b _
            rw [count_singleton]
            split <;> omega
          refine ⟨acc.table rfl (freeBlocks_balanced single ?_)
            (acc.hashes.same ⟨rfl, rfl⟩) ?_ rfl rfl (le_of_eq (length_set ..).symm), ⟨rfl, rfl, rfl⟩⟩
          · refine (acc.split requestId).congr (fun b other => ?_)
            have := count_set_null inside other
            omega
          · intro b other
            have := count_set_null inside other
            have := distinct b other
            omega
        · cases h
          exact ⟨acc.touchBlocks (BlockPool.SameCounts.refl _) acc.hashes rfl rfl rfl,
            ⟨rfl, rfl, rfl⟩⟩
    · cases h
      exact ⟨acc, ⟨rfl, rfl, rfl⟩⟩

theorem removeSkippedBlocks_accounted
    (h : removeSkippedBlocks mgr spec pool requestId numTotal = .ok (after, next)) :
    Accounted rest after next ∧ SameFormat mgr after := by
  obtain ⟨base, format⟩ := Base.removeSkippedBlocks_accounted acc requestId
    (max 0 (numTotal - spec.numSpeculativeBlocks))
  unfold removeSkippedBlocks at h
  dsimp only at h
  split at h
  · obtain ⟨last, lastFormat⟩ := removeLastState_accounted base h
    exact ⟨last, format.trans lastFormat⟩
  · cases h
    exact ⟨base, format⟩

theorem free_accounted (format : mgr.kvCacheSpec = .mamba spec) :
    Accounted rest (free mgr spec pool requestId).1 (free mgr spec pool requestId).2 ∧
      SameFormat mgr (free mgr spec pool requestId).1 := by
  unfold free
  dsimp only
  split
  · have kept : Accounted rest { mgr with
        allocatedBlockReqs := mgr.allocatedBlockReqs.filter (· ≠ requestId)
        lastStateBlockIdx := mgr.lastStateBlockIdx.erase requestId } pool := by
      refine ⟨acc.balanced, acc.hashes, acc.ok.distinct, ?_⟩
      intro other mamba align id mem
      exact acc.ok.speculative other mamba align id (mem_filter.mp mem).1
    have unlisted : requestId ∉ mgr.allocatedBlockReqs.filter (· ≠ requestId) := by
      intro mem
      simpa using (mem_filter.mp mem).2
    have freed := Base.free_accounted kept (fun _ _ _ => unlisted)
    exact ⟨freed.1, ⟨freed.2.spec, freed.2.blockSize, freed.2.enableCaching⟩⟩
  · rename_i other
    refine Base.free_accounted acc ?_
    intro same mamba align
    rw [format] at mamba
    cases mamba
    exact absurd align other

end

/-- A known request needs one block more than its extended table, a new one at most
the speculative blocks and one. -/
theorem extendTable_ok {numRequired : Int} {blocksAllocated : Bool}
    (more : numRequired > blocks.length)
    (enough : blocksAllocated = true → spec.numSpeculativeBlocks ≤ blocks.length)
    (h : extendTable spec blocksAllocated (numRequired - spec.numSpeculativeBlocks -
      1) blocks = .ok reused) : (numRequired - reused.length = if blocksAllocated then 1
      else min (numRequired - blocks.length) (spec.numSpeculativeBlocks + 1)) ∧
      ∀ b ≠ nullBlock, reused.count b = blocks.count b := by
  have padCount : ∀ (n : Nat), ∀ b ≠ nullBlock,
      (blocks ++ replicate n nullBlock).count b = blocks.count b := by
    intro n b real
    rw [count_append, count_replicate, if_neg, add_zero]
    simpa using symm real
  have padLength : ∀ n : Nat, (blocks ++ replicate n nullBlock).length = blocks.length + n := by
    intro n
    rw [length_append, length_replicate]
  unfold extendTable at h
  split at h
  · rename_i allocated
    rw [if_pos allocated]
    have table := enough allocated
    obtain ⟨length, counts⟩ := reuseSpeculative_counts (by omega) h
    rw [padLength] at length
    refine ⟨by omega, fun b real => ?_⟩
    rw [counts b real]
    exact padCount _ b real
  · rename_i first
    rw [if_neg first]
    cases h
    rw [padLength]
    exact ⟨by omega, padCount _⟩

variable [DecidableEq H] (acc : Accounted rest mgr pool)
include acc

theorem allocateAligned_accounted {numMain : Int} (format : mgr.kvCacheSpec = .mamba spec)
    (align : spec.mambaCacheMode = .align) (nonneg : 0 ≤ numMain)
    (h : allocateAligned mgr spec pool requestId numMain = .ok
      (newBlocks, after, next)) : Accounted rest after next ∧ SameFormat mgr after := by
  have pos := Int.natCast_pos.mpr mgr.blockSize_pos
  have required := cdiv_nonneg pos nonneg
  unfold allocateAligned at h
  dsimp only at h
  generalize cdiv numMain mgr.blockSize = needed at h required
  split at h
  · cases h
    exact ⟨acc.touchBlocks (BlockPool.SameCounts.refl _) acc.hashes rfl rfl rfl, ⟨rfl, rfl, rfl⟩⟩
  · obtain ⟨more, h⟩ := assert_bind_ok h
    obtain ⟨reused, moved, h⟩ := bind_ok h
    obtain ⟨_, h⟩ := assert_bind_ok h
    obtain ⟨⟨blocks, taken⟩, got, final⟩ := bind_ok h
    have result : after.reqToBlocks = mgr.reqToBlocks.set requestId (reused ++ blocks) ∧
        SameFormat mgr after ∧
        after.allocatedBlockReqs = (if requestId ∈ mgr.allocatedBlockReqs then
          mgr.allocatedBlockReqs else mgr.allocatedBlockReqs ++ [requestId]) ∧
        next = taken := by
      cases final
      exact ⟨rfl, ⟨rfl, rfl, rfl⟩, rfl, rfl⟩
    obtain ⟨tables, sameFormat, listed, rfl⟩ := result
    have known : decide (requestId ∈ mgr.allocatedBlockReqs) = true →
        spec.numSpeculativeBlocks ≤ (mgr.blocksOf requestId).length := by
      intro mem
      exact acc.ok.speculative spec format align requestId (of_decide_eq_true mem)
    obtain ⟨length, counts⟩ := extendTable_ok (of_decide_eq_true more) known moved
    have enough : 0 ≤ needed + spec.numSpeculativeBlocks - (reused.length : Int) := by
      have := of_decide_eq_true more
      split at length <;> omega
    have before : pool.Balanced (fun b => rest b + mgr.heldByOthers requestId b +
        reused.count b) :=
      (acc.split requestId).congr (fun b real => by rw [counts b real])
    have distinct : DistinctBlocks reused := by
      intro b real
      rw [counts b real]
      exact acc.ok.distinct requestId b real
    obtain ⟨bal, nodup, fresh, size⟩ := getNewBlocks_balanced enough before got
    have full : spec.numSpeculativeBlocks ≤ (reused ++ blocks).length := by
      rw [length_append]
      omega
    refine ⟨⟨bal.congr ?_, getNewBlocks_hashes acc.hashes got, ?_, ?_⟩, sameFormat⟩
    · intro b _
      rw [held_set tables, count_append]
      omega
    · intro other
      rw [blocksOf_set tables]
      split
      · exact append_distinct distinct nodup fresh
      · exact acc.ok.distinct other
    · intro same mamba _ other mem
      rw [sameFormat.spec, format] at mamba
      cases mamba
      rw [blocksOf_set tables]
      split
      · exact full
      · rename_i ne
        refine acc.ok.speculative spec format align other ?_
        rw [listed] at mem
        split at mem
        · exact mem
        · rcases mem_append.mp mem with old | new
          · exact old
          · exact absurd (mem_singleton.mp new) ne

theorem allocateNewBlocks_accounted (format : mgr.kvCacheSpec = .mamba spec)
    (nonneg : 0 ≤ numMain)
    (h : allocateNewBlocks mgr spec pool requestId numTokens numMain =
      .ok (newBlocks, after, next)) : Accounted rest after next ∧ SameFormat mgr after := by
  unfold allocateNewBlocks at h
  split at h
  · exact Base.allocateNewBlocks_accounted acc h
  · rename_i align
    exact allocateAligned_accounted acc format (not_not.mp align) nonneg h

theorem cacheBlocks_accounted (h : cacheBlocks mgr pool req numTokens = .ok (after, next)) :
    Accounted rest after next ∧ SameFormat mgr after := by
  obtain ⟨⟨_, _⟩, first, h⟩ := bind_ok h
  obtain ⟨kept, format⟩ := Base.cacheBlocks_accounted acc first
  dsimp only at h
  split at h
  · obtain ⟨keys, _, final⟩ := bind_ok h
    cases final
    exact ⟨⟨kept.balanced, kept.hashes, kept.ok.distinct, kept.ok.speculative⟩,
      ⟨format.spec, format.blockSize, format.enableCaching⟩⟩
  · cases h
    exact ⟨kept, format⟩

end Mamba
end SingleTypeKVCacheManager
end Vllm
