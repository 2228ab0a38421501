import Vllm.KV.Accounting
import Vllm.KV.HybridHit

/-! The blocks of a prefix-cache hit. A block is stored under one hash of one group, so
a hit never lists a block twice as long as the hashes of a request are distinct. -/
namespace Vllm
open List hiding next
open Py Option
variable {H : Type}

/-- Different places of a hash list have different values. -/
theorem BlockHashList.getValueAt_injective {hashes : BlockHashList H}
    (nodup : hashes.blockHashes.Nodup)
    (first : hashes.getValueAt i = .ok value) (second : hashes.getValueAt j = .ok value) :
    i = j := by
  have head : ∀ {k : Nat}, hashes.getValueAt k = .ok value →
      k * hashes.scaleFactor < hashes.blockHashes.length ∧
        hashes.blockHashes[k * hashes.scaleFactor]? = value.head? := by
    intro k found
    have pos := hashes.scaleFactor_pos
    unfold getValueAt at found
    dsimp only at found
    split at found
    · cases found
      refine ⟨by omega, ?_⟩
      rw [head?_take, if_neg (by omega), head?_drop]
    · cases found
  obtain ⟨bound, here⟩ := head first
  obtain ⟨_, there⟩ := head second
  have same := (getElem?_inj bound nodup).mp (here.trans there.symm)
  exact Nat.eq_of_mul_eq_mul_right hashes.scaleFactor_pos same

theorem count_le_one_of_places {l : List BlockId}
    (places : ∀ i j : Nat, l[i]? = some b → l[j]? = some b → i = j) : l.count b ≤ 1 := by
  by_contra many
  obtain ⟨i, j, ne, first, second⟩ := duplicate_iff_exists_distinct_get.mp
    (duplicate_iff_two_le_count.mpr (Nat.lt_of_not_le many))
  have same := places i j (by rw [first]; simp) (by rw [second]; simp)
  exact absurd same (Nat.ne_of_lt ne)

/-- A lookup lists no real block twice in a column. -/
theorem lookup_distinct {args : LookupArgs H}
    (agree : args.blockPool.MapExact) (nodup : args.blockHashes.blockHashes.Nodup)
    (found : findLongestCacheHit args = .ok hits) : ∀ blocks ∈ hits, DistinctBlocks blocks := by
  obtain ⟨rows, p, rfl, covers, -⟩ := hit_ok found
  intro blocks mem b real
  obtain ⟨g, inside, rfl⟩ := mem_map.mp mem
  obtain ⟨groupId, group⟩ : ∃ groupId, args.kvCacheGroupIds[g]? = some groupId :=
    ⟨_, getElem?_eq_getElem (mem_range.mp inside)⟩
  have stored (j : Nat) (place : (rows.map (fun row => row.getD g nullBlock))[j]? = some b) :
      ∃ hash, args.blockHashes.getValueAt j = .ok hash ∧
        args.blockPool.blockHash b = some ⟨hash, groupId⟩ := by
    rw [getElem?_map] at place
    obtain ⟨row, rowPlace, rfl⟩ := map_eq_some_iff.mp place
    rcases covers.cached j row rowPlace with ⟨hash, value, cached⟩ | ⟨_, rfl⟩
    · exact ⟨hash, value, agree.hashed _ _ (BlockPool.getCachedBlock_get cached group)⟩
    · refine absurd ?_ real
      unfold nullRow
      rw [getD_eq_getElem?_getD, getElem?_replicate]
      split <;> rfl
  refine count_le_one_of_places (fun i j first second => ?_)
  obtain ⟨hash, value, hashed⟩ := stored i first
  obtain ⟨_, otherValue, otherHashed⟩ := stored j second
  rw [hashed] at otherHashed
  cases otherHashed
  exact BlockHashList.getValueAt_injective nodup value otherValue

namespace KVCacheCoordinator
variable {coord : KVCacheCoordinator H} {blockHashes : List H}

/-- The hits stored for the groups have the property. -/
def HitsAll (P : List BlockId → Prop) (hits : GroupHits) : Prop :=
  ∀ blocks, some blocks ∈ hits → P blocks

/-- Each lookup finds columns with the property. -/
def LookupsAll (P : List BlockId → Prop) (coord : KVCacheCoordinator H) (lcmBlockSize : Nat)
    (blockHashes : List H) : Prop :=
  ∀ group n found, coord.lookupGroup lcmBlockSize blockHashes group n = .ok found →
    ∀ blocks ∈ found, P blocks

section Hybrid
variable {P : List BlockId → Prop} {lcmBlockSize : Nat}
  {hits after : GroupHits}

theorem HitsAll.set (all : HitsAll P hits) (one : ∀ blocks, stored = some blocks → P blocks) :
    HitsAll P (hits.set i stored) := by
  intro blocks mem
  rcases mem_or_eq_of_mem_set mem with old | new
  · exact all blocks old
  · exact one blocks new.symm

theorem storeHits_all (all : HitsAll P hits) (each : ∀ blocks ∈ found, P blocks) :
    HitsAll P (storeHits ids found hits) := by
  induction ids generalizing found hits with
  | nil => exact all
  | cons id ids ih =>
    cases found with
    | nil => exact all
    | cons blocks rest =>
      refine ih (all.set ?_) (fun other mem => each other (mem_cons_of_mem _ mem))
      intro _ same
      cases same
      exact each blocks (mem_cons_self ..)

theorem truncateHits_all (all : HitsAll P hits)
    (cut : ∀ blocks, P blocks → P (blocks.take numBlocks)) :
    HitsAll P (truncateHits numBlocks ids hits) := by
  induction ids generalizing hits with
  | nil => exact all
  | cons id ids ih =>
    refine ih (all.set ?_)
    intro blocks shorter
    obtain ⟨stored, place, rfl⟩ := map_eq_some_iff.mp shorter
    refine cut stored (all stored ?_)
    rw [getD_eq_getElem?_getD] at place
    cases found : hits[id]? with
    | none =>
      rw [found] at place
      cases place
    | some entry =>
      rw [found] at place
      cases place
      exact mem_of_getElem? found

theorem hybridPass_all {length : Nat}
    (lookups : LookupsAll P coord lcmBlockSize blockHashes) (all : HitsAll P hits)
    (ran : hybridPass coord lcmBlockSize blockHashes groups start hits = .ok (length,
      after)) : HitsAll P after := by
  induction groups generalizing start hits with
  | nil =>
    cases ran
    exact all
  | cons group rest ih =>
    unfold hybridPass at ran
    dsimp only at ran
    split at ran
    · exact ih all ran
    · obtain ⟨_, looked, next⟩ := bind_ok ran
      exact ih (storeHits_all all (lookups _ _ _ looked)) next

theorem hybridLoop_all {length : Nat}
    (lookups : LookupsAll P coord lcmBlockSize blockHashes) (all : HitsAll P hits)
    (ran : hybridLoop coord groups lcmBlockSize blockHashes isSimpleHybrid passes start
      hits = .ok (length, after)) : HitsAll P after := by
  induction passes generalizing start hits with
  | zero => cases ran
  | succ passes ih =>
    obtain ⟨⟨_, _⟩, passed, ran⟩ := bind_ok ran
    have kept := hybridPass_all lookups all passed
    dsimp only at ran
    split at ran
    · cases ran
      exact kept
    · split at ran
      · cases ran
        exact kept
      · exact ih kept ran

end Hybrid

theorem lookupGroup_hits {lcmBlockSize : Nat} (agree : coord.blockPool.MapExact)
    (nodup : blockHashes.Nodup) :
    LookupsAll DistinctBlocks coord lcmBlockSize blockHashes := by
  intro _ n _ looked
  obtain ⟨_, listed, looked⟩ := bind_ok looked
  refine lookup_distinct agree ?_ looked
  unfold BlockPool.blockHashList at listed
  split at listed
  · cases listed
    exact nodup
  · split at listed
    · split at listed
      · cases listed
        exact nodup
      · cases listed
    · cases listed

/-- No column that the coordinator returns lists a real block twice. -/
theorem findLongestCacheHit_hits
    (agree : coord.blockPool.MapExact) (nodup : blockHashes.Nodup)
    (h : coord.findLongestCacheHit blockHashes maxCacheHitLength = .ok (blocks,
      hitLength)) : ∀ column ∈ blocks, DistinctBlocks column := by
  have empty : DistinctBlocks [] := fun _ _ => Nat.zero_le 1
  unfold findLongestCacheHit at h
  split at h
  · cases h
    simp [empty]
  · obtain ⟨hits, looked, final⟩ := bind_ok h
    cases final
    exact lookup_distinct agree nodup looked
  · unfold findHybridCacheHit at h
    split at h
    · cases h
    · rename_i spec groupIds others _
      obtain ⟨⟨length, hits⟩, ran, final⟩ := bind_ok h
      cases final
      have start : HitsAll DistinctBlocks
          (replicate coord.singleTypeManagers.length none) := by
        intro column mem
        cases eq_of_mem_replicate mem
      have all := hybridLoop_all (lookupGroup_hits agree nodup) start ran
      have cut : HitsAll DistinctBlocks (if spec.isFullAttention then
          truncateHits (hitLength / spec.blockSize) groupIds hits else hits) := by
        split
        · exact truncateHits_all all (fun column distinct => distinct.sublist (take_sublist ..))
        · exact all
      intro column mem
      obtain ⟨stored, storedMem, rfl⟩ := mem_map.mp mem
      cases stored with
      | none => exact empty
      | some column => exact cut column storedMem

end KVCacheCoordinator
end Vllm
