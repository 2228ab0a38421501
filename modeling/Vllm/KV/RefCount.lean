import Vllm.KV.Tables
import Vllm.KV.HitBlocks
import Vllm.KV.CacheManager
import Vllm.Lib.Run

/-! Reference counting is exact: in every run of the KV-cache manager the pool counts
the places of each block in the block tables of all groups. -/
namespace Vllm
open List hiding next
open Py
variable {H : Type} {numTotal numTokens numMain : Int}

namespace SingleTypeKVCacheManager
variable {mgr after : SingleTypeKVCacheManager H} {pool next : BlockPool H}
  {rest : BlockId → Nat} {requestId : String}

section
variable (mgr : SingleTypeKVCacheManager H) (pool : BlockPool H)

def Keeps (after : SingleTypeKVCacheManager H) (next : BlockPool H) : Prop :=
  ∀ rest, Accounted rest mgr pool → Accounted rest after next ∧ SameFormat mgr after

theorem free_keeps (requestId : String) :
    Keeps mgr pool (mgr.free pool requestId).1 (mgr.free pool requestId).2 := by
  intro rest acc
  unfold free
  split
  · rename_i spec format
    exact Mamba.free_accounted acc format
  · rename_i other
    refine Base.free_accounted acc ?_
    intro spec format
    exact absurd format (other spec)

end

theorem removeSkippedBlocks_keeps
    (h : mgr.removeSkippedBlocks pool requestId numTotal = .ok (after, next)) :
    Keeps mgr pool after next := by
  intro _ acc
  unfold removeSkippedBlocks at h
  split at h
  · exact Mamba.removeSkippedBlocks_accounted acc h
  · have pair := Prod.mk.inj (Except.ok.inj h)
    rw [← pair.1, ← pair.2]
    exact Base.removeSkippedBlocks_accounted acc requestId numTotal

variable [DecidableEq H]

theorem getNumBlocksToAllocate_keeps
    (h : mgr.getNumBlocksToAllocate pool requestId numTokens newComputedBlocks
      numTotal numMain = .ok (num, after)) : Keeps mgr pool after pool := by
  intro _ acc
  unfold getNumBlocksToAllocate at h
  split at h
  · unfold Mamba.getNumBlocksToAllocate at h
    split at h
    · cases h
      exact ⟨acc, ⟨rfl, rfl, rfl⟩⟩
    · split at h
      · obtain ⟨_, _, final⟩ := bind_ok h
        cases final
        exact ⟨acc, ⟨rfl, rfl, rfl⟩⟩
      · cases h
        exact ⟨acc.touchBlocks (BlockPool.SameCounts.refl _) acc.hashes rfl rfl rfl,
          ⟨rfl, rfl, rfl⟩⟩
  · obtain ⟨_, _, final⟩ := bind_ok h
    cases final
    exact ⟨acc, ⟨rfl, rfl, rfl⟩⟩

theorem allocateNewComputedBlocks_keeps (distinct : DistinctBlocks newComputedBlocks)
    (nonneg : 0 ≤ numLocal + numExternal)
    (fits : numExternal > 0 → (newComputedBlocks.length : Int) ≤
      cdiv (numLocal + numExternal) mgr.blockSize)
    (h : mgr.allocateNewComputedBlocks pool requestId newComputedBlocks
      numLocal numExternal = .ok (after, next)) :
    Keeps mgr pool after next := by
  intro _ acc
  unfold allocateNewComputedBlocks at h
  split at h
  · obtain ⟨_, final⟩ := assert_bind_ok h
    cases final
    exact ⟨acc, ⟨rfl, rfl, rfl⟩⟩
  · exact Base.allocateNewComputedBlocks_accounted acc distinct nonneg fits h

theorem allocateNewBlocks_keeps (nonneg : 0 ≤ numMain)
    (h : mgr.allocateNewBlocks pool requestId numTokens numMain = .ok
      (newBlocks, after, next)) : Keeps mgr pool after next := by
  intro _ acc
  unfold allocateNewBlocks at h
  split at h
  · rename_i spec format
    exact Mamba.allocateNewBlocks_accounted acc format nonneg h
  · exact Base.allocateNewBlocks_accounted acc h

theorem cacheBlocks_keeps (h : mgr.cacheBlocks pool req numTokens = .ok (after, next)) :
    Keeps mgr pool after next := by
  intro _ acc
  unfold cacheBlocks at h
  split at h
  · exact Mamba.cacheBlocks_accounted acc h
  · cases h
  · exact Base.cacheBlocks_accounted acc h

end SingleTypeKVCacheManager

open SingleTypeKVCacheManager

section
variable (rest : BlockId → Nat) (managers : List (SingleTypeKVCacheManager H))

def heldBy (b : BlockId) : Nat :=
  (managers.map (·.held b)).sum

structure AllAccounted (pool : BlockPool H) : Prop where
  balanced : pool.Balanced (fun b => rest b + heldBy managers b)
  hashes : pool.MapExact
  ok : ∀ mgr ∈ managers, mgr.Ok

def formats : List (KVCacheSpec × Nat × Bool) :=
  managers.map (fun mgr => (mgr.kvCacheSpec, mgr.blockSize, mgr.enableCaching))

end

section Managers
variable {managers after : List (SingleTypeKVCacheManager H)} {pool next : BlockPool H}

/-- The call for each manager, the first one being number `i`, keeps its accounts. -/
def EachKeeps {α : Type} (f : Nat → SingleTypeKVCacheManager H → BlockPool H →
      Py (α × SingleTypeKVCacheManager H × BlockPool H)) (i : Nat)
    (managers : List (SingleTypeKVCacheManager H)) : Prop :=
  ∀ (k : Nat) (mgr changed : SingleTypeKVCacheManager H) (pool next : BlockPool H)
    (result : α), managers[k]? = some mgr →
    f (i + k) mgr pool = .ok (result, changed, next) → Keeps mgr pool changed next

/-- Calls that keep the accounts of each manager keep the accounts of all. -/
theorem mapManagers_keeps (step : EachKeeps f i managers) (acc : AllAccounted rest managers pool)
    (ran : mapManagers f i managers pool = .ok (results, after, next)) :
    AllAccounted rest after next ∧ formats after = formats managers := by
  induction managers generalizing i rest pool results after with
  | nil =>
    cases ran
    exact ⟨acc, rfl⟩
  | cons mgr others ih =>
    obtain ⟨⟨result, changed, middle⟩, first, ran⟩ := bind_ok ran
    obtain ⟨⟨_, _, _⟩, later, final⟩ := bind_ok ran
    cases final
    have one : Accounted (fun b => rest b + heldBy others b) mgr pool := by
      refine ⟨acc.balanced.congr ?_, acc.hashes,
        acc.ok mgr (mem_cons_self ..)⟩
      intro b _
      unfold heldBy
      rw [map_cons, sum_cons]
      omega
    obtain ⟨kept, same⟩ := step 0 mgr changed pool middle result rfl first _ one
    have tail : AllAccounted (fun b => rest b + changed.held b) others middle := by
      refine ⟨kept.balanced.congr ?_, kept.hashes,
        fun other mem => acc.ok other (mem_cons_of_mem _ mem)⟩
      intro b _
      omega
    have laterStep : EachKeeps f (i + 1) others := by
      intro k other changed pool next result place _
      refine step (k + 1) other changed pool next result place ?_
      rwa [show i + (k + 1) = i + 1 + k by omega]
    obtain ⟨all, sameOthers⟩ := ih laterStep tail later
    refine ⟨⟨all.balanced.congr ?_, all.hashes, ?_⟩, ?_⟩
    · intro b _
      unfold heldBy
      rw [map_cons, sum_cons]
      omega
    · intro other mem
      rcases mem_cons.mp mem with rfl | mem
      · exact kept.ok
      · exact all.ok other mem
    · unfold formats at sameOthers ⊢
      rw [map_cons, map_cons, same.spec, same.blockSize, same.enableCaching, sameOthers]

end Managers

namespace KVCacheCoordinator
variable {coord after : KVCacheCoordinator H} {requestId : String}

def Accounted (coord : KVCacheCoordinator H) : Prop :=
  AllAccounted (fun _ => 0) coord.singleTypeManagers coord.blockPool

/-- The accounts are right after a call, and the groups have the same formats. -/
structure Kept (coord after : KVCacheCoordinator H) : Prop where
  accounted : after.Accounted
  formats : formats after.singleTypeManagers = formats coord.singleTypeManagers

theorem Kept.trans (first : Kept coord after)
    (second : Kept after last) : Kept coord last :=
  ⟨second.accounted, second.formats.trans first.formats⟩

theorem Kept.blockSize (kept : Kept coord after) {k : Nat} (place : after.singleTypeManagers[k]? = some mgr) :
    ∃ before, coord.singleTypeManagers[k]? = some before ∧
      mgr.blockSize = before.blockSize := by
  have same := congrArg (fun list => list[k]?) kept.formats
  simp only [Vllm.formats, getElem?_map, place] at same
  obtain ⟨before, found, format⟩ := Option.map_eq_some_iff.mp same.symm
  exact ⟨before, found, (congrArg (fun format => format.2.1) format).symm⟩

theorem forManagers_keeps (step : EachKeeps f 0 coord.singleTypeManagers)
    (acc : coord.Accounted)
    (ran : coord.forManagers f = .ok (results, after)) : Kept coord after := by
  obtain ⟨⟨_, _, pool⟩, mapped, final⟩ := bind_ok ran
  cases final
  obtain ⟨all, same⟩ := mapManagers_keeps step acc mapped
  exact ⟨all, same⟩

theorem free_kept (acc : coord.Accounted)
    (h : coord.free requestId = .ok after) : Kept coord after := by
  obtain ⟨⟨_, _⟩, ran, same⟩ := bind_ok h
  cases same
  refine forManagers_keeps ?_ acc ran
  intro k mgr _ pool _ _ _ called
  cases called
  exact free_keeps mgr pool requestId

theorem removeSkippedBlocks_kept (acc : coord.Accounted)
    (h : coord.removeSkippedBlocks requestId numTotal = .ok after) :
    Kept coord after := by
  obtain ⟨⟨_, final⟩, ran, same⟩ := bind_ok h
  cases same
  refine forManagers_keeps ?_ acc ran
  intro k _ changed _ next _ _ called
  obtain ⟨⟨changed, next⟩, one, final⟩ := bind_ok called
  cases final
  exact removeSkippedBlocks_keeps one

variable [DecidableEq H] (acc : coord.Accounted)
include acc

theorem getNumBlocksToAllocate_kept
    (h : coord.getNumBlocksToAllocate requestId numTokens newComputedBlocks
      numEncoderTokens numTotal numMain = .ok (num, after)) :
    Kept coord after := by
  obtain ⟨⟨_, final⟩, ran, same⟩ := bind_ok h
  cases same
  refine forManagers_keeps ?_ acc ran
  intro k _ changed _ _ _ _ called
  obtain ⟨⟨num, changed⟩, one, final⟩ := bind_ok called
  cases final
  unfold numBlocksOfGroup at one
  split at one <;> exact getNumBlocksToAllocate_keeps one

theorem allocateNewComputedBlocks_kept
    (distinct : ∀ k, DistinctBlocks (newComputedBlocks.getD k []))
    (nonneg : 0 ≤ numLocal + numExternal)
    (fits : numExternal > 0 →
      ∀ (k : Nat) (mgr : SingleTypeKVCacheManager H), coord.singleTypeManagers[k]? =
        some mgr → ((newComputedBlocks.getD k []).length : Int) ≤
        cdiv (numLocal + numExternal) mgr.blockSize)
    (h : coord.allocateNewComputedBlocks requestId newComputedBlocks
      numLocal numExternal = .ok after) : Kept coord after := by
  obtain ⟨⟨_, final⟩, ran, same⟩ := bind_ok h
  cases same
  refine forManagers_keeps ?_ acc ran
  intro k mgr changed _ next _ place called
  rw [zero_add] at called
  obtain ⟨⟨changed, next⟩, one, final⟩ := bind_ok called
  cases final
  exact allocateNewComputedBlocks_keeps (distinct k) nonneg
    (fun external => fits external k mgr place) one

theorem allocateNewBlocks_kept (nonneg : 0 ≤ numMain)
    (allocated : coord.allocateNewBlocks requestId numTokens numMain
      numEncoderTokens = .ok (newBlocks, after)) : Kept coord after := by
  refine forManagers_keeps ?_ acc allocated
  intro k _ _ _ _ _ _ called
  exact allocateNewBlocks_keeps nonneg called

theorem cacheBlocks_kept (h : coord.cacheBlocks req numComputedTokens = .ok after) :
    Kept coord after := by
  obtain ⟨⟨_, final⟩, ran, same⟩ := bind_ok h
  cases same
  refine forManagers_keeps ?_ acc ran
  intro k _ changed _ next _ _ called
  obtain ⟨⟨changed, next⟩, one, final⟩ := bind_ok called
  cases final
  exact cacheBlocks_keeps one

end KVCacheCoordinator

/-- One call of the KV-cache manager. An allocation of a request without computed
tokens looks up its hits first (`lookup`). -/
inductive KVOp (H : Type) where
  | getComputedBlocks (req : Request H)
  | allocateSlots (req : Request H) (args : SlotArgs) (lookup : Bool)
  | cacheBlocks (req : Request H) (numComputedTokens : Int)
  | removeSkippedBlocks (requestId : String) (totalComputedTokens : Int)
  | free (requestId : String)
  | evictBlocks (blockIds : List BlockId)
  | resetPrefixCache
  | newStepStarts
  | takeNewBlockIds

namespace KVCacheManager

section Exec
variable [DecidableEq H] (mgr : KVCacheManager H)

def withHits (req : Request H) (args : SlotArgs) (lookup : Bool) : Py SlotArgs :=
  if lookup then do
    let (blocks, numNewComputedTokens) ← mgr.getComputedBlocks req
    return { args with
      newComputedBlocks := some blocks
      numNewComputedTokens := numNewComputedTokens }
  else .ok { args with newComputedBlocks := none, numNewComputedTokens := 0 }

def exec : KVOp H → Py (KVCacheManager H)
  | .getComputedBlocks req => do
    let _ ← mgr.getComputedBlocks req
    return mgr
  | .allocateSlots req args lookup => do
    let args ← mgr.withHits req args lookup
    let (_, next) ← mgr.allocateSlots req args
    return next
  | .cacheBlocks req numComputedTokens => mgr.cacheBlocks req numComputedTokens
  | .removeSkippedBlocks requestId numTotal =>
    mgr.removeSkippedBlocks requestId numTotal
  | .free requestId => mgr.free requestId
  | .evictBlocks blockIds => mgr.evictBlocks blockIds
  | .resetPrefixCache => .ok mgr.resetPrefixCache.2
  | .newStepStarts => .ok mgr.newStepStarts
  | .takeNewBlockIds => .ok mgr.takeNewBlockIds.2

/-- The hits of no group reach past the computed tokens, local and external ones. -/
def HitsFit (req : Request H) (args : SlotArgs) : Prop :=
  ∀ blocks hitLength, mgr.getComputedBlocks req = .ok (blocks, hitLength) →
    args.numExternalComputedTokens > 0 →
    ∀ (k : Nat) (single : SingleTypeKVCacheManager H),
      mgr.coordinator.singleTypeManagers[k]? = some single →
      ((blocks.getD k []).length : Int) ≤
        cdiv (req.numComputedTokens + hitLength + args.numExternalComputedTokens)
          single.blockSize

/-- Allocations are for requests with distinct block hashes, and their hits fit. -/
def Allowed : KVOp H → Prop
  | .allocateSlots req args lookup =>
    req.blockHashes.Nodup ∧ 0 ≤ req.numComputedTokens ∧ 0 ≤ args.numNewTokens ∧
      0 ≤ args.numExternalComputedTokens ∧ (lookup = true → mgr.HitsFit req args)
  | _ => True

end Exec

def occurrences (mgr : KVCacheManager H) (b : BlockId) : Nat :=
  heldBy mgr.coordinator.singleTypeManagers b

structure RefCountsExact (mgr : KVCacheManager H) : Prop where
  counted : ∀ b ≠ nullBlock, mgr.blockPool.refCnt b = mgr.occurrences b
  free : ∀ b ≠ nullBlock, b < mgr.blockPool.numGpuBlocks →
    mgr.blockPool.freeBlockQueue.count b = if mgr.blockPool.refCnt b = 0 then 1 else 0
  counter : mgr.blockPool.numFreeBlocks = mgr.blockPool.freeBlockQueue.length
  nullHeld : nullBlock ∉ mgr.blockPool.freeBlockQueue

def Accounted (mgr : KVCacheManager H) : Prop := mgr.coordinator.Accounted

section Steps
variable {mgr next : KVCacheManager H}

theorem Accounted.exact (acc : mgr.Accounted) : mgr.RefCountsExact := by
  have bal := acc.balanced
  refine ⟨?_, ?_, bal.counter, ?_⟩
  · intro b real
    have counted := bal.counted b real
    rw [zero_add] at counted
    exact counted
  · intro b real inside
    have member := bal.free b
    split
    · rename_i zero
      exact count_eq_one_of_mem bal.nodup (member.mpr ⟨real, inside, zero⟩)
    · rename_i some
      exact count_eq_zero_of_not_mem (fun mem => some (member.mp mem).2.2)
  · intro mem
    exact ((bal.free nullBlock).mp mem).1 rfl

theorem Accounted.withPool (acc : mgr.Accounted)
    (same : BlockPool.SameCounts mgr.blockPool pool) (hashes : pool.MapExact) :
    (mgr.withPool pool).Accounted :=
  ⟨acc.balanced.same same, hashes, acc.ok⟩

theorem Accounted.mapManagers (acc : mgr.Accounted)
    (tables : ∀ single, (f single).reqToBlocks = single.reqToBlocks)
    (specs : ∀ single, (f single).kvCacheSpec = single.kvCacheSpec)
    (reqs : ∀ single, (f single).allocatedBlockReqs = single.allocatedBlockReqs) :
    (mgr.withCoordinator { mgr.coordinator with
      singleTypeManagers := mgr.coordinator.singleTypeManagers.map f }).Accounted := by
  refine ⟨acc.balanced.congr ?_, acc.hashes, ?_⟩
  · intro b _
    have same : ∀ single : SingleTypeKVCacheManager H, (f single).held b = single.held b := by
      intro single
      unfold held
      rw [tables]
    show 0 + heldBy (mgr.coordinator.singleTypeManagers.map f) b = _
    unfold heldBy
    rw [map_map]
    congr 2
    exact map_congr_left (fun single _ => same single)
  · intro single mem
    obtain ⟨before, old, rfl⟩ := mem_map.mp mem
    have ok := acc.ok before old
    have blocks : ∀ id, (f before).blocksOf id = before.blocksOf id := by
      intro id
      unfold blocksOf
      rw [tables]
    refine ⟨fun id => ?_, fun spec mamba align id listed => ?_⟩
    · rw [blocks]
      exact ok.distinct id
    · rw [blocks]
      rw [specs] at mamba
      rw [reqs] at listed
      exact ok.speculative spec mamba align id listed

variable {req : Request H} {args : SlotArgs}

structure SlotsFit (mgr : KVCacheManager H) (req : Request H) (args : SlotArgs) : Prop where
  distinct : ∀ k, DistinctBlocks ((args.newComputedBlocks.getD mgr.emptyKvCacheBlocks).getD k [])
  computed : 0 ≤ req.numComputedTokens + args.numNewComputedTokens
  external : 0 ≤ args.numExternalComputedTokens
  new : 0 ≤ args.numNewTokens
  fits : args.numExternalComputedTokens > 0 → ∀ (k : Nat) (single : SingleTypeKVCacheManager H),
    mgr.coordinator.singleTypeManagers[k]? = some single →
    (((args.newComputedBlocks.getD mgr.emptyKvCacheBlocks).getD k []).length : Int) ≤
      cdiv (req.numComputedTokens + args.numNewComputedTokens + args.numExternalComputedTokens)
        single.blockSize

theorem emptyBlocks_congr {coord : KVCacheCoordinator H}
    (same : formats coord.singleTypeManagers = formats mgr.coordinator.singleTypeManagers) :
    (mgr.withCoordinator coord).emptyKvCacheBlocks = mgr.emptyKvCacheBlocks := by
  have lengths := congrArg List.length same
  unfold formats at lengths
  rw [length_map, length_map] at lengths
  unfold emptyKvCacheBlocks withCoordinator
  rw [map_const', map_const', lengths]

theorem withHits_fit {lookup : Bool} (acc : mgr.Accounted)
    (allowed : mgr.Allowed (.allocateSlots req given lookup))
    (h : mgr.withHits req given lookup = .ok args) : SlotsFit mgr req args := by
  obtain ⟨nodup, _, new, external, fits⟩ := allowed
  have empty : ∀ k, (mgr.emptyKvCacheBlocks).getD k [] = [] := by
    intro k
    unfold emptyKvCacheBlocks
    rw [getD_eq_getElem?_getD, getElem?_map]
    cases mgr.coordinator.singleTypeManagers[k]? <;> rfl
  have none : DistinctBlocks [] := fun b _ => Nat.zero_le 1
  unfold withHits at h
  cases lookup with
  | true =>
    obtain ⟨⟨blocks, hitLength⟩, found, final⟩ := bind_ok h
    cases final
    refine ⟨?_, by dsimp only; omega, external, new, ?_⟩
    · intro k
      show DistinctBlocks (blocks.getD k [])
      unfold getComputedBlocks at found
      split at found
      · cases found
        rw [empty]
        exact none
      · have all := KVCacheCoordinator.findLongestCacheHit_hits acc.hashes nodup found
        rw [getD_eq_getElem?_getD]
        cases place : blocks[k]? with
        | none => exact none
        | some column => exact all column (mem_of_getElem? place)
    · intro some k single place
      exact fits rfl blocks hitLength found some k single place
  | false =>
    cases h
    refine ⟨?_, by dsimp only; omega, external, new, ?_⟩
    · intro k
      show DistinctBlocks (mgr.emptyKvCacheBlocks.getD k [])
      rw [empty]
      exact none
    · intro _ k single _
      show ((mgr.emptyKvCacheBlocks.getD k []).length : Int) ≤ _
      rw [empty]
      exact cdiv_nonneg (Int.natCast_pos.mpr single.blockSize_pos) (by dsimp only; omega)

variable [DecidableEq H]

theorem takeSlots_accounted (fit : SlotsFit mgr req args) (acc : mgr.Accounted)
    (h : mgr.takeSlots req args (mgr.slotCounts req args) =
      .ok (blocks, next)) : next.Accounted := by
  have total : 0 ≤ req.numComputedTokens + args.numNewComputedTokens +
      args.numExternalComputedTokens := by
    have := fit.computed
    have := fit.external
    omega
  obtain ⟨computed, first, h⟩ := bind_ok h
  obtain ⟨⟨_, _⟩, second, h⟩ := bind_ok h
  have one : computed.Accounted := by
    unfold allocateComputed at first
    dsimp only at first
    split at first
    · exact (KVCacheCoordinator.allocateNewComputedBlocks_kept acc fit.distinct total fit.fits
        first).accounted
    · cases first
      exact acc
  have main : 0 ≤ (mgr.slotCounts req args).numTokensMainModel := by
    have := fit.new
    unfold slotCounts
    dsimp only
    omega
  have two := (KVCacheCoordinator.allocateNewBlocks_kept one main second).accounted
  dsimp only at h
  split at h
  · cases h
    exact two
  · obtain ⟨_, third, final⟩ := bind_ok h
    cases final
    exact (KVCacheCoordinator.cacheBlocks_kept two third).accounted

theorem allocateSlots_accounted {blocks : Option KVCacheBlocks}
    (fit : SlotsFit mgr req args) (acc : mgr.Accounted)
    (h : mgr.allocateSlots req args = .ok (blocks, next)) : next.Accounted := by
  unfold allocateSlots at h
  split at h
  · cases h
  · obtain ⟨removed, first, h⟩ := bind_ok h
    have one := KVCacheCoordinator.removeSkippedBlocks_kept acc first
    obtain ⟨⟨num, counted⟩, second, h⟩ := bind_ok h
    have two := one.trans (KVCacheCoordinator.getNumBlocksToAllocate_kept one.accounted second)
    dsimp only at h
    split at h
    · cases h
      exact two.accounted
    · obtain ⟨⟨taken, last⟩, third, final⟩ := bind_ok h
      cases final
      have same := emptyBlocks_congr two.formats
      have laterFit : SlotsFit (mgr.withCoordinator counted) req args := by
        refine ⟨?_, fit.computed, fit.external, fit.new, ?_⟩
        · rw [same]
          exact fit.distinct
        · intro external k single place
          obtain ⟨before, found, size⟩ := two.blockSize place
          rw [same, size]
          exact fit.fits external k before found
      exact takeSlots_accounted laterFit two.accounted third

theorem exec_accounted (acc : mgr.Accounted) (allowed : mgr.Allowed op)
    (ran : mgr.exec op = .ok next) : next.Accounted := by
  cases op with
  | getComputedBlocks req =>
    obtain ⟨_, _, final⟩ := bind_ok ran
    cases final
    exact acc
  | allocateSlots req args lookup =>
    obtain ⟨_, hits, ran⟩ := bind_ok ran
    obtain ⟨⟨_, _⟩, allocated, final⟩ := bind_ok ran
    cases final
    exact allocateSlots_accounted (withHits_fit acc allowed hits) acc allocated
  | cacheBlocks req numComputedTokens =>
    unfold exec cacheBlocks at ran
    dsimp only at ran
    split at ran
    · obtain ⟨_, one, final⟩ := bind_ok ran
      cases final
      exact (KVCacheCoordinator.cacheBlocks_kept acc one).accounted
    · cases ran
      exact acc
  | removeSkippedBlocks requestId numTotal =>
    obtain ⟨_, one, final⟩ := bind_ok ran
    cases final
    exact (KVCacheCoordinator.removeSkippedBlocks_kept acc one).accounted
  | free requestId =>
    obtain ⟨_, one, final⟩ := bind_ok ran
    cases final
    exact (KVCacheCoordinator.free_kept acc one).accounted
  | evictBlocks blockIds =>
    obtain ⟨_, one, final⟩ := bind_ok ran
    cases final
    obtain ⟨same, hashes⟩ := BlockPool.evictBlocks_ok acc.hashes one
    exact acc.withPool same hashes
  | resetPrefixCache =>
    cases ran
    obtain ⟨same, hashes⟩ := BlockPool.resetPrefixCache_ok acc.hashes
    exact acc.withPool same hashes
  | newStepStarts =>
    cases ran
    exact acc.mapManagers (fun _ => rfl) (fun _ => rfl) (fun _ => rfl)
  | takeNewBlockIds =>
    cases ran
    exact acc.mapManagers (fun _ => rfl) (fun _ => rfl) (fun _ => rfl)

end Steps

section Init
variable {start : KVCacheManager H} {enableCaching : Bool}

theorem single_init_noSinks (noSinks : spec.hasSinks = false)
    (made : SingleTypeKVCacheManager.init spec pool enableCaching groupId dcpWorldSize
      pcpWorldSize = .ok (single, next)) :
    next = pool ∧ single.reqToBlocks = .empty ∧ single.allocatedBlockReqs = [] := by
  cases spec with
  | sinkFullAttention fields sinkLen => cases noSinks
  | encoderOnlyAttention fields => cases made
  | _ =>
    cases made
    exact ⟨rfl, rfl, rfl⟩

theorem initManagers_noSinks (noSinks : ∀ spec ∈ specs, spec.hasSinks = false)
    (h : KVCacheCoordinator.initManagers enableCaching dcpWorldSize pcpWorldSize i specs pool
      = .ok (managers, next)) : next = pool ∧ ∀ single ∈ managers, single.reqToBlocks = .empty ∧
      single.allocatedBlockReqs = [] := by
  induction specs generalizing i pool managers with
  | nil =>
    cases h
    exact ⟨rfl, fun _ mem => absurd mem not_mem_nil⟩
  | cons spec rest ih =>
    obtain ⟨⟨single, _⟩, first, h⟩ := bind_ok h
    obtain ⟨⟨_, _⟩, later, final⟩ := bind_ok h
    cases final
    obtain ⟨rfl, empty⟩ := single_init_noSinks (noSinks spec (mem_cons_self ..)) first
    obtain ⟨rfl, emptyOthers⟩ := ih (fun s mem => noSinks s (mem_cons_of_mem _ mem)) later
    refine ⟨rfl, ?_⟩
    intro other mem
    rcases mem_cons.mp mem with rfl | mem
    · exact empty
    · exact emptyOthers other mem

theorem init_accounted {maxModelLen : Nat} (noSinks : ∀ spec ∈ specs, spec.hasSinks = false)
    (made : init numBlocks specs maxModelLen hashBlockSize enableCaching useEagle
      enableKvCacheEvents dcpWorldSize pcpWorldSize hasher = .ok start) : start.Accounted := by
  obtain ⟨_, coordinatorMade, final⟩ := bind_ok made
  obtain ⟨_, poolMade, rest⟩ := bind_ok coordinatorMade
  obtain ⟨⟨managers, _⟩, managersMade, rest⟩ := bind_ok rest
  obtain ⟨_, _, built⟩ := bind_ok rest
  cases final
  cases built
  obtain ⟨rfl, empty⟩ := initManagers_noSinks noSinks managersMade
  obtain ⟨bal, hashes⟩ := BlockPool.init_balanced poolMade
  have blocks : ∀ single ∈ managers, ∀ id, single.blocksOf id = [] := by
    intro single mem id
    unfold blocksOf
    rw [(empty single mem).1]
    rfl
  refine ⟨bal.congr ?_, hashes, ?_⟩
  · intro b _
    have none : ∀ single ∈ managers, single.held b = 0 := by
      intro single mem
      unfold held
      rw [(empty single mem).1]
      rfl
    unfold heldBy
    rw [map_congr_left none, map_const', sum_replicate_nat, Nat.mul_zero]
  · intro single mem
    refine ⟨fun id => ?_, fun spec _ _ id listed => ?_⟩
    · rw [blocks single mem]
      exact fun b _ => Nat.zero_le 1
    · rw [(empty single mem).2] at listed
      cases listed

end Init

section Runs
variable [DecidableEq H]

theorem ref_counts_exact (numBlocks : Nat) (specs : List KVCacheSpec)
    (maxModelLen hashBlockSize : Nat) (enableCaching useEagle enableKvCacheEvents : Bool)
    (dcpWorldSize pcpWorldSize : Nat) (hasher : BlockHasher H)
    (noSinks : ∀ spec ∈ specs, spec.hasSinks = false) (start reached : KVCacheManager H)
    (ops : List (KVOp H))
    (made : init numBlocks specs maxModelLen hashBlockSize enableCaching useEagle
      enableKvCacheEvents dcpWorldSize pcpWorldSize hasher = .ok start)
    (allowed : Run.AllSteps exec Allowed start ops) (ran : Run.run exec start ops = .ok reached) :
    reached.RefCountsExact :=
  (Run.run_invariant KVCacheManager.Accounted exec_accounted (init_accounted noSinks made)
    allowed ran).exact

end Runs

def smallManager : Py (KVCacheManager Nat) :=
  init 15 threeFormats 100 4 true false false 1 1 (decimalHasher 4 four_pos)

def promptRequest (requestId : String) (tokens : List TokenId) : Request Nat :=
  Request.updateBlockHashes (some (decimalHasher 4 four_pos))
    { requestId := requestId, promptTokenIds := some tokens, numPromptTokens := tokens.length
      allTokenIds := tokens }

def longPrompt : List TokenId := [1, 2, 3, 4, 5, 6, 7, 8, 9, 10, 11, 12, 13]

/-- A prompt and one decode step, which frees the first blocks of the window group.
The second request takes these and the last blocks of the first group. -/
def evictingRun : List (KVOp Nat) :=
  [.allocateSlots (promptRequest "a" longPrompt) { numNewTokens := 13 } true,
    .allocateSlots { promptRequest "a" (longPrompt ++ [14]) with numComputedTokens := 13 }
      { numNewTokens := 1 } false,
    .free "a",
    .allocateSlots (promptRequest "c" [21, 22, 23, 24, 25]) { numNewTokens := 5 } true]

theorem ref_counts_exact_evicting : ∃ start reached, smallManager = .ok start ∧
    Run.run exec start evictingRun = .ok reached ∧ reached.RefCountsExact := by
  have returns : (smallManager >>= fun start => Run.run exec start evictingRun).isOk = true := by
    decide +kernel
  obtain ⟨reached, both⟩ := ok_of_isOk returns
  obtain ⟨start, made, ran⟩ := bind_ok both
  refine ⟨start, reached, made, ran, ?_⟩
  refine ref_counts_exact 15 threeFormats 100 4 true false false 1 1 _ (by decide) start reached
    evictingRun made ?_ ran
  refine Run.allSteps_of_forall _ ?_
  intro op mem state
  have noExternal : ∀ req : Request Nat, ∀ args : SlotArgs,
      args.numExternalComputedTokens = 0 → state.HitsFit req args := by
    intro req args zero _ _ _ pos
    omega
  simp only [evictingRun, mem_cons, not_mem_nil, or_false] at mem
  rcases mem with rfl | rfl | rfl | rfl
  · exact ⟨by decide, by decide, by decide, by decide, fun _ => noExternal _ _ rfl⟩
  · exact ⟨by decide, by decide, by decide, by decide, fun _ => noExternal _ _ rfl⟩
  · trivial
  · exact ⟨by decide, by decide, by decide, by decide, fun _ => noExternal _ _ rfl⟩

/-- The first prompt comes again with four external tokens. The second full group still
has two hits, one more than the external tokens need, and the counter of free blocks
grows by the missing block. -/
theorem free_counter_exceeds_queue : ∃ start reached, smallManager = .ok start ∧
    Run.run exec start (evictingRun ++ [.allocateSlots (promptRequest "b" longPrompt)
        { numNewTokens := 4, numExternalComputedTokens := 4 } true]) = .ok reached ∧
    reached.blockPool.numFreeBlocks = 3 ∧ reached.blockPool.freeBlockQueue = [12, 11] ∧
    ¬ reached.RefCountsExact := by
  have pool : (do
      let start ← smallManager
      let reached ← Run.run exec start (evictingRun ++
        [.allocateSlots (promptRequest "b" longPrompt)
          { numNewTokens := 4, numExternalComputedTokens := 4 } true])
      return (reached.blockPool.numFreeBlocks, reached.blockPool.freeBlockQueue)) =
      (.ok (3, [12, 11]) : Py (Int × List BlockId)) := by
    decide +kernel
  obtain ⟨start, made, pool⟩ := bind_ok pool
  obtain ⟨reached, ran, pool⟩ := bind_ok pool
  obtain ⟨counter, queue⟩ := Prod.mk.inj (Except.ok.inj pool)
  refine ⟨start, reached, made, ran, counter, queue, ?_⟩
  intro exact
  have wrong := exact.counter
  rw [counter, queue] at wrong
  cases wrong

end KVCacheManager
end Vllm
