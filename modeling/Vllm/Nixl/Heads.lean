import Vllm.Nixl.Worker
import Vllm.Lib.Grid

/-! Reads between engines of different tensor-parallel sizes. Each local head is read once,
and from the slot of a remote rank that holds the same head of the model. -/
namespace Vllm.Nixl
open Grid List Py NixlConnectorWorker

section
variable (heads tpSize : Nat) (blocksFirst : Bool)

/-- The heads of the model are split evenly over the ranks, or each is on several ranks. -/
structure Shards : Prop where
  someHead : 0 < heads
  someRank : 0 < tpSize
  even : tpSize ∣ heads ∨ heads ∣ tpSize

def headsPerRank : Nat := max 1 (heads / tpSize)

def globalHead (rank slot : Nat) : Nat :=
  if tpSize ≤ heads then rank * (heads / tpSize) + slot else rank / (tpSize / heads)

def numHalves : Nat := if blocksFirst then 2 else 1

theorem numHalves_pos : 0 < numHalves blocksFirst := by
  cases blocksFirst <;> decide

theorem headsPerRank_pos : 0 < headsPerRank heads tpSize := by
  rw [headsPerRank]
  omega

end

/-- Where a head of a block is: `half` is 1 for V in a region that holds K and V. -/
def headAddr (baseAddr halves slots headBytes block half slot : Nat) : Nat :=
  baseAddr + block * (halves * (slots * headBytes)) + half * (slots * headBytes) + slot * headBytes

section Arithmetic
variable {heads tpSize : Nat}

theorem Shards.split (shards : Shards heads tpSize) (fits : tpSize ≤ heads) :
    ∃ slots, 0 < slots ∧ heads = tpSize * slots ∧ headsPerRank heads tpSize = slots ∧
      ∀ rank slot, globalHead heads tpSize rank slot = rank * slots + slot := by
  have divides : tpSize ∣ heads := by
    rcases shards.even with divides | divides
    · exact divides
    · rw [Nat.le_antisymm fits (Nat.le_of_dvd shards.someRank divides)]
  obtain ⟨slots, rfl⟩ := divides
  have quotient : tpSize * slots / tpSize = slots := Nat.mul_div_cancel_left _ shards.someRank
  have pos : 0 < slots := Nat.pos_of_mul_pos_left shards.someHead
  refine ⟨slots, pos, rfl, ?_, ?_⟩
  · rw [headsPerRank]
    omega
  · intro rank slot
    rw [globalHead, if_pos fits, quotient]

theorem Shards.copies (shards : Shards heads tpSize) (exceeds : heads ≤ tpSize) :
    ∃ copies, tpSize = heads * copies ∧ headsPerRank heads tpSize = 1 ∧
      ∀ rank, globalHead heads tpSize rank 0 = rank / copies := by
  have divides : heads ∣ tpSize := by
    rcases shards.even with divides | divides
    · rw [Nat.le_antisymm exceeds (Nat.le_of_dvd shards.someHead divides)]
    · exact divides
  obtain ⟨copies, rfl⟩ := divides
  have pos : 0 < copies := Nat.pos_of_mul_pos_left shards.someRank
  have one : headsPerRank heads (heads * copies) = 1 := by
    have small : heads / (heads * copies) ≤ 1 := by
      rw [← Nat.div_div_eq_div_mul, Nat.div_self shards.someHead]
      exact Nat.div_le_self 1 copies
    rw [headsPerRank]
    omega
  refine ⟨copies, rfl, one, ?_⟩
  intro rank
  rw [globalHead]
  split
  · have single : copies = 1 := by
      have := Nat.le_of_mul_le_mul_left (by simpa using ‹heads * copies ≤ heads› :
        heads * copies ≤ heads * 1) shards.someHead
      omega
    simp [single, Nat.div_self shards.someHead]
  · rw [Nat.mul_div_cancel_left _ shards.someHead]

end Arithmetic

/-- How the heads of a rank are cut up: number `i` of the remote ranks has the heads of chunk
`i` in its slots from `offset` on. -/
structure Cut (heads tpSize tpRank remoteTpSize : Nat) (ranks : List Nat) (chunk offset : Nat) :
    Prop where
  positive : 0 < chunk
  whole : ranks.length * chunk = headsPerRank heads tpSize
  inside : offset + chunk ≤ headsPerRank heads remoteTpSize
  same : ∀ i rank, ranks[i]? = some rank → ∀ slot < chunk,
    globalHead heads remoteTpSize rank (offset + slot) =
      globalHead heads tpSize tpRank (i * chunk + slot)

section Cuts
variable {heads tpSize remoteTp ratio : Nat} (shards : Shards heads tpSize)
  (remote : Shards heads remoteTp) (tpRank : Nat)
include shards remote

theorem cut_replicated (sizes : tpSize = remoteTp * ratio) (repl : heads ≤ remoteTp) :
    Cut heads tpSize tpRank remoteTp [tpRank / ratio] 1 0 := by
  have ratioPos : 0 < ratio := Nat.pos_of_mul_pos_left (sizes ▸ shards.someRank)
  obtain ⟨copies, remoteSize, remoteOne, remoteHead⟩ := remote.copies repl
  obtain ⟨all, size, one, head⟩ := shards.copies
    (repl.trans (sizes ▸ Nat.le_mul_of_pos_right _ ratioPos))
  have product : all = ratio * copies := by
    apply Nat.eq_of_mul_eq_mul_left shards.someHead
    rw [← size, sizes, remoteSize, Nat.mul_assoc, Nat.mul_comm copies]
  refine ⟨Nat.one_pos, by simp [one], by simp [remoteOne], ?_⟩
  intro i rank _ slot _
  obtain rfl : slot = 0 := by omega
  obtain ⟨rfl, rfl⟩ : i = 0 ∧ tpRank / ratio = rank := by
    cases i <;> simp_all
  simp only [Nat.add_zero, remoteHead, head, product, Nat.div_div_eq_div_mul]

theorem cut_smaller (sizes : tpSize = remoteTp * ratio) (fits : tpSize ≤ heads) :
    Cut heads tpSize tpRank remoteTp [tpRank / ratio] (headsPerRank heads tpSize)
      (tpRank % ratio * headsPerRank heads tpSize) := by
  have ratioPos : 0 < ratio := Nat.pos_of_mul_pos_left (sizes ▸ shards.someRank)
  obtain ⟨slots, pos, total, perRank, head⟩ := shards.split fits
  obtain ⟨remoteSlots, -, remoteTotal, remotePerRank, remoteHead⟩ := remote.split
    ((Nat.le_mul_of_pos_right _ ratioPos).trans (sizes ▸ fits))
  have product : remoteSlots = ratio * slots := by
    apply Nat.eq_of_mul_eq_mul_left remote.someRank
    rw [← remoteTotal, total, sizes, Nat.mul_assoc]
  rw [perRank]
  refine ⟨pos, by simp [perRank], ?_, ?_⟩
  · rw [remotePerRank, product, ← Nat.succ_mul]
    exact Nat.mul_le_mul_right _ (Nat.mod_lt _ ratioPos)
  · intro i rank _ slot _
    obtain ⟨rfl, rfl⟩ : i = 0 ∧ tpRank / ratio = rank := by
      cases i <;> simp_all
    rw [remoteHead, head, product]
    calc tpRank / ratio * (ratio * slots) + (tpRank % ratio * slots + slot)
        = (ratio * (tpRank / ratio) + tpRank % ratio) * slots + slot := by ring
      _ = tpRank * slots + (0 * slots + slot) := by rw [Nat.div_add_mod]; ring

theorem cut_larger (sizes : remoteTp = tpSize * ratio) (fits : remoteTp ≤ heads) :
    Cut heads tpSize tpRank remoteTp ((range ratio).map (fun i => tpRank * ratio + i))
      (headsPerRank heads remoteTp) 0 := by
  have ratioPos : 0 < ratio := Nat.pos_of_mul_pos_left (sizes ▸ remote.someRank)
  obtain ⟨remoteSlots, pos, remoteTotal, remotePerRank, remoteHead⟩ := remote.split fits
  obtain ⟨slots, -, total, perRank, head⟩ := shards.split
    ((Nat.le_mul_of_pos_right _ ratioPos).trans (sizes ▸ fits))
  have product : slots = ratio * remoteSlots := by
    apply Nat.eq_of_mul_eq_mul_left shards.someRank
    rw [← total, remoteTotal, sizes, Nat.mul_assoc]
  rw [remotePerRank]
  refine ⟨pos, by simp [perRank, product], by simp [remotePerRank], ?_⟩
  intro i _ place _ _
  obtain ⟨j, listed, rfl⟩ := Option.map_eq_some_iff.mp (getElem?_map .. ▸ place)
  obtain ⟨-, rfl⟩ : _ ∧ i = j := by simpa using List.getElem?_eq_some_iff.mp listed
  rw [remoteHead, head, product]
  ring

end Cuts

section Descriptors
variable {blocksFirst : Bool} {numBlocks half block : Nat}

theorem length_regionDescs (first second : Nat → Desc) :
    (regionDescs blocksFirst numBlocks first second).length = numHalves blocksFirst * numBlocks := by
  cases blocksFirst <;> simp [regionDescs, numHalves]
  omega

theorem regionDescs_get (first second : Nat → Desc) (inside : half < numHalves blocksFirst)
    (listed : block < numBlocks) :
    (regionDescs blocksFirst numBlocks first second)[half * numBlocks + block]? =
      some (if half = 0 then first block else second block) := by
  cases blocksFirst with
  | false =>
    obtain rfl : half = 0 := by simpa [numHalves] using inside
    simp [regionDescs, listed]
  | true =>
    have cases : half = 0 ∨ half = 1 := by
      simp only [numHalves, if_true] at inside
      omega
    rcases cases with rfl | rfl
    · simp [regionDescs, listed, getElem?_append_left]
    · simp [regionDescs, listed]

/-- The descriptor at the number that `_get_block_descs_ids` computes. -/
theorem descs_get {bases : List Nat} {first second : Nat × Nat → Nat → Desc}
    (place : bases[layer]? = some base) (inside : half < numHalves blocksFirst)
    (listed : block < numBlocks) :
    (bases.zipIdx.flatMap (fun entry => regionDescs blocksFirst numBlocks (first entry)
      (second entry)))[(layer * numHalves blocksFirst + half) * numBlocks + block]? =
      some (if half = 0 then first (base, layer) block else second (base, layer) block) := by
  have index : (layer * numHalves blocksFirst + half) * numBlocks + block =
      layer * (numHalves blocksFirst * numBlocks) + (half * numBlocks + block) := by ring
  rw [index, getElem?_flatMap_uniform (fun entry _ => length_regionDescs ..) layer
    (digits_lt inside listed), getElem?_zipIdx, place, zero_add]
  exact regionDescs_get (first (base, layer)) (second (base, layer)) inside listed

end Descriptors

variable (worker : NixlConnectorWorker)

abbrev NixlConnectorWorker.halves : Nat := numHalves worker.kvTopo.isKvLayoutBlocksFirst

abbrev NixlConnectorWorker.ownSlots : Nat :=
  headsPerRank worker.kvTopo.totalNumKvHeads worker.kvTopo.tpSize

abbrev NixlConnectorWorker.slots (tpSize : Nat) : Nat :=
  headsPerRank worker.kvTopo.totalNumKvHeads tpSize

section
variable (worker : NixlConnectorWorker) (remotes : Nat → NixlAgentMetadata) (remoteTpSize : Nat)

/-- A local worker and remote workers with the same model, block size and layout. -/
structure Engines (headBytes : List Nat) : Prop where
  dense : worker.kvTopo.isMla = false
  blockSize : 0 < worker.kvTopo.blockSize
  sameBlockSize : ∀ rank, (remotes rank).blockSize = worker.kvTopo.blockSize
  headMajor : worker.kvCacheLayout = .hnd ∧ ∀ rank, (remotes rank).kvCacheLayout = .hnd
  shards : Shards worker.kvTopo.totalNumKvHeads worker.kvTopo.tpSize
  remoteShards : Shards worker.kvTopo.totalNumKvHeads remoteTpSize
  positive : ∀ bytes ∈ headBytes, 0 < bytes
  lens : worker.blockLenPerLayer =
    headBytes.map (fun bytes => worker.halves * (worker.ownSlots * bytes))
  remoteLens : ∀ rank, (remotes rank).blockLens =
    headBytes.map (fun bytes => worker.halves * (worker.slots remoteTpSize * bytes))
  bases : worker.kvCachesBaseAddr.length = headBytes.length
  apart : ∀ layer other base otherBase, worker.kvCachesBaseAddr[layer]? = some base →
    worker.kvCachesBaseAddr[other]? = some otherBase → layer ≠ other →
    base + worker.numBlocks * worker.blockLenPerLayer.getD layer 0 ≤ otherBase ∨
      otherBase + worker.numBlocks * worker.blockLenPerLayer.getD other 0 ≤ base

/-- What both workers compute from the two sizes, once the handshake is accepted. -/
structure Agreed (tpRatio : Int) (ranks : List Nat) (chunk offset : Nat) : Prop where
  ratio : worker.kvTopo.tpRatio remoteTpSize = .ok tpRatio
  targets : worker.kvTopo.getTargetRemoteRanks remoteTpSize = .ok ranks
  cut : Cut worker.kvTopo.totalNumKvHeads worker.kvTopo.tpSize worker.kvTopo.tpRank remoteTpSize
    ranks chunk offset
  count : ranks.length = if tpRatio < 0 then (-tpRatio).toNat else 1
  offset : offset = if !worker.kvTopo.isKvReplicated remoteTpSize && decide (tpRatio > 0) then
    worker.kvTopo.tpRank % tpRatio.toNat * worker.ownSlots else 0

end

section Handshake
variable {worker : NixlConnectorWorker} {remotes : Nat → NixlAgentMetadata}
  {remoteTp dstBlocks rank : Nat} {headBytes : List Nat} {descs : List Desc}

theorem tpRatio_ok {topo : TpKVTopology} (size : 0 < topo.tpSize)
    (ran : topo.tpRatio remoteTp = .ok tpRatio) :
    ∃ ratio : Nat, (topo.tpSize = remoteTp * ratio ∧ tpRatio = ratio) ∨
      (remoteTp = topo.tpSize * ratio ∧ tpRatio = -ratio) := by
  simp only [TpKVTopology.tpRatio] at ran
  split at ran
  · obtain ⟨divides, final⟩ := assert_bind_ok ran
    obtain ⟨ratio, product⟩ := Nat.dvd_of_mod_eq_zero (by simpa using divides)
    cases final
    refine ⟨ratio, .inl ⟨product, ?_⟩⟩
    have remote : 0 < remoteTp := Nat.pos_of_mul_pos_right (product ▸ size)
    rw [product]
    push_cast
    exact Int.mul_ediv_cancel_left _ (by omega)
  · obtain ⟨divides, final⟩ := assert_bind_ok ran
    obtain ⟨ratio, product⟩ := Nat.dvd_of_mod_eq_zero (by simpa using divides)
    cases final
    refine ⟨ratio, .inr ⟨product, ?_⟩⟩
    rw [product]
    push_cast
    rw [neg_mul_eq_mul_neg]
    exact Int.mul_ediv_cancel_left _ (by omega)

theorem targets_ne_nil {topo : TpKVTopology} (size : 0 < topo.tpSize) (remote : 0 < remoteTp)
    (ran : topo.getTargetRemoteRanks remoteTp = .ok ranks) : ranks ≠ [] := by
  obtain ⟨_, ratioRan, final⟩ := bind_ok ran
  split at final
  · cases final
    simp
  · rename_i negative
    cases final
    obtain ⟨ratio, ⟨sizes, rfl⟩ | ⟨sizes, rfl⟩⟩ := tpRatio_ok size ratioRan
    · have : 0 < ratio := Nat.pos_of_mul_pos_left (sizes ▸ size)
      omega
    · have : 0 < ratio := Nat.pos_of_mul_pos_left (sizes ▸ remote)
      simp
      omega

variable (engines : Engines worker remotes remoteTp headBytes)
  (ran : worker.addRemoteAgent dstBlocks (remotes rank) remoteTp = .ok descs)
include engines ran

/-- What an accepted handshake has checked, for equal block sizes. -/
theorem addRemoteAgent_ok : ∃ tpRatio, worker.kvTopo.tpRatio remoteTp = .ok tpRatio ∧
      (tpRatio < 0 → worker.kvTopo.isKvReplicated remoteTp = false) ∧
      (worker.kvTopo.isKvReplicated remoteTp = false → 0 < tpRatio →
        (remotes rank).blockLens.head? = some (worker.blockLenPerLayer.getD 0 0 * tpRatio.toNat)) ∧
      (remotes rank).numBlocks = dstBlocks ∧
      (remotes rank).kvCachesBaseAddr.length = headBytes.length ∧
      descs = worker.registerRemoteBlocks (remotes rank) tpRatio 1
        (!worker.kvTopo.isKvReplicated remoteTp && decide (tpRatio > 0)) := by
  have one : worker.kvTopo.blockSizeRatio (remotes rank).blockSize = .ok 1 := by
    simp [TpKVTopology.blockSizeRatio, engines.sameBlockSize, Nat.div_self engines.blockSize]
    rfl
  simp only [addRemoteAgent, one, ok_bind] at ran
  obtain ⟨_, validated, ran⟩ := bind_ok ran
  obtain ⟨tpRatio, ratio, final⟩ := bind_ok ran
  simp only [validateRemoteAgentHandshake, one, ratio] at validated
  obtain ⟨single, validated⟩ := assert_bind_ok validated
  obtain ⟨-, validated⟩ := assert_bind_ok validated
  obtain ⟨_, -, validated⟩ := bind_ok validated
  obtain ⟨_, lens, validated⟩ := bind_ok validated
  obtain ⟨blocks, validated⟩ := assert_bind_ok validated
  refine ⟨tpRatio, ratio, ?_, ?_, (by simpa using blocks : dstBlocks = _).symm, ?_, ?_⟩
  · intro negative
    simpa [negative] using single
  · intro plain pos
    simp only [validateBlockLens, TpKVTopology.replicatesKvCache, plain,
      engines.dense] at lens
    split at lens
    · cases lens
    · rename_i remoteBlockLen found
      obtain ⟨-, lens⟩ := assert_bind_ok lens
      rw [if_pos pos] at lens
      rw [found]
      simpa using of_assert_ok lens
  · have same : (remotes rank).kvCachesBaseAddr.length = worker.blockLenPerLayer.length := by
      simpa using of_assert_ok validated
    rw [same, engines.lens, length_map]
  · cases final
    simp [TpKVTopology.replicatesKvCache, engines.dense]

theorem agreed_of_handshake :
    ∃ tpRatio ranks chunk offset, Agreed worker remoteTp tpRatio ranks chunk offset := by
  obtain ⟨tpRatio, ratioRan, single, scaled, -⟩ := addRemoteAgent_ok engines ran
  have repl : worker.kvTopo.isKvReplicated remoteTp = true ↔
      worker.kvTopo.totalNumKvHeads ≤ remoteTp := by
    simp [TpKVTopology.isKvReplicated, Nat.le_div_iff_mul_le engines.shards.someHead]
  obtain ⟨ratio, ⟨sizes, rfl⟩ | ⟨sizes, rfl⟩⟩ := tpRatio_ok engines.shards.someRank ratioRan
  · have ratioPos : 0 < ratio := Nat.pos_of_mul_pos_left (sizes ▸ engines.shards.someRank)
    have targets : worker.kvTopo.getTargetRemoteRanks remoteTp =
        .ok [worker.kvTopo.tpRank / ratio] := by
      simp only [TpKVTopology.getTargetRemoteRanks, ratioRan, ok_bind]
      rw [if_pos (by omega)]
      rfl
    cases kind : worker.kvTopo.isKvReplicated remoteTp with
    | true => exact ⟨_, _, _, _, ratioRan, targets,
        cut_replicated engines.shards engines.remoteShards _ sizes (repl.mp kind), by simp,
        by simp [kind]⟩
    | false =>
      have fits : worker.kvTopo.tpSize ≤ worker.kvTopo.totalNumKvHeads := by
        have small : remoteTp ≤ worker.kvTopo.totalNumKvHeads := by
          have := mt repl.mpr (by simp [kind])
          omega
        obtain ⟨slots, -, total, perRank, -⟩ := engines.remoteShards.split small
        have perRank : worker.slots remoteTp = slots := perRank
        have len := scaled kind (by omega)
        rw [engines.remoteLens, engines.lens, perRank] at len
        cases headBytes with
        | nil => cases len
        | cons bytes rest =>
          have half : 0 < worker.halves * bytes :=
            Nat.mul_pos (numHalves_pos _) (engines.positive bytes (mem_cons_self ..))
          simp only [map_cons, head?_cons, getD_cons_zero, Option.some.injEq,
            Int.toNat_natCast] at len
          have heads : slots = worker.ownSlots *
              ratio := by
            apply Nat.eq_of_mul_eq_mul_left half
            linarith
          rw [total, sizes]
          exact Nat.mul_le_mul_left _ (heads ▸ Nat.le_mul_of_pos_left _ (headsPerRank_pos ..))
      exact ⟨_, _, _, _, ratioRan, targets,
        cut_smaller engines.shards engines.remoteShards _ sizes fits, by simp, by simp [kind, ratioPos]⟩
  · have ratioPos : 0 < ratio := Nat.pos_of_mul_pos_left (sizes ▸ engines.remoteShards.someRank)
    have kind := single (by omega)
    refine ⟨_, _, _, _, ratioRan, ?_, cut_larger engines.shards engines.remoteShards _ sizes ?_, ?_, ?_⟩
    · simp only [TpKVTopology.getTargetRemoteRanks, ratioRan, ok_bind]
      rw [if_neg (by omega), neg_neg]
      rfl
    · have := mt repl.mpr (by simp [kind])
      omega
    · simp [ratioPos]
    · simp

end Handshake

/-- A place for heads in the local cache: a half of a block in a region. -/
structure Spot where
  layer : Nat
  half : Nat
  block : Nat
  bytes : Nat
  base : Nat

section
variable (spot : Spot) (worker : NixlConnectorWorker)

/-- The place exists. The last two fields are those of its region. -/
structure Spot.Valid (headBytes : List Nat) (spot : Spot) : Prop where
  place : headBytes[spot.layer]? = some spot.bytes
  region : worker.kvCachesBaseAddr[spot.layer]? = some spot.base
  inside : spot.half < worker.halves
  known : spot.block < worker.numBlocks

def Spot.addr (slot : Nat) : Nat :=
  headAddr spot.base worker.halves worker.ownSlots spot.bytes spot.block spot.half slot

def Spot.number : Nat :=
  spot.layer * worker.halves + spot.half

end

def srcHandle (tpRatio : Int) (i : Nat) : List Desc :=
  if tpRatio < 0 ∧ worker.kvTopo.isMla = false then
    (worker.splitSrcBlocks (-tpRatio).toNat).getD i []
  else worker.registerLocalXferHandler worker.kvTopo.blockSize

section Reads
variable {worker : NixlConnectorWorker} {remotes : Nat → NixlAgentMetadata} {spot : Spot}
  {remoteTp dstBlocks rank chunk offset i remoteBase remoteBlock : Nat}
  {headBytes ranks : List Nat} {tpRatio : Int} {descs : List Desc}
  (engines : Engines worker remotes remoteTp headBytes) (valid : spot.Valid worker headBytes)

include valid

theorem Spot.Valid.half_cases : spot.half = 0 ∨ spot.half = 1 ∧ worker.halves = 2 := by
  have inside := valid.inside
  cases blocksFirst : worker.kvTopo.isKvLayoutBlocksFirst <;>
    simp only [numHalves] at inside ⊢ <;> grind

include engines

theorem Engines.blockLen : worker.blockLenPerLayer.getD spot.layer 0 =
    worker.halves * (worker.ownSlots * spot.bytes) := by
  rw [engines.lens, getD_eq_getElem?_getD, getElem?_map, valid.place]
  rfl

theorem Engines.kvBlockLen :
    worker.getBackendAwareKvBlockLen spot.layer = worker.ownSlots * spot.bytes := by
  rw [getBackendAwareKvBlockLen, engines.blockLen valid]
  split <;> simp [numHalves, *]

omit valid in
theorem Engines.numRegions : worker.numRegions = headBytes.length * worker.halves := by
  rw [NixlConnectorWorker.numRegions, engines.bases]
  split <;> simp [numHalves, *]

omit valid in
/-- Every number of a region and every block are those of a place. -/
theorem Engines.exists_spot (inside : number < worker.numRegions)
    (known : block < worker.numBlocks) :
    ∃ spot : Spot, spot.Valid worker headBytes ∧ spot.number worker = number ∧
      spot.block = block := by
  have pos : 0 < worker.halves := numHalves_pos _
  have layerIn : number / worker.halves < headBytes.length :=
    (Nat.div_lt_iff_lt_mul pos).mpr (engines.numRegions ▸ inside)
  refine ⟨⟨number / worker.halves, number % worker.halves, block, _, _⟩,
    ⟨getElem?_eq_getElem layerIn, getElem?_eq_getElem (engines.bases ▸ layerIn),
      Nat.mod_lt _ pos, known⟩, ?_, rfl⟩
  rw [Spot.number, Nat.mul_comm, Nat.div_add_mod]

/-- A byte of the local cache determines its place and chunk. -/
theorem Engines.unique {count i' y y' : Nat}
    (whole : count * chunk = worker.ownSlots) (otherValid : other.Valid worker headBytes)
    (listed : i < count) (listed' : i' < count) (within : y < chunk * spot.bytes)
    (within' : y' < chunk * other.bytes)
    (same : spot.addr worker (i * chunk) + y = other.addr worker (i' * chunk) + y') :
    i' = i ∧ other = spot := by
  have chunks {spot : Spot} {i y : Nat} (listed : i < count) (within : y < chunk * spot.bytes) :
      i * (chunk * spot.bytes) + y < worker.ownSlots * spot.bytes := by
    rw [← whole, mul_assoc]
    exact digits_lt listed within
  have halves := digits_lt valid.inside (chunks listed within)
  have halves' := digits_lt otherValid.inside (chunks listed' within')
  have blocks := digits_lt valid.known halves
  have blocks' := digits_lt otherValid.known halves'
  simp only [Spot.addr, headAddr, mul_assoc, add_assoc] at same
  have sameLayer : other.layer = spot.layer := by
    by_contra differ
    have apart := engines.apart _ _ _ _ valid.region otherValid.region (symm differ)
    rw [engines.blockLen valid, engines.blockLen otherValid] at apart
    omega
  obtain ⟨layer, _, _, bytes, _⟩ := spot
  obtain ⟨_, _, _, _, _⟩ := other
  obtain rfl : layer = _ := sameLayer.symm
  cases valid.place.symm.trans otherValid.place
  cases valid.region.symm.trans otherValid.region
  rw [add_left_cancel_iff] at same
  obtain ⟨rfl, sameHalf⟩ := digits_inj halves' halves same.symm
  obtain ⟨rfl, sameChunk⟩ := digits_inj (chunks listed' within') (chunks listed within) sameHalf
  obtain ⟨rfl, -⟩ := digits_inj within' within sameChunk
  exact ⟨rfl, rfl⟩

variable (agreed : Agreed worker remoteTp tpRatio ranks chunk offset)
include agreed

omit engines valid in
/-- A chunk is the part of the local heads that one rank has. -/
theorem Agreed.chunk_len (bytes : Nat) : (if tpRatio < 0 then
      worker.ownSlots * bytes / (-tpRatio).toNat else worker.ownSlots * bytes) = chunk * bytes := by
  have whole : ranks.length * chunk = worker.ownSlots := agreed.cut.whole
  rw [← whole, agreed.count]
  split
  · rw [Nat.mul_assoc, Nat.mul_div_cancel_left]
    omega
  · rw [Nat.one_mul]

theorem Agreed.dst (listed : i < ranks.length) :
    (srcHandle worker tpRatio i)[spot.number worker * worker.numBlocks + spot.block]? =
      some ⟨spot.addr worker (i * chunk), chunk * spot.bytes, worker.deviceId⟩ := by
  have whole : (worker.registerLocalXferHandler worker.kvTopo.blockSize)[
      spot.number worker * worker.numBlocks + spot.block]? =
      some ⟨spot.addr worker 0, worker.ownSlots * spot.bytes, worker.deviceId⟩ := by
    simp only [registerLocalXferHandler, Nat.div_self engines.blockSize,
      Nat.div_one, Nat.mul_one]
    refine (descs_get valid.region valid.inside valid.known).trans ?_
    simp only [Spot.addr, headAddr, engines.blockLen valid, engines.kvBlockLen valid, Nat.zero_mul,
      Nat.add_zero]
    rcases valid.half_cases with first | ⟨second, -⟩
    · rw [if_pos first, first, Nat.zero_mul, Nat.add_zero]
    · rw [if_neg (by omega), second, Nat.one_mul]
  have parts := agreed.chunk_len spot.bytes
  have number := agreed.count
  rw [srcHandle]
  by_cases negative : tpRatio < 0
  · rw [if_pos negative] at parts number
    rw [if_pos ⟨negative, engines.dense⟩, splitSrcBlocks,
      getD_eq_getElem?_getD, getElem?_map, getElem?_range (by omega), Option.map_some,
      Option.getD_some, getElem?_map, whole]
    simp only [Option.map_some, parts, Spot.addr, headAddr]
    congr 2
    ring
  · rw [if_neg negative] at parts number
    obtain rfl : i = 0 := by omega
    rw [if_neg (by simp [negative]), whole, parts, Nat.zero_mul]

theorem Agreed.src
    (ran : worker.addRemoteAgent dstBlocks (remotes rank) remoteTp = .ok descs)
    (region : (remotes rank).kvCachesBaseAddr[spot.layer]? = some remoteBase)
    (known : remoteBlock < dstBlocks) : descs[spot.number worker * dstBlocks + remoteBlock]? =
      some ⟨headAddr remoteBase worker.halves (worker.slots remoteTp) spot.bytes remoteBlock
        spot.half offset, chunk * spot.bytes, (remotes rank).deviceId⟩ := by
  obtain ⟨_, ratio, -, -, rfl, -, rfl⟩ := addRemoteAgent_ok engines ran
  cases agreed.ratio.symm.trans ratio
  have page : (remotes rank).blockLens.getD spot.layer 0 =
      worker.halves * (worker.slots remoteTp * spot.bytes) := by
    rw [engines.remoteLens, getD_eq_getElem?_getD, getElem?_map, valid.place]
    rfl
  have shift : (if (!worker.kvTopo.isKvReplicated remoteTp && decide (tpRatio > 0)) = true then
      worker.kvTopo.tpRank % tpRatio.toNat * (worker.ownSlots * spot.bytes) else 0) =
      offset * spot.bytes := by
    rw [agreed.offset]
    split
    · ring
    · simp
  simp only [registerRemoteBlocks, Nat.div_one]
  refine (descs_get region valid.inside known).trans ?_
  simp only [engines.dense, and_true, engines.kvBlockLen valid, agreed.chunk_len, page, shift,
    headAddr]
  rcases valid.half_cases with first | ⟨second, two⟩
  · rw [if_pos first, first, Nat.zero_mul, Nat.add_zero]
  · rw [if_neg (by omega), second, two, Nat.one_mul, Nat.mul_div_cancel_left _ Nat.two_pos,
      Nat.add_right_comm]

end Reads

def copyAt (tpRatio : Int) (dstNumBlocks : Nat) (handles : Nat → List Desc) (rank i number : Nat)
    (blocks : Nat × Nat) : NixlConnectorWorker.Copy :=
  ⟨rank, (srcHandle worker tpRatio i)[number * worker.numBlocks + blocks.1]?.getD ⟨0, 0, 0⟩,
    (handles rank)[number * dstNumBlocks + blocks.2]?.getD ⟨0, 0, 0⟩⟩

def NixlConnectorWorker.Copy.writes (copy : NixlConnectorWorker.Copy) (addr : Nat) : Bool :=
  decide (copy.dst.addr ≤ addr) && decide (addr < copy.dst.addr + copy.dst.len)

def NixlConnectorWorker.Copy.source (copy : NixlConnectorWorker.Copy) (addr : Nat) : Nat :=
  copy.src.addr + (addr - copy.dst.addr)

/-- A byte of a local head is written by one copy, which reads the same byte of the same head
of the model from the corresponding remote block. -/
def ReadsHead (remotes : Nat → NixlAgentMetadata) (remoteTpSize : Nat)
    (reads : List NixlConnectorWorker.Copy) (spot : Spot) (remoteBlock slot byte : Nat) : Prop :=
  ∃ copy remoteBase remoteSlot,
    reads.filter (·.writes (spot.addr worker slot + byte)) = [copy] ∧
    copy.dst.len = copy.src.len ∧
    (remotes copy.remoteRank).kvCachesBaseAddr[spot.layer]? = some remoteBase ∧
    remoteSlot < worker.slots remoteTpSize ∧
    globalHead worker.kvTopo.totalNumKvHeads remoteTpSize copy.remoteRank remoteSlot =
      globalHead worker.kvTopo.totalNumKvHeads worker.kvTopo.tpSize worker.kvTopo.tpRank slot ∧
    copy.source (spot.addr worker slot + byte) = headAddr remoteBase worker.halves
      (worker.slots remoteTpSize) spot.bytes remoteBlock spot.half remoteSlot + byte

section Landing
variable {worker : NixlConnectorWorker} {remotes : Nat → NixlAgentMetadata} {spot : Spot}
  {remoteTp dstBlocks chunk offset remoteBlock slot byte : Nat}
  {headBytes ranks : List Nat} {tpRatio : Int} {handles : Nat → List Desc}
  {localIds remoteIds : List (List Nat)}
  (engines : Engines worker remotes remoteTp headBytes)
  (agreed : Agreed worker remoteTp tpRatio ranks chunk offset)
  (handshakes : ∀ rank ∈ ranks, worker.addRemoteAgent dstBlocks (remotes rank) remoteTp =
    .ok (handles rank))
  (sameLength : localIds.flatten.length = remoteIds.flatten.length)
  (known : ∀ block ∈ localIds.flatten, block < worker.numBlocks)
  (remoteKnown : ∀ block ∈ remoteIds.flatten, block < dstBlocks)
include engines agreed handshakes

/-- Each number, block and rank names a copy to a place. -/
theorem Agreed.copied {blocks : Nat × Nat} (rankAt : ranks[i]? = some rank)
    (inside : number < worker.numRegions) (blockKnown : blocks.1 < worker.numBlocks)
    (remoteBlockKnown : blocks.2 < dstBlocks) :
    ∃ (spot : Spot) (remoteBase : Nat), spot.Valid worker headBytes ∧
      spot.number worker = number ∧ spot.block = blocks.1 ∧
      (remotes rank).kvCachesBaseAddr[spot.layer]? = some remoteBase ∧
      (srcHandle worker tpRatio i)[number * worker.numBlocks + blocks.1]? =
        some ⟨spot.addr worker (i * chunk), chunk * spot.bytes, worker.deviceId⟩ ∧
      (handles rank)[number * dstBlocks + blocks.2]? =
        some ⟨headAddr remoteBase worker.halves (worker.slots remoteTp) spot.bytes blocks.2
          spot.half offset, chunk * spot.bytes, (remotes rank).deviceId⟩ := by
  have handshake := handshakes rank (mem_of_getElem? rankAt)
  obtain ⟨_, -, -, -, -, remoteBases, -⟩ := addRemoteAgent_ok engines handshake
  obtain ⟨spot, valid, rfl, sameBlock⟩ := engines.exists_spot inside blockKnown
  obtain ⟨layerIn, -⟩ := List.getElem?_eq_some_iff.mp valid.place
  have region := getElem?_eq_getElem (remoteBases ▸ layerIn)
  refine ⟨spot, _, valid, rfl, sameBlock, region, ?_,
    agreed.src engines valid handshake region remoteBlockKnown⟩
  rw [← sameBlock]
  exact agreed.dst engines valid (List.getElem?_eq_some_iff.mp rankAt).1

include known remoteKnown

theorem Agreed.reads {makePreppedXfer : PreppedXfer} (byPosition : makePreppedXfer.ByPosition)
    (sameLength : localIds.flatten.length = remoteIds.flatten.length) :
    worker.readBlocksForReq makePreppedXfer remoteTp dstBlocks handles localIds remoteIds =
      .ok (ranks.zipIdx.flatMap (fun entry => (range worker.numRegions).flatMap (fun number =>
        (localIds.flatten.zip remoteIds.flatten).map
          (copyAt worker tpRatio dstBlocks handles entry.1 entry.2 number)))) := by
  simp only [readBlocksForReq, agreed.targets, agreed.ratio, ok_bind,
    engines.dense, Bool.false_eq_true, false_and]
  rw [mapM_ok (g := fun entry => (range worker.numRegions).flatMap (fun number =>
    (localIds.flatten.zip remoteIds.flatten).map
      (copyAt worker tpRatio dstBlocks handles entry.1 entry.2 number)))]
  · rfl
  rintro ⟨rank, i⟩ mem
  dsimp only
  rw [byPosition _ _ _ _ _ (fun ids => ⟨rank, (srcHandle worker tpRatio i)[ids.1]?.getD ⟨0, 0, 0⟩,
    (handles rank)[ids.2]?.getD ⟨0, 0, 0⟩⟩)]
  · simp only [getBlockDescsIds, zip_flatMap_map _ _ sameLength, map_flatMap, map_map]
    rfl
  · intro ids chosen
    rw [getBlockDescsIds, getBlockDescsIds, zip_flatMap_map _ _ sameLength] at chosen
    obtain ⟨number, inside, chosen⟩ := mem_flatMap.mp chosen
    obtain ⟨_, paired, rfl⟩ := mem_map.mp chosen
    obtain ⟨_, _, -, -, -, -, dst, src⟩ := agreed.copied engines handshakes
      (mem_zipIdx_iff_getElem?.mp mem) (mem_range.mp inside)
      (known _ (of_mem_zip paired).1) (remoteKnown _ (of_mem_zip paired).2)
    simp only [srcHandle, engines.dense] at dst ⊢
    exact ⟨_, _, dst, src, by simp only [Prod.map, dst, src]; rfl⟩

variable (valid : spot.Valid worker headBytes) (small : slot < worker.ownSlots)
  (low : byte < spot.bytes)
include valid small low

omit engines handshakes known remoteKnown valid in
/-- The place, the chunk and the byte of the chunk. -/
theorem Agreed.in_chunk : slot / chunk < ranks.length ∧
    slot % chunk * spot.bytes + byte < chunk * spot.bytes ∧ spot.addr worker slot + byte =
      spot.addr worker (slot / chunk * chunk) + (slot % chunk * spot.bytes + byte) := by
  have pos := agreed.cut.positive
  refine ⟨(Nat.div_lt_iff_lt_mul pos).mpr (lt_of_lt_of_eq small agreed.cut.whole.symm),
    digits_lt (Nat.mod_lt _ pos) low, ?_⟩
  have split := Nat.div_add_mod slot chunk
  rw [Spot.addr, Spot.addr, headAddr, headAddr]
  nth_rewrite 1 [← split]
  ring

/-- A copy that writes a byte of a head is for its chunk and place. -/
theorem Agreed.only_copy (rank i number : Nat) (blocks : Nat × Nat)
    (rankAt : ranks[i]? = some rank) (numbered : number ∈ range worker.numRegions)
    (chosen : blocks ∈ localIds.flatten.zip remoteIds.flatten)
    (writes : (copyAt worker tpRatio dstBlocks handles rank i number blocks).writes
      (spot.addr worker slot + byte) = true) :
    i = slot / chunk ∧ number = spot.number worker ∧ blocks.1 = spot.block := by
  obtain ⟨listed, within, sum⟩ := agreed.in_chunk small low
  obtain ⟨_, _, otherValid, rfl, sameBlock, -, dst, -⟩ := agreed.copied engines handshakes rankAt
    (mem_range.mp numbered) (known _ (of_mem_zip chosen).1)
    (remoteKnown _ (of_mem_zip chosen).2)
  simp only [copyAt, dst, NixlConnectorWorker.Copy.writes, Option.getD_some, Bool.and_eq_true,
    decide_eq_true_eq] at writes
  obtain ⟨y, found⟩ := Nat.exists_eq_add_of_le writes.1
  obtain ⟨rfl, rfl⟩ := engines.unique valid agreed.cut.whole otherValid listed
    (List.getElem?_eq_some_iff.mp rankAt).1 within (by omega) (sum.symm.trans found)
  exact ⟨rfl, rfl, sameBlock.symm⟩

theorem Agreed.reads_head
    (sameLength : localIds.flatten.length = remoteIds.flatten.length)
    (distinct : localIds.flatten.Nodup)
    (paired : (spot.block, remoteBlock) ∈ localIds.flatten.zip remoteIds.flatten) :
    ReadsHead worker remotes remoteTp
      (ranks.zipIdx.flatMap (fun entry => (range worker.numRegions).flatMap (fun number =>
        (localIds.flatten.zip remoteIds.flatten).map
          (copyAt worker tpRatio dstBlocks handles entry.1 entry.2 number))))
      spot remoteBlock slot byte := by
  have only := agreed.only_copy engines handshakes known remoteKnown valid small low
  obtain ⟨listed, _, sum⟩ := agreed.in_chunk small low
  obtain ⟨rank, rankAt⟩ : ∃ rank, ranks[slot / chunk]? = some rank :=
    ⟨_, getElem?_eq_getElem listed⟩
  have numberIn : spot.number worker ∈ range worker.numRegions := by
    rw [mem_range, engines.numRegions]
    exact digits_lt (List.getElem?_eq_some_iff.mp valid.place).1 valid.inside
  have handshake := handshakes rank (mem_of_getElem? rankAt)
  obtain ⟨_, -, -, -, -, remoteBases, -⟩ := addRemoteAgent_ok engines handshake
  obtain ⟨layerIn, -⟩ := List.getElem?_eq_some_iff.mp valid.place
  have region := getElem?_eq_getElem (remoteBases ▸ layerIn)
  have dst := agreed.dst engines valid listed
  have src := agreed.src engines valid handshake region (remoteKnown _ (of_mem_zip paired).2)
  have entryIn : (rank, slot / chunk) ∈ ranks.zipIdx := mem_zipIdx_iff_getElem?.mpr rankAt
  have entries : ranks.zipIdx.Nodup := by
    apply List.Nodup.of_map Prod.snd
    rw [zipIdx_map_snd]
    exact nodup_range'
  have zipped : ((localIds.flatten.zip remoteIds.flatten).map Prod.fst).Nodup := by
    rwa [map_fst_zip (le_of_eq sameLength)]
  refine ⟨copyAt worker tpRatio dstBlocks handles rank (slot / chunk) (spot.number worker)
    (spot.block, remoteBlock), _, offset + slot % chunk, ?_, ?_, region, ?_, ?_, ?_⟩
  · have self : (copyAt worker tpRatio dstBlocks handles rank (slot / chunk) (spot.number worker)
        (spot.block, remoteBlock)).writes (spot.addr worker slot + byte) = true := by
      simp only [copyAt, dst, NixlConnectorWorker.Copy.writes, Option.getD_some, Bool.and_eq_true,
        decide_eq_true_eq]
      omega
    rw [filter_flatMap_of_unique entries entryIn, filter_flatMap_of_unique nodup_range numberIn,
      map_eq_flatMap, filter_flatMap_of_unique (zipped.of_map _) paired, filter_singleton,
      self]
    · rfl
    · rintro blocks chosen ⟨copy, yields, writes⟩
      cases mem_singleton.mp yields
      exact inj_on_of_nodup_map zipped chosen paired (only _ _ _ _ rankAt numberIn chosen writes).2.2
    · rintro number numbered ⟨copy, yields, writes⟩
      obtain ⟨blocks, chosen, rfl⟩ := mem_map.mp yields
      exact (only _ _ _ _ rankAt numbered chosen writes).2.1
    · rintro ⟨_, i⟩ entered ⟨copy, yields, writes⟩
      obtain ⟨number, numbered, yields⟩ := mem_flatMap.mp yields
      obtain ⟨blocks, chosen, rfl⟩ := mem_map.mp yields
      have otherAt := mem_zipIdx_iff_getElem?.mp entered
      obtain rfl : i = slot / chunk := (only _ _ _ _ otherAt numbered chosen writes).1
      exact Prod.ext (Option.some.inj (otherAt.symm.trans rankAt)) rfl
  · simp only [copyAt, dst, src, Option.getD_some]
  · have := Nat.mod_lt slot agreed.cut.positive
    exact lt_of_lt_of_le (by omega) agreed.cut.inside
  · have same := agreed.cut.same _ _ rankAt _ (Nat.mod_lt slot agreed.cut.positive)
    rwa [Nat.mul_comm, Nat.div_add_mod] at same
  · simp only [copyAt, dst, src, Option.getD_some, NixlConnectorWorker.Copy.source, sum]
    rw [Nat.add_sub_cancel_left, headAddr, headAddr]
    ring

end Landing

theorem reads_land_on_heads {makePreppedXfer : PreppedXfer}
    (byPosition : makePreppedXfer.ByPosition) (remotes : Nat → NixlAgentMetadata)
    (remoteTpSize dstNumBlocks : Nat) (headBytes ranks : List Nat) (handles : Nat → List Desc)
    (localBlockIds remoteBlockIds : List (List Nat))
    (engines : Engines worker remotes remoteTpSize headBytes)
    (targets : worker.kvTopo.getTargetRemoteRanks remoteTpSize = .ok ranks)
    (handshakes : ∀ rank ∈ ranks, worker.addRemoteAgent dstNumBlocks (remotes rank) remoteTpSize =
      .ok (handles rank))
    (sameLength : localBlockIds.flatten.length = remoteBlockIds.flatten.length)
    (distinct : localBlockIds.flatten.Nodup)
    (known : ∀ block ∈ localBlockIds.flatten, block < worker.numBlocks)
    (remoteKnown : ∀ block ∈ remoteBlockIds.flatten, block < dstNumBlocks) :
    ∃ reads, worker.readBlocksForReq makePreppedXfer remoteTpSize dstNumBlocks handles
        localBlockIds remoteBlockIds = .ok reads ∧
      ∀ (spot : Spot) (remoteBlock slot byte : Nat), spot.Valid worker headBytes →
        (spot.block, remoteBlock) ∈ localBlockIds.flatten.zip remoteBlockIds.flatten →
        slot < worker.ownSlots → byte < spot.bytes →
        ReadsHead worker remotes remoteTpSize reads spot remoteBlock slot byte := by
  obtain ⟨first, mem⟩ := exists_mem_of_ne_nil _ (targets_ne_nil engines.shards.someRank
    engines.remoteShards.someRank targets)
  obtain ⟨_, _, _, _, agreed⟩ :=
    agreed_of_handshake engines (handshakes first mem)
  cases agreed.targets.symm.trans targets
  refine ⟨_, agreed.reads engines handshakes known remoteKnown byPosition sameLength, ?_⟩
  intro spot remoteBlock slot byte valid paired small low
  exact agreed.reads_head engines handshakes known remoteKnown valid small low sameLength distinct
    paired

def wholeWorker : NixlConnectorWorker where
  kvTopo := ⟨0, 1, 16, false, 4, true⟩
  deviceId := 0
  kvCachesBaseAddr := [1000]
  numBlocks := 3
  blockLenPerLayer := [64]
  kvCacheLayout := .hnd
  isHmaRequired := false
  enablePermuteLocalKv := false

def halfAgent (rank : Nat) : NixlAgentMetadata where
  deviceId := rank
  kvCachesBaseAddr := [2000 + 1000 * rank]
  numBlocks := 4
  blockLens := [32]
  kvCacheLayout := .hnd
  blockSize := 16

def makePreppedXfer (remoteRank : Nat) (localDescs remoteDescs : List Desc)
    (localIds remoteIds : List Nat) : Py (List NixlConnectorWorker.Copy) :=
  (localIds.zip remoteIds).mapM (fun (localId, remoteId) =>
    match localDescs[localId]?, remoteDescs[remoteId]? with
    | some dst, some src => .ok ⟨remoteRank, dst, src⟩
    | _, _ => .error (.indexError "descriptor index out of range"))

theorem makePreppedXfer_byPosition : PreppedXfer.ByPosition makePreppedXfer := by
  intro _ _ _ _ _ copy named
  refine mapM_ok fun ids mem => ?_
  obtain ⟨_, _, dst, src, same⟩ := named ids mem
  simp only [dst, src, same]

theorem reads_land_on_heads_two_ranks : ∃ reads,
    wholeWorker.readBlocksForReq makePreppedXfer 2 4 (fun rank =>
      wholeWorker.registerRemoteBlocks (halfAgent rank) (-2) 1 false) [[1, 2]] [[0, 3]] = .ok reads ∧
    ReadsHead wholeWorker halfAgent 2 reads ⟨0, 1, 2, 8, 1000⟩ 3 3 5 := by
  have engines : Engines wholeWorker halfAgent 2 [8] := by
    refine ⟨rfl, by decide, fun _ => rfl, ⟨rfl, fun _ => rfl⟩, ⟨by decide, by decide, by decide⟩,
      ⟨by decide, by decide, by decide⟩, by decide, by decide, fun _ => rfl, rfl, ?_⟩
    intro _ _ _ _ one two _
    obtain ⟨inside, -⟩ := List.getElem?_eq_some_iff.mp one
    obtain ⟨inside', -⟩ := List.getElem?_eq_some_iff.mp two
    simp only [wholeWorker, length_cons, length_nil] at inside inside'
    omega
  obtain ⟨reads, ran, heads⟩ := reads_land_on_heads wholeWorker makePreppedXfer_byPosition
    halfAgent 2 4 [8] [0, 1] (fun rank => wholeWorker.registerRemoteBlocks (halfAgent rank) (-2) 1 false) [[1, 2]] [[0, 3]]
    engines (by decide) (by decide) (by decide) (by decide) (by decide) (by decide)
  exact ⟨reads, ran, heads ⟨0, 1, 2, 8, 1000⟩ 3 3 5 ⟨by decide, by decide, by decide, by decide⟩
    (by decide) (by decide) (by decide)⟩

end Vllm.Nixl
