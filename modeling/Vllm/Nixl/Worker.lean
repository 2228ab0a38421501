import Vllm.Python

/-! The worker half of the NIXL connector: the tensor-parallel topology, the handshake with
a remote engine, and the descriptors of the memory that a read copies. Hybrid models with
Mamba layers are left out; they need equal tensor-parallel sizes. -/
namespace Vllm.Nixl

inductive KVCacheLayout where
  | nhd
  | hnd
  deriving DecidableEq, Repr

structure TpKVTopology where
  tpRank : Nat
  tpSize : Nat
  blockSize : Nat
  isMla : Bool
  totalNumKvHeads : Nat
  /-- K and V of a block are its two halves. -/
  isKvLayoutBlocksFirst : Bool

namespace TpKVTopology
variable (topo : TpKVTopology) (remoteTpSize : Nat)

/-- Local workers for one remote worker, or the negated number of remote workers for one
local worker. -/
def tpRatio : Py Int :=
  let tpSize := topo.tpSize
  if tpSize ≥ remoteTpSize then do
    Py.assert (tpSize % remoteTpSize == 0)
      s!"Local tensor parallel size {tpSize} is not divisible by remote tensor parallel size {remoteTpSize}."
    return tpSize / remoteTpSize
  else do
    Py.assert (remoteTpSize % tpSize == 0)
      s!"Remote tensor parallel size {remoteTpSize} is not divisible by local tensor parallel size {tpSize}."
    return -remoteTpSize / tpSize

def blockSizeRatio (remoteBlockSize : Nat) : Py Nat := do
  let blockSize := topo.blockSize
  Py.assert (blockSize % remoteBlockSize == 0)
    s!"Local block size {blockSize} is not divisible by remote block size {remoteBlockSize} or vice versa."
  return blockSize / remoteBlockSize

def isKvReplicated : Bool := remoteTpSize / topo.totalNumKvHeads ≥ 1

def replicatesKvCache : Bool := topo.isMla || topo.isKvReplicated remoteTpSize

def getTargetRemoteRanks : Py (List Nat) := do
  let tpRatio ← topo.tpRatio remoteTpSize
  if tpRatio > 0 then
    return [topo.tpRank / tpRatio.toNat]
  else
    return (List.range (-tpRatio).toNat).map (fun i => topo.tpRank * (-tpRatio).toNat + i)

end TpKVTopology

structure Desc where
  addr : Nat
  len : Nat
  deviceId : Nat
  deriving DecidableEq, Repr

structure NixlAgentMetadata where
  deviceId : Nat
  kvCachesBaseAddr : List Nat
  numBlocks : Nat
  blockLens : List Nat
  kvCacheLayout : KVCacheLayout
  blockSize : Nat

structure NixlConnectorWorker where
  kvTopo : TpKVTopology
  deviceId : Nat
  kvCachesBaseAddr : List Nat
  numBlocks : Nat
  blockLenPerLayer : List Nat
  kvCacheLayout : KVCacheLayout
  isHmaRequired : Bool
  /-- The setting of the KV transfer configuration. -/
  enablePermuteLocalKv : Bool

/-- The descriptors of one registered region: the first half of each block, then the second
half of each if the blocks have two. -/
def regionDescs (blocksFirst : Bool) (numBlocks : Nat) (first second : Nat → Desc) : List Desc :=
  (List.range numBlocks).map first ++
    if blocksFirst then (List.range numBlocks).map second else []

namespace NixlConnectorWorker
variable (worker : NixlConnectorWorker)

def numRegions : Nat :=
  if worker.kvTopo.isKvLayoutBlocksFirst then worker.kvCachesBaseAddr.length * 2
  else worker.kvCachesBaseAddr.length

def getBackendAwareKvBlockLen (layerIdx : Nat) : Nat :=
  if worker.kvTopo.isKvLayoutBlocksFirst then worker.blockLenPerLayer.getD layerIdx 0 / 2
  else worker.blockLenPerLayer.getD layerIdx 0

def registerLocalXferHandler (blockSize : Nat) : List Desc :=
  let blockSizeRatio := worker.kvTopo.blockSize / blockSize
  worker.kvCachesBaseAddr.zipIdx.flatMap (fun (baseAddr, i) =>
    let kvBlockLen := worker.getBackendAwareKvBlockLen i / blockSizeRatio
    let blockLen := worker.blockLenPerLayer.getD i 0 / blockSizeRatio
    regionDescs worker.kvTopo.isKvLayoutBlocksFirst (worker.numBlocks * blockSizeRatio)
      (fun blockId => ⟨baseAddr + blockId * blockLen, kvBlockLen, worker.deviceId⟩)
      (fun blockId => ⟨baseAddr + blockId * blockLen + kvBlockLen,
        worker.getBackendAwareKvBlockLen i, worker.deviceId⟩))

def splitSrcBlocks (numChunks : Nat) : List (List Desc) :=
  (List.range numChunks).map (fun i =>
    (worker.registerLocalXferHandler worker.kvTopo.blockSize).map (fun region =>
      let remoteBlockLen := region.len / numChunks
      ⟨region.addr + i * remoteBlockLen, remoteBlockLen, region.deviceId⟩))

variable (dstNumBlocks : Nat) (agent : NixlAgentMetadata) (remoteTpSize : Nat)

def registerRemoteBlocks (tpRatio : Int) (blockSizeRatio : Nat)
    (indexesIntoRemote : Bool) : List Desc :=
  agent.kvCachesBaseAddr.zipIdx.flatMap (fun (baseAddr, i) =>
    let chunked (len : Nat) :=
      if tpRatio < 0 ∧ worker.kvTopo.isMla = false then len / (-tpRatio).toNat else len
    let remoteKvBlockLen := worker.getBackendAwareKvBlockLen i / blockSizeRatio
    let rankOffset := if indexesIntoRemote then
      worker.kvTopo.tpRank % tpRatio.toNat * remoteKvBlockLen else 0
    let pageSize := agent.blockLens.getD i 0
    regionDescs worker.kvTopo.isKvLayoutBlocksFirst agent.numBlocks
      (fun blockId => ⟨baseAddr + blockId * pageSize + rankOffset, chunked remoteKvBlockLen,
        agent.deviceId⟩)
      (fun blockId => ⟨baseAddr + blockId * pageSize + rankOffset + pageSize / 2,
        chunked (worker.getBackendAwareKvBlockLen i), agent.deviceId⟩))

/-- Engines with different layouts can work together if the local one permutes its cache. -/
def validateLayout : Py Unit :=
  if worker.kvTopo.isMla = false ∧ agent.kvCacheLayout ≠ worker.kvCacheLayout then
    if worker.enablePermuteLocalKv ∧ agent.kvCacheLayout = .hnd then
      Py.assert (!worker.isHmaRequired) "HMA does not support block size post processing"
    else .error (.runtimeError ("Heterogeneous TP expects same kv_cache_layout. " ++
      "Or enable experimental feature to use HND to NHD support by setting " ++
      "'enable_permute_local_kv'=True in --kv-transfer-config."))
  else .ok ()

def validateBlockLens (tpRatio : Int)
    (blockSizeRatio : Nat) : Py Unit :=
  match agent.blockLens.head? with
  | none => .error (.indexError "list index out of range")
  | some remoteBlockLen =>
    if worker.kvTopo.replicatesKvCache remoteTpSize then
      Py.assert (worker.blockLenPerLayer.zipIdx.all (fun (blockLen, i) =>
          decide (agent.blockLens[i]? = some (blockLen / blockSizeRatio))))
        "KV cache sizes must match between P and D when replicated"
    else do
      Py.assert (agent.blockLens.all (· == remoteBlockLen))
        "All remote layers must have the same block size"
      let blockLen := worker.blockLenPerLayer.getD 0 0
      if tpRatio > 0 then
        Py.assert (remoteBlockLen == blockLen * tpRatio.toNat / blockSizeRatio)
          ("Remote P worker KV layer cache must be of shape [2, N, " ++
            "local_kv_heads*tp_ratio, page_size, head_dim] and same dtype.")
      else do
        Py.assert (blockSizeRatio == 1)
          "Different local/remote block sizes are not supported when P TP > D TP."
        Py.assert (remoteBlockLen == blockLen / (-tpRatio).toNat)
          ("Remote P worker KV layer cache must be of shape [2, N, " ++
            "local_kv_heads/tp_ratio, page_size, head_dim] and same dtype.")

def validateRemoteAgentHandshake : Py Unit := do
  let tpRatio ← worker.kvTopo.tpRatio remoteTpSize
  let blockSizeRatio ← worker.kvTopo.blockSizeRatio agent.blockSize
  Py.assert (!(decide (tpRatio < 0) && worker.kvTopo.isKvReplicated remoteTpSize)) ""
  Py.assert (!worker.isHmaRequired || blockSizeRatio == 1)
    "HMA does not support different remote block size yet"
  worker.validateLayout agent
  worker.validateBlockLens agent remoteTpSize tpRatio blockSizeRatio
  Py.assert (dstNumBlocks == agent.numBlocks) ""
  Py.assert (agent.kvCachesBaseAddr.length == worker.blockLenPerLayer.length) ""

/-- The descriptors for reading from a remote worker. `dstNumBlocks` is the number of
blocks that its engine has registered. -/
def addRemoteAgent : Py (List Desc) := do
  let blockSizeRatio ← worker.kvTopo.blockSizeRatio agent.blockSize
  worker.validateRemoteAgentHandshake dstNumBlocks agent remoteTpSize
  let tpRatio ← worker.kvTopo.tpRatio remoteTpSize
  let indexesIntoRemote := !worker.kvTopo.replicatesKvCache remoteTpSize && decide (tpRatio > 0)
  return worker.registerRemoteBlocks agent tpRatio blockSizeRatio indexesIntoRemote

def getBlockDescsIds (numBlocks : Nat) (blockIds : List (List Nat)) : List Nat :=
  (List.range worker.numRegions).flatMap (fun regionId =>
    blockIds.flatten.map (fun blockId => regionId * numBlocks + blockId))

structure Copy where
  remoteRank : Nat
  dst : Desc
  src : Desc
  deriving DecidableEq, Repr

/-- `make_prepped_xfer` of the transfer library, from one remote rank. -/
abbrev PreppedXfer := Nat → (localDescs remoteDescs : List Desc) → (localIds remoteIds : List Nat) →
  Py (List Copy)

/-- Descriptors that are named by known indices at the same position are copied. -/
def PreppedXfer.ByPosition (makePreppedXfer : PreppedXfer) : Prop :=
  ∀ remoteRank localDescs remoteDescs localIds remoteIds (copy : Nat × Nat → Copy),
    (∀ ids ∈ List.zip localIds remoteIds, ∃ dst src, localDescs[ids.1]? = some dst ∧
      remoteDescs[ids.2]? = some src ∧ copy ids = ⟨remoteRank, dst, src⟩) →
    makePreppedXfer remoteRank localDescs remoteDescs localIds remoteIds =
      .ok ((localIds.zip remoteIds).map copy)

/-- The reads of a request, from each of its remote ranks in turn, between engines whose
blocks have the same size. -/
def readBlocksForReq (makePreppedXfer : PreppedXfer) (remoteTpSize dstNumBlocks : Nat)
    (dstXferSideHandles : Nat → List Desc) (localBlockIds remoteBlockIds : List (List Nat)) :
    Py (List Copy) := do
  let remoteRanks ← worker.kvTopo.getTargetRemoteRanks remoteTpSize
  let tpRatio ← worker.kvTopo.tpRatio remoteTpSize
  -- with MLA one read is enough, as the cache is duplicated
  let remoteRanks := if worker.kvTopo.isMla ∧ tpRatio < 0 then remoteRanks.take 1 else remoteRanks
  let reads ← remoteRanks.zipIdx.mapM (fun (remoteRank, i) =>
    let localXferSideHandle := if tpRatio < 0 ∧ worker.kvTopo.isMla = false then
        (worker.splitSrcBlocks (-tpRatio).toNat).getD i []
      else worker.registerLocalXferHandler worker.kvTopo.blockSize
    makePreppedXfer remoteRank localXferSideHandle (dstXferSideHandles remoteRank)
      (worker.getBlockDescsIds worker.numBlocks localBlockIds)
      (worker.getBlockDescsIds dstNumBlocks remoteBlockIds))
  return reads.flatten

end NixlConnectorWorker
end Vllm.Nixl
