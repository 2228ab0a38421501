import Vllm.Python
import Vllm.Lib.Replicas

/-! The default expert placement policy, for one layer. The source works on all layers at
once, row by row. An array is a function of its index that is read below its length. The loads
are of any type `W` with a linear order, an addition and a division by counts, rounded or not, and
the loads of packs of any type `V` to which loads are added; its greatest element is infinity. -/
namespace Vllm.Eplb
open Rows Replicas List Function

/-- `np.argsort`. The order of equal elements is not specified. -/
structure Sorter where
  argsort : {α : Type} → [LinearOrder α] → Nat → (Nat → α) → List Nat
  perm : ∀ {α : Type} [LinearOrder α] (n : Nat) (keys : Nat → α), (argsort n keys).Perm (range n)
  sorted : ∀ {α : Type} [LinearOrder α] (n : Nat) (keys : Nat → α),
    (argsort n keys).Pairwise (fun i j => keys i ≤ keys j)

def Sorter.stable : Sorter where
  argsort n keys := (range n).insertionSort (fun i j => keys i ≤ keys j)
  perm _ _ := perm_insertionSort _ _
  sorted _ keys :=
    have : Std.Total (fun i j => keys i ≤ keys j) := ⟨fun i j => le_total (keys i) (keys j)⟩
    have : IsTrans Nat (fun i j => keys i ≤ keys j) := ⟨fun _ _ _ => le_trans⟩
    pairwise_insertionSort _ _

/-- The first index of the least element. -/
def argmin {α : Type} [LinearOrder α] (n : Nat) (row : Nat → α) : Nat :=
  (range n).findIdx (fun i => decide (∀ j ∈ range n, row i ≤ row j))

/-- The first index of the greatest element. -/
def argmax {α : Type} [LinearOrder α] (n : Nat) (row : Nat → α) : Nat :=
  argmin n (fun i => OrderDual.toDual (row i))

/-- `assert n % d == 0`. -/
def assertDivides (n d : Nat) (message : String) : Py Unit :=
  if d = 0 then .error (.zeroDivisionError "integer modulo by zero")
  else Py.assert (n % d = 0) message

variable {W : Type} [LinearOrder W] [Zero W] [Add W] [HDiv W Nat W] (sorter : Sorter)
  (V : Type) [LinearOrder V] [OrderTop V] [Zero V] [HAdd V W V]

structure Packing where
  packIndex : Nat → Nat
  rankInPack : Nat → Nat

/-- The arrays of the packing loop. The cells of the first two hold -1 in the source until they
are written. -/
structure Packs (V : Type) extends Packing where
  packWeights : Nat → V
  packItems : Nat → Nat

def emptyPacks : Packs V where
  packIndex _ := 0
  rankInPack _ := 0
  packWeights _ := 0
  packItems _ := 0

/-- One group goes to the lightest pack; a pack that becomes full is masked out by infinity. -/
def packGroup {V : Type} [LinearOrder V] [OrderTop V] [HAdd V W V] (numPacks groupsPerPack : Nat)
    (weight : Nat → W) (packs : Packs V) (group : Nat) : Packs V :=
  let pack := argmin numPacks packs.packWeights
  let items := packs.packItems pack + 1
  { packIndex := update packs.packIndex group pack
    rankInPack := update packs.rankInPack group (packs.packItems pack)
    packWeights := update packs.packWeights pack
      (if items = groupsPerPack then ⊤ else packs.packWeights pack + weight group)
    packItems := update packs.packItems pack items }

section
variable (numLog numGroups : Nat) (weight : Nat → W)

def balancedPacking (numPacks : Nat) : Py Packing := do
  assertDivides numGroups numPacks "num_groups % num_packs == 0"
  let groupsPerPack := numGroups / numPacks
  if groupsPerPack = 1 then .ok ⟨fun group => group, fun _ => 0⟩
  else
    let indices := sorter.argsort numGroups (fun group => OrderDual.toDual (weight group))
    .ok (indices.foldl (packGroup numPacks groupsPerPack weight) (emptyPacks V)).toPacking

structure Replication where
  phy2log : Nat → Nat
  replicaIdx : Nat → Nat
  logcnt : Nat → Nat
  deriving Inhabited

/-- One more replica for the expert with the greatest load per replica. -/
def replicateOnce (state : Replication) (i : Nat) : Py Replication :=
  if numLog = 0 then .error (.valueError "attempt to get argmax of an empty sequence")
  else
    let redundant := argmax numLog (fun expert => weight expert / state.logcnt expert)
    .ok {
      phy2log := update state.phy2log i redundant
      replicaIdx := update state.replicaIdx i (state.logcnt redundant)
      logcnt := update state.logcnt redundant (state.logcnt redundant + 1) }

def replicateExperts (numPhy : Nat) : Py Replication := do
  Py.assert (numLog ≤ numPhy) "num_redundant >= 0"
  (range' numLog (numPhy - numLog)).foldlM (replicateOnce numLog weight)
    ⟨fun slot => slot, fun _ => 0, fun _ => 1⟩

structure NodePlan where
  replicas : Replication
  pphy2phy : Nat → Nat
  deriving Inhabited

def planNode (numPhy numGpus phyExpertsPerGpu : Nat) (tokensPerMlog : Nat → W) : Py NodePlan := do
  let replicas ← replicateExperts numLog tokensPerMlog numPhy
  let tokensPerPhy := fun slot =>
    tokensPerMlog (replicas.phy2log slot) / replicas.logcnt (replicas.phy2log slot)
  let packing ← balancedPacking sorter V numPhy tokensPerPhy numGpus
  let phy2pphy := fun slot => packing.packIndex slot * phyExpertsPerGpu + packing.rankInPack slot
  .ok ⟨replicas, inverse numPhy phy2pphy⟩

end

/-- The packed order of the logical experts: groups by node, experts by group. -/
def log2mlog (groupSize groupsPerNode : Nat) (groups : Packing) (expert : Nat) : Nat :=
  (groups.packIndex (expert / groupSize) * groupsPerNode +
    groups.rankInPack (expert / groupSize)) * groupSize + expert % groupSize

def joinPlans (numLogicalExperts expertsPerNode slotsPerNode : Nat) (packed : Nat → Nat)
    (plans : List NodePlan) : Replication :=
  let plan := fun node => plans.getD node default
  let pphy2mlog := fun slot =>
    slot / slotsPerNode * expertsPerNode + (plan (slot / slotsPerNode)).replicas.phy2log
      ((plan (slot / slotsPerNode)).pphy2phy (slot % slotsPerNode))
  { phy2log := fun slot => inverse numLogicalExperts packed (pphy2mlog slot)
    replicaIdx := fun slot => (plan (slot / slotsPerNode)).replicas.replicaIdx
      ((plan (slot / slotsPerNode)).pphy2phy (slot % slotsPerNode))
    logcnt := fun expert => (plan (packed expert / expertsPerNode)).replicas.logcnt
      (packed expert % expertsPerNode) }

def tokensPerGroup (groupSize : Nat) (weight : Nat → W) (group : Nat) : W :=
  ((range groupSize).map (fun i => weight (group * groupSize + i))).sum

def rebalanceExpertsHierarchical (weight : Nat → W) (numLogicalExperts numPhysicalExperts numGroups
    numNodes numGpus : Nat) : Py Replication := do
  assertDivides numLogicalExperts numGroups "num_logical_experts % num_groups == 0"
  let groupSize := numLogicalExperts / numGroups
  assertDivides numGroups numNodes "num_groups % num_nodes == 0"
  let groupsPerNode := numGroups / numNodes
  assertDivides numGpus numNodes "num_gpus % num_nodes == 0"
  assertDivides numPhysicalExperts numGpus "num_physical_experts % num_gpus == 0"
  let phyExpertsPerGpu := numPhysicalExperts / numGpus
  let groups ← balancedPacking sorter V numGroups (tokensPerGroup groupSize weight) numNodes
  let packed := log2mlog groupSize groupsPerNode groups
  let expertsPerNode := numLogicalExperts / numNodes
  let slotsPerNode := numPhysicalExperts / numNodes
  let plans ← (range numNodes).mapM (fun node =>
    planNode sorter V expertsPerNode slotsPerNode (numGpus / numNodes) phyExpertsPerGpu
      (fun i => weight (inverse numLogicalExperts packed (node * expertsPerNode + i))))
  -- the node offsets are `np.arange(0, num_logical_experts, expertsPerNode)`
  if expertsPerNode = 0 then .error (.zeroDivisionError "division by zero")
  else .ok (joinPlans numLogicalExperts expertsPerNode slotsPerNode packed plans)

structure Kept where
  phy2log : Nat → Nat
  replicaIdx : Nat → Nat
  usedNewIndices : Nat → Bool
  preservedPositions : Nat → Bool

section
variable (slotsPerGpu : Nat) (oldLocal : Nat → Int) (newLocal newRidx : Nat → Nat) (kept : Kept)

def preserveSlot (slot : Nat) : Kept :=
  match (range slotsPerGpu).find? (fun i =>
      decide ((newLocal i : Int) = oldLocal slot) && !kept.usedNewIndices i) with
  | none => kept
  | some matched =>
    { phy2log := update kept.phy2log slot (newLocal matched)
      replicaIdx := update kept.replicaIdx slot (newRidx matched)
      usedNewIndices := update kept.usedNewIndices matched true
      preservedPositions := update kept.preservedPositions slot true }

def priority (mask : Nat → Bool) (i : Nat) : Nat :=
  if mask i then i else slotsPerGpu + 1

/-- The remaining experts go to the remaining slots, both in increasing order. -/
def fillSlots : (Nat → Nat) × (Nat → Nat) :=
  let remaining := fun i => !kept.usedNewIndices i
  let fill := fun i => !kept.preservedPositions i
  let remainingIndices := sorter.argsort slotsPerGpu (priority slotsPerGpu remaining)
  let fillIndices := sorter.argsort slotsPerGpu (priority slotsPerGpu fill)
  let take := min ((range slotsPerGpu).countP remaining) ((range slotsPerGpu).countP fill)
  let moves := (fillIndices.take take).zip (remainingIndices.take take)
  (write kept.phy2log (moves.map (fun move => (move.1, newLocal move.2))),
    write kept.replicaIdx (moves.map (fun move => (move.1, newRidx move.2))))

def preserveGpu : (Nat → Nat) × (Nat → Nat) :=
  fillSlots sorter slotsPerGpu newLocal newRidx
    ((range slotsPerGpu).foldl (preserveSlot slotsPerGpu oldLocal newLocal newRidx)
      ⟨newLocal, newRidx, fun _ => false, fun _ => false⟩)

end

def preserveIntragpuSlots (numPhyExperts numRanks : Nat) (phy2log phyReplicasIdx : Nat → Nat)
    (oldPhy2log : Nat → Int) : (Nat → Nat) × (Nat → Nat) :=
  if numRanks = 0 ∨ numPhyExperts % numRanks ≠ 0 then (phy2log, phyReplicasIdx)
  else
    let slotsPerGpu := numPhyExperts / numRanks
    let gpu := fun gpuIdx => preserveGpu sorter slotsPerGpu
      (fun slot => oldPhy2log (gpuIdx * slotsPerGpu + slot))
      (fun slot => phy2log (gpuIdx * slotsPerGpu + slot))
      (fun slot => phyReplicasIdx (gpuIdx * slotsPerGpu + slot))
    (fun slot => (gpu (slot / slotsPerGpu)).1 (slot % slotsPerGpu),
      fun slot => (gpu (slot / slotsPerGpu)).2 (slot % slotsPerGpu))

structure ExpertMaps where
  phy2log : Nat → Nat
  log2phy : Nat → Nat → Int
  logcnt : Nat → Nat
  deriving Inhabited

def maxlogcnt (numReplicas numLogicalExperts : Nat) : Nat := numReplicas - numLogicalExperts + 1

/-- `log2phy[phy2log, phy_replicas_idx] = arange(num_replicas)`. -/
def fillLog2phy (numReplicas numLogicalExperts : Nat) (phy2log phyReplicasIdx : Nat → Nat) :
    Py (Nat → Nat → Int) :=
  if (range numReplicas).all (fun slot => phy2log slot < numLogicalExperts &&
      phyReplicasIdx slot < maxlogcnt numReplicas numLogicalExperts) then
    .ok (fun expert replica => write (fun _ => -1) ((range numReplicas).map (fun slot =>
      ((phy2log slot, phyReplicasIdx slot), (slot : Int)))) (expert, replica))
  else .error (.indexError "index is out of bounds for axis")

variable (numLayers numLogicalExperts numReplicas numGroups numNodes numRanks : Nat)

/-- The hierarchical policy if the nodes divide the groups, the global one otherwise. -/
def placeExperts (weight : Nat → W) : Py Replication :=
  if numNodes = 0 then .error (.zeroDivisionError "integer modulo by zero")
  else if numGroups % numNodes = 0 then
    rebalanceExpertsHierarchical sorter V weight numLogicalExperts numReplicas numGroups numNodes
      numRanks
  else rebalanceExpertsHierarchical sorter V weight numLogicalExperts numReplicas 1 1 numRanks

def keepSlots (placed : Replication)
    (oldGlobalExpertIndices : Option (Nat → Int)) : Replication :=
  match oldGlobalExpertIndices with
  | none => placed
  | some old =>
    let slots := preserveIntragpuSlots sorter numReplicas numRanks placed.phy2log placed.replicaIdx
      old
    ⟨slots.1, slots.2, placed.logcnt⟩

def rebalanceLayer
    (weight : Nat → W) (oldGlobalExpertIndices : Option (Nat → Int)) : Py ExpertMaps := do
  let placed ← placeExperts sorter V numLogicalExperts numReplicas numGroups numNodes numRanks weight
  let kept := keepSlots sorter numReplicas numRanks placed oldGlobalExpertIndices
  let log2phy ← fillLog2phy numReplicas numLogicalExperts kept.phy2log kept.replicaIdx
  .ok ⟨kept.phy2log, log2phy, kept.logcnt⟩

def rebalanceExperts (weight : Nat → Nat → W) (oldGlobalExpertIndices : Option (Nat → Nat → Int)) :
    Py (List ExpertMaps) :=
  (range numLayers).mapM (fun layer => rebalanceLayer sorter V numLogicalExperts numReplicas
    numGroups numNodes numRanks (weight layer) (oldGlobalExpertIndices.map (· layer)))

end Vllm.Eplb
