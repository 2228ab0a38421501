import Vllm.Eplb.Policy

/-! The maps of the default placement policy are consistent. -/
namespace Vllm.Eplb
open List hiding next
open Replicas Function Py

section Argmin
variable {α : Type} [LinearOrder α]

theorem argmin_spec (row : Nat → α) (some_place : 0 < n) :
    argmin n row < n ∧ ∀ j < n, row (argmin n row) ≤ row j := by
  obtain ⟨least, inside, minimal⟩ := Finset.exists_min_image (Finset.range n) row
    ⟨0, Finset.mem_range.mpr some_place⟩
  have below : argmin n row < (range n).length := by
    apply findIdx_lt_length_of_exists
    refine ⟨least, mem_range.mpr (Finset.mem_range.mp inside), ?_⟩
    simpa using minimal
  have found : ∀ j ∈ range n, row ((range n).get ⟨argmin n row, below⟩) ≤ row j :=
    of_decide_eq_true (findIdx_getElem (w := below))
  simp only [get_eq_getElem, getElem_range] at found
  rw [length_range] at below
  exact ⟨below, fun j member => found j (mem_range.mpr member)⟩

theorem argmax_spec (row : Nat → α) (some_place : 0 < n) :
    argmax n row < n ∧ ∀ j < n, row j ≤ row (argmax n row) :=
  argmin_spec (fun i => OrderDual.toDual (row i)) some_place

end Argmin

section Packing
variable {W V ι : Type} [LinearOrder V] [OrderTop V] [Zero V] [HAdd V W V] {numPacks perPack : Nat}
  {weight : Nat → W} {done : List Nat} {packs : Packs V}

/-- The load of a pack that gets the items one after the other. -/
def load (V : Type) [Zero V] [HAdd V W V] (weight : ι → W) (items : List ι) : V :=
  items.foldl (fun total item => total + weight item) 0

/-- The packs after the groups `done`: no pack holds too many, and those that are full are
masked out. -/
structure Packed (numPacks groupsPerPack : Nat) (weight : Nat → W) (done : List Nat)
    (packs : Packs V) : Prop where
  pack_lt : ∀ group ∈ done, packs.packIndex group < numPacks
  rank_lt : ∀ group ∈ done, packs.rankInPack group < packs.packItems (packs.packIndex group)
  distinct : ∀ group ∈ done, ∀ other ∈ done, packs.packIndex group = packs.packIndex other →
    packs.rankInPack group = packs.rankInPack other → group = other
  items_le : ∀ pack < numPacks, packs.packItems pack ≤ groupsPerPack
  masked : ∀ pack < numPacks, packs.packItems pack = groupsPerPack → packs.packWeights pack = ⊤
  loaded : ∀ pack < numPacks, packs.packItems pack ≠ groupsPerPack →
    ∃ items, items <+ done ∧ packs.packWeights pack = load V weight items
  total : ∑ pack ∈ Finset.range numPacks, packs.packItems pack = done.length

/-- While groups are left the lightest pack has room, since no load of a pack is infinite. -/
theorem Packed.room (packed : Packed numPacks perPack weight done packs)
    (finite : ∀ items, items <+ done → load V weight items ≠ ⊤)
    (left : done.length < numPacks * perPack) : argmin numPacks packs.packWeights < numPacks ∧
      packs.packItems (argmin numPacks packs.packWeights) < perPack := by
  have some_pack : 0 < numPacks := Nat.pos_of_mul_pos_right (Nat.zero_lt_of_lt left)
  obtain ⟨inside, minimal⟩ := argmin_spec packs.packWeights some_pack
  obtain ⟨pack, below, _⟩ : ∃ pack < numPacks, packs.packItems pack < perPack := by
    by_contra full
    have least : numPacks * perPack ≤
        ∑ pack ∈ Finset.range numPacks, packs.packItems pack := by
      have each := Finset.card_nsmul_le_sum (Finset.range numPacks) packs.packItems perPack
        (fun pack member => Nat.le_of_not_lt (fun room =>
          full ⟨pack, Finset.mem_range.mp member, room⟩))
      simpa using each
    rw [packed.total] at least
    omega
  refine ⟨inside, lt_of_le_of_ne (packed.items_le _ inside) ?_⟩
  intro full
  have higher := minimal pack below
  obtain ⟨items, sub, sum⟩ := packed.loaded pack below (by omega)
  rw [packed.masked _ inside full, top_le_iff, sum] at higher
  exact finite items sub higher

theorem Packed.step (packed : Packed numPacks perPack weight done packs)
    (finite : ∀ items, items <+ done → load V weight items ≠ ⊤)
    (left : done.length < numPacks * perPack) {group : Nat} (fresh : group ∉ done) :
    Packed numPacks perPack weight (done ++ [group])
      (packGroup numPacks perPack weight packs group) := by
  obtain ⟨inside, room⟩ := packed.room finite left
  simp only [packGroup]
  generalize argmin numPacks packs.packWeights = pack at inside room
  have apart {other : Nat} (member : other ∈ done) : other ≠ group := by
    rintro rfl
    exact fresh member
  have grows (other : Nat) : packs.packItems other ≤
      update packs.packItems pack (packs.packItems pack + 1) other := by
    by_cases same : other = pack
    · rw [same, update_self]
      exact Nat.le_succ _
    · rw [update_of_ne same]
  constructor
  · intro other member
    rcases mem_append.mp member with prior | last
    · simpa [update_of_ne (apart prior)] using packed.pack_lt other prior
    · simpa [mem_singleton.mp last] using inside
  · intro other member
    rcases mem_append.mp member with prior | last
    · simp only [update_of_ne (apart prior)]
      exact lt_of_lt_of_le (packed.rank_lt other prior) (grows _)
    · simp [mem_singleton.mp last]
  · intro first firstIn second secondIn samePack sameRank
    rcases mem_append.mp firstIn with prior | last <;>
      rcases mem_append.mp secondIn with earlier' | last'
    · simp only [update_of_ne (apart prior), update_of_ne (apart earlier')]
        at samePack sameRank
      exact packed.distinct first prior second earlier' samePack sameRank
    · simp only [update_of_ne (apart prior), mem_singleton.mp last',
        update_self] at samePack sameRank
      have known := packed.rank_lt first prior
      rw [samePack, sameRank] at known
      exact absurd known (Nat.lt_irrefl _)
    · simp only [update_of_ne (apart earlier'), mem_singleton.mp last,
        update_self] at samePack sameRank
      have known := packed.rank_lt second earlier'
      rw [← samePack, ← sameRank] at known
      exact absurd known (Nat.lt_irrefl _)
    · rw [mem_singleton.mp last, mem_singleton.mp last']
  · intro other below
    by_cases same : other = pack
    · simp only [same, update_self]
      exact room
    · simpa [update_of_ne same] using packed.items_le other below
  · intro other below
    by_cases same : other = pack
    · simp only [same, update_self]
      exact fun full => if_pos full
    · simpa [update_of_ne same] using packed.masked other below
  · intro other below
    by_cases same : other = pack
    · simp only [same, update_self]
      intro open_
      obtain ⟨items, sub, sum⟩ := packed.loaded pack inside room.ne
      exact ⟨items ++ [group], sub.append (.refl _), by simp [if_neg open_, sum, load]⟩
    · simp only [update_of_ne same]
      intro open_
      obtain ⟨items, sub, sum⟩ := packed.loaded other below open_
      exact ⟨items, sub.trans (sublist_append_left ..), sum⟩
  · rw [Finset.sum_update_of_mem (Finset.mem_range.mpr inside), length_append,
      length_singleton, ← packed.total,
      ← Finset.sum_erase_add _ _ (Finset.mem_range.mpr inside), Finset.sdiff_singleton_eq_erase]
    omega

theorem packed_foldl (packed : Packed numPacks perPack weight done packs)
    (finite : ∀ items, items <+ done ++ rest → load V weight items ≠ ⊤)
    (unique : (done ++ rest).Nodup) (fits : (done ++ rest).length ≤ numPacks * perPack) :
    Packed numPacks perPack weight (done ++ rest)
      (rest.foldl (packGroup numPacks perPack weight) packs) := by
  induction rest generalizing done packs with
  | nil => simpa using packed
  | cons group rest ih =>
    have left : done.length < numPacks * perPack := by
      simp only [length_append, length_cons] at fits
      omega
    have fresh : group ∉ done := by
      intro member
      exact disjoint_of_nodup_append unique member (mem_cons_self ..)
    have split : done ++ group :: rest = (done ++ [group]) ++ rest := by simp
    have here (items) (sub : items <+ done) : load V weight items ≠ ⊤ :=
      finite items (sub.trans (sublist_append_left ..))
    rw [split] at finite unique fits ⊢
    exact ih (packed.step here left fresh) finite unique fits

theorem packed_empty (room : 0 < perPack) : Packed numPacks perPack weight [] (emptyPacks V) where
  pack_lt _ member := by cases member
  rank_lt _ member := by cases member
  distinct _ member := by cases member
  items_le _ _ := Nat.zero_le _
  masked _ _ full := absurd full room.ne
  loaded _ _ _ := ⟨[], .refl _, rfl⟩
  total := by simp [emptyPacks]

/-- The loads of any of the first `n` items do not add up to infinity. -/
def Finite (V : Type) [LinearOrder V] [OrderTop V] [Zero V] [HAdd V W V] (n : Nat)
    (weight : Nat → W) : Prop :=
  ∀ items : List Nat, items.Nodup → (∀ item ∈ items, item < n) → load V weight items ≠ ⊤

/-- The packing is a numbering of the groups, pack by pack. -/
theorem balancedPacking_ok [LinearOrder W] (sorter : Sorter) (perPack : Nat) (weight : Nat → W)
    (some_pack : 0 < numPacks) (finite : perPack ≠ 1 → Finite V (numPacks * perPack) weight) :
    ∃ packing, balancedPacking sorter V (numPacks * perPack) weight numPacks = .ok packing ∧
      Permutes (numPacks * perPack)
        (fun group => packing.packIndex group * perPack + packing.rankInPack group) := by
  have size : numPacks * perPack / numPacks = perPack :=
    Nat.mul_div_cancel_left _ some_pack
  simp only [balancedPacking, assertDivides, if_neg some_pack.ne', Nat.mul_mod_right,
    decide_true, size]
  by_cases one : perPack = 1
  · rw [if_pos one]
    refine ⟨_, rfl, ?_⟩
    simp only [one, Nat.mul_one]
    exact Permutes.id
  · rw [if_neg one]
    refine ⟨_, rfl, ?_⟩
    rcases Nat.eq_zero_or_pos perPack with zero | room
    · subst zero
      exact Permutes.of_inj (fun i below => by simp at below) (fun i below => by simp at below)
    have order := sorter.perm (numPacks * perPack)
      (fun group => OrderDual.toDual (weight group))
    generalize sorter.argsort (numPacks * perPack)
      (fun group => OrderDual.toDual (weight group)) = indices at order
    have unique : indices.Nodup := order.nodup_iff.mpr nodup_range
    have packed : Packed numPacks perPack weight indices
        (indices.foldl (packGroup numPacks perPack weight) (emptyPacks V)) := by
      refine packed_foldl (packed_empty room) (fun items sub => ?_) unique (by simp [order.length_eq])
      exact finite one items (unique.sublist sub)
        (fun item mem => mem_range.mp (order.subset (sub.subset mem)))
    have member {group : Nat} (below : group < numPacks * perPack) : group ∈ indices :=
      order.mem_iff.mpr (mem_range.mpr below)
    generalize indices.foldl _ _ = packs at packed
    have rank {group : Nat} (below : group < numPacks * perPack) :
        packs.rankInPack group < perPack :=
      lt_of_lt_of_le (packed.rank_lt _ (member below))
        (packed.items_le _ (packed.pack_lt _ (member below)))
    apply Permutes.of_inj
    · intro group below
      exact block_lt (rank below) (packed.pack_lt _ (member below))
    · intro group below other below' same
      have pack : packs.packIndex group = packs.packIndex other := by
        rw [← block_div (packs.packIndex group) (rank below), same, block_div _ (rank below')]
      rw [pack] at same
      exact packed.distinct _ (member below) _ (member below') pack (Nat.add_left_cancel same)

end Packing
section Replication
variable {W : Type} [LinearOrder W] [HDiv W Nat W]

/-- The slots below `slots` hold the replicas of the experts, at least one of each. -/
structure Replicated (slots numLog : Nat) (state : Replication) : Prop where
  enumerates : Enumerates slots numLog state.phy2log state.replicaIdx state.logcnt
  positive : ∀ expert < numLog, 0 < state.logcnt expert

theorem replicateOnce_ok (repl : Replicated slots numLog state) (some_expert : 0 < numLog)
    (weight : Nat → W) : ∃ next, replicateOnce numLog weight state slots = .ok next ∧
      Replicated (slots + 1) numLog next := by
  rw [replicateOnce, if_neg some_expert.ne']
  refine ⟨_, rfl, repl.enumerates.extend (argmax_spec _ some_expert).1, ?_⟩
  intro expert below
  have known := repl.positive expert below
  dsimp only
  by_cases same : expert = argmax numLog (fun expert => weight expert / state.logcnt expert)
  · rw [same, update_self]
    exact Nat.succ_pos _
  · rw [update_of_ne same]
    exact known

theorem replicateExperts_loop (some_expert : 0 < numLog) (weight : Nat → W) (more : Nat)
    (repl : Replicated slots numLog state) :
    ∃ last, (range' slots more).foldlM (replicateOnce numLog weight) state = .ok last ∧
      Replicated (slots + more) numLog last := by
  induction more generalizing slots state with
  | zero => exact ⟨state, rfl, repl⟩
  | succ more ih =>
    obtain ⟨_, stepped, kept⟩ := replicateOnce_ok repl some_expert weight
    obtain ⟨last, ended, whole⟩ := ih kept
    refine ⟨last, ?_, by rwa [add_right_comm] at whole⟩
    rw [range'_succ, foldlM_cons, stepped]
    exact ended

theorem replicateExperts_ok (some_expert : 0 < numLog) (enough : numLog ≤ numPhy)
    (weight : Nat → W) : ∃ state, replicateExperts numLog weight numPhy = .ok state ∧
      Replicated numPhy numLog state := by
  rw [replicateExperts, assert_bind (by simpa using enough)]
  have start : Replicated numLog numLog ⟨fun slot => slot, fun _ => 0, fun _ => 1⟩ :=
    ⟨Enumerates.single numLog, fun _ _ => Nat.one_pos⟩
  obtain ⟨last, ended, whole⟩ := replicateExperts_loop some_expert weight (numPhy - numLog) start
  rw [Nat.add_sub_cancel' enough] at whole
  exact ⟨last, ended, whole⟩

end Replication

variable {W V : Type} [LinearOrder W] [Zero W] [Add W] [HDiv W Nat W] [LinearOrder V] [OrderTop V]
  [Zero V] [HAdd V W V]

/-- No shares of loads, as many as there are slots, add up to infinity. -/
def SharesFinite (V : Type) [LinearOrder V] [OrderTop V] [Zero V] [HAdd V W V] (numLog numPhy : Nat)
    (weight : Nat → W) : Prop :=
  ∀ shares : List (Nat × Nat), shares.length ≤ numPhy →
    (∀ share ∈ shares, share.1 < numLog ∧ 0 < share.2) →
      load V (fun share => weight share.1 / share.2) shares ≠ ⊤

/-- The plan of a node, its slots in packed order. -/
def NodePlan.packed (plan : NodePlan) : Replication where
  phy2log slot := plan.replicas.phy2log (plan.pphy2phy slot)
  replicaIdx slot := plan.replicas.replicaIdx (plan.pphy2phy slot)
  logcnt := plan.replicas.logcnt

omit [Zero W] [Add W] in
theorem planNode_ok (sorter : Sorter) (some_expert : 0 < numLog) (some_gpu : 0 < numGpus)
    (enough : numLog ≤ numGpus * phyExpertsPerGpu) (tokens : Nat → W) (finite :
      phyExpertsPerGpu ≠ 1 → SharesFinite V numLog (numGpus * phyExpertsPerGpu) tokens) :
    ∃ plan, planNode sorter V numLog (numGpus * phyExpertsPerGpu) numGpus phyExpertsPerGpu tokens =
        .ok plan ∧ Replicated (numGpus * phyExpertsPerGpu) numLog plan.packed := by
  obtain ⟨replicas, made, repl⟩ := replicateExperts_ok some_expert enough tokens
  obtain ⟨packing, filled, perm⟩ := balancedPacking_ok sorter phyExpertsPerGpu
    (fun slot => tokens (replicas.phy2log slot) / replicas.logcnt (replicas.phy2log slot)) some_gpu
    (V := V) (by
      intro several items unique below
      have few := (subperm_of_subset unique (fun i mem => mem_range.mpr (below i mem))).length_le
      have shares := finite several
        (items.map (fun slot => (replicas.phy2log slot, replicas.logcnt (replicas.phy2log slot))))
        (by simpa using few) (by
          intro share mem
          obtain ⟨slot, here, rfl⟩ := mem_map.mp mem
          have known := (repl.enumerates.inside slot (below slot here)).1
          exact ⟨known, repl.positive _ known⟩)
      simpa only [load, foldl_map] using shares)
  refine ⟨⟨replicas, inverse _ (fun slot => packing.packIndex slot * phyExpertsPerGpu +
    packing.rankInPack slot)⟩, ?_, repl.enumerates.reorder perm.inverse, repl.positive⟩
  simp only [planNode, made, ok_bind, filled]

/-- The experts in the order of their packed groups. -/
theorem permutes_log2mlog (groupSize : Nat)
    (perm : Permutes (numNodes * groupsPerNode) (fun group => groups.packIndex group *
      groupsPerNode + groups.rankInPack group)) :
    Permutes (numNodes * groupsPerNode * groupSize) (log2mlog groupSize groupsPerNode groups) :=
  perm.blocks (fun _ _ => Permutes.id)

/-- All replicas of an expert are on one node. -/
def OnOneNode (numReplicas slotsPerNode : Nat) (phy2log : Nat → Nat) : Prop :=
  ∀ p < numReplicas, ∀ q < numReplicas, phy2log p = phy2log q → p / slotsPerNode = q / slotsPerNode

theorem joinPlans_ok (perm : Permutes (numNodes * expertsPerNode) packed)
    (each : ∀ node < numNodes, Replicated slotsPerNode expertsPerNode (plans.getD node
      default).packed) : Replicated (numNodes * slotsPerNode) (numNodes * expertsPerNode)
        (joinPlans (numNodes * expertsPerNode) expertsPerNode slotsPerNode packed plans) ∧
      OnOneNode (numNodes * slotsPerNode) slotsPerNode
        (joinPlans (numNodes * expertsPerNode) expertsPerNode slotsPerNode packed plans).phy2log := by
  have stacked := Enumerates.stack (fun node below => (each node below).enumerates)
  refine ⟨⟨stacked.rename perm, ?_⟩, ?_⟩
  · intro _ below
    have inside := perm.lt below
    exact (each _ (div_lt_blocks inside)).positive _ (mod_lt_size inside)
  · intro p left q right same
    have mlog := perm.inverse.inj (stacked.inside p left).1 (stacked.inside q right).1 same
    have first := ((each _ (div_lt_blocks left)).enumerates.inside _ (mod_lt_size left)).1
    have second := ((each _ (div_lt_blocks right)).enumerates.inside _ (mod_lt_size right)).1
    rw [← block_div (p / slotsPerNode) first, mlog, block_div _ second]

/-- The divisibility asserts, and that there is an expert. -/
structure Divides (logical numPhysicalExperts numGroups numNodes numGpus : Nat) :
    Prop where
  some_expert : 0 < logical
  some_node : 0 < numNodes
  some_gpu : 0 < numGpus
  groups : numGroups ∣ logical
  nodes : numNodes ∣ numGroups
  gpus : numNodes ∣ numGpus
  slots : numGpus ∣ numPhysicalExperts
  enough : logical ≤ numPhysicalExperts

theorem assertDivides_bind (pos : 0 < d) (divides : d ∣ n) :
    (assertDivides n d message >>= next) = next () := by
  rw [assertDivides, if_neg pos.ne', assert_bind]
  simpa using Nat.mod_eq_zero_of_dvd divides

/-- No loads of groups that are packed to nodes and no shares of experts that are packed to GPUs
add up to infinity. -/
structure LoadsFinite (V : Type) [LinearOrder V] [OrderTop V] [Zero V] [HAdd V W V]
    (logical numPhysicalExperts numGroups numNodes numGpus : Nat) (weight : Nat → W) :
    Prop where
  groups : numGroups ≠ numNodes →
    Finite V numGroups (tokensPerGroup (logical / numGroups) weight)
  shares : numPhysicalExperts ≠ numGpus →
    SharesFinite V logical numPhysicalExperts weight

theorem rebalanceExpertsHierarchical_ok (sorter : Sorter)
    (divides : Divides logical numPhysicalExperts numGroups numNodes numGpus)
    {weight : Nat → W} (finite : LoadsFinite V logical numPhysicalExperts numGroups numNodes
      numGpus weight) :
    ∃ placed, rebalanceExpertsHierarchical sorter V weight logical numPhysicalExperts
        numGroups numNodes numGpus = .ok placed ∧
      Replicated numPhysicalExperts logical placed ∧
      OnOneNode numPhysicalExperts (numPhysicalExperts / numNodes) placed.phy2log := by
  obtain ⟨someExpert, someNode, someGpu, ⟨groupSize, rfl⟩, ⟨groupsPerNode, rfl⟩,
    ⟨gpusPerNode, rfl⟩, ⟨phyExpertsPerGpu, rfl⟩, enough⟩ := divides
  have someGroup : 0 < numNodes * groupsPerNode := Nat.pos_of_mul_pos_right someExpert
  have someGpuHere : 0 < gpusPerNode := Nat.pos_of_mul_pos_left someGpu
  simp only [rebalanceExpertsHierarchical]
  rw [assertDivides_bind someGroup (Nat.dvd_mul_right ..),
    assertDivides_bind someNode (Nat.dvd_mul_right ..),
    assertDivides_bind someNode (Nat.dvd_mul_right ..),
    assertDivides_bind someGpu (Nat.dvd_mul_right ..)]
  have sizes : numNodes * groupsPerNode * groupSize / numNodes = groupsPerNode * groupSize := by
    rw [Nat.mul_assoc, Nat.mul_div_cancel_left _ someNode]
  have slots : numNodes * gpusPerNode * phyExpertsPerGpu / numNodes =
      gpusPerNode * phyExpertsPerGpu := by
    rw [Nat.mul_assoc, Nat.mul_div_cancel_left _ someNode]
  simp only [Nat.mul_div_cancel_left _ someGroup, Nat.mul_div_cancel_left _ someNode,
    Nat.mul_div_cancel_left _ someGpu, sizes, slots]
  obtain ⟨groups, packed, perm⟩ := balancedPacking_ok (V := V) sorter groupsPerNode
    (tokensPerGroup groupSize weight) someNode (fun several => by
      simpa only [Nat.mul_div_cancel_left _ someGroup] using
        finite.groups (by simpa [someNode.ne'] using several))
  rw [packed, ok_bind]
  have order := permutes_log2mlog groupSize perm
  generalize log2mlog groupSize groupsPerNode groups = mlog at order
  have experts : 0 < groupsPerNode * groupSize := by
    rw [Nat.mul_assoc] at someExpert
    exact Nat.pos_of_mul_pos_left someExpert
  have enoughHere : groupsPerNode * groupSize ≤ gpusPerNode * phyExpertsPerGpu := by
    rw [Nat.mul_assoc, Nat.mul_assoc] at enough
    exact Nat.le_of_mul_le_mul_left enough someNode
  have planned (node : Nat) : ∃ plan, node < numNodes →
      planNode sorter V (groupsPerNode * groupSize) (gpusPerNode * phyExpertsPerGpu) gpusPerNode
        phyExpertsPerGpu (fun i => weight (inverse (numNodes * groupsPerNode * groupSize) mlog
          (node * (groupsPerNode * groupSize) + i))) = .ok plan ∧
      Replicated (gpusPerNode * phyExpertsPerGpu) (groupsPerNode * groupSize) plan.packed := by
    by_cases below : node < numNodes
    swap
    · exact ⟨default, fun inside => absurd inside below⟩
    obtain ⟨plan, made⟩ := planNode_ok (V := V) sorter experts someGpuHere enoughHere (fun i =>
      weight (inverse (numNodes * groupsPerNode * groupSize) mlog
        (node * (groupsPerNode * groupSize) + i))) (by
      intro several shares few inside
      have whole := finite.shares (by simpa [someGpu.ne'] using several)
        (shares.map (fun share => (inverse (numNodes * groupsPerNode * groupSize) mlog
          (node * (groupsPerNode * groupSize) + share.1), share.2))) ?_ ?_
      · simpa only [load, foldl_map] using whole
      · rw [length_map, Nat.mul_assoc]
        exact few.trans (Nat.le_mul_of_pos_left _ someNode)
      · intro share mem
        obtain ⟨own, here, rfl⟩ := mem_map.mp mem
        refine ⟨order.inverse.lt ?_, (inside own here).2⟩
        rw [Nat.mul_assoc]
        exact block_lt (inside own here).1 below)
    exact ⟨plan, fun _ => made⟩
  choose plan planned using planned
  rw [mapM_ok (fun node mem => (planned node (mem_range.mp mem)).1), ok_bind, if_neg experts.ne']
  refine ⟨_, rfl, ?_⟩
  rw [Nat.mul_assoc] at order ⊢
  rw [Nat.mul_assoc]
  apply joinPlans_ok order
  intro node below
  rw [getD_eq_getElem?_getD, getElem?_map, getElem?_range below]
  exact (planned node below).2

end Vllm.Eplb
