import Vllm.Eplb.Preserve

/-! The maps that the placement policy returns agree with each other, with and without an old
placement. -/
namespace Vllm.Eplb
open List hiding next
open Rows Py
variable {placed : Replication}

section Maps
variable {numSlots logical : Nat}

structure Consistent (numReplicas numLogical : Nat) (maps : ExpertMaps) : Prop where
  inside : ∀ slot < numReplicas, maps.phy2log slot < numLogical
  positive : ∀ expert < numLogical, 1 ≤ maps.logcnt expert
  count : ∀ expert < numLogical,
    maps.logcnt expert = ((Finset.range numReplicas).filter (maps.phy2log · = expert)).card
  /-- The row of an expert lists its slots and is filled up with -1. -/
  listed : ∀ expert < numLogical, ∃ slots : List Nat, slots.Nodup ∧
    slots.length = maps.logcnt expert ∧
    (∀ slot, slot ∈ slots ↔ slot < numReplicas ∧ maps.phy2log slot = expert) ∧
    (range (maxlogcnt numReplicas numLogical)).map (maps.log2phy expert) =
      slots.map Int.ofNat ++ replicate
        (maxlogcnt numReplicas numLogical - maps.logcnt expert) (-1)

theorem Replicated.logcnt_le (repl : Replicated numSlots logical placed) (below : expert < logical) :
    placed.logcnt expert ≤ maxlogcnt numSlots logical := by
  have total := repl.enumerates.count_le_slots repl.positive below
  simp only [maxlogcnt]
  omega

def log2phyOf (numReplicas : Nat) (placed : Replication) (expert replica : Nat) : Int :=
  write (fun _ => -1) ((range numReplicas).map (fun slot =>
    ((placed.phy2log slot, placed.replicaIdx slot), (slot : Int)))) (expert, replica)

variable (repl : Replicated numSlots logical placed)
include repl

theorem fillLog2phy_ok : fillLog2phy numSlots logical placed.phy2log placed.replicaIdx =
      .ok (log2phyOf numSlots placed) := by
  rw [fillLog2phy, if_pos]
  · rfl
  · simp only [all_eq_true, mem_range, Bool.and_eq_true, decide_eq_true_eq]
    intro slot below
    have known := repl.enumerates.inside slot below
    exact ⟨known.1, known.2.trans_le (repl.logcnt_le known.1)⟩

theorem log2phyOf_slot (below : slot < numSlots) :
    log2phyOf numSlots placed (placed.phy2log slot) (placed.replicaIdx slot) = slot := by
  apply write_same
  · intro _ written
    obtain ⟨other, member, same⟩ := mem_map.mp written
    obtain ⟨place, rfl⟩ := Prod.mk.inj same
    obtain ⟨expert, replica⟩ := Prod.mk.inj place
    rw [repl.enumerates.distinct other (mem_range.mp member) slot below expert replica]
  · rw [map_map]
    exact mem_map.mpr ⟨slot, mem_range.mpr below, rfl⟩

theorem log2phyOf_unused (beyond : placed.logcnt expert ≤ replica) :
    log2phyOf numSlots placed expert replica = -1 := by
  apply write_other
  rw [map_map]
  intro member
  obtain ⟨slot, listed, place⟩ := mem_map.mp member
  obtain ⟨rfl, rfl⟩ := Prod.mk.inj place
  have known := (repl.enumerates.inside slot (mem_range.mp listed)).2
  omega

theorem Replicated.consistent : Consistent numSlots logical
      ⟨placed.phy2log, log2phyOf numSlots placed, placed.logcnt⟩ where
  inside slot below := (repl.enumerates.inside slot below).1
  positive := repl.positive
  count expert below := repl.enumerates.count_eq below
  listed expert below := by
    obtain ⟨slots, length, unique, member, numbered⟩ := repl.enumerates.slots_of below
    refine ⟨slots, unique, length, member, ?_⟩
    have fits := repl.logcnt_le below
    dsimp only
    apply ext_getElem?
    intro replica
    rw [getElem?_map]
    by_cases early : replica < placed.logcnt expert
    · obtain ⟨slot, found⟩ : ∃ slot, slots[replica]? = some slot :=
        ⟨_, getElem?_eq_getElem (length ▸ early)⟩
      obtain ⟨inside, rfl⟩ := (member slot).mp (mem_of_getElem? found)
      rw [getElem?_range (early.trans_le fits),
        getElem?_append_left (by simpa [length] using early), getElem?_map, found]
      simp only [Option.map_some, Option.some.injEq]
      rw [← numbered replica slot found]
      exact log2phyOf_slot repl inside
    · rw [getElem?_append_right (by simpa [length] using early), length_map,
        getElem?_replicate]
      by_cases row : replica < maxlogcnt numSlots logical
      · rw [getElem?_range row, if_pos (by omega)]
        simp only [Option.map_some, Option.some.injEq]
        exact log2phyOf_unused repl (Nat.le_of_not_lt early)
      · rw [getElem?_eq_none (by simpa using row), if_neg (by omega)]
        rfl

end Maps

section Asserts
variable {W V : Type} [LinearOrder W] [Zero W] [Add W] [HDiv W Nat W] [LinearOrder V] [OrderTop V]
  [Zero V] [HAdd V W V] {sorter : Sorter} {logical numPhysicalExperts numGroups numNodes numGpus : Nat}

theorem of_assertDivides_bind {next : Unit → Py α}
    (ran : assertDivides n d message >>= next = .ok a) : 0 < d ∧ d ∣ n ∧ next () = .ok a := by
  rw [assertDivides] at ran
  split at ran
  · cases ran
  · rename_i nonzero
    obtain ⟨divides, rest⟩ := assert_bind_ok ran
    exact ⟨Nat.pos_of_ne_zero nonzero, Nat.dvd_of_mod_eq_zero (by simpa using divides), rest⟩

/-- A call that returns has passed its asserts. -/
theorem divides_of_ok {weight : Nat → W}
    (ran : rebalanceExpertsHierarchical sorter V weight logical numPhysicalExperts
      numGroups numNodes numGpus = .ok placed) :
    Divides logical numPhysicalExperts numGroups numNodes numGpus := by
  obtain ⟨-, groups, ran⟩ := of_assertDivides_bind ran
  obtain ⟨someNode, nodes, ran⟩ := of_assertDivides_bind ran
  obtain ⟨-, gpus, ran⟩ := of_assertDivides_bind ran
  obtain ⟨someGpu, slots, ran⟩ := of_assertDivides_bind ran
  obtain ⟨_, -, ran⟩ := bind_ok ran
  obtain ⟨_, planned, ran⟩ := bind_ok ran
  split at ran
  · cases ran
  rename_i some_here
  have someExpert : 0 < logical := by
    rcases Nat.eq_zero_or_pos logical with zero | pos
    · simp [zero] at some_here
    · exact pos
  obtain ⟨_, first⟩ := of_mapM_ok planned (mem_range.mpr someNode)
  obtain ⟨_, repl, -⟩ := bind_ok first
  obtain ⟨enough, -⟩ := assert_bind_ok repl
  refine ⟨someExpert, someNode, someGpu, groups, nodes, gpus, slots, ?_⟩
  have here : logical / numNodes ≤ numPhysicalExperts / numNodes := by simpa using enough
  calc logical = numNodes * (logical / numNodes) :=
        (Nat.mul_div_cancel' (nodes.trans groups)).symm
    _ ≤ numNodes * (numPhysicalExperts / numNodes) := Nat.mul_le_mul_left _ here
    _ = numPhysicalExperts := Nat.mul_div_cancel' (gpus.trans slots)

end Asserts

variable {W V : Type} [LinearOrder W] [Zero W] [Add W] [HDiv W Nat W] [LinearOrder V] [OrderTop V]
  [Zero V] [HAdd V W V] (sorter : Sorter) {logical numSlots numGroups numNodes numRanks : Nat}

section
variable (numLogical numReplicas numGroups numNodes numRanks : Nat)

/-- The asserts of the policy that is used: the hierarchical one if the nodes divide the groups,
the global one otherwise. -/
structure Admissible : Prop where
  some_node : 0 < numNodes
  divides : if numGroups % numNodes = 0 then
      Divides numLogical numReplicas numGroups numNodes numRanks
    else Divides numLogical numReplicas 1 1 numRanks

structure Balanced (old : Nat → Int) (fresh kept : ExpertMaps) : Prop where
  fresh_consistent : Consistent numReplicas numLogical fresh
  kept_consistent : Consistent numReplicas numLogical kept
  one_node : numGroups % numNodes = 0 →
    OnOneNode numReplicas (numReplicas / numNodes) fresh.phy2log ∧
      OnOneNode numReplicas (numReplicas / numNodes) kept.phy2log
  preserves : Preserves numReplicas numRanks old fresh.phy2log kept.phy2log

end

theorem Replicated.keepSlots (some_rank : 0 < numRanks) (slots : numRanks ∣ numSlots)
    (old : Nat → Int) (repl : Replicated numSlots logical placed) :
    Replicated numSlots logical
        (keepSlots sorter numSlots numRanks placed (some old)) ∧
      Preserves numSlots numRanks old placed.phy2log
        (keepSlots sorter numSlots numRanks placed (some old)).phy2log ∧
      ∀ slotsPerNode, numSlots / numRanks ∣ slotsPerNode →
        OnOneNode numSlots slotsPerNode placed.phy2log → OnOneNode numSlots slotsPerNode
          (keepSlots sorter numSlots numRanks placed (some old)).phy2log := by
  obtain ⟨slotsPerGpu, rfl⟩ := slots
  obtain ⟨_, perm, values, preserves⟩ :=
    preserveIntragpuSlots_ok sorter some_rank placed.phy2log placed.replicaIdx old
  have size : numRanks * slotsPerGpu / numRanks = slotsPerGpu := Nat.mul_div_cancel_left _ some_rank
  have reordered := repl.enumerates.reorder perm
  refine ⟨⟨⟨?_, ?_, ?_⟩, repl.positive⟩, preserves, ?_⟩
  · intro slot below
    simp only [keepSlots, (values slot below).2.1, (values slot below).2.2]
    exact reordered.inside slot below
  · intro slot below other below' expert replica
    simp only [keepSlots, (values slot below).2.1, (values slot below).2.2,
      (values other below').2.1, (values other below').2.2] at expert replica
    exact reordered.distinct slot below other below' expert replica
  · intro expert below replica known
    obtain ⟨slot, inside, first, second⟩ := reordered.reached expert below replica known
    refine ⟨slot, inside, ?_, ?_⟩
    · simpa only [keepSlots, (values slot inside).2.1] using first
    · simpa only [keepSlots, (values slot inside).2.2] using second
  · rintro slotsPerNode ⟨_, rfl⟩ together slot below other below' same
    rw [size] at together ⊢
    simp only [keepSlots, (values slot below).2.1, (values other below').2.1] at same
    have node := together _ (perm.lt below) _ (perm.lt below') same
    rw [← Nat.div_div_eq_div_mul, ← Nat.div_div_eq_div_mul, (values slot below).1,
      (values other below').1, Nat.div_div_eq_div_mul, Nat.div_div_eq_div_mul] at node
    exact node

/-- The loads that the policy which is used adds up stay finite. -/
def FiniteLoads (V : Type) [LinearOrder V] [OrderTop V] [Zero V] [HAdd V W V]
    (logical numSlots numGroups numNodes numRanks : Nat) (weight : Nat → W) : Prop :=
  if numGroups % numNodes = 0 then
    LoadsFinite V logical numSlots numGroups numNodes numRanks weight
  else LoadsFinite V logical numSlots 1 1 numRanks weight

theorem placeExperts_ok
    (admissible : Admissible logical numSlots numGroups numNodes numRanks)
    {weight : Nat → W}
    (finite : FiniteLoads V logical numSlots numGroups numNodes numRanks weight) :
    ∃ placed, placeExperts sorter V logical numSlots numGroups numNodes numRanks weight =
        .ok placed ∧ Replicated numSlots logical placed ∧ (numGroups % numNodes = 0 →
        OnOneNode numSlots (numSlots / numNodes) placed.phy2log) := by
  have divides := admissible.divides
  rw [placeExperts, if_neg admissible.some_node.ne']
  unfold FiniteLoads at finite
  by_cases hierarchical : numGroups % numNodes = 0
  · rw [if_pos hierarchical] at divides finite ⊢
    obtain ⟨placed, ran, repl, together⟩ :=
      rebalanceExpertsHierarchical_ok sorter divides finite
    exact ⟨placed, ran, repl, fun _ => together⟩
  · rw [if_neg hierarchical] at divides finite ⊢
    obtain ⟨placed, ran, repl, -⟩ := rebalanceExpertsHierarchical_ok sorter divides finite
    exact ⟨placed, ran, repl, fun nodes => absurd nodes hierarchical⟩

theorem admissible_of_ok {weight : Nat → W} {old : Option (Nat → Int)} {maps : ExpertMaps}
    (ran : rebalanceLayer sorter V logical numSlots numGroups numNodes numRanks weight
      old = .ok maps) : Admissible logical numSlots numGroups numNodes numRanks := by
  obtain ⟨_, chosen, -⟩ := bind_ok ran
  rw [placeExperts] at chosen
  split at chosen
  · cases chosen
  · rename_i nonzero
    refine ⟨pos_of_ne_zero nonzero, ?_⟩
    by_cases hierarchical : numGroups % numNodes = 0
    · rw [if_pos hierarchical] at chosen ⊢
      exact divides_of_ok chosen
    · rw [if_neg hierarchical] at chosen ⊢
      exact divides_of_ok chosen

section
variable (admissible : Admissible logical numSlots numGroups numNodes numRanks)
include admissible

theorem Admissible.ranks : 0 < numRanks ∧ numRanks ∣ numSlots := by
  have divides := admissible.divides
  split at divides <;> exact ⟨divides.some_gpu, divides.slots⟩

/-- In the hierarchical case a node is made of whole GPUs. -/
theorem Admissible.whole_gpus (hierarchical : numGroups % numNodes = 0) :
    numSlots / numRanks ∣ numSlots / numNodes := by
  have divides := admissible.divides
  rw [if_pos hierarchical] at divides
  obtain ⟨gpus, rfl⟩ := divides.gpus
  obtain ⟨slots, rfl⟩ := divides.slots
  rw [Nat.mul_div_cancel_left _ divides.some_gpu, Nat.mul_assoc,
    Nat.mul_div_cancel_left _ divides.some_node]
  exact Nat.dvd_mul_left ..

theorem rebalanceLayer_ok {weight : Nat → W}
    (finite : FiniteLoads V logical numSlots numGroups numNodes numRanks weight) (old : Nat → Int) :
    ∃ fresh kept, rebalanceLayer sorter V logical numSlots numGroups numNodes numRanks
        weight none = .ok fresh ∧
      rebalanceLayer sorter V logical numSlots numGroups numNodes numRanks weight
        (some old) = .ok kept ∧
      Balanced logical numSlots numGroups numNodes numRanks old fresh kept := by
  obtain ⟨_, chosen, repl, together⟩ := placeExperts_ok sorter admissible finite
  obtain ⟨again, preserves, node⟩ :=
    repl.keepSlots sorter admissible.ranks.1 admissible.ranks.2 old
  refine ⟨_, _, ?_, ?_, repl.consistent, again.consistent, ?_, preserves⟩
  · simp only [rebalanceLayer, chosen, ok_bind, keepSlots, fillLog2phy_ok repl]
  · simp only [rebalanceLayer, chosen, ok_bind, fillLog2phy_ok again]
  · intro hierarchical
    exact ⟨together hierarchical,
      node _ (admissible.whole_gpus hierarchical) (together hierarchical)⟩

end

/-- If no loads add up to infinity: the maps are returned if the asserts hold, and what is returned
is consistent in every layer: the counts, the slots of each expert, one node for all replicas of an
expert in the hierarchical case, and the GPUs with and without an old placement. -/
theorem rebalanced_maps_consistent (sorter : Sorter)
    (numLayers numLogical numReplicas numGroups numNodes numRanks : Nat)
    (weight : Nat → Nat → W) (old : Nat → Nat → Int) (finite : ∀ layer < numLayers,
      FiniteLoads V numLogical numReplicas numGroups numNodes numRanks (weight layer)) :
    (Admissible numLogical numReplicas numGroups numNodes numRanks →
      ∃ fresh kept, rebalanceExperts sorter V numLayers numLogical numReplicas numGroups
          numNodes numRanks weight none = .ok fresh ∧
        rebalanceExperts sorter V numLayers numLogical numReplicas numGroups numNodes numRanks
          weight (some old) = .ok kept) ∧
    ∀ fresh kept, rebalanceExperts sorter V numLayers numLogical numReplicas numGroups
        numNodes numRanks weight none = .ok fresh →
      rebalanceExperts sorter V numLayers numLogical numReplicas numGroups numNodes numRanks
        weight (some old) = .ok kept →
      ∀ layer < numLayers, ∃ mine after, fresh[layer]? = some mine ∧ kept[layer]? = some after ∧
        Balanced numLogical numReplicas numGroups numNodes numRanks (old layer) mine after := by
  have layers (admissible : Admissible numLogical numReplicas numGroups numNodes numRanks) :
      ∃ mine after : Nat → ExpertMaps,
        rebalanceExperts sorter V numLayers numLogical numReplicas numGroups numNodes numRanks
          weight none = .ok ((range numLayers).map mine) ∧
        rebalanceExperts sorter V numLayers numLogical numReplicas numGroups numNodes numRanks
          weight (some old) = .ok ((range numLayers).map after) ∧
        ∀ layer < numLayers, Balanced numLogical numReplicas numGroups numNodes numRanks
          (old layer) (mine layer) (after layer) := by
    choose! mine after both using fun layer (below : layer < numLayers) =>
      rebalanceLayer_ok sorter admissible (finite layer below) (old layer)
    exact ⟨mine, after, mapM_ok (fun layer mem => (both layer (mem_range.mp mem)).1),
      mapM_ok (fun layer mem => (both layer (mem_range.mp mem)).2.1),
      fun layer below => (both layer below).2.2⟩
  constructor
  · intro admissible
    obtain ⟨mine, after, first, second, -⟩ := layers admissible
    exact ⟨_, _, first, second⟩
  · intro fresh kept returned returned' layer below
    obtain ⟨maps, ran⟩ := of_mapM_ok returned (mem_range.mpr below)
    obtain ⟨mine, after, first, second, bal⟩ := layers (admissible_of_ok sorter ran)
    rw [first] at returned
    rw [second] at returned'
    cases returned
    cases returned'
    refine ⟨mine layer, after layer, ?_, ?_, bal layer below⟩ <;>
      rw [getElem?_map, getElem?_range below] <;> rfl

/-- Loads up to 6; a greater sum is infinite. -/
def SmallLoad := Fin 8

namespace SmallLoad

instance : LinearOrder SmallLoad := inferInstanceAs (LinearOrder (Fin 8))
instance : OfNat SmallLoad n := ⟨Fin.ofNat 8 n⟩
instance : Zero SmallLoad := ⟨0⟩
instance : Add SmallLoad := ⟨fun a b => ⟨min (a.val + b.val) 7, by omega⟩⟩
instance : HDiv SmallLoad Nat SmallLoad :=
  ⟨fun a count => if a.val = 7 then a else ⟨a.val / count, (Nat.div_le_self ..).trans_lt a.isLt⟩⟩
instance : HAdd (WithTop Nat) SmallLoad (WithTop Nat) :=
  ⟨fun total a => if a.val = 7 then ⊤ else total + (a.val : WithTop Nat)⟩

theorem div_finite {a : SmallLoad} (finite : a.val ≠ 7) (count : Nat) : (a / count).val ≠ 7 := by
  have same : (a / count).val = a.val / count := congrArg Fin.val (if_neg finite)
  have := Nat.div_le_self a.val count
  have := a.isLt
  omega

theorem load_finite {weight : ι → SmallLoad} {items : List ι}
    (finite : ∀ item ∈ items, (weight item).val ≠ 7) :
    load (WithTop Nat) weight items ≠ ⊤ := by
  induction items using reverseRecOn with
  | nil => exact WithTop.zero_ne_top
  | append_singleton items item ih =>
    have before := ih (fun item mem => finite item (mem_append_left _ mem))
    simp only [load, foldl_append, foldl_cons, foldl_nil] at before ⊢
    exact ne_of_eq_of_ne (if_neg (finite item (by simp))) (WithTop.add_ne_top.mpr ⟨before, by simp⟩)

end SmallLoad

def fourLoads (_ expert : Nat) : SmallLoad := [6, 1, 5, 3].getD expert 0

/-- Four experts, each its own group, on two nodes with two GPUs each, two slots on every GPU. -/
theorem rebalanced_maps_consistent_two_nodes :
    let old := fun _ slot : Nat => ([0, 1, 2, 3, 3, 2, 1, 0].getD slot (-1) : Int)
    ∃ fresh kept,
      rebalanceExperts Sorter.stable (WithTop Nat) 1 4 8 4 2 4 fourLoads none = .ok fresh ∧
      rebalanceExperts Sorter.stable (WithTop Nat) 1 4 8 4 2 4 fourLoads (some old) = .ok kept ∧
      ∃ mine after, fresh[0]? = some mine ∧ kept[0]? = some after ∧
        Balanced 4 8 4 2 4 (old 0) mine after := by
  intro old
  have finite : FiniteLoads (WithTop Nat) 4 8 4 2 4 (fourLoads 0) := by
    refine ⟨fun _ items _ inside => SmallLoad.load_finite (fun item mem => ?_),
      fun _ shares _ inside => SmallLoad.load_finite (fun share mem => ?_)⟩
    · have below := inside item mem
      interval_cases item <;> decide
    · refine SmallLoad.div_finite ?_ _
      have below := (inside share mem).1
      interval_cases share.1 <;> decide
  obtain ⟨returns, bal⟩ := rebalanced_maps_consistent (V := WithTop Nat) Sorter.stable 1 4 8 4
    2 4 fourLoads old (fun layer below => by cases Nat.lt_one_iff.mp below; exact finite)
  obtain ⟨fresh, kept, first, second⟩ := returns ⟨by decide, by
    rw [if_pos (by decide)]
    exact ⟨by decide, by decide, by decide, by decide, by decide, by decide, by decide, by decide⟩⟩
  exact ⟨fresh, kept, first, second, bal fresh kept first second 0 Nat.one_pos⟩

/-- Two loads of 4 add up to infinity, so that a full pack is not told from one with room: no slot
has the third expert, which is counted once. -/
theorem infinite_groups_collide : ∃ maps,
    rebalanceExperts Sorter.stable (WithTop Nat) 1 8 8 4 2 2 (fun _ _ => (4 : SmallLoad)) none =
      .ok [maps] ∧ maps.logcnt 2 = 1 ∧ ∀ slot ∈ range 8, maps.phy2log slot ≠ 2 := by
  have checked : (match rebalanceExperts Sorter.stable (WithTop Nat) 1 8 8 4 2 2
      (fun _ _ => (4 : SmallLoad)) none with
    | .ok [maps] => decide (maps.logcnt 2 = 1 ∧ ∀ slot ∈ range 8, maps.phy2log slot ≠ 2)
    | _ => false) = true := by
    decide +kernel
  split at checked
  · rename_i maps ran
    exact ⟨maps, ran, of_decide_eq_true checked⟩
  · cases checked

end Vllm.Eplb
