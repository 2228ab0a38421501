import Vllm.Eplb.Balance

/-! The greedy replication is optimal over exact loads. An expert is split only while its load
per replica is the greatest, so counts that do without the split do not get below that load. -/
namespace Vllm.Eplb
open Function

noncomputable instance realLoads : HDiv ℝ Nat ℝ := ⟨fun load count => load / (count : ℝ)⟩

theorem div_le_div_count {load : ℝ} {few many : Nat} (nonneg : 0 ≤ load) (pos : 0 < few)
    (le : few ≤ many) : load / many ≤ load / few :=
  div_le_div_of_nonneg_left nonneg (Nat.cast_pos.mpr pos) (Nat.cast_le.mpr le)

section
variable (numLog numPhy : Nat) (weight : Nat → ℝ) (counts : Nat → Nat)

noncomputable def maxLoad : ℝ := ⨆ expert : Fin numLog, weight expert / counts expert

theorem le_maxLoad (inside : expert < numLog) :
    weight expert / counts expert ≤ maxLoad numLog weight counts :=
  le_ciSup (f := fun expert : Fin numLog => weight expert / counts expert)
    (Set.finite_range _).bddAbove ⟨expert, inside⟩

structure Counts : Prop where
  positive : ∀ expert < numLog, 1 ≤ counts expert
  total : ∑ expert ∈ Finset.range numLog, counts expert = numPhy

/-- The load of an expert before its last split is at least as great as every load. -/
structure Greedy : Prop extends Counts numLog numPhy counts where
  split : ∀ expert < numLog, 1 < counts expert → ∀ other < numLog,
    weight other / counts other ≤ weight expert / (counts expert - 1 : Nat)

end

section
variable {weight : Nat → ℝ} (nonneg : ∀ expert < numLog, 0 ≤ weight expert)
include nonneg

theorem Greedy.step (greedy : Greedy numLog slots weight counts) (inside : redundant < numLog)
    (greatest : ∀ other < numLog,
      weight other / counts other ≤ weight redundant / counts redundant) :
    Greedy numLog (slots + 1) weight (update counts redundant (counts redundant + 1)) := by
  have grows (other : Nat) :
      counts other ≤ update counts redundant (counts redundant + 1) other := by
    rw [update_apply]
    split <;> simp_all
  have lighter (other : Nat) (below : other < numLog) := div_le_div_count (nonneg other below)
    (greedy.positive other below) (grows other)
  refine ⟨⟨fun expert below => (greedy.positive expert below).trans (grows expert), ?_⟩, ?_⟩
  · rw [Finset.sum_update_of_mem (Finset.mem_range.mpr inside), ← greedy.total,
      ← Finset.sum_sdiff (Finset.singleton_subset_iff.mpr (Finset.mem_range.mpr inside)),
      Finset.sum_singleton]
    omega
  · intro expert below twice other otherBelow
    refine (lighter other otherBelow).trans ?_
    by_cases same : expert = redundant
    · rw [same, update_self]
      exact greatest other otherBelow
    · rw [update_of_ne same] at twice ⊢
      exact greedy.split expert below twice other otherBelow

theorem Greedy.once (greedy : Greedy numLog slots weight state.logcnt)
    (ran : replicateOnce numLog weight state i = .ok after) :
    Greedy numLog (slots + 1) weight after.logcnt := by
  unfold replicateOnce at ran
  split at ran
  · cases ran
  · rename_i some_expert
    cases ran
    obtain ⟨inside, greatest⟩ := argmax_spec (fun expert => weight expert / state.logcnt expert)
      (Nat.pos_of_ne_zero some_expert)
    exact greedy.step nonneg inside greatest

theorem Greedy.load_le {counts other : Nat → Nat} (greedy : Greedy numLog numPhy weight counts)
    (admissible : Counts numLog numPhy other) {expert : Nat} (below : expert < numLog) :
    ∃ heavy < numLog, weight expert / counts expert ≤ weight heavy / other heavy := by
  by_cases fewer : ∃ heavy < numLog, other heavy < counts heavy
  · obtain ⟨heavy, inside, less⟩ := fewer
    have one := admissible.positive heavy inside
    exact ⟨heavy, inside, (greedy.split heavy inside (by omega) expert below).trans
      (div_le_div_count (nonneg heavy inside) one (by omega))⟩
  · -- The sums are equal, so counts that are nowhere less are the same.
    push Not at fewer
    have same := (Finset.sum_eq_sum_iff_of_le (fun expert mem =>
      fewer expert (Finset.mem_range.mp mem))).mp (greedy.total.trans admissible.total.symm)
    exact ⟨expert, below, by rw [same expert (Finset.mem_range.mpr below)]⟩

end

theorem replication_optimal (numLog numPhy : Nat) (weight : Nat → ℝ)
    (nonneg : ∀ expert < numLog, 0 ≤ weight expert) (enough : numLog ≤ numPhy) :
    (0 < numLog → ∃ state, replicateExperts numLog weight numPhy = .ok state) ∧
    ∀ state, replicateExperts numLog weight numPhy = .ok state →
      Counts numLog numPhy state.logcnt ∧ ∀ counts, Counts numLog numPhy counts →
        maxLoad numLog weight state.logcnt ≤ maxLoad numLog weight counts := by
  constructor
  · intro some_expert
    obtain ⟨state, ran, -⟩ := replicateExperts_ok some_expert enough weight
    exact ⟨state, ran⟩
  · intro state ran
    obtain ⟨-, ran⟩ := Py.assert_bind_ok ran
    have greedy := Py.foldlM_items
      (fun done state => Greedy numLog (numLog + done.length) weight state.logcnt)
      (fun _ kept stepped => by simpa [add_assoc] using kept.once nonneg stepped)
      ⟨⟨fun _ _ => le_refl 1, by simp⟩, fun _ _ twice => absurd twice (by simp)⟩ ran
    rw [List.length_range', Nat.add_sub_cancel' enough] at greedy
    refine ⟨greedy.toCounts, ?_⟩
    intro counts admissible
    obtain rfl | some_expert := Nat.eq_zero_or_pos numLog
    · exact le_of_eq (by simp [maxLoad])
    · have : Nonempty (Fin numLog) := ⟨⟨0, some_expert⟩⟩
      refine ciSup_le ?_
      intro expert
      obtain ⟨heavy, inside, le⟩ := greedy.load_le nonneg admissible expert.2
      exact le.trans (le_maxLoad _ _ _ inside)

theorem replication_optimal_three_slots : ∃ state,
    replicateExperts 2 (fun _ => (1 : ℝ)) 3 = .ok state ∧ Counts 2 3 state.logcnt ∧ ∀ counts, Counts 2 3 counts →
      maxLoad 2 (fun _ => 1) state.logcnt ≤ maxLoad 2 (fun _ => 1) counts := by
  obtain ⟨returns, optimal⟩ := replication_optimal 2 3 (fun _ => 1) (fun _ _ => zero_le_one)
    (by decide)
  obtain ⟨state, ran⟩ := returns (by decide)
  exact ⟨state, ran, optimal state ran⟩

end Vllm.Eplb
