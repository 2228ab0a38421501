import Vllm.Worker.RowMoves

/-! The requests in the batch and their counts of computed tokens. A step of the batch changes
them as its removals, writes and additions say, wherever the requests are moved. -/
namespace Vllm.Worker
open Relocate Function Py Dict Option

namespace BatchStep

variable (change : BatchStep) (count : String → Option Nat)

/-- The count of a request after a write to its row. -/
def countWritten (write : String × RowWrite) : String → Option Nat :=
  match write.2 with
  | .numComputedTokens value => update count write.1 (some value)
  | _ => count

def countAdded (add : CachedRequestState × List TokenId) : String → Option Nat :=
  update count add.1.reqId (some add.1.numComputedTokens)

def counts : String → Option Nat :=
  change.additions.foldl countAdded (change.writes.foldl countWritten
    (fun reqId => if reqId ∈ change.removals then none else count reqId))

end BatchStep

namespace InputBatch
variable {batch next : InputBatch} {count : String → Option Nat} {change : BatchStep}

structure Counted (batch : InputBatch) (count : String → Option Nat) : Prop where
  known : ∀ reqId, (batch.reqIdToIndex.get? reqId).isSome = (count reqId).isSome
  computed : Owned (fun _ : Nat => True) (fun n cell => cell = n) count batch.occupant
    batch.numComputedTokensCpu

section
variable (inverse : Inverse batch.reqIdToIndex.get? batch.occupant) (counted : batch.Counted count)
include inverse counted

theorem Counted.removeRequest
    (ran : batch.removeRequest reqId = .ok next) : next.Counted (update count reqId none) := by
  rcases removeRequest_layout ran with ⟨unknown, rfl⟩ | ⟨index, found, -, ids, map, -, -⟩
  · have absent : count reqId = none := by
      have known := counted.known reqId
      rw [unknown] at known
      exact not_isSome_iff_eq_none.mp (by simp [← known])
    rw [← absent, update_eq_self]
    exact counted
  have here := (inverse reqId index).mp found
  have vacated : next.occupant = update batch.occupant index none :=
    funext (occupant_set (lt_of_occupant here) ids)
  have cells : next.numComputedTokensCpu = batch.numComputedTokensCpu := by
    rcases removeRequest_ok ran with ⟨-, rfl⟩ | ⟨_, _, _, -, unloaded, rfl⟩
    · rfl
    obtain ⟨_, _, _, rfl, -⟩ := removeLora_ok unloaded
    rw [removeParams]
    split <;> rfl
  constructor
  · intro other
    rw [map, get?_erase, update_apply]
    split
    · rfl
    · exact counted.known other
  · rw [vacated, cells]
    exact counted.computed.vacate (fun _ _ => rfl) trivial

theorem Counted.updateRow (ran : batch.updateRow reqId write = .ok next) :
    next.Counted (BatchStep.countWritten count (reqId, write)) := by
  obtain ⟨ids, map, -, -⟩ := updateRow_layout ran
  have same : next.occupant = batch.occupant := by
    funext i
    rw [occupant, ids, occupant]
  have known := counted.known
  rw [InputBatch.updateRow] at ran
  split at ran
  · cases ran
  rename_i index found
  cases ran
  cases write with
  | numComputedTokens value =>
    constructor
    · intro other
      rw [map, known]
      simp only [BatchStep.countWritten, update_apply]
      split
      · rename_i itself
        rw [itself, ← known, found]
        rfl
      · rfl
    · rw [same]
      refine counted.computed.rewrite ((inverse reqId index).mp found) ?_ ?_ ?_
      · intro i here
        rw [(inverse reqId i).mpr here] at found
        exact some.inj found
      · intro i other
        exact update_of_ne other ..
      · exact update_self ..
  | sampled tokens => exact ⟨known, same ▸ counted.computed⟩
  | numTokens value => exact ⟨known, same ▸ counted.computed⟩
  | newBlocks blockIds => exact ⟨known, same ▸ counted.computed⟩
  | specTokens tokens => exact ⟨known, same ▸ counted.computed⟩
  | numAcceptedTokens value => exact ⟨known, same ▸ counted.computed⟩

end

theorem Counted.updateAll (opened : batch.Open)
    (counted : batch.Counted count) (ran : batch.updateAll writes = .ok next) :
    next.Counted (writes.foldl BatchStep.countWritten count) := by
  refine (foldlM_items (fun prior now => now.Open ∧
    now.Counted (prior.foldl BatchStep.countWritten count)) ?_ ⟨opened, counted⟩ ran).2
  intro prior _ _ now _ _ ⟨opened, counted⟩ stepped
  obtain ⟨ids, map, builder, -⟩ := updateRow_layout stepped
  refine ⟨opened.of_layout ids map builder, ?_⟩
  rw [List.foldl_append]
  exact counted.updateRow opened.inverse stepped

theorem Counted.addRequest (opened : batch.Open)
    (counted : batch.Counted count) (fresh : batch.reqIdToIndex.get? req.reqId = none)
    (ran : batch.addRequest req = .ok next) :
    next.Counted (update count req.reqId (some req.numComputedTokens)) := by
  have occ := opened.occupant_addRequest ran
  obtain ⟨-, map, -, -⟩ := addRequest_layout ran
  have cells : next.numComputedTokensCpu =
      update batch.numComputedTokensCpu batch.newIndex req.numComputedTokens := by
    obtain ⟨n, withParams, -, written, rfl⟩ := addRequest_ok ran
    funext i
    have row := congrArg SharedRow.numComputedTokens
      (shared_writeLora withParams req batch.newIndex i)
    rw [apply_ite SharedRow.numComputedTokens, ite_self] at row
    refine row.trans ?_
    rw [(shared_writeParams written).1]
    simp only [shared, placed, writeTokens, placeRequest_eq]
  constructor
  · intro other
    rw [map, get?_set, update_apply]
    split
    · rfl
    · exact counted.known other
  · rw [occ, cells]
    refine counted.computed.put ?_ (fun i other => update_of_ne other ..)
      (update_self ..)
    intro i _ here
    rw [(opened.inverse _ i).mpr here] at fresh
    cases fresh

theorem Counted.moveRequest {last empty : Nat} (condensing : batch.Condensing last)
    (lower : empty < last) (here : batch.occupant last = some reqId)
    (counted : batch.Counted count) : (batch.moveRequest last empty reqId).Counted count := by
  have cells : (batch.moveRequest last empty reqId).numComputedTokensCpu =
      update batch.numComputedTokensCpu empty (batch.numComputedTokensCpu last) := by
    rw [InputBatch.moveRequest]
    split <;> rfl
  constructor
  · intro other
    rw [(moveRequest_layout batch last empty reqId).2.1, get?_set]
    split
    · rename_i same
      rw [← counted.known, same, (condensing.inverse reqId last).mpr here]
      rfl
    · exact counted.known other
  · rw [occupant_moveRequest here lower, cells]
    refine counted.computed.moveOne here (fun i _ target => update_of_ne target ..) ?_
      trivial
    intro n _ same
    rw [update_self]
    exact same

theorem Counted.swapStates (counted : batch.Counted count)
    (ran : batch.swapStates i j = .ok next) : next.Counted count := by
  have occ := occupant_swapStates ran
  obtain ⟨_, _, _, _, -, -, known, other, -, map, -⟩ :=
    swapStates_layout ran
  have cells : next.numComputedTokensCpu = exchange batch.numComputedTokensCpu i j := by
    obtain ⟨-, -, -, -, -, -, -, -, rfl⟩ := swapStates_ok ran
    split <;> rfl
  constructor
  · intro _
    rw [map, get?_set, get?_set, ← counted.known]
    split_ifs with isSecond isFirst
    · rw [isSecond, other]
      rfl
    · rw [isFirst, known]
      rfl
    · rfl
  · rw [occ, cells]
    exact counted.computed.exchange (fun _ => rfl)

theorem Counted.step {update : Option BatchUpdate} (closed : batch.Closed)
    (counted : batch.Counted count) (unused : batch.Unused change)
    (ran : batch.step { change with sampled := [] } = .ok (update, next)) :
    next.Closed ∧ next.Counted (change.counts count) := by
  obtain ⟨sampled, removed, written, added, _, swapped, first, second, third, fourth, fifth,
    sixth, last⟩ := step_ok ran
  cases first
  have idle : batch.updateAll [] = .ok batch := rfl
  have leaving := (closed.leaving idle).removeAll second
  have gone : removed.Counted
      (fun reqId => if reqId ∈ change.removals then none else count reqId) := by
    have start : batch.Counted (fun reqId => if reqId ∈ ([] : List String) then none
        else count reqId) := by
      simpa using counted
    refine (foldlM_items (fun prior now => now.Open ∧ now.Counted
      (fun reqId => if reqId ∈ prior then none else count reqId)) ?_ ⟨closed.toOpen, start⟩
      second).2
    intro prior reqId later now after _ ⟨opened, counted⟩ stepped
    refine ⟨(opened.removeRequest stepped).1, ?_⟩
    have less := counted.removeRequest opened.inverse stepped
    have same : Function.update (fun other => if other ∈ prior then none else count other) reqId
        none = fun other => if other ∈ prior ++ [reqId] then none else count other := by
      funext other
      by_cases itself : other = reqId <;> simp [itself]
    rwa [same] at less
  have rewritten := gone.updateAll leaving.opened third
  obtain ⟨joined, done⟩ := foldlM_items (fun prior now => now.Counted
      (prior.foldl BatchStep.countAdded (change.writes.foldl BatchStep.countWritten
        (fun reqId => if reqId ∈ change.removals then none else count reqId))) ∧
      Joining change.additions prior now)
    (by
      intro prior _ later now after split ⟨counted, joining⟩ stepped
      obtain ⟨fresh, joining'⟩ := joining.addWithSpec unused.distinct split stepped
      refine ⟨?_, joining'⟩
      obtain ⟨_, added, written⟩ := bind_ok stepped
      have opened := joining.opened.addRequest added fresh
      rw [List.foldl_append]
      exact (counted.addRequest joining.opened fresh added).updateRow opened.inverse written)
    ⟨rewritten, leaving.joining closed unused third⟩ fourth
  obtain ⟨packed, success, dense, still⟩ := done.opened.condense
    (P := fun now => now.Counted (change.counts count)) ⟨joined.known, joined.computed⟩
    (fun condensing _ lower here counted => counted.moveRequest condensing lower here)
    (fun packed counted => ⟨counted.known, by
      rw [packed.occupant_trim]
      exact counted.computed⟩)
  rw [fifth] at success
  cases success
  obtain ⟨denseSwapped, swappedStill⟩ := foldlM_invariant
    (fun now => now.Dense ∧ now.Counted (change.counts count))
    (fun _ kept stepped => ⟨(kept.1.swapStates stepped).1, kept.2.swapStates stepped⟩)
    ⟨dense, still⟩ sixth
  have same : next = swapped.refreshMetadata.2 := by rw [last]
  rw [same]
  refine ⟨denseSwapped.refreshMetadata, ?_⟩
  rw [refreshMetadata_layout]
  exact ⟨swappedStill.known, swappedStill.computed⟩

end InputBatch
end Vllm.Worker
