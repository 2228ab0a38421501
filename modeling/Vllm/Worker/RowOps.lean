import Vllm.Worker.BatchRows

/-! How each operation of the batch changes the data at an index: at the index that it is about it
writes what belongs there, and everywhere else it changes nothing. -/
namespace Vllm.Worker
open List hiding next
open Relocate Function Option

section Cells
variable {α : Type} {known : List (Option α)}

theorem writeFrom_before (values : List α) (before : p < start) :
    writeFrom cells start values p = cells p := by
  rw [writeFrom, if_neg (not_le.mpr before)]
  rfl

theorem writeFrom_at (here : values[p]? = some v) :
    writeFrom cells start values (start + p) = v := by
  rw [writeFrom, if_pos (Nat.le_add_right ..), Nat.add_sub_cancel_left, here]
  rfl

theorem map_range_writeFrom (cells : Nat → α) (start : Nat) (values : List α) :
    (range (start + values.length)).map (writeFrom cells start values) =
      (range start).map cells ++ values := by
  apply ext_getElem?
  intro p
  rw [getElem?_map]
  by_cases before : p < start
  · rw [getElem?_append_left (by simpa using before), getElem?_map,
      getElem?_range (by omega), getElem?_range before]
    simp [writeFrom_before values before]
  · obtain ⟨q, rfl⟩ := Nat.exists_eq_add_of_le (not_lt.mp before)
    rw [getElem?_append_right (by simp), length_map, length_range, Nat.add_sub_cancel_left]
    by_cases inside : q < values.length
    · rw [getElem?_range (by omega), getElem?_eq_getElem inside, map_some,
        writeFrom_at (getElem?_eq_getElem inside)]
    · rw [getElem?_eq_none (by simp; omega), getElem?_eq_none (by omega)]
      rfl

theorem Knows.append (knows : Knows known n cells) (values : List α) :
    Knows (known ++ values.map some) (n + values.length) (writeFrom cells n values) := by
  obtain ⟨rfl, content⟩ := knows
  refine ⟨by simp, ?_⟩
  intro p v found
  by_cases before : p < known.length
  · rw [getElem?_append_left before] at found
    rw [writeFrom_before values before]
    exact content p v found
  · obtain ⟨q, rfl⟩ := Nat.exists_eq_add_of_le (not_lt.mp before)
    rw [getElem?_append_right (by omega)] at found
    apply writeFrom_at
    simpa using found

/-- A write behind the known positions. -/
theorem Knows.beyond (knows : Knows known n cells) (values : List α) :
    Knows known n (writeFrom cells n values) := by
  refine ⟨knows.1, ?_⟩
  intro p v found
  have before : p < n := by
    rw [knows.1]
    exact (List.getElem?_eq_some_iff.mp found).1
  rw [writeFrom_before values before]
  exact knows.2 p v found

theorem Knows.resize (knows : Knows known n cells) (m : Nat) :
    Knows (Row.resize known m) m cells := by
  refine ⟨by rw [Row.resize]; simp; omega, ?_⟩
  intro p v found
  rw [Row.resize] at found
  by_cases before : p < (known.take m).length
  · rw [getElem?_append_left before, getElem?_take] at found
    split at found
    · exact knows.2 p v found
    · cases found
  · rw [getElem?_append_right (by omega), getElem?_replicate] at found
    split at found <;> cases found

theorem Knows.copy (target : Nat → α) (knows : Knows known n source) (enough : n ≤ m) :
    Knows known n (copyFirst target source m) := by
  refine ⟨knows.1, ?_⟩
  intro p v found
  have before : p < m := by
    have inside := (List.getElem?_eq_some_iff.mp found).1
    rw [← knows.1] at inside
    omega
  rw [copyFirst, if_pos before]
  exact knows.2 p v found

theorem Knows.unknown (n : Nat) (cells : Nat → α) : Knows (replicate n none) n cells := by
  refine ⟨by simp, ?_⟩
  intro p v found
  rw [getElem?_replicate] at found
  split at found <;> cases found

theorem Knows.written (values : List α) (cells : Nat → α) :
    Knows (values.map some) values.length (writeFrom cells 0 values) := by
  have start : Knows [] 0 cells := ⟨rfl, fun p v found => by simp at found⟩
  simpa using start.append values

end Cells

section Blocks
variable {table : BlockTable}

theorem map_mapIdx {α β γ δ : Type} {f : β → γ} {g : Nat → α → β} {h : Nat → δ → γ} {k : α → δ}
    (each : ∀ i a, f (g i a) = h i (k a)) (list : List α) :
    (list.mapIdx g).map f = (list.map k).mapIdx h := by
  apply ext_getElem?
  intro i
  simp only [getElem?_map, getElem?_mapIdx]
  cases list[i]? with
  | none => rfl
  | some a => exact congrArg some (each i a)

theorem map_mapIdx_same {α β γ : Type} {f : β → γ} {g : Nat → α → β} {k : α → γ}
    (each : ∀ i a, f (g i a) = k a) (list : List α) : (list.mapIdx g).map f = list.map k :=
  (map_mapIdx (h := fun _ => id) each list).trans (mapIdx_eq_iff.mpr (by simp))

theorem row_appendRow (table : BlockTable) (blockIds : List Nat) (r : Nat) :
    (table.appendRow blockIds r).row r = (table.blocksPerKvBlock,
      (table.row r).2 ++ BlockTable.mapToKernelBlocks table.blocksPerKvBlock blockIds) := by
  rw [BlockTable.appendRow]
  split
  · rename_i nothing
    have none_mapped : BlockTable.mapToKernelBlocks table.blocksPerKvBlock [] = [] := by
      simp [BlockTable.mapToKernelBlocks]
    rw [nothing, none_mapped, append_nil]
    rfl
  · simp only [BlockTable.row, update_self]
    rw [map_range_writeFrom]

theorem row_appendRow_other (other : i ≠ r) : (table.appendRow blockIds r).row i = table.row i := by
  rw [BlockTable.appendRow]
  split
  · rfl
  · simp [BlockTable.row, update_of_ne other]

theorem row_addRow (table : BlockTable) (blockIds : List Nat) (r : Nat) :
    (table.addRow blockIds r).row r = (table.blocksPerKvBlock,
      BlockTable.mapToKernelBlocks table.blocksPerKvBlock blockIds) := by
  rw [BlockTable.addRow, row_appendRow]
  simp [BlockTable.row]

theorem row_addRow_other (other : i ≠ r) : (table.addRow blockIds r).row i = table.row i := by
  rw [BlockTable.addRow, row_appendRow_other other]
  simp [BlockTable.row, update_of_ne other]

theorem row_moveRow (table : BlockTable) (src tgt : Nat) :
    (table.moveRow src tgt).row tgt = table.row src := by
  simp only [BlockTable.moveRow, BlockTable.row, update_self, Prod.mk.injEq, true_and]
  apply map_congr_left
  intro p inside
  rw [copyFirst, if_pos (mem_range.mp inside)]

theorem row_moveRow_other (other : i ≠ tgt) : (table.moveRow src tgt).row i = table.row i := by
  simp only [BlockTable.moveRow, BlockTable.row, update_of_ne other]

theorem row_swapRow (table : BlockTable) (src tgt i : Nat) :
    (table.swapRow src tgt).row i = exchange table.row src tgt i := by
  have cells {α : Type} (array : Nat → α) : swapCells array src tgt i = exchange array src tgt i :=
    rfl
  simp only [BlockTable.swapRow, BlockTable.row, cells, exchange_apply]
  split_ifs <;> rfl

theorem blocksPerKvBlock_appendRow (table : BlockTable) (blockIds : List Nat) (r : Nat) :
    (table.appendRow blockIds r).blocksPerKvBlock = table.blocksPerKvBlock := by
  rw [BlockTable.appendRow]
  split <;> rfl

end Blocks

namespace InputBatch
variable {batch next : InputBatch} {ledger : Ledger}

theorem getD_set {α : Type} (list : List (List α)) (value : List α) (inside : index < list.length) :
    (list.set index value).getD i [] = if i = index then value else list.getD i [] := by
  rw [getD_eq_getElem?_getD, getD_eq_getElem?_getD, getElem?_set]
  by_cases here : index = i
  · rw [if_pos here, if_pos inside, if_pos here.symm]
    rfl
  · rw [if_neg here, if_neg (Ne.symm here)]

theorem shared_writeRow_other (write : RowWrite) (other : i ≠ index) :
    (batch.writeRow index write).shared i = batch.shared i := by
  cases write with
  | newBlocks blockIds =>
    apply SharedRow.ext <;> try rfl
    refine map_mapIdx_same ?_ _
    exact fun _ _ => row_appendRow_other other
  | specTokens tokens =>
    have spec : (batch.specTokenIds.set index tokens).getD i [] = batch.specTokenIds.getD i [] := by
      rw [getD_eq_getElem?_getD, getElem?_set_ne (symm other), getD_eq_getElem?_getD]
    simp only [writeRow, writeTokensAt, shared, update_of_ne other, spec]
  | _ => simp only [writeRow, writeTokensAt, shared, update_of_ne other]

theorem shared_writeRow (write : RowWrite)
    (inside : index < batch.specTokenIds.length) (holds : (batch.shared index).Holds row) :
    ((batch.writeRow index write).shared index).Holds (row.write write) := by
  cases write with
  | sampled tokens =>
    refine { holds with tokens := ?_, isToken := ?_, specCells := ?_ }
    · simp only [writeRow, writeTokensAt, shared, update_self]
      exact holds.tokens.append tokens
    · have appended := holds.isToken.append (replicate tokens.length true)
      rw [map_replicate, length_replicate] at appended
      simp only [writeRow, shared, update_self]
      exact appended
    · intro absurd
      cases absurd
  | numComputedTokens value =>
    refine { holds with computed := ?_ }
    simp only [writeRow, shared, update_self, Row.write]
  | numTokens value =>
    refine { holds with tokens := ?_, isToken := ?_, specCells := ?_ }
    · simp only [writeRow, shared, update_self]
      exact holds.tokens.resize value
    · simp only [writeRow, shared, update_self]
      exact holds.isToken.resize value
    · intro absurd
      cases absurd
  | newBlocks blockIds =>
    refine { holds with blocks := ?_ }
    simp only [shared, Row.write, ← holds.blocks]
    refine map_mapIdx ?_ _
    exact fun _ table => row_appendRow table _ index
  | specTokens tokens =>
    refine { holds with tokens := ?_, isToken := ?_, spec := ?_, specCells := ?_ }
    · simp only [writeRow, writeTokensAt, shared, update_self]
      exact holds.tokens.beyond tokens
    · exact holds.isToken
    · simp only [writeRow, shared, Row.write]
      rw [getD_set _ _ inside, if_pos rfl]
    · intro _ p _ found
      simp only [writeRow, writeTokensAt, shared, update_self]
      exact writeFrom_at found
  | numAcceptedTokens value =>
    exact { holds with }

theorem sampling_writeRow_other (write : RowWrite) (other : i ≠ index) :
    (batch.writeRow index write).sampling i = batch.sampling i := by
  cases write with
  | numAcceptedTokens value =>
    simp only [writeRow, sampling, update_of_ne other]
  | _ => rfl

theorem sampling_writeRow {vocabSize : Nat} {row : Row} (write : RowWrite)
    (holds : batch.sampling index = row.sampling vocabSize params) :
    (batch.writeRow index write).sampling index = (row.write write).sampling vocabSize params := by
  cases write with
  | numAcceptedTokens value =>
    have parts := holds
    simp only [sampling, Row.sampling, SamplingRow.mk.injEq] at parts
    simp only [writeRow, sampling, Row.write, Row.sampling, update_self,
      SamplingRow.mk.injEq, true_and]
    exact ⟨parts.1, parts.2.1, parts.2.2.1, parts.2.2.2.1, parts.2.2.2.2.1, parts.2.2.2.2.2.1,
      parts.2.2.2.2.2.2.2.1, parts.2.2.2.2.2.2.2.2⟩
  | _ => exact holds

theorem ratios_writeRow (batch : InputBatch) (index : Nat) (write : RowWrite) :
    (batch.writeRow index write).ratios = batch.ratios := by
  cases write with
  | newBlocks blockIds =>
    refine map_mapIdx_same ?_ _
    exact fun _ table => blocksPerKvBlock_appendRow table _ index
  | _ => rfl

theorem request_write (row : Row) (write : RowWrite) : (row.write write).request = row.request := by
  cases write <;> rfl

theorem request_ledger_write (write : RowWrite) (found : ledger.rows.get? reqId = some row) :
    (ledger.write reqId write).request = ledger.request ∧ (ledger.write reqId write).rows.get? =
        update ledger.rows.get? reqId (some (row.write write)) ∧
      (ledger.write reqId write).loras = ledger.loras ∧
      (ledger.write reqId write).ratios = ledger.ratios := by
  rw [Ledger.write, found]
  refine ⟨?_, Dict.get?_set_eq_update .., rfl, rfl⟩
  funext other
  simp only [Ledger.request, Dict.get?_set]
  split
  · rename_i same
    rw [same, found, map_some, map_some, request_write]
  · rfl

theorem Carried.updateRow
    (inverse : Inverse batch.reqIdToIndex.get? batch.occupant) (carried : Carried batch ledger)
    (ran : batch.updateRow reqId write = .ok next) : Carried next (ledger.write reqId write) := by
  rw [InputBatch.updateRow] at ran
  split at ran
  · cases ran
  rename_i index loc
  cases ran
  have here := (inverse reqId index).mp loc
  have inside := lt_of_occupant here
  obtain ⟨row, found, -⟩ := carried.found loc
  obtain ⟨requests, rows, loras, same⟩ := request_ledger_write write found
  have only : ∀ i, batch.occupant i = some reqId → i = index := by
    intro i place
    have again := (inverse reqId i).mpr place
    rw [loc] at again
    exact (some.inj again).symm
  have layout := writeRow_layout batch index write
  have occ : (batch.writeRow index write).occupant = batch.occupant := by
    funext i
    rw [occupant, layout.1, occupant]
  have vocab : (batch.writeRow index write).vocabSize = batch.vocabSize := by
    cases write <;> rfl
  have masks : (batch.writeRow index write).maskRow = batch.maskRow := by
    cases write <;> rfl
  have flags : (batch.writeRow index write).logitsProcessingNeedsTokenIds =
      batch.logitsProcessingNeedsTokenIds := by
    cases write <;> rfl
  have outputs : (batch.writeRow index write).reqOutputTokenIds = batch.reqOutputTokenIds := by
    cases write <;> rfl
  have specs : (batch.writeRow index write).specTokenIds.length = batch.specTokenIds.length := by
    cases write with
    | specTokens tokens => exact length_set
    | _ => rfl
  constructor
  · rw [ratios_writeRow, same]
    exact carried.ratios
  · rw [requests, layout.2.1]
    exact carried.known
  · rw [requests, layout.2.2.2]
    exact carried.suits
  · rw [outputs, layout.1]
    exact carried.outputs
  · rw [specs, layout.1]
    exact carried.specs
  · rw [OwnedShared, rows, occ]
    exact carried.shared.rewrite here only (fun i other => shared_writeRow_other write other)
      (shared_writeRow write (inside.trans_le carried.specs)
        ((carried.shared index).2 reqId row here found))
  · intro gen
    rw [OwnedSampling, rows, occ, vocab]
    refine (carried.sampling (layout.2.2.2 ▸ gen)).rewrite here only
      (fun i other => sampling_writeRow_other write other) ?_
    intro params given
    rw [request_write] at given
    exact sampling_writeRow write
      (((carried.sampling (layout.2.2.2 ▸ gen)) index).2 reqId row here found params given)
  · intro pooling i
    have idle := carried.idle (layout.2.2.2 ▸ pooling) i
    cases write <;> exact idle
  · intro gen
    rw [OwnedMask, rows, occ, vocab, masks]
    refine (carried.mask (layout.2.2.2 ▸ gen)).rewrite here only (fun _ _ => rfl) ?_
    intro params given
    rw [request_write] at given
    exact ((carried.mask (layout.2.2.2 ▸ gen)) index).2 reqId row here found params given
  · intro pooling
    rw [OwnedNeeds, rows, occ, flags]
    refine (carried.needs (layout.2.2.2 ▸ pooling)).rewrite here only (fun _ _ => rfl) ?_
    intro params given
    rw [request_write] at given
    exact ((carried.needs (layout.2.2.2 ▸ pooling)) index).2 reqId row here found params given
  · rw [requests]
    cases write <;> exact carried.byId.congr rfl
  · rw [requests, loras]
    cases write <;> exact carried.loras.congr rfl rfl

end InputBatch
end Vllm.Worker
