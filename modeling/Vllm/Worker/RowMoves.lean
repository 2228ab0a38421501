import Vllm.Worker.RowChanges

/-! Requests that change their index: the moves of `condense` and the swaps of the reordering. -/
namespace Vllm.Worker
open List hiding next
open Relocate Function Dict

section Dicts
variable {α : Type}

theorem get?_moveDictValue (dict : Dict Nat α) (apart : dst ≠ src) (i : Nat) :
    (moveDictValue dict src dst).get? i =
      if i = src then none else if i = dst then (dict.get? src).orElse (fun _ => dict.get? dst)
      else dict.get? i := by
  rw [moveDictValue]
  cases found : dict.get? src with
  | none =>
    simp only [Option.orElse_none]
    split_ifs with source target
    · rw [source, found]
    · rw [target]
    · rfl
  | some value =>
    simp only [get?_set, get?_erase]
    split_ifs with target source source
    · exact absurd (target.symm.trans source) apart
    · rfl
    · rfl
    · rfl

theorem get?_swapDictValues (dict : Dict Nat α) (i j k : Nat) :
    (swapDictValues dict i j).get? k = exchange dict.get? i j k := by
  rw [exchange_apply]
  simp only [swapDictValues]
  cases first : dict.get? i <;> cases second : dict.get? j <;>
    simp

end Dicts

namespace InputBatch
variable {batch next : InputBatch} {ledger : Ledger}

theorem length_swapItems (list : List α) (i j : Nat) :
    (swapItems list i j).length = list.length := by
  rw [swapItems]
  split
  · rw [length_set, length_set]
  · rfl

section Move
variable {last empty : Nat} {reqId : String}

theorem moveRequest_shared (batch : InputBatch) (last empty : Nat) (reqId : String) (i : Nat) :
    (batch.moveRequest last empty reqId).shared i = (batch.moveShared last empty reqId).shared i ∧
      (batch.moveRequest last empty reqId).reqOutputTokenIds =
        (batch.moveShared last empty reqId).reqOutputTokenIds ∧
      (batch.moveRequest last empty reqId).specTokenIds =
        (batch.moveShared last empty reqId).specTokenIds ∧
      (batch.moveRequest last empty reqId).vocabSize = batch.vocabSize ∧
      (batch.moveRequest last empty reqId).isPoolingModel = batch.isPoolingModel ∧
      (batch.moveRequest last empty reqId).logitsProcessingNeedsTokenIds =
        batch.logitsProcessingNeedsTokenIds := by
  rw [moveRequest]
  split <;> exact ⟨rfl, rfl, rfl, rfl, rfl, rfl⟩

theorem join_move {α : Type} (list : List (Option α)) (lower : empty < last)
    (inside : last < list.length) (i : Nat) :
    (((list.set empty (list.getD last none)).set last none)[i]?).join =
      if i = last then none else if i = empty then (list[last]?).join else (list[i]?).join := by
  rw [getElem?_set, getElem?_set, length_set]
  by_cases source : i = last
  · rw [if_pos source.symm, if_pos inside, if_pos source]
    rfl
  · rw [if_neg (Ne.symm source), if_neg source]
    by_cases target : i = empty
    · rw [if_pos target.symm, if_pos (by omega), if_pos target, getD_eq_getElem?_getD]
      cases list[last]? <;> rfl
    · rw [if_neg (Ne.symm target), if_neg target]

theorem getD_move (list : List (List α)) (lower : empty < last)
    (inside : last < list.length) (i : Nat) : ((swapItems list last empty).set last []).getD i [] =
      if i = last then [] else if i = empty then list.getD last [] else list.getD i [] := by
  have swapped := getElem?_swapItems inside (lower.trans inside)
  rw [getD_set _ _ (by rw [length_swapItems]; exact inside)]
  split
  · rfl
  · rename_i source
    rw [getD_eq_getElem?_getD, swapped, exchange_apply, if_neg source]
    split <;> rw [getD_eq_getElem?_getD]

section
variable (outputs : last < batch.reqOutputTokenIds.length)
  (specs : last < batch.specTokenIds.length) (lower : empty < last)
include outputs specs lower

theorem shared_move_other (source : i ≠ last)
    (target : i ≠ empty) : (batch.moveShared last empty reqId).shared i = batch.shared i := by
  have blocks : (batch.blockTable.map (fun table => table.moveRow last empty)).map (·.row i) =
      batch.blockTable.map (·.row i) := by
    rw [map_map]
    apply map_congr_left
    intro table _
    exact row_moveRow_other target
  simp only [shared, moveShared, update_of_ne target, blocks,
    get?_moveDictValue _ lower.ne, if_neg source, if_neg target, join_move _ lower outputs,
    getD_move _ lower specs]

theorem shared_move (holds : (batch.shared last).Holds row) :
    ((batch.moveShared last empty reqId).shared empty).Holds row := by
  have spec : batch.specTokenIds.getD last [] = row.spec := holds.spec
  have enough : batch.numTokensNoSpec last ≤
      batch.numTokensNoSpec last + (batch.specTokenIds.getD last []).length :=
    Nat.le_add_right ..
  constructor
  · simp only [shared, moveShared, update_self]
    exact holds.tokens.copy _ enough
  · simp only [shared, moveShared, update_self]
    exact holds.isToken.copy _ enough
  · simp only [shared, moveShared, update_self]
    exact holds.prompt
  · simp only [shared, moveShared, update_self]
    exact holds.computed
  · rw [← holds.blocks]
    simp only [shared, moveShared, map_map]
    apply map_congr_left
    intro table _
    exact row_moveRow table last empty
  · simp only [shared, moveShared, update_self]
    exact holds.lora
  · simp only [shared, moveShared]
    rw [join_move _ lower outputs, if_neg lower.ne, if_pos rfl]
    exact holds.outputs
  · simp only [shared, moveShared]
    rw [getD_move _ lower specs, if_neg lower.ne, if_pos rfl]
    exact spec
  · intro written p token found
    have inside : p < row.spec.length := (List.getElem?_eq_some_iff.mp found).1
    simp only [shared, moveShared, update_self, copyFirst]
    rw [if_pos (by rw [spec]; omega)]
    exact holds.specCells written p token found
  · intro embeds given
    simp only [shared, moveShared]
    rw [get?_moveDictValue _ lower.ne, if_neg lower.ne, if_pos rfl]
    have present : batch.reqPromptEmbeds.get? last = some embeds := holds.embeds embeds given
    rw [present]
    rfl

end

theorem sampling_move (gen : batch.isPoolingModel = false) (lower : empty < last)
    (vacant : (batch.sampling empty).generator = none ∧ (batch.sampling empty).badWords = none)
    (i : Nat) : (batch.moveRequest last empty reqId).sampling i =
      if i = last then { batch.sampling last with generator := none, badWords := none }
      else if i = empty then batch.sampling last else batch.sampling i := by
  have noGenerator : batch.generators.get? empty = none := vacant.1
  have noBadWords : batch.badWordsTokenIds.get? empty = none := vacant.2
  rw [moveRequest, if_neg (by simp [gen])]
  simp only [moveSampling, moveShared, sampling,
    get?_moveDictValue _ lower.ne, noGenerator, noBadWords]
  by_cases source : i = last
  · simp [source, lower.ne']
  · by_cases target : i = empty
    · simp [target, lower.ne]
    · simp [source, target]

theorem maskRow_move (gen : batch.isPoolingModel = false) (i : Nat) :
    (batch.moveRequest last empty reqId).maskRow i =
      if i = empty then batch.maskRow last else batch.maskRow i := by
  rw [moveRequest, if_neg (by simp [gen])]
  simp only [moveSampling, moveShared, maskRow]
  cases batch.allowedTokenIdsMask with
  | none => simp
  | some mask =>
    simp [update_apply]

/-- A move carries the row of the request along. The flag for token ids stays where it was. -/
theorem Carried.moveRequest (carried : Carried batch ledger) (condensing : batch.Condensing last)
    (hole : batch.occupant empty = none) (lower : empty < last)
    (here : batch.occupant last = some reqId)
    (flags : batch.isPoolingModel = true → ∀ row params, ledger.rows.get? reqId = some row →
      row.request.poolingParams = some params →
      batch.logitsProcessingNeedsTokenIds empty = params.requiresTokenIds) :
    Carried (batch.moveRequest last empty reqId) ledger := by
  have occ := occupant_moveRequest here lower
  obtain ⟨ids, map, -, -⟩ := moveRequest_layout batch last empty reqId
  have inside := lt_of_occupant here
  have outputs : last < batch.reqOutputTokenIds.length := by
    rw [carried.outputs]
    exact inside
  have specs : last < batch.specTokenIds.length := inside.trans_le carried.specs
  have shape := moveRequest_shared batch last empty reqId
  obtain ⟨-, outputsIs, specsIs, vocab, kind, needs⟩ := shape 0
  constructor
  · have blocks : (batch.moveRequest last empty reqId).blockTable =
        batch.blockTable.map (fun table => table.moveRow last empty) := by
      rw [InputBatch.moveRequest]
      split <;> rfl
    rw [ratios, blocks, map_map]
    exact carried.ratios
  · intro other
    rw [map, get?_set]
    split
    · rename_i same
      rw [← carried.known, same, (condensing.inverse reqId last).mpr here]
      rfl
    · exact carried.known other
  · rw [kind]
    exact carried.suits
  · rw [outputsIs, ids]
    simp only [moveShared, length_set]
    exact carried.outputs
  · rw [specsIs, ids]
    simp only [moveShared, length_set, length_swapItems]
    exact carried.specs
  · rw [OwnedShared, occ]
    refine carried.shared.moveOne here ?_ ?_ ?_
    · intro i source target
      rw [(shape i).1, shared_move_other outputs specs lower source target]
    · intro row _ holds
      rw [(shape empty).1]
      exact shared_move outputs specs lower holds
    · rw [(shape last).1]
      simp only [shared, moveShared]
      rw [getD_move _ lower specs, if_pos rfl]
  · intro gen
    rw [kind] at gen
    have vacant := (carried.sampling gen empty).1 hole
    rw [OwnedSampling, occ, vocab]
    refine (carried.sampling gen).moveOne here ?_ ?_ ?_
    · intro i source target
      rw [sampling_move gen lower vacant, if_neg source, if_neg target]
    · intro row _ holds
      rw [sampling_move gen lower vacant, if_neg lower.ne, if_pos rfl]
      exact holds
    · rw [sampling_move gen lower vacant, if_pos rfl]
      exact ⟨rfl, rfl⟩
  · intro pooling i
    rw [kind] at pooling
    have idle := carried.idle pooling i
    rw [InputBatch.moveRequest, if_pos pooling]
    exact idle
  · intro gen
    rw [kind] at gen
    rw [OwnedMask, occ, vocab]
    refine (carried.mask gen).moveOne here ?_ ?_ trivial
    · intro i _ target
      rw [maskRow_move gen, if_neg target]
    · intro row _ holds
      rw [maskRow_move gen, if_pos rfl]
      exact holds
  · intro pooling
    rw [kind] at pooling
    rw [OwnedNeeds, occ, needs]
    refine (carried.needs pooling).moveOne here (fun _ _ _ => rfl) ?_ trivial
    intro row found _ params given
    exact flags pooling row params found given
  · rw [InputBatch.moveRequest]
    split <;> exact carried.byId.congr rfl
  · rw [InputBatch.moveRequest]
    split <;> exact carried.loras.congr rfl rfl

theorem Carried.trim (carried : Carried batch ledger) (packed : batch.Packed) :
    Carried batch.trim ledger := by
  have occ := packed.occupant_trim
  refine ⟨carried.ratios, carried.known, carried.suits, ?_, ?_, ?_, ?_, carried.idle, ?_, ?_,
    carried.byId.congr rfl, carried.loras.congr rfl rfl⟩
  · simp [InputBatch.trim, carried.outputs]
  · have specs := carried.specs
    simp only [InputBatch.trim, length_take]
    omega
  · rw [OwnedShared, occ]
    refine carried.shared.elsewhere ?_ ?_
    · intro i occupied
      have below : i < batch.numReqs := not_le.mp (fun le => occupied ((packed.full i).mpr le))
      simp only [shared, InputBatch.trim, getD_eq_getElem?_getD, getElem?_take, if_pos below]
    · intro i nobody
      have beyond := (packed.full i).mp nobody
      simp only [shared, InputBatch.trim, getD_eq_getElem?_getD, getElem?_take,
        if_neg (not_lt.mpr beyond)]
      rfl
  · rw [OwnedSampling, occ]
    exact carried.sampling
  · rw [OwnedMask, occ]
    exact carried.mask
  · rw [OwnedNeeds, occ]
    exact carried.needs

end Move

variable {i j : Nat} {first second : String} {indexFirst indexSecond : Nat}

theorem swapCells_eq (array : Nat → α) (i j : Nat) : swapCells array i j = exchange array i j := rfl

theorem row_swap (tables : List BlockTable) (i j k : Nat) :
    (tables.map (fun table => table.swapRow i j)).map (·.row k) =
      exchange (fun k => tables.map (·.row k)) i j k := by
  rw [map_map, exchange_apply]
  split_ifs with left right <;> apply map_congr_left <;> intro table _ <;>
    simp only [comp_apply, row_swapRow, exchange_apply]
  · rw [if_pos left]
  · rw [if_neg left, if_pos right]
  · rw [if_neg left, if_neg right]

theorem shared_swap (inside : i < batch.reqOutputTokenIds.length)
    (inside' : j < batch.reqOutputTokenIds.length) (specs : i < batch.specTokenIds.length)
    (specs' : j < batch.specTokenIds.length) (k : Nat) :
    (batch.swapShared i j first second indexFirst indexSecond).shared k =
      exchange batch.shared i j k := by
  simp only [shared, swapShared, swapCells_eq, row_swap, get?_swapDictValues,
    getD_eq_getElem?_getD, getElem?_swapItems inside inside', getElem?_swapItems specs specs',
    exchange_apply]
  split_ifs <;> rfl

theorem sampling_swap (k : Nat) :
    ((batch.swapShared i j first second indexFirst indexSecond).swapSampling i j).sampling k =
      exchange batch.sampling i j k := by
  simp only [sampling, swapSampling, swapCells_eq, get?_swapDictValues, exchange_apply]
  split_ifs <;> rfl

/-- The second assignment reads a row that the first one has overwritten. -/
theorem maskRow_swap (k : Nat) :
    ((batch.swapShared i j first second indexFirst indexSecond).swapSampling i j).maskRow k =
      if k = i then batch.maskRow j else batch.maskRow k := by
  simp only [maskRow, swapSampling, swapShared]
  cases batch.allowedTokenIdsMask with
  | none => simp
  | some mask =>
    simp only [Option.map_some, Option.getD_some, swapViews, update_apply]
    split_ifs <;> simp_all

/-- The requests of the ledger agree on a property. -/
def Alike {α : Type} (key : CachedRequestState → α) (ledger : Ledger) : Prop :=
  ∀ reqId reqId' req request', ledger.request reqId = some req →
    ledger.request reqId' = some request' → key req = key request'

theorem swapStates_shared (carried : Carried batch ledger) (ran : batch.swapStates i j = .ok next) :
    (∀ k, next.shared k = exchange batch.shared i j k) ∧ next.ratios = batch.ratios ∧
      next.reqIds.length = batch.reqIds.length ∧
      next.reqOutputTokenIds.length = batch.reqOutputTokenIds.length ∧
      next.specTokenIds.length = batch.specTokenIds.length ∧
      (∀ reqId, (next.reqIdToIndex.get? reqId).isSome = (batch.reqIdToIndex.get? reqId).isSome) ∧
      next.vocabSize = batch.vocabSize ∧ next.isPoolingModel = batch.isPoolingModel ∧
      next.logitsProcessingNeedsTokenIds = batch.logitsProcessingNeedsTokenIds := by
  obtain ⟨first, second, indexFirst, indexSecond, here, there, known, other, rfl⟩ :=
    swapStates_ok ran
  have outputs {k : Nat} {reqId : String} (place : batch.occupant k = some reqId) :
      k < batch.reqOutputTokenIds.length := by
    rw [carried.outputs]
    exact lt_of_occupant place
  have specs {k : Nat} {reqId : String} (place : batch.occupant k = some reqId) :
      k < batch.specTokenIds.length := (lt_of_occupant place).trans_le carried.specs
  have rows : ∀ k, (batch.swapShared i j first second indexFirst indexSecond).shared k =
      exchange batch.shared i j k :=
    shared_swap (outputs here) (outputs there) (specs here) (specs there)
  have ratios : (batch.swapShared i j first second indexFirst indexSecond).ratios =
      batch.ratios := by
    simp only [ratios, swapShared, map_map]
    rfl
  have find : ∀ reqId, (((batch.reqIdToIndex.set first indexSecond).set second indexFirst).get?
      reqId).isSome = (batch.reqIdToIndex.get? reqId).isSome := by
    intro reqId
    rw [get?_set, get?_set]
    split_ifs with isSecond isFirst
    · rw [isSecond, other]
      rfl
    · rw [isFirst, known]
      rfl
    · rfl
  split <;> exact ⟨rows, ratios, length_swapItems .., length_swapItems .., length_swapItems ..,
    find, rfl, rfl, rfl⟩

section
variable (dense : batch.Dense) (carried : Carried batch ledger)
include dense carried

/-- Requests that agree on a property have the one of any request in the batch. -/
theorem Carried.resident_alike (alike : Alike key ledger)
    (place : batch.occupant k = some reqId') (found : ledger.rows.get? reqId = some row) :
    ∃ row', ledger.rows.get? reqId' = some row' ∧ Suits batch.isPoolingModel row'.request ∧
      key row.request = key row'.request := by
  obtain ⟨row', found', request'⟩ := carried.found ((dense.inverse reqId' k).mpr place)
  exact ⟨row', found', carried.suits reqId' _ request',
    alike reqId reqId' _ _ (Ledger.request_eq found) request'⟩

/-- A mask suits every request, if they do not differ in their allowed tokens. -/
theorem Carried.mask_alike (gen : batch.isPoolingModel = false)
    (alike : Alike CachedRequestState.allowedTokenIds ledger)
    (place : batch.occupant k = some reqId') (found : ledger.rows.get? reqId = some row)
    (given : row.request.samplingParams = some params) (inside : token < batch.vocabSize) :
    batch.maskRow k token = maskFor params token := by
  obtain ⟨row', found', suits, same⟩ := resident_alike dense carried alike place found
  rw [gen] at suits
  obtain ⟨params', given'⟩ := Option.isSome_iff_exists.mp suits.1
  rw [CachedRequestState.allowedTokenIds, given, CachedRequestState.allowedTokenIds, given'] at same
  have lists : params.allowedTokenIds = params'.allowedTokenIds := Option.some.inj same
  rw [(carried.mask gen k).2 reqId' row' place found' params' given' token inside, maskFor,
    maskFor, lists]

/-- The same for the flag for token ids. -/
theorem Carried.needs_alike (pooling : batch.isPoolingModel = true)
    (alike : Alike CachedRequestState.requiresTokenIds ledger) (place : batch.occupant k = some reqId')
    (found : ledger.rows.get? reqId = some row) (given : row.request.poolingParams = some params) :
    batch.logitsProcessingNeedsTokenIds k = params.requiresTokenIds := by
  obtain ⟨row', found', suits, same⟩ := resident_alike dense carried alike place found
  rw [pooling] at suits
  obtain ⟨params', given'⟩ := Option.isSome_iff_exists.mp suits.1.2
  rw [CachedRequestState.requiresTokenIds, given, CachedRequestState.requiresTokenIds,
    given'] at same
  rw [(carried.needs pooling k).2 reqId' row' place found' params' given']
  exact (Option.some.inj same).symm

/-- A swap carries the rows along, except for the mask of the first request and the flags for
token ids. They are right if the requests do not differ in them. -/
theorem Carried.swapStates
    (masks : batch.isPoolingModel = false → Alike CachedRequestState.allowedTokenIds ledger)
    (flags : batch.isPoolingModel = true → Alike CachedRequestState.requiresTokenIds ledger)
    (ran : batch.swapStates i j = .ok next) : Carried next ledger := by
  have occ := occupant_swapStates ran
  obtain ⟨rows, ratios, ids, outputs, specs, find, vocab, kind, needs⟩ :=
    swapStates_shared carried ran
  obtain ⟨first, second, _, _, here, there, -, -, shape⟩ := swapStates_ok ran
  refine ⟨ratios.trans carried.ratios, fun reqId => (find reqId).trans (carried.known reqId), ?_,
    ?_, ?_, ?_, ?_, ?_, ?_, ?_, ?_, ?_⟩
  · rw [kind]
    exact carried.suits
  · rw [outputs, ids]
    exact carried.outputs
  · rw [specs, ids]
    exact carried.specs
  · rw [OwnedShared, occ]
    exact carried.shared.exchange rows
  · intro gen
    rw [kind] at gen
    rw [OwnedSampling, occ, vocab]
    rw [if_neg (by simp [gen])] at shape
    refine (carried.sampling gen).exchange ?_
    rw [shape]
    exact sampling_swap
  · intro pooling k
    rw [kind] at pooling
    rw [if_pos pooling] at shape
    rw [shape]
    exact carried.idle pooling k
  · intro gen
    rw [kind] at gen
    rw [OwnedMask, occ]
    rw [if_neg (by simp [gen])] at shape
    rw [shape]
    intro k
    refine ⟨fun _ => trivial, ?_⟩
    intro reqId row place found
    rw [exchange_apply] at place
    rw [maskRow_swap]
    split_ifs at place ⊢ with left right
    · exact (carried.mask gen j).2 reqId row place found
    · -- The second index keeps its mask, and the first request comes here.
      subst right
      intro params given token inside
      exact mask_alike dense carried gen (masks gen) there found given inside
    · exact (carried.mask gen k).2 reqId row place found
  · intro pooling
    rw [kind] at pooling
    rw [OwnedNeeds, occ, needs]
    intro k
    refine ⟨fun _ => trivial, ?_⟩
    intro reqId row place found params given
    rw [exchange_apply] at place
    split_ifs at place with left right
    · subst left
      exact needs_alike dense carried pooling (flags pooling) here found given
    · subst right
      exact needs_alike dense carried pooling (flags pooling) there found given
    · exact (carried.needs pooling k).2 reqId row place found params given
  · rw [shape]
    split <;> exact carried.byId.congr rfl
  · rw [shape]
    split <;> exact carried.loras.congr rfl rfl

end

theorem Carried.refreshMetadata (carried : Carried batch ledger) :
    Carried batch.refreshMetadata.2 ledger := by
  rw [refreshMetadata_layout]
  exact { carried with byId := carried.byId.congr rfl, loras := carried.loras.congr rfl rfl }

theorem Carried.sortRemoved (carried : Carried batch ledger) : Carried batch.sortRemoved ledger :=
  { carried with byId := carried.byId.congr rfl, loras := carried.loras.congr rfl rfl }

end InputBatch
end Vllm.Worker
