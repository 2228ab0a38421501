import Vllm.Worker.InputBatch
import Vllm.Lib.Relocate

/-! Which request stands at which index of the persistent batch. During a step the batch has
holes, at the removed indices; after it there are none. -/
namespace Vllm.Worker
open List hiding next
open Relocate Function Py Option BatchUpdateBuilder
variable {reqId : String}

namespace InputBatch

def occupant (batch : InputBatch) (i : Nat) : Option String := (batch.reqIds[i]?).join

theorem occupant_eq_some {batch : InputBatch} :
    batch.occupant i = some reqId ↔ batch.reqIds[i]? = some (some reqId) := by
  rw [occupant]
  cases batch.reqIds[i]? with
  | none => simp
  | some entry => simp

theorem lt_of_occupant {batch : InputBatch} (here : batch.occupant i = some reqId) :
    i < batch.reqIds.length :=
  (List.getElem?_eq_some_iff.mp (occupant_eq_some.mp here)).1

def removed (batch : InputBatch) : List Nat := batch.batchUpdateBuilder.removed

/-- The batch during a step: the holes are the removed indices that have not been filled
again. -/
structure Open (batch : InputBatch) : Prop where
  inverse : Inverse batch.reqIdToIndex.get? batch.occupant
  holes : ∀ i < batch.reqIds.length, batch.occupant i = none ↔ i ∈ batch.removed
  removed_lt : ∀ i ∈ batch.removed, i < batch.reqIds.length
  removed_nodup : batch.removed.Nodup
  counted : batch.numReqs + batch.removed.length = batch.reqIds.length
  sorted : batch.batchUpdateBuilder.isRemovedSorted = true → batch.removed.Pairwise (· > ·)

structure Closed (batch : InputBatch) : Prop extends Open batch where
  settled : batch.batchUpdateBuilder = {}

theorem init_closed : (init rows tokens pooling blocks).Closed :=
  ⟨⟨fun _ _ => by simp [init, occupant], by simp [init], by simp [init, removed], nodup_nil, rfl,
    fun flag => by cases flag⟩, rfl⟩

end InputBatch

namespace BatchUpdateBuilder
variable {builder : BatchUpdateBuilder}

theorem ensureRemovedSorted_perm (builder : BatchUpdateBuilder) :
    builder.ensureRemovedSorted.removed.Perm builder.removed := by
  rw [ensureRemovedSorted]
  split
  · exact Perm.refl _
  · exact perm_insertionSort _ _

theorem ensureRemovedSorted_sorted (unique : builder.removed.Nodup)
    (sorted : builder.isRemovedSorted = true → builder.removed.Pairwise (· > ·)) :
    builder.ensureRemovedSorted.removed.Pairwise (· > ·) := by
  rw [ensureRemovedSorted]
  split
  · rename_i already
    exact sorted already
  · have distinct : (builder.removed.insertionSort (· ≥ ·)).Nodup :=
      (perm_insertionSort _ _).nodup_iff.mpr unique
    exact ((pairwise_insertionSort _ _).and distinct).imp
      (fun both => lt_of_le_of_ne both.1 both.2.symm)

theorem ensureRemovedSorted_flag (builder : BatchUpdateBuilder) :
    builder.ensureRemovedSorted.isRemovedSorted = true := by
  rw [ensureRemovedSorted]
  split
  · assumption
  · rfl

theorem ensureRemovedSorted_moved (builder : BatchUpdateBuilder) :
    builder.ensureRemovedSorted.moved = builder.moved ∧
      builder.ensureRemovedSorted.added = builder.added := by
  rw [ensureRemovedSorted]
  split <;> exact ⟨rfl, rfl⟩

/-- The lowest index is taken from the removed ones. -/
theorem popRemoved_some (some_left : builder.removed ≠ []) :
    ∃ index, builder.popRemoved.1 = some index ∧
      builder.ensureRemovedSorted.removed = builder.popRemoved.2.removed ++ [index] ∧
      builder.popRemoved.2.isRemovedSorted = true := by
  have left : builder.ensureRemovedSorted.removed ≠ [] := by
    intro none_left
    have perm := ensureRemovedSorted_perm builder
    rw [none_left] at perm
    exact some_left perm.symm.eq_nil
  refine ⟨builder.ensureRemovedSorted.removed.getLast left, ?_, ?_, ?_⟩
  · rw [popRemoved, if_neg some_left]
    exact getLast?_eq_some_getLast left
  · rw [popRemoved, if_neg some_left]
    exact (dropLast_append_getLast left).symm
  · rw [popRemoved, if_neg some_left]
    exact ensureRemovedSorted_flag builder

theorem popRemoved_none (nothing : builder.removed = []) :
    builder.popRemoved = (none, builder) := by
  rw [popRemoved, if_pos nothing]

theorem popRemoved_moved (builder : BatchUpdateBuilder) :
    builder.popRemoved.2.moved = builder.moved ∧ builder.popRemoved.2.added = builder.added := by
  rw [popRemoved]
  split
  · exact ⟨rfl, rfl⟩
  · exact ensureRemovedSorted_moved builder

end BatchUpdateBuilder

namespace InputBatch
variable {batch next : InputBatch}

theorem removeRequest_layout (ran : batch.removeRequest reqId = .ok next) :
    batch.reqIdToIndex.get? reqId = none ∧ next = batch ∨
    ∃ index, batch.reqIdToIndex.get? reqId = some index ∧
      batch.batchUpdateBuilder.isRemovedSorted = false ∧ next.reqIds = batch.reqIds.set index none ∧
      next.reqIdToIndex = batch.reqIdToIndex.erase reqId ∧
      next.batchUpdateBuilder = { batch.batchUpdateBuilder with
        removed := batch.removed ++ [index], batchChanged := true } ∧
      next.isPoolingModel = batch.isPoolingModel := by
  rw [removeRequest] at ran
  split at ran
  · rename_i unknown
    cases ran
    exact .inl ⟨unknown, rfl⟩
  · rename_i index found
    obtain ⟨_, appended, ran⟩ := bind_ok ran
    obtain ⟨afterLora, unloaded, ran⟩ := bind_ok ran
    cases ran
    rw [removedAppend] at appended
    split at appended
    · cases appended
    rename_i unsorted
    cases appended
    have same : afterLora.reqIds = batch.reqIds.set index none ∧
        afterLora.reqIdToIndex = batch.reqIdToIndex.erase reqId ∧
        afterLora.batchUpdateBuilder = { batch.batchUpdateBuilder with
          removed := batch.removed ++ [index], batchChanged := true } ∧
        afterLora.isPoolingModel = batch.isPoolingModel := by
      rw [removeLora] at unloaded
      split at unloaded
      · cases unloaded
        exact ⟨rfl, rfl, rfl, rfl⟩
      · split at unloaded
        · cases unloaded
        · cases unloaded
          exact ⟨rfl, rfl, rfl, rfl⟩
    refine .inr ⟨index, found, by simpa using unsorted, ?_⟩
    rw [removeParams]
    split <;> exact same

theorem occupant_set
    (inside : index < batch.reqIds.length) (same : ids = batch.reqIds.set index entry) (i : Nat) :
    (ids[i]?).join = update batch.occupant index entry i := by
  rw [same, getElem?_set]
  by_cases here : index = i
  · subst here
    rw [if_pos rfl, if_pos inside, update_self]
    rfl
  · rw [if_neg here, update_of_ne (Ne.symm here)]
    rfl

theorem Open.removeRequest (opened : batch.Open) (ran : batch.removeRequest reqId = .ok next) :
    next.Open ∧ next.batchUpdateBuilder.isRemovedSorted =
      batch.batchUpdateBuilder.isRemovedSorted := by
  rcases removeRequest_layout ran with ⟨-, rfl⟩ | ⟨index, found, unsorted, ids, map, builder, -⟩
  · exact ⟨opened, rfl⟩
  have here := (opened.inverse reqId index).mp found
  have inside := lt_of_occupant here
  have occ : next.occupant = update batch.occupant index none :=
    funext (occupant_set inside ids)
  have listed : next.removed = batch.removed ++ [index] := by rw [removed, builder]
  have fresh : index ∉ batch.removed := by
    intro mem
    rw [(opened.holes index inside).mpr mem] at here
    cases here
  have length : next.reqIds.length = batch.reqIds.length := by rw [ids, length_set]
  refine ⟨⟨?_, ?_, ?_, ?_, ?_, ?_⟩, by rw [builder]⟩
  · have find : next.reqIdToIndex.get? =
        fun other => if other = reqId then none else batch.reqIdToIndex.get? other := by
      funext other
      rw [map, Dict.get?_erase]
    rw [find, occ]
    exact opened.inverse.vacate here
  · intro i below
    rw [length] at below
    rw [occ, listed, mem_append]
    by_cases place : i = index
    · simp [place]
    · rw [update_of_ne place, opened.holes i below]
      simp [place]
  · intro i mem
    rw [length]
    rw [listed, mem_append, mem_singleton] at mem
    rcases mem with prior | rfl
    · exact opened.removed_lt i prior
    · exact inside
  · rw [listed]
    exact nodup_append.mpr ⟨opened.removed_nodup, nodup_singleton _, by
      intro i prior j last same
      rw [mem_singleton] at last
      exact fresh (last ▸ same ▸ prior)⟩
  · rw [length, listed, length_append, length_singleton, ← opened.counted]
    have size := batch.reqIdToIndex.size_erase found
    simp only [numReqs, map]
    omega
  · intro sorted
    rw [builder] at sorted
    rw [show batch.batchUpdateBuilder.isRemovedSorted = false from unsorted] at sorted
    cases sorted

section Add
variable {req : CachedRequestState}

section
variable (batch : InputBatch) (req : CachedRequestState)

def newIndex : Nat := batch.batchUpdateBuilder.popRemoved.1.getD batch.numReqs

def builderAfter : BatchUpdateBuilder :=
  { batch.batchUpdateBuilder.popRemoved.2 with
    batchChanged := true
    added := match req.samplingParams with
      | some params => batch.batchUpdateBuilder.popRemoved.2.added ++
          [⟨batch.newIndex, params, req.outputRef⟩]
      | none => batch.batchUpdateBuilder.popRemoved.2.added }

def placed (numPromptTokens : Nat) : InputBatch :=
  (({ batch with batchUpdateBuilder := batch.builderAfter req } : InputBatch).placeRequest
    req batch.newIndex).writeTokens req batch.newIndex numPromptTokens

end

theorem addRequest_ok (ran : batch.addRequest req = .ok next) : ∃ numPromptTokens withParams,
      lengthFromPromptTokenIdsOrEmbeds req.promptTokenIds req.promptEmbeds =
        .ok numPromptTokens ∧
      (batch.placed req numPromptTokens).writeParams req batch.newIndex = .ok withParams ∧
      next = withParams.writeLora req batch.newIndex := by
  rw [addRequest] at ran
  obtain ⟨⟨index, registered⟩, chosen, ran⟩ := bind_ok ran
  rw [registerAddRequest] at chosen
  obtain ⟨-, chosen⟩ := assert_bind_ok chosen
  cases chosen
  obtain ⟨numPromptTokens, length, ran⟩ := bind_ok ran
  obtain ⟨withParams, written, ran⟩ := bind_ok ran
  cases ran
  exact ⟨numPromptTokens, withParams, length, written, rfl⟩

theorem writeParams_layout (h : batch.writeParams req index = .ok withParams) :
    withParams.reqIds = batch.reqIds ∧ withParams.reqIdToIndex = batch.reqIdToIndex ∧
      withParams.batchUpdateBuilder = batch.batchUpdateBuilder ∧
      withParams.isPoolingModel = batch.isPoolingModel := by
  rw [writeParams] at h
  split at h
  · cases h
    exact ⟨rfl, rfl, rfl, rfl⟩
  · rw [writePoolingParams] at h
    split at h
    · cases h
    · cases h
      exact ⟨rfl, rfl, rfl, rfl⟩
  · cases h

theorem addRequest_layout (ran : batch.addRequest req = .ok next) :
    next.reqIds = (if batch.newIndex = batch.reqIds.length then batch.reqIds ++ [some req.reqId]
      else batch.reqIds.set batch.newIndex (some req.reqId)) ∧
    next.reqIdToIndex = batch.reqIdToIndex.set req.reqId batch.newIndex ∧
    next.batchUpdateBuilder = batch.builderAfter req ∧
    next.isPoolingModel = batch.isPoolingModel := by
  obtain ⟨_, withParams, -, written, rfl⟩ := addRequest_ok ran
  have kept := writeParams_layout written
  have lora : (withParams.writeLora req batch.newIndex).reqIds = withParams.reqIds ∧
      (withParams.writeLora req batch.newIndex).reqIdToIndex = withParams.reqIdToIndex ∧
      (withParams.writeLora req batch.newIndex).batchUpdateBuilder =
        withParams.batchUpdateBuilder ∧
      (withParams.writeLora req batch.newIndex).isPoolingModel = withParams.isPoolingModel := by
    rw [writeLora]
    split <;> exact ⟨rfl, rfl, rfl, rfl⟩
  rw [lora.1, lora.2.1, lora.2.2.1, lora.2.2.2, kept.1, kept.2.1, kept.2.2.1, kept.2.2.2]
  simp only [placed, writeTokens, placeRequest]
  split <;> exact ⟨rfl, rfl, rfl, rfl⟩

variable (opened : batch.Open)
include opened

/-- A request goes to the lowest hole, or to the end if there is none. -/
theorem Open.newIndex_cases : batch.removed = [] ∧ batch.newIndex = batch.reqIds.length ∧
        batch.batchUpdateBuilder.popRemoved.2 = batch.batchUpdateBuilder ∨
      batch.newIndex ∈ batch.removed ∧
        batch.batchUpdateBuilder.popRemoved.2.isRemovedSorted = true ∧
        (batch.batchUpdateBuilder.popRemoved.2.removed ++ [batch.newIndex]).Perm batch.removed ∧
        (batch.batchUpdateBuilder.popRemoved.2.removed ++ [batch.newIndex]).Pairwise (· > ·) := by
  by_cases nothing : batch.removed = []
  · left
    have count := opened.counted
    rw [nothing] at count
    rw [newIndex, popRemoved_none nothing]
    exact ⟨nothing, count, rfl⟩
  · right
    obtain ⟨index, found, split, flag⟩ := popRemoved_some nothing
    have same : batch.newIndex = index := by rw [newIndex, found, getD_some]
    have perm := ensureRemovedSorted_perm batch.batchUpdateBuilder
    have sorted := ensureRemovedSorted_sorted opened.removed_nodup opened.sorted
    rw [split] at perm sorted
    rw [same]
    exact ⟨perm.mem_iff.mp (by simp), flag, perm, sorted⟩

/-- An added request stands at a place that was empty. -/
theorem Open.newIndex_vacant :
    batch.newIndex ≤ batch.reqIds.length ∧ batch.occupant batch.newIndex = none := by
  rcases opened.newIndex_cases with ⟨-, last, -⟩ | ⟨mem, -⟩
  · rw [last]
    exact ⟨le_rfl, by rw [occupant, getElem?_eq_none le_rfl]; rfl⟩
  · have inside := opened.removed_lt _ mem
    exact ⟨inside.le, (opened.holes _ inside).mpr mem⟩

variable (ran : batch.addRequest req = .ok next)
include ran

theorem Open.occupant_addRequest :
    next.occupant = update batch.occupant batch.newIndex (some req.reqId) := by
  obtain ⟨ids, -⟩ := addRequest_layout ran
  funext i
  by_cases last : batch.newIndex = batch.reqIds.length
  · rw [if_pos last] at ids
    rw [occupant, ids]
    by_cases here : i = batch.newIndex
    · rw [here, update_self, last, getElem?_append_right le_rfl]
      simp
    · rw [update_of_ne here, occupant]
      by_cases below : i < batch.reqIds.length
      · rw [getElem?_append_left below]
      · have beyond : (batch.reqIds ++ [some req.reqId]).length ≤ i := by
          rw [length_append, length_singleton]
          omega
        rw [getElem?_eq_none beyond, getElem?_eq_none (by omega)]
  · rw [if_neg last] at ids
    exact occupant_set (lt_of_le_of_ne opened.newIndex_vacant.1 last) ids i

theorem Open.removed_addRequest (i : Nat) :
    i ∈ next.removed ↔ i ∈ batch.removed ∧ i ≠ batch.newIndex := by
  obtain ⟨-, -, builder, -⟩ := addRequest_layout ran
  have listed : next.removed = batch.batchUpdateBuilder.popRemoved.2.removed := by
    rw [removed, builder, builderAfter]
  rw [listed]
  rcases opened.newIndex_cases with ⟨nothing, -, same⟩ | ⟨-, -, perm, sorted⟩
  · rw [same]
    change i ∈ batch.removed ↔ _
    simp [nothing]
  · rw [← perm.mem_iff, mem_append, mem_singleton]
    have apart := disjoint_of_nodup_append (sorted.imp ne_of_gt)
    constructor
    · intro mem
      exact ⟨.inl mem, fun same => apart mem (mem_singleton.mpr same)⟩
    · rintro ⟨mem | same, ne⟩
      · exact mem
      · exact absurd same ne

theorem Open.addRequest (fresh : batch.reqIdToIndex.get? req.reqId = none) : next.Open := by
  have occ := opened.occupant_addRequest ran
  have holes := opened.removed_addRequest ran
  obtain ⟨ids, map, builder, -⟩ := addRequest_layout ran
  have vacant := opened.newIndex_vacant
  have listed : next.removed = batch.batchUpdateBuilder.popRemoved.2.removed := by
    rw [removed, builder, builderAfter]
  have size : next.numReqs = batch.numReqs + 1 := by
    rw [numReqs, map, Dict.size_set, fresh]
    rfl
  have lengths : next.reqIds.length =
      if batch.newIndex = batch.reqIds.length then batch.reqIds.length + 1
      else batch.reqIds.length := by
    rw [ids]
    split <;> simp
  constructor
  · have find : next.reqIdToIndex.get? = fun other =>
        if other = req.reqId then some batch.newIndex else batch.reqIdToIndex.get? other := by
      funext other
      rw [map, Dict.get?_set]
    rw [find, occ]
    exact opened.inverse.put vacant.2 fresh
  · intro i below
    rw [holes, occ]
    by_cases place : i = batch.newIndex
    · simp [place]
    · have older : i < batch.reqIds.length := by
        rw [lengths] at below
        split at below <;> omega
      rw [update_of_ne place, opened.holes i older]
      simp [place]
  · intro i mem
    have older := opened.removed_lt i ((holes i).mp mem).1
    rw [lengths]
    split <;> omega
  · rw [listed]
    rcases opened.newIndex_cases with ⟨-, -, same⟩ | ⟨-, -, -, sorted⟩
    · rw [same]
      exact opened.removed_nodup
    · exact ((pairwise_append.mp sorted).1).imp ne_of_gt
  · rw [lengths, listed]
    have count := opened.counted
    rcases opened.newIndex_cases with ⟨_, last, same⟩ | ⟨mem, -, perm, -⟩
    · rw [if_pos last, same]
      change _ + batch.removed.length = _
      omega
    · have inside := opened.removed_lt _ mem
      rw [if_neg inside.ne]
      have length := perm.length_eq
      simp only [length_append, length_singleton] at length
      omega
  · intro flag
    rw [listed]
    rcases opened.newIndex_cases with ⟨-, -, same⟩ | ⟨-, -, -, sorted⟩
    · rw [same]
      rw [builder, builderAfter] at flag
      simp only [same] at flag
      exact opened.sorted flag
    · exact (pairwise_append.mp sorted).1

end Add
section Condense
variable {last : Nat}

/-- The batch in the loop of `condense`: nothing is left beyond `last`. -/
structure Condensing (batch : InputBatch) (last : Nat) : Prop where
  inverse : Inverse batch.reqIdToIndex.get? batch.occupant
  below : ∀ i ≤ last, batch.occupant i = none ↔ i ∈ batch.removed
  above : ∀ i > last, batch.occupant i = none
  sorted : batch.removed.Pairwise (· > ·)
  flag : batch.batchUpdateBuilder.isRemovedSorted = true
  counted : batch.numReqs + batch.removed.countP (· ≤ last) = last + 1
  inside : last < batch.reqIds.length
  busy : 0 < batch.numReqs

/-- The batch after that loop: the requests stand at the first indices. -/
structure Packed (batch : InputBatch) : Prop where
  inverse : Inverse batch.reqIdToIndex.get? batch.occupant
  full : ∀ i, batch.occupant i = none ↔ batch.numReqs ≤ i
  beyond : ∀ i ∈ batch.removed, batch.numReqs ≤ i
  room : batch.numReqs ≤ batch.reqIds.length

theorem countP_le_succ (indices : List Nat) (last : Nat) :
    indices.countP (· ≤ last + 1) = indices.countP (· ≤ last) + indices.count (last + 1) := by
  induction indices with
  | nil => rfl
  | cons index indices ih =>
    simp only [countP_cons, count_cons, ih, decide_eq_true_eq, beq_iff_eq]
    split_ifs <;> omega

theorem Condensing.skip (condensing : batch.Condensing (last + 1))
    (hole : last + 1 ∈ batch.removed) : batch.Condensing last := by
  have unique : batch.removed.Nodup := condensing.sorted.imp ne_of_gt
  have count := condensing.counted
  rw [countP_le_succ, count_eq_one_of_mem unique hole] at count
  have := condensing.inside
  refine { condensing with
    below := fun i le => condensing.below i (by omega)
    above := ?_
    counted := by omega
    inside := by omega }
  intro i gt
  by_cases here : i = last + 1
  · rw [here]
    exact (condensing.below _ le_rfl).mpr hole
  · exact condensing.above i (by omega)

theorem Condensing.skipEmpty (condensing : batch.Condensing last) :
    batch.Condensing (skipEmpty batch.removed last) ∧
      InputBatch.skipEmpty batch.removed last ∉ batch.removed := by
  induction last with
  | zero =>
    refine ⟨condensing, fun hole => ?_⟩
    have counted := condensing.counted
    have busy := condensing.busy
    have some_counted : 0 < batch.removed.countP (· ≤ 0) :=
      countP_pos_iff.mpr ⟨_, hole, by simp [InputBatch.skipEmpty]⟩
    omega
  | succ last ih =>
    rw [InputBatch.skipEmpty]
    split
    · rename_i hole
      exact ih (condensing.skip hole)
    · rename_i solid
      exact ⟨condensing, solid⟩

/-- The round takes the lowest index from the removed ones. -/
theorem popRemoved_of_getLast (flag : batch.batchUpdateBuilder.isRemovedSorted = true)
    (lowest : batch.removed.getLast? = some empty) :
    batch.removed = batch.batchUpdateBuilder.popRemoved.2.removed ++ [empty] ∧
      batch.batchUpdateBuilder.popRemoved.2.isRemovedSorted = true := by
  have some_left : batch.batchUpdateBuilder.removed ≠ [] := by
    intro nothing
    rw [removed, nothing] at lowest
    cases lowest
  obtain ⟨index, -, split, flagged⟩ := popRemoved_some some_left
  rw [ensureRemovedSorted, if_pos flag] at split
  have same : index = empty := by
    rw [removed, split, getLast?_concat] at lowest
    exact some.inj lowest
  rw [same] at split
  exact ⟨split, flagged⟩

theorem moveRequest_layout (batch : InputBatch) (last empty : Nat) (reqId : String) :
    (batch.moveRequest last empty reqId).reqIds =
        (batch.reqIds.set empty (some reqId)).set last none ∧
      (batch.moveRequest last empty reqId).reqIdToIndex = batch.reqIdToIndex.set reqId empty ∧
      (batch.moveRequest last empty reqId).removed = batch.batchUpdateBuilder.popRemoved.2.removed ∧
      (batch.moveRequest last empty reqId).batchUpdateBuilder.isRemovedSorted =
        batch.batchUpdateBuilder.popRemoved.2.isRemovedSorted := by
  rw [moveRequest]
  split <;> exact ⟨rfl, rfl, rfl, rfl⟩

theorem occupant_moveRequest (here : batch.occupant last = some reqId) (lower : empty < last) :
    (batch.moveRequest last empty reqId).occupant = moveOne none batch.occupant last empty := by
  have inside := lt_of_occupant here
  obtain ⟨ids, -⟩ := moveRequest_layout batch last empty reqId
  funext i
  rw [occupant, ids, moveOne, here, getElem?_set, getElem?_set, length_set]
  by_cases source : i = last
  · rw [source, if_pos rfl, if_pos inside, update_self]
    rfl
  · rw [if_neg (Ne.symm source), update_of_ne source]
    by_cases target : i = empty
    · rw [target, if_pos rfl, if_pos (by omega), update_self]
      rfl
    · rw [if_neg (Ne.symm target), update_of_ne target]
      rfl

theorem Condensing.moveRequest (condensing : batch.Condensing last)
    (lowest : batch.removed.getLast? = some empty) (lower : empty < last)
    (here : batch.occupant last = some reqId) :
    (batch.moveRequest last empty reqId).Condensing (last - 1) ∧
      batch.removed = (batch.moveRequest last empty reqId).removed ++ [empty] := by
  have occ := occupant_moveRequest here lower
  obtain ⟨ids, map, listed, flagged⟩ := moveRequest_layout batch last empty reqId
  obtain ⟨split, flag⟩ := popRemoved_of_getLast condensing.flag lowest
  rw [← listed] at split
  have sorted := condensing.sorted
  rw [split] at sorted
  have apart := disjoint_of_nodup_append (sorted.imp ne_of_gt)
  have solid : last ∉ batch.removed := by
    rw [← condensing.below last le_rfl, here]
    simp
  have hole : empty ∈ batch.removed := by
    rw [split]
    simp
  have vacant : batch.occupant empty = none := (condensing.below empty lower.le).mpr hole
  have found := (condensing.inverse reqId last).mpr here
  have size : (batch.moveRequest last empty reqId).numReqs = batch.numReqs := by
    rw [numReqs, map, Dict.size_set, found]
    rfl
  refine ⟨⟨?_, ?_, ?_, (pairwise_append.mp sorted).1, by rw [flagged, flag], ?_, ?_, ?_⟩,
    split⟩
  · have find : (batch.moveRequest last empty reqId).reqIdToIndex.get? =
        fun other => if other = reqId then some empty else batch.reqIdToIndex.get? other := by
      funext other
      rw [map, Dict.get?_set]
    rw [find, occ]
    exact condensing.inverse.moveOne here vacant
  · intro i le
    have prior : i ≠ last := by omega
    rw [occ, moveOne, update_of_ne prior]
    by_cases target : i = empty
    · rw [target, here]
      simpa using fun mem => apart mem (mem_singleton.mpr rfl)
    · rw [update_of_ne target, condensing.below i (by omega), split, mem_append]
      simp [target]
  · intro i _
    rw [occ, moveOne]
    by_cases source : i = last
    · rw [source, update_self]
    · rw [update_of_ne source, update_of_ne (by omega)]
      exact condensing.above i (by omega)
  · have counted := condensing.counted
    obtain ⟨before, rfl⟩ : ∃ before, last = before + 1 := ⟨last - 1, by omega⟩
    rw [countP_le_succ, count_eq_zero_of_not_mem solid, split, countP_append] at counted
    have one : [empty].countP (· ≤ before) = 1 := by
      simpa using Nat.lt_succ_iff.mp lower
    simp only [Nat.add_sub_cancel]
    omega
  · rw [ids, length_set, length_set]
    have := condensing.inside
    omega
  · rw [size]
    exact condensing.busy

/-- When the lowest hole is not below the last request, there is none among the requests. -/
theorem Condensing.packed (condensing : batch.Condensing last)
    (none_below : ∀ i ∈ batch.removed, last < i) : batch.Packed := by
  have size : batch.numReqs = last + 1 := by
    have counted := condensing.counted
    rw [countP_eq_zero.mpr (by simpa using none_below)] at counted
    omega
  refine ⟨condensing.inverse, ?_, ?_, ?_⟩
  · intro i
    rw [size]
    by_cases le : i ≤ last
    · rw [condensing.below i le]
      constructor
      · intro hole
        exact none_below i hole
      · intro _
        omega
    · simp only [condensing.above i (by omega), true_iff]
      omega
  · intro i hole
    rw [size]
    exact none_below i hole
  · rw [size]
    exact condensing.inside

theorem condenseLoop_nil (nothing : batch.removed = []) :
    condenseLoop fuel batch last = .ok batch := by
  cases fuel with
  | zero => rfl
  | succ fuel => exact if_pos nothing

theorem condenseLoop_done (lowest : batch.removed.getLast? = some empty)
    (done : skipEmpty batch.removed last ≤ empty) : condenseLoop fuel batch last = .ok batch := by
  cases fuel with
  | zero => rfl
  | succ fuel =>
    rw [removed] at lowest
    simp only [condenseLoop, lowest]
    rw [if_pos (show empty ≥ skipEmpty batch.batchUpdateBuilder.removed last from done), ite_self]

theorem condenseLoop_move (lowest : batch.removed.getLast? = some empty)
    (lower : empty < skipEmpty batch.removed last)
    (here : batch.occupant (skipEmpty batch.removed last) = some reqId) :
    condenseLoop (fuel + 1) batch last =
      condenseLoop fuel (batch.moveRequest (skipEmpty batch.removed last) empty reqId)
        (skipEmpty batch.removed last - 1) := by
  have some_left : batch.batchUpdateBuilder.removed ≠ [] := by
    intro nothing
    rw [removed, nothing] at lowest
    cases lowest
  have chosen : batch.moveDown (skipEmpty batch.removed last) empty =
      .ok (batch.moveRequest (skipEmpty batch.removed last) empty reqId) := by
    rw [moveDown, occupant_eq_some.mp here]
  rw [removed] at *
  simp only [condenseLoop, lowest, if_neg some_left, if_neg (not_le.mpr lower), chosen]
  rfl

/-- The loop returns, and keeps what every move keeps. -/
theorem Condensing.loop {P : InputBatch → Prop}
    (move : ∀ {batch : InputBatch} {last empty : Nat} {reqId : String}, batch.Condensing last →
      batch.removed.getLast? = some empty → empty < last → batch.occupant last = some reqId → P
      batch → P (batch.moveRequest last empty reqId)) (condensing : batch.Condensing last)
    (enough : batch.removed.length ≤ fuel) (start : P batch) :
    ∃ packed, condenseLoop fuel batch last = .ok packed ∧ packed.Packed ∧ P packed := by
  induction fuel generalizing batch last with
  | zero =>
    have nothing : batch.removed = [] := length_eq_zero_iff.mp (Nat.le_zero.mp enough)
    exact ⟨batch, rfl, condensing.packed (by simp [nothing]), start⟩
  | succ fuel ih =>
    by_cases nothing : batch.removed = []
    · exact ⟨batch, condenseLoop_nil nothing, condensing.packed (by simp [nothing]), start⟩
    obtain ⟨skipped, solid⟩ := condensing.skipEmpty
    have lowest : batch.removed.getLast? = some (batch.removed.getLast nothing) :=
      getLast?_eq_some_getLast nothing
    generalize batch.removed.getLast nothing = empty at lowest
    by_cases done : InputBatch.skipEmpty batch.removed last ≤ empty
    · refine ⟨batch, condenseLoop_done lowest done, skipped.packed ?_, start⟩
      intro i hole
      obtain ⟨split, -⟩ := popRemoved_of_getLast condensing.flag lowest
      have sorted := condensing.sorted
      rw [split] at sorted
      have least : empty ≤ i := by
        rw [split] at hole
        rcases mem_append.mp hole with mem | last
        · exact ((pairwise_append.mp sorted).2.2 i mem empty (by simp)).le
        · exact (mem_singleton.mp last).ge
      refine lt_of_le_of_ne (done.trans least) ?_
      intro same
      exact solid (same ▸ hole)
    · have lower := not_le.mp done
      obtain ⟨reqId, here⟩ : ∃ reqId,
          batch.occupant (InputBatch.skipEmpty batch.removed last) = some reqId := by
        apply ne_none_iff_exists'.mp
        exact fun vacant => solid ((skipped.below _ le_rfl).mp vacant)
      obtain ⟨moved, split⟩ := skipped.moveRequest lowest lower here
      have shorter : (batch.moveRequest (InputBatch.skipEmpty batch.removed last) empty
          reqId).removed.length ≤ fuel := by
        have length := congrArg List.length split
        rw [length_append, length_singleton] at length
        omega
      rw [condenseLoop_move lowest lower here]
      exact ih moved shorter (move skipped lowest lower here start)

def trim (batch : InputBatch) : InputBatch :=
  { batch with
    reqIds := batch.reqIds.take batch.numReqs
    reqOutputTokenIds := batch.reqOutputTokenIds.take batch.numReqs
    specTokenIds := batch.specTokenIds.take batch.numReqs }

/-- The batch after `condense`. The pending removals are beyond the requests. -/
structure Dense (batch : InputBatch) : Prop where
  inverse : Inverse batch.reqIdToIndex.get? batch.occupant
  full : ∀ i, batch.occupant i = none ↔ batch.numReqs ≤ i
  beyond : ∀ i ∈ batch.removed, batch.numReqs ≤ i
  length : batch.reqIds.length = batch.numReqs

theorem Packed.occupant_trim (packed : batch.Packed) : batch.trim.occupant = batch.occupant := by
  funext i
  rw [occupant, trim, getElem?_take]
  split
  · rfl
  · rename_i beyond
    exact ((packed.full i).mpr (not_lt.mp beyond)).symm

theorem Packed.trim (packed : batch.Packed) : batch.trim.Dense := by
  have occ := packed.occupant_trim
  refine ⟨?_, ?_, packed.beyond, ?_⟩
  · rw [occ]
    exact packed.inverse
  · rw [occ]
    exact packed.full
  · exact length_take_of_le packed.room

/-- The removed indices are sorted before the holes are filled. -/
def sortRemoved (batch : InputBatch) : InputBatch :=
  { batch with batchUpdateBuilder := batch.batchUpdateBuilder.ensureRemovedSorted }

theorem mem_sortRemoved (batch : InputBatch) (i : Nat) :
    i ∈ batch.sortRemoved.removed ↔ i ∈ batch.removed :=
  (ensureRemovedSorted_perm _).mem_iff

theorem Open.packed_of_nothing_removed (opened : batch.Open) (nothing : batch.removed = []) :
    batch.Dense := by
  have length : batch.reqIds.length = batch.numReqs := by
    rw [← opened.counted, nothing]
    rfl
  refine ⟨opened.inverse, ?_, by simp [nothing], length⟩
  intro i
  by_cases inside : i < batch.reqIds.length
  · rw [opened.holes i inside, nothing]
    simp only [not_mem_nil, false_iff]
    omega
  · rw [occupant, getElem?_eq_none (by omega)]
    simp only [join_none, true_iff]
    omega

theorem Open.sortRemoved (opened : batch.Open) : batch.sortRemoved.Open := by
  have perm := ensureRemovedSorted_perm batch.batchUpdateBuilder
  refine ⟨opened.inverse, ?_, ?_, perm.nodup_iff.mpr opened.removed_nodup, ?_, ?_⟩
  · intro i inside
    rw [mem_sortRemoved]
    exact opened.holes i inside
  · intro i mem
    exact opened.removed_lt i ((mem_sortRemoved batch i).mp mem)
  · rw [show batch.sortRemoved.removed.length = batch.removed.length from perm.length_eq]
    exact opened.counted
  · intro _
    exact ensureRemovedSorted_sorted opened.removed_nodup opened.sorted

theorem Open.condensing (opened : batch.Open) (busy : 0 < batch.numReqs) :
    batch.sortRemoved.Condensing (batch.numReqs + batch.sortRemoved.removed.length - 1) := by
  have sorted := opened.sortRemoved
  have counted : batch.numReqs + batch.sortRemoved.removed.length = batch.reqIds.length :=
    sorted.counted
  have all : batch.sortRemoved.removed.countP
      (· ≤ batch.numReqs + batch.sortRemoved.removed.length - 1) =
        batch.sortRemoved.removed.length := by
    apply countP_eq_length.mpr
    intro i mem
    have inside : i < batch.reqIds.length := sorted.removed_lt i mem
    simp only [decide_eq_true_eq]
    omega
  refine ⟨sorted.inverse, ?_, ?_, ?_, ensureRemovedSorted_flag _, ?_, ?_, busy⟩
  · intro i le
    exact sorted.holes i (by change i < batch.reqIds.length; omega)
  · intro i gt
    change (batch.reqIds[i]?).join = none
    rw [getElem?_eq_none (by omega)]
    rfl
  · exact ensureRemovedSorted_sorted opened.removed_nodup opened.sorted
  · rw [all]
    change batch.numReqs + _ = _
    omega
  · change _ < batch.reqIds.length
    omega

/-- `condense` returns a batch without holes, and keeps what its parts keep. -/
theorem Open.condense {P : InputBatch → Prop} (opened : batch.Open) (start : P batch.sortRemoved)
    (move : ∀ {batch : InputBatch} {last empty : Nat} {reqId : String},
      batch.Condensing last → batch.removed.getLast? = some empty → empty < last →
      batch.occupant last = some reqId → P batch → P (batch.moveRequest last empty reqId))
    (cut : ∀ {batch : InputBatch}, batch.Packed → P batch → P batch.trim) :
    ∃ next, batch.condense = .ok next ∧ next.Dense ∧ P next := by
  have unchanged : ∀ {packed : InputBatch}, packed.numReqs = batch.numReqs →
      { packed with
        reqIds := packed.reqIds.take batch.numReqs
        reqOutputTokenIds := packed.reqOutputTokenIds.take batch.numReqs
        specTokenIds := packed.specTokenIds.take batch.numReqs } = packed.trim := by
    intro packed same
    rw [trim, same]
  by_cases nothing : batch.sortRemoved.removed = []
  · refine ⟨batch.sortRemoved, ?_, opened.sortRemoved.packed_of_nothing_removed nothing, start⟩
    exact if_pos (length_eq_zero_iff.mpr nothing)
  have some_left : batch.sortRemoved.removed.length ≠ 0 :=
    fun zero => nothing (length_eq_zero_iff.mp zero)
  by_cases idle : batch.numReqs = 0
  · have packed : batch.sortRemoved.Packed := by
      refine ⟨opened.inverse, ?_, fun i _ => by change batch.numReqs ≤ i; omega,
        by change batch.numReqs ≤ _; omega⟩
      intro i
      simp only [show batch.sortRemoved.numReqs = 0 from idle, Nat.zero_le, iff_true]
      cases here : batch.sortRemoved.occupant i with
      | none => rfl
      | some reqId =>
        have known := (opened.inverse reqId i).mpr here
        rw [Dict.get?_eq_some] at known
        rw [numReqs, Dict.size, length_eq_zero_iff] at idle
        rw [idle] at known
        cases known
    refine ⟨batch.sortRemoved.trim, ?_, packed.trim, cut packed start⟩
    have ran : batch.condense = .ok { batch.sortRemoved with
        reqIds := [], reqOutputTokenIds := [], specTokenIds := [] } :=
      (if_neg some_left).trans (if_pos idle)
    rw [ran, trim, show batch.sortRemoved.numReqs = 0 from idle]
    rfl
  · obtain ⟨packed, ran, shape, kept, same⟩ :=
      (opened.condensing (Nat.pos_of_ne_zero idle)).loop
        (P := fun now => P now ∧ now.numReqs = batch.numReqs)
        (fun condensing lowest lower here kept =>
          ⟨move condensing lowest lower here kept.1, by
            rw [numReqs, (moveRequest_layout _ _ _ _).2.1, Dict.size_set,
              (condensing.inverse _ _).mpr here]
            exact kept.2⟩)
        le_rfl ⟨start, rfl⟩
    refine ⟨packed.trim, ?_, shape.trim, cut shape kept⟩
    have ends : batch.condense = (condenseLoop batch.sortRemoved.removed.length batch.sortRemoved
        (batch.numReqs + batch.sortRemoved.removed.length - 1) >>= fun packed => .ok { packed with
          reqIds := packed.reqIds.take batch.numReqs
          reqOutputTokenIds := packed.reqOutputTokenIds.take batch.numReqs
          specTokenIds := packed.specTokenIds.take batch.numReqs }) :=
      (if_neg some_left).trans (if_neg idle)
    rw [ends, ran, ok_bind, unchanged same]

end Condense

theorem swapStates_ok (ran : batch.swapStates i j = .ok next) :
    ∃ first second indexFirst indexSecond,
      batch.occupant i = some first ∧ batch.occupant j = some second ∧
      batch.reqIdToIndex.get? first = some indexFirst ∧
      batch.reqIdToIndex.get? second = some indexSecond ∧ next = if batch.isPoolingModel then
          batch.swapShared i j first second indexFirst indexSecond
        else (batch.swapShared i j first second indexFirst indexSecond).swapSampling i j := by
  rw [swapStates] at ran
  split at ran
  · rename_i first second here there
    split at ran
    · rename_i indexFirst indexSecond known other
      cases ran
      exact ⟨first, second, indexFirst, indexSecond, occupant_eq_some.mpr here,
        occupant_eq_some.mpr there, known, other, rfl⟩
    · cases ran
  · cases ran
  · cases ran

theorem swapStates_layout (ran : batch.swapStates i j = .ok next) :
    ∃ first second indexFirst indexSecond,
      batch.occupant i = some first ∧ batch.occupant j = some second ∧
      batch.reqIdToIndex.get? first = some indexFirst ∧
      batch.reqIdToIndex.get? second = some indexSecond ∧ next.reqIds = swapItems batch.reqIds i j ∧
      next.reqIdToIndex = (batch.reqIdToIndex.set first indexSecond).set second indexFirst ∧
      next.removed = batch.removed := by
  obtain ⟨first, second, indexFirst, indexSecond, here, there, known, other, rfl⟩ :=
    swapStates_ok ran
  refine ⟨first, second, indexFirst, indexSecond, here, there, known, other, ?_⟩
  split <;> exact ⟨rfl, rfl, rfl⟩

theorem getElem?_swapItems (first : i < list.length) (second : j < list.length) (k : Nat) :
    (swapItems list i j)[k]? = exchange (fun k => list[k]?) i j k := by
  rw [exchange_apply, swapItems, getElem?_eq_getElem first, getElem?_eq_getElem second]
  rw [getElem?_set, getElem?_set, length_set]
  by_cases last : k = j
  · rw [last, if_pos rfl, if_pos second]
    by_cases same : j = i
    · subst same
      rw [if_pos rfl]
    · rw [if_neg same, if_pos rfl]
  · rw [if_neg (Ne.symm last), if_neg last]
    by_cases start : k = i
    · rw [start, if_pos rfl, if_pos rfl, if_pos first]
    · rw [if_neg start, if_neg (Ne.symm start)]

theorem occupant_swapStates (ran : batch.swapStates i j = .ok next) :
    next.occupant = exchange batch.occupant i j := by
  obtain ⟨_, _, -, -, here, there, -, -, ids, -, -⟩ := swapStates_layout ran
  funext k
  rw [occupant, ids, getElem?_swapItems (lt_of_occupant here) (lt_of_occupant there),
    exchange_apply, exchange_apply]
  split_ifs <;> rfl

theorem Dense.swapStates (dense : batch.Dense) (ran : batch.swapStates i j = .ok next) :
    next.Dense ∧ next.numReqs = batch.numReqs := by
  have occ := occupant_swapStates ran
  obtain ⟨first, second, indexFirst, indexSecond, here, there, known, other, ids, map, listed⟩ :=
    swapStates_layout ran
  have left : indexFirst = i :=
    some.inj (known.symm.trans ((dense.inverse first i).mpr here))
  have right : indexSecond = j :=
    some.inj (other.symm.trans ((dense.inverse second j).mpr there))
  subst left right
  have size : next.numReqs = batch.numReqs := by
    have again : ((batch.reqIdToIndex.set first indexSecond).get? second).isSome := by
      rw [Dict.get?_set, other]
      split <;> rfl
    rw [numReqs, map, Dict.size_set, if_pos again, Dict.size_set, known]
    rfl
  have lengths : next.reqIds.length = batch.reqIds.length := by
    rw [ids, swapItems]
    split
    · rw [length_set, length_set]
    · rfl
  refine ⟨⟨?_, ?_, ?_, ?_⟩, size⟩
  · have find : next.reqIdToIndex.get? = fun other =>
        if other = second then some indexFirst
        else if other = first then some indexSecond else batch.reqIdToIndex.get? other := by
      funext other
      rw [map, Dict.get?_set, Dict.get?_set]
    rw [find, occ]
    exact dense.inverse.exchange here there
  · intro k
    rw [size, occ, exchange_apply]
    have inFirst : indexFirst < batch.numReqs := by
      rw [← dense.length]
      exact lt_of_occupant here
    have inSecond : indexSecond < batch.numReqs := by
      rw [← dense.length]
      exact lt_of_occupant there
    split
    · rename_i target
      rw [there, target]
      simpa using inFirst
    · split
      · rename_i final
        rw [here, final]
        simpa using inSecond
      · exact dense.full k
  · rw [listed, size]
    exact dense.beyond
  · rw [lengths, size]
    exact dense.length

theorem refreshMetadata_layout (batch : InputBatch) :
    batch.refreshMetadata.2 = { batch with batchUpdateBuilder := {} } := by
  rw [refreshMetadata]
  split
  · rfl
  · rw [getAndReset]
    split
    · rename_i nothing
      obtain ⟨removed, moved, added⟩ := nothing
      simp only [removed, moved, added]
    · rfl

/-- The batch is closed again after the pending update was taken. -/
theorem Dense.refreshMetadata (dense : batch.Dense) : batch.refreshMetadata.2.Closed := by
  rw [refreshMetadata_layout]
  refine ⟨⟨dense.inverse, ?_, ?_, nodup_nil, dense.length.symm, ?_⟩, rfl⟩
  · intro i inside
    have solid : batch.occupant i ≠ none := by
      rw [ne_eq, dense.full, ← dense.length]
      exact not_le.mpr inside
    exact iff_of_false solid (by simp [removed])
  · intro i mem
    simp [removed] at mem
  · intro flag
    cases flag

end InputBatch
end Vllm.Worker
