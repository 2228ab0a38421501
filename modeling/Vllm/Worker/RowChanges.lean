import Vllm.Worker.RowOps

/-! Requests that leave and enter the batch, with everything that belongs to them. -/
namespace Vllm.Worker
open List hiding next
open Relocate Function Dict Option Finset InputBatch CachedRequestState

section ById
variable {find : String → Option CachedRequestState} {reqId : String}
  {req : CachedRequestState}

section Members
variable {test : SamplingParams → Bool} {set : Finset String} (members : Members find test set)
include members

/-- Only the membership of the request whose entry changes is affected. -/
theorem Members.change
    (mine : reqId ∈ set' ↔ ∃ params, entry.bind samplingParams = some params ∧
      test params = true) (others : ∀ other ≠ reqId, other ∈ set' ↔ other ∈ set) :
    Members (update find reqId entry) test set' := by
  intro other
  rw [update_apply]
  by_cases same : other = reqId
  · rw [same, mine]
    cases entry <;> simp
  · rw [if_neg same, others other same, members other]

theorem Members.erase : Members (update find reqId none) test (set.erase reqId) :=
  members.change (by simp) (fun other ne => by simp [ne])

theorem Members.absent
    (nothing : (find reqId).bind samplingParams = none) : reqId ∉ set := by
  rw [members reqId]
  rintro ⟨_, _, found, given, -⟩
  rw [found, bind_some, given] at nothing
  cases nothing

/-- A request without sampling parameters is in none of the sets. -/
theorem Members.forget (found : find reqId = some req)
    (pooling : req.samplingParams = none) : Members (update find reqId none) test set :=
  members.change (by simpa using members.absent (by simp [found, pooling])) (fun _ _ => .rfl)

theorem Members.ignore (fresh : find reqId = none)
    (pooling : req.samplingParams = none) : Members (update find reqId (some req)) test set :=
  members.change (by simpa [pooling] using members.absent (by simp [fresh])) (fun _ _ => .rfl)

theorem Members.insert (fresh : find reqId = none) (given : req.samplingParams = some params) :
    Members (update find reqId (some req)) test
      (insertIf (test params) reqId set) := by
  have absent : reqId ∉ set := members.absent (by simp [fresh])
  rw [insertIf]
  refine members.change ?_ ?_
  · cases passed : test params <;> simp [given, passed, absent]
  · intro _ ne
    split <;> simp [ne]

end Members

section Entries
variable {α : Type} {value : CachedRequestState → Option α} {dict : Dict String α}
  (entries : Entries find value dict)
include entries

/-- Only the entry of one request changes. -/
theorem Entries.change
    (mine : dict'.get? reqId = entry.bind value)
    (others : ∀ other ≠ reqId, dict'.get? other = dict.get? other) :
    Entries (update find reqId entry) value dict' := by
  intro other
  rw [update_apply]
  by_cases same : other = reqId
  · rw [if_pos same, same, mine]
  · rw [if_neg same, others other same, entries other]

theorem Entries.erase : Entries (update find reqId none) value (dict.erase reqId) :=
  entries.change (by simp) (fun other ne => by simp [get?_erase, ne])

/-- An entry that nothing calls for need not be removed. -/
theorem Entries.forget (nothing : (find reqId).bind value = none) :
    Entries (update find reqId none) value dict :=
  entries.change ((entries reqId).trans nothing) (fun _ _ => rfl)

theorem Entries.set (given : value req = some v) :
    Entries (update find reqId (some req)) value (dict.set reqId v) :=
  entries.change (by simp [given]) (fun other ne => by simp [get?_set, ne])

theorem Entries.ignore (fresh : find reqId = none)
    (nothing : value req = none) : Entries (update find reqId (some req)) value dict :=
  entries.change (by simp [entries reqId, fresh, nothing]) (fun _ _ => rfl)

end Entries

section Uses
variable {loraId : Nat} {other : String}

theorem uses_none :
    Uses (update find reqId none) loraId other ↔ other ≠ reqId ∧ Uses find loraId other := by
  rw [Uses, Uses]
  by_cases same : other = reqId <;> simp [same]

theorem uses_some (fresh : find reqId = none) :
    Uses (update find reqId (some req)) loraId other ↔
      other = reqId ∧ req.loraRequest.map LoRARequest.loraIntId = some loraId ∨
        Uses find loraId other := by
  rw [Uses, Uses]
  by_cases same : other = reqId
  · simp [same, fresh]
  · simp [same]

theorem uses_of_found (found : find reqId = some req) :
    Uses find loraId reqId ↔ req.loraRequest.map LoRARequest.loraIntId = some loraId := by
  simp [Uses, found]

end Uses
variable {loras : Dict Nat LoRARequest} {batch : InputBatch}

def InputBatch.usersOf (batch : InputBatch) (loraId : Nat) : Finset String :=
  (batch.loraIdToRequestIds.get? loraId).getD ∅

theorem OwnedLoras.mem_usersOf (owned : OwnedLoras find loras batch) (loraId : Nat)
    (other : String) : other ∈ batch.usersOf loraId ↔ Uses find loraId other := by
  rw [usersOf]
  cases loc : batch.loraIdToRequestIds.get? loraId with
  | none =>
    simp only [getD_none, notMem_empty, false_iff]
    exact owned.unused loraId other loc
  | some reqIds => exact (owned.users loraId reqIds loc).2 other

theorem OwnedLoras.of_usersOf
    (users : ∀ loraId other, other ∈ batch.usersOf loraId ↔ Uses find loraId other)
    (nonempty : ∀ loraId reqIds, batch.loraIdToRequestIds.get? loraId = some reqIds →
      reqIds.Nonempty) (requests : ∀ loraId, batch.loraIdToLoraRequest.get? loraId =
      (batch.loraIdToRequestIds.get? loraId).bind (fun _ => loras.get? loraId)) :
    OwnedLoras find loras batch := by
  refine ⟨?_, ?_, requests⟩
  · intro loraId reqIds loc
    refine ⟨nonempty loraId reqIds loc, fun other => ?_⟩
    rw [← users loraId other, usersOf, loc]
    rfl
  · intro loraId other loc
    rw [← users loraId other, usersOf, loc]
    exact notMem_empty other

end ById

namespace InputBatch
variable {batch next : InputBatch} {ledger : Ledger} {reqId : String} {index : Nat}

/-- The batch without the request, before its adapter and its parameters are dropped. -/
def vacated (batch : InputBatch) (reqId : String) (index : Nat) (builder : BatchUpdateBuilder) :
    InputBatch :=
  { batch with
    reqIdToIndex := batch.reqIdToIndex.erase reqId
    batchUpdateBuilder := builder
    reqIds := batch.reqIds.set index none
    reqOutputTokenIds := batch.reqOutputTokenIds.set index none
    specTokenIds := batch.specTokenIds.set index [] }

theorem removeRequest_ok (ran : batch.removeRequest reqId = .ok next) :
    batch.reqIdToIndex.get? reqId = none ∧ next = batch ∨
    ∃ index builder afterLora, batch.reqIdToIndex.get? reqId = some index ∧
      (batch.vacated reqId index builder).removeLora reqId index = .ok afterLora ∧
      next = afterLora.removeParams reqId index := by
  rw [removeRequest] at ran
  split at ran
  · rename_i unknown
    cases ran
    exact .inl ⟨unknown, rfl⟩
  · rename_i index found
    obtain ⟨builder, -, ran⟩ := Py.bind_ok ran
    obtain ⟨afterLora, unloaded, ran⟩ := Py.bind_ok ran
    cases ran
    exact .inr ⟨index, builder, afterLora, found, unloaded, rfl⟩

/-- What dropping the adapter leaves alone: everything but the maps and the number at the
index. -/
theorem removeLora_ok {after : InputBatch} (ran : batch.removeLora reqId index = .ok after) :
    ∃ users requests mapping, after = { batch with
        loraIdToRequestIds := users
        loraIdToLoraRequest := requests
        requestLoraMapping := mapping } ∧
      ∀ i ≠ index, mapping i = batch.requestLoraMapping i := by
  rw [removeLora] at ran
  split at ran
  · cases ran
    exact ⟨_, _, _, rfl, fun _ _ => rfl⟩
  · split at ran
    · cases ran
    · cases ran
      exact ⟨_, _, _, rfl, fun _ other => update_of_ne other ..⟩

theorem OwnedLoras.remove {after : InputBatch} (owned : OwnedLoras find loras batch)
    (found : find reqId = some req)
    (pos : ∀ lora ∈ req.loraRequest, 0 < lora.loraIntId)
    (mapped : batch.requestLoraMapping index = req.loraId)
    (ran : batch.removeLora reqId index = .ok after) :
    OwnedLoras (update find reqId none) loras after := by
  have mine (loraId : Nat) : reqId ∈ batch.usersOf loraId ↔
      req.loraRequest.map LoRARequest.loraIntId = some loraId :=
    (owned.mem_usersOf loraId reqId).trans (uses_of_found found)
  -- The request leaves every set of users: it is only in that of its adapter.
  have of_erased (left : ∀ loraId, after.usersOf loraId = (batch.usersOf loraId).erase reqId)
      (loraId : Nat) (other : String) :
      other ∈ after.usersOf loraId ↔ Uses (update find reqId none) loraId other := by
    rw [left, mem_erase, owned.mem_usersOf, uses_none]
  rw [removeLora, mapped] at ran
  cases adapter : req.loraRequest with
  | none =>
    rw [if_pos (by rw [loraId, adapter])] at ran
    cases ran
    refine .of_usersOf (of_erased ?_) (fun loraId reqIds loc =>
      (owned.users loraId reqIds loc).1) owned.requests
    intro loraId
    rw [erase_eq_of_notMem]
    rw [mine, adapter]
    simp
  | some lora =>
    have number : req.loraId = lora.loraIntId := by rw [loraId, adapter]
    have nonzero : lora.loraIntId ≠ 0 := (pos lora adapter).ne'
    rw [number, if_neg nonzero] at ran
    split at ran
    · cases ran
    rename_i reqIds loc
    have others (loraId : Nat) (ne : loraId ≠ lora.loraIntId) :
        (batch.usersOf loraId).erase reqId = batch.usersOf loraId := by
      rw [erase_eq_of_notMem]
      rw [mine, adapter, map_some, some_inj]
      exact symm ne
    have own : batch.usersOf lora.loraIntId = reqIds := by
      rw [usersOf, loc]
      rfl
    cases ran
    have usersLeft (loraId : Nat) : (if reqIds.erase reqId = ∅
        then batch.loraIdToRequestIds.erase lora.loraIntId
        else batch.loraIdToRequestIds.set lora.loraIntId (reqIds.erase reqId)).get? loraId =
        if loraId = lora.loraIntId then if reqIds.erase reqId = ∅ then none
          else some (reqIds.erase reqId) else batch.loraIdToRequestIds.get? loraId := by
      split <;> simp [get?_erase, get?_set]
    refine .of_usersOf (of_erased ?_) ?_ ?_
    · intro loraId
      rw [usersOf, usersLeft]
      split
      · rename_i same
        rw [same, own]
        split
        · rename_i last
          rw [last]
          rfl
        · rfl
      · rename_i ne
        exact (others loraId ne).symm
    · intro loraId left place
      rw [usersLeft] at place
      split_ifs at place with same last
      · cases place
        exact nonempty_iff_ne_empty.mpr last
      · exact (owned.users loraId left place).1
    · intro loraId
      have before := owned.requests loraId
      by_cases same : loraId = lora.loraIntId
      · subst same
        rw [loc] at before
        split <;> simp [before]
      · split <;> simp [before, same, get?_erase]

theorem OwnedById.remove {after : InputBatch} (byId : OwnedById find batch)
    (found : find reqId = some req) (suits : Suits batch.isPoolingModel req)
    (same : ∃ map builder ids outputs specs users requests mapping, after = { batch with
        reqIdToIndex := map
        batchUpdateBuilder := builder
        reqIds := ids
        reqOutputTokenIds := outputs
        specTokenIds := specs
        loraIdToRequestIds := users
        loraIdToLoraRequest := requests
        requestLoraMapping := mapping }) :
    OwnedById (update find reqId none) (after.removeParams reqId index) := by
  obtain ⟨map, builder, ids, outputs, specs, users, requests, mapping, rfl⟩ := same
  rw [removeParams]
  cases pooling : batch.isPoolingModel with
  | false =>
    exact ⟨byId.greedy.erase, byId.random.erase, byId.topP.erase, byId.topK.erase,
      byId.frequency.erase, byId.presence.erase, byId.repetition.erase, byId.allowed.erase,
      byId.logprobs.erase, fun isPooling => (by cases isPooling),
      fun isPooling => (by cases isPooling)⟩
  | true =>
    have none_given : req.samplingParams = none := by
      rw [pooling] at suits
      exact suits.1.1
    refine ⟨byId.greedy.forget found none_given, byId.random.forget found none_given,
      byId.topP.forget found none_given, byId.topK.forget found none_given,
      byId.frequency.forget found none_given, byId.presence.forget found none_given,
      byId.repetition.forget found none_given, byId.allowed.forget found none_given,
      byId.logprobs.forget ?_, fun _ => (byId.poolingParams pooling).erase,
      fun _ => (byId.poolingStates pooling).erase⟩
    rw [found, bind_some, none_given]
    rfl

theorem request_ledger_remove (ledger : Ledger) (reqId : String) :
    (ledger.remove reqId).request = update ledger.request reqId none := by
  funext other
  simp only [Ledger.request, Ledger.remove, get?_erase, update_apply]
  split <;> rfl

theorem getD_set_other {α : Type} (list : List (List α)) (value : List α) (other : i ≠ index) :
    (list.set index value).getD i [] = list.getD i [] := by
  rw [getD_eq_getElem?_getD, getElem?_set_ne (symm other), getD_eq_getElem?_getD]

theorem removeParams_same (batch : InputBatch) (reqId : String) (index : Nat) :
    (batch.removeParams reqId index).vocabSize = batch.vocabSize ∧
      (batch.removeParams reqId index).reqOutputTokenIds = batch.reqOutputTokenIds ∧
      (batch.removeParams reqId index).specTokenIds = batch.specTokenIds ∧
      (batch.removeParams reqId index).loraIdToRequestIds = batch.loraIdToRequestIds ∧
      (batch.removeParams reqId index).loraIdToLoraRequest = batch.loraIdToLoraRequest ∧
      (batch.removeParams reqId index).blockTable = batch.blockTable := by
  rw [removeParams]
  split <;> exact ⟨rfl, rfl, rfl, rfl, rfl, rfl⟩

theorem shared_removeParams (batch : InputBatch) (reqId : String) (index : Nat) :
    (batch.removeParams reqId index).shared = batch.shared := by
  rw [removeParams]
  split <;> rfl

theorem sampling_removeParams_other (other : i ≠ index) :
    (batch.removeParams reqId index).sampling i = batch.sampling i := by
  rw [removeParams]
  split
  · rfl
  · simp [sampling, if_neg other]

theorem sampling_removeParams (gen : batch.isPoolingModel = false) :
    ((batch.removeParams reqId index).sampling index).generator = none ∧
      ((batch.removeParams reqId index).sampling index).badWords = none := by
  rw [removeParams, if_neg (by simp [gen])]
  simp [sampling]

theorem maskRow_removeParams_other (other : i ≠ index) :
    (batch.removeParams reqId index).maskRow i = batch.maskRow i := by
  rw [removeParams]
  split
  · rfl
  · simp only [maskRow]
    cases batch.allowedTokenIdsMask with
    | none => rfl
    | some mask => exact update_of_ne other ..

theorem Carried.removeRequest (inverse : Inverse batch.reqIdToIndex.get? batch.occupant)
    (carried : Carried batch ledger) (ran : batch.removeRequest reqId = .ok next) :
    Carried next (ledger.remove reqId) := by
  rcases removeRequest_ok ran with ⟨unknown, rfl⟩ | ⟨index, builder, _, loc, dropped, rfl⟩
  · have absent : ledger.rows.contains reqId = false := by
      have known := carried.known reqId
      rw [unknown, Ledger.request, isSome_map] at known
      exact known.symm
    have same : ledger.remove reqId = ledger := by
      rw [Ledger.remove, erase_of_absent absent]
    rw [same]
    exact carried
  have here := (inverse reqId index).mp loc
  have inside := lt_of_occupant here
  have insideSpec := inside.trans_le carried.specs
  obtain ⟨row, found, requested⟩ := carried.found loc
  have suits := carried.suits reqId row.request requested
  have holds := (carried.shared index).2 reqId row here found
  have before : OwnedLoras ledger.request ledger.loras (batch.vacated reqId index builder) :=
    carried.loras.congr rfl rfl
  have loras := OwnedLoras.remove before requested suits.2 holds.lora dropped
  obtain ⟨users, requests, _, rfl, others⟩ := removeLora_ok dropped
  have rows : (ledger.remove reqId).rows.get? = update ledger.rows.get? reqId none :=
    get?_erase_eq_update ..
  rcases removeRequest_layout ran with ⟨unknown, -⟩ | ⟨_, again, -, ids, map, -, kind⟩
  · rw [loc] at unknown
    cases unknown
  rw [loc] at again
  cases again
  have occ := funext (occupant_set inside ids)
  constructor
  · rw [ratios, (removeParams_same _ _ _).2.2.2.2.2]
    exact carried.ratios
  · intro other
    rw [map, request_ledger_remove, get?_erase, update_apply]
    split
    · rfl
    · exact carried.known other
  · intro other req given
    rw [request_ledger_remove, update_apply] at given
    rw [kind]
    split at given
    · cases given
    · exact carried.suits other req given
  · rw [ids, length_set, ← carried.outputs]
    rw [(removeParams_same _ _ _).2.1]
    exact length_set
  · rw [ids, length_set, (removeParams_same _ _ _).2.2.1]
    exact carried.specs.trans_eq length_set.symm
  · rw [OwnedShared, rows, show occupant _ = _ from occ, shared_removeParams]
    refine carried.shared.vacate ?_ ?_
    · intro i other
      simp only [shared, vacated, others i other,
        getElem?_set_ne (symm other), getD_set_other _ _ other]
    · simp only [shared, vacated]
      rw [getD_set _ _ insideSpec, if_pos rfl]
  · intro gen
    rw [kind] at gen
    rw [OwnedSampling, rows, show occupant _ = _ from occ, (removeParams_same _ _ _).1]
    refine (carried.sampling gen).vacate ?_ (sampling_removeParams gen)
    intro i other
    rw [sampling_removeParams_other other]
    rfl
  · intro pooling i
    rw [kind] at pooling
    have kept := carried.idle pooling i
    rw [removeParams, if_pos (show (batch.vacated reqId index builder).isPoolingModel = true
      from pooling)]
    exact kept
  · intro gen
    rw [kind] at gen
    rw [OwnedMask, rows, show occupant _ = _ from occ, (removeParams_same _ _ _).1]
    refine (carried.mask gen).vacate ?_ trivial
    intro i other
    rw [maskRow_removeParams_other other]
    rfl
  · intro pooling
    rw [kind] at pooling
    rw [OwnedNeeds, rows, show occupant _ = _ from occ]
    refine (carried.needs pooling).vacate ?_ trivial
    intro i _
    rw [removeParams, if_pos (show (batch.vacated reqId index builder).isPoolingModel = true
      from pooling)]
    rfl
  · rw [request_ledger_remove]
    exact OwnedById.remove carried.byId requested suits ⟨_, _, _, _, _, _, _, _, rfl⟩
  · rw [request_ledger_remove]
    obtain ⟨-, -, -, users, requests, -⟩ := removeParams_same _ reqId index
    exact loras.congr users requests

variable {req : CachedRequestState}

theorem length_ok (h : lengthFromPromptTokenIdsOrEmbeds req.promptTokenIds
    req.promptEmbeds = .ok n) :
    n = req.promptLength ∧ ∀ ids, req.promptTokenIds = some ids → ids.length = n := by
  rw [lengthFromPromptTokenIdsOrEmbeds.eq_def] at h
  rw [promptLength]
  split at h
  · cases h
  · rename_i embeds noIds given
    cases h
    rw [noIds, given]
    exact ⟨rfl, fun _ absurd => by cases absurd⟩
  · rename_i ids given noEmbeds
    cases h
    rw [given]
    exact ⟨rfl, fun _ same => by cases same; rfl⟩
  · rename_i ids embeds given _
    split at h
    · cases h
    · cases h
      rw [given]
      exact ⟨rfl, fun _ same => by cases same; rfl⟩

theorem writePoolingParams_ok {after : InputBatch}
    (h : batch.writePoolingParams req index params = .ok after) :
    ∃ states, req.poolingStates = some states ∧ after = { batch with
      poolingParams := batch.poolingParams.set req.reqId params
      poolingStates := batch.poolingStates.set req.reqId states
      logitsProcessingNeedsTokenIds :=
        update batch.logitsProcessingNeedsTokenIds index params.requiresTokenIds } := by
  rw [writePoolingParams] at h
  split at h
  · cases h
  · rename_i states present
    cases h
    exact ⟨states, present, rfl⟩

/-- What the parameters and the adapter of a request leave alone. -/
theorem shared_writeParams (h : batch.writeParams req index = .ok withParams) :
    withParams.shared = batch.shared ∧ withParams.vocabSize = batch.vocabSize ∧
      withParams.reqOutputTokenIds = batch.reqOutputTokenIds ∧
      withParams.specTokenIds = batch.specTokenIds ∧ withParams.blockTable = batch.blockTable ∧
      withParams.loraIdToRequestIds = batch.loraIdToRequestIds ∧
      withParams.loraIdToLoraRequest = batch.loraIdToLoraRequest := by
  rw [writeParams] at h
  split at h
  · cases h
    exact ⟨rfl, rfl, rfl, rfl, rfl, rfl, rfl⟩
  · obtain ⟨_, -, rfl⟩ := writePoolingParams_ok h
    exact ⟨rfl, rfl, rfl, rfl, rfl, rfl, rfl⟩
  · cases h

section
variable (batch : InputBatch) (req : CachedRequestState) (n index i : Nat)

theorem writeLora_eq :
    ∃ users requests mapping accepted, batch.writeLora req index = { batch with
      loraIdToRequestIds := users
      loraIdToLoraRequest := requests
      requestLoraMapping := mapping
      numAcceptedTokensCpu := accepted } := by
  rw [writeLora]
  split <;> exact ⟨_, _, _, _, rfl⟩

theorem shared_writeLora : (batch.writeLora req index).shared i =
      if i = index then { batch.shared i with loraId := req.loraId } else batch.shared i := by
  rw [writeLora, loraId]
  cases req.loraRequest with
  | none =>
    simp only [shared, update_apply]
    split <;> rfl
  | some lora =>
    simp only [shared, update_apply]
    split <;> rfl

theorem getD_append_nil {α : Type} (list : List (List α)) (i : Nat) :
    (list ++ [[]]).getD i [] = list.getD i [] := by
  rw [getD_eq_getElem?_getD, getD_eq_getElem?_getD, getElem?_append]
  split
  · rfl
  · rename_i beyond
    rw [getElem?_eq_none (not_lt.mp beyond)]
    cases i - list.length <;> rfl

/-- An element of a list that is written or appended at an index. -/
theorem join_place {α : Type} {list : List (Option α)} {index length : Nat} (value : α)
    (same : list.length = length) (inside : index ≤ length) (i : Nat) :
    ((if index = length then list ++ [some value] else list.set index (some value))[i]?).join =
      if i = index then some value else (list[i]?).join := by
  subst same
  split
  · rename_i last
    subst last
    by_cases here : i = list.length
    · simp [here]
    · rw [getElem?_append]
      split
      · rfl
      · rw [getElem?_eq_none (by rw [length_singleton]; omega), getElem?_eq_none (by omega)]
  · rename_i notLast
    rw [getElem?_set]
    by_cases here : i = index
    · rw [if_pos here.symm, if_pos (lt_of_le_of_ne inside notLast), if_pos here]
      rfl
    · rw [if_neg (Ne.symm here), if_neg here]

theorem placeRequest_eq : batch.placeRequest req index = { batch with
      reqIdToIndex := batch.reqIdToIndex.set req.reqId index
      reqIds := if index = batch.reqIds.length then batch.reqIds ++ [some req.reqId]
        else batch.reqIds.set index (some req.reqId)
      reqOutputTokenIds := if index = batch.reqIds.length then
          batch.reqOutputTokenIds ++ [some req.outputRef]
        else batch.reqOutputTokenIds.set index (some req.outputRef)
      specTokenIds := if index = batch.reqIds.length then batch.specTokenIds ++ [[]]
        else batch.specTokenIds.set index [] } := by
  rw [placeRequest]
  split <;> rfl

theorem placed_spec (vacant : batch.specTokenIds.getD batch.newIndex [] = []) :
    (batch.placed req n).specTokenIds.getD i [] = batch.specTokenIds.getD i [] := by
  simp only [placed, writeTokens, placeRequest_eq]
  split
  · exact getD_append_nil _ i
  · by_cases here : i = batch.newIndex
    · rw [here, vacant]
      by_cases inside : batch.newIndex < batch.specTokenIds.length
      · rw [getD_set _ _ inside, if_pos rfl]
      · rw [getD_eq_getElem?_getD, getElem?_eq_none (by simpa using inside)]
        rfl
    · exact getD_set_other _ _ here

end

theorem shared_placed_other (outputs : batch.reqOutputTokenIds.length = batch.reqIds.length)
    (inside : batch.newIndex ≤ batch.reqIds.length)
    (vacant : batch.specTokenIds.getD batch.newIndex [] = []) (other : i ≠ batch.newIndex) :
    (batch.placed req n).shared i = batch.shared i := by
  have blocks : (batch.blockTable.mapIdx fun group table =>
      table.addRow (req.blockIds.getD group []) batch.newIndex).map (·.row i) =
        batch.blockTable.map (·.row i) := by
    refine map_mapIdx_same ?_ _
    exact fun _ _ => row_addRow_other other
  simp only [shared, placed_spec batch req n i vacant]
  simp only [placed, writeTokens, placeRequest_eq, update_of_ne other, blocks,
    join_place _ outputs inside, if_neg other]
  cases req.promptEmbeds with
  | none => rfl
  | some embeds => simp [if_neg other]

/-- The row of a request that was just added. -/
theorem shared_placed (length : lengthFromPromptTokenIdsOrEmbeds req.promptTokenIds
      req.promptEmbeds = .ok n) (outputs : batch.reqOutputTokenIds.length = batch.reqIds.length)
    (inside : batch.newIndex ≤ batch.reqIds.length)
    (vacant : batch.specTokenIds.getD batch.newIndex [] = []) :
    SharedRow.Holds { (batch.placed req n).shared batch.newIndex with loraId := req.loraId }
      (Row.ofRequest batch.ratios req) := by
  obtain ⟨promptIs, idsLength⟩ := length_ok length
  refine ⟨?_, ?_, ?_, ?_, ?_, rfl, ?_, ?_, ?_, ?_⟩
  · simp only [shared, placed, writeTokens, placeRequest_eq, update_self, Row.ofRequest]
    cases given : req.promptTokenIds with
    | none =>
      rw [← promptIs]
      exact (Knows.unknown n _).append req.outputTokenIds
    | some ids =>
      have written := Knows.written ids (batch.tokenIdsCpu batch.newIndex)
      rw [idsLength ids given] at written
      exact written.append req.outputTokenIds
  · simp only [shared, placed, writeTokens, placeRequest_eq, update_self, Row.ofRequest]
    have written := Knows.written (replicate n req.promptTokenIds.isSome)
      (batch.isTokenIds batch.newIndex)
    rw [map_replicate, length_replicate] at written
    have appended := written.append (replicate req.outputTokenIds.length true)
    rw [map_replicate, length_replicate] at appended
    rw [← promptIs]
    exact appended
  · simp only [shared, placed, writeTokens, update_self]
    exact promptIs
  · simp only [shared, placed, writeTokens, update_self, Row.ofRequest]
  · simp only [placed, placeRequest_eq]
    refine map_mapIdx ?_ _
    exact fun _ table => row_addRow table _ _
  · simp only [shared, placed, writeTokens, placeRequest_eq, Row.ofRequest]
    rw [join_place _ outputs inside, if_pos rfl]
  · simp only [shared, Row.ofRequest]
    rw [placed_spec batch req n _ vacant, vacant]
  · intro _ p _ found
    simp [Row.ofRequest] at found
  · intro given present
    simp only [shared, placed, writeTokens]
    rw [show req.promptEmbeds = some given from present]
    simp

/-- Placing a request touches nothing that depends on its parameters or its adapter. -/
theorem placed_same (batch : InputBatch) (req : CachedRequestState) (n : Nat) :
    (batch.placed req n).sampling = batch.sampling ∧
      (batch.placed req n).maskRow = batch.maskRow ∧
      (batch.placed req n).vocabSize = batch.vocabSize ∧
      (batch.placed req n).isPoolingModel = batch.isPoolingModel ∧
      (batch.placed req n).logitsProcessingNeedsTokenIds = batch.logitsProcessingNeedsTokenIds ∧
      (batch.placed req n).loraIdToRequestIds = batch.loraIdToRequestIds ∧
      (batch.placed req n).loraIdToLoraRequest = batch.loraIdToLoraRequest := by
  simp only [placed, placeRequest]
  split <;> exact ⟨rfl, rfl, rfl, rfl, rfl, rfl, rfl⟩

theorem OwnedById.placed (n : Nat) (byId : OwnedById find batch) :
    OwnedById find (batch.placed req n) := by
  simp only [InputBatch.placed, placeRequest]
  split <;> exact byId.congr rfl

theorem OwnedById.writeSamplingParams (index : Nat) (byId : OwnedById find batch)
    (fresh : find req.reqId = none) (gen : batch.isPoolingModel = false)
    (given : req.samplingParams = some params) :
    OwnedById (update find req.reqId (some req))
      (batch.writeSamplingParams req index params) := by
  refine ⟨byId.greedy.insert fresh given, byId.random.insert fresh given,
    byId.topP.insert fresh given, byId.topK.insert fresh given, byId.frequency.insert fresh given,
    byId.presence.insert fresh given, byId.repetition.insert fresh given,
    byId.allowed.insert fresh given, ?_, ?_, ?_⟩
  · simp only [InputBatch.writeSamplingParams]
    cases asked : params.logprobs with
    | none =>
      refine byId.logprobs.ignore fresh ?_
      rw [given, bind_some, asked]
      rfl
    | some logprobs =>
      refine byId.logprobs.set ?_
      rw [given, bind_some, asked]
      rfl
  · intro pooling
    exact absurd pooling (by simp [InputBatch.writeSamplingParams, gen])
  · intro pooling
    exact absurd pooling (by simp [InputBatch.writeSamplingParams, gen])

theorem OwnedById.writePoolingParams {after : InputBatch} (byId : OwnedById find batch)
    (fresh : find req.reqId = none) (noSampling : req.samplingParams = none)
    (given : req.poolingParams = some params)
    (h : batch.writePoolingParams req index params = .ok after) :
    OwnedById (update find req.reqId (some req)) after := by
  obtain ⟨_, present, rfl⟩ := writePoolingParams_ok h
  refine ⟨byId.greedy.ignore fresh noSampling, byId.random.ignore fresh noSampling,
    byId.topP.ignore fresh noSampling, byId.topK.ignore fresh noSampling,
    byId.frequency.ignore fresh noSampling, byId.presence.ignore fresh noSampling,
    byId.repetition.ignore fresh noSampling, byId.allowed.ignore fresh noSampling,
    byId.logprobs.ignore fresh ?_, fun pooling => (byId.poolingParams pooling).set given,
    fun pooling => (byId.poolingStates pooling).set present⟩
  rw [noSampling]
  rfl

theorem OwnedLoras.add (owned : OwnedLoras find loras batch) (fresh : find req.reqId = none)
    (index : Nat) : OwnedLoras (update find req.reqId (some req))
      (match req.loraRequest with
        | some lora => loras.set lora.loraIntId lora
        | none => loras) (batch.writeLora req index) := by
  rw [writeLora]
  cases adapter : req.loraRequest with
  | none =>
    refine .of_usersOf ?_ (fun loraId reqIds loc => (owned.users loraId reqIds loc).1)
      owned.requests
    intro loraId other
    have none_mine : ¬ (other = req.reqId ∧
        (none : Option LoRARequest).map LoRARequest.loraIntId = some loraId) := by simp
    rw [uses_some fresh, adapter, or_iff_right none_mine]
    exact owned.mem_usersOf loraId other
  | some lora =>
    refine .of_usersOf ?_ ?_ ?_
    · intro loraId other
      rw [uses_some fresh, adapter, ← owned.mem_usersOf, usersOf, get?_set, map_some]
      split
      · rename_i same
        rw [getD_some, same]
        simp [usersOf]
      · rename_i ne
        simp [Ne.symm ne, usersOf]
    · intro loraId reqIds loc
      simp only [get?_set] at loc
      split at loc
      · cases loc
        exact insert_nonempty ..
      · exact (owned.users loraId reqIds loc).1
    · intro loraId
      simp only [get?_set]
      split
      · rfl
      · exact owned.requests loraId

theorem request_ledger_add (ledger : Ledger) (req : CachedRequestState) :
    (ledger.add req).request = update ledger.request req.reqId (some req) := by
  funext other
  simp only [Ledger.request, Ledger.add, get?_set, update_apply]
  split <;> rfl

theorem sampling_writeParams_other (other : i ≠ index) :
    ((batch.writeSamplingParams req index params).writeLora req index).sampling i =
      batch.sampling i := by
  have generators : (batch.writeSamplingParams req index params).generators.get? i =
      batch.generators.get? i := by
    simp only [writeSamplingParams]
    split
    · rw [get?_set, if_neg other]
    · rfl
  have badWords : (batch.writeSamplingParams req index params).badWordsTokenIds.get? i =
      batch.badWordsTokenIds.get? i := by
    simp only [writeSamplingParams]
    split
    · rfl
    · rw [get?_set, if_neg other]
  rw [writeLora]
  split <;>
    (simp only [sampling, generators, badWords]
     simp [writeSamplingParams, update_of_ne other])

theorem sampling_writeParams (ratios : List Nat)
    (vacant : (batch.sampling index).generator = none ∧ (batch.sampling index).badWords = none) :
    ((batch.writeSamplingParams req index params).writeLora req index).sampling index =
      (Row.ofRequest ratios req).sampling batch.vocabSize params := by
  have generators : (batch.writeSamplingParams req index params).generators.get? index =
      req.generator := by
    simp only [writeSamplingParams]
    cases req.generator with
    | none => exact vacant.1
    | some generator => simp
  have badWords : (batch.writeSamplingParams req index params).badWordsTokenIds.get? index =
      if params.badWordsTokenIds = [] then none else some params.badWordsTokenIds := by
    simp only [writeSamplingParams]
    split
    · exact vacant.2
    · simp
  rw [writeLora]
  split <;>
    (simp only [sampling, generators, badWords, Row.sampling, Row.ofRequest]
     simp [writeSamplingParams])

theorem maskRow_writeParams_other (req : CachedRequestState) (other : i ≠ index) :
    (batch.writeSamplingParams req index params).maskRow i = batch.maskRow i := by
  simp only [writeSamplingParams, maskRow]
  split
  · rfl
  · exact update_of_ne other ..

theorem maskRow_writeParams (req : CachedRequestState)
    (clear : params.allowedTokenIds = [] → ∀ token < batch.vocabSize, batch.maskRow index token =
      false) (token : Nat) (inside : token < batch.vocabSize) :
    (batch.writeSamplingParams req index params).maskRow index token =
      maskFor params token := by
  simp only [writeSamplingParams, maskRow, maskFor]
  split
  · rename_i unrestricted
    exact clear unrestricted token inside
  · simp [update_self]

/-- An addition keeps the rows of the others and writes that of the request. The mask at the index
must be clear for a request without a list of allowed tokens, which does not write it. -/
theorem Carried.addRequest (opened : batch.Open) (carried : Carried batch ledger)
    (fresh : batch.reqIdToIndex.get? req.reqId = none)
    (suits : Suits batch.isPoolingModel req)
    (clear : ∀ params, req.samplingParams = some params → params.allowedTokenIds = [] →
      ∀ token < batch.vocabSize, batch.maskRow batch.newIndex token = false)
    (ran : batch.addRequest req = .ok next) : Carried next (ledger.add req) := by
  have occ := opened.occupant_addRequest ran
  have vacant := opened.newIndex_vacant
  obtain ⟨ids, map, -, kind⟩ := addRequest_layout ran
  obtain ⟨n, withParams, length, written, rfl⟩ := addRequest_ok ran
  have unknown : ledger.request req.reqId = none := by
    have known := carried.known req.reqId
    rw [fresh] at known
    exact Option.not_isSome_iff_eq_none.mp (by simp [← known])
  have absent : ∀ i ≠ batch.newIndex, batch.occupant i ≠ some req.reqId := by
    intro i _ here
    rw [(opened.inverse _ i).mpr here] at fresh
    cases fresh
  have rows : (ledger.add req).rows.get? = update ledger.rows.get? req.reqId
      (some (Row.ofRequest batch.ratios req)) := by
    rw [carried.ratios]
    exact get?_set_eq_update ..
  have noSpec : batch.specTokenIds.getD batch.newIndex [] = [] :=
    (carried.shared batch.newIndex).1 vacant.2
  obtain ⟨sharedSame, vocabSame, outputsSame, specsSame, blocksSame, usersSame, requestsSame⟩ :=
    shared_writeParams written
  obtain ⟨_, _, _, _, loraSame⟩ := writeLora_eq withParams req batch.newIndex
  obtain ⟨placedSampling, placedMask, placedVocab, placedKind, placedNeeds, placedUsers,
    placedRequests⟩ := placed_same batch req n
  have vocab : (withParams.writeLora req batch.newIndex).vocabSize = batch.vocabSize := by
    rw [loraSame]
    exact vocabSame.trans placedVocab
  have lengths : (withParams.writeLora req batch.newIndex).reqIds.length =
      if batch.newIndex = batch.reqIds.length then batch.reqIds.length + 1
      else batch.reqIds.length := by
    rw [ids]
    split <;> simp
  -- The two kinds of batch differ in what the parameters write.
  have ofGeneration (gen : batch.isPoolingModel = false) :
      ∃ params, req.samplingParams = some params ∧ withParams =
        (batch.placed req n).writeSamplingParams req batch.newIndex params := by
    rw [Suits, gen] at suits
    obtain ⟨params, given⟩ := Option.isSome_iff_exists.mp suits.1
    rw [writeParams, given] at written
    exact ⟨params, given, (Except.ok.inj written).symm⟩
  have ofPooling (pooling : batch.isPoolingModel = true) : req.samplingParams = none ∧
      ∃ params, req.poolingParams = some params ∧ (batch.placed req n).writePoolingParams
        req batch.newIndex params = .ok withParams := by
    rw [Suits, pooling] at suits
    obtain ⟨params, given⟩ := Option.isSome_iff_exists.mp suits.1.2
    rw [writeParams, suits.1.1, given] at written
    exact ⟨suits.1.1, params, given, written⟩
  constructor
  · simp only [ratios, loraSame, blocksSame, placed, placeRequest_eq]
    refine Eq.trans ?_ carried.ratios
    refine map_mapIdx_same ?_ _
    exact fun _ _ => blocksPerKvBlock_appendRow ..
  · intro reqId
    rw [map, request_ledger_add, get?_set, update_apply]
    split
    · rfl
    · exact carried.known reqId
  · intro reqId other given
    rw [request_ledger_add, update_apply] at given
    rw [kind]
    split at given
    · cases given
      exact suits
    · exact carried.suits reqId other given
  · rw [lengths, ← carried.outputs]
    simp only [loraSame, outputsSame, placed, placeRequest_eq, writeTokens, carried.outputs]
    split <;> simp [carried.outputs]
  · have specs := carried.specs
    rw [lengths]
    simp only [loraSame, specsSame, placed, placeRequest_eq, writeTokens]
    split <;> simp only [length_append, length_set, length_singleton] <;> omega
  · rw [OwnedShared, rows, occ]
    refine carried.shared.put absent ?_ ?_
    · intro i other
      rw [shared_writeLora, if_neg other, sharedSame,
        shared_placed_other carried.outputs vacant.1 noSpec other]
    · rw [shared_writeLora, if_pos rfl, sharedSame]
      exact shared_placed length carried.outputs vacant.1 noSpec
  · intro gen
    rw [kind] at gen
    obtain ⟨params, given, rfl⟩ := ofGeneration gen
    rw [OwnedSampling, rows, occ, vocab]
    refine (carried.sampling gen).put absent ?_ ?_
    · intro i other
      rw [sampling_writeParams_other other, placedSampling]
    · intro other same
      cases given.symm.trans same
      have free := (carried.sampling gen batch.newIndex).1 vacant.2
      rw [← placedSampling] at free
      rw [sampling_writeParams batch.ratios free, placedVocab]
  · intro pooling i
    rw [kind] at pooling
    have idle := carried.idle pooling i
    rw [← placedSampling] at idle
    obtain ⟨-, params, -, pooled⟩ := ofPooling pooling
    obtain ⟨states, -, rfl⟩ := writePoolingParams_ok pooled
    rw [loraSame]
    exact idle
  · intro gen
    rw [kind] at gen
    obtain ⟨params, given, rfl⟩ := ofGeneration gen
    rw [OwnedMask, rows, occ, vocab, loraSame]
    refine (carried.mask gen).put absent ?_ ?_
    · intro i other
      rw [← placedMask]
      exact maskRow_writeParams_other req other
    · intro other same token inside
      cases given.symm.trans same
      refine maskRow_writeParams req ?_ token (placedVocab ▸ inside)
      rw [placedVocab, placedMask]
      exact clear params given
  · intro pooling
    rw [kind] at pooling
    rw [OwnedNeeds, rows, occ, loraSame]
    obtain ⟨-, params, given, pooled⟩ := ofPooling pooling
    obtain ⟨states, -, rfl⟩ := writePoolingParams_ok pooled
    refine (carried.needs pooling).put absent ?_ ?_
    · intro i other
      simp only [update_of_ne other, placedNeeds]
    · intro other same
      cases given.symm.trans same
      exact update_self ..
  · rw [request_ledger_add]
    rw [loraSame]
    refine OwnedById.congr (?_ : OwnedById _ withParams) rfl
    have start : OwnedById ledger.request (batch.placed req n) :=
      OwnedById.placed n carried.byId
    cases pooling : batch.isPoolingModel with
    | false =>
      obtain ⟨params, given, rfl⟩ := ofGeneration pooling
      exact OwnedById.writeSamplingParams _ start unknown (placedKind.trans pooling) given
    | true =>
      obtain ⟨noSampling, params, given, pooled⟩ := ofPooling pooling
      exact OwnedById.writePoolingParams start unknown noSampling given pooled
  · rw [request_ledger_add]
    have before : OwnedLoras ledger.request ledger.loras withParams :=
      carried.loras.congr (usersSame.trans placedUsers) (requestsSame.trans placedRequests)
    exact OwnedLoras.add before unknown batch.newIndex

end InputBatch
end Vllm.Worker
