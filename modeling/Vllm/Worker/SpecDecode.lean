import Vllm.Request
import Vllm.Numpy
import Vllm.Lib.Dict

/-! The rows of the logits of a step. Request `i` of the batch has one row for each of its
drafts and one more, the bonus row, after those of the requests before it. -/
namespace Vllm
open Segments List Py Dict
variable {batch : BatchOrder}

/-- The requests of the batch in order; `req_id_to_index` is the inverse of `req_ids`. -/
structure BatchOrder where
  reqIds : List String
  nodup : reqIds.Nodup

namespace BatchOrder

def reqIdToIndex (batch : BatchOrder) (reqId : String) : Py Nat :=
  match batch.reqIds.idxOf? reqId with
  | none => .error (.keyError reqId)
  | some index => .ok index

theorem place_unique {i i' : Nat} (place : batch.reqIds[i]? = some reqId)
    (place' : batch.reqIds[i']? = some reqId) : i = i' := by
  obtain ⟨_, atPlace⟩ := List.getElem?_eq_some_iff.mp place
  obtain ⟨_, atPlace'⟩ := List.getElem?_eq_some_iff.mp place'
  exact batch.nodup.getElem_inj_iff.mp (atPlace.trans atPlace'.symm)

end BatchOrder

/-- `len(scheduled_spec_decode_tokens.get(req_id, ()))`. -/
def numSpecTokens (scheduledSpecDecodeTokens : Dict String (List TokenId)) (reqId : String) : Nat :=
  ((scheduledSpecDecodeTokens.get? reqId).getD []).length

structure SpecDecodeMetadata where
  draftTokenIds : List TokenId
  numDraftTokens : List Nat
  cuNumDraftTokens : List Int
  cuNumSampledTokens : List Int
  targetLogitsIndices : List Int
  bonusLogitsIndices : List Int
  logitsIndices : List Int

namespace GPUModelRunner
variable {specTokens : Dict String (List TokenId)}

/-- The cumulative sum and the batched arange. `self.arange_np` is as long as needed. -/
def getCumsumAndArange (numTokens : List Nat) : Py (List Int × List Int) :=
  let cuNumTokens := Np.ofNats (cumsum numTokens)
  match (cumsum numTokens).getLast? with
  | none => .error (.indexError "index -1 is out of bounds for axis 0 with size 0")
  | some totalNumTokens =>
    let cumsumsOffsets := repeatEach (Np.sub cuNumTokens (Np.ofNats numTokens)) numTokens
    let arange := Np.sub (Np.ofNats (range totalNumTokens)) cumsumsOffsets
    .ok (cuNumTokens, arange)

section
variable (batch : BatchOrder) (inputIds : List TokenId)
  (numDraftTokens numScheduledTokens : List Nat)
  (scheduledSpecDecodeTokens : Dict String (List TokenId))

def calcSpecDecodeMetadata (cuNumScheduledTokens : List Int) : Py SpecDecodeMetadata := do
  let numSampledTokens := numDraftTokens.map (· + 1)
  let (cuNumSampledTokens, arange) ← getCumsumAndArange numSampledTokens
  let logitsIndices := Np.add
    (repeatEach (Np.sub cuNumScheduledTokens (Np.ofNats numSampledTokens)) numSampledTokens) arange
  let bonusLogitsIndices := cuNumSampledTokens.map (· - 1)
  let (cuNumDraftTokens, arange) ← getCumsumAndArange numDraftTokens
  let targetLogitsIndices := Np.add
    (repeatEach (Np.sub cuNumSampledTokens (Np.ofNats numSampledTokens)) numDraftTokens) arange
  let inputRows ← Np.gather inputIds logitsIndices
  let draftTokenIds ← Np.gather inputRows (targetLogitsIndices.map (· + 1))
  return { draftTokenIds, numDraftTokens, cuNumDraftTokens, cuNumSampledTokens,
           targetLogitsIndices, bonusLogitsIndices, logitsIndices }

def countDraftsOf (entry : String × List TokenId) : Py (List Nat) := do
  let reqIdx ← batch.reqIdToIndex entry.1
  return numDraftTokens.set reqIdx entry.2.length

def countDrafts : Py (List Nat) :=
  scheduledSpecDecodeTokens.entries.foldlM (countDraftsOf batch)
    (replicate batch.reqIds.length 0)

/-- The part of `_prepare_inputs` that chooses the rows of the logits. -/
def prepareLogits : Py (List Int × Option SpecDecodeMetadata) := do
  let (cuNumTokens, _) ← getCumsumAndArange numScheduledTokens
  if scheduledSpecDecodeTokens.size = 0 then
    return (cuNumTokens.map (· - 1), none)
  else
    let lens ← countDrafts batch scheduledSpecDecodeTokens
    let specDecodeMetadata ← calcSpecDecodeMetadata inputIds lens cuNumTokens
    return (specDecodeMetadata.logitsIndices, some specDecodeMetadata)

def logitsRow (i j : Nat) : Nat :=
  offset (numDraftTokens.map (· + 1)) i + j

end

theorem getCumsumAndArange_ok (nonempty : numTokens ≠ []) :
    ∃ arange, getCumsumAndArange numTokens = .ok (Np.ofNats (cumsum numTokens), arange) ∧
      arange.length = numTokens.sum ∧ ∀ {i j n : Nat}, numTokens[i]? = some n → j < n →
        arange[offset numTokens i + j]? = some (j : Int) := by
  have last : (cumsum numTokens).getLast? = some numTokens.sum := by
    have pos := length_pos_iff.mpr nonempty
    rw [getLast?_eq_getElem?, length_cumsum, getElem?_cumsum (by omega),
      Nat.sub_add_cancel pos, offset_length]
  have widths := Np.length_cumsum_sub numTokens
  refine ⟨_, by simp only [getCumsumAndArange, last]; rfl, ?_, ?_⟩
  · rw [Np.length_sub (by rw [Np.length_ofNats, length_range, length_repeatEach widths]),
      length_repeatEach widths]
  · intro i j n found inside
    have end_le := offset_succ_le_sum found
    have position : (Np.ofNats (range numTokens.sum))[offset numTokens i + j]? =
        some ((offset numTokens i + j : Nat) : Int) :=
      Np.getElem?_ofNats (getElem?_range (by omega))
    have segment : (repeatEach (Np.sub (Np.ofNats (cumsum numTokens)) (Np.ofNats numTokens))
        numTokens)[offset numTokens i + j]? = some (offset numTokens i : Int) := by
      rw [getElem?_repeatEach widths found inside, Np.getElem?_cumsum_sub found]
    rw [Np.getElem?_sub position segment]
    simp

/-- Writing at the place of a request changes its entry only. -/
theorem set_place {α : Type} {reqIds : List String} (nodup : reqIds.Nodup)
    (found : reqIds.idxOf? reqId = some index) (value : String → α) (new : α) :
    (reqIds.map value).set index new =
      reqIds.map (fun other => if other = reqId then new else value other) := by
  obtain ⟨_, same, -⟩ := findIdx?_eq_some_iff_getElem.mp found
  have isReq : reqIds[index] = reqId := by simpa using same
  apply ext_getElem (by simp)
  intro k _ bound'
  rw [getElem_set, getElem_map, getElem_map]
  by_cases here : index = k
  · subst here
    rw [if_pos rfl, if_pos isReq]
  · rw [if_neg here, if_neg]
    intro clash
    exact here (nodup.getElem_inj_iff.mp (isReq.trans clash.symm))

/-- The numbers of drafts are those of the requests at their places. -/
theorem countDrafts_ok (known : ∀ reqId ∈ specTokens.keys, reqId ∈ batch.reqIds) :
    countDrafts batch specTokens =
      .ok (batch.reqIds.map (numSpecTokens specTokens)) := by
  have loop (entries : List (String × List TokenId)) (unique : (entries.map Prod.fst).Nodup)
      (known : ∀ reqId ∈ entries.map Prod.fst, reqId ∈ batch.reqIds) (count : String → Nat) :
      entries.foldlM (countDraftsOf batch) (batch.reqIds.map count) =
        .ok (batch.reqIds.map (fun reqId =>
          ((getIn reqId entries).map length).getD (count reqId))) := by
    induction entries generalizing count with
    | nil => rfl
    | cons entry rest ih =>
      obtain ⟨reqId, drafts⟩ := entry
      rw [map_cons, nodup_cons] at unique
      have mem := known reqId (mem_cons_self ..)
      obtain ⟨index, found⟩ : ∃ index, batch.reqIds.idxOf? reqId = some index := by
        cases place : batch.reqIds.idxOf? reqId with
        | none => exact absurd mem (idxOf?_eq_none_iff.mp place)
        | some index => exact ⟨index, rfl⟩
      have step : countDraftsOf batch (batch.reqIds.map count) (reqId, drafts) =
          .ok (batch.reqIds.map (fun other =>
            if other = reqId then drafts.length else count other)) := by
        rw [← set_place batch.nodup found]
        simp only [countDraftsOf, BatchOrder.reqIdToIndex, found]
        rfl
      rw [foldlM_cons, step, ok_bind, ih unique.2 (fun other inside =>
        known other (mem_cons_of_mem _ inside))]
      congr 1
      apply map_congr_left
      intro other _
      have absent : getIn reqId rest = none := by
        cases stored : getIn reqId rest with
        | none => rfl
        | some value =>
          have inside := (getIn_eq_some unique.2).mp stored
          exact absurd (mem_map.mpr ⟨_, inside, rfl⟩) unique.1
      by_cases here : reqId = other
      · subst here
        simp [getIn, absent]
      · simp [getIn, here, Ne.symm here]
  have counted := loop specTokens.entries specTokens.nodup known
    (fun _ => 0)
  have zeros : batch.reqIds.map (fun _ => 0) = replicate batch.reqIds.length 0 := by simp
  rw [zeros] at counted
  rw [countDrafts, counted]
  congr 1
  apply map_congr_left
  intro reqId _
  simp only [numSpecTokens, get?]
  cases getIn reqId specTokens.entries <;> rfl

/-- The rows that the metadata of a step names, for the drafts and the scheduled tokens of
its requests. -/
structure NamesRows (inputIds : List TokenId) (numDraftTokens numScheduledTokens : List Nat)
    (specDecodeMetadata : SpecDecodeMetadata) : Prop where
  numRows : specDecodeMetadata.logitsIndices.length = (numDraftTokens.map (· + 1)).sum
  rows : ∀ {i d j : Nat}, numDraftTokens[i]? = some d → j ≤ d →
    specDecodeMetadata.logitsIndices[logitsRow numDraftTokens i j]? =
      some ((offset numScheduledTokens (i + 1) : Int) - d - 1 + j)
  targets : specDecodeMetadata.targetLogitsIndices = numDraftTokens.zipIdx.flatMap
    (fun drafts => (range drafts.1).map
      (fun j => (logitsRow numDraftTokens drafts.2 j : Int)))
  bonuses : specDecodeMetadata.bonusLogitsIndices = numDraftTokens.zipIdx.map
    (fun drafts => (logitsRow numDraftTokens drafts.2 drafts.1 : Int))
  numDrafts : specDecodeMetadata.draftTokenIds.length = numDraftTokens.sum
  drafts : ∀ {i d j : Nat}, numDraftTokens[i]? = some d → j < d →
    specDecodeMetadata.draftTokenIds[offset numDraftTokens i + j]? =
      inputIds[offset numScheduledTokens (i + 1) - d - 1 + (j + 1)]?

variable {lens granted : List Nat}

theorem getElem?_numSampledTokens {i d : Nat} (found : lens[i]? = some d) :
    (lens.map (· + 1))[i]? = some (d + 1) := by
  rw [getElem?_map, found]
  rfl

/-- The starts of the requests among the rows of the logits. -/
theorem getElem?_rowStarts {i d : Nat} (found : lens[i]? = some d) :
    (Np.sub (Np.ofNats (cumsum (lens.map (· + 1))))
      (Np.ofNats (lens.map (· + 1))))[i]? =
        some (offset (lens.map (· + 1)) i : Int) :=
  Np.getElem?_cumsum_sub (getElem?_numSampledTokens found)

theorem length_rowStarts (lens : List Nat) : (Np.sub (Np.ofNats (cumsum (lens.map (· + 1))))
      (Np.ofNats (lens.map (· + 1)))).length = lens.length := by
  rw [Np.length_cumsum_sub, length_map]

section Arange
variable {arange : List Int} (counted : ∀ {i j n : Nat}, lens[i]? = some n → j < n →
  arange[offset lens i + j]? = some (j : Int))
include counted

theorem getElem?_targets (found : lens[i]? = some d) (within : j < d) :
    (Np.add (repeatEach (Np.sub (Np.ofNats (cumsum (lens.map (· + 1))))
        (Np.ofNats (lens.map (· + 1)))) lens)
      arange)[offset lens i + j]? = some (logitsRow lens i j : Int) := by
  rw [Np.getElem?_batched (length_rowStarts _) found within (getElem?_rowStarts found)
    (counted found within)]
  simp [logitsRow]

theorem targets_eq (length : arange.length = lens.sum) :
    Np.add (repeatEach (Np.sub (Np.ofNats (cumsum (lens.map (· + 1))))
        (Np.ofNats (lens.map (· + 1)))) lens) arange =
      lens.zipIdx.flatMap (fun drafts => (range drafts.1).map
        (fun j => (logitsRow lens drafts.2 j : Int))) := by
  have total := Np.length_batched (length_rowStarts lens) length
  apply ext_getElem?
  intro k
  by_cases inside : k < lens.sum
  · obtain ⟨i, d, j, found, within, rfl⟩ := exists_segment inside
    rw [getElem?_targets counted found within, getElem?_flatMap_zipIdx
      (fun i j => (logitsRow lens i j : Int)) found within]
  · have short : lens.sum ≤ k := Nat.le_of_not_lt inside
    have widths : (lens.zipIdx.map (fun drafts => ((range drafts.1).map
        (fun j => (logitsRow lens drafts.2 j : Int))).length)) = lens := by
      simp only [length_map, length_range]
      exact zipIdx_map_fst 0 lens
    rw [getElem?_eq_none (by rw [total]; exact short), getElem?_eq_none]
    rw [length_flatMap, widths]
    exact short

end Arange

theorem bonuses_eq (lens : List Nat) :
    (Np.ofNats (cumsum (lens.map (· + 1)))).map (· - 1) = lens.zipIdx.map
        (fun drafts => (logitsRow lens drafts.2 drafts.1 : Int)) := by
  apply ext_getElem?
  intro k
  by_cases inside : k < lens.length
  · have found : lens[k]? = some lens[k] := getElem?_eq_getElem inside
    rw [getElem?_map, getElem?_map, getElem?_zipIdx, found,
      Np.getElem?_ofNats (getElem?_cumsum (by simpa using inside)),
      offset_succ (getElem?_numSampledTokens found)]
    simp [logitsRow]
    omega
  · rw [getElem?_eq_none (by simpa using Nat.le_of_not_lt inside),
      getElem?_eq_none (by simpa using Nat.le_of_not_lt inside)]

section Room
variable {inputIds : List TokenId} (widths : granted.length = lens.length)
  (fits : ∀ {i d s : Nat}, lens[i]? = some d → granted[i]? = some s → d + 1 ≤ s)
include widths fits

/-- The drafts of a request and its bonus row end where its tokens end. -/
theorem run_inside (found : lens[i]? = some d)
    (filled : granted.sum ≤ inputIds.length) :
    d + 1 ≤ offset granted (i + 1) ∧
      offset granted (i + 1) ≤ inputIds.length := by
  obtain ⟨below, -⟩ := List.getElem?_eq_some_iff.mp found
  have scheduled : granted[i]? = some granted[i] :=
    getElem?_eq_getElem (by omega)
  have room := fits found scheduled
  have bound := offset_succ_le_sum scheduled
  rw [offset_succ scheduled]
  omega

theorem calcSpecDecodeMetadata_ok (nonempty : lens ≠ [])
    (filled : granted.sum ≤ inputIds.length) :
    ∃ specDecodeMetadata, calcSpecDecodeMetadata inputIds lens
        (Np.ofNats (cumsum granted)) = .ok specDecodeMetadata ∧
      NamesRows inputIds lens granted specDecodeMetadata := by
  have sampledNonempty : lens.map (· + 1) ≠ [] := by simpa using nonempty
  obtain ⟨sampledArange, sampledOk, sampledLength, sampledRows⟩ :=
    getCumsumAndArange_ok sampledNonempty
  obtain ⟨draftArange, draftOk, draftLength, draftRows⟩ := getCumsumAndArange_ok nonempty
  have baseWidths : (Np.sub (Np.ofNats (cumsum granted))
      (Np.ofNats (lens.map (· + 1)))).length = (lens.map (· + 1)).length := by
    rw [Np.length_sub (by simpa using widths), Np.length_ofNats]
  have numRows := Np.length_batched baseWidths sampledLength
  have rows {i d j : Nat} (found : lens[i]? = some d) (within : j ≤ d) :
      (Np.add (repeatEach (Np.sub (Np.ofNats (cumsum granted))
        (Np.ofNats (lens.map (· + 1)))) (lens.map (· + 1)))
        sampledArange)[logitsRow lens i j]? =
        some ((offset granted (i + 1) : Int) - d - 1 + j) := by
    obtain ⟨_, -⟩ := List.getElem?_eq_some_iff.mp found
    have sampled := getElem?_numSampledTokens found
    have base : (Np.sub (Np.ofNats (cumsum granted))
        (Np.ofNats (lens.map (· + 1))))[i]? =
        some ((offset granted (i + 1) : Int) - (d + 1 : Nat)) :=
      Np.getElem?_sub (Np.getElem?_ofNats (getElem?_cumsum (by omega)))
        (Np.getElem?_ofNats sampled)
    rw [logitsRow, Np.getElem?_batched baseWidths sampled (Nat.lt_succ_of_le within) base
      (sampledRows sampled (Nat.lt_succ_of_le within))]
    congr 1
    omega
  generalize logitsEq : Np.add (repeatEach (Np.sub (Np.ofNats (cumsum granted))
    (Np.ofNats (lens.map (· + 1)))) (lens.map (· + 1))) sampledArange =
      logitsIndices at numRows rows
  have inputInside : ∀ index ∈ logitsIndices, 0 ≤ index ∧ index.toNat < inputIds.length := by
    intro index mem
    obtain ⟨k, found⟩ := getElem?_of_mem mem
    have inside : k < (lens.map (· + 1)).sum :=
      numRows ▸ (List.getElem?_eq_some_iff.mp found).1
    obtain ⟨i, n, j, sampled, within, rfl⟩ := exists_segment inside
    rw [getElem?_map, Option.map_eq_some_iff] at sampled
    obtain ⟨d, drafts, rfl⟩ := sampled
    have row := rows drafts (Nat.le_of_lt_succ within)
    rw [logitsRow, found] at row
    cases row
    have bounds := run_inside widths fits drafts filled
    omega
  obtain ⟨inputRows, gathered, inputLength, inputAt⟩ := Np.gather_ok inputInside
  have targetAt {i d j : Nat} (found : lens[i]? = some d) (within : j < d) :=
    getElem?_targets draftRows found within
  have numTargets := Np.length_batched (length_rowStarts lens) draftLength
  have targetsEq := targets_eq draftRows draftLength
  generalize targetEq : Np.add (repeatEach (Np.sub
    (Np.ofNats (cumsum (lens.map (· + 1)))) (Np.ofNats (lens.map (· + 1))))
    lens) draftArange = targets at targetAt numTargets targetsEq
  -- The row after a target row belongs to the same request.
  have nextAt {i d j : Nat} (found : lens[i]? = some d) (within : j < d) :
      inputRows[logitsRow lens i (j + 1)]? =
        inputIds[offset granted (i + 1) - d - 1 + (j + 1)]? := by
    have bounds := run_inside widths fits found filled
    rw [inputAt (rows found within)]
    congr 1
    omega
  have draftInside : ∀ index ∈ targets.map (· + 1),
      0 ≤ index ∧ index.toNat < inputRows.length := by
    intro index mem
    obtain ⟨target, inside, rfl⟩ := mem_map.mp mem
    obtain ⟨k, found⟩ := getElem?_of_mem inside
    obtain ⟨i, d, j, drafts, within, rfl⟩ :=
      exists_segment (numTargets ▸ (List.getElem?_eq_some_iff.mp found).1)
    rw [targetAt drafts within] at found
    cases found
    have bound := offset_succ_le_sum (getElem?_numSampledTokens drafts)
    simp only [logitsRow]
    omega
  obtain ⟨draftTokenIds, picked, draftLength', draftAt⟩ := Np.gather_ok draftInside
  refine ⟨⟨draftTokenIds, lens, Np.ofNats (cumsum lens),
    Np.ofNats (cumsum (lens.map (· + 1))), targets,
    (Np.ofNats (cumsum (lens.map (· + 1)))).map (· - 1), logitsIndices⟩, ?_, ?_⟩
  · rw [calcSpecDecodeMetadata, sampledOk, ok_bind]
    dsimp only
    rw [draftOk, ok_bind]
    rw [logitsEq, targetEq, gathered, ok_bind, picked]
    rfl
  · refine ⟨numRows, rows, targetsEq, bonuses_eq lens, ?_, ?_⟩
    · rw [draftLength', length_map, numTargets]
    · intro i d j found within
      have target : (targets.map (· + 1))[offset lens i + j]? =
          some ((logitsRow lens i j : Int) + 1) := by
        rw [getElem?_map, targetAt found within]
        rfl
      rw [draftAt target, ← nextAt found within]
      rfl

end Room

structure PreparesLogits (batch : BatchOrder) (inputIds : List TokenId)
    (numScheduledTokens : List Nat) (scheduledSpecDecodeTokens : Dict String (List TokenId))
    (logitsIndices : List Int) (specDecodeMetadata : Option SpecDecodeMetadata) : Prop where
  numRows : logitsIndices.length =
    ((batch.reqIds.map (numSpecTokens scheduledSpecDecodeTokens)).map (· + 1)).sum
  rows : ∀ {i j : Nat} {reqId : String}, batch.reqIds[i]? = some reqId →
    j ≤ numSpecTokens scheduledSpecDecodeTokens reqId →
    logitsIndices[logitsRow (batch.reqIds.map (numSpecTokens scheduledSpecDecodeTokens)) i j]? =
      some ((offset numScheduledTokens (i + 1) : Int) -
        numSpecTokens scheduledSpecDecodeTokens reqId - 1 + j)
  metadata : if scheduledSpecDecodeTokens.size = 0 then specDecodeMetadata = none
    else ∃ made, specDecodeMetadata = some made ∧ made.logitsIndices = logitsIndices ∧
      NamesRows inputIds (batch.reqIds.map (numSpecTokens scheduledSpecDecodeTokens))
        numScheduledTokens made

/-- Without drafts every request has one row, that of its last token. -/
theorem lastRows (batch : BatchOrder) (noDrafts : specTokens.size = 0)
    (reqId : String) : numSpecTokens specTokens reqId = 0 ∧
      ∀ i, offset ((batch.reqIds.map (numSpecTokens specTokens)).map (· + 1)) i =
        min i batch.reqIds.length := by
  have none (other : String) : numSpecTokens specTokens other = 0 := by
    rw [numSpecTokens, get?, length_eq_zero_iff.mp noDrafts]
    rfl
  refine ⟨none reqId, fun i => ?_⟩
  have ones : (batch.reqIds.map (numSpecTokens specTokens)).map (· + 1) =
      replicate batch.reqIds.length 1 := by
    rw [map_map]
    exact eq_replicate_iff.mpr ⟨by simp, by simp [none]⟩
  rw [ones, offset, take_replicate, sum_replicate]
  simp

theorem prepareLogits_ok (nonempty : batch.reqIds ≠ [])
    (widths : granted.length = batch.reqIds.length)
    (known : ∀ reqId ∈ specTokens.keys, reqId ∈ batch.reqIds)
    (fits : ∀ {i s : Nat} {reqId : String}, batch.reqIds[i]? = some reqId →
      granted[i]? = some s → numSpecTokens specTokens reqId + 1 ≤ s)
    (filled : granted.sum ≤ inputIds.length) : ∃ logitsIndices specDecodeMetadata,
      prepareLogits batch inputIds granted specTokens =
        .ok (logitsIndices, specDecodeMetadata) ∧
      PreparesLogits batch inputIds granted specTokens logitsIndices
        specDecodeMetadata := by
  have scheduledNonempty : granted ≠ [] := by
    rintro rfl
    exact nonempty (length_eq_zero_iff.mp widths.symm)
  obtain ⟨_, counted, -, -⟩ := getCumsumAndArange_ok scheduledNonempty
  by_cases noDrafts : specTokens.size = 0
  · refine ⟨_, none, by rw [prepareLogits, counted]; simp only [if_pos noDrafts]; rfl,
      ?_, ?_, by rw [if_pos noDrafts]⟩
    · have whole := (lastRows batch noDrafts "").2 batch.reqIds.length
      rw [offset, take_of_length_le (by simp)] at whole
      rw [whole]
      simp [widths]
    · intro i j reqId place inside
      obtain ⟨below, -⟩ := List.getElem?_eq_some_iff.mp place
      obtain ⟨zero, rows⟩ := lastRows batch noDrafts reqId
      rw [zero, Nat.le_zero] at inside
      subst inside
      rw [logitsRow, rows i, Nat.min_eq_left (Nat.le_of_lt below), getElem?_map,
        Np.getElem?_ofNats (getElem?_cumsum (by omega)), zero]
      simp
  · have draftsNonempty : batch.reqIds.map (numSpecTokens specTokens) ≠ [] := by
      simpa using nonempty
    have draftsWidths : granted.length =
        (batch.reqIds.map (numSpecTokens specTokens)).length := by
      simpa using widths
    have draftsFit {i d s : Nat}
        (found : (batch.reqIds.map (numSpecTokens specTokens))[i]? = some d)
        (scheduled : granted[i]? = some s) : d + 1 ≤ s := by
      rw [getElem?_map, Option.map_eq_some_iff] at found
      obtain ⟨reqId, place, rfl⟩ := found
      exact fits place scheduled
    obtain ⟨made, calculated, names⟩ :=
      calcSpecDecodeMetadata_ok draftsWidths draftsFit draftsNonempty filled
    refine ⟨made.logitsIndices, some made, ?_, names.numRows, ?_, ?_⟩
    · rw [prepareLogits, counted, ok_bind]
      simp only [if_neg noDrafts]
      rw [countDrafts_ok known, ok_bind, calculated]
      rfl
    · intro i j reqId place inside
      exact names.rows (by rw [getElem?_map, place]; rfl) inside
    · rw [if_neg noDrafts]
      exact ⟨made, rfl, rfl, names⟩

end GPUModelRunner
end Vllm
