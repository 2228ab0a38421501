import Vllm.Structured.Manager

/-! `apply_grammar_bitmask`: the rows of the bitmask are in the order of the structured output
requests and the logits in the order of the batch. Every row of the bitmask goes to the row
of the logits it was made for. -/
namespace Vllm
open List hiding next
open Segments GPUModelRunner Py Dict
variable {G B H L : Type} {reqId : String} {fullMask : B} {rows : String → List B}

section
variable (fullMask : B) (batch : BatchOrder)
  (structuredOutputRequestIds : List String) (specTokens : Dict String (List TokenId))

/-- A request of the batch in the loop that finds the first rows; the second component is
`cumulative_offset`. -/
def placeRequest (placed : Dict String Nat × Nat)
    (entry : String × Nat) : Dict String Nat × Nat :=
  (if entry.1 ∈ structuredOutputRequestIds then placed.1.set entry.1 (entry.2 + placed.2)
    else placed.1, placed.2 + numSpecTokens specTokens entry.1)

def structOutReqBatchIndices : Dict String Nat :=
  (batch.reqIds.zipIdx.foldl (placeRequest structuredOutputRequestIds specTokens) (.empty, 0)).1

structure SortedBitmask (B : Type) where
  sortedBitmask : List B
  outIndices : List Nat
  cumulativeIndex : Nat

/-- `sorted_bitmask[logit_idx + i] = grammar_bitmask[cumulative_index + i]`. -/
def copyRow (grammarBitmask : List B) (logitIdx : Nat) (sorted : SortedBitmask B) (i : Nat) :
    Py (SortedBitmask B) :=
  match grammarBitmask[sorted.cumulativeIndex + i]? with
  | none => .error (.indexError "index is out of bounds")
  | some row =>
    if logitIdx + i < sorted.sortedBitmask.length then .ok { sorted with
      sortedBitmask := sorted.sortedBitmask.set (logitIdx + i) row
      outIndices := sorted.outIndices ++ [logitIdx + i] }
    else .error (.indexError "index is out of bounds")

def sortRows (indices : Dict String Nat) (specTokens : Dict String (List TokenId))
    (grammarBitmask : List B) (sorted : SortedBitmask B) (reqId : String) :
    Py (SortedBitmask B) := do
  let copied ← match indices.get? reqId with
    | none => .ok sorted
    | some logitIdx =>
      (range (1 + numSpecTokens specTokens reqId)).foldlM (copyRow grammarBitmask logitIdx)
        sorted
  return { copied with
    cumulativeIndex := copied.cumulativeIndex + (1 + numSpecTokens specTokens reqId) }

/-- The kernel of the grammar library: the logits, the bitmask, and the rows to mask unless all. -/
abbrev BitmaskKernel (L B : Type) := List L → List B → Option (List Nat) → List L

/-- The kernel masks the rows that are listed, each by its own row of the bitmask, or all. -/
structure BitmaskKernel.Masks (kernel : BitmaskKernel L B) (mask : L → B → L) : Prop where
  listed : ∀ logits bitmask indices, bitmask.length = logits.length → indices.Nodup → ∀ k : Nat,
    (kernel logits bitmask (some indices))[k]? = if k ∈ indices
      then logits[k]?.bind (fun row => bitmask[k]?.map (mask row)) else logits[k]?
  all : ∀ logits bitmask, bitmask.length = logits.length → ∀ k : Nat,
    (kernel logits bitmask none)[k]? = logits[k]?.bind (fun row => bitmask[k]?.map (mask row))

def applyGrammarBitmask (applyTokenBitmaskInplace : BitmaskKernel L B)
    (structuredOutputRequestIds : List String) (grammarBitmask : List B) (logits : List L) : Py (List L) := do
  let indices := structOutReqBatchIndices batch structuredOutputRequestIds specTokens
  let sorted ← structuredOutputRequestIds.foldlM (sortRows indices specTokens grammarBitmask)
    { sortedBitmask := replicate logits.length fullMask, outIndices := [], cumulativeIndex := 0 }
  let skipOutIndices := sorted.outIndices.length = logits.length
  return applyTokenBitmaskInplace logits sorted.sortedBitmask
    (if skipOutIndices then none else some sorted.outIndices)

def requestRow (i j : Nat) : Nat :=
  logitsRow (batch.reqIds.map (numSpecTokens specTokens)) i j

end

section Sorting
variable {batch : BatchOrder} {specTokens : Dict String (List TokenId)} {ids : List String}

/-- The first rows are where the requests start in the logits. -/
theorem structOutReqBatchIndices_get (place : batch.reqIds[i]? = some reqId) :
    (structOutReqBatchIndices batch ids specTokens).get? reqId =
      if reqId ∈ ids then some (requestRow batch specTokens i 0)
      else none := by
  -- The loop over a part of the batch that starts at `start`, with the drafts before it counted.
  have loop (reqIds : List String) (unique : reqIds.Nodup) (start drafts : Nat)
      (indices : Dict String Nat) :
      let last := (reqIds.zipIdx start).foldl
        (placeRequest ids specTokens) (indices, drafts)
      (∀ other, other ∉ reqIds → last.1.get? other = indices.get? other) ∧
      ∀ {i reqId}, reqIds[i]? = some reqId → last.1.get? reqId =
        if reqId ∈ ids
        then some (start + drafts + offset (reqIds.map (numSpecTokens specTokens · + 1)) i)
        else indices.get? reqId := by
    induction reqIds generalizing start drafts indices with
    | nil => exact ⟨fun _ _ => rfl, fun found => by cases found⟩
    | cons head rest ih =>
      rw [nodup_cons] at unique
      have tail := ih unique.2 (start + 1) (drafts + numSpecTokens specTokens head)
        (if head ∈ ids then indices.set head (start + drafts) else indices)
      simp only [zipIdx_cons, foldl_cons, placeRequest] at tail ⊢
      constructor
      · intro other absent
        rw [mem_cons, not_or] at absent
        rw [tail.1 other absent.2]
        split
        · rw [get?_set, if_neg absent.1]
        · rfl
      · intro i reqId found
        cases i with
        | zero =>
          cases found
          rw [tail.1 head unique.1, offset_zero]
          split
          · rw [get?_set, if_pos rfl, add_zero]
          · rfl
        | succ i =>
          have inside : reqId ∈ rest := mem_of_getElem? found
          have other : reqId ≠ head := fun same => unique.1 (same ▸ inside)
          rw [tail.2 found, map_cons, offset_cons_succ]
          split
          · congr 1
            omega
          · split
            · rw [get?_set, if_neg other]
            · rfl
  have whole := (loop batch.reqIds batch.nodup 0 0 .empty).2 place
  rw [structOutReqBatchIndices, whole, requestRow, logitsRow, map_map]
  simp only [get?_empty, zero_add, add_zero]
  rfl

theorem structOutReqBatchIndices_absent (ids : List String)
    (specTokens : Dict String (List TokenId)) (absent : reqId ∉ batch.reqIds) :
    (structOutReqBatchIndices batch ids specTokens).get? reqId = none := by
  have loop (entries : List (String × Nat)) (drafts : Nat) (indices : Dict String Nat)
      (absent : reqId ∉ entries.map Prod.fst) :
      (entries.foldl (placeRequest ids specTokens)
        (indices, drafts)).1.get? reqId = indices.get? reqId := by
    induction entries generalizing drafts indices with
    | nil => rfl
    | cons entry rest ih =>
      rw [map_cons, mem_cons, not_or] at absent
      rw [foldl_cons, placeRequest, ih _ _ absent.2]
      split
      · rw [get?_set, if_neg absent.1]
      · rfl
  rw [structOutReqBatchIndices, loop _ _ _ (by rwa [zipIdx_map_fst])]
  rfl

/-- The rows of a request are copied one after the other. -/
theorem copyRows_ok (grammarBitmask : List B) (sorted : SortedBitmask B) (logitIdx count : Nat)
    (source : sorted.cumulativeIndex + count ≤ grammarBitmask.length)
    (target : logitIdx + count ≤ sorted.sortedBitmask.length) :
    ∃ copied, (range count).foldlM (copyRow grammarBitmask logitIdx) sorted = .ok copied ∧
      copied.cumulativeIndex = sorted.cumulativeIndex ∧
      copied.outIndices = sorted.outIndices ++ (range count).map (logitIdx + ·) ∧
      copied.sortedBitmask.length = sorted.sortedBitmask.length ∧
      ∀ k, copied.sortedBitmask[k]? = if logitIdx ≤ k ∧ k < logitIdx + count
        then grammarBitmask[sorted.cumulativeIndex + (k - logitIdx)]?
        else sorted.sortedBitmask[k]? := by
  induction count with
  | zero =>
    refine ⟨sorted, rfl, rfl, by simp, rfl, fun k => ?_⟩
    rw [if_neg (by omega)]
  | succ count ih =>
    obtain ⟨copied, copies, index, out, length, rows⟩ := ih (by omega) (by omega)
    have row : grammarBitmask[copied.cumulativeIndex + count]? =
        some grammarBitmask[sorted.cumulativeIndex + count] := by
      rw [index]
      exact getElem?_eq_getElem (by omega)
    refine ⟨{ copied with
      sortedBitmask := copied.sortedBitmask.set (logitIdx + count)
        grammarBitmask[sorted.cumulativeIndex + count]
      outIndices := copied.outIndices ++ [logitIdx + count] }, ?_, index, ?_, ?_, ?_⟩
    · rw [range_succ, foldlM_append, copies, ok_bind, foldlM_cons, copyRow, row]
      simp only [length, if_pos (show logitIdx + count < sorted.sortedBitmask.length by omega)]
      rfl
    · rw [range_succ, map_append, ← append_assoc, ← out]
      rfl
    · exact (length_set ..).trans length
    · intro k
      simp only [getElem?_set, length, rows]
      by_cases last : logitIdx + count = k
      · subst last
        rw [if_pos rfl, if_pos (by omega), if_pos (by omega), Nat.add_sub_cancel_left]
        exact (getElem?_eq_getElem (by omega)).symm
      · rw [if_neg last]
        by_cases inside : logitIdx ≤ k ∧ k < logitIdx + count
        · rw [if_pos inside, if_pos (by omega)]
        · rw [if_neg inside, if_neg (by omega)]

/-- The rows that are sorted once some of the requests are done. -/
structure SortedRows (batch : BatchOrder) (specTokens : Dict String (List TokenId)) (fullMask : B)
    (rows : String → List B) (done : List String) (sorted : SortedBitmask B) : Prop where
  length : sorted.sortedBitmask.length =
    ((batch.reqIds.map (numSpecTokens specTokens)).map (· + 1)).sum
  index : sorted.cumulativeIndex = (done.flatMap rows).length
  unique : sorted.outIndices.Nodup
  out : ∀ k, k ∈ sorted.outIndices ↔ ∃ i reqId j, batch.reqIds[i]? = some reqId ∧ reqId ∈ done ∧
    j ≤ numSpecTokens specTokens reqId ∧ k = requestRow batch specTokens i j
  masked : ∀ {i reqId j}, batch.reqIds[i]? = some reqId → j ≤ numSpecTokens specTokens reqId →
    sorted.sortedBitmask[requestRow batch specTokens i j]? =
      if reqId ∈ done then (rows reqId)[j]? else some fullMask

theorem getElem?_numSpecTokens (specTokens : Dict String (List TokenId)) {i : Nat}
    (place : batch.reqIds[i]? = some reqId) :
    ((batch.reqIds.map (numSpecTokens specTokens)).map (· + 1))[i]? =
      some (numSpecTokens specTokens reqId + 1) := by
  rw [getElem?_map, getElem?_map, place]
  rfl

/-- A row of the logits belongs to one request. -/
theorem requestRow_inj {i i' j j' : Nat} {reqId' : String} (place : batch.reqIds[i]? = some reqId)
    (place' : batch.reqIds[i']? = some reqId') (inside : j ≤ numSpecTokens specTokens reqId)
    (inside' : j' ≤ numSpecTokens specTokens reqId')
    (same : requestRow batch specTokens i j = requestRow batch specTokens i' j') : i = i' :=
  (segment_unique (getElem?_numSpecTokens specTokens place)
    (getElem?_numSpecTokens specTokens place')
    (Nat.lt_succ_of_le inside) (Nat.lt_succ_of_le inside') same).1

theorem requestRow_eq (i j : Nat) :
    requestRow batch specTokens i j = requestRow batch specTokens i 0 + j := rfl

theorem SortedRows.start {count : Nat}
    (length : count = ((batch.reqIds.map (numSpecTokens specTokens)).map (· + 1)).sum) :
    SortedRows batch specTokens fullMask rows []
      { sortedBitmask := replicate count fullMask, outIndices := [], cumulativeIndex := 0 } := by
  refine ⟨by simpa using length, rfl, nodup_nil, fun k => ?_, ?_⟩
  · simp
  · intro i reqId j place inside
    have bound := offset_succ_le_sum (getElem?_numSpecTokens specTokens place)
    rw [if_neg (by simp), getElem?_replicate, if_pos]
    rw [length, requestRow, logitsRow]
    omega

theorem sortRows_ok {prior later : List String} {sorted : SortedBitmask B}
    (split : ids = prior ++ reqId :: later) (fresh : reqId ∉ prior)
    (lengths : ∀ other ∈ ids, (rows other).length =
      numSpecTokens specTokens other + 1)
    (before : SortedRows batch specTokens fullMask rows prior sorted) :
    ∃ next, sortRows (structOutReqBatchIndices batch ids specTokens)
        specTokens (ids.flatMap rows) sorted reqId = .ok next ∧
      SortedRows batch specTokens fullMask rows (prior ++ [reqId]) next := by
  have mem : reqId ∈ ids := by rw [split]; simp
  have own := lengths reqId mem
  have whole : ids.flatMap rows =
      prior.flatMap rows ++ (rows reqId ++ later.flatMap rows) := by
    rw [split, flatMap_append, flatMap_cons]
  have index : (prior ++ [reqId]).flatMap rows = prior.flatMap rows ++ rows reqId := by
    rw [flatMap_append, flatMap_singleton]
  by_cases inBatch : reqId ∈ batch.reqIds
  · obtain ⟨i, place⟩ := getElem?_of_mem inBatch
    have bound := offset_succ_le_sum (getElem?_numSpecTokens specTokens place)
    obtain ⟨copied, copies, copiedIndex, out, length, copiedRows⟩ :=
      copyRows_ok (ids.flatMap rows) sorted
        (requestRow batch specTokens i 0) (1 + numSpecTokens specTokens reqId)
        (by rw [before.index, whole, length_append, length_append, own]; omega)
        (by rw [before.length, requestRow, logitsRow]; omega)
    have first : (structOutReqBatchIndices batch ids specTokens).get? reqId =
        some (requestRow batch specTokens i 0) := by
      rw [structOutReqBatchIndices_get place, if_pos mem]
    refine ⟨_, by simp only [sortRows, first, copies, ok_bind]; rfl, ?_⟩
    have elsewhere {i' : Nat} {other : String} (place' : batch.reqIds[i']? = some other)
        (done : other ∈ prior) : i' ≠ i := by
      rintro rfl
      rw [place] at place'
      cases place'
      exact fresh done
    constructor
    · exact length.trans before.length
    · simp only
      rw [copiedIndex, before.index, index, length_append, own]
      omega
    · simp only
      rw [out, nodup_append]
      refine ⟨before.unique, nodup_range.map (fun _ _ same => Nat.add_left_cancel same), ?_⟩
      rintro k earlierOut _ here rfl
      obtain ⟨i', other, j', place', done, inside', rfl⟩ := (before.out k).mp earlierOut
      obtain ⟨j, inside, same⟩ := mem_map.mp here
      have within : j ≤ numSpecTokens specTokens reqId := by
        have := mem_range.mp inside
        omega
      exact elsewhere place' done (requestRow_inj place place' within inside' same).symm
    · intro k
      simp only
      rw [out, mem_append, before.out k, mem_map]
      constructor
      · rintro (⟨i', other, j, place', done, rest⟩ | ⟨j, inside, rfl⟩)
        · exact ⟨i', other, j, place', mem_append_left _ done, rest⟩
        · refine ⟨i, reqId, j, place, by simp, ?_, rfl⟩
          have := mem_range.mp inside
          omega
      · rintro ⟨i', other, j, place', done, inside, rfl⟩
        rcases mem_append.mp done with done | here
        · exact .inl ⟨i', other, j, place', done, inside, rfl⟩
        · cases mem_singleton.mp here
          cases BatchOrder.place_unique place place'
          exact .inr ⟨j, mem_range.mpr (by omega), rfl⟩
    · intro i' other j place' inside
      simp only
      rw [copiedRows]
      by_cases here : i' = i
      · subst here
        rw [place] at place'
        cases place'
        rw [requestRow_eq i' j, if_pos (by omega), if_pos (by simp), Nat.add_sub_cancel_left,
          before.index, whole, getElem?_append_right (by omega), Nat.add_sub_cancel_left,
          getElem?_append_left (by omega)]
      · have notCopied : ¬ (requestRow batch specTokens i 0 ≤ requestRow batch specTokens i' j ∧
            requestRow batch specTokens i' j <
              requestRow batch specTokens i 0 + (1 + numSpecTokens specTokens reqId)) := by
          rintro ⟨low, high⟩
          have same : requestRow batch specTokens i' j = requestRow batch specTokens i
              (requestRow batch specTokens i' j - requestRow batch specTokens i 0) := by
            rw [requestRow_eq i]
            omega
          exact here (requestRow_inj place' place inside (by omega) same)
        have ne : other ≠ reqId := by
          rintro rfl
          exact here (BatchOrder.place_unique place' place)
        rw [if_neg notCopied, before.masked place' inside]
        simp only [mem_append, mem_singleton, ne, or_false]
  · have first := structOutReqBatchIndices_absent ids specTokens inBatch
    refine ⟨_, by simp only [sortRows, first, ok_bind]; rfl, ?_⟩
    have other {i : Nat} {inside : String} (place : batch.reqIds[i]? = some inside) :
        inside ≠ reqId := fun same => inBatch (same ▸ mem_of_getElem? place)
    refine ⟨before.length, ?_, before.unique, ?_, ?_⟩
    · simp only
      rw [before.index, index, length_append, own]
      omega
    · intro k
      simp only
      rw [before.out k]
      constructor
      · rintro ⟨i, inside, j, place, done, rest⟩
        exact ⟨i, inside, j, place, mem_append_left _ done, rest⟩
      · rintro ⟨i, inside, j, place, done, rest⟩
        rcases mem_append.mp done with done | here
        · exact ⟨i, inside, j, place, done, rest⟩
        · exact absurd (mem_singleton.mp here) (other place)
    · intro i inside j place position
      simp only
      rw [before.masked place position]
      simp only [mem_append, mem_singleton, other place, or_false]

/-- All rows are sorted when the loop over the requests ends, and it does end. -/
theorem sortAll_ok (batch : BatchOrder) (fullMask : B) {count : Nat}
    (unique : ids.Nodup)
    (lengths : ∀ reqId ∈ ids, (rows reqId).length =
      numSpecTokens specTokens reqId + 1)
    (length : count = ((batch.reqIds.map (numSpecTokens specTokens)).map (· + 1)).sum) :
    ∃ sorted, ids.foldlM
        (sortRows (structOutReqBatchIndices batch ids specTokens) specTokens
          (ids.flatMap rows))
        { sortedBitmask := replicate count fullMask, outIndices := [], cumulativeIndex := 0 } =
          .ok sorted ∧
      SortedRows batch specTokens fullMask rows ids sorted := by
  have loop (later prior : List String) (split : ids = prior ++ later)
      (sorted : SortedBitmask B)
      (before : SortedRows batch specTokens fullMask rows prior sorted) :
      ∃ last, later.foldlM
          (sortRows (structOutReqBatchIndices batch ids specTokens)
            specTokens (ids.flatMap rows)) sorted = .ok last ∧
        SortedRows batch specTokens fullMask rows ids last := by
    induction later generalizing prior sorted with
    | nil =>
      rw [append_nil] at split
      exact ⟨sorted, rfl, split ▸ before⟩
    | cons reqId later ih =>
      have fresh : reqId ∉ prior := by
        intro mem
        rw [split] at unique
        exact (disjoint_of_nodup_append unique) mem (mem_cons_self ..)
      obtain ⟨next, step, after⟩ := sortRows_ok split fresh lengths before
      obtain ⟨last, rest, whole⟩ := ih (prior ++ [reqId]) (by simpa using split) next after
      exact ⟨last, by rw [foldlM_cons, step, ok_bind, rest], whole⟩
  exact loop ids [] rfl _ (.start length)

end Sorting

section Kernel
variable {kernel : BitmaskKernel L B} {mask : L → B → L}

/-- The rows of the structured output requests are masked by the rows made for them. -/
theorem applyGrammarBitmask_ok (unique : ids.Nodup)
    (lengths : ∀ reqId ∈ ids, (rows reqId).length =
      numSpecTokens specTokens reqId + 1)
    (length : logits.length = ((batch.reqIds.map (numSpecTokens specTokens)).map (· + 1)).sum)
    (masks : kernel.Masks mask) (unmasked : ∀ row, mask row fullMask = row) :
    ∃ masked, applyGrammarBitmask fullMask batch specTokens kernel ids
        (ids.flatMap rows) logits = .ok masked ∧
      ∀ {i reqId j}, batch.reqIds[i]? = some reqId → j ≤ numSpecTokens specTokens reqId →
        masked[requestRow batch specTokens i j]? = if reqId ∈ ids
          then (logits[requestRow batch specTokens i j]?).bind
            (fun row => ((rows reqId)[j]?).map (mask row))
          else logits[requestRow batch specTokens i j]? := by
  obtain ⟨sorted, sorts, whole⟩ := sortAll_ok batch fullMask unique lengths length
  have bounds : sorted.sortedBitmask.length = logits.length := whole.length.trans length.symm
  -- A row that is not among the indices has the full mask, so that masking all rows is the same.
  have rows (k : Nat) : (kernel logits sorted.sortedBitmask
      (if sorted.outIndices.length = logits.length then none else some sorted.outIndices))[k]? =
      if k ∈ sorted.outIndices then logits[k]?.bind
        (fun row => sorted.sortedBitmask[k]?.map (mask row)) else logits[k]? := by
    split
    · rw [masks.all _ _ bounds]
      split
      · rfl
      · rename_i out
        by_cases inside : k < logits.length
        · obtain ⟨i, n, j, found, within, same⟩ := exists_segment (length ▸ inside)
          rw [getElem?_map, getElem?_map, Option.map_map, Option.map_eq_some_iff] at found
          obtain ⟨reqId, place, rfl⟩ := found
          have position : j ≤ numSpecTokens specTokens reqId := Nat.le_of_lt_succ within
          have isRow : k = requestRow batch specTokens i j := same
          have bits := whole.masked place position
          rw [← isRow, if_neg fun done =>
            out ((whole.out k).mpr ⟨i, reqId, j, place, done, position, isRow⟩)] at bits
          simp [bits, unmasked]
        · simp [getElem?_eq_none (not_lt.mp inside)]
    · exact masks.listed _ _ _ bounds whole.unique k
  refine ⟨_, by rw [applyGrammarBitmask, sorts, ok_bind]; rfl, ?_⟩
  intro i reqId j place inside
  rw [rows]
  have bits := whole.masked place inside
  by_cases done : reqId ∈ ids
  · rw [if_pos done] at bits
    rw [if_pos ((whole.out _).mpr ⟨i, reqId, j, place, done, inside, rfl⟩), if_pos done, bits]
  · rw [if_neg done, if_neg]
    intro out
    obtain ⟨i', other, j', place', done', inside', same⟩ := (whole.out _).mp out
    obtain rfl := requestRow_inj place place' inside inside' same
    rw [place] at place'
    cases place'
    exact done done'

end Kernel

/-- The rows of a step from end to end. A row of the logits is that of a position of the
flattened input, and the bitmask row made for a draft position masks exactly that row. -/
structure RowsLineUp (mgr : StructuredOutputManager G B) (kernel : BitmaskKernel L B)
    (mask : L → B → L) (batch : BatchOrder) (inputIds : List TokenId) (numScheduledTokens : List Nat)
    (specTokens : Dict String (List TokenId))
    (requests : Dict String (Request H × StructuredOutputRequest G))
    (structuredOutputRequestIds : List String) (bitmask : List B) (logits : List L) : Prop where
  prepared : ∃ logitsIndices specDecodeMetadata,
    prepareLogits batch inputIds numScheduledTokens specTokens =
      .ok (logitsIndices, specDecodeMetadata) ∧
    PreparesLogits batch inputIds numScheduledTokens specTokens logitsIndices specDecodeMetadata
  produced : bitmask = structuredOutputRequestIds.flatMap (mgr.rowsOf requests specTokens) ∧
    ∀ reqId ∈ structuredOutputRequestIds,
      (mgr.rowsOf requests specTokens reqId).length = numSpecTokens specTokens reqId + 1
  applied : ∃ masked, applyGrammarBitmask mgr.backend.fullMask batch specTokens kernel
      structuredOutputRequestIds bitmask logits = .ok masked ∧
    ∀ {i reqId j}, batch.reqIds[i]? = some reqId → j ≤ numSpecTokens specTokens reqId →
      masked[requestRow batch specTokens i j]? =
        if reqId ∈ structuredOutputRequestIds
        then (logits[requestRow batch specTokens i j]?).bind
          (fun row => ((mgr.rowsOf requests specTokens reqId)[j]?).map (mask row))
        else logits[requestRow batch specTokens i j]?

theorem logits_rows_line_up (mgr : StructuredOutputManager G B) (kernel : BitmaskKernel L B)
    (mask : L → B → L) (masks : kernel.Masks mask) (batch : BatchOrder) (inputIds : List TokenId)
    (numScheduledTokens : List Nat)
    (specTokens : Dict String (List TokenId)) (buffer bitmask : List B)
    (requests next : Dict String (Request H × StructuredOutputRequest G))
    (structuredOutputRequestIds : List String) (logits : List L)
    (nonempty : batch.reqIds ≠ []) (widths : numScheduledTokens.length = batch.reqIds.length)
    (known : ∀ reqId ∈ specTokens.keys, reqId ∈ batch.reqIds)
    (fits : ∀ entry ∈ batch.reqIds.zip numScheduledTokens,
      numSpecTokens specTokens entry.1 + 1 ≤ entry.2)
    (filled : numScheduledTokens.sum ≤ inputIds.length) (unique : structuredOutputRequestIds.Nodup)
    (speculative : mgr.maxNumSpecTokens = 0 → ∀ reqId ∈ structuredOutputRequestIds,
      numSpecTokens specTokens reqId = 0)
    (made : mgr.grammarBitmask buffer requests structuredOutputRequestIds specTokens =
      .ok (some bitmask, next)) (unmasked : ∀ row, mask row mgr.backend.fullMask = row)
    (length : logits.length = ((batch.reqIds.map (numSpecTokens specTokens)).map (· + 1)).sum) :
    RowsLineUp mgr kernel mask batch inputIds numScheduledTokens specTokens requests
      structuredOutputRequestIds bitmask logits := by
  obtain ⟨rfl, lengths⟩ := StructuredOutputManager.grammarBitmask_ok unique speculative made
  constructor
  · refine prepareLogits_ok nonempty widths known ?_ filled
    intro i s reqId place scheduled
    refine fits (reqId, s) (mem_of_getElem? (i := i) ?_)
    rw [getElem?_zip_eq_some]
    exact ⟨place, scheduled⟩
  · exact ⟨rfl, lengths⟩
  · exact applyGrammarBitmask_ok unique lengths length masks unmasked

def countingManager : StructuredOutputManager Nat Nat where
  backend := {
    isTerminated := fun _ => false
    fillBitmask := fun count => count + 1
    fullMask := 0
    acceptTokens := fun count tokens => (true, count + tokens.length)
    rollback := fun count numTokens => count - numTokens }
  maxNumSpecTokens := 2

def countedRequest (requestId : String) (grammar : Nat) :
    Request Nat × StructuredOutputRequest Nat :=
  ({ requestId := requestId, promptTokenIds := none, numPromptTokens := 0, allTokenIds := [] },
    { grammar := grammar })

def rowKernel (mask : L → B → L) : BitmaskKernel L B := fun logits bitmask indices =>
  logits.mapIdx (fun k row =>
    if indices.all (k ∈ ·) then bitmask[k]?.elim row (mask row) else row)

theorem rowKernel_masks (mask : L → B → L) : (rowKernel mask).Masks mask := by
  constructor <;> intros <;> simp only [rowKernel, getElem?_mapIdx] <;> grind

/-- Requests with two, no and one draft; the grammar follows the last and the first. -/
theorem logits_rows_line_up_three : ∃ bitmask next, countingManager.grammarBitmask (replicate 9 0)
      ((Dict.empty.set "a" (countedRequest "a" 10)).set "c" (countedRequest "c" 20)) ["c", "a"]
      ((Dict.empty.set "a" [5, 6]).set "c" [7]) = .ok (some bitmask, next) ∧
    bitmask = [21, 22, 11, 12, 13] ∧
    let mask := fun (row : Nat) bits => if bits = 0 then row else 1000 * bits + row
    RowsLineUp countingManager (rowKernel mask) mask
      ⟨["a", "b", "c"], by decide⟩ ((range 9).map Int.ofNat) [4, 2, 3]
      ((Dict.empty.set "a" [5, 6]).set "c" [7])
      ((Dict.empty.set "a" (countedRequest "a" 10)).set "c" (countedRequest "c" 20)) ["c", "a"]
      bitmask [0, 1, 2, 3, 4, 5] := by
  refine ⟨[21, 22, 11, 12, 13], _, rfl, rfl, ?_⟩
  exact logits_rows_line_up countingManager _ _ (rowKernel_masks _) _ _ _ _ (replicate 9 0)
    _ _ _ _ _ (by decide) rfl (by decide) (by decide) (by decide) (by decide)
    (by decide) rfl (by simp [countingManager]) (by decide)

end Vllm
