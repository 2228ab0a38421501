import Vllm.Worker.RunnerUpdate

/-! How the log probabilities of a prompt are collected chunk by chunk. The hidden states of a
request stand together, in the order of its positions, at the place that `query_start_loc` has for
its index; a chunk that starts where the rows written so far end extends them. -/
namespace Vllm.Worker
open List hiding next
open Py Dict Option

theorem length_copySlice (ran : copySlice rows start chunk = .ok next) :
    next.length = rows.length := by
  rw [copySlice] at ran
  split at ran
  · rename_i fits
    cases ran
    simp only [length_append, length_take, length_map, length_drop]
    omega
  · cases ran

theorem getElem?_copySlice (ran : copySlice rows start chunk = .ok next) (i : Nat) :
    next[i]? = if start ≤ i ∧ i < start + chunk.length then (chunk[i - start]?).map some
      else rows[i]? := by
  rw [copySlice] at ran
  split at ran
  · rename_i fits
    cases ran
    have taken : (rows.take start).length = start := by
      rw [length_take]
      omega
    rw [append_assoc, getElem?_append, taken]
    by_cases before : i < start
    · rw [if_pos before, getElem?_take, if_pos before, if_neg (by omega)]
    · rw [if_neg before, getElem?_append, length_map]
      by_cases inside : i - start < chunk.length
      · rw [if_pos inside, if_pos (by omega), getElem?_map]
      · rw [if_neg inside, if_neg (by omega), getElem?_drop]
        congr 1
        omega
  · cases ran

/-- The first rows of the prompt's tensor have been written, each from the hidden state at its
position for the token after it. -/
structure Filled (reqId : String) (prompt : List TokenId) (rows : List (Option LogprobsRow))
    (written : Nat) : Prop where
  length : rows.length = prompt.length - 1
  row : ∀ i < written, i < prompt.length - 1 →
    rows[i]? = some (some ⟨(reqId, i), prompt.getD (i + 1) 0⟩)

def promptRows (reqId : String) (prompt : List TokenId) : List (Option LogprobsRow) :=
  (range (prompt.length - 1)).map (fun i => some ⟨(reqId, i), prompt.getD (i + 1) 0⟩)

namespace Filled
variable {reqId : String} {prompt : List TokenId} {rows : List (Option LogprobsRow)}
  {written : Nat}

theorem mono (filled : Filled reqId prompt rows written) (le : fewer ≤ written) :
    Filled reqId prompt rows fewer :=
  ⟨filled.length, fun i below => filled.row i (below.trans_le le)⟩

theorem empty (reqId : String) (prompt : List TokenId) (width : Int) :
    Filled reqId prompt (LogprobsTensors.emptyCpu (prompt.length - 1) width).rows 0 :=
  ⟨length_replicate, fun i below => absurd below (Nat.not_lt_zero i)⟩

/-- From the last row on nothing is missing. -/
theorem of_enough (filled : Filled reqId prompt rows fewer) (enough : prompt.length ≤ fewer + 1) :
    Filled reqId prompt rows written :=
  ⟨filled.length, fun i _ inside => filled.row i (by omega) inside⟩

theorem complete (filled : Filled reqId prompt rows written)
    (enough : prompt.length ≤ written + 1) : rows = promptRows reqId prompt := by
  apply ext_getElem?
  intro i
  by_cases inside : i < prompt.length - 1
  · rw [filled.row i (by omega) inside, promptRows, getElem?_map, getElem?_range inside]
    rfl
  · rw [getElem?_eq_none (by rw [filled.length]; omega), promptRows,
      getElem?_eq_none (by rw [length_map, length_range]; omega)]

end Filled

namespace ModelRunner
variable {runner next : ModelRunner} {counts : List (String × Nat)} {reqId : String}

/-- The hidden states of a request start where `query_start_loc` says. -/
theorem hidden_slice (batch : InputBatch)
    (here : counts[index]? = some (reqId, numTokens)) (enough : numLogits ≤ numTokens) :
    ((hiddenStates batch counts).drop (queryStartLoc counts index)).take numLogits =
      (range numLogits).map (fun i => (reqId, batch.numComputedTokensCpu index + i)) := by
  have inside : index < counts.length := (List.getElem?_eq_some_iff.mp here).1
  have lengths : (counts.mapIdx (fun index entry => (range entry.2).map (fun i =>
      (entry.1, batch.numComputedTokensCpu index + i)))).map length = counts.map Prod.snd := by
    apply ext_getElem?
    intro k
    simp only [getElem?_map, getElem?_mapIdx]
    cases counts[k]? <;> simp
  rw [hiddenStates, queryStartLoc, map_take, ← lengths, drop_sum_flatten,
    drop_eq_getElem_cons (by rw [length_mapIdx]; exact inside), flatten_cons,
    getElem_mapIdx]
  have entry : counts[index] = (reqId, numTokens) := by
    rw [getElem?_eq_getElem inside] at here
    exact some.inj here
  rw [entry, take_append_of_le_length (by simpa using enough), ← map_take,
    take_range, min_eq_left enough]

/-- A chunk that starts at the count of computed tokens extends the rows that are written. -/
theorem writeChunk_filled (place : runner.batch.reqIdToIndex.get? reqId = some index)
    (here : counts[index]? = some (reqId, numTokens)) (enough : numLogits ≤ numTokens)
    (count : runner.batch.numComputedTokensCpu index = startIdx)
    (inside : startIdx + 1 + numLogits ≤ prompt.length)
    (filled : Filled reqId prompt tensors.rows startIdx) :
    ∃ written, runner.writeChunk counts reqId prompt startIdx numLogits tensors = .ok written ∧
      Filled reqId prompt written.rows (startIdx + numLogits) := by
  have hidden := hidden_slice runner.batch here enough
  have targetsLength : ((prompt.drop (startIdx + 1)).take numLogits).length = numLogits := by
    rw [length_take, length_drop]
    omega
  have hiddenLength : (((hiddenStates runner.batch counts).drop
      (queryStartLoc counts index)).take numLogits).length = numLogits := by
    rw [hidden, length_map, length_range]
  have chunkLength : (zipWith LogprobsRow.mk
      (((hiddenStates runner.batch counts).drop (queryStartLoc counts index)).take numLogits)
      ((prompt.drop (startIdx + 1)).take numLogits)).length = numLogits := by
    rw [length_zipWith, hiddenLength, targetsLength, min_self]
  have fits : startIdx + (zipWith LogprobsRow.mk
      (((hiddenStates runner.batch counts).drop (queryStartLoc counts index)).take numLogits)
      ((prompt.drop (startIdx + 1)).take numLogits)).length ≤ tensors.rows.length := by
    rw [filled.length]
    omega
  obtain ⟨rows, copied⟩ : ∃ rows, copySlice tensors.rows startIdx (zipWith LogprobsRow.mk
      (((hiddenStates runner.batch counts).drop (queryStartLoc counts index)).take numLogits)
      ((prompt.drop (startIdx + 1)).take numLogits)) = .ok rows := by
    rw [copySlice, if_pos fits]
    exact ⟨_, rfl⟩
  refine ⟨{ tensors with rows }, ?_, ?_, ?_⟩
  · simp only [writeChunk, place]
    rw [if_neg (by rw [hiddenLength, targetsLength]; simp), copied]
    rfl
  · rw [length_copySlice copied, filled.length]
  · intro i _ last
    rw [getElem?_copySlice copied]
    by_cases early : i < startIdx
    · rw [if_neg (by omega)]
      exact filled.row i early last
    · rw [if_pos (by omega), hidden, getElem?_zipWith, getElem?_map,
        getElem?_range (by omega), getElem?_take, if_pos (by omega), getElem?_drop,
        getElem?_eq_getElem (by omega), getD_eq_getElem _ _ (by omega)]
      simp only [map_some]
      congr 4
      · omega
      · omega

variable {granted : Dict String Nat} {prompt : List TokenId} {startIdx numTokens : Nat}
  {update after : LogprobsUpdate} {entry : String × Int}

section
variable (runner : ModelRunner) (numScheduledTokens : Dict String Nat) (reqId : String)

/-- The prompt of a request that has a chunk in this step, where the chunk starts, and how many
tokens it has. -/
def chunkOf : Option (List TokenId × Nat × Nat) := do
  let numTokens ← numScheduledTokens.get? reqId
  let req ← runner.requests.get? reqId
  let prompt ← req.promptTokenIds
  some (prompt, req.numComputedTokens, numTokens)

def lastChunk : Bool :=
  (runner.chunkOf numScheduledTokens reqId).any
    (fun (prompt, startIdx, numTokens) => prompt.length ≤ startIdx + numTokens)

end

theorem chunkOf_eq_some : runner.chunkOf granted reqId = some (prompt, startIdx, numTokens) ↔
      granted.get? reqId = some numTokens ∧
        ∃ req, runner.requests.get? reqId = some req ∧
          req.promptTokenIds = some prompt ∧ req.numComputedTokens = startIdx := by
  simp only [chunkOf, bind_eq_bind, bind_eq_some_iff, some.injEq, Prod.mk.injEq]
  constructor
  · rintro ⟨_, scheduled, req, found, _, given, rfl, rfl, rfl⟩
    exact ⟨scheduled, req, found, given, rfl⟩
  · rintro ⟨scheduled, req, found, given, rfl⟩
    exact ⟨_, scheduled, req, found, _, given, rfl, rfl, rfl⟩

/-- A request whose chunk is to be collected: it is in the batch with its count of computed tokens,
and its rows are written up to there. -/
structure Ready (runner : ModelRunner) (counts : List (String × Nat)) (reqId : String)
    (numPromptLogprobs : Int) (prompt : List TokenId) (startIdx numTokens : Nat) : Prop where
  index : ∃ index, runner.batch.reqIdToIndex.get? reqId = some index ∧
    counts[index]? = some (reqId, numTokens) ∧ runner.batch.numComputedTokensCpu index = startIdx
  filled : Filled reqId prompt ((runner.inProgressPromptLogprobs.get? reqId).getD
    (.emptyCpu (prompt.length - 1) (numPromptLogprobs + 1))).rows startIdx

/-- A request that is not scheduled or has no prompt tokens is left alone. -/
theorem promptLogprobsRound_idle (idle : runner.chunkOf granted entry.1 = none)
    (ran : runner.promptLogprobsRound counts granted update entry = .ok after) :
    after = update := by
  rw [promptLogprobsRound] at ran
  split at ran
  · cases ran
    rfl
  · split at ran
    · cases ran
    · split at ran
      · cases ran
        rfl
      · simp [chunkOf, *] at idle

/-- One round on a request that is ready. -/
theorem promptLogprobsRound_ready
    (chunk : runner.chunkOf granted entry.1 = some (prompt, startIdx, numTokens))
    (ready : Ready runner counts entry.1 entry.2 prompt startIdx numTokens)
    (same : update.inProgress.get? entry.1 = runner.inProgressPromptLogprobs.get? entry.1)
    (ran : runner.promptLogprobsRound counts granted update entry = .ok after) :
    ∃ tensors, after = {
        inProgress := update.inProgress.set entry.1 tensors
        completed := if prompt.length ≤ startIdx + numTokens then
          update.completed ++ [(entry.1, tensors)] else update.completed } ∧
      Filled entry.1 prompt tensors.rows (startIdx + numTokens) := by
  obtain ⟨index, place, here, count⟩ := ready.index
  have filled := ready.filled
  rw [← same] at filled
  obtain ⟨scheduled, req, found, given, rfl⟩ := chunkOf_eq_some.mp chunk
  simp only [promptLogprobsRound, scheduled, found, given] at ran
  split at ran
  · cases ran
  have last : decide ((prompt.length : Int) - (req.numComputedTokens + 1) < numTokens) = true ↔
      prompt.length ≤ req.numComputedTokens + numTokens := by
    rw [decide_eq_true_eq]
    omega
  by_cases done : prompt.length ≤ req.numComputedTokens + numTokens
  · simp only [last.mpr done, if_true] at ran
    split at ran
    · -- All rows had been written before.
      cases ran
      exact ⟨_, by rw [if_pos done], filled.of_enough (by omega)⟩
    · obtain ⟨tensors, chunk, ran⟩ := bind_ok ran
      cases ran
      have enough : ((prompt.length : Int) - (req.numComputedTokens + 1)).toNat ≤ numTokens := by
        omega
      obtain ⟨written, wrote, extended⟩ := writeChunk_filled place here enough count (by omega)
        filled
      rw [chunk] at wrote
      cases wrote
      exact ⟨tensors, by rw [if_pos done], extended.of_enough (by omega)⟩
  · simp only [mt last.mp done, Bool.false_eq_true, if_false, Int.toNat_natCast] at ran
    split at ran
    · cases ran
      exact ⟨_, by rw [if_neg done], filled.mono (by omega)⟩
    · obtain ⟨tensors, chunk, ran⟩ := bind_ok ran
      cases ran
      obtain ⟨written, wrote, extended⟩ := writeChunk_filled place here le_rfl count (by omega)
        filled
      rw [chunk] at wrote
      cases wrote
      exact ⟨tensors, by rw [if_neg done], extended⟩

structure Collected (runner : ModelRunner) (numScheduledTokens : Dict String Nat)
    (prior : List String) (update : LogprobsUpdate) : Prop where
  others : ∀ reqId, reqId ∉ prior ∨ runner.chunkOf numScheduledTokens reqId = none →
    update.inProgress.get? reqId = runner.inProgressPromptLogprobs.get? reqId
  chunks : ∀ reqId ∈ prior, ∀ prompt startIdx numTokens,
    runner.chunkOf numScheduledTokens reqId = some (prompt, startIdx, numTokens) →
    ∃ tensors, update.inProgress.get? reqId = some tensors ∧
      Filled reqId prompt tensors.rows (startIdx + numTokens)
  completed : update.completed.map Prod.fst = prior.filter (runner.lastChunk numScheduledTokens)
  results : ∀ result ∈ update.completed, update.inProgress.get? result.1 = some result.2

theorem Collected.round (collected : Collected runner granted prior update)
    (fresh : entry.1 ∉ prior) (ready : ∀ prompt startIdx numTokens,
      runner.chunkOf granted entry.1 = some (prompt, startIdx, numTokens) →
      Ready runner counts entry.1 entry.2 prompt startIdx numTokens)
    (ran : runner.promptLogprobsRound counts granted update entry = .ok after) :
    Collected runner granted (prior ++ [entry.1]) after := by
  cases chunk : runner.chunkOf granted entry.1 with
  | none =>
    cases promptLogprobsRound_idle chunk ran
    refine ⟨?_, ?_, ?_, collected.results⟩
    · intro reqId other
      refine collected.others reqId (other.imp_left ?_)
      exact mt (mem_append_left _)
    · intro reqId mem prompt startIdx numTokens found
      rcases mem_append.mp mem with before | itself
      · exact collected.chunks reqId before prompt startIdx numTokens found
      · rw [mem_singleton.mp itself, chunk] at found
        cases found
    · simp [collected.completed, lastChunk, chunk]
  | some chunked =>
    obtain ⟨prompt, startIdx, numTokens⟩ := chunked
    obtain ⟨tensors, rfl, filled⟩ := promptLogprobsRound_ready chunk
      (ready prompt startIdx numTokens chunk) (collected.others entry.1 (.inl fresh)) ran
    constructor
    · intro reqId other
      have apart : reqId ≠ entry.1 := by
        rintro rfl
        simp [chunk] at other
      rw [get?_set, if_neg apart]
      exact collected.others reqId (other.imp_left (mt (mem_append_left _)))
    · intro reqId mem prompt' startIdx' numTokens' found
      rw [get?_set]
      rcases mem_append.mp mem with before | itself
      · rw [if_neg (ne_of_mem_of_not_mem before fresh)]
        exact collected.chunks reqId before prompt' startIdx' numTokens' found
      · obtain rfl := mem_singleton.mp itself
        cases chunk.symm.trans found
        exact ⟨tensors, if_pos rfl, filled⟩
    · by_cases enough : prompt.length ≤ startIdx + numTokens
      · simp [collected.completed, lastChunk, chunk, enough]
      · simp [collected.completed, lastChunk, chunk, enough]
    · intro result mem
      have cases' : result ∈ update.completed ∨ result = (entry.1, tensors) := by
        split at mem
        · simpa using mem
        · exact .inl mem
      rcases cases' with before | rfl
      · have listed := mem_map_of_mem (f := Prod.fst) before
        rw [collected.completed] at listed
        rw [get?_set, if_neg (ne_of_mem_of_not_mem (mem_of_mem_filter listed) fresh)]
        exact collected.results result before
      · rw [get?_set, if_pos rfl]

/-- The whole loop: the requests that reach the end of their prompt are returned and dropped. -/
theorem getPromptLogprobsDict_spec (ready : ∀ reqId numPromptLogprobs prompt startIdx numTokens,
      runner.numPromptLogprobs.get? reqId = some numPromptLogprobs →
      runner.chunkOf granted reqId = some (prompt, startIdx, numTokens) →
      Ready runner counts reqId numPromptLogprobs prompt startIdx numTokens)
    (ran : runner.getPromptLogprobsDict counts granted = .ok (results, next)) :
    ∃ update, Collected runner granted runner.numPromptLogprobs.keys update ∧
      results = update.completed ∧ next = { runner with
        numPromptLogprobs := (update.completed.map Prod.fst).foldl erase
          runner.numPromptLogprobs
        inProgressPromptLogprobs := (update.completed.map Prod.fst).foldl erase
          update.inProgress } := by
  obtain ⟨update, looped, ran⟩ := bind_ok ran
  cases ran
  refine ⟨update, ?_, rfl, rfl⟩
  refine foldlM_items (fun prior => Collected runner granted (prior.map Prod.fst))
    ?_ ?_ looped
  · intro prior entry _ _ _ split collected stepped
    have distinct := runner.numPromptLogprobs.nodup
    rw [split, map_append] at distinct
    have fresh : entry.1 ∉ prior.map Prod.fst :=
      fun again => (disjoint_of_nodup_append distinct) again (mem_cons_self ..)
    rw [map_append]
    refine collected.round fresh ?_ stepped
    intro prompt startIdx numTokens
    exact ready entry.1 entry.2 prompt startIdx numTokens (get?_eq_some.mpr (by rw [split]; simp))
  · exact ⟨fun _ _ => rfl, by simp, rfl, by simp⟩

end ModelRunner
end Vllm.Worker
