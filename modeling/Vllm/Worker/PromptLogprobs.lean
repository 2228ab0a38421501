import Vllm.Lib.Run
import Vllm.Worker.PromptChunks

/-! Prompt log probabilities over any steps of the runner. Beside the runner stands how far each
request that asked for them has come, and everything that was returned. -/
namespace Vllm.Worker
open List hiding next
open Py Dict Option

/-- The runner after the sampled tokens have been cached, as far as prompts are concerned. -/
structure ModelRunner.SamePrompts (runner after : ModelRunner) : Prop where
  ids : after.batch.reqIds = runner.batch.reqIds
  map : after.batch.reqIdToIndex = runner.batch.reqIdToIndex
  builder : after.batch.batchUpdateBuilder = runner.batch.batchUpdateBuilder
  cells : after.batch.numComputedTokensCpu = runner.batch.numComputedTokensCpu
  requests : ∀ reqId, (after.requests.get? reqId).map (fun req =>
      (req.reqId, req.promptTokenIds, req.numComputedTokens)) =
    (runner.requests.get? reqId).map (fun req =>
      (req.reqId, req.promptTokenIds, req.numComputedTokens))
  pending : after.numPromptLogprobs = runner.numPromptLogprobs
  collected : after.inProgressPromptLogprobs = runner.inProgressPromptLogprobs

namespace ModelRunner
variable {runner after : ModelRunner} {out : SchedulerOutput}

section
variable (same : SamePrompts runner after)
include same

theorem SamePrompts.cacheSampled
    (ran : after.cacheSampled entry = .ok next) : SamePrompts runner next := by
  obtain ⟨batch, wrote, ran⟩ := bind_ok ran
  obtain ⟨ids, map, builder, -⟩ := InputBatch.updateRow_layout wrote
  have cells : batch.numComputedTokensCpu = after.batch.numComputedTokensCpu := by
    rw [InputBatch.updateRow] at wrote
    split at wrote
    · cases wrote
    · cases wrote
      rfl
  split at ran
  · cases ran
  rename_i req found
  cases ran
  refine ⟨ids.trans same.ids, map.trans same.map, builder.trans same.builder,
    cells.trans same.cells, ?_, same.pending, same.collected⟩
  intro _
  rw [← same.requests, get?_set]
  split
  · rename_i itself
    rw [itself, found]
    rfl
  · rfl

theorem SamePrompts.request {req : CachedRequestState} (found : after.requests.get? reqId = some req) :
    ∃ before, runner.requests.get? reqId = some before ∧ before.reqId = req.reqId ∧
      before.promptTokenIds = req.promptTokenIds ∧
      before.numComputedTokens = req.numComputedTokens := by
  have both := same.requests reqId
  rw [found] at both
  obtain ⟨before, loc, equal⟩ := map_eq_some_iff.mp both.symm
  simp only [Prod.mk.injEq] at equal
  exact ⟨before, loc, equal⟩

theorem SamePrompts.counts : after.counts = runner.counts := by
  funext reqId
  have both := congrArg (Option.map (fun entry : String × Option (List TokenId) × Nat => entry.2.2))
    (same.requests reqId)
  rw [Option.map_map, Option.map_map] at both
  rw [ModelRunner.counts, same.map, ModelRunner.counts]
  cases runner.batch.reqIdToIndex.get? reqId with
  | none => rfl
  | some index => exact both

theorem SamePrompts.consistent (consistent : runner.Consistent) : after.Consistent := by
  have occ : after.batch.occupant = runner.batch.occupant := by
    funext i
    rw [InputBatch.occupant, same.ids, InputBatch.occupant]
  refine ⟨⟨consistent.closed.toOpen.of_layout same.ids same.map same.builder,
    same.builder.trans consistent.closed.settled⟩, ⟨?_, ?_⟩, ?_, ?_⟩
  · rw [same.map, same.counts]
    exact consistent.counted.known
  · rw [same.counts, occ, same.cells]
    exact consistent.counted.computed
  · intro reqId req found
    obtain ⟨before, loc, named, -⟩ := same.request found
    rw [← named]
    exact consistent.named reqId before loc
  · intro reqId tensors found
    rw [same.collected] at found
    rw [Holds, same.map]
    exact consistent.started reqId tensors found

end

theorem executeModel_ok (ran : runner.executeModel out sampled = .ok (results, next)) :
    ∃ updated, runner.updateStates out = .ok updated ∧
      (out.totalNumScheduledTokens = 0 ∧ results = [] ∧ next = updated ∨
        ∃ counts cached, updated.batch.reqIds.mapM (scheduledTokens out.numScheduledTokens) =
            .ok counts ∧ SamePrompts updated cached ∧
          cached.getPromptLogprobsDict counts out.numScheduledTokens = .ok (results, next)) := by
  obtain ⟨updated, ranUpdate, ran⟩ := bind_ok ran
  refine ⟨updated, ranUpdate, ?_⟩
  split at ran
  · rename_i nothing
    cases ran
    exact .inl ⟨nothing, rfl, rfl⟩
  · obtain ⟨counts, counted, ran⟩ := bind_ok ran
    obtain ⟨cached, looped, ran⟩ := bind_ok ran
    refine .inr ⟨counts, cached, counted, ?_, ran⟩
    exact foldlM_invariant (SamePrompts updated)
      (fun _ same stepped => same.cacheSampled stepped)
      ⟨rfl, rfl, rfl, rfl, fun _ => rfl, rfl, rfl⟩ looped

/-- The counts are those of the requests at their indices. -/
theorem counts_get? {ids : List (Option String)}
    {counts : List (String × Nat)} (ran : ids.mapM (scheduledTokens numScheduledTokens) = .ok counts)
    {index : Nat} (here : ids[index]? = some (some reqId)) :
    ∃ numTokens, numScheduledTokens.get? reqId = some numTokens ∧
      counts[index]? = some (reqId, numTokens) := by
  induction ids generalizing counts index with
  | nil => cases here
  | cons first ids ih =>
    rw [mapM_cons] at ran
    obtain ⟨_, one, ran⟩ := bind_ok ran
    obtain ⟨_, more, ran⟩ := bind_ok ran
    cases ran
    cases index with
    | zero =>
      rw [getElem?_cons_zero, some.injEq] at here
      subst here
      simp only [scheduledTokens] at one
      split at one
      · cases one
      · rename_i numTokens found
        cases one
        exact ⟨numTokens, found, rfl⟩
    | succ index => exact ih more here

end ModelRunner

structure Progress where
  /-- Where its last chunk ended. -/
  chunkEnd : Nat := 0
  /-- Some chunk reached the end of the prompt. -/
  passed : Bool := false
  returned : Nat := 0
  deriving DecidableEq, Repr

structure PromptRun where
  runner : ModelRunner
  progress : String → Option Progress := fun _ => none
  /-- What was returned: the request, its prompt and its tensors. -/
  log : List (String × List TokenId × LogprobsTensors) := []

structure RunnerStep where
  out : SchedulerOutput
  sampled : List (String × List TokenId) := []

namespace PromptRun

instance (runner : ModelRunner) (out : SchedulerOutput) (reqId : String) :
    Decidable (runner.Registers out reqId) := by
  unfold ModelRunner.Registers
  infer_instance

section
variable (state : PromptRun) (step : RunnerStep) (runner : ModelRunner) (out : SchedulerOutput)

def register (reqId : String) : Option Progress :=
  if state.runner.Registers out reqId then some {}
  else if reqId ∈ out.finishedReqIds then none
  else state.progress reqId

def promptOf (reqId : String) : Option (List TokenId × Nat) :=
  (runner.requests.get? reqId).bind (fun req =>
    req.promptTokenIds.map (fun prompt => (prompt, req.numComputedTokens)))

def advance (results : List (String × LogprobsTensors))
    (reqId : String) (progress : Progress) : Progress :=
  let returned := progress.returned + (results.map Prod.fst).count reqId
  match out.numScheduledTokens.get? reqId, promptOf runner reqId with
  | some numTokens, some (prompt, numComputedTokens) => {
      chunkEnd := numComputedTokens + numTokens
      passed := progress.passed || decide (prompt.length ≤ numComputedTokens + numTokens)
      returned }
  | _, _ => { progress with returned }

def exec : Py PromptRun := do
  let done ← state.runner.executeModel step.out step.sampled
  .ok {
    runner := done.2
    progress := fun reqId => (state.register step.out reqId).map
      (advance done.2 step.out done.1 reqId)
    log := state.log ++ done.1.map (fun result =>
      (result.1, ((promptOf done.2 result.1).map Prod.fst).getD [], result.2)) }

def init (useAsyncScheduling : Bool) (maxNumReqs vocabSize : Nat) (blocksPerKvBlock : List Nat) :
    PromptRun where
  runner := { useAsyncScheduling, batch := .init maxNumReqs vocabSize false blocksPerKvBlock }

/-- All rows of what was returned are those of the prompt, and a request whose prompt has been
passed was returned once, any other not at all. -/
structure Complete : Prop where
  rows : ∀ entry ∈ state.log, entry.2.2.rows = promptRows entry.1 entry.2.1
  once : ∀ reqId progress, state.progress reqId = some progress →
    progress.returned = if progress.passed then 1 else 0

/-- Where the next chunk of a request may start at most. -/
def chunkEnd (state : PromptRun) (reqId : String) : Nat :=
  ((state.progress reqId).map Progress.chunkEnd).getD 0

/-- The scheduler names each scheduled request once; a request whose prompt log probabilities are
not complete starts at position 0 when it is added to the batch, for the first time or again, and
as long as it stays in the batch its chunks leave no gap. -/
structure Allowed : Prop where
  listed : ModelRunner.Listed step.out
  starts : ∀ new ∈ step.out.scheduledNewReqs, new.promptLogprobs.isSome = true ∨
      state.runner.numPromptLogprobs.contains new.reqId = true ∧
        new.reqId ∉ step.out.finishedReqIds →
    new.numComputedTokens = 0
  continues : ∀ entry ∈ step.out.scheduledCachedReqs,
    state.runner.numPromptLogprobs.contains entry.reqId = true →
    if state.runner.batch.reqIdToIndex.contains entry.reqId = true ∧
        entry.reqId ∉ step.out.resumedReqIds then
      entry.numComputedTokens ≤ state.chunkEnd entry.reqId
    else entry.numComputedTokens = 0

structure Sound : Prop extends Complete state where
  consistent : state.runner.Consistent
  pending : ∀ reqId, (state.runner.numPromptLogprobs.get? reqId).isSome = true ↔
    ∃ progress, state.progress reqId = some progress ∧ progress.passed = false
  chunks : ∀ reqId progress req prompt, state.progress reqId = some progress →
    progress.passed = false → state.runner.Holds reqId →
    state.runner.requests.get? reqId = some req → req.promptTokenIds = some prompt →
    ∃ tensors, state.runner.inProgressPromptLogprobs.get? reqId = some tensors ∧
      Filled reqId prompt tensors.rows progress.chunkEnd ∧
      req.numComputedTokens ≤ progress.chunkEnd

theorem init_sound (useAsyncScheduling : Bool) (maxNumReqs vocabSize : Nat)
    (blocksPerKvBlock : List Nat) :
    (init useAsyncScheduling maxNumReqs vocabSize blocksPerKvBlock).Sound where
  rows _ mem := by cases mem
  once _ _ found := by cases found
  consistent := ⟨InputBatch.init_closed, ⟨fun _ => rfl, fun i => ⟨fun _ => trivial, fun key row here => by
      simp [init, InputBatch.init, InputBatch.occupant] at here⟩⟩,
    fun _ _ found => by (cases found), fun _ _ found => by (cases found)⟩
  pending _ := by simp [init]
  chunks _ _ _ _ found := by cases found

end

section Steps
variable {state : PromptRun} {step : RunnerStep} {update : StateUpdate} {updated : ModelRunner}
  {reqId : String}

section
variable (sound : state.Sound) (allowed : state.Allowed step)
  (spec : ModelRunner.Updated state.runner step.out update updated)
include sound allowed spec

/-- Where a request that stays in the batch continues. -/
theorem Sound.ready_kept (pending : (updated.numPromptLogprobs.get? reqId).isSome = true)
    (holds : state.runner.Holds reqId) (stays : reqId ∉ update.removals)
    (found : updated.requests.get? reqId = some req)
    (given : req.promptTokenIds = some prompt) :
    ∃ tensors, updated.inProgressPromptLogprobs.get? reqId = some tensors ∧
      Filled reqId prompt tensors.rows req.numComputedTokens := by
  have unfinished : reqId ∉ step.out.finishedReqIds :=
    fun mem => stays (spec.gathered.dropped reqId (mem_append_left _ mem))
  obtain ⟨before, _, loc, current, samePrompt, count⟩ := spec.gathered.kept reqId stays holds
  rw [← spec.requests, found] at current
  cases current
  have old : (state.runner.numPromptLogprobs.get? reqId).isSome = true := by
    rcases (spec.pending reqId).mp pending with asked | ⟨_, -, -, -, unknown⟩
    · exact asked.1
    · rw [ModelRunner.dropRequests, get?_foldl_erase, if_neg unfinished, loc] at unknown
      cases unknown
  obtain ⟨progress, known, unpassed⟩ := (sound.pending reqId).mp old
  obtain ⟨tensors, collected, filled, bound⟩ := sound.chunks reqId progress before prompt known
    unpassed holds loc (samePrompt.symm.trans given)
  refine ⟨tensors, ?_, filled.mono ?_⟩
  · rw [spec.collected, if_neg (fun gone => stays gone.1)]
    exact collected
  · rcases count with same | ⟨entry, mem, named, same⟩
    · rw [same]
      exact bound
    · have rule := allowed.continues entry mem (by rw [named]; exact old)
      have resumed : reqId ∉ step.out.resumedReqIds := by
        intro again
        apply stays
        refine spec.gathered.dropped reqId (mem_append_right _ ?_)
        rw [ModelRunner.unscheduledReqIds, mem_filter, mem_filter]
        obtain ⟨index, place⟩ := isSome_iff_exists.mp holds
        exact ⟨⟨mem_keys.mpr ⟨index, place⟩, by simpa using unfinished⟩, by simp [again]⟩
      rw [named, if_pos ⟨holds, resumed⟩, chunkEnd, known] at rule
      rw [same]
      exact rule

/-- A request that is added starts over. -/
theorem Sound.ready_added (pending : (updated.numPromptLogprobs.get? reqId).isSome = true)
    (added : reqId ∈ update.reqsToAdd) (found : updated.requests.get? reqId = some req) :
    updated.inProgressPromptLogprobs.get? reqId = none ∧ req.numComputedTokens = 0 := by
  obtain ⟨away, _, current, origin⟩ := spec.gathered.added reqId added
  rw [← spec.requests, found] at current
  cases current
  have apart := disjoint_of_nodup_append allowed.listed.distinct
  constructor
  · rw [spec.collected]
    split
    · rfl
    · rename_i kept
      cases old : state.runner.inProgressPromptLogprobs.get? reqId with
      | none => rfl
      | some tensors =>
        have holds := sound.consistent.started reqId tensors old
        exact (away.elim (fun removed => kept ⟨removed, holds⟩) (fun nobody => nobody holds)).elim
  · rcases origin with ⟨new, mem, named, same⟩ | ⟨entry, mem, named, same⟩
    · rw [same]
      apply allowed.starts new mem
      rcases (spec.pending reqId).mp pending with asked | ⟨_, listed, sameName, asked, -⟩
      · exact .inr ⟨by rw [named]; exact asked.1, by rw [named]; exact asked.2⟩
      · have equal := inj_on_of_nodup_map
          (nodup_append.mp allowed.listed.distinct).1 listed mem
          (sameName.trans named.symm)
        exact .inl (equal ▸ asked)
    · have cached : reqId ∈ step.out.scheduledCachedReqs.map CachedRequestData.reqId :=
        named ▸ mem_map_of_mem mem
      have old : (state.runner.numPromptLogprobs.get? reqId).isSome = true := by
        rcases (spec.pending reqId).mp pending with asked | ⟨new, listed, sameName, -⟩
        · exact asked.1
        · exact (apart (sameName ▸ mem_map_of_mem listed) cached).elim
      have rule := allowed.continues entry mem (by rw [named]; exact old)
      rw [named, if_neg ?_, ← same] at rule
      · exact rule
      · rintro ⟨holds, fresh⟩
        rcases away with removed | nobody
        · rcases spec.gathered.removals reqId removed with finished | unscheduled | renewed
          · exact allowed.listed.unfinished entry mem (named ▸ finished)
          · rw [ModelRunner.unscheduledReqIds] at unscheduled
            have scheduled := (allowed.listed.scheduled reqId).mpr (.inr cached)
            simp [scheduled, fresh] at unscheduled
          · exact apart renewed cached
        · exact nobody holds

/-- Every request with a chunk in this step is ready for it. -/
theorem Sound.ready (counted : updated.batch.reqIds.mapM
      (ModelRunner.scheduledTokens step.out.numScheduledTokens) = .ok counts)
    (same : ModelRunner.SamePrompts updated cached) (reqId : String) (numPromptLogprobs : Int)
    (prompt : List TokenId) (startIdx numTokens : Nat)
    (asked : cached.numPromptLogprobs.get? reqId = some numPromptLogprobs)
    (chunk : cached.chunkOf step.out.numScheduledTokens reqId =
      some (prompt, startIdx, numTokens)) :
    ModelRunner.Ready cached counts reqId numPromptLogprobs prompt startIdx numTokens := by
  obtain ⟨scheduled, req, found, given, rfl⟩ := ModelRunner.chunkOf_eq_some.mp chunk
  obtain ⟨before, loc, -, prompts, computed⟩ := same.request found
  rw [given] at prompts
  have pending : (updated.numPromptLogprobs.get? reqId).isSome = true := by
    rw [← same.pending, asked]
    rfl
  have holds := spec.present reqId (contains_iff.mpr ⟨numTokens, scheduled⟩)
  obtain ⟨index, place⟩ := isSome_iff_exists.mp holds
  have here := (spec.consistent.closed.inverse reqId index).mp place
  obtain ⟨_, scheduled', counts_index⟩ :=
    ModelRunner.counts_get? counted (InputBatch.occupant_eq_some.mp here)
  cases scheduled.symm.trans scheduled'
  refine ⟨⟨index, by rw [same.map]; exact place, counts_index, ?_⟩, ?_⟩
  · rw [same.cells, (spec.consistent.counted.computed index).2 reqId before.numComputedTokens here
      (by rw [ModelRunner.counts, place, loc]; rfl), computed]
  · rw [same.collected, ← computed]
    rcases (spec.holds reqId).mp holds with ⟨held, stays⟩ | added
    · obtain ⟨_, collected, filled⟩ := sound.ready_kept allowed spec pending held stays
        loc prompts
      rw [collected]
      exact filled
    · obtain ⟨nothing, zero⟩ := sound.ready_added allowed spec pending added loc
      rw [nothing, zero]
      exact Filled.empty ..

end

theorem promptOf_of_chunk {runner : ModelRunner}
    (chunk : runner.chunkOf numScheduledTokens reqId = some (prompt, startIdx, numTokens)) :
    promptOf runner reqId = some (prompt, startIdx) := by
  obtain ⟨-, _, found, given, rfl⟩ := ModelRunner.chunkOf_eq_some.mp chunk
  rw [promptOf, found, bind_some, given]
  rfl

section
variable (runner : ModelRunner) (out : SchedulerOutput) (results : List (String × LogprobsTensors))
  (reqId : String) (progress : Progress)

theorem advance_returned : (advance runner out results reqId progress).returned =
      progress.returned + (results.map Prod.fst).count reqId := by
  rw [advance]
  split <;> rfl

theorem advance_passed : (advance runner out results reqId progress).passed =
      (progress.passed || runner.lastChunk out.numScheduledTokens reqId) := by
  rw [advance, ModelRunner.lastChunk, ModelRunner.chunkOf, promptOf]
  cases out.numScheduledTokens.get? reqId with
  | none => simp
  | some numTokens =>
    cases runner.requests.get? reqId with
    | none => simp
    | some req => cases given : req.promptTokenIds <;> simp [given]

end

/-- The pending requests after the scheduler's changes. -/
theorem Sound.registered (sound : state.Sound)
    (spec : ModelRunner.Updated state.runner step.out update updated) (reqId : String) :
    (updated.numPromptLogprobs.get? reqId).isSome = true ↔
      ∃ progress, state.register step.out reqId = some progress ∧ progress.passed = false := by
  rw [spec.pending, register]
  by_cases new : state.runner.Registers step.out reqId
  · rw [if_pos new]
    simp [new]
  · rw [if_neg new]
    by_cases finished : reqId ∈ step.out.finishedReqIds
    · simp [finished, new]
    · rw [sound.pending]
      simp [finished, new]

theorem Sound.register_once (sound : state.Sound) {progress : Progress}
    (h : state.register step.out reqId = some progress) :
    progress.returned = if progress.passed then 1 else 0 := by
  rw [register] at h
  split at h
  · cases h
    rfl
  · split at h
    · cases h
    · exact sound.once reqId progress h

/-- Without scheduled tokens the batch is empty afterwards. -/
theorem Sound.nobody (allowed : state.Allowed step)
    (spec : ModelRunner.Updated state.runner step.out update updated)
    (idle : step.out.totalNumScheduledTokens = 0) : ∀ reqId,
    ¬ updated.Holds reqId ∧ step.out.numScheduledTokens.get? reqId = none := by
  have nothing : ∀ reqId, step.out.numScheduledTokens.get? reqId = none := by
    intro reqId
    cases found : step.out.numScheduledTokens.get? reqId with
    | none => rfl
    | some numTokens =>
      have pos := allowed.listed.positive numTokens (Dict.mem_values.mpr ⟨reqId, found⟩)
      have bound := le_total found id
      rw [SchedulerOutput.totalNumScheduledTokens] at idle
      simp only [id_eq] at bound
      omega
  intro reqId
  have unscheduled : step.out.numScheduledTokens.contains reqId = false := by
    rw [Dict.contains, nothing]
    rfl
  refine ⟨?_, nothing reqId⟩
  intro holds
  have unlisted := mt (allowed.listed.scheduled reqId).mpr (by simp [unscheduled])
  rw [not_or] at unlisted
  rcases (spec.holds reqId).mp holds with ⟨held, stays⟩ | added
  · obtain ⟨index, place⟩ := isSome_iff_exists.mp held
    apply stays
    refine spec.gathered.dropped reqId ?_
    by_cases finished : reqId ∈ step.out.finishedReqIds
    · exact mem_append_left _ finished
    · refine mem_append_right _ ?_
      rw [ModelRunner.unscheduledReqIds, mem_filter, mem_filter]
      exact ⟨⟨Dict.mem_keys.mpr ⟨index, place⟩, by simpa using finished⟩, by simp [unscheduled]⟩
  · obtain ⟨-, _, -, origin⟩ := spec.gathered.added reqId added
    rcases origin with ⟨_, mem, named, -⟩ | ⟨_, mem, named, -⟩
    · exact unlisted.1 (named ▸ mem_map_of_mem mem)
    · exact unlisted.2 (named ▸ mem_map_of_mem mem)

theorem Sound.exec_chunks (sound : state.Sound) (allowed : state.Allowed step)
    (spec : ModelRunner.Updated state.runner step.out update updated) {cached after : ModelRunner}
    (counted : updated.batch.reqIds.mapM
      (ModelRunner.scheduledTokens step.out.numScheduledTokens) = .ok counts)
    (same : ModelRunner.SamePrompts updated cached)
    (ran : cached.getPromptLogprobsDict counts step.out.numScheduledTokens = .ok (results, after)) :
    Sound {
      runner := after
      progress := fun reqId => (state.register step.out reqId).map
        (advance after step.out results reqId)
      log := state.log ++ results.map (fun result =>
        (result.1, ((promptOf after result.1).map Prod.fst).getD [], result.2)) } := by
  obtain ⟨collect, collected, rfl, dropped⟩ := ModelRunner.getPromptLogprobsDict_spec
    (sound.ready allowed spec counted same) ran
  have consistent := same.consistent spec.consistent
  have asked : ∀ reqId, reqId ∈ cached.numPromptLogprobs.keys ↔
      ∃ progress, state.register step.out reqId = some progress ∧ progress.passed = false := by
    intro reqId
    rw [← sound.registered spec, ← same.pending, Dict.mem_keys, isSome_iff_exists]
  -- A pending request is returned in the step that reaches the end of its prompt.
  have returned : ∀ reqId, reqId ∈ collect.completed.map Prod.fst ↔
      reqId ∈ cached.numPromptLogprobs.keys ∧
        cached.lastChunk step.out.numScheduledTokens reqId = true := by
    intro reqId
    rw [collected.completed, mem_filter]
  have passes : ∀ reqId before, state.register step.out reqId = some before →
      (advance after step.out collect.completed reqId before).passed =
        (before.passed || decide (reqId ∈ collect.completed.map Prod.fst)) := by
    intro reqId before registered
    rw [advance_passed, show after.lastChunk = cached.lastChunk by rw [dropped]; rfl]
    cases unpassed : before.passed with
    | true => rfl
    | false => simp [returned, (asked reqId).mpr ⟨before, registered, unpassed⟩]
  refine ⟨⟨?_, ?_⟩, ?_, ?_, ?_⟩
  · intro entry mem
    rcases mem_append.mp mem with before | new
    · exact sound.rows entry before
    · obtain ⟨result, listed, rfl⟩ := mem_map.mp new
      obtain ⟨pending, last⟩ := (returned result.1).mp (mem_map_of_mem listed)
      obtain ⟨⟨prompt, _, numTokens⟩, chunk, enough⟩ := (Option.any_eq_true ..).mp last
      obtain ⟨tensors, loc, filled⟩ := collected.chunks result.1 pending _ _ _ chunk
      cases (collected.results result listed).symm.trans loc
      rw [show promptOf after = promptOf cached by rw [dropped]; rfl, promptOf_of_chunk chunk]
      exact filled.complete (Nat.le_succ_of_le (of_decide_eq_true enough))
  · intro reqId progress known
    obtain ⟨before, registered, rfl⟩ := map_eq_some_iff.mp known
    rw [advance_returned, passes reqId before registered, sound.register_once registered]
    by_cases listed : reqId ∈ collect.completed.map Prod.fst
    · obtain ⟨progress, registered', unpassed⟩ := (asked reqId).mp ((returned reqId).mp listed).1
      cases registered.symm.trans registered'
      have distinct : (collect.completed.map Prod.fst).Nodup := by
        rw [collected.completed]
        exact cached.numPromptLogprobs.nodup.filter _
      rw [count_eq_one_of_mem distinct listed]
      simp [unpassed, listed]
    · rw [count_eq_zero_of_not_mem listed]
      simp [listed]
  · rw [dropped]
    refine { consistent with started := ?_ }
    intro reqId tensors found
    rw [get?_foldl_erase] at found
    split at found
    · cases found
    cases chunk : cached.chunkOf step.out.numScheduledTokens reqId with
    | none =>
      rw [collected.others reqId (.inr chunk)] at found
      exact consistent.started reqId tensors found
    | some entry =>
      have holds := spec.present reqId
        (contains_iff.mpr ⟨_, (ModelRunner.chunkOf_eq_some.mp chunk).1⟩)
      rw [ModelRunner.Holds, ← same.map] at holds
      exact holds
  · intro reqId
    have left : (after.numPromptLogprobs.get? reqId).isSome = true ↔
        reqId ∉ collect.completed.map Prod.fst ∧ reqId ∈ cached.numPromptLogprobs.keys := by
      rw [dropped, get?_foldl_erase, Dict.mem_keys, ← isSome_iff_exists]
      by_cases listed : reqId ∈ collect.completed.map Prod.fst
      · simp [listed]
      · simp [listed]
    rw [left, asked]
    constructor
    · rintro ⟨unlisted, before, registered, unpassed⟩
      refine ⟨_, map_eq_some_iff.mpr ⟨before, registered, rfl⟩, ?_⟩
      rw [passes reqId before registered, unpassed, decide_eq_false unlisted]
      rfl
    · rintro ⟨progress, known, unpassed⟩
      obtain ⟨before, registered, rfl⟩ := map_eq_some_iff.mp known
      rw [passes reqId before registered, Bool.or_eq_false_iff, decide_eq_false_iff_not] at unpassed
      exact ⟨unpassed.2, before, registered, unpassed.1⟩
  · intro reqId progress req prompt known unpassed holds found given
    obtain ⟨before, registered, rfl⟩ := map_eq_some_iff.mp known
    rw [passes reqId before registered, Bool.or_eq_false_iff, decide_eq_false_iff_not] at unpassed
    rw [dropped] at holds found
    -- Every request in the batch has a chunk in this step.
    obtain ⟨index, place⟩ := isSome_iff_exists.mp holds
    have here := InputBatch.occupant_eq_some.mp ((consistent.closed.inverse reqId index).mp place)
    rw [same.ids] at here
    obtain ⟨numTokens, scheduled, -⟩ := ModelRunner.counts_get? counted here
    have chunk : cached.chunkOf step.out.numScheduledTokens reqId =
        some (prompt, req.numComputedTokens, numTokens) :=
      ModelRunner.chunkOf_eq_some.mpr ⟨scheduled, req, found, given, rfl⟩
    obtain ⟨tensors, loc, filled⟩ := collected.chunks reqId
      ((asked reqId).mpr ⟨before, registered, unpassed.1⟩) _ _ _ chunk
    have chunkEnd : (advance after step.out collect.completed reqId before).chunkEnd =
        req.numComputedTokens + numTokens := by
      simp only [advance, scheduled,
        show promptOf after = promptOf cached by rw [dropped]; rfl, promptOf_of_chunk chunk]
    refine ⟨tensors, ?_, ?_, ?_⟩
    · rw [dropped, get?_foldl_erase, if_neg unpassed.2]
      exact loc
    · rw [chunkEnd]
      exact filled
    · rw [chunkEnd]
      exact Nat.le_add_right ..

theorem Sound.kept (sound : state.Sound) (allowed : state.Allowed step)
    (ran : state.exec step = .ok next) : next.Sound := by
  obtain ⟨⟨_, after⟩, executed, ran⟩ := bind_ok ran
  cases ran
  obtain ⟨_, ranUpdate, rest⟩ := ModelRunner.executeModel_ok executed
  obtain ⟨_, spec⟩ := ModelRunner.updateStates_spec sound.consistent allowed.listed ranUpdate
  rcases rest with ⟨idle, rfl, rfl⟩ | ⟨_, _, counted, same, ran⟩
  · have nobody := nobody allowed spec idle
    have still : ∀ reqId progress, advance after step.out [] reqId progress = progress := by
      intro reqId progress
      simp [advance, (nobody reqId).2]
    refine ⟨⟨?_, ?_⟩, spec.consistent, ?_, ?_⟩
    · simpa using sound.rows
    · intro reqId progress known
      obtain ⟨_, registered, rfl⟩ := Option.map_eq_some_iff.mp known
      rw [still]
      exact sound.register_once registered
    · intro reqId
      rw [sound.registered spec]
      simp only
      rw [show advance after step.out [] reqId = id from funext (still reqId), Option.map_id]
      rfl
    · intro reqId progress _ _ _ _ holds
      exact absurd holds (nobody reqId).1
  · exact sound.exec_chunks allowed spec counted same ran

end Steps

/-- In every run of allowed steps, what is returned is complete, and it is returned once. -/
theorem prompt_logprobs_complete (useAsyncScheduling : Bool) (maxNumReqs vocabSize : Nat)
    (blocksPerKvBlock : List Nat) (steps : List RunnerStep) (reached : PromptRun)
    (allowed : Run.AllSteps exec Allowed
      (init useAsyncScheduling maxNumReqs vocabSize blocksPerKvBlock) steps)
    (ran : Run.run exec (init useAsyncScheduling maxNumReqs vocabSize blocksPerKvBlock) steps =
      .ok reached) : reached.Complete :=
  (Run.run_invariant Sound Sound.kept
    (init_sound useAsyncScheduling maxNumReqs vocabSize blocksPerKvBlock) allowed ran).toComplete

instance (out : SchedulerOutput) : Decidable (ModelRunner.Listed out) :=
  decidable_of_iff
    ((out.scheduledNewReqs.map NewRequestData.reqId ++
        out.scheduledCachedReqs.map CachedRequestData.reqId).Nodup ∧
      ((∀ reqId ∈ out.numScheduledTokens.keys,
          reqId ∈ out.scheduledNewReqs.map NewRequestData.reqId ∨
            reqId ∈ out.scheduledCachedReqs.map CachedRequestData.reqId) ∧
        ∀ reqId ∈ out.scheduledNewReqs.map NewRequestData.reqId ++
          out.scheduledCachedReqs.map CachedRequestData.reqId,
          out.numScheduledTokens.contains reqId = true) ∧
      (∀ entry ∈ out.scheduledCachedReqs, entry.reqId ∉ out.finishedReqIds) ∧
      ∀ numTokens ∈ out.numScheduledTokens.values, 0 < numTokens)
    ⟨fun all => ⟨all.1, fun reqId => ⟨fun known => all.2.1.1 reqId
        (Dict.mem_keys.mpr (Dict.contains_iff.mp known)),
        fun listed => all.2.1.2 reqId (mem_append.mpr listed)⟩, all.2.2.1, all.2.2.2⟩,
      fun all => ⟨all.distinct, ⟨fun reqId known => (all.scheduled reqId).mp
        (Dict.contains_iff.mpr (Dict.mem_keys.mp known)),
        fun reqId listed => (all.scheduled reqId).mpr (mem_append.mp listed)⟩,
        all.unfinished, all.positive⟩⟩

attribute [mk_iff] Allowed

instance (state : PromptRun) (step : RunnerStep) : Decidable (state.Allowed step) :=
  decidable_of_iff' _ (allowed_iff ..)

def promptRequest (reqId : String) (prompt : List TokenId) : NewRequestData :=
  { reqId, promptTokenIds := some prompt, samplingParams := some {}, promptLogprobs := some 0,
    blockIds := [[0]] }

/-- A prompt of three tokens is processed one token at a time; after the first one the request is
preempted, and it starts over. -/
def restartedRun : List RunnerStep :=
  [{ out := { scheduledNewReqs := [promptRequest "a" [5, 6, 7]],
              numScheduledTokens := Dict.empty.set "a" 1 } },
   { out := { scheduledNewReqs := [promptRequest "b" [8]],
              numScheduledTokens := Dict.empty.set "b" 1 } },
   { out := { scheduledCachedReqs := [⟨"a", 0, some [[1]], 0, true⟩],
              numScheduledTokens := Dict.empty.set "a" 2 } },
   { out := { scheduledCachedReqs := [⟨"a", 2, none, 0, false⟩],
              numScheduledTokens := Dict.empty.set "a" 1 } }]

theorem prompt_logprobs_complete_restarted :
    Run.AllSteps exec Allowed (init false 2 10 [1]) restartedRun ∧
      (Run.run exec (init false 2 10 [1]) restartedRun).toOption.map (fun state =>
        state.log.map (fun entry => (entry.1, entry.2.2.rows))) =
        some [("b", []), ("a", [some ⟨("a", 0), 6⟩, some ⟨("a", 1), 7⟩])] ∧
      ∀ reached, Run.run exec (init false 2 10 [1]) restartedRun = .ok reached → reached.Complete :=
  have allowed : Run.AllSteps exec Allowed (init false 2 10 [1]) restartedRun := by decide +kernel
  ⟨allowed, by decide +kernel,
    fun reached ran => prompt_logprobs_complete false 2 10 [1] restartedRun reached allowed ran⟩

/-- The request is left out of the second step and then continues. -/
def skippedRun : List RunnerStep :=
  [{ out := { scheduledNewReqs := [promptRequest "a" [5, 6, 7]],
              numScheduledTokens := Dict.empty.set "a" 1 } },
   { out := { scheduledNewReqs := [promptRequest "b" [8]],
              numScheduledTokens := Dict.empty.set "b" 1 } },
   { out := { scheduledCachedReqs := [⟨"a", 1, none, 0, false⟩],
              numScheduledTokens := Dict.empty.set "a" 2 } }]

/-- The first row of what is returned then was never written. -/
theorem skipped_step_loses_rows :
    (Run.run exec (init false 2 10 [1]) skippedRun).toOption.map (fun state =>
      state.log.map (fun entry => (entry.1, entry.2.2.rows))) =
      some [("b", []), ("a", [none, some ⟨("a", 1), 7⟩])] := by
  decide +kernel

end PromptRun
end Vllm.Worker
