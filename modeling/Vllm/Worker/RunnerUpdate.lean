import Vllm.Worker.ModelRunner
import Vllm.Worker.ComputedTokens

/-! What `_update_states` does to the requests of the runner. The requests that stay in the batch
keep their prompts and what has been collected for them; all others come back as the scheduler
says, with nothing collected. -/
namespace Vllm.Worker
open List hiding next
open Py Dict BatchStep

namespace ModelRunner
variable {runner next : ModelRunner} {out : SchedulerOutput} {reqId : String} {update : StateUpdate}

def Holds (runner : ModelRunner) (reqId : String) : Prop :=
  (runner.batch.reqIdToIndex.get? reqId).isSome = true

/-- The computed tokens of the requests in the batch, as the runner has them. -/
def counts (runner : ModelRunner) (reqId : String) : Option Nat :=
  (runner.batch.reqIdToIndex.get? reqId).bind (fun _ =>
    (runner.requests.get? reqId).map CachedRequestState.numComputedTokens)

structure Consistent (runner : ModelRunner) : Prop where
  closed : runner.batch.Closed
  counted : runner.batch.Counted runner.counts
  named : ∀ reqId req, runner.requests.get? reqId = some req → req.reqId = reqId
  started : ∀ reqId tensors, runner.inProgressPromptLogprobs.get? reqId = some tensors →
    runner.Holds reqId

/-- The scheduler names every scheduled request once, and schedules tokens for it. -/
structure Listed (out : SchedulerOutput) : Prop where
  distinct : (out.scheduledNewReqs.map NewRequestData.reqId ++
    out.scheduledCachedReqs.map CachedRequestData.reqId).Nodup
  scheduled : ∀ reqId, out.numScheduledTokens.contains reqId = true ↔
    reqId ∈ out.scheduledNewReqs.map NewRequestData.reqId ∨
      reqId ∈ out.scheduledCachedReqs.map CachedRequestData.reqId
  unfinished : ∀ entry ∈ out.scheduledCachedReqs, entry.reqId ∉ out.finishedReqIds
  positive : ∀ numTokens ∈ out.numScheduledTokens.values, 0 < numTokens

/-- The counts of the requests that stay, after the writes so far. -/
def written (runner : ModelRunner) (update : StateUpdate) : String → Option Nat :=
  update.writes.foldl countWritten
    (fun reqId => if reqId ∈ update.removals then none else runner.counts reqId)

structure Gathered (runner : ModelRunner) (out : SchedulerOutput) (update : StateUpdate) : Prop where
  named : ∀ reqId req, update.requests.get? reqId = some req → req.reqId = reqId
  removals : ∀ reqId ∈ update.removals, reqId ∈ out.finishedReqIds ∨
    reqId ∈ runner.unscheduledReqIds out ∨ reqId ∈ out.scheduledNewReqs.map NewRequestData.reqId
  dropped : ∀ reqId ∈ out.finishedReqIds ++ runner.unscheduledReqIds out, reqId ∈ update.removals
  current : ∀ reqId n, runner.written update reqId = some n →
    (update.requests.get? reqId).map CachedRequestState.numComputedTokens = some n ∧
      reqId ∉ update.removals ∧ runner.Holds reqId
  kept : ∀ reqId, reqId ∉ update.removals → runner.Holds reqId →
    ∃ before req, runner.requests.get? reqId = some before ∧
      update.requests.get? reqId = some req ∧
      req.promptTokenIds = before.promptTokenIds ∧
      (req.numComputedTokens = before.numComputedTokens ∨
        ∃ entry ∈ out.scheduledCachedReqs, entry.reqId = reqId ∧
          req.numComputedTokens = entry.numComputedTokens)
  added : ∀ reqId ∈ update.reqsToAdd, (reqId ∈ update.removals ∨ ¬ runner.Holds reqId) ∧
    ∃ req, update.requests.get? reqId = some req ∧
      ((∃ new ∈ out.scheduledNewReqs, new.reqId = reqId ∧
          req.numComputedTokens = new.numComputedTokens) ∨
        ∃ entry ∈ out.scheduledCachedReqs, entry.reqId = reqId ∧
          req.numComputedTokens = entry.numComputedTokens)

theorem counts_eq_some (found : runner.counts reqId = some n) : runner.Holds reqId ∧
      ∃ req, runner.requests.get? reqId = some req ∧ req.numComputedTokens = n := by
  rw [counts, Option.bind_eq_some_iff] at found
  obtain ⟨_, place, found⟩ := found
  rw [Option.map_eq_some_iff] at found
  exact ⟨by rw [Holds, place]; rfl, found⟩

theorem Consistent.request_of_holds (consistent : runner.Consistent) (holds : runner.Holds reqId) :
    ∃ req, runner.requests.get? reqId = some req := by
  have known := consistent.counted.known reqId
  rw [holds] at known
  obtain ⟨n, found⟩ := Option.isSome_iff_exists.mp known.symm
  obtain ⟨-, req, loc, -⟩ := counts_eq_some found
  exact ⟨req, loc⟩

theorem written_of_idle (found : runner.written update reqId = some n) (idle : update.writes = []) :
    reqId ∉ update.removals ∧ runner.counts reqId = some n := by
  rw [written, idle, foldl_nil] at found
  by_cases gone : reqId ∈ update.removals
  · rw [if_pos gone] at found
    cases found
  · rw [if_neg gone] at found
    exact ⟨gone, found⟩

theorem written_of_stays (idle : update.writes = []) (stays : reqId ∉ update.removals) :
    runner.written update reqId = runner.counts reqId := by
  rw [written, idle, foldl_nil, if_neg stays]

theorem gathered_dropRequests (consistent : runner.Consistent) (out : SchedulerOutput) :
    Gathered runner out (runner.dropRequests out) := by
  have stays : ∀ reqId, reqId ∉ (runner.dropRequests out).removals →
      (runner.dropRequests out).requests.get? reqId = runner.requests.get? reqId := by
    intro reqId absent
    rw [dropRequests, mem_append, not_or] at absent
    rw [dropRequests, get?_foldl_erase, if_neg absent.1]
  refine ⟨?_, ?_, fun _ mem => mem, ?_, ?_, ?_⟩
  · intro reqId req found
    rw [dropRequests, get?_foldl_erase] at found
    split at found
    · cases found
    · exact consistent.named reqId req found
  · intro reqId mem
    exact (mem_append.mp mem).imp_right .inl
  · intro reqId n found
    obtain ⟨absent, found⟩ := written_of_idle found rfl
    obtain ⟨holds, req, loc, same⟩ := counts_eq_some found
    refine ⟨?_, absent, holds⟩
    rw [stays reqId absent, loc, Option.map_some, same]
  · intro reqId absent holds
    obtain ⟨req, loc⟩ := consistent.request_of_holds holds
    exact ⟨req, req, loc, (stays reqId absent).trans loc, rfl, .inl rfl⟩
  · intro reqId mem
    cases mem

/-- A request that is not in the batch, or is taken out of it, is put down to be added. -/
theorem Gathered.add (gathered : Gathered runner out update)
    (named : now.reqId = reqId) (away : reqId ∈ update.removals ∨ ¬ runner.Holds reqId)
    (origin : (∃ new ∈ out.scheduledNewReqs, new.reqId = reqId ∧
        now.numComputedTokens = new.numComputedTokens) ∨
      ∃ entry ∈ out.scheduledCachedReqs, entry.reqId = reqId ∧
        now.numComputedTokens = entry.numComputedTokens) : Gathered runner out { update with
      requests := update.requests.set reqId now
      reqsToAdd := update.reqsToAdd ++ [reqId] } := by
  have apart : ∀ other ∉ update.removals, runner.Holds other → other ≠ reqId := by
    rintro other stays holds rfl
    exact away.elim stays (fun nobody => nobody holds)
  refine ⟨?_, gathered.removals, gathered.dropped, ?_, ?_, ?_⟩
  · intro other req found
    simp only [get?_set] at found
    split at found
    · rename_i same
      cases found
      rw [named, same]
    · exact gathered.named other req found
  · intro other n count
    obtain ⟨value, stays, holds⟩ := gathered.current other n count
    refine ⟨?_, stays, holds⟩
    rw [get?_set, if_neg (apart other stays holds)]
    exact value
  · intro other stays holds
    obtain ⟨before, after, loc, now, rest⟩ := gathered.kept other stays holds
    refine ⟨before, after, loc, ?_, rest⟩
    rw [get?_set, if_neg (apart other stays holds)]
    exact now
  · intro other listed
    by_cases same : other = reqId
    · subst same
      exact ⟨away, now, by rw [get?_set, if_pos rfl], origin⟩
    · rw [mem_append, mem_singleton] at listed
      obtain ⟨away, after, now, rest⟩ := gathered.added other (listed.resolve_right same)
      exact ⟨away, after, by rw [get?_set, if_neg same]; exact now, rest⟩

/-- The request of a session is taken out of the batch when it gets a new prompt. -/
theorem Gathered.remove (gathered : Gathered runner out update)
    (idle : update.writes = []) (mem : new ∈ out.scheduledNewReqs) :
    Gathered runner out { update with removals := update.removals ++ [new.reqId] } := by
  refine ⟨gathered.named, ?_, ?_, ?_, ?_, ?_⟩
  · intro reqId listed
    rcases mem_append.mp listed with prior | last
    · exact gathered.removals reqId prior
    · rw [mem_singleton.mp last]
      exact .inr (.inr (mem_map_of_mem mem))
  · intro reqId listed
    exact mem_append_left _ (gathered.dropped reqId listed)
  · intro reqId n count
    obtain ⟨stays, count⟩ := written_of_idle count idle
    have absent := mt (mem_append_left [new.reqId]) stays
    have before := gathered.current reqId n (by rw [written_of_stays idle absent, count])
    exact ⟨before.1, stays, before.2.2⟩
  · intro reqId stays holds
    exact gathered.kept reqId (mt (mem_append_left _) stays) holds
  · intro reqId listed
    exact (gathered.added reqId listed).imp_left (Or.imp_left (mem_append_left _))

/-- A new request is not in the batch, or it is taken out. -/
theorem Gathered.updateNewRequest {new : NewRequestData} (vocabSize : Nat)
    (gathered : Gathered runner out update) (idle : update.writes = [])
    (mem : new ∈ out.scheduledNewReqs) :
    Gathered runner out (updateNewRequest vocabSize update new) ∧
      (updateNewRequest vocabSize update new).writes = [] := by
  rw [ModelRunner.updateNewRequest]
  split
  · rename_i req found
    have removed : new.reqId ∈ update.removals ++ [new.reqId] := by simp
    exact ⟨(gathered.remove idle mem).add (gathered.named new.reqId req found)
      (.inl removed) (.inl ⟨new, mem, rfl, rfl⟩), idle⟩
  · rename_i unknown
    have away : new.reqId ∈ update.removals ∨ ¬ runner.Holds new.reqId := by
      by_contra both
      rw [not_or, not_not] at both
      obtain ⟨-, _, -, now, -⟩ := gathered.kept new.reqId both.1 both.2
      rw [unknown] at now
      cases now
    have same : (newRequestState new).reqId = new.reqId := rfl
    have added := gathered.add same away (.inl ⟨new, mem, rfl, rfl⟩)
    exact ⟨{ added with }, idle⟩

theorem countWritten_rowWrites (batch : InputBatch) (out : SchedulerOutput)
    (req : CachedRequestState) (entry : CachedRequestData) (index : Nat)
    (count : String → Option Nat) :
    (rowWrites batch out req entry index).foldl countWritten count =
      Function.update count entry.reqId (some entry.numComputedTokens) := by
  rw [rowWrites]
  split <;> split <;> rfl

/-- A request that stays gets its writes; one that does not is to be added. -/
theorem updateCachedRequest_ok {after : StateUpdate}
    (ran : runner.updateCachedRequest out update entry = .ok after) :
    ∃ req now, update.requests.get? entry.reqId = some req ∧
      (now.reqId = req.reqId ∧ now.promptTokenIds = req.promptTokenIds ∧
        now.numComputedTokens = entry.numComputedTokens) ∧
      ((entry.reqId ∈ update.removals ∨ ¬ runner.Holds entry.reqId) ∧ after = { update with
          requests := update.requests.set entry.reqId now
          reqsToAdd := update.reqsToAdd ++ [entry.reqId] } ∨
        (entry.reqId ∉ update.removals ∧ runner.Holds entry.reqId) ∧ ∃ index, after = { update with
          requests := update.requests.set entry.reqId now
          writes := update.writes ++ rowWrites runner.batch out req entry index }) := by
  rw [updateCachedRequest] at ran
  split at ran
  · cases ran
  rename_i req found
  obtain ⟨blockIds, -, ran⟩ := bind_ok ran
  split at ran
  · rename_i away
    obtain ⟨outputTokenIds, -, ran⟩ := bind_ok ran
    cases ran
    refine ⟨req, _, found, ?_, .inl ⟨?_, rfl⟩⟩
    · exact ⟨rfl, rfl, rfl⟩
    by_cases gone : entry.reqId ∈ update.removals
    · exact .inl gone
    · rw [if_neg gone] at away
      exact .inr (by rw [Holds, away]; simp)
  · rename_i index place
    cases ran
    refine ⟨req, _, found, ?_, .inr ⟨?_, index, rfl⟩⟩
    · exact ⟨rfl, rfl, rfl⟩
    split at place
    · cases place
    · rename_i stays
      exact ⟨stays, by rw [Holds, place]; rfl⟩

theorem Gathered.updateCachedRequest {after : StateUpdate} (gathered : Gathered runner out update)
    (mem : entry ∈ out.scheduledCachedReqs)
    (ran : runner.updateCachedRequest out update entry = .ok after) :
    Gathered runner out after := by
  obtain ⟨req, now, found, ⟨same, prompt, computed⟩, ⟨away, rfl⟩ | ⟨stays, index, rfl⟩⟩ :=
    updateCachedRequest_ok ran
  all_goals have named := same.trans (gathered.named entry.reqId req found)
  · exact gathered.add named away (.inr ⟨entry, mem, rfl, computed⟩)
  · refine ⟨?_, gathered.removals, gathered.dropped, ?_, ?_, ?_⟩
    · intro reqId other loc
      simp only [get?_set] at loc
      split at loc
      · rename_i itself
        cases loc
        rw [named, itself]
      · exact gathered.named reqId other loc
    · intro reqId n count
      rw [written, foldl_append] at count
      change (rowWrites runner.batch out req entry index).foldl countWritten
        (runner.written update) reqId = some n at count
      rw [countWritten_rowWrites, Function.update_apply] at count
      rw [get?_set]
      split at count
      · rename_i itself
        cases count
        rw [if_pos itself, itself, Option.map_some, computed]
        exact ⟨rfl, stays⟩
      · rename_i other
        rw [if_neg other]
        exact gathered.current reqId n count
    · intro reqId absent holds
      obtain ⟨before, after, loc, current, prompts, rest⟩ := gathered.kept reqId absent holds
      by_cases itself : reqId = entry.reqId
      · subst itself
        cases found.symm.trans current
        exact ⟨before, now, loc, by rw [get?_set, if_pos rfl], prompt.trans prompts,
          .inr ⟨entry, mem, rfl, computed⟩⟩
      · exact ⟨before, after, loc, by rw [get?_set, if_neg itself]; exact current, prompts,
          rest⟩
    · intro reqId listed
      obtain ⟨absent, now, current, rest⟩ := gathered.added reqId listed
      have other : reqId ≠ entry.reqId := by
        rintro rfl
        exact absent.elim stays.1 (fun nobody => nobody stays.2)
      exact ⟨absent, now, by rw [get?_set, if_neg other]; exact current, rest⟩

def Registers (runner : ModelRunner) (out : SchedulerOutput) (reqId : String) : Prop :=
  ∃ new ∈ out.scheduledNewReqs, new.reqId = reqId ∧ new.promptLogprobs.isSome = true ∧
    (runner.dropRequests out).requests.get? reqId = none

/-- The requests whose prompt log probabilities are asked for, after the new requests so far. -/
structure Registered (runner : ModelRunner) (out : SchedulerOutput) (news : List NewRequestData)
    (update : StateUpdate) : Prop where
  untouched : ∀ reqId ∉ news.map NewRequestData.reqId,
    update.requests.get? reqId = (runner.dropRequests out).requests.get? reqId
  pending : ∀ reqId, (update.numPromptLogprobs.get? reqId).isSome = true ↔
    (runner.numPromptLogprobs.get? reqId).isSome = true ∧ reqId ∉ out.finishedReqIds ∨
      ∃ new ∈ news, new.reqId = reqId ∧ new.promptLogprobs.isSome = true ∧
        (runner.dropRequests out).requests.get? reqId = none
  listed : update.reqsToAdd = news.map NewRequestData.reqId

theorem Registered.updateNewRequest (vocabSize : Nat)
    (registered : Registered runner out news update)
    (fresh : new.reqId ∉ news.map NewRequestData.reqId) :
    Registered runner out (news ++ [new]) (updateNewRequest vocabSize update new) := by
  have before := registered.untouched new.reqId fresh
  have others {now : CachedRequestState} : ∀ reqId ∉ (news ++ [new]).map NewRequestData.reqId,
      (update.requests.set new.reqId now).get? reqId =
        (runner.dropRequests out).requests.get? reqId := by
    intro reqId absent
    rw [map_append, mem_append, not_or] at absent
    rw [get?_set, if_neg (fun same => absent.2 (by simp [same]))]
    exact registered.untouched reqId absent.1
  have ids : update.reqsToAdd ++ [new.reqId] = (news ++ [new]).map NewRequestData.reqId := by
    rw [registered.listed, map_append]
    rfl
  -- Only a new request that asks for them and is not known adds to the pending ones.
  have split : ∀ reqId, (∃ other ∈ news ++ [new], other.reqId = reqId ∧
      other.promptLogprobs.isSome = true ∧
      (runner.dropRequests out).requests.get? reqId = none) ↔
      (∃ other ∈ news, other.reqId = reqId ∧ other.promptLogprobs.isSome = true ∧
        (runner.dropRequests out).requests.get? reqId = none) ∨
      (new.reqId = reqId ∧ new.promptLogprobs.isSome = true ∧
        update.requests.get? new.reqId = none) := by
    intro reqId
    constructor
    · rintro ⟨other, mem, same, asked, unknown⟩
      rcases mem_append.mp mem with prior | last
      · exact .inl ⟨other, prior, same, asked, unknown⟩
      · rw [mem_singleton] at last
        subst last
        exact .inr ⟨same, asked, by rw [before, same]; exact unknown⟩
    · rintro (⟨other, mem, rest⟩ | ⟨same, asked, unknown⟩)
      · exact ⟨other, mem_append_left _ mem, rest⟩
      · exact ⟨new, by simp, same, asked, by rw [← same, ← before]; exact unknown⟩
  rw [ModelRunner.updateNewRequest]
  cases found : update.requests.get? new.reqId with
  | some req =>
    refine ⟨others, ?_, ids⟩
    intro reqId
    rw [split, registered.pending]
    simp [found]
  | none =>
    refine ⟨others, ?_, ids⟩
    intro reqId
    rw [split, found]
    cases asked : new.promptLogprobs with
    | none =>
      rw [registered.pending]
      simp
    | some number =>
      rw [get?_set]
      by_cases same : reqId = new.reqId
      · simp [same]
      · rw [if_neg same, registered.pending]
        simp [Ne.symm same]

/-- All that is gathered in a step. -/
theorem gather_spec (consistent : runner.Consistent) (listed : Listed out)
    (ran : runner.gather out = .ok update) : Gathered runner out update ∧ update.reqsToAdd.Nodup ∧
      (∀ reqId, reqId ∈ out.scheduledNewReqs.map NewRequestData.reqId ∨
          reqId ∈ out.scheduledCachedReqs.map CachedRequestData.reqId →
        (runner.Holds reqId ∧ reqId ∉ update.removals) ∨ reqId ∈ update.reqsToAdd) ∧
      ∀ reqId, (update.numPromptLogprobs.get? reqId).isSome = true ↔
        (runner.numPromptLogprobs.get? reqId).isSome = true ∧ reqId ∉ out.finishedReqIds ∨
          Registers runner out reqId := by
  obtain ⟨⟨gathered, -⟩, registered⟩ := Py.foldl_items
    (fun news update => (Gathered runner out update ∧ update.writes = []) ∧
      Registered runner out news update)
    (f := updateNewRequest runner.batch.vocabSize) out.scheduledNewReqs
    (by
      rintro prior new later update split ⟨⟨gathered, idle⟩, registered⟩
      have mem : new ∈ out.scheduledNewReqs := by simp [split]
      have fresh : new.reqId ∉ prior.map NewRequestData.reqId := by
        have distinct := (nodup_append.mp listed.distinct).1
        rw [split, map_append, map_cons] at distinct
        intro again
        exact (disjoint_of_nodup_append distinct) again (mem_cons_self ..)
      exact ⟨gathered.updateNewRequest _ idle mem, registered.updateNewRequest _ fresh⟩)
    ⟨⟨gathered_dropRequests consistent out, rfl⟩, ⟨fun _ _ => rfl, fun reqId => by
      rw [dropRequests, get?_foldl_erase]
      split <;> simp [*], rfl⟩⟩
  obtain ⟨⟨done, pending⟩, sublist, present⟩ := foldlM_items
    (fun prior after => (Gathered runner out after ∧ ∀ reqId,
        (after.numPromptLogprobs.get? reqId).isSome = true ↔
          (runner.numPromptLogprobs.get? reqId).isSome = true ∧ reqId ∉ out.finishedReqIds ∨
            Registers runner out reqId) ∧
      after.reqsToAdd.Sublist (out.scheduledNewReqs.map NewRequestData.reqId ++
        prior.map CachedRequestData.reqId) ∧
      ∀ reqId, reqId ∈ out.scheduledNewReqs.map NewRequestData.reqId ∨
          reqId ∈ prior.map CachedRequestData.reqId →
        (runner.Holds reqId ∧ reqId ∉ after.removals) ∨ reqId ∈ after.reqsToAdd)
    (by
      rintro prior entry later update after split ⟨⟨gathered, pending⟩, sublist, present⟩ stepped
      have mem : entry ∈ out.scheduledCachedReqs := by simp [split]
      have next := gathered.updateCachedRequest mem stepped
      rw [map_append, ← append_assoc]
      obtain ⟨_, _, -, -, ⟨-, rfl⟩ | ⟨stays, index, rfl⟩⟩ := updateCachedRequest_ok stepped
      · refine ⟨⟨next, pending⟩, sublist.append (List.Sublist.refl _), ?_⟩
        intro reqId known
        rw [mem_append, ← or_assoc] at known
        rcases known with before | last
        · exact (present reqId before).imp_right (mem_append_left _)
        · exact .inr (mem_append_right _ last)
      · refine ⟨⟨next, pending⟩, sublist.trans (sublist_append_left ..), ?_⟩
        intro reqId known
        rw [mem_append, ← or_assoc] at known
        rcases known with before | last
        · exact present reqId before
        · rw [map_singleton, mem_singleton] at last
          exact .inl (last ▸ stays.symm))
    ⟨⟨gathered, registered.pending⟩, by rw [registered.listed]; simp, by
      intro reqId known
      rw [registered.listed]
      exact .inr (known.resolve_right (by simp))⟩ ran
  exact ⟨done, sublist.nodup listed.distinct, present, pending⟩

theorem mem_additions (gathered : Gathered runner out update)
    (mem : add ∈ additions out update) : add.1.reqId ∈ update.reqsToAdd ∧
      update.requests.get? add.1.reqId = some add.1 := by
  obtain ⟨reqId, listed, found⟩ := mem_filterMap.mp mem
  obtain ⟨req, loc, rfl⟩ := Option.map_eq_some_iff.mp found
  have named := gathered.named reqId req loc
  rw [named]
  exact ⟨listed, loc⟩

theorem additions_reqIds (gathered : Gathered runner out update) :
    (additions out update).map (fun add => add.1.reqId) = update.reqsToAdd := by
  rw [additions, map_filterMap]
  have each : ∀ reqId ∈ update.reqsToAdd,
      ((update.requests.get? reqId).map (fun req => (req,
        (out.scheduledSpecDecodeTokens.get? reqId).getD []))).map
          (fun add => add.1.reqId) = some reqId := by
    intro reqId listed
    obtain ⟨-, req, loc, -⟩ := gathered.added reqId listed
    rw [loc]
    exact congrArg some (gathered.named reqId req loc)
  rw [filterMap_congr each, filterMap_some]

theorem isSome_countWritten {count : String → Option Nat} (some_count : (count reqId).isSome = true)
    (writes : List (String × RowWrite)) :
    (writes.foldl countWritten count reqId).isSome = true := by
  induction writes generalizing count with
  | nil => exact some_count
  | cons write writes ih =>
    apply ih
    obtain ⟨other, change⟩ := write
    cases change with
    | numComputedTokens value =>
      simp only [countWritten, Function.update_apply]
      split
      · rfl
      · exact some_count
    | _ => exact some_count

theorem countAdded_eq (count : String → Option Nat)
    (added : List (CachedRequestState × List TokenId)) (reqId : String) :
    (added.foldl countAdded count reqId = count reqId ∧
        reqId ∉ added.map (fun add => add.1.reqId)) ∨
      ∃ add ∈ added, add.1.reqId = reqId ∧
        added.foldl countAdded count reqId = some add.1.numComputedTokens := by
  induction added generalizing count with
  | nil => exact .inl ⟨rfl, by simp⟩
  | cons add added ih =>
    rcases ih (countAdded count add) with ⟨same, absent⟩ | ⟨later, mem, rest⟩
    · by_cases here : reqId = add.1.reqId
      · refine .inr ⟨add, mem_cons_self .., here.symm, same.trans ?_⟩
        rw [countAdded, here, Function.update_self]
      · refine .inl ⟨same.trans ?_, ?_⟩
        · rw [countAdded, Function.update_of_ne here]
        · rw [map_cons, mem_cons, not_or]
          exact ⟨here, absent⟩
    · exact .inr ⟨later, mem_cons_of_mem _ mem, rest⟩

theorem get?_removeInProgress (batch : InputBatch) (removals : List String)
    (inProgress : Dict String LogprobsTensors) (reqId : String) :
    (removeInProgress batch removals inProgress).get? reqId =
      if reqId ∈ removals ∧ batch.reqIdToIndex.contains reqId = true then none
      else inProgress.get? reqId := by
  induction removals generalizing inProgress with
  | nil => simp [removeInProgress]
  | cons first removals ih =>
    rw [removeInProgress, foldl_cons, ← removeInProgress, ih]
    by_cases known : batch.reqIdToIndex.contains first = true
    · rw [if_pos known, get?_erase]
      by_cases same : reqId = first
      · simp [same, known]
      · simp [same]
    · rw [if_neg known]
      by_cases same : reqId = first
      · simp [same, known]
      · simp [same]

structure Updated (runner : ModelRunner) (out : SchedulerOutput) (update : StateUpdate)
    (next : ModelRunner) : Prop where
  gathered : Gathered runner out update
  consistent : next.Consistent
  requests : next.requests = update.requests
  pending : ∀ reqId, (next.numPromptLogprobs.get? reqId).isSome = true ↔
    (runner.numPromptLogprobs.get? reqId).isSome = true ∧ reqId ∉ out.finishedReqIds ∨
      Registers runner out reqId
  holds : ∀ reqId, next.Holds reqId ↔
    (runner.Holds reqId ∧ reqId ∉ update.removals) ∨ reqId ∈ update.reqsToAdd
  present : ∀ reqId, out.numScheduledTokens.contains reqId = true → next.Holds reqId
  collected : ∀ reqId, next.inProgressPromptLogprobs.get? reqId =
    if reqId ∈ update.removals ∧ runner.batch.reqIdToIndex.contains reqId = true then none
    else runner.inProgressPromptLogprobs.get? reqId

theorem updateStates_spec (consistent : runner.Consistent) (listed : Listed out)
    (ran : runner.updateStates out = .ok next) : ∃ update, Updated runner out update next := by
  rw [updateStates] at ran
  obtain ⟨update, ranGather, ran⟩ := bind_ok ran
  obtain ⟨⟨pendingUpdate, batch⟩, stepped, ran⟩ := bind_ok ran
  cases ran
  obtain ⟨gathered, distinct, present, pending⟩ := gather_spec consistent listed ranGather
  have ids := additions_reqIds gathered
  have unused : runner.batch.Unused {
      removals := update.removals
      writes := update.writes
      additions := additions out update
      swaps := out.swaps } := by
    refine ⟨by rw [ids]; exact distinct, ?_⟩
    intro add mem
    obtain ⟨listed, -⟩ := mem_additions gathered mem
    refine (gathered.added _ listed).1.symm.imp_left ?_
    intro nobody
    rw [Holds.eq_1, Bool.not_eq_true, Option.isSome_eq_false_iff, Option.isNone_iff_eq_none]
      at nobody
    exact nobody
  obtain ⟨closed, counted⟩ := InputBatch.Counted.step consistent.closed consistent.counted unused
    stepped
  have current : ∀ reqId n, (additions out update).foldl countAdded
      (runner.written update) reqId = some n →
      (update.requests.get? reqId).map CachedRequestState.numComputedTokens = some n := by
    intro reqId n found
    rcases countAdded_eq (runner.written update) (additions out update) reqId with
      ⟨same, -⟩ | ⟨add, mem, named, same⟩
    · exact (gathered.current reqId n (same.symm.trans found)).1
    · rw [same] at found
      obtain ⟨-, loc⟩ := mem_additions gathered mem
      rw [← named, loc]
      exact found
  have known : ∀ reqId, (batch.reqIdToIndex.get? reqId).isSome = true ↔
      (runner.Holds reqId ∧ reqId ∉ update.removals) ∨ reqId ∈ update.reqsToAdd := by
    intro reqId
    rw [counted.known]
    change ((additions out update).foldl countAdded (runner.written update)
      reqId).isSome = true ↔ _
    rcases countAdded_eq (runner.written update) (additions out update) reqId with
      ⟨same, absent⟩ | ⟨add, mem, named, same⟩
    · rw [same]
      rw [ids] at absent
      constructor
      · intro some_count
        obtain ⟨n, found⟩ := Option.isSome_iff_exists.mp some_count
        exact .inl ⟨(gathered.current reqId n found).2.2, (gathered.current reqId n found).2.1⟩
      · rintro (⟨holds, stays⟩ | added)
        · apply isSome_countWritten
          rw [if_neg stays, ← consistent.counted.known]
          exact holds
        · exact absurd added absent
    · rw [same]
      obtain ⟨added, -⟩ := mem_additions gathered mem
      rw [named] at added
      simp [added]
  have collected := get?_removeInProgress runner.batch update.removals
    runner.inProgressPromptLogprobs
  refine ⟨update, gathered, ⟨closed, ?_, gathered.named, ?_⟩, rfl, pending, known,
    fun reqId scheduled => (known reqId).mpr (present reqId ((listed.scheduled reqId).mp scheduled)),
    collected⟩
  · convert counted using 1
    funext reqId
    change (batch.reqIdToIndex.get? reqId).bind (fun _ =>
      (update.requests.get? reqId).map CachedRequestState.numComputedTokens) =
        (additions out update).foldl countAdded (runner.written update) reqId
    have same : (batch.reqIdToIndex.get? reqId).isSome =
        ((additions out update).foldl countAdded (runner.written update) reqId).isSome :=
      counted.known reqId
    cases found : (additions out update).foldl countAdded (runner.written update) reqId
      with
    | none =>
      rw [found, Option.isSome_none, Option.isSome_eq_false_iff, Option.isNone_iff_eq_none] at same
      rw [same]
      rfl
    | some n =>
      rw [found] at same
      obtain ⟨_, place⟩ := Option.isSome_iff_exists.mp same
      rw [place]
      exact current reqId n found
  · intro reqId tensors found
    rw [Holds, known]
    have started := collected reqId
    rw [found] at started
    split at started
    · cases started
    · rename_i stays
      have holds := consistent.started reqId tensors started.symm
      refine .inl ⟨holds, ?_⟩
      intro removed
      exact stays ⟨removed, holds⟩

end ModelRunner
end Vllm.Worker
