import Vllm.Sched.Steps

/-! What the calls between two `schedule` calls do to a scheduler, one lemma for each
function of `update_from_output` and `finish_requests`. -/
namespace Vllm
open Py Bool
variable {H K M : Type} {cfg : SchedulerConfig H K M} {ref : Ref} {req : Request H}
  {stopped : Bool}

/-- The fields of a request that its output depends on are the same. -/
def SameOutput (req other : Request H) : Prop :=
  other = { req with
    numComputedTokens := other.numComputedTokens
    numExternalComputedTokens := other.numExternalComputedTokens
    numOutputPlaceholders := other.numOutputPlaceholders
    blockHashes := other.blockHashes }

theorem SameOutput.refl (req : Request H) : SameOutput req req := rfl

theorem SameOutput.trans (first : SameOutput req other) (second : SameOutput other third) :
    SameOutput req third := by
  unfold SameOutput at first second ⊢
  rw [second, first]

theorem SameOutput.status (same : SameOutput req other) : other.status = req.status := by
  rw [same]

section
variable (hasher : Option (BlockHasher H)) (req : Request H)

structure Appends (stopped : Bool) (next : Request H) : Prop where
  requestId : next.requestId = req.requestId
  resumable : next.resumable = req.resumable
  streamingQueue : next.streamingQueue = req.streamingQueue
  status : if stopped then next.status.isFinished = true else next.status = req.status

theorem updateBlockHashes_eq : req.updateBlockHashes hasher =
      { req with blockHashes := (req.updateBlockHashes hasher).blockHashes } := by
  cases hasher <;> rfl

theorem appendOutputTokenIds_eq (tokenIds : List TokenId)
    : req.appendOutputTokenIds hasher tokenIds = { req with
      outputTokenIds := req.outputTokenIds ++ tokenIds
      allTokenIds := req.allTokenIds ++ tokenIds
      blockHashes := (req.appendOutputTokenIds hasher tokenIds).blockHashes } := by
  rw [Request.appendOutputTokenIds, updateBlockHashes_eq]
  rfl

end

theorem stopStatus_finished (h : stopStatus req params maxModelLen lastTokenId = some status) :
    status.isFinished = true := by
  unfold stopStatus at h
  repeat' split at h
  all_goals
    cases h
    try rfl

theorem checkStop_finished (h : checkStop req maxModelLen = .ok (some status)) :
    status.isFinished = true := by
  unfold checkStop at h
  obtain ⟨-, h⟩ := assert_bind_ok h
  split at h
  · cases h
  · split at h
    · cases h
    · split at h
      · cases h
      · injection h with found
        exact stopStatus_finished found

theorem appendOutput_appends
    (h : appendOutput cfg tokens req = .ok ((kept, stopped), last)) :
    Appends req stopped last := by
  induction tokens generalizing req kept with
  | nil =>
    cases h
    exact ⟨rfl, rfl, rfl, rfl⟩
  | cons token rest ih =>
    obtain ⟨stop, checked, h⟩ := bind_ok h
    have same := appendOutputTokenIds_eq cfg.hasher req [token]
    cases stop with
    | some status =>
      cases h
      refine ⟨?_, ?_, ?_, checkStop_finished checked⟩ <;> rw [same]
    | none =>
      obtain ⟨⟨⟨_, _⟩, _⟩, later, h⟩ := bind_ok h
      cases h
      have spec := ih later
      rw [same] at spec
      exact { spec with }

/-- The counts of a request do not decide when its output stops it. -/
theorem appendOutput_same (same : SameOutput req other)
    (h : appendOutput cfg tokens other = .ok ((kept, stopped), last)) :
    ∃ ended, appendOutput cfg tokens req = .ok ((kept, stopped), ended) := by
  induction tokens generalizing req other kept with
  | nil =>
    cases h
    exact ⟨req, rfl⟩
  | cons token rest ih =>
    have sameAppended : SameOutput (req.appendOutputTokenIds cfg.hasher [token])
        (other.appendOutputTokenIds cfg.hasher [token]) := by
      have appends := appendOutputTokenIds_eq cfg.hasher other [token]
      unfold SameOutput
      rw [appends, appendOutputTokenIds_eq cfg.hasher req [token]]
      rw [same]
    have sameStop : checkStop (other.appendOutputTokenIds cfg.hasher [token]) cfg.maxModelLen =
        checkStop (req.appendOutputTokenIds cfg.hasher [token]) cfg.maxModelLen := by
      rw [sameAppended]
      rfl
    rw [appendOutput, sameStop] at h
    rw [appendOutput]
    obtain ⟨stop, checked, h⟩ := bind_ok h
    rw [checked]
    cases stop with
    | some status =>
      cases h
      exact ⟨_, rfl⟩
    | none =>
      obtain ⟨⟨⟨_, _⟩, _⟩, later, h⟩ := bind_ok h
      cases h
      obtain ⟨ended, prior⟩ := ih sameAppended later
      exact ⟨ended, by simp only [prior]; rfl⟩

def outputStops (cfg : SchedulerConfig H K M) (req : Request H) (generated : List TokenId)
    (hasPoolerOutput : Bool) : Bool :=
  if generated.isEmpty then req.poolingParams.isSome && hasPoolerOutput
  else if cfg.asyncScheduling && req.discardLatestAsyncTokens then false
  else
    match appendOutput cfg generated req with
    | .ok ((_, stopped), _) => stopped
    | .error _ => false

theorem outputStops_same (same : SameOutput req other)
    (h : outputStops cfg other generated hasPoolerOutput = true) :
    outputStops cfg req generated hasPoolerOutput = true := by
  unfold outputStops at h ⊢
  have pooling : other.poolingParams = req.poolingParams := by rw [same]
  have discard : other.discardLatestAsyncTokens = req.discardLatestAsyncTokens := by rw [same]
  rw [pooling, discard] at h
  by_cases empty : generated.isEmpty = true
  · rw [if_pos empty] at h ⊢
    exact h
  · rw [if_neg empty] at h ⊢
    by_cases discards : (cfg.asyncScheduling && req.discardLatestAsyncTokens) = true
    · rw [if_pos discards] at h
      cases h
    · rw [if_neg discards] at h ⊢
      split at h
      · rename_i appended
        subst h
        obtain ⟨ended, prior⟩ := appendOutput_same same appended
        rw [prior]
      · cases h

namespace Scheduler
variable {sched next : Scheduler H K}

section
variable (policy : SchedulingPolicy) (sched : Scheduler H K) (ref : Ref)

structure Applies (stopped : Bool) (next : Scheduler H K) : Prop where
  request : Appends (sched.objects ref) stopped (next.objects ref)
  others : ∀ other, other ≠ ref → next.objects other = sched.objects other
  rest : next = { sched with
    objects := next.objects
    kvCacheManager := next.kvCacheManager }

theorem settleDrafts_objects (drafts generated : List TokenId) :
    SameOutput (sched.objects ref) ((sched.settleDrafts ref drafts generated).objects ref) ∧
      (∀ other, other ≠ ref →
        (sched.settleDrafts ref drafts generated).objects other = sched.objects other) ∧
      sched.settleDrafts ref drafts generated = { sched with
        objects := (sched.settleDrafts ref drafts generated).objects } := by
  unfold settleDrafts
  split
  · exact ⟨.refl _, fun _ _ => rfl, rfl⟩
  · refine ⟨?_, fun other ne => modify_objects_of_ne _ _ ne, rfl⟩
    rw [modify_objects_self]
    rfl

theorem enqueueWaitingRequest_ok : ∃ waiting skipped, sched.enqueueWaitingRequest policy ref =
        { sched with waiting := waiting, skippedWaiting := skipped } ∧
      (waiting ++ skipped).Perm (ref :: (sched.waiting ++ sched.skippedWaiting)) := by
  simp only [enqueueWaitingRequest]
  split
  · refine ⟨_, _, rfl, ?_⟩
    exact ((RequestQueue.addRequest_perm _ _).append_left _).trans List.perm_middle
  · refine ⟨_, _, rfl, ?_⟩
    exact (RequestQueue.addRequest_perm _ _).append_right _

structure Registers (req : Request H) (next : Scheduler H K) : Prop where
  stored : next.objects sched.numObjects =
    if req.resumable then { req with streamingQueue := some [] } else req
  others : ∀ other, other ≠ sched.numObjects → next.objects other = sched.objects other
  queued : (next.waiting ++ next.skippedWaiting).Perm
    (sched.numObjects :: (sched.waiting ++ sched.skippedWaiting))
  rest : next = { sched with
    objects := next.objects
    numObjects := sched.numObjects + 1
    requests := sched.requests.set req.requestId sched.numObjects
    waiting := next.waiting
    skippedWaiting := next.skippedWaiting }

theorem registerRequest_ok
    (req : Request H) : Registers sched req (sched.registerRequest policy req) := by
  simp only [registerRequest]
  obtain ⟨waiting, skipped, same, queued⟩ := enqueueWaitingRequest_ok policy
    { sched.modify sched.numObjects (fun _ =>
        if req.resumable then { req with streamingQueue := some [] } else req) with
      numObjects := sched.numObjects + 1 } sched.numObjects
  rw [same]
  exact ⟨if_pos rfl, fun other ne => if_neg ne, queued, rfl⟩

end

theorem freeBlocks_ok (h : sched.freeBlocks ref = .ok next) :
    (sched.objects ref).isFinished = true ∧ next = { sched with
        kvCacheManager := next.kvCacheManager
        requests := sched.requests.erase (sched.requestId ref) } := by
  unfold freeBlocks at h
  obtain ⟨finished, h⟩ := assert_bind_ok h
  obtain ⟨mgr, -, h⟩ := bind_ok h
  obtain ⟨⟨popped, requests⟩, pops, h⟩ := bind_ok h
  cases h
  cases Dict.popKey_ok pops
  exact ⟨finished, rfl⟩

structure FreesRequest (sched : Scheduler H K) (ref : Ref) (next : Scheduler H K) : Prop where
  finished : (sched.objects ref).isFinished = true
  requests : next.requests = sched.requests ∨
    next.requests = sched.requests.erase (sched.requestId ref)
  rest : next = { sched with
    requests := next.requests
    kvCacheManager := next.kvCacheManager
    connectorState := next.connectorState
    encoderCacheManager := next.encoderCacheManager
    finishedReqIds := sched.finishedReqIds ++ [sched.requestId ref] }

theorem connectorFinished_ok (h : sched.connectorFinished cfg ref = .ok (delay, next)) :
    ∃ mgr state, next = { sched with kvCacheManager := mgr, connectorState := state } := by
  unfold connectorFinished at h
  split at h
  · cases h
    exact ⟨_, _, rfl⟩
  · obtain ⟨mgr, -, h⟩ := bind_ok h
    obtain ⟨-, h⟩ := assert_bind_ok h
    obtain ⟨⟨_, state⟩, -, h⟩ := bind_ok h
    cases h
    exact ⟨mgr, state, rfl⟩

def goesOn (req : Request H) : Bool :=
  req.resumable && match req.streamingQueue.getD [] with
    | some _ :: _ => true
    | _ => false

inductive Settles (sched : Scheduler H K) (ref : Ref) : Scheduler H K → Prop
  | finished {base next} (ends : goesOn (sched.objects ref) = false)
      (others : ∀ other, other ≠ ref → base.objects other = sched.objects other)
      (req : ∃ queue, base.objects ref = { sched.objects ref with streamingQueue := queue })
      (rest : base = { sched with objects := base.objects })
      (frees : FreesRequest base ref next) : Settles sched ref next
  | idle {queue} (ends : goesOn (sched.objects ref) = false)
      (queued : queue.Perm (ref :: sched.skippedWaiting)) :
      Settles sched ref { sched.setStatus ref .waitingForStreamingReq with
        numWaitingForStreamingInput := sched.numWaitingForStreamingInput + 1
        skippedWaiting := queue }
  | updated {session queue count} (continues : goesOn (sched.objects ref) = true)
      (sameId : session.requestId = (sched.objects ref).requestId)
      (status : session.status = .waiting)
      (queued : queue.Perm (ref :: sched.waiting)) :
      Settles sched ref { sched.modify ref (fun _ => session) with
        numWaitingForStreamingInput := count
        waiting := queue }

/-- An update keeps the id of the session and makes it wait. -/
theorem updateRequestAsSession_ok (h : updateRequestAsSession hasher session update = .ok updated) :
    updated.requestId = session.requestId ∧ updated.loraRequest = session.loraRequest ∧
      updated.status = .waiting := by
  unfold updateRequestAsSession at h
  split at h
  · cases h
  · cases h
    refine ⟨?_, ?_, rfl⟩ <;>
    · rw [updateBlockHashes_eq]
      rfl

theorem modify_modify (sched : Scheduler H K) (ref : Ref)
    (first second : Request H → Request H) :
    (sched.modify ref first).modify ref second = sched.modify ref (second ∘ first) := by
  simp only [modify, if_true]
  congr 1
  funext other
  split <;> rfl

theorem freeRequest_ok (h : sched.freeRequest cfg ref delay = .ok next) :
    FreesRequest sched ref next := by
  obtain ⟨finished, h⟩ := assert_bind_ok h
  obtain ⟨⟨_, _⟩, tells, h⟩ := bind_ok h
  obtain ⟨_, -, h⟩ := bind_ok h
  obtain ⟨_, _, rfl⟩ := connectorFinished_ok tells
  unfold freeUnlessDelayed at h
  split at h
  · cases h
    exact ⟨finished, .inl rfl, rfl⟩
  · obtain ⟨-, same⟩ := freeBlocks_ok h
    rw [same]
    exact ⟨finished, .inr rfl, rfl⟩

theorem settleStopped_ok (h : sched.settleStopped cfg ref = .ok next) :
    Settles sched ref next := by
  obtain ⟨⟨finished, _⟩, handles, h⟩ := bind_ok h
  simp only [handleStoppedRequest] at handles
  split at handles
  · rename_i notResumable
    cases handles
    have ends : goesOn (sched.objects ref) = false := by
      simp only [not_eq_true'] at notResumable
      simp [goesOn, notResumable]
    exact .finished ends (fun _ _ => rfl) ⟨_, rfl⟩ rfl (freeRequest_ok h)
  · split at handles
    · rename_i empty
      cases handles
      cases h
      have ends : goesOn (sched.objects ref) = false := by simp [goesOn, empty]
      have blocked : isBlockedWaitingStatus
          ((sched.setStatus ref .waitingForStreamingReq).objects ref).status = true := by
        rw [setStatus, modify_objects_self]
        rfl
      simp only [enqueueWaitingRequest, blocked]
      exact .idle ends (RequestQueue.addRequest_perm _ _)
    · rename_i queue closed
      cases handles
      have ends : goesOn (sched.objects ref) = false := by simp [goesOn, closed]
      exact .finished ends (fun other ne => modify_objects_of_ne _ _ ne)
        ⟨_, modify_objects_self _ _ _⟩ rfl (freeRequest_ok h)
    · rename_i resumable _ update queue pending
      obtain ⟨updated, updates, handles⟩ := bind_ok handles
      cases handles
      cases h
      obtain ⟨_, sessionUpdates, updates⟩ := bind_ok updates
      cases updates
      obtain ⟨sameId, -, status⟩ := updateRequestAsSession_ok sessionUpdates
      rw [modify_objects_self] at sameId
      have continues : goesOn (sched.objects ref) = true := by
        simp only [not_eq_true'] at resumable
        simp [goesOn, pending, resumable]
      simp only [enqueueWaitingRequest, modify_modify]
      simp only [modify_objects_self, Function.comp, status, isBlockedWaitingStatus]
      exact .updated continues sameId status (RequestQueue.addRequest_perm _ _)

/-- The second pass of `finish_requests` sets the status and frees the request. -/
theorem finishRequest_ok (h : finishRequest cfg finishedStatus sched ref = .ok next) :
    ∃ base, FreesRequest base ref next ∧ base = { sched.setStatus ref finishedStatus with
        finishedRecvingKvReqIds := base.finishedRecvingKvReqIds
        failedRecvingKvReqIds := base.failedRecvingKvReqIds } := by
  simp only [finishRequest] at h
  split at h
  · exact ⟨_, freeRequest_ok h, rfl⟩
  · exact ⟨_, freeRequest_ok h, rfl⟩

/-- What a failed load changes: counts of the requests that wait for it, cached blocks and
the notes of failed loads. -/
structure Truncates (sched next : Scheduler H K) : Prop where
  objects : ∀ ref, SameOutput (sched.objects ref) (next.objects ref)
  rest : next = { sched with
    objects := next.objects
    kvCacheManager := next.kvCacheManager
    failedRecvingKvReqIds := next.failedRecvingKvReqIds }

theorem Truncates.refl (sched : Scheduler H K) : Truncates sched sched :=
  ⟨fun _ => .refl _, rfl⟩

theorem Truncates.trans (first : Truncates sched next) (second : Truncates next third) :
    Truncates sched third := by
  refine ⟨fun ref => (first.objects ref).trans (second.objects ref), ?_⟩
  have rest := second.rest
  rw [first.rest] at rest
  exact rest

theorem updateRequestsWithInvalidBlocks_ok {requests : List Ref}
    (scanned : sched.updateRequestsWithInvalidBlocks cfg requests invalidBlockIds
      evictBlocks = .ok (scan, next)) : Truncates sched next := by
  refine foldlM_invariant (fun state : InvalidScan × Scheduler H K => Truncates sched state.2)
    ?_ (Truncates.refl sched) scanned
  intro state ref after _ kept round
  refine kept.trans ?_
  simp only [updateRequestWithInvalidBlocks] at round
  split at round
  · split at round
    · cases round
      refine ⟨?_, rfl⟩
      intro other
      by_cases same : other = ref
      · subst same
        rw [modify_objects_self]
        unfold truncateComputed
        split <;> rfl
      · rw [modify_objects_of_ne _ _ same]
        exact .refl _
    · cases round
      exact .refl _
  · cases round
  · cases round

variable [DecidableEq H]

theorem handleInvalidBlocks_ok
    (h : sched.handleInvalidBlocks cfg invalidBlockIds = .ok (failed, next)) :
    Truncates sched next := by
  unfold handleInvalidBlocks at h
  obtain ⟨⟨_, first⟩, asyncScanned, h⟩ := bind_ok h
  obtain ⟨⟨syncScan, second⟩, syncScanned, h⟩ := bind_ok h
  have scans := (updateRequestsWithInvalidBlocks_ok asyncScanned).trans
    (updateRequestsWithInvalidBlocks_ok syncScanned)
  refine scans.trans ?_
  simp only at h
  split at h
  · cases h
    exact .refl _
  · obtain ⟨evicted, evicts, h⟩ := bind_ok h
    have evictsOnly : Truncates second evicted := by
      unfold evictInvalid at evicts
      split at evicts
      · obtain ⟨_, -, evicts⟩ := bind_ok evicts
        cases evicts
        exact ⟨fun _ => .refl _, rfl⟩
      · cases evicts
        exact .refl _
    refine evictsOnly.trans ?_
    split at h
    · cases h
      exact .refl _
    · cases h
      exact ⟨fun _ => .refl _, rfl⟩

theorem handleLoadFailures_ok
    (h : sched.handleLoadFailures cfg output = .ok (failed, next)) :
    Truncates sched next := by
  unfold handleLoadFailures at h
  split at h
  · cases h
    exact .refl _
  · split at h
    · cases h
      exact .refl _
    · exact handleInvalidBlocks_ok h

theorem cacheOutput_ok (h : sched.cacheOutput ref statusBefore = .ok next) :
    ∃ mgr, next = sched.withKv mgr := by
  unfold cacheOutput at h
  split at h
  · obtain ⟨mgr, -, h⟩ := bind_ok h
    cases h
    exact ⟨mgr, rfl⟩
  · cases h
    exact ⟨_, rfl⟩

theorem updateRequestWithOutput_ok
    (h : sched.updateRequestWithOutput cfg ref generated = .ok ((kept, stopped), next)) :
    Applies sched ref stopped next ∧
      (stopped = true → ∃ last, appendOutput cfg generated (sched.objects ref) =
        .ok ((kept, true), last)) ∧ (stopped = true → cfg.asyncScheduling = true →
        (sched.objects ref).discardLatestAsyncTokens = false) := by
  unfold updateRequestWithOutput at h
  split at h
  · simp only [asyncUpdateRequestWithOutput] at h
    split at h
    · cases h
      refine ⟨⟨?_, fun other ne => modify_objects_of_ne _ _ ne, rfl⟩, by simp, by simp⟩
      rw [modify_objects_self]
      exact ⟨rfl, rfl, rfl, rfl⟩
    · rename_i kept
      obtain ⟨⟨⟨keptTokens, stops⟩, appended⟩, appends, h⟩ := bind_ok h
      obtain ⟨-, h⟩ := assert_bind_ok h
      obtain ⟨_, caches, h⟩ := bind_ok h
      cases h
      obtain ⟨_, rfl⟩ := cacheOutput_ok caches
      have spec := appendOutput_appends appends
      refine ⟨⟨?_, fun other ne => if_neg ne, rfl⟩, ?_, ?_⟩
      · simp only [withKv, modify_objects_self]
        exact { spec with }
      · rintro rfl
        exact ⟨_, appends⟩
      · intro _ _
        simpa using kept
  · rename_i sync
    obtain ⟨⟨⟨keptTokens, stops⟩, appended⟩, appends, h⟩ := bind_ok h
    cases h
    refine ⟨⟨?_, fun other ne => modify_objects_of_ne _ _ ne, rfl⟩, ?_, ?_⟩
    · rw [modify_objects_self]
      exact appendOutput_appends appends
    · rintro rfl
      exact ⟨_, appends⟩
    · intro _ async
      exact absurd async sync

theorem applyOutput_ok
    (h : sched.applyOutput cfg ref generated hasPoolerOutput = .ok ((kept, stopped), next)) :
    Applies sched ref stopped next ∧
      (stopped = true → outputStops cfg (sched.objects ref) generated hasPoolerOutput = true) := by
  unfold applyOutput at h
  split at h
  · rename_i some
    have nonempty : generated.isEmpty = false := by simpa using some
    obtain ⟨applies, appends, kept⟩ := updateRequestWithOutput_ok h
    refine ⟨applies, ?_⟩
    intro stops
    obtain ⟨_, same⟩ := appends stops
    simp only [outputStops, nonempty, same]
    cases async : cfg.asyncScheduling with
    | false => rfl
    | true => simp [kept stops async]
  · rename_i none
    have empty : generated.isEmpty = true := by simpa using none
    split at h
    · rename_i pooled
      cases h
      refine ⟨⟨?_, fun other ne => modify_objects_of_ne _ _ ne, rfl⟩, ?_⟩
      · rw [setStatus, modify_objects_self]
        exact ⟨rfl, rfl, rfl, rfl⟩
      · intro _
        simpa only [outputStops, empty, if_true] using pooled
    · cases h
      exact ⟨⟨⟨rfl, rfl, rfl, rfl⟩, fun _ _ => rfl, rfl⟩, by simp⟩

end Scheduler

def ModelRunnerOutput.outputFor (runnerOutput : ModelRunnerOutput) (reqId : String) :
    Py (List TokenId × Bool) := do
  let reqIndex ← runnerOutput.reqIdToIndex.lookup reqId
  let generated ← Scheduler.atIndex runnerOutput.sampledTokenIds [] reqIndex
  let hasPoolerOutput ← Scheduler.atIndex runnerOutput.poolerOutput false reqIndex
  return (generated, hasPoolerOutput)

namespace Scheduler
variable [DecidableEq H] {output : SchedulerOutput M} {runnerOutput : ModelRunnerOutput}

/-- What a round of the loop of `update_from_output` does for a live request. -/
inductive UpdatesLive (cfg : SchedulerConfig H K M) (runnerOutput : ModelRunnerOutput)
    (state : UpdateState H K) (reqId : String) (ref : Ref) : UpdateState H K → Prop
  | goesOn {applied outputs} (applies : Applies state.scheduler ref false applied) :
      UpdatesLive cfg runnerOutput state reqId ref
        { state with scheduler := applied, outputs := outputs }
  | stops {generated hasPoolerOutput applied settled outputs}
      (found : runnerOutput.outputFor reqId = .ok (generated, hasPoolerOutput))
      (stopped : outputStops cfg (state.scheduler.objects ref) generated hasPoolerOutput = true)
      (applies : Applies state.scheduler ref true applied) (settles : Settles applied ref settled) :
      UpdatesLive cfg runnerOutput state reqId ref {
        scheduler := settled
        stoppedRunningReqs := if (state.scheduler.objects ref).status = .running
          then state.stoppedRunningReqs ++ [ref] else state.stoppedRunningReqs
        stoppedPreemptedReqs := if (state.scheduler.objects ref).status = .running
          then state.stoppedPreemptedReqs else state.stoppedPreemptedReqs ++ [ref]
        outputs := outputs }

theorem updateLive_ok (h : updateLive cfg output runnerOutput state reqId ref = .ok next) :
    UpdatesLive cfg runnerOutput state reqId ref next := by
  obtain ⟨_, index, h⟩ := bind_ok h
  obtain ⟨generated, tokens, h⟩ := bind_ok h
  obtain ⟨hasPoolerOutput, pooler, h⟩ := bind_ok h
  obtain ⟨⟨⟨_, stopped⟩, applied⟩, appends, h⟩ := bind_ok h
  obtain ⟨sameOutput, others, rest⟩ := settleDrafts_objects state.scheduler ref
    ((output.scheduledSpecDecodeTokens.get? reqId).getD []) generated
  obtain ⟨applies, stops⟩ := applyOutput_ok appends
  -- Settling the drafts only changes counts of the request.
  have whole : Applies state.scheduler ref stopped applied := by
    constructor
    · have req := applies.request
      rw [sameOutput] at req
      exact { req with }
    · intro other ne
      rw [applies.others other ne, others other ne]
    · rw [applies.rest, rest]
  have found : runnerOutput.outputFor reqId = .ok (generated, hasPoolerOutput) := by
    simp only [ModelRunnerOutput.outputFor, index, tokens, pooler, ok_bind]
    rfl
  have status := sameOutput.status
  cases stopped with
  | false =>
    simp only [false_eq_true, if_false] at h
    split at h
    · cases h
      exact .goesOn whole
    · cases h
      exact .goesOn whole
  | true =>
    obtain ⟨_, settles, h⟩ := bind_ok h
    cases h
    simp only [status]
    exact .stops found (outputStops_same sameOutput (stops rfl)) whole (settleStopped_ok settles)

end Scheduler
end Vllm
