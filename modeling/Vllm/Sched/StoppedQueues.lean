import Vllm.Sched.Queues
import Vllm.Sched.Lifecycle

/-! The queues after the output of a step. A request that its output stops is taken out of
the running queue, or out of the waiting queue if it was not running, and a session that
goes on is queued again. This keeps the queues a partition of the live requests unless a
request stops while it is not running and sits in the other waiting queue. -/
namespace Vllm.Scheduler
open List hiding next
open Py
variable {H K M : Type} {cfg : SchedulerConfig H K M} {sched : Scheduler H K} {ref : Ref}
  {running : List Ref}
theorem perm_cons_filter {list : List Ref} (unique : list.Nodup) (mem : ref ∈ list) :
    list.Perm (ref :: list.filter (· ≠ ref)) := by
  have erased := perm_cons_erase mem
  rw [unique.erase_eq_filter] at erased
  have same : list.filter (· != ref) = list.filter (· ≠ ref) :=
    filter_congr (fun _ _ => by simp [bne, BEq.beq])
  rw [same] at erased
  exact erased

theorem filter_ne_self {list : List Ref} (absent : ref ∉ list) : list.filter (· ≠ ref) = list := by
  apply filter_eq_self.mpr
  intro _ mem
  simp only [decide_eq_true_eq]
  rintro rfl
  exact absent mem

theorem Applies.changes (applies : Applies sched ref stopped next) :
    ChangesOne sched ref next where
  requests := by rw [applies.rest]
  numObjects := by rw [applies.rest]
  others := applies.others
  id := applies.request.requestId

/-- The queues that the loop of `update_from_output` will leave: the stopped requests are
still to be removed. -/
def leftWaiting (sched : Scheduler H K) (gone : List Ref) : List Ref :=
  sched.waiting.filter (· ∉ gone) ++ sched.skippedWaiting

section Settles
variable {applied settled : Scheduler H K} {gone : List Ref}
  (placed : Placed sched running (sched.leftWaiting gone)) (live : sched.Live ref)
  (applies : Applies sched ref true applied)
include placed live applies

theorem finished_placed (others : ∀ other, other ≠ ref → base.objects other = applied.objects other)
    (req : ∃ queue, base.objects ref = { applied.objects ref with streamingQueue := queue })
    (rest : base = { applied with objects := base.objects })
    (frees : FreesRequest base ref settled) :
    Placed settled (running.filter (· ≠ ref)) ((sched.leftWaiting gone).filter (· ≠ ref)) := by
  obtain ⟨queue, req⟩ := req
  have finished := applies.request.status
  have changes : ChangesOne sched ref base := by
    refine applies.changes.trans ⟨by rw [rest], by rw [rest], others, ?_⟩
    rw [requestId, req]
    rfl
  have left := placed.finishes changes
    (by rw [status, req]; exact finished) (.refl _) (.refl _)
  refine frees.placed left ?_
  rw [changes.id, changes.requests]
  exact live.1

theorem Settles.placed_running (isRunning : sched.status ref = .running) (notGone : ref ∉ gone)
    (settles : Settles applied ref settled) :
    Placed settled (running.filter (· ≠ ref)) (settled.leftWaiting gone) := by
  have mem : ref ∈ running := placed.mem_running.mpr ⟨live, isRunning⟩
  have absent : ref ∉ sched.leftWaiting gone :=
    fun inside => (placed.mem_outside.mp inside).2 isRunning
  have left := perm_cons_filter placed.nodup_running mem
  have waiting : applied.waiting = sched.waiting := by rw [applies.rest]
  have skipped : applied.skippedWaiting = sched.skippedWaiting := by rw [applies.rest]
  cases settles with
  | finished ends others req rest frees =>
    have after := finished_placed placed live applies others req rest frees
    have same : settled.leftWaiting gone = sched.leftWaiting gone := by
      rw [leftWaiting, leftWaiting, frees.queues.2.1, frees.queues.2.2, rest, waiting, skipped]
    rw [same]
    rw [filter_ne_self absent] at after
    exact after
  | @idle queue ends queued =>
    have changes := applies.changes.trans (.modify applied ref
      (fun req => { req with status := .waitingForStreamingReq }) rfl)
    rw [skipped] at queued
    have entered : (applied.waiting.filter (· ∉ gone) ++ queue).Perm
        (ref :: sched.leftWaiting gone) := by
      rw [waiting]
      exact (queued.append_left _).trans perm_middle
    have moved := placed.toOutside changes (by rw [status, modify_objects_self]; rfl)
      (by rw [status, modify_objects_self]; simp) left entered
    exact moved.congr rfl rfl (fun _ => rfl) (fun _ => rfl) (.refl _) (.refl _)
  | @updated session queue count continues sameId waits queued =>
    have changes := applies.changes.trans (.modify applied ref (fun _ => session) sameId)
    rw [waiting] at queued
    have entered : (queue.filter (· ∉ gone) ++ applied.skippedWaiting).Perm
        (ref :: sched.leftWaiting gone) := by
      have filtered := queued.filter (fun ref => decide (ref ∉ gone))
      rw [filter_cons_of_pos (by simpa using notGone)] at filtered
      rw [skipped]
      exact filtered.append_right _
    have moved := placed.toOutside changes (by rw [status, modify_objects_self, waits]; rfl)
      (by rw [status, modify_objects_self, waits]; simp) left entered
    exact moved.congr rfl rfl (fun _ => rfl) (fun _ => rfl) (.refl _) (.refl _)

/-- A request that stops outside the running queue is taken out of the waiting queue, which
is right if it is there and not to stay, or if it is to stay and in the other queue. -/
theorem Settles.placed_outside (notRunning : sched.status ref ≠ .running) (notGone : ref ∉ gone)
    (inPlace : ref ∈ sched.waiting ↔ goesOn (sched.objects ref) = false)
    (settles : Settles applied ref settled) :
    Placed settled running (settled.leftWaiting (gone ++ [ref])) := by
  have mem : ref ∈ sched.leftWaiting gone := placed.mem_outside.mpr ⟨live, notRunning⟩
  have absent : ref ∉ running := fun inside => notRunning (placed.mem_running.mp inside).2
  have waiting : applied.waiting = sched.waiting := by rw [applies.rest]
  have skipped : applied.skippedWaiting = sched.skippedWaiting := by rw [applies.rest]
  have sameGoesOn : goesOn (applied.objects ref) = goesOn (sched.objects ref) := by
    rw [goesOn, goesOn, applies.request.resumable, applies.request.streamingQueue]
  have unique := placed.nodup_outside
  -- A request in the waiting queue is not in the other one.
  have apart (inside : ref ∈ sched.waiting) : ref ∉ sched.skippedWaiting := by
    intro other
    have := (nodup_append.mp unique).2.2 ref
      (mem_filter.mpr ⟨inside, by simpa using notGone⟩) ref other
    exact this rfl
  have removed (inside : ref ∈ sched.waiting) :
      (sched.waiting.filter (· ∉ gone ++ [ref]) ++ sched.skippedWaiting) =
        (sched.leftWaiting gone).filter (· ≠ ref) := by
    rw [leftWaiting, filter_append, filter_done, filter_ne_self (apart inside)]
  cases settles with
  | finished ends others req rest frees =>
    rw [sameGoesOn] at ends
    have after := finished_placed placed live applies others req rest frees
    rw [filter_ne_self absent, ← removed (inPlace.mpr ends)] at after
    rw [leftWaiting, frees.queues.2.1, frees.queues.2.2, rest, waiting, skipped]
    exact after
  | @idle queue ends queued =>
    rw [sameGoesOn] at ends
    have changes := applies.changes.trans (.modify applied ref
      (fun req => { req with status := .waitingForStreamingReq }) rfl)
    rw [skipped] at queued
    have same : (applied.waiting.filter (· ∉ gone ++ [ref]) ++ queue).Perm
        (sched.leftWaiting gone) := by
      rw [waiting]
      refine ((queued.append_left _).trans perm_middle).trans ?_
      rw [removed (inPlace.mpr ends)]
      exact (perm_cons_filter unique mem).symm
    have moved := placed.staysOutside changes (by rw [status, modify_objects_self]; rfl)
      (by rw [status]; simp) mem same
    exact moved.congr rfl rfl (fun _ => rfl) (fun _ => rfl) (.refl _) (.refl _)
  | @updated session queue count continues sameId waits queued =>
    rw [sameGoesOn] at continues
    have changes := applies.changes.trans (.modify applied ref (fun _ => session) sameId)
    have elsewhere : ref ∉ sched.waiting := fun inside => by
      rw [inPlace.mp inside] at continues
      cases continues
    rw [waiting] at queued
    have same : (queue.filter (· ∉ gone ++ [ref]) ++ applied.skippedWaiting).Perm
        (sched.leftWaiting gone) := by
      have filtered := queued.filter (fun other => decide (other ∉ gone ++ [ref]))
      rw [filter_cons_of_neg (by simp), filter_done sched.waiting,
        filter_ne_self (fun inside => elsewhere (mem_filter.mp inside).1)] at filtered
      rw [skipped]
      exact filtered.append_right _
    have moved := placed.staysOutside changes (by rw [status, modify_objects_self, waits]; rfl)
      (by rw [status, modify_objects_self, waits]; simp) mem same
    exact moved.congr rfl rfl (fun _ => rfl) (fun _ => rfl) (.refl _) (.refl _)

end Settles

structure Settles.Frame (sched : Scheduler H K) (ref : Ref) (next : Scheduler H K) : Prop where
  running : next.running = sched.running
  others : ∀ other, other ≠ ref → next.objects other = sched.objects other
  waiting : ∀ other, other ≠ ref → (other ∈ next.waiting ↔ other ∈ sched.waiting)
  id : next.requestId ref = sched.requestId ref
  requests : ∀ id target, next.requests.get? id = some target →
    sched.requests.get? id = some target

theorem Settles.frame (settles : Settles sched ref next) : Settles.Frame sched ref next := by
  cases settles with
  | finished ends others req rest frees =>
    obtain ⟨queue, req⟩ := req
    have objects := congrArg objects frees.rest
    constructor
    · rw [frees.queues.1, rest]
    · intro other ne
      rw [objects]
      exact others other ne
    · intro other _
      rw [frees.queues.2.1, rest]
    · rw [requestId, objects, req]
      rfl
    · intro id _ found
      have same : sched.requests = _ := (congrArg requests rest).symm
      rw [same]
      obtain kept | erased := frees.requests
      · rw [← kept]
        exact found
      · rw [erased, Dict.get?_erase] at found
        split at found
        · cases found
        · exact found
  | idle ends queued =>
    have id := (ChangesOne.modify sched ref
      (fun req => { req with status := .waitingForStreamingReq }) rfl).id
    exact ⟨rfl, fun other ne => if_neg ne, fun _ _ => Iff.rfl, id, fun _ _ found => found⟩
  | @updated session queue count continues sameId waits queued =>
    have id := (ChangesOne.modify sched ref (fun _ => session) sameId).id
    refine ⟨rfl, fun other ne => if_neg ne, ?_, id, fun _ _ found => found⟩
    intro other ne
    rw [queued.mem_iff]
    simp [ne]

/-- What holds in the loop of `update_from_output` after the entries `prior`. -/
structure Updating (start : Scheduler H K) (prior : List (String × Int))
    (state : UpdateState H K) : Prop where
  placed : Placed state.scheduler
    (state.scheduler.running.filter (· ∉ state.stoppedRunningReqs))
    (state.scheduler.leftWaiting state.stoppedPreemptedReqs)
  running : state.scheduler.running = start.running
  ids : ∀ ref, state.scheduler.requestId ref = start.requestId ref
  requests : ∀ id ref, state.scheduler.requests.get? id = some ref →
    start.requests.get? id = some ref
  stopped : ∀ ref, ref ∈ state.stoppedRunningReqs ∨ ref ∈ state.stoppedPreemptedReqs →
    start.requestId ref ∈ prior.map Prod.fst
  pending : ∀ ref, start.requestId ref ∉ prior.map Prod.fst →
    state.scheduler.objects ref = start.objects ref ∧
      (ref ∈ state.scheduler.waiting ↔ ref ∈ start.waiting)

namespace Updating
variable {start : Scheduler H K} {prior : List (String × Int)} {state : UpdateState H K}
  {entry : String × Int}

theorem skip (updating : Updating start prior state) :
    Updating start (prior ++ [entry]) state := by
  refine { updating with stopped := ?_, pending := ?_ }
  · intro ref mem
    rw [map_append]
    exact mem_append_left _ (updating.stopped ref mem)
  · intro ref fresh
    rw [map_append] at fresh
    exact updating.pending ref (fun mem => fresh (mem_append_left _ mem))

variable (updating : Updating start prior state) (sameId : start.requestId ref = entry.1)
include updating sameId

omit updating in
/-- The requests that are still pending are not the one that changes. -/
theorem ne_of_fresh (fresh : start.requestId other ∉ (prior ++ [entry]).map Prod.fst) :
    other ≠ ref ∧ start.requestId other ∉ prior.map Prod.fst := by
  simp only [map_append, map_cons, map_nil, mem_append, mem_singleton, not_or] at fresh
  exact ⟨fun same => fresh.2 (by rw [same, sameId]), fresh.1⟩

theorem keep (applies : Applies state.scheduler ref false applied) :
    Updating start (prior ++ [entry]) { state with scheduler := applied, outputs := outputs } := by
  have rest := applies.rest
  have id (other : Ref) : applied.requestId other = state.scheduler.requestId other := by
    by_cases same : other = ref
    · rw [same]
      exact applies.request.requestId
    · rw [requestId, requestId, applies.others other same]
  have status (other : Ref) : applied.status other = state.scheduler.status other := by
    by_cases same : other = ref
    · rw [same]
      exact applies.request.status
    · rw [Scheduler.status, Scheduler.status, applies.others other same]
  refine ⟨?_, ?_, ?_, ?_, updating.skip.stopped, ?_⟩
  · have running : applied.running = state.scheduler.running := by rw [rest]
    have waiting : applied.leftWaiting state.stoppedPreemptedReqs =
      state.scheduler.leftWaiting state.stoppedPreemptedReqs := by rw [leftWaiting, rest]; rfl
    simp only [running, waiting]
    exact updating.placed.congr (by rw [rest]) (by rw [rest]) id status (.refl _) (.refl _)
  · rw [← updating.running, rest]
  · intro other
    exact (id other).trans (updating.ids other)
  · intro key other found
    refine updating.requests key other ?_
    rw [← found, rest]
  · intro other fresh
    obtain ⟨ne, older⟩ := ne_of_fresh sameId fresh
    have before := updating.pending other older
    refine ⟨(applies.others other ne).trans before.1, ?_⟩
    rw [← before.2, rest]

theorem stop (applies : Applies state.scheduler ref true applied)
    (settles : Settles applied ref settled) (live : state.scheduler.Live ref)
    (first : entry.1 ∉ prior.map Prod.fst)
    (inPlace : state.scheduler.status ref ≠ .running → (ref ∈ state.scheduler.waiting ↔ goesOn
      (state.scheduler.objects ref) = false)) : Updating start (prior ++ [entry]) {
      scheduler := settled
      stoppedRunningReqs := if (state.scheduler.objects ref).status = .running
        then state.stoppedRunningReqs ++ [ref] else state.stoppedRunningReqs
      stoppedPreemptedReqs := if (state.scheduler.objects ref).status = .running
        then state.stoppedPreemptedReqs else state.stoppedPreemptedReqs ++ [ref]
      outputs := outputs } := by
  have frame := settles.frame
  have running : settled.running = state.scheduler.running := by
    rw [frame.running, applies.rest]
  have notStopped : ref ∉ state.stoppedPreemptedReqs := by
    intro mem
    have seen := updating.stopped ref (.inr mem)
    rw [sameId] at seen
    exact first seen
  refine ⟨?_, running.trans updating.running, ?_, ?_, ?_, ?_⟩
  · simp only [running]
    by_cases isRunning : (state.scheduler.objects ref).status = .running
    · rw [if_pos isRunning, if_pos isRunning, filter_done]
      exact settles.placed_running updating.placed live applies isRunning notStopped
    · rw [if_neg isRunning, if_neg isRunning]
      exact settles.placed_outside updating.placed live applies isRunning notStopped
        (inPlace isRunning)
  · intro other
    rw [← updating.ids other]
    by_cases same : other = ref
    · rw [same, frame.id]
      exact applies.request.requestId
    · rw [requestId, requestId, frame.others other same, applies.others other same]
  · intro key other found
    refine updating.requests key other ?_
    rw [← frame.requests key other found, applies.rest]
  · intro other mem
    rw [map_append, mem_append]
    have either : other = ref ∨
        (other ∈ state.stoppedRunningReqs ∨ other ∈ state.stoppedPreemptedReqs) := by
      by_cases isRunning : (state.scheduler.objects ref).status = .running
      · simp only [if_pos isRunning, mem_append, mem_singleton] at mem
        tauto
      · simp only [if_neg isRunning, mem_append, mem_singleton] at mem
        tauto
    obtain same | older := either
    · right
      rw [same, sameId]
      exact mem_singleton.mpr rfl
    · exact .inl (updating.stopped other older)
  · intro other fresh
    obtain ⟨ne, older⟩ := ne_of_fresh sameId fresh
    have before := updating.pending other older
    refine ⟨(frame.others other ne).trans ((applies.others other ne).trans before.1), ?_⟩
    rw [frame.waiting other ne, ← before.2, applies.rest]

end Updating

theorem Updating.partitioned (updating : Updating start entries state)
    (unique : start.running.Nodup) (policy : SchedulingPolicy) :
    Partitioned (removeStopped policy state) [] := by
  refine Placed.congr updating.placed rfl rfl (fun _ => rfl) (fun _ => rfl) ?_ ?_
  · simp only [removeStopped]
    rw [removeAll_eq (by rw [updating.running]; exact unique)]
  · simp only [removeStopped, outside, leftWaiting, append_nil]
    refine Perm.append_right _ ?_
    split
    · rename_i empty
      rw [List.isEmpty_iff.mp empty]
      simp
    · exact RequestQueue.removeRequests_perm _ _

theorem failLoads_partitioned (parts : Partitioned sched [])
    (h : sched.failLoads cfg failed = .ok (outputs, next)) : Partitioned next [] := by
  unfold failLoads at h
  split at h
  · obtain ⟨_, -, h⟩ := bind_ok h
    obtain ⟨⟨_, _⟩, finishes, h⟩ := bind_ok h
    cases h
    exact finishRequests_partitioned parts finishes
  · cases h
    exact parts

variable [DecidableEq H] {output : SchedulerOutput M} {runnerOutput : ModelRunnerOutput}

section
variable (cfg : SchedulerConfig H K M) (sched : Scheduler H K) (output : SchedulerOutput M)
  (runnerOutput : ModelRunnerOutput)

def stopsWith (reqId : String) (ref : Ref) : Bool :=
  match runnerOutput.outputFor reqId with
  | .ok (generated, hasPoolerOutput) =>
    outputStops cfg (sched.objects ref) generated hasPoolerOutput
  | .error _ => false

/-- A request that an output stops while it is not running is in the waiting queue, unless
it goes on with a queued update. -/
def StopsInPlace : Prop :=
  ∀ reqId ∈ output.numScheduledTokens.keys, ∀ ref ∈ sched.requests.get? reqId,
    (sched.status ref).isFinished = false → sched.status ref ≠ .running →
      stopsWith cfg sched runnerOutput reqId ref = true →
        (ref ∈ sched.waiting ↔ goesOn (sched.objects ref) = false)

end

instance (cfg : SchedulerConfig H K M) (sched : Scheduler H K)
    (output : SchedulerOutput M) (runnerOutput : ModelRunnerOutput) :
    Decidable (StopsInPlace cfg sched output runnerOutput) := by
  unfold StopsInPlace
  infer_instance


theorem updateEntry_updating {after : UpdateState H K} (truncates : Truncates sched start)
    (inPlace : StopsInPlace cfg sched output runnerOutput)
    (split : output.numScheduledTokens.entries = prior ++ entry :: later)
    (updating : Updating start prior state)
    (h : updateEntry cfg output runnerOutput failed state entry = .ok after) :
    Updating start (prior ++ [entry]) after := by
  have first : entry.1 ∉ prior.map Prod.fst := by
    have unique := output.numScheduledTokens.nodup
    rw [split, map_append] at unique
    intro mem
    exact (nodup_append.mp unique).2.2 entry.1 mem entry.1 (mem_cons_self ..) rfl
  unfold updateEntry at h
  obtain ⟨-, h⟩ := assert_bind_ok h
  split at h
  · cases h
    exact updating.skip
  split at h
  · cases h
    exact updating.skip
  rename_i ref found
  split at h
  · cases h
    exact updating.skip
  rename_i unfinished
  have registered := updating.requests _ _ found
  have live : state.scheduler.Live ref := by
    refine ⟨?_, by simpa [status, Request.isFinished] using unfinished⟩
    rw [(updating.placed.named _ _ found).1]
    exact found
  have sameId : start.requestId ref = entry.1 := by
    rw [← updating.ids ref]
    exact (updating.placed.named _ _ found).1
  cases updateLive_ok h with
  | goesOn applies => exact updating.keep sameId applies
  | stops outputFound stopped applies settles =>
    refine updating.stop sameId applies settles live first ?_
    intro notRunning
    -- The request has not changed since the call, but for counts that its output does not read.
    obtain ⟨sameObject, sameWaiting⟩ := updating.pending ref (by rw [sameId]; exact first)
    have same := truncates.objects ref
    have requests : sched.requests = start.requests :=
      (congrArg Scheduler.requests truncates.rest).symm
    have waiting : sched.waiting = start.waiting :=
      (congrArg Scheduler.waiting truncates.rest).symm
    have sameStatus : state.scheduler.status ref = sched.status ref := by
      rw [status, sameObject]
      exact same.status
    have sameGoesOn : goesOn (state.scheduler.objects ref) = goesOn (sched.objects ref) := by
      rw [sameObject, same]
      rfl
    rw [sameWaiting, sameGoesOn, ← waiting]
    refine inPlace entry.1 ?_ ref ?_ ?_ ?_ ?_
    · rw [Dict.keys, split]
      simp
    · rw [requests]
      exact registered
    · rw [← sameStatus]
      exact live.2
    · rw [← sameStatus]
      exact notRunning
    · rw [sameObject] at stopped
      simp only [stopsWith, outputFound]
      exact outputStops_same same stopped

theorem updateFromOutput_partitioned (parts : Partitioned sched [])
    (inPlace : StopsInPlace cfg sched output runnerOutput)
    (h : sched.updateFromOutput cfg output runnerOutput = .ok (outputs, next)) :
    Partitioned next [] := by
  unfold updateFromOutput at h
  obtain ⟨⟨failed, start⟩, scans, h⟩ := bind_ok h
  obtain ⟨state, loop, h⟩ := bind_ok h
  obtain ⟨⟨errors, afterFailed⟩, fails, h⟩ := bind_ok h
  obtain ⟨transferred, transfers, h⟩ := bind_ok h
  cases h
  have truncates := handleLoadFailures_ok scans
  have rest := truncates.rest
  have before : Partitioned start [] := by
    refine Placed.congr parts (by rw [rest]) (by rw [rest]) ?_ ?_ (by rw [rest])
      (by rw [rest]; rfl)
    · intro ref
      rw [requestId, truncates.objects ref]
      rfl
    · intro ref
      exact (truncates.objects ref).status
  have began : Updating start [] { scheduler := start } := by
    refine ⟨?_, rfl, fun _ => rfl, fun _ _ found => found, by simp, fun _ _ => ⟨rfl, Iff.rfl⟩⟩
    refine Placed.congr before rfl rfl (fun _ => rfl) (fun _ => rfl) ?_ ?_
    · simp
    · simp [leftWaiting, Scheduler.outside]
  have ended := foldlM_items (Updating start)
    (fun split kept done => updateEntry_updating truncates inPlace split kept done) began loop
  have removed := ended.partitioned before.nodup_running cfg.policy
  exact (updateFromKvXferFinished_steady transfers).partitioned
    (failLoads_partitioned removed fails)

end Vllm.Scheduler
