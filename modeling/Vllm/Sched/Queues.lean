import Vllm.Sched.Partition
import Vllm.Sched.Outcomes

/-! Clients keep the queues a partition of the live requests: a new request enters a queue,
and requests that are finished leave the queue that their status points to. -/
namespace Vllm.Scheduler
open List hiding next
open Py Dict
variable {H K M : Type} {cfg : SchedulerConfig H K M} {sched next : Scheduler H K}
  {ref : Ref}
  {running outside : List Ref}

theorem FreesRequest.placed (frees : FreesRequest sched ref next)
    (placed : Placed sched running outside)
    (registered : sched.requests.get? (sched.requestId ref) = some ref) :
    Placed next running outside := by
  have rest := frees.rest
  have objects : next.objects = sched.objects := by rw [rest]
  have numObjects : next.numObjects = sched.numObjects := by rw [rest]
  obtain same | erased := frees.requests
  · refine placed.congr same numObjects ?_ ?_ (.refl _) (.refl _)
    all_goals
      intro _
      simp only [requestId, status, objects]
  · exact placed.forget registered frees.finished erased numObjects objects

theorem FreesRequest.queues (frees : FreesRequest sched ref next) :
    next.running = sched.running ∧ next.waiting = sched.waiting ∧
      next.skippedWaiting = sched.skippedWaiting := by
  rw [frees.rest]
  exact ⟨rfl, rfl, rfl⟩

section Finish
variable {finishedStatus : RequestStatus}

theorem liveRefs_live (named : sched.Named) {ids : List String}
    (mem : ref ∈ sched.liveRefs ids) : sched.Live ref := by
  obtain ⟨id, -, found⟩ := mem_filterMap.mp mem
  split at found
  · cases found
  · rename_i stored registered
    split at found
    · cases found
    · rename_i unfinished
      cases found
      refine ⟨?_, by simpa [status, Request.isFinished] using unfinished⟩
      rw [(named id ref registered).1]
      exact registered

theorem liveRefs_ids (named : sched.Named) (ids : List String) :
    ((sched.liveRefs ids).map sched.requestId).Sublist ids := by
  induction ids with
  | nil => exact .slnil
  | cons id ids ih =>
    simp only [liveRefs, filterMap_cons] at ih ⊢
    split
    · exact ih.cons _
    · rename_i ref found
      have same : sched.requestId ref = id := by
        split at found
        · cases found
        · rename_i registered
          split at found
          · cases found
          · cases found
            exact (named id ref registered).1
      rw [map_cons, same]
      exact ih.cons_cons _

theorem liveRefs_nodup (named : sched.Named) (unique : ids.Nodup) :
    (sched.liveRefs ids).Nodup :=
  List.Nodup.of_map _ (unique.sublist (liveRefs_ids named ids))

theorem removeAll_eq (unique : list.Nodup) (items : List Ref) :
    removeAll list items = list.filter (· ∉ items) := by
  match items with
  | [] => simp [removeAll]
  | [item] =>
    rw [removeAll, unique.erase_eq_filter]
    congr 1
    simp [bne, BEq.beq]
  | _ :: _ :: _ => rfl

/-- Taking out one more item. -/
theorem filter_done (list prior : List Ref) (item : Ref) :
    list.filter (· ∉ prior ++ [item]) = (list.filter (· ∉ prior)).filter (· ≠ item) := by
  rw [filter_filter]
  apply filter_congr
  intro _ _
  simp [and_comm, not_or]

/-- A live request that is not done yet is still in its place. -/
theorem Placed.live_of_pending {prior : List Ref} (placed : Placed sched running outside)
    (pending : Placed state (running.filter (· ∉ prior)) (outside.filter (· ∉ prior)))
    (live : sched.Live ref) (notDone : ref ∉ prior) : state.Live ref := by
  by_cases isRunning : sched.status ref = .running
  · have mem := placed.mem_running.mpr ⟨live, isRunning⟩
    exact (pending.mem_running.mp (mem_filter.mpr ⟨mem, by simpa using notDone⟩)).1
  · have mem := placed.mem_outside.mpr ⟨live, isRunning⟩
    exact (pending.mem_outside.mp (mem_filter.mpr ⟨mem, by simpa using notDone⟩)).1

theorem finishRequest_placed (isFinished : finishedStatus.isFinished = true)
    (placed : Placed sched running outside) (live : sched.Live ref)
    (finished : finishRequest cfg finishedStatus sched ref = .ok next) :
    Placed next (running.filter (· ≠ ref)) (outside.filter (· ≠ ref)) := by
  obtain ⟨base, frees, rest⟩ := finishRequest_ok finished
  have req : base.objects ref = { sched.objects ref with status := finishedStatus } := by
    rw [rest]
    exact if_pos rfl
  have id : base.requestId ref = sched.requestId ref := by
    rw [requestId, req]
    rfl
  have requests : base.requests = sched.requests := by rw [rest]; rfl
  have left : Placed base (running.filter (· ≠ ref)) (outside.filter (· ≠ ref)) := by
    refine placed.finishes ⟨requests, by rw [rest]; rfl, ?_, id⟩ ?_ (.refl _) (.refl _)
    · intro _ ne
      rw [rest]
      exact if_neg ne
    · rw [status, req]
      exact isFinished
  refine frees.placed left ?_
  rw [id, requests]
  exact live.1

theorem finishRequest_queues
    (finished : finishRequest cfg finishedStatus sched ref = .ok next) :
    next.running = sched.running ∧ next.waiting = sched.waiting ∧
      next.skippedWaiting = sched.skippedWaiting := by
  obtain ⟨_, frees, rest⟩ := finishRequest_ok finished
  have queues := frees.queues
  rw [rest] at queues
  exact queues

/-- The queues without the given requests. -/
theorem dequeue_perm (policy : SchedulingPolicy) (parts : Partitioned sched [])
    (refs : List Ref) : (sched.dequeue policy refs).running.Perm
        (sched.running.filter (· ∉ refs)) ∧ ((sched.dequeue policy refs).outside []).Perm
        ((sched.outside []).filter (· ∉ refs)) := by
  constructor
  · simp only [dequeue]
    rw [removeAll_eq parts.nodup_running]
    -- A running request is asked for if and only if it is among the running ones asked for.
    have same : sched.running.filter (· ∉ refs.filter (fun ref =>
        decide ((sched.objects ref).status = .running))) =
        sched.running.filter (· ∉ refs) := by
      apply filter_congr
      intro ref mem
      have isRunning : (sched.objects ref).status = .running :=
        (parts.mem_running.mp mem).2
      simp [isRunning]
    rw [same]
  · have queue (queue : RequestQueue) (inside : ∀ ref ∈ queue, ref ∈ sched.outside []) :
        Perm (if (refs.filter (fun ref =>
              !decide ((sched.objects ref).status = .running))).isEmpty then queue
          else RequestQueue.removeRequests policy sched.lt queue
            (refs.filter (fun ref => !decide ((sched.objects ref).status = .running))))
        (queue.filter (· ∉ refs)) := by
      have same : queue.filter (· ∉ refs.filter (fun ref =>
          !decide ((sched.objects ref).status = .running))) = queue.filter (· ∉ refs) := by
        apply filter_congr
        intro ref mem
        have notRunning : (sched.objects ref).status ≠ .running :=
          (parts.mem_outside.mp (inside ref mem)).2
        simp [notRunning]
      split
      · rename_i empty
        rw [List.isEmpty_iff] at empty
        rw [← same, empty]
        simp
      · exact (RequestQueue.removeRequests_perm _ _).trans (by rw [same])
    simp only [outside, append_nil, filter_append]
    refine (queue _ ?_).append (queue _ ?_)
    · intro ref mem
      exact mem_append_left _ (mem_append_left _ mem)
    · intro ref mem
      exact mem_append_left _ (mem_append_right _ mem)

theorem finishRequests_partitioned {requestIds : Option (List String)}
    {aborted : List (String × Nat)} (parts : Partitioned sched [])
    (h : sched.finishRequests cfg requestIds finishedStatus = .ok (aborted, next)) :
    Partitioned next [] := by
  unfold finishRequests at h
  obtain ⟨isFinished, h⟩ := assert_bind_ok h
  obtain ⟨last, loop, h⟩ := bind_ok h
  cases h
  have unique : ((requestIds.map dedup).getD sched.requests.keys).Nodup := by
    cases requestIds with
    | none => exact sched.requests.nodup
    | some ids => exact nodup_dedup ids
  have live {ref : Ref} (mem : ref ∈ sched.liveRefs
      ((requestIds.map dedup).getD sched.requests.keys)) : sched.Live ref :=
    liveRefs_live parts.named mem
  have nodup := liveRefs_nodup parts.named unique
  generalize sched.liveRefs ((requestIds.map dedup).getD sched.requests.keys) = refs
    at loop live nodup
  have ended := foldlM_items (fun prior (state : Scheduler H K) =>
      Placed state (sched.running.filter (· ∉ prior))
        ((sched.outside []).filter (· ∉ prior)) ∧
      state.running = (sched.dequeue cfg.policy refs).running ∧
      state.waiting = (sched.dequeue cfg.policy refs).waiting ∧
      state.skippedWaiting = (sched.dequeue cfg.policy refs).skippedWaiting)
    (by
      intro prior ref _ state _ split kept done
      obtain ⟨placed, queues⟩ := kept
      have notDone : ref ∉ prior := by
        rw [split] at nodup
        have := (nodup_append.mp nodup).2.2
        intro mem
        exact this ref mem ref (mem_cons_self ..) rfl
      have stillLive := Placed.live_of_pending parts placed
        (live (by rw [split]; simp)) notDone
      have left := finishRequest_placed isFinished placed stillLive done
      obtain ⟨sameRunning, sameWaiting, sameSkipped⟩ := finishRequest_queues done
      rw [← filter_done, ← filter_done] at left
      exact ⟨left, sameRunning.trans queues.1, sameWaiting.trans queues.2.1,
        sameSkipped.trans queues.2.2⟩)
    (by
      refine ⟨?_, rfl, rfl, rfl⟩
      simp only [not_mem_nil, not_false_eq_true, decide_true, filter_true]
      exact Placed.congr parts rfl rfl (fun _ => rfl) (fun _ => rfl) (.refl _) (.refl _)) loop
  obtain ⟨placed, sameRunning, sameWaiting, sameSkipped⟩ := ended
  have queues := dequeue_perm cfg.policy parts refs
  refine placed.congr rfl rfl (fun _ => rfl) (fun _ => rfl) ?_ ?_
  · rw [sameRunning]
    exact queues.1
  · rw [outside, sameWaiting, sameSkipped]
    exact queues.2

end Finish

variable {req : Request H}

theorem Placed.register {outsideNext : List Ref} (placed : Placed sched running outside)
    (fresh : sched.requests.get? req.requestId = none)
    (unfinished : req.status.isFinished = false) (notRunning : req.status ≠ .running)
    (requests : next.requests = sched.requests.set req.requestId sched.numObjects)
    (numObjects : next.numObjects = sched.numObjects + 1)
    (objects : ∀ other, other ≠ sched.numObjects → next.objects other = sched.objects other)
    (stored : next.requestId sched.numObjects = req.requestId)
    (status : next.status sched.numObjects = req.status)
    (entered : outsideNext.Perm (sched.numObjects :: outside)) :
    Placed next running outsideNext := by
  have absent : ¬ sched.Live sched.numObjects := by
    intro live
    exact absurd (placed.named _ _ live.1).2 (lt_irrefl _)
  have liveNew : next.Live sched.numObjects := by
    refine ⟨?_, by rw [status]; exact unfinished⟩
    rw [requests, stored, get?_set, if_pos rfl]
  have live {other : Ref} (ne : other ≠ sched.numObjects) :
      next.Live other ↔ sched.Live other := by
    simp only [Live, requests, requestId, Scheduler.status, objects other ne, get?_set]
    by_cases same : (sched.objects other).requestId = req.requestId
    · simp [same, fresh, Ne.symm ne]
    · simp [same]
  have sameStatus {other : Ref} (ne : other ≠ sched.numObjects) :
      next.status other = sched.status other := by
    simp only [Scheduler.status, objects other ne]
  constructor
  · intro id ref found
    rw [requests, get?_set] at found
    split at found
    · rename_i same
      cases found
      rw [stored, numObjects, same]
      exact ⟨rfl, Nat.lt_succ_self _⟩
    · obtain ⟨named, bound⟩ := placed.named id ref found
      rw [requestId, objects ref (Nat.ne_of_lt bound), numObjects]
      exact ⟨named, Nat.lt_succ_of_lt bound⟩
  · intro other
    rw [placed.running, runningPlaces, runningPlaces]
    by_cases same : other = sched.numObjects
    · subst same
      simp [absent, status, notRunning]
    · simp only [live same, sameStatus same]
  · intro other
    rw [entered.count_eq, count_cons, placed.outside, outsidePlaces, outsidePlaces]
    by_cases same : other = sched.numObjects
    · subst same
      simp [absent, liveNew, status, notRunning]
    · simp [live same, sameStatus same, Ne.symm same]

theorem init_status (h : Request.init hasher args = .ok req) :
    req.status = .waiting ∨ req.status = .waitingForFsm := by
  obtain ⟨_, -, h⟩ := bind_ok h
  obtain ⟨_, -, h⟩ := bind_ok h
  cases h
  rw [updateBlockHashes_eq]
  exact (ite_eq_or_eq _ _ _).symm

theorem Registers.partitioned (registers : Registers sched req next)
    (parts : Partitioned sched [])
    (fresh : sched.requests.get? req.requestId = none)
    (status : req.status = .waiting ∨ req.status = .waitingForFsm) :
    Partitioned next [] := by
  have unfinished : req.status.isFinished = false := by
    obtain same | same := status <;> rw [same] <;> rfl
  have notRunning : req.status ≠ .running := by
    obtain same | same := status <;> rw [same] <;> simp
  have rest := registers.rest
  have queue : next.running = sched.running := by rw [rest]
  unfold Partitioned
  rw [queue]
  refine Placed.register parts fresh unfinished notRunning (by rw [rest]) (by rw [rest])
    registers.others ?_ ?_ ?_
  · rw [requestId, registers.stored]
    split <;> rfl
  · rw [Scheduler.status, registers.stored]
    split <;> rfl
  · rw [Scheduler.outside, Scheduler.outside, append_nil, append_nil]
    exact registers.queued

theorem updateSession_partitioned (parts : Partitioned sched [])
    (live : sched.Live ref) (idle : sched.status ref = .waitingForStreamingReq)
    (h : sched.updateSession cfg ref update = .ok next) : Partitioned next [] := by
  unfold updateSession at h
  obtain ⟨session, done, h⟩ := bind_ok h
  cases h
  obtain ⟨sameId, -, waits⟩ := updateRequestAsSession_ok done
  have mem : ref ∈ sched.outside [] := parts.mem_outside.mpr ⟨live, by rw [idle]; simp⟩
  have moved := parts.modifyOutside mem (fun _ => session) sameId (by rw [waits]; rfl)
    (by rw [waits]; simp)
  exact Placed.congr moved rfl rfl (fun _ => rfl) (fun _ => rfl) (.refl _) (.refl _)

theorem addRequest_partitioned (parts : Partitioned sched [])
    (status : req.status = .waiting ∨ req.status = .waitingForFsm)
    (h : sched.addRequest cfg req = .ok next) : Partitioned next [] := by
  unfold addRequest at h
  split at h
  · rename_i fresh
    cases h
    exact (registerRequest_ok _ _ _).partitioned parts fresh status
  · rename_i existing found
    have named := (parts.named _ _ found).1
    simp only at h
    split at h
    · split at h
      · cases h
      · cases h
        exact parts.modify _ _ rfl rfl
    · rename_i idle
      have isIdle : sched.status existing = .waitingForStreamingReq := not_not.mp idle
      split at h
      · refine updateSession_partitioned parts ⟨?_, ?_⟩ isIdle h
        · rw [named]
          exact found
        · rw [isIdle]
          rfl
      · obtain ⟨⟨aborted, finished⟩, finishes, h⟩ := bind_ok h
        cases h
        exact finishRequests_partitioned parts finishes

end Vllm.Scheduler
