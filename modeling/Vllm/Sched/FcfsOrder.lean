import Vllm.Sched.QueueRuns

/-! Requests do not overtake each other while they wait. Under the first-come-first-served policy
the waiting loop goes through the skipped and then the waiting requests, and what it does not
admit keeps its order. -/
namespace Vllm
open List hiding next
open Py
variable {H K M : Type} {cfg : SchedulerConfig H K M}

/-- The requests in the order in which they are examined. -/
def Scheduler.line (sched : Scheduler H K) : List Ref :=
  sched.skippedWaiting ++ sched.waiting

theorem Scheduler.line_of_queues {sched next : Scheduler H K}
    (same : next.queues = sched.queues) :
    next.line = sched.line ∧ next.running = sched.running := by
  simp only [queues, Prod.mk.injEq] at same
  simp only [line, same, and_self]

theorem Scheduler.line_setQueue {sched : Scheduler H K}
    (chosen : sched.selectWaitingQueueForScheduling .fcfs = some name)
    (front : sched.queue name = ref :: rest) :
    sched.line = ref :: (sched.setQueue name rest).line := by
  simp only [selectWaitingQueueForScheduling] at chosen
  split at chosen <;> cases chosen <;> simp_all [line, queue, setQueue]

theorem Scheduler.front_prefix {sched : Scheduler H K}
    (chosen : sched.selectWaitingQueueForScheduling .fcfs = some name) :
    (sched.queue name).head?.toList <+: sched.line := by
  cases front : sched.queue name with
  | nil => exact nil_prefix
  | cons ref rest =>
    rw [line_setQueue chosen front]
    exact prefix_append [ref] _

namespace Pass
variable {pass next : Pass H K}

/-- The front request leaves the line, to be skipped or to run. -/
structure Leaves (pass : Pass H K) (ref : Ref) (admitted : Bool) (next : Pass H K) : Prop where
  line : pass.scheduler.line = ref :: next.scheduler.line
  held : next.stepSkippedWaiting =
    if admitted then pass.stepSkippedWaiting else ref :: pass.stepSkippedWaiting
  running : next.scheduler.running = pass.scheduler.running ++ if admitted then [ref] else []

theorem Takes.leaves (fcfs : cfg.policy = .fcfs)
    (chosen : pass.scheduler.selectWaitingQueueForScheduling .fcfs = some name)
    (front : (pass.scheduler.queue name).head? = some ref) (takes : Takes cfg name ref pass next) :
    ∃ admitted, Leaves pass ref admitted next := by
  obtain ⟨rest, queue⟩ := head?_eq_some_iff.mp front
  have line := Scheduler.line_setQueue chosen queue
  cases takes with
  | skip skipped =>
    simp only [skipRequest, fcfs, RequestQueue.popRequest, queue, ok_bind] at skipped
    cases skipped
    refine ⟨false, line, rfl, ?_⟩
    cases name <;> simp [withScheduler, Scheduler.setQueue]
  | @accept computed plan mgr _ accepted =>
    obtain ⟨told, tells, h⟩ := bind_ok accepted
    obtain ⟨state, rfl⟩ := tellConnector_ok tells
    have same : ({ (pass.scheduler.withKv mgr) with connectorState := state } :
      Scheduler H K).queue name = ref :: rest := by cases name <;> exact queue
    simp only [fcfs, RequestQueue.popRequest, withScheduler, same, ok_bind] at h
    split at h
    -- A request that loads asynchronously is put aside like a skipped one.
    · cases h
      refine ⟨false, ?_, by simp [startLoading, fcfs, RequestQueue.prependRequest], ?_⟩
      · rw [line]
        cases name <;> rfl
      · cases name <;> exact (append_nil _).symm
    · have schedules := scheduleWaiting_ok h
      refine ⟨true, ?_, by rw [schedules.rest]; rfl, ?_⟩
      · rw [line, schedules.scheduler]
        cases name <;> rfl
      · rw [schedules.scheduler]
        cases name <;> rfl

/-- The requests that a loop has taken out of the line, with those it has admitted marked. -/
structure Drains (pass next : Pass H K) (marks : List (Ref × Bool)) : Prop where
  line : pass.scheduler.line = marks.map Prod.fst ++ next.scheduler.line
  held : next.stepSkippedWaiting =
    ((marks.filter (!·.2)).map Prod.fst).reverse ++ pass.stepSkippedWaiting
  running : next.scheduler.running = pass.scheduler.running ++ (marks.filter (·.2)).map Prod.fst

theorem Drains.refl : Drains pass pass [] := ⟨rfl, rfl, (append_nil _).symm⟩

theorem Leaves.drains (leaves : Leaves pass ref admitted next)
    (later : Drains next last marks) : Drains pass last ((ref, admitted) :: marks) := by
  obtain ⟨line, held, running⟩ := later
  rw [leaves.held] at held
  rw [leaves.running] at running
  constructor
  · rw [leaves.line, line]
    rfl
  · cases admitted <;> simp [held]
  · cases admitted <;> simp [running]

theorem select_of_queues {sched tried : Scheduler H K} (same : tried.queues = sched.queues) :
    tried.selectWaitingQueueForScheduling .fcfs = sched.selectWaitingQueueForScheduling .fcfs := by
  simp only [Scheduler.queues, Prod.mk.injEq] at same
  simp only [Scheduler.selectWaitingQueueForScheduling, same]

variable [DecidableEq H]

theorem Tries.leaves (tries : Tries cfg pass tried) (leaves : Leaves tried ref admitted next) :
    Leaves pass ref admitted next := by
  obtain ⟨line, running⟩ := Scheduler.line_of_queues tries.queues
  exact ⟨line ▸ leaves.line, tries.held ▸ leaves.held, running ▸ leaves.running⟩

/-- The requests at which the rounds of the waiting loop look, in turn. -/
def examined (cfg : SchedulerConfig H K M) : Nat → Pass H K → List Ref
  | 0, _ => []
  | rounds + 1, pass =>
    if (pass.scheduler.waiting.isEmpty ∧ pass.scheduler.skippedWaiting.isEmpty) ∨
        pass.tokenBudget ≤ 0 then []
    else if pass.scheduler.running.length = cfg.maxNumRunningReqs then []
    else match pass.scheduler.selectWaitingQueueForScheduling cfg.policy with
      | none => []
      | some name => (pass.scheduler.queue name).head?.toList ++
        match pass.waitingRound cfg with
        | .ok (next, true) => examined cfg rounds next
        | _ => []

theorem waitingLoop_drains (fcfs : cfg.policy = .fcfs)
    (ran : waitingLoop cfg rounds pass = .ok next) :
    (∃ marks, Drains pass next marks) ∧ examined cfg rounds pass <+: pass.scheduler.line := by
  induction rounds generalizing pass with
  | zero =>
    cases ran
    exact ⟨⟨[], .refl⟩, nil_prefix⟩
  | succ rounds ih =>
    rw [waitingLoop] at ran
    rw [examined]
    split at ran
    · rename_i stop
      cases ran
      rw [if_pos stop]
      exact ⟨⟨[], .refl⟩, nil_prefix⟩
    · rename_i goes
      rw [if_neg goes]
      obtain ⟨⟨after, goesOn⟩, round, ran⟩ := bind_ok ran
      obtain ⟨tried, tries, outcome⟩ := waitingRound_steps round
      rw [round]
      cases goesOn with
      | false =>
        cases ran
        cases outcome
        -- A round that ends the loop has looked at the front request and left it there.
        obtain ⟨line, running⟩ := Scheduler.line_of_queues tries.queues
        refine ⟨⟨[], line.symm, tries.held, by simp [running]⟩, ?_⟩
        split
        · exact nil_prefix
        · split
          · exact nil_prefix
          · rename_i name chosen
            rw [fcfs] at chosen
            rw [append_nil]
            exact Scheduler.front_prefix chosen
      | true =>
        obtain ⟨name, ref, chosen, front, takes⟩ := outcome
        simp only [chosen, front]
        rw [fcfs, ← select_of_queues tries.queues] at chosen
        rw [← queue_of_queues tries.queues] at front
        obtain ⟨admitted, left⟩ := takes.leaves fcfs chosen front
        have leaves := tries.leaves left
        obtain ⟨⟨marks, drains⟩, examines⟩ := ih ran
        refine ⟨⟨_, leaves.drains drains⟩, ?_⟩
        rw [leaves.line]
        split
        · exact nil_prefix
        · exact (prefix_cons_inj ref).mpr examines

/-- What the waiting loop examines, if it is entered. -/
def examinedRequests (cfg : SchedulerConfig H K M) (pass : Pass H K) : List Ref :=
  if pass.preemptedReqs.isEmpty ∧ pass.scheduler.pauseState = .unpaused then
    examined cfg (pass.scheduler.waiting.length + pass.scheduler.skippedWaiting.length) pass
  else []

/-- The requests are examined in their order, and those that are not admitted keep it. -/
structure KeepsOrder (cfg : SchedulerConfig H K M) (begun : Pass H K) (next : Scheduler H K) :
    Prop where
  examined : examinedRequests cfg begun <+: begun.scheduler.line
  kept : ∃ (marks : List (Ref × Bool)) (rest : List Ref),
    begun.scheduler.line = marks.map Prod.fst ++ rest ∧
    next.line = (marks.filter (!·.2)).map Prod.fst ++ rest ∧
    next.running = begun.scheduler.running ++ (marks.filter (·.2)).map Prod.fst

theorem waitingPass_keeps (fcfs : cfg.policy = .fcfs) (fresh : pass.stepSkippedWaiting = [])
    (h : pass.waitingPass cfg = .ok next) : KeepsOrder cfg pass next.scheduler := by
  unfold waitingPass at h
  split at h
  · rename_i entered
    obtain ⟨waited, looped, h⟩ := bind_ok h
    cases h
    obtain ⟨⟨marks, line, held, running⟩, examines⟩ := waitingLoop_drains fcfs looped
    refine ⟨by rwa [examinedRequests, if_pos entered], marks, _, line, ?_, running⟩
    simp [requeueSkipped, withScheduler, Scheduler.line, fcfs, RequestQueue.prependRequests, held,
      fresh]
  · rename_i closed
    cases h
    exact ⟨by rw [examinedRequests, if_neg closed]; exact nil_prefix, [], _, rfl, rfl,
      (append_nil _).symm⟩

end Pass

/-- Under `FCFS` a waiting request is never overtaken: `schedule` looks at the skipped and then
the waiting requests in their order, and those that it does not admit stay in that order. -/
theorem fcfs_order_kept [DecidableEq H] (cfg : SchedulerConfig H K M)
    (fcfs : cfg.policy = .fcfs) (sched next : Scheduler H K) (output : SchedulerOutput M)
    (h : sched.schedule cfg = .ok (output, next)) :
    ∃ begun, (Pass.runningPass cfg sched >>= Pass.recordLoras cfg) = .ok begun ∧
      Pass.KeepsOrder cfg begun next := by
  obtain ⟨pass, passed, -, queues⟩ := Scheduler.schedule_counts h
  obtain ⟨ran, first, passed⟩ := bind_ok passed
  obtain ⟨begun, loras, passed⟩ := bind_ok passed
  obtain ⟨_, second, passed⟩ := bind_ok passed
  obtain ⟨⟨⟩, -, final⟩ := bind_ok passed
  cases final
  have fresh : begun.stepSkippedWaiting = [] := by
    rw [Pass.recordLoras_ok loras, Pass.lorasRecorded_rest]
    exact (Pass.moved_of_running (Pass.runningLoop_steps first)).2
  obtain ⟨examined, marks, rest, line, kept, running⟩ := Pass.waitingPass_keeps fcfs fresh second
  obtain ⟨sameLine, sameRunning⟩ := Scheduler.line_of_queues queues
  exact ⟨begun, by rw [first]; exact loras, examined, marks, rest, line, sameLine.trans kept,
    sameRunning.trans running⟩

open Engine in
theorem fcfs_order_kept_two : ∃ sched output next,
    Scheduler.schedule asyncConfig sched = .ok (output, next) ∧ sched.waiting.length = 2 ∧
    ∃ begun, (Pass.runningPass asyncConfig sched >>= Pass.recordLoras asyncConfig) = .ok begun ∧
      Pass.KeepsOrder asyncConfig begun next := by
  have returns : (small asyncConfig 0 >>= fun start => do
      let reached ← Run.run (exec asyncConfig) start
        [.addRequest (promptArgs "a" 3 5), .addRequest (promptArgs "b" 3 5)]
      Py.assert (reached.scheduler.waiting.length = 2) "two"
      reached.scheduler.schedule asyncConfig).isOk = true := by
    decide +kernel
  obtain ⟨⟨output, next⟩, ran⟩ := ok_of_isOk returns
  obtain ⟨_, -, ran⟩ := bind_ok ran
  obtain ⟨reached, -, ran⟩ := bind_ok ran
  obtain ⟨two, ran⟩ := assert_bind_ok ran
  exact ⟨reached.scheduler, output, next, ran, of_decide_eq_true two,
    fcfs_order_kept asyncConfig rfl reached.scheduler next output ran⟩

end Vllm
