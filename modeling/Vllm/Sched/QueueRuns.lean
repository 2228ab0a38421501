import Vllm.Sched.StoppedQueues

/-! Whole runs of the engine core keep the queues a partition of the live requests, as long
as no request stops in a queue from which the scheduler does not take it. On the way no
request loses a token, and none comes back once it has finished. -/
namespace Vllm
open Py
variable {H K M : Type} {cfg : SchedulerConfig H K M}

namespace Scheduler
structure QueuesPartition (sched : Scheduler H K) : Prop where
  once : ∀ id ref, sched.requests.get? id = some ref →
    (sched.objects ref).isFinished = false →
      (sched.running ++ sched.waiting ++ sched.skippedWaiting).count ref = 1
  running : ∀ id ref, sched.requests.get? id = some ref →
    (sched.objects ref).isFinished = false →
      (ref ∈ sched.running ↔ (sched.objects ref).status = .running)
  unfinished : ∀ ref ∈ sched.running ++ sched.waiting ++ sched.skippedWaiting,
    (sched.objects ref).isFinished = false

theorem Partitioned.queues (parts : Partitioned sched []) : QueuesPartition sched := by
  have live {id : String} {ref : Ref} (found : sched.requests.get? id = some ref)
      (unfinished : (sched.objects ref).isFinished = false) : sched.Live ref := by
    refine ⟨?_, unfinished⟩
    rw [(parts.named id ref found).1]
    exact found
  constructor
  · intro id ref found unfinished
    have isLive := live found unfinished
    have inRunning := parts.running ref
    have inOutside := parts.outside ref
    simp only [outside, List.append_nil, List.count_append, runningPlaces, outsidePlaces, isLive,
      true_and] at inRunning inOutside
    simp only [List.count_append]
    by_cases isRunning : sched.status ref = .running
    · simp only [isRunning, if_true, not_true_eq_false, if_false, ne_eq] at inRunning inOutside
      omega
    · simp only [isRunning, if_false, ne_eq, not_false_eq_true, if_true] at inRunning inOutside
      omega
  · intro id ref found unfinished
    rw [parts.mem_running]
    exact ⟨fun both => both.2, fun isRunning => ⟨live found unfinished, isRunning⟩⟩
  · intro ref mem
    rw [List.append_assoc, List.mem_append] at mem
    obtain inRunning | inOutside := mem
    · exact (parts.mem_running.mp inRunning).1.2
    · have inside : ref ∈ sched.outside [] := by
        rw [outside, List.append_nil]
        exact inOutside
      exact (parts.mem_outside.mp inside).1.2

end Scheduler

namespace Engine
open Scheduler
variable [DecidableEq H] {engine : Engine H K M}

/-- Outputs stop requests only in the queue from which they are taken. -/
def StopsInPlace (cfg : SchedulerConfig H K M) (engine : Engine H K M) : EngineOp → Prop
  | .updateFromOutput step runnerOutput => ∀ output ∈ engine.inFlight[step]?,
      engine.scheduler.StopsInPlace cfg output runnerOutput
  | _ => True

instance (cfg : SchedulerConfig H K M) (engine : Engine H K M) (op : EngineOp) :
    Decidable (engine.StopsInPlace cfg op) := by
  cases op <;> unfold Engine.StopsInPlace <;> infer_instance

theorem exec_partitioned (parts : Partitioned engine.scheduler [])
    (inPlace : engine.StopsInPlace cfg op) (h : engine.exec cfg op = .ok next) :
    Partitioned next.scheduler [] := by
  cases op with
  | addRequest args =>
    obtain ⟨_, created, h⟩ := bind_ok h
    obtain ⟨_, adds, h⟩ := bind_ok h
    cases h
    exact addRequest_partitioned parts (init_status created) adds
  | finishRequests requestIds finishedStatus =>
    obtain ⟨⟨_, _⟩, finishes, h⟩ := bind_ok h
    cases h
    exact finishRequests_partitioned parts finishes
  | schedule =>
    obtain ⟨⟨output, _⟩, schedules, h⟩ := bind_ok h
    cases h
    exact schedule_partitioned parts schedules
  | updateFromOutput step runnerOutput =>
    obtain ⟨output, found, h⟩ := bind_ok h
    obtain ⟨⟨_, _⟩, updates, h⟩ := bind_ok h
    cases h
    refine updateFromOutput_partitioned parts (inPlace output ?_) updates
    unfold stepAt at found
    split at found
    · cases found
    · rename_i stored
      cases found
      exact stored
  | updateDraftTokenIds drafts =>
    cases h
    exact (updateDraftTokenIds_steady _ drafts).partitioned parts
  | updateDraftTokenIdsInOutput step drafts =>
    obtain ⟨output, -, h⟩ := bind_ok h
    cases h
    exact parts
  | resetPrefixCache resetRunningRequests resetConnector =>
    obtain ⟨⟨_, _⟩, resets, h⟩ := bind_ok h
    cases h
    exact (resetPrefixCache_steady resets).partitioned parts
  | resetEncoderCache =>
    cases h
    exact parts.withEncoder _
  | setPauseState pauseState | compileGrammar ref | changeRemoteItems items =>
    cases h
    exact Placed.congr parts rfl rfl (fun _ => rfl) (fun _ => rfl) (.refl _) (.refl _)

omit [DecidableEq H] in
theorem init_partitioned (cfg : SchedulerConfig H K M) (mgr : KVCacheManager H)
    (encoderCacheSize : Nat) (connectorState : K) (ecConnector : Option (List String))
    (absent : Request H) :
    Partitioned (init cfg mgr encoderCacheSize connectorState ecConnector absent).scheduler
      [] := by
  have notLive (ref : Ref) : ¬ (init cfg mgr encoderCacheSize connectorState ecConnector
      absent : Engine H K M).scheduler.Live ref := by
    rintro ⟨found, -⟩
    cases found
  constructor
  · intro id ref found
    cases found
  · intro ref
    rw [runningPlaces, if_neg (fun both => notLive ref both.1)]
    rfl
  · intro ref
    rw [outsidePlaces, if_neg (fun both => notLive ref both.1)]
    rfl

theorem queues_partition_requests (cfg : SchedulerConfig H K M) (mgr : KVCacheManager H)
    (encoderCacheSize : Nat) (connectorState : K) (ecConnector : Option (List String))
    (absent : Request H) (ops : List EngineOp) (reached : Engine H K M)
    (inPlace : Run.AllSteps (exec cfg) (StopsInPlace cfg)
      (init cfg mgr encoderCacheSize connectorState ecConnector absent) ops)
    (ran : Run.run (exec cfg)
      (init cfg mgr encoderCacheSize connectorState ecConnector absent) ops = .ok reached) :
    reached.scheduler.QueuesPartition :=
  (Run.run_invariant (fun engine : Engine H K M => Partitioned engine.scheduler [])
    exec_partitioned (init_partitioned ..) inPlace ran).queues

/-- Steps of up to a hundred tokens for up to four requests, with outputs still in flight
when the next step is scheduled. -/
def asyncConfig : SchedulerConfig Nat Unit Unit where
  policy := .fcfs
  maxNumRunningReqs := 4
  maxNumScheduledTokens := 100
  maxModelLen := 100
  blockSize := 4
  cacheBlockSize := 4
  asyncScheduling := true

/-- A request stops while another step of it is in flight, and a second one is aborted. -/
def stoppingRun : List EngineOp :=
  [.addRequest (promptArgs "a" 3 5), .addRequest (promptArgs "b" 3 5), .schedule,
    .updateFromOutput 0 (sampledOutput [("a", [9]), ("b", [9])]), .schedule, .schedule,
    .updateFromOutput 0 (sampledOutput [("a", [2]), ("b", [9])]),
    .finishRequests (some ["b"]) .finishedAborted]

theorem queues_partition_requests_stopping : ∃ start reached, small asyncConfig 0 = .ok start ∧
    Run.run (exec asyncConfig) start stoppingRun = .ok reached ∧
    reached.scheduler.QueuesPartition := by
  have returns : (small asyncConfig 0 >>= fun start => do
      Py.assert (decide (Run.AllSteps (exec asyncConfig) (StopsInPlace asyncConfig) start stoppingRun))
        "AllSteps"
      Run.run (exec asyncConfig) start stoppingRun).isOk = true := by
    decide +kernel
  obtain ⟨reached, both⟩ := ok_of_isOk returns
  obtain ⟨start, made, ran⟩ := bind_ok both
  obtain ⟨inPlace, ran⟩ := assert_bind_ok ran
  refine ⟨start, reached, made, ran, ?_⟩
  obtain ⟨mgr, -, made⟩ := bind_ok made
  cases made
  exact queues_partition_requests asyncConfig mgr 0 () none _ stoppingRun reached
    (of_decide_eq_true inPlace) ran

/-- A session has two steps in flight. The first output ends its turn and it waits for the
next input; the second one ends the turn again, and the session waits twice. -/
def waitingTwiceRun : List EngineOp :=
  [.addRequest { promptArgs "a" 3 5 with resumable := true }, .schedule, .schedule,
    .updateFromOutput 0 (sampledOutput [("a", [2])]),
    .updateFromOutput 0 (sampledOutput [("a", [2])])]

theorem stopped_session_waits_twice : ∃ start reached, small asyncConfig 0 = .ok start ∧
    Run.run (exec asyncConfig) start waitingTwiceRun = .ok reached ∧
    reached.scheduler.skippedWaiting = [0, 0] ∧ ¬ reached.scheduler.QueuesPartition := by
  have state : (do
      let start ← small asyncConfig 0
      let reached ← Run.run (exec asyncConfig) start waitingTwiceRun
      return (reached.scheduler.requests.get? "a", (reached.scheduler.objects 0).isFinished,
        reached.scheduler.running, reached.scheduler.waiting, reached.scheduler.skippedWaiting)) =
      (.ok (some 0, false, [], [], [0, 0]) :
        Py (Option Ref × Bool × List Ref × List Ref × List Ref)) := by
    decide +kernel
  obtain ⟨start, made, state⟩ := bind_ok state
  obtain ⟨reached, ran, state⟩ := bind_ok state
  simp only [pure, Except.pure, Except.ok.injEq, Prod.mk.injEq] at state
  obtain ⟨found, unfinished, running, waiting, skipped⟩ := state
  refine ⟨start, reached, made, ran, skipped, ?_⟩
  intro partition
  have once := partition.once "a" 0 found unfinished
  rw [running, waiting, skipped] at once
  cases once

/-- Whatever is scheduled, preempted, reset or aborted meanwhile, a request that is not a session
keeps its tokens and is only given more, and once it has finished it stays finished. -/
theorem history_kept (cfg : SchedulerConfig H K M) (ops : List EngineOp)
    (engine reached : Engine H K M) (parts : Partitioned engine.scheduler [])
    (inPlace : Run.AllSteps (exec cfg) (StopsInPlace cfg) engine ops)
    (ran : Run.run (exec cfg) engine ops = .ok reached) (ref : Ref)
    (created : ref < engine.scheduler.numObjects) (single : (engine.scheduler.objects ref).Single) :
    let before := engine.scheduler.objects ref
    let after := reached.scheduler.objects ref
    before.allTokenIds <+: after.allTokenIds ∧
      (before.isFinished = true → after.isFinished = true) := by
  have evolved := Run.run_invariant (fun state : Engine H K M => Partitioned state.scheduler [] ∧
    ref < state.scheduler.numObjects ∧
    Evolves cfg (engine.scheduler.objects ref) (state.scheduler.objects ref)) ?_
    ⟨parts, created, .refl⟩ inPlace ran
  · exact (evolved.2.2.history single).2
  · rintro state op next ⟨parts, created, path⟩ inPlace stepped
    refine ⟨exec_partitioned parts inPlace stepped, ?_⟩
    obtain evolve | ⟨_, _, _, _, registers⟩ := exec_evolve parts stepped
    · rw [evolve.numObjects]
      exact ⟨created, path.trans (evolve.requests ref)⟩
    · -- a new request gets a reference of its own
      rw [registers.others ref (ne_of_lt created), registers.rest]
      exact ⟨Nat.lt_succ_of_lt created, path⟩

theorem history_kept_stopping : ∃ start engine reached, small asyncConfig 0 = .ok start ∧
    exec asyncConfig start (.addRequest (promptArgs "a" 3 5)) = .ok engine ∧
    Run.run (exec asyncConfig) engine stoppingRun.tail = .ok reached ∧
    (engine.scheduler.objects 0).allTokenIds <+: (reached.scheduler.objects 0).allTokenIds := by
  have returns : (small asyncConfig 0 >>= fun start => do
      let engine ← exec asyncConfig start (.addRequest (promptArgs "a" 3 5))
      Py.assert (decide (Run.AllSteps (exec asyncConfig) (StopsInPlace asyncConfig) engine
        stoppingRun.tail ∧ 0 < engine.scheduler.numObjects ∧
        (engine.scheduler.objects 0).Single)) "Single"
      Run.run (exec asyncConfig) engine stoppingRun.tail).isOk = true := by
    decide +kernel
  obtain ⟨reached, state⟩ := ok_of_isOk returns
  obtain ⟨start, made, state⟩ := bind_ok state
  obtain ⟨engine, added, state⟩ := bind_ok state
  obtain ⟨checked, ran⟩ := assert_bind_ok state
  refine ⟨start, engine, reached, made, added, ran, ?_⟩
  obtain ⟨mgr, -, made⟩ := bind_ok made
  cases made
  obtain ⟨inPlace, created, single⟩ := of_decide_eq_true checked
  exact (history_kept asyncConfig _ engine reached
    (exec_partitioned (init_partitioned ..) (by trivial) added) inPlace ran 0 created single).1

end Engine
end Vllm
