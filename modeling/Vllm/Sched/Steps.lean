import Vllm.Sched.Update

/-! What the loops of `schedule` can do, one change at a time. Every pass over the queues
is a path of such steps, so that whatever all steps keep holds after the pass. -/
namespace Vllm

/-- The skipped, the waiting and the running requests. -/
def Scheduler.queues {H K : Type} (sched : Scheduler H K) :
    RequestQueue × RequestQueue × List Ref :=
  (sched.skippedWaiting, sched.waiting, sched.running)

namespace Pass
open List hiding next
open Relation Py Dict Bool
variable {H K M : Type} {plan : EncoderPlan} {rounds : Nat}

/-- The request that the running loop is at. A preemption under the priority policy may move
it in the queue, but it stays in the queue. -/
structure Current (cfg : SchedulerConfig H K M) (pass : Pass H K) (ref : Ref) : Prop where
  running : ref ∈ pass.scheduler.running
  atIndex : cfg.policy = .fcfs ∨ pass.preemptedReqs = [] →
    pass.scheduler.running[pass.reqIndex]? = some ref

/-- What every step of a path keeps holds at its end. -/
theorem steps_keep {Step : Pass H K → Pass H K → Prop} (Inv : Pass H K → Prop)
    (keeps : ∀ {pass next}, Step pass next → Inv pass → Inv next) {pass last : Pass H K}
    (path : ReflTransGen Step pass last) (start : Inv pass) : Inv last := by
  induction path with
  | refl => exact start
  | tail _ step ih => exact keeps step ih

section Relations
variable [DecidableEq H]

inductive RunningStep (cfg : SchedulerConfig H K M) : Pass H K → Pass H K → Prop
  | passOver {pass ref} (current : pass.scheduler.running[pass.reqIndex]? = some ref)
      (reached : outputsReachMaxTokens (pass.scheduler.objects ref) = true) :
      RunningStep cfg pass pass.passOver
  | idle {pass ref plan cache} (current : pass.scheduler.running[pass.reqIndex]? = some ref)
      (budget : 0 < pass.tokenBudget)
      (planned : pass.planRunning cfg (pass.scheduler.objects ref) = .ok (plan, cache))
      (noTokens : plan.numNewTokens = 0) :
      RunningStep cfg pass (pass.withScheduler (pass.scheduler.withEncoder cache)).passOver
  | probe {pass cache} : RunningStep cfg pass (pass.withScheduler (pass.scheduler.withEncoder cache))
  | preempt {pass mgr victim next}
      (preempted : (pass.withScheduler (pass.scheduler.withKv mgr)).preemptVictim
        cfg.policy = .ok (victim, next)) :
      RunningStep cfg pass next
  | schedule {pass ref plan blocks mgr next} (current : Current cfg pass ref)
      (scheduled : (pass.withScheduler (pass.scheduler.withKv mgr)).scheduleRunning ref plan
        blocks = .ok next) :
      RunningStep cfg pass next

inductive WaitingStep (cfg : SchedulerConfig H K M) : Pass H K → Pass H K → Prop
  | promote {pass name ref promoted} (front : (pass.scheduler.queue name).head? = some ref)
      (ready : pass.scheduler.promoteIfBlocked cfg ref = .ok (true, promoted)) :
      WaitingStep cfg pass (pass.withScheduler promoted)
  | skip {pass name ref next} (front : (pass.scheduler.queue name).head? = some ref)
      (skipped : pass.skipRequest cfg name ref = .ok next) :
      WaitingStep cfg pass next
  | lookUp {pass ref found matched}
      (lookedUp : lookUpComputed cfg pass.scheduler ref = .ok (found, matched)) :
      WaitingStep cfg pass (pass.withScheduler matched)
  | probe {pass cache} : WaitingStep cfg pass (pass.withScheduler (pass.scheduler.withEncoder cache))
  | refuse {pass ref mgr released}
      (untouched : untouchEncoder (pass.scheduler.withKv mgr) ref = .ok released) :
      WaitingStep cfg pass (pass.withScheduler released)
  | accept {pass name ref computed plan mgr next}
      (front : (pass.scheduler.queue name).head? = some ref)
      (fits : pass.exceedsMaxLoras cfg ref = false)
      (accepted : (pass.withScheduler (pass.scheduler.withKv mgr)).admitRequest cfg name ref
        computed plan = .ok next) :
      WaitingStep cfg pass next

end Relations

variable {cfg : SchedulerConfig H K M} {pass next : Pass H K} {ref : Ref}

section Preemption
variable {policy : SchedulingPolicy} {victim : Ref}

theorem lowestPriority_mem (lowest : Scheduler.lowestPriority objects refs = some victim) :
    victim ∈ refs := by
  cases refs with
  | nil => cases lowest
  | cons first rest =>
    simp only [Scheduler.lowestPriority, Option.some.injEq] at lowest
    rw [← lowest]
    -- The fold returns its start or one of the items it runs over.
    clear lowest
    induction rest generalizing first with
    | nil => simp
    | cons item rest ih =>
      simp only [foldl_cons]
      split
      · exact mem_cons_of_mem _ (ih item)
      · rcases mem_cons.mp (ih first) with same | later
        · rw [same]
          exact mem_cons_self ..
        · exact mem_cons_of_mem _ (mem_cons_of_mem _ later)

/-- A request that was scheduled in this step leaves it with all that was recorded for it. -/
inductive Unscheduled (pass : Pass H K) (victim : Ref) : Pass H K → Prop
  | untouched : Unscheduled pass victim pass
  | dropped {numTokens numEmbeds} : Unscheduled pass victim { pass with
        scheduledRunningReqs := pass.scheduledRunningReqs.erase victim
        tokenBudget := pass.tokenBudget + numTokens
        numScheduledTokens := pass.numScheduledTokens.erase (pass.scheduler.requestId victim)
        reqToNewBlocks := pass.reqToNewBlocks.erase (pass.scheduler.requestId victim)
        scheduledSpecDecodeTokens :=
          pass.scheduledSpecDecodeTokens.erase (pass.scheduler.requestId victim)
        scheduledEncoderInputs := pass.scheduledEncoderInputs.erase (pass.scheduler.requestId victim)
        encoderComputeBudget := pass.encoderComputeBudget + numEmbeds
        reqIndex := pass.reqIndex - 1 }

theorem unschedule_ok (h : pass.unschedule victim = .ok next) : Unscheduled pass victim next := by
  unfold unschedule at h
  split at h
  · obtain ⟨⟨numTokens, tokens⟩, poppedTokens, h⟩ := bind_ok h
    obtain ⟨⟨newBlocks, blocks⟩, poppedBlocks, h⟩ := bind_ok h
    obtain ⟨embeds, -, h⟩ := bind_ok h
    obtain rfl := popKey_ok poppedTokens
    obtain rfl := popKey_ok poppedBlocks
    cases h
    exact .dropped
  · cases h
    exact .untouched

theorem Unscheduled.scheduler (left : Unscheduled pass victim next) :
    next.scheduler = pass.scheduler := by
  cases left <;> rfl

def runningWithout (policy : SchedulingPolicy) (running : List Ref) (victim : Ref) : List Ref :=
  match policy with
  | .fcfs => running.dropLast
  | .priority => running.erase victim

def IsVictim (policy : SchedulingPolicy) (sched : Scheduler H K) (victim : Ref) : Prop :=
  match policy with
  | .fcfs => sched.running.getLast? = some victim
  | .priority => Scheduler.lowestPriority sched.objects sched.running = some victim

theorem IsVictim.mem {sched : Scheduler H K} (chosen : IsVictim policy sched victim) :
    victim ∈ sched.running := by
  cases policy with
  | fcfs => exact mem_of_getLast? chosen
  | priority => exact lowestPriority_mem chosen

theorem popVictim_ok (h : pass.popVictim policy = .ok (victim, next)) :
    IsVictim policy pass.scheduler victim ∧
      (policy = .fcfs ∧ next = pass.withRunning (runningWithout policy pass.scheduler.running victim) ∨
        policy = .priority ∧ Unscheduled
          (pass.withRunning (runningWithout policy pass.scheduler.running victim)) victim next) := by
  cases policy with
  | fcfs =>
    simp only [popVictim] at h
    split at h
    · cases h
    · rename_i chosen
      cases h
      exact ⟨chosen, .inl ⟨rfl, rfl⟩⟩
  | priority =>
    simp only [popVictim] at h
    split at h
    · cases h
    · rename_i chosen
      obtain ⟨left, unscheduled, h⟩ := bind_ok h
      cases h
      exact ⟨chosen, .inr ⟨rfl, unschedule_ok unscheduled⟩⟩

def preemptedRequest (req : Request H) : Request H :=
  { req with
    status := .preempted
    numComputedTokens := 0
    specTokenIds := []
    numPreemptions := req.numPreemptions + 1 }

structure PreemptsRequest (sched : Scheduler H K) (victim : Ref) (next : Scheduler H K) :
    Prop where
  wasRunning : (sched.objects victim).status = .running
  waiting : next.waiting.Perm (victim :: sched.waiting)
  rest : next = { sched.modify victim preemptedRequest with
    waiting := next.waiting
    kvCacheManager := next.kvCacheManager
    encoderCacheManager := next.encoderCacheManager }

theorem preemptRequest_ok {sched next : Scheduler H K}
    (h : sched.preemptRequest policy victim = .ok next) :
    PreemptsRequest sched victim next := by
  obtain ⟨wasRunning, h⟩ := assert_bind_ok h
  obtain ⟨_, -, h⟩ := bind_ok h
  obtain ⟨cache, -, h⟩ := bind_ok h
  cases h
  exact {
    wasRunning := by simpa using wasRunning
    waiting := RequestQueue.prependRequest_perm _ _
    rest := rfl }

structure Preempted (policy : SchedulingPolicy) (pass : Pass H K) (victim : Ref)
    (next : Pass H K) : Prop where
  chosen : IsVictim policy pass.scheduler victim
  scheduler : PreemptsRequest
    { pass.scheduler with running := runningWithout policy pass.scheduler.running victim } victim
    next.scheduler
  rest : ∃ left, next = { left with
      scheduler := next.scheduler
      preemptedReqs := pass.preemptedReqs ++ [victim] } ∧
    (policy = .fcfs ∧ left = pass ∨ policy = .priority ∧ Unscheduled pass victim left)

theorem preemptVictim_ok (h : pass.preemptVictim policy = .ok (victim, next)) :
    Preempted policy pass victim next := by
  unfold preemptVictim at h
  obtain ⟨⟨chosenVictim, left⟩, popped, h⟩ := bind_ok h
  obtain ⟨sched, done, h⟩ := bind_ok h
  cases h
  obtain ⟨chosen, ⟨rfl, rfl⟩ | ⟨rfl, unscheduled⟩⟩ := popVictim_ok popped
  · exact ⟨chosen, preemptRequest_ok done, pass, rfl, .inl ⟨rfl, rfl⟩⟩
  · have same := unscheduled.scheduler
    have spec := preemptRequest_ok done
    rw [same] at spec
    refine ⟨chosen, spec, ?_⟩
    cases unscheduled with
    | untouched => exact ⟨pass, rfl, .inr ⟨rfl, .untouched⟩⟩
    | @dropped numTokens numEmbeds =>
      refine ⟨_, ?_, .inr ⟨rfl, @Unscheduled.dropped _ _ pass victim numTokens numEmbeds⟩⟩
      rfl

theorem Preempted.running (preempted : Preempted policy pass victim next) :
    next.scheduler.running = runningWithout policy pass.scheduler.running victim := by
  rw [preempted.scheduler.rest]
  rfl

theorem Preempted.preemptedReqs (preempted : Preempted policy pass victim next) :
    next.preemptedReqs = pass.preemptedReqs ++ [victim] := by
  obtain ⟨_, same, -⟩ := preempted.rest
  rw [same]

/-- The requests that the loop has yet to come to, if it goes on. -/
def remaining (pass : Pass H K) : Nat := pass.scheduler.running.length - pass.reqIndex

theorem Preempted.remaining_le (preempted : Preempted policy pass victim next) :
    next.remaining ≤ pass.remaining := by
  have mem := preempted.chosen.mem
  have length : next.scheduler.running.length + 1 = pass.scheduler.running.length := by
    rw [preempted.running]
    have pos := length_pos_of_mem mem
    cases policy with
    | fcfs =>
      simp only [runningWithout, length_dropLast]
      omega
    | priority =>
      simp only [runningWithout, length_erase_of_mem mem]
      omega
  obtain ⟨left, same, outcome⟩ := preempted.rest
  have index : next.reqIndex = pass.reqIndex ∨ next.reqIndex = pass.reqIndex - 1 := by
    rw [same]
    obtain ⟨-, rfl⟩ | ⟨-, unscheduled⟩ := outcome
    · exact .inl rfl
    · cases unscheduled with
      | untouched => exact .inl rfl
      | dropped => exact .inr rfl
  simp only [remaining]
  omega

def draftsTaken (req : Request H) : Request H := { req with specTokenIds := [] }

structure SchedulesRunning (pass : Pass H K) (ref : Ref) (next : Pass H K) : Prop where
  scheduler : next.scheduler = { pass.scheduler.modify ref draftsTaken with
    encoderCacheManager := next.scheduler.encoderCacheManager }
  rest : next = { next with
    scheduledRunningReqs := pass.scheduledRunningReqs ++ [ref]
    preemptedReqs := pass.preemptedReqs
    stepSkippedWaiting := pass.stepSkippedWaiting
    reqIndex := pass.reqIndex + 1 }

theorem scheduleRunning_ok (h : pass.scheduleRunning ref plan blocks = .ok next) :
    SchedulesRunning pass ref next := by
  obtain ⟨_, -, h⟩ := bind_ok h
  cases h
  constructor
  all_goals
    simp only [withInputs]
    split <;> rfl

theorem SchedulesRunning.remaining (schedules : SchedulesRunning pass ref next) :
    next.remaining = pass.remaining - 1 := by
  have running : next.scheduler.running = pass.scheduler.running := by
    rw [schedules.scheduler]
    rfl
  have index : next.reqIndex = pass.reqIndex + 1 := by rw [schedules.rest]
  simp only [Pass.remaining, running, index]
  omega

/-- The request that asks for slots stays where it is until it is preempted itself. -/
theorem Preempted.current (preempted : Preempted cfg.policy pass victim next)
    (current : Current cfg pass ref) (other : victim ≠ ref) : Current cfg next ref := by
  have queue := preempted.running
  have chosen := preempted.chosen
  constructor
  · rw [queue]
    cases policy : cfg.policy with
    | fcfs =>
      rw [policy] at chosen
      have split := dropLast_append_getLast? victim chosen
      have mem := current.running
      rw [← split] at mem
      rcases mem_append.mp mem with inside | isLast
      · exact inside
      · exact absurd (mem_singleton.mp isLast).symm other
    | priority => exact (mem_erase_of_ne other.symm).mpr current.running
  · rintro (policy | untouched)
    swap
    · rw [preempted.preemptedReqs] at untouched
      simp at untouched
    obtain ⟨left, same, ⟨-, rfl⟩ | ⟨isPriority, -⟩⟩ := preempted.rest
    · have index : next.reqIndex = left.reqIndex := by rw [same]
      rw [queue, index, policy]
      rw [policy] at chosen
      have atIndex := current.atIndex (.inl policy)
      have split := dropLast_append_getLast? victim chosen
      rw [← split, getElem?_append] at atIndex
      split at atIndex
      · exact atIndex
      · rename_i beyond
        have isVictim : ref = victim := by
          have := mem_of_getElem? atIndex
          simpa using this
        exact absurd isVictim.symm other
    · rw [policy] at isPriority
      cases isPriority

theorem RunningStep.remaining_le (step : RunningStep cfg pass next) :
    next.remaining ≤ pass.remaining := by
  cases step with
  | passOver => exact Nat.sub_le_sub_left (Nat.le_succ _) _
  | idle => exact Nat.sub_le_sub_left (Nat.le_succ _) _
  | probe => exact Nat.le_refl _
  | preempt preempted => exact (preemptVictim_ok preempted).remaining_le
  | schedule current scheduled =>
    exact (scheduleRunning_ok scheduled).remaining.le.trans (Nat.sub_le _ _)

theorem steps_remaining_le (path : ReflTransGen (RunningStep cfg) pass next) :
    next.remaining ≤ pass.remaining :=
  steps_keep (fun later => later.remaining ≤ pass.remaining)
    (fun step before => step.remaining_le.trans before) path (le_refl _)

end Preemption

section RunningLoop
variable [DecidableEq H]

theorem allocateOrPreempt_steps (current : Current cfg pass ref)
    (h : allocateOrPreempt cfg ref plan.numNewTokens rounds pass = .ok (result, next)) :
    match result with
    | none => ReflTransGen (RunningStep cfg) pass next ∧ next.preemptedReqs ≠ []
    | some _ => ∃ last mgr, ReflTransGen (RunningStep cfg) pass last ∧
        Current cfg last ref ∧ next = last.withScheduler (last.scheduler.withKv mgr) := by
  induction rounds generalizing pass with
  | zero => cases h
  | succ rounds ih =>
    obtain ⟨⟨newBlocks, mgr⟩, -, h⟩ := bind_ok h
    cases newBlocks with
    | some blocks =>
      cases h
      exact ⟨pass, mgr, .refl, current, rfl⟩
    | none =>
      obtain ⟨⟨victim, preempted⟩, done, h⟩ := bind_ok h
      have step : RunningStep cfg pass preempted := .preempt done
      have spec := preemptVictim_ok done
      by_cases itself : victim = ref
      · simp only [if_pos itself] at h
        cases h
        refine ⟨.single step, ?_⟩
        rw [spec.preemptedReqs]
        simp
      · simp only [if_neg itself] at h
        have asking : Current cfg (pass.withScheduler (pass.scheduler.withKv mgr)) ref :=
          ⟨current.running, current.atIndex⟩
        have still : Current cfg preempted ref := spec.current asking itself
        have later := ih still h
        cases result with
        | none => exact ⟨.head step later.1, later.2⟩
        | some blocks =>
          obtain ⟨last, kept, path, lastCurrent, rfl⟩ := later
          exact ⟨last, kept, .head step path, lastCurrent, rfl⟩

/-- A round of the running loop moves on by a request, unless it ends the loop. -/
theorem runningRound_steps (atIndex : pass.scheduler.running[pass.reqIndex]? = some ref)
    (budget : 0 < pass.tokenBudget) (h : pass.runningRound cfg ref = .ok (next, goesOn)) :
    ReflTransGen (RunningStep cfg) pass next ∧
      if goesOn then next.remaining ≤ pass.remaining - 1 else next.preemptedReqs ≠ [] := by
  simp only [runningRound] at h
  split at h
  · rename_i reached
    cases h
    exact ⟨.single (.passOver atIndex reached), le_refl _⟩
  · obtain ⟨⟨plan, cache⟩, planned, h⟩ := bind_ok h
    by_cases noTokens : plan.numNewTokens = 0
    · simp only [if_pos noTokens] at h
      cases h
      exact ⟨.single (.idle atIndex budget planned noTokens), le_refl _⟩
    · simp only [if_neg noTokens] at h
      obtain ⟨⟨newBlocks, _⟩, allocated, h⟩ := bind_ok h
      have probe : RunningStep cfg pass
          (pass.withScheduler (pass.scheduler.withEncoder cache)) := .probe
      have current : Current cfg (pass.withScheduler (pass.scheduler.withEncoder cache)) ref :=
        ⟨mem_of_getElem? atIndex, fun _ => atIndex⟩
      have steps := allocateOrPreempt_steps current allocated
      cases newBlocks with
      | none =>
        cases h
        exact ⟨.head probe steps.1, steps.2⟩
      | some blocks =>
        obtain ⟨last, mgr, path, lastCurrent, rfl⟩ := steps
        obtain ⟨_, done, h⟩ := bind_ok h
        cases h
        refine ⟨.head probe (path.tail (.schedule lastCurrent done)), ?_⟩
        have fewer : next.remaining =
            (last.withScheduler (last.scheduler.withKv mgr)).remaining - 1 :=
          (scheduleRunning_ok done).remaining
        have same : (last.withScheduler (last.scheduler.withKv mgr)).remaining =
          last.remaining := rfl
        have moved := steps_remaining_le (.head probe path)
        simp only [if_true]
        omega

theorem runningLoop_steps (ran : runningLoop cfg rounds pass = .ok next) :
    ReflTransGen (RunningStep cfg) pass next := by
  induction rounds generalizing pass with
  | zero =>
    cases ran
    exact .refl
  | succ rounds ih =>
    rw [runningLoop] at ran
    split at ran
    · cases ran
      exact .refl
    · rename_i ref atIndex
      split at ran
      · cases ran
        exact .refl
      · rename_i budget
        obtain ⟨⟨_, goesOn⟩, round, ran⟩ := bind_ok ran
        have steps := (runningRound_steps atIndex (by omega) round).1
        cases goesOn with
        | false =>
          cases ran
          exact steps
        | true => exact steps.trans (ih ran)

/-- The running loop ends because a request had to be preempted for itself, the budget is
used up or all requests are passed: there are always enough rounds. -/
theorem runningLoop_ends (enough : pass.remaining ≤ rounds)
    (ran : runningLoop cfg rounds pass = .ok next) :
    next.preemptedReqs ≠ [] ∨ next.tokenBudget ≤ 0 ∨ next.remaining = 0 := by
  induction rounds generalizing pass with
  | zero =>
    cases ran
    exact .inr (.inr (Nat.le_zero.mp enough))
  | succ rounds ih =>
    rw [runningLoop] at ran
    split at ran
    · rename_i beyond
      cases ran
      exact .inr (.inr (Nat.sub_eq_zero_of_le (List.getElem?_eq_none_iff.mp beyond)))
    · rename_i ref atIndex
      split at ran
      · rename_i spent
        cases ran
        exact .inr (.inl spent)
      · rename_i budget
        obtain ⟨⟨after, goesOn⟩, round, ran⟩ := bind_ok ran
        have outcome := (runningRound_steps atIndex (by omega) round).2
        cases goesOn with
        | false =>
          cases ran
          exact .inl outcome
        | true =>
          simp only [if_true] at outcome
          exact ih (by omega) ran

end RunningLoop

section WaitingLoop
variable {sched matched : Scheduler H K}

theorem queue_of_queues (same : matched.queues = sched.queues) :
    matched.queue name = sched.queue name := by
  cases name with
  | waiting => exact congrArg (fun queues => queues.2.1) same
  | skippedWaiting => exact congrArg Prod.fst same

structure LooksUp (sched : Scheduler H K) (ref : Ref) (matched : Scheduler H K) : Prop where
  others : ∀ other, other ≠ ref → matched.objects other = sched.objects other
  request : ∃ external, matched.objects ref =
    { sched.objects ref with numExternalComputedTokens := external }
  rest : matched = { sched with
    objects := matched.objects
    connectorState := matched.connectorState }

theorem LooksUp.refl : LooksUp sched ref sched := ⟨fun _ _ => rfl, ⟨_, rfl⟩, rfl⟩

theorem LooksUp.queues (looks : LooksUp sched ref matched) :
    matched.queues = sched.queues := by
  rw [looks.rest]
  rfl

theorem matchExternal_looksUp
    (h : matchExternal cfg sched ref numLocal = .ok (external, matched)) :
    LooksUp sched ref matched := by
  unfold matchExternal at h
  split at h
  · cases h
    exact .refl
  · obtain ⟨⟨⟨extTokens, _⟩, _⟩, -, h⟩ := bind_ok h
    cases extTokens with
    | none =>
      cases h
      exact ⟨fun _ _ => rfl, ⟨_, rfl⟩, rfl⟩
    | some extTokens =>
      cases h
      exact ⟨fun other ne => Scheduler.modify_objects_of_ne _ _ ne,
        ⟨extTokens, Scheduler.modify_objects_self _ _ _⟩, rfl⟩

theorem lookUpComputed_looksUp (h : lookUpComputed cfg sched ref = .ok (found, matched)) :
    LooksUp sched ref matched := by
  simp only [lookUpComputed] at h
  split at h
  · obtain ⟨⟨_, numLocal⟩, -, h⟩ := bind_ok h
    obtain ⟨⟨external, _⟩, asked, h⟩ := bind_ok h
    cases external with
    | none =>
      cases h
      exact matchExternal_looksUp asked
    | some external =>
      obtain ⟨-, h⟩ := assert_bind_ok h
      cases h
      exact matchExternal_looksUp asked
  · cases h
    exact .refl

variable [DecidableEq H]

def receivedRequest (failed : Bool) (req : Request H) : Request H :=
  { (if failed then req else Scheduler.countReceived req) with
    status := if req.numPreemptions ≠ 0 then .preempted else .waiting }

inductive Promoted (sched : Scheduler H K) (ref : Ref) : Scheduler H K → Prop
  | unblocked : Promoted sched ref sched
  | compiled : Promoted sched ref (sched.setStatus ref .waiting)
  | received {mgr} : Promoted sched ref { sched.modify ref (receivedRequest
          (sched.requestId ref ∈ sched.failedRecvingKvReqIds)) with
        kvCacheManager := mgr
        failedRecvingKvReqIds :=
          sched.failedRecvingKvReqIds.filter (· ≠ sched.requestId ref)
        finishedRecvingKvReqIds :=
          sched.finishedRecvingKvReqIds.filter (· ≠ sched.requestId ref) }

theorem updateWaitingForRemoteKv_ok {next : Scheduler H K}
    (h : sched.updateWaitingForRemoteKv cfg ref = .ok next) :
    Promoted sched ref (next.setStatus ref
      (if (sched.objects ref).numPreemptions ≠ 0 then .preempted else .waiting)) := by
  unfold Scheduler.updateWaitingForRemoteKv at h
  obtain ⟨-, h⟩ := assert_bind_ok h
  obtain ⟨mgr, -, h⟩ := bind_ok h
  cases h
  convert @Promoted.received _ _ sched ref mgr using 1
  by_cases failed : sched.requestId ref ∈ sched.failedRecvingKvReqIds
  · simp only [failed, if_true, decide_true, Scheduler.setStatus, Scheduler.modify,
      Scheduler.withKv, receivedRequest]
  · simp only [failed, if_false, decide_false, Scheduler.setStatus, Scheduler.modify,
      Scheduler.withKv, receivedRequest, if_true, false_eq_true]
    congr 1
    funext other
    split <;> rfl

theorem promoteIfBlocked_ok (h : sched.promoteIfBlocked cfg ref = .ok (ready, promoted)) :
    if ready then Promoted sched ref promoted else promoted = sched := by
  unfold Scheduler.promoteIfBlocked at h
  split at h
  · simp only [Scheduler.tryPromoteBlockedWaitingRequest] at h
    split at h
    · split at h
      · cases h
        rfl
      · obtain ⟨_, updated, h⟩ := bind_ok h
        cases h
        exact updateWaitingForRemoteKv_ok updated
    · split at h
      · cases h
        exact .compiled
      · cases h
        rfl
    · obtain ⟨-, h⟩ := assert_bind_ok h
      cases h
      rfl
    · cases h
  · cases h
    exact .unblocked

omit [DecidableEq H] in
theorem Promoted.queues (promotes : Promoted sched ref promoted) :
    promoted.queues = sched.queues := by
  cases promotes <;> rfl

omit [DecidableEq H] in
theorem untouchEncoder_ok (h : untouchEncoder sched ref = .ok released) :
    ∃ cache, released = sched.withEncoder cache := by
  simp only [untouchEncoder] at h
  split at h
  · obtain ⟨cache, -, h⟩ := bind_ok h
    cases h
    exact ⟨cache, rfl⟩
  · cases h
    exact ⟨_, rfl⟩

/-- The steps that take a request out of its queue. -/
inductive Takes (cfg : SchedulerConfig H K M) (name : Scheduler.QueueName) (ref : Ref)
    (pass next : Pass H K) : Prop
  | skip (skipped : pass.skipRequest cfg name ref = .ok next)
  | accept {computed plan mgr} (fits : pass.exceedsMaxLoras cfg ref = false)
      (accepted : (pass.withScheduler (pass.scheduler.withKv mgr)).admitRequest cfg name ref
        computed plan = .ok next)

theorem Takes.step (takes : Takes cfg name ref pass next)
    (front : (pass.scheduler.queue name).head? = some ref) : WaitingStep cfg pass next := by
  cases takes with
  | skip skipped => exact .skip front skipped
  | accept fits accepted => exact .accept front fits accepted

/-- The steps before, which leave the queues alone. -/
structure Tries (cfg : SchedulerConfig H K M) (pass tried : Pass H K) : Prop where
  path : ReflTransGen (WaitingStep cfg) pass tried
  queues : tried.scheduler.queues = pass.scheduler.queues
  held : tried.stepSkippedWaiting = pass.stepSkippedWaiting

theorem Tries.of_step (step : WaitingStep cfg pass (pass.withScheduler tried))
    (queues : tried.queues = pass.scheduler.queues) : Tries cfg pass (pass.withScheduler tried) :=
  ⟨.single step, queues, rfl⟩

theorem Tries.trans (first : Tries cfg pass next) (second : Tries cfg next last) :
    Tries cfg pass last :=
  ⟨first.path.trans second.path, second.queues.trans first.queues, second.held.trans first.held⟩

theorem tryAdmit_steps (fits : pass.exceedsMaxLoras cfg ref = false)
    (h : pass.tryAdmit cfg name ref = .ok (next, goesOn)) : ∃ tried, Tries cfg pass tried ∧
      if goesOn then Takes cfg name ref tried next else next = tried := by
  unfold tryAdmit at h
  obtain ⟨⟨found, matched⟩, lookedUp, h⟩ := bind_ok h
  have looks := lookUpComputed_looksUp lookedUp
  have lookUp : Tries cfg pass (pass.withScheduler matched) :=
    .of_step (.lookUp lookedUp) looks.queues
  cases found with
  | none =>
    obtain ⟨_, done, h⟩ := bind_ok h
    cases h
    exact ⟨_, lookUp, .skip done⟩
  | some computed =>
    obtain ⟨⟨planned, cache⟩, -, h⟩ := bind_ok h
    have probe : Tries cfg (pass.withScheduler matched)
        ((pass.withScheduler matched).withScheduler (matched.withEncoder cache)) :=
      .of_step .probe rfl
    cases planned with
    | none =>
      cases h
      exact ⟨_, lookUp.trans probe, rfl⟩
    | some plan =>
      obtain ⟨_, -, h⟩ := bind_ok h
      obtain ⟨⟨newBlocks, _⟩, -, h⟩ := bind_ok h
      cases newBlocks with
      | none =>
        obtain ⟨released, untouched, h⟩ := bind_ok h
        cases h
        obtain ⟨_, same⟩ := untouchEncoder_ok untouched
        have refuse : Tries cfg
            ((pass.withScheduler matched).withScheduler (matched.withEncoder cache))
            (((pass.withScheduler matched).withScheduler
              (matched.withEncoder cache)).withScheduler released) :=
          .of_step (.refuse untouched) (by rw [same]; rfl)
        exact ⟨_, (lookUp.trans probe).trans refuse, rfl⟩
      | some blocks =>
        obtain ⟨_, done, h⟩ := bind_ok h
        cases h
        have fitsMatched : exceedsMaxLoras cfg
            ((pass.withScheduler matched).withScheduler (matched.withEncoder cache)) ref = false := by
          obtain ⟨_, same⟩ := looks.request
          have lora : loraIntId (matched.withEncoder cache) ref = loraIntId pass.scheduler ref := by
            simp only [loraIntId, Scheduler.withEncoder, same]
          simp only [exceedsMaxLoras, withScheduler] at fits ⊢
          rw [lora]
          exact fits
        exact ⟨_, lookUp.trans probe, .accept fitsMatched done⟩

/-- A round ends the loop, or takes a request out of the queue that was chosen. -/
theorem waitingRound_steps (h : pass.waitingRound cfg = .ok (next, goesOn)) :
    ∃ tried, Tries cfg pass tried ∧ if goesOn then ∃ name ref,
        pass.scheduler.selectWaitingQueueForScheduling cfg.policy = some name ∧
        (pass.scheduler.queue name).head? = some ref ∧ Takes cfg name ref tried next
      else next = tried := by
  unfold waitingRound at h
  split at h
  · cases h
    exact ⟨pass, ⟨.refl, rfl, rfl⟩, rfl⟩
  · split at h
    · cases h
    · rename_i name chosen
      obtain ⟨ref, peeked, h⟩ := bind_ok h
      have front := RequestQueue.peekRequest_ok peeked
      obtain ⟨⟨ready, promoted⟩, tried, h⟩ := bind_ok h
      have promotes := promoteIfBlocked_ok tried
      cases ready with
      | false =>
        simp only [Bool.false_eq_true, if_false] at promotes
        subst promotes
        simp only [Bool.not_false, Bool.true_or, if_true] at h
        obtain ⟨skipped, done, h⟩ := bind_ok h
        cases h
        exact ⟨pass, ⟨.refl, rfl, rfl⟩, name, ref, chosen, front, .skip done⟩
      | true =>
        simp only [if_true] at promotes
        have step : Tries cfg pass (pass.withScheduler promoted) :=
          .of_step (.promote front tried) promotes.queues
        simp only [Bool.not_true, Bool.false_or] at h
        split at h
        · obtain ⟨skipped, done, h⟩ := bind_ok h
          cases h
          exact ⟨_, step, name, ref, chosen, front, .skip done⟩
        · rename_i fits
          obtain ⟨_, tries, outcome⟩ := tryAdmit_steps (by simpa using fits) h
          refine ⟨_, step.trans tries, ?_⟩
          cases goesOn with
          | false => exact outcome
          | true => exact ⟨name, ref, chosen, front, outcome⟩

theorem waitingLoop_steps (ran : waitingLoop cfg rounds pass = .ok next) :
    ReflTransGen (WaitingStep cfg) pass next := by
  induction rounds generalizing pass with
  | zero =>
    cases ran
    exact .refl
  | succ rounds ih =>
    rw [waitingLoop] at ran
    split at ran
    · cases ran
      exact .refl
    · obtain ⟨⟨_, goesOn⟩, round, ran⟩ := bind_ok ran
      obtain ⟨tried, tries, outcome⟩ := waitingRound_steps round
      cases goesOn with
      | false =>
        cases ran
        exact outcome ▸ tries.path
      | true =>
        obtain ⟨name, ref, -, front, takes⟩ := outcome
        rw [← queue_of_queues tries.queues] at front
        exact tries.path.trans (.head (takes.step front) (ih ran))

end WaitingLoop

section Admission
variable {computed : Computed}

def admittedRequest (computed : Computed) (req : Request H) : Request H :=
  { req with
    status := .running
    numComputedTokens := computed.numComputedTokens
    numCachedTokens :=
      if req.numCachedTokens < 0 then computed.numComputedTokens else req.numCachedTokens }

structure SchedulesWaiting (cfg : SchedulerConfig H K M) (pass : Pass H K) (ref : Ref)
    (computed : Computed) (next : Pass H K) : Prop where
  scheduler : next.scheduler = { pass.scheduler.modify ref (admittedRequest computed) with
    running := pass.scheduler.running ++ [ref]
    encoderCacheManager := next.scheduler.encoderCacheManager }
  rest : next = { next with
    stepSkippedWaiting := pass.stepSkippedWaiting
    scheduledLoras := recordLora cfg pass ref }

theorem scheduleWaiting_ok (h : pass.scheduleWaiting cfg ref computed plan = .ok next) :
    SchedulesWaiting cfg pass ref computed next := by
  obtain ⟨_, admitted, h⟩ := bind_ok h
  obtain ⟨cache, -, h⟩ := bind_ok h
  cases h
  unfold recordAdmitted at admitted
  split at admitted
  · cases admitted
    constructor
    all_goals
      simp only [withInputs]
      split <;> rfl
  · cases admitted
    constructor
    all_goals
      simp only [withInputs]
      split <;> rfl
  · cases admitted

def loadingRequest (computed : Computed) (req : Request H) : Request H :=
  { req with
    status := .waitingForRemoteKvs
    numComputedTokens := computed.numComputedTokens }

/-- The request leaves its queue, to load its KV or to run. -/
inductive Admits (cfg : SchedulerConfig H K M) (pass : Pass H K) (name : Scheduler.QueueName)
    (ref : Ref) (computed : Computed) : Pass H K → Prop
  | loading {state rest held}
      (popped : (pass.scheduler.queue name).Perm (ref :: rest))
      (skipped : held.Perm (ref :: pass.stepSkippedWaiting)) :
      Admits cfg pass name ref computed { pass with
        scheduler := ({ pass.scheduler with connectorState := state }.setQueue name rest).modify ref
          (loadingRequest computed)
        stepSkippedWaiting := held }
  | scheduled {state rest next}
      (popped : (pass.scheduler.queue name).Perm (ref :: rest))
      (schedules : SchedulesWaiting cfg (pass.withScheduler
        ({ pass.scheduler with connectorState := state }.setQueue name rest)) ref computed next) :
      Admits cfg pass name ref computed next

theorem tellConnector_ok {sched : Scheduler H K}
    (h : tellConnector cfg sched ref computed = .ok told) :
    ∃ state, told = { sched with connectorState := state } := by
  unfold tellConnector at h
  split at h
  · cases h
    exact ⟨_, rfl⟩
  · obtain ⟨state, -, h⟩ := bind_ok h
    cases h
    exact ⟨state, rfl⟩

theorem admitRequest_ok {name : Scheduler.QueueName}
    (front : (pass.scheduler.queue name).head? = some ref)
    (h : pass.admitRequest cfg name ref computed plan = .ok next) :
    Admits cfg pass name ref computed next := by
  obtain ⟨told, tells, h⟩ := bind_ok h
  obtain ⟨⟨_, _⟩, taken, h⟩ := bind_ok h
  obtain ⟨state, rfl⟩ := tellConnector_ok tells
  obtain ⟨head, perm⟩ := RequestQueue.popRequest_ok taken
  have same : ({ pass.scheduler with connectorState := state } : Scheduler H K).queue name =
    pass.scheduler.queue name := by cases name <;> rfl
  rw [same] at head perm
  rw [front] at head
  cases head
  cases async : computed.loadKvAsync with
  | true =>
    simp only [async] at h
    cases h
    exact .loading perm (RequestQueue.prependRequest_perm _ _)
  | false =>
    simp only [async] at h
    exact .scheduled perm (scheduleWaiting_ok h)

end Admission

section Passes
variable {sched : Scheduler H K} {ran : Pass H K}

def lorasRecorded (cfg : SchedulerConfig H K M) (ran : Pass H K) : Pass H K :=
  match cfg.loraConfig with
  | none => ran
  | some _ => { ran with scheduledLoras := ran.runningLoras }

theorem recordLoras_ok (h : ran.recordLoras cfg = .ok pass) :
    pass = ran.lorasRecorded cfg := by
  unfold recordLoras at h
  unfold lorasRecorded
  split at h
  · cases h
    simp [*]
  · obtain ⟨-, h⟩ := assert_bind_ok h
    cases h
    simp [*]

theorem lorasRecorded_rest (ran : Pass H K) : ran.lorasRecorded cfg =
    { ran with scheduledLoras := (ran.lorasRecorded cfg).scheduledLoras } := by
  unfold lorasRecorded
  split <;> rfl

variable [DecidableEq H]

structure Passes (cfg : SchedulerConfig H K M) (sched : Scheduler H K) (ran pass : Pass H K) :
    Prop where
  running : ReflTransGen (RunningStep cfg) (start cfg sched) ran
  ends : ran.preemptedReqs ≠ [] ∨ ran.tokenBudget ≤ 0 ∨ ran.remaining = 0
  waiting : pass = ran.lorasRecorded cfg ∨ ran.preemptedReqs = [] ∧
    ∃ waited, ReflTransGen (WaitingStep cfg) (ran.lorasRecorded cfg) waited ∧
      (ran.tokenBudget ≤ 0 → waited = ran.lorasRecorded cfg) ∧
      pass = waited.requeueSkipped cfg

theorem waitingLoop_spent (spent : pass.tokenBudget ≤ 0) :
    waitingLoop cfg rounds pass = .ok pass := by
  cases rounds with
  | zero => rfl
  | succ rounds => rw [waitingLoop, if_pos (.inr spent)]

theorem schedulePass_ok (h : schedulePass cfg sched = .ok pass) :
    ∃ ran, Passes cfg sched ran pass := by
  unfold schedulePass at h
  obtain ⟨ran, first, h⟩ := bind_ok h
  obtain ⟨recorded, loras, h⟩ := bind_ok h
  obtain ⟨waited, second, h⟩ := bind_ok h
  obtain ⟨⟨⟩, -, h⟩ := bind_ok h
  cases h
  obtain rfl := recordLoras_ok loras
  have loop : runningLoop cfg sched.running.length (start cfg sched) = .ok ran :=
    first
  have enough : (start cfg sched).remaining ≤ sched.running.length := Nat.sub_le _ _
  refine ⟨ran, runningLoop_steps loop, runningLoop_ends enough loop, ?_⟩
  unfold waitingPass at second
  split at second
  · rename_i noneInterrupted
    obtain ⟨after, looped, second⟩ := bind_ok second
    cases second
    refine .inr ⟨?_, after, waitingLoop_steps looped, ?_, rfl⟩
    · rw [lorasRecorded_rest] at noneInterrupted
      exact List.isEmpty_iff.mp noneInterrupted.1
    · intro spent
      rw [waitingLoop_spent (by rw [lorasRecorded_rest]; exact spent)] at looped
      cases looped
      rfl
  · cases second
    exact .inl rfl

end Passes

variable {output : SchedulerOutput M}

/-- What is left of the pass when its output is made. -/
theorem makeOutput_ok (h : pass.makeOutput cfg = .ok (output, sent)) :
    sent = { pass.scheduler with
      kvCacheManager := (takeBlocksToZero cfg pass.scheduler.kvCacheManager).2
      encoderCacheManager := pass.scheduler.encoderCacheManager.getFreedMmHashes.2
      prevStepScheduledReqIds := pass.numScheduledTokens.keys } := by
  unfold makeOutput at h
  obtain ⟨newReqs, -, h⟩ := bind_ok h
  obtain ⟨cachedReqs, -, h⟩ := bind_ok h
  cases h
  rfl

theorem buildConnectorMeta_ok {sched : Scheduler H K}
    (h : sched.buildConnectorMeta cfg output = .ok (described, built)) :
    ∃ metadata state, described = { output with kvConnectorMetadata := metadata } ∧
      built = { sched with connectorState := state } := by
  unfold Scheduler.buildConnectorMeta at h
  split at h
  · cases h
    exact ⟨_, _, rfl, rfl⟩
  · obtain ⟨⟨metadata, state⟩, -, h⟩ := bind_ok h
    cases h
    exact ⟨_, _, rfl, rfl⟩

end Pass
end Vllm

namespace Vllm.Scheduler
variable {H K M : Type} {cfg : SchedulerConfig H K M} {state next : Bool × Scheduler H K}

theorem advanceScheduled_ok (h : advanceScheduled cfg state entry = .ok next) :
    ∃ ref cache, next.2 = (state.2.modify ref (advance · entry.2)).withEncoder cache := by
  obtain ⟨ref, -, h⟩ := Py.bind_ok h
  obtain ⟨cache, -, h⟩ := Py.bind_ok h
  cases h
  exact ⟨ref, cache, rfl⟩

theorem awaitOutput_ok (h : awaitOutput cfg specDecodeTokens state reqId = .ok next) :
    ∃ ref, next.2 = if (state.2.objects ref).isPrefillChunk then state.2 else state.2.modify ref
        (addPlaceholders cfg · ((specDecodeTokens.get? reqId).getD []).length) := by
  obtain ⟨ref, -, h⟩ := Py.bind_ok h
  refine ⟨ref, ?_⟩
  by_cases chunk : (state.2.objects ref).isPrefillChunk = true
  · simp only [chunk] at h ⊢
    cases h
    rfl
  · simp only [chunk] at h ⊢
    cases h
    rfl

end Vllm.Scheduler
