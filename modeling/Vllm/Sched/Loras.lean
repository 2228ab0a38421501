import Vllm.Sched.QueueRuns

/-! The limit on the adapters of a step. A step admits requests by the adapters that the
running loop has scheduled, so the running requests stay within the limit as long as the
loop leaves no request with an adapter out, or all adapters fit anyway. -/
namespace Vllm
open List hiding next
open Py SchedulerConfig
variable {H K M : Type} {cfg : SchedulerConfig H K M} {ref : Ref}

def Scheduler.adapters (sched : Scheduler H K) (refs : List Ref) : List Nat :=
  ((refs.filterMap (Pass.loraIntId sched)).filter (· > 0)).dedup

theorem Scheduler.mem_adapters : lora ∈ sched.adapters refs ↔
      0 < lora ∧ ∃ ref ∈ refs, Pass.loraIntId sched ref = some lora := by
  simp only [adapters, mem_dedup, mem_filter, mem_filterMap, decide_eq_true_eq]
  tauto

theorem Scheduler.adapters_length_le {list : List Nat}
    (covered : ∀ ref ∈ refs, ∀ lora, Pass.loraIntId sched ref = some lora → 0 < lora → lora ∈
      list) : (sched.adapters refs).length ≤ list.length := by
  have subset : sched.adapters refs ⊆ list := by
    intro lora mem
    obtain ⟨pos, ref, inside, same⟩ := mem_adapters.mp mem
    exact covered ref inside lora same pos
  exact (subperm_of_subset (nodup_dedup _) subset).length_le

/-- The running loop finds tokens for the request whatever else is in the step. -/
def Schedulable (cfg : SchedulerConfig H K M) (req : Request H) : Prop :=
  Pass.outputsReachMaxTokens req = false ∧
  req.numComputedTokens < req.numTokensWithSpec + req.numOutputPlaceholders ∧
  req.numComputedTokens < (cfg.maxModelLen : Int) - 1 ∧
  (∀ feat ∈ req.mmFeatures,
    (feat.mmPosition.offset + feat.mmPosition.length : Int) ≤ req.numComputedTokens ∨
      req.numComputedTokens + cfg.shiftComputedTokens < feat.mmPosition.offset) ∧
  (cfg.needMambaBlockAlignedSplit = true →
    max (req.numPromptTokens : Int) (req.numTokens - 1) ≤ req.numComputedTokens)

instance (cfg : SchedulerConfig H K M) (req : Request H) :
    Decidable (Schedulable cfg req) :=
  inferInstanceAs (Decidable (_ ∧ _ ∧ _ ∧ _ ∧ _))

theorem encoderInputsLoop_pos
    (apart : ∀ feat ∈ features, (feat.1.mmPosition.offset + feat.1.mmPosition.length :
      Int) ≤ numComputedTokens ∨ numComputedTokens + cfg.shiftComputedTokens <
      feat.1.mmPosition.offset) (pos : 0 < plan.numNewTokens)
    (h : cfg.encoderInputsLoop req ecConnector numComputedTokens features plan cache
      = .ok (result, next)) : 0 < result.numNewTokens := by
  induction features generalizing plan cache with
  | nil =>
    cases h
    exact pos
  | cons head rest ih =>
    obtain ⟨feat, i⟩ := head
    have later {plan : EncoderPlan} {cache : EncoderCache} (pos : 0 < plan.numNewTokens)
        (h : cfg.encoderInputsLoop req ecConnector numComputedTokens rest plan cache =
          .ok (result, next)) : 0 < result.numNewTokens :=
      ih (fun other mem => apart other (mem_cons_of_mem _ mem)) pos h
    have here := apart (feat, i) (mem_cons_self ..)
    simp only [encoderInputsLoop] at h
    split at h
    · cases h
      exact pos
    split at h
    · split at h
      · exact later pos h
      · cases h
    split at h
    · exact later pos h
    rename_i notDone
    -- A feature that is not computed yet starts after the computed tokens.
    have ahead : numComputedTokens + cfg.shiftComputedTokens < feat.mmPosition.offset := by
      simp only at here
      omega
    split at h
    · exact later pos h
    obtain ⟨⟨hit, checked⟩, -, h⟩ := bind_ok h
    simp only at h
    split at h
    · exact later pos h
    split at h
    · cases h
      simp only
      omega
    obtain ⟨⟨fits, evicted⟩, -, h⟩ := bind_ok h
    simp only at h
    split at h
    · cases h
      simp only
      omega
    obtain ⟨⟨first, last⟩, -, h⟩ := bind_ok h
    simp only at h
    split at h
    · exact later pos h
    · refine later ?_ h
      simp only [EncoderPlan.add]
      split <;> exact pos

theorem planRunning_pos {pass : Pass H K}
    (schedulable : Schedulable cfg req) (budget : 0 < pass.tokenBudget)
    (h : pass.planRunning cfg req = .ok (plan, cache)) : 0 < plan.numNewTokens := by
  obtain ⟨-, _, room, apart, decodes⟩ := schedulable
  unfold Pass.planRunning at h
  obtain ⟨⟨inputs, afterInputs⟩, scheduled, h⟩ := bind_ok h
  obtain ⟨numNewTokens, aligned, h⟩ := bind_ok h
  cases h
  have some : 0 < Pass.numNewTokensRunning cfg req pass.tokenBudget := by
    simp only [Pass.numNewTokensRunning, capLongPrefill]
    split <;> omega
  have left : 0 < inputs.numNewTokens := by
    simp only [tryScheduleEncoderInputs] at scheduled
    split at scheduled
    · cases scheduled
      exact some
    · refine encoderInputsLoop_pos ?_ some scheduled
      intro feat mem
      exact apart feat.1 (fst_mem_of_mem_zipIdx mem)
  unfold alignNewTokens at aligned
  split at aligned
  · rename_i needed
    have computed := decodes needed
    unfold mambaBlockAlignedSplit at aligned
    obtain ⟨-, aligned⟩ := assert_bind_ok aligned
    simp only at aligned
    rw [if_neg (by push_cast; omega)] at aligned
    cases aligned
    exact left
  · cases aligned
    exact left

namespace Pass
open Scheduler
variable {maxLoras : Nat} {pass next : Pass H K} {sched : Scheduler H K}

/-- Until a request is preempted, the loop has scheduled all requests with an adapter that
it has come to. -/
def Counting (sched : Scheduler H K) (pass : Pass H K) : Prop :=
  pass.preemptedReqs ≠ [] ∨
    (pass.scheduler.running = sched.running ∧
      (∀ ref, ref ∉ pass.scheduledRunningReqs →
        pass.scheduler.objects ref = sched.objects ref) ∧
      ∀ i < pass.reqIndex, ∀ ref, pass.scheduler.running[i]? = some ref →
        ∀ lora, loraIntId sched ref = some lora → 0 < lora → ref ∈ pass.scheduledRunningReqs)

def AdaptersSchedulable (cfg : SchedulerConfig H K M) (sched : Scheduler H K) : Prop :=
  ∀ ref ∈ sched.running, ∀ lora ∈ loraIntId sched ref, 0 < lora →
    Schedulable cfg (sched.objects ref)

instance (cfg : SchedulerConfig H K M) (sched : Scheduler H K) :
    Decidable (AdaptersSchedulable cfg sched) := by
  unfold AdaptersSchedulable
  infer_instance

/-- The loop moves on from a request that it schedules, or that has no adapter. -/
theorem Counting.passOver (schedulable : AdaptersSchedulable cfg sched)
    (counting : Counting sched pass) (atIndex : pass.scheduler.running[pass.reqIndex]? = some ref)
    (notSchedulable : ¬ Schedulable cfg (pass.scheduler.objects ref)) :
    Counting sched pass.passOver := by
  refine counting.imp_right ?_
  rintro ⟨running, objects, visited⟩
  refine ⟨running, objects, ?_⟩
  intro i before other found lora same pos
  rcases Nat.lt_succ_iff_lt_or_eq.mp before with prior | rfl
  · exact visited i prior other found lora same pos
  · have isRef : ref = other := Option.some.inj (atIndex.symm.trans found)
    subst isRef
    by_contra absent
    refine notSchedulable ?_
    rw [objects ref absent]
    refine schedulable ref ?_ lora same pos
    rw [← running]
    exact mem_of_getElem? atIndex

theorem loraIntId_congr
    (same : (second.objects ref).loraRequest = (first.objects ref).loraRequest) :
    loraIntId second ref = loraIntId first ref := by
  rw [loraIntId, loraIntId, same]

/-- The adapters of the running requests are among those counted, and these fit. -/
structure Covered (maxLoras : Nat) (pass : Pass H K) : Prop where
  bound : pass.scheduledLoras.length ≤ maxLoras
  covered : ∀ ref ∈ pass.scheduler.running, ∀ lora, loraIntId pass.scheduler ref = some lora →
    0 < lora → lora ∈ pass.scheduledLoras

theorem Covered.congr (covered : Covered maxLoras pass) (rearranged : Rearranged pass next)
    (running : next.scheduler.running = pass.scheduler.running)
    (loras : next.scheduledLoras = pass.scheduledLoras) : Covered maxLoras next := by
  constructor
  · rw [loras]
    exact covered.bound
  · intro ref mem lora same pos
    rw [running] at mem
    rw [loraIntId_congr (rearranged.loras ref)] at same
    rw [loras]
    exact covered.covered ref mem lora same pos

/-- Admission counts the adapter of the request, and checks that it fits. -/
theorem Covered.accept (limit : cfg.loraConfig = some maxLoras) (covered : Covered maxLoras pass)
    (rearranged : Rearranged pass next)
    (running : next.scheduler.running = pass.scheduler.running ++ [ref])
    (loras : next.scheduledLoras = recordLora cfg pass ref)
    (fits : pass.exceedsMaxLoras cfg ref = false) : Covered maxLoras next := by
  have kept : ∀ lora ∈ pass.scheduledLoras, lora ∈ recordLora cfg pass ref := by
    intro lora mem
    unfold recordLora
    split
    · split
      · exact mem
      · exact mem_append_left _ mem
    · exact mem
  constructor
  · rw [loras]
    unfold recordLora
    simp only [exceedsMaxLoras, limit] at fits
    split
    · rename_i lora _ known
      rw [known] at fits
      split
      · exact covered.bound
      · rename_i fresh
        simp only [fresh, not_false_eq_true, and_true, decide_eq_false_iff_not] at fits
        have bound := covered.bound
        rw [length_append, length_singleton]
        omega
    · exact covered.bound
  · intro other mem lora same pos
    rw [loras]
    rw [loraIntId_congr (rearranged.loras other)] at same
    rw [running, mem_append, mem_singleton] at mem
    rcases mem with older | rfl
    · exact kept lora (covered.covered other older lora same pos)
    · unfold recordLora
      rw [limit, same]
      simp only
      split
      · assumption
      · exact mem_append_right _ (mem_singleton.mpr rfl)

structure FromRunning (sched : Scheduler H K) (pass : Pass H K) : Prop where
  running : ∀ ref ∈ pass.scheduler.running, ref ∈ sched.running
  scheduled : ∀ ref ∈ pass.scheduledRunningReqs, ref ∈ sched.running

theorem RunningStep.fromRunning (step : RunningStep cfg pass next)
    (before : FromRunning sched pass) : FromRunning sched next := by
  cases step with
  | passOver | idle | probe => exact ⟨before.running, before.scheduled⟩
  | preempt preempted =>
    have spec := preemptVictim_ok preempted
    constructor
    · intro ref mem
      rw [spec.running] at mem
      exact before.running ref (spec.chosen.running.mem_iff.mpr (mem_cons_of_mem _ mem))
    · obtain ⟨left, same, ⟨-, rfl⟩ | ⟨-, unscheduled⟩⟩ := spec.rest
      · intro ref mem
        rw [same] at mem
        exact before.scheduled ref mem
      · intro ref mem
        rw [same] at mem
        cases unscheduled with
        | untouched => exact before.scheduled ref mem
        | dropped => exact before.scheduled ref (mem_of_mem_erase mem)
  | schedule current scheduled =>
    have schedules := scheduleRunning_ok scheduled
    constructor
    · intro ref mem
      rw [schedules.scheduler] at mem
      exact before.running ref mem
    · intro ref mem
      rw [schedules.rest] at mem
      rcases mem_append.mp mem with prior | last
      · exact before.scheduled ref prior
      · rw [mem_singleton.mp last]
        exact before.running _ current.running

theorem RunningStep.counting (schedulable : AdaptersSchedulable cfg sched)
    (step : RunningStep cfg pass next) (counting : Counting sched pass) :
    Counting sched next := by
  cases step with
  | passOver current reached =>
    refine counting.passOver schedulable current ?_
    rintro ⟨notReached, -⟩
    rw [reached] at notReached
    cases notReached
  | @idle ref plan cache current budget planned noTokens =>
    have idle := counting.passOver schedulable current (fun schedulableHere => by
      have pos := planRunning_pos schedulableHere budget planned
      omega)
    exact idle
  | probe => exact counting
  | preempt preempted =>
    left
    rw [(preemptVictim_ok preempted).preemptedReqs]
    simp
  | @schedule ref plan blocks mgr _ current scheduled =>
    have schedules := scheduleRunning_ok scheduled
    have rest := schedules.rest
    have running : next.scheduler.running = pass.scheduler.running := by
      rw [schedules.scheduler]
      rfl
    have none : next.preemptedReqs = pass.preemptedReqs := by rw [rest]; rfl
    have list : next.scheduledRunningReqs = pass.scheduledRunningReqs ++ [ref] := by rw [rest]; rfl
    have index : next.reqIndex = pass.reqIndex + 1 := by rw [rest]; rfl
    obtain interrupted | ⟨sameRunning, objects, visited⟩ := counting
    · left
      rw [none]
      exact interrupted
    · by_cases untouched : pass.preemptedReqs = []
      · right
        refine ⟨running.trans sameRunning, ?_, ?_⟩
        · intro other absent
          rw [list, mem_append, mem_singleton, not_or] at absent
          rw [schedules.scheduler]
          exact (modify_objects_of_ne _ _ absent.2).trans (objects other absent.1)
        · intro i before other found lora same pos
          rw [list, mem_append]
          rw [running] at found
          rw [index] at before
          rcases Nat.lt_succ_iff_lt_or_eq.mp before with prior | rfl
          · exact .inl (visited i prior other found lora same pos)
          · right
            rw [current.atIndex (.inr untouched)] at found
            cases found
            exact mem_singleton.mpr rfl
      · left
        rw [none]
        exact untouched

section
variable (path : Relation.ReflTransGen (RunningStep cfg) (start cfg sched) pass)
include path

theorem fromRunning_of_steps : FromRunning sched pass :=
  steps_keep (FromRunning sched) (fun step => step.fromRunning) path
    ⟨fun _ mem => mem, fun _ mem => by cases mem⟩

/-- The running loop schedules no adapter that was not running. -/
theorem runningLoras_length_le :
    pass.runningLoras.length ≤ (sched.adapters sched.running).length := by
  refine adapters_length_le ?_
  intro ref mem lora same pos
  rw [loraIntId_congr ((rearranged_of_moved (moved_of_running path).1).loras ref)] at same
  exact mem_adapters.mpr ⟨pos, ref, (fromRunning_of_steps path).scheduled ref mem, same⟩

end

variable [DecidableEq H]

theorem WaitingStep.covered (limit : cfg.loraConfig = some maxLoras)
    (step : WaitingStep cfg pass next) (covered : Covered maxLoras pass) :
    Covered maxLoras next := by
  have rearranged := Moved.rearranged step.moves
  cases step with
  | promote front ready =>
    have promotes := promoteIfBlocked_ok ready
    refine covered.congr rearranged ?_ rfl
    cases promotes <;> rfl
  | @skip name ref _ front skipped =>
    unfold skipRequest at skipped
    obtain ⟨⟨popped, rest⟩, -, skipped⟩ := bind_ok skipped
    cases skipped
    exact covered.congr rearranged (by cases name <;> rfl) rfl
  | lookUp lookedUp =>
    refine covered.congr rearranged ?_ rfl
    rw [withScheduler, (lookUpComputed_looksUp lookedUp).rest]
  | probe => exact covered.congr rearranged rfl rfl
  | refuse untouched =>
    obtain ⟨cache, rfl⟩ := untouchEncoder_ok untouched
    exact covered.congr rearranged rfl rfl
  | @accept name ref _ _ mgr _ front fits accepted =>
    have frontAsked : ((pass.scheduler.withKv mgr).queue name).head? = some ref := by
      cases name <;> exact front
    have admits : Admits cfg (pass.withScheduler (pass.scheduler.withKv mgr)) name ref _
      next := admitRequest_ok frontAsked accepted
    cases admits with
    | loading => exact covered.congr rearranged (by cases name <;> rfl) rfl
    | scheduled popped schedules =>
      refine covered.accept limit rearranged ?_ ?_ fits
      · rw [schedules.scheduler]
        cases name <;> rfl
      · rw [schedules.rest]
        cases name <;> rfl

end Pass

namespace Scheduler
variable {sched next : Scheduler H K} {pass ran : Pass H K}

/-- The adapters of the running requests fit, and stay so when requests leave the queue. -/
theorem Keeps.adapters (keeps : Keeps sched next) (stored : sched.Stored [])
    (bound : (sched.adapters sched.running).length ≤ maxLoras) :
    (next.adapters next.running).length ≤ maxLoras := by
  refine le_trans (adapters_length_le ?_) bound
  intro ref mem lora same pos
  have older := keeps.running ref mem
  have created := stored.queued ref (mem_append_left _ older)
  rw [Pass.loraIntId_congr (keeps.loras ref created)] at same
  exact mem_adapters.mpr ⟨pos, ref, older, same⟩

/-- Every running request with an adapter has tokens to schedule, or all adapters fit. -/
def AdaptersFit (cfg : SchedulerConfig H K M) (maxLoras : Nat) (sched : Scheduler H K) :
    Prop :=
  Pass.AdaptersSchedulable cfg sched ∨
    (sched.adapters (sched.places [])).length ≤ maxLoras

instance (cfg : SchedulerConfig H K M) (maxLoras : Nat) (sched : Scheduler H K) :
    Decidable (AdaptersFit cfg maxLoras sched) :=
  inferInstanceAs (Decidable (_ ∨ _))

variable [DecidableEq H] (limit : cfg.loraConfig = some maxLoras)
include limit

/-- If the loop has come to the end of the queue, the adapters of all running requests are
counted. -/
theorem lorasRecorded_covered (schedulable : Pass.AdaptersSchedulable cfg sched)
    (asserted : ran.runningLoras.length ≤ maxLoras) (passes : Pass.Passes cfg sched ran pass)
    (noPreemption : ran.preemptedReqs = []) (budget : ¬ ran.tokenBudget ≤ 0) :
    Pass.Covered maxLoras (ran.lorasRecorded cfg) := by
  have counting : Pass.Counting sched ran :=
    Pass.steps_keep (Pass.Counting sched) (fun step => step.counting schedulable)
      passes.running (.inr ⟨rfl, fun _ _ => rfl, fun i before => absurd before (Nat.not_lt_zero i)⟩)
  have rearranged := Pass.rearranged_of_moved (Pass.moved_of_running passes.running).1
  obtain preempted | ⟨-, -, visited⟩ := counting
  · exact absurd noPreemption preempted
  have whole : ran.scheduler.running.length ≤ ran.reqIndex := by
    rcases passes.ends with preempted | spent | passed
    · exact absurd noPreemption preempted
    · exact absurd spent budget
    · exact Nat.sub_eq_zero_iff_le.mp passed
  have loras : (ran.lorasRecorded cfg).scheduledLoras = ran.runningLoras := by
    simp [Pass.lorasRecorded, limit]
  constructor
  · rw [loras]
    exact asserted
  · intro ref mem lora same pos
    rw [Pass.lorasRecorded_rest] at mem same
    obtain ⟨i, found⟩ := getElem?_of_mem mem
    have inside : i < ran.scheduler.running.length := (List.getElem?_eq_some_iff.mp found).1
    have before : Pass.loraIntId sched ref = some lora := by
      rw [← same]
      exact (Pass.loraIntId_congr (rearranged.loras ref)).symm
    have counted := visited i (inside.trans_le whole) ref found lora before pos
    rw [loras]
    exact mem_adapters.mpr ⟨pos, ref, counted, same⟩

/-- A pass leaves running requests whose adapters fit. -/
theorem passes_adapters (fit : sched.AdaptersFit cfg maxLoras)
    (bound : (sched.adapters sched.running).length ≤ maxLoras)
    (passes : Pass.Passes cfg sched ran pass) :
    (pass.scheduler.adapters pass.scheduler.running).length ≤ maxLoras := by
  have rearranged := Pass.rearranged_of_moved passes.moved.1
  have sameLora (ref : Ref) : Pass.loraIntId pass.scheduler ref = Pass.loraIntId sched ref :=
    Pass.loraIntId_congr (rearranged.loras ref)
  have fromRunning := Pass.fromRunning_of_steps passes.running
  have asserted := (Pass.runningLoras_length_le passes.running).trans bound
  -- Without admissions the running requests were running before.
  have noAdmission (only : ∀ ref ∈ pass.scheduler.running, ref ∈ sched.running) :
      (pass.scheduler.adapters pass.scheduler.running).length ≤ maxLoras := by
    refine le_trans (adapters_length_le ?_) bound
    intro ref mem lora same pos
    rw [sameLora] at same
    exact mem_adapters.mpr ⟨pos, ref, only ref mem, same⟩
  obtain rfl | ⟨noPreemption, waited, path, spent, rfl⟩ := passes.waiting
  · refine noAdmission ?_
    rw [Pass.lorasRecorded_rest]
    exact fromRunning.running
  by_cases budget : ran.tokenBudget ≤ 0
  · refine noAdmission ?_
    intro ref mem
    rw [spent budget] at mem
    rw [Pass.lorasRecorded_rest] at mem
    exact fromRunning.running ref mem
  obtain schedulable | all := fit
  · have covered : Pass.Covered maxLoras waited :=
      Pass.steps_keep (Pass.Covered maxLoras) (fun step => step.covered limit) path
        (lorasRecorded_covered limit schedulable asserted passes noPreemption budget)
    exact (adapters_length_le covered.covered).trans covered.bound
  · refine le_trans (adapters_length_le ?_) all
    intro ref mem lora same pos
    rw [sameLora] at same
    refine mem_adapters.mpr ⟨pos, ref, ?_, same⟩
    exact rearranged.places.mem_iff.mp (mem_append_left _ mem)

theorem schedule_adapters
    (fit : sched.AdaptersFit cfg maxLoras) (stored : sched.Stored [])
    (bound : (sched.adapters sched.running).length ≤ maxLoras)
    (h : sched.schedule cfg = .ok (output, next)) :
    next.Stored [] ∧ (next.adapters next.running).length ≤ maxLoras := by
  obtain ⟨_, pass, passes, steady⟩ := schedule_steady h
  have rearranged := Pass.rearranged_of_moved passes.moved.1
  have fits := passes_adapters limit fit bound passes
  have storedPass : pass.scheduler.Stored [] := by
    constructor
    · intro ref mem
      rw [rearranged.numObjects]
      refine stored.queued ref (rearranged.places.mem_iff.mp ?_)
      simp only [places, outside, mem_append] at mem ⊢
      tauto
    · intro id ref found
      rw [rearranged.requests] at found
      rw [rearranged.numObjects]
      exact stored.named id ref found
  have keeps := steady.keeps
  exact ⟨keeps.stored storedPass, keeps.adapters storedPass fits⟩

end Scheduler

namespace Engine
variable {engine next : Engine H K M} {op : EngineOp}

/-- The condition at each step: if there is a limit on the adapters, those of the running
requests are all seen by `schedule`, or all adapters fit. -/
def AdaptersFit (cfg : SchedulerConfig H K M) (engine : Engine H K M) : EngineOp → Prop
  | .schedule => ∀ maxLoras ∈ cfg.loraConfig, engine.scheduler.AdaptersFit cfg maxLoras
  | _ => True

instance (cfg : SchedulerConfig H K M) (engine : Engine H K M) (op : EngineOp) :
    Decidable (engine.AdaptersFit cfg op) := by
  induction op using EngineOp.casesOn <;> dsimp only [AdaptersFit] <;> infer_instance

variable [DecidableEq H]

theorem exec_adapters (limit : cfg.loraConfig = some maxLoras)
    (before : engine.scheduler.Stored [] ∧
      (engine.scheduler.adapters engine.scheduler.running).length ≤ maxLoras)
    (fit : engine.AdaptersFit cfg op) (h : engine.exec cfg op = .ok next) :
    next.scheduler.Stored [] ∧
      (next.scheduler.adapters next.scheduler.running).length ≤ maxLoras := by
  by_cases isSchedule : op = .schedule
  · subst isSchedule
    obtain ⟨⟨output, scheduled⟩, schedules, h⟩ := bind_ok h
    cases h
    exact Scheduler.schedule_adapters limit (fit maxLoras limit) before.1 before.2 schedules
  · have keeps := exec_keeps h isSchedule
    exact ⟨keeps.stored before.1, keeps.adapters before.1 before.2⟩

theorem running_loop_loras_bounded (cfg : SchedulerConfig H K M) (maxLoras : Nat)
    (mgr : KVCacheManager H) (encoderCacheSize : Nat) (connectorState : K)
    (ecConnector : Option (List String)) (absent : Request H) (ops : List EngineOp)
    (reached : Engine H K M) (limit : cfg.loraConfig = some maxLoras)
    (fit : Run.AllSteps (exec cfg) (AdaptersFit cfg)
      (init cfg mgr encoderCacheSize connectorState ecConnector absent) ops)
    (ran : Run.run (exec cfg)
      (init cfg mgr encoderCacheSize connectorState ecConnector absent) ops = .ok reached) :
    ∀ pass, Pass.runningPass cfg reached.scheduler = .ok pass →
      pass.runningLoras.length ≤ maxLoras ∧ (pass.recordLoras cfg).isOk = true := by
  have invariant := Run.run_invariant (fun engine : Engine H K M => engine.scheduler.Stored [] ∧
      (engine.scheduler.adapters engine.scheduler.running).length ≤ maxLoras)
    (exec_adapters limit)
    ⟨⟨fun _ mem => (by cases mem), fun _ _ found => (by cases found)⟩, Nat.zero_le _⟩ fit ran
  intro pass runs
  have bounded := (Pass.runningLoras_length_le (Pass.runningLoop_steps runs)).trans invariant.2
  refine ⟨bounded, ?_⟩
  simp only [Pass.recordLoras, limit]
  rw [assert_bind (by simpa using bounded)]
  rfl

def oneLoraConfig : SchedulerConfig Nat Unit Unit where
  policy := .fcfs
  maxNumRunningReqs := 4
  maxNumScheduledTokens := 100
  maxModelLen := 100
  blockSize := 4
  cacheBlockSize := 4
  loraConfig := some 1

def loraArgs (id : String) (loraIntId : Nat) : RequestArgs :=
  { promptArgs id 3 5 with loraRequest := some ⟨"lora", loraIntId⟩ }

/-- Two requests with different adapters, each output read before the next step. The
second request waits until the first one has finished. -/
def alternatingRun : List EngineOp :=
  [.addRequest (loraArgs "a" 1), .addRequest (loraArgs "b" 2), .schedule,
    .updateFromOutput 0 (sampledOutput [("a", [9])]), .schedule,
    .updateFromOutput 0 (sampledOutput [("a", [2])]), .schedule,
    .updateFromOutput 0 (sampledOutput [("b", [9])])]

theorem running_loop_loras_bounded_alternating : ∃ start reached pass,
    small oneLoraConfig 0 = .ok start ∧
    Run.run (exec oneLoraConfig) start alternatingRun = .ok reached ∧
    Pass.runningPass oneLoraConfig reached.scheduler = .ok pass ∧ pass.scheduledRunningReqs = [1] ∧
    pass.runningLoras.length ≤ 1 ∧ (pass.recordLoras oneLoraConfig).isOk = true := by
  have returns : (do
      let start ← small oneLoraConfig 0
      Py.assert (decide (Run.AllSteps (exec oneLoraConfig) (AdaptersFit oneLoraConfig) start
        alternatingRun)) "AllSteps"
      let reached ← Run.run (exec oneLoraConfig) start alternatingRun
      let pass ← Pass.runningPass oneLoraConfig reached.scheduler
      return pass.scheduledRunningReqs) = (.ok [1] : Py (List Ref)) := by
    decide +kernel
  obtain ⟨start, made, returns⟩ := bind_ok returns
  obtain ⟨fit, returns⟩ := assert_bind_ok returns
  obtain ⟨reached, ran, returns⟩ := bind_ok returns
  obtain ⟨pass, passed, returns⟩ := bind_ok returns
  refine ⟨start, reached, pass, made, ran, passed, Except.ok.inj returns, ?_⟩
  obtain ⟨mgr, -, made⟩ := bind_ok made
  cases made
  exact running_loop_loras_bounded oneLoraConfig 1 mgr 0 () none _ alternatingRun reached rfl
    (of_decide_eq_true fit) ran pass passed

/-- The first request is in flight when the second step is scheduled, so its adapter is not
counted and the second request is admitted with another one. -/
def lateOutputsRun : List EngineOp :=
  [.addRequest (loraArgs "a" 1), .addRequest (loraArgs "b" 2), .schedule, .schedule,
    .updateFromOutput 0 (sampledOutput [("a", [5])]),
    .updateFromOutput 0 (sampledOutput [("b", [6])])]

theorem late_outputs_exceed_max_loras : ∃ start reached pass, small oneLoraConfig 0 = .ok start ∧
    Run.run (exec oneLoraConfig) start lateOutputsRun = .ok reached ∧
    Pass.runningPass oneLoraConfig reached.scheduler = .ok pass ∧ pass.runningLoras = [1, 2] ∧
    Py.raised? (reached.scheduler.schedule oneLoraConfig) =
      some (.assertionError "len(scheduled_loras) <= self.lora_config.max_loras") := by
  have returns : (do
      let start ← small oneLoraConfig 0
      let reached ← Run.run (exec oneLoraConfig) start lateOutputsRun
      let pass ← Pass.runningPass oneLoraConfig reached.scheduler
      return (pass.runningLoras, Py.raised? (reached.scheduler.schedule oneLoraConfig))) =
      (.ok ([1, 2], some (.assertionError "len(scheduled_loras) <= self.lora_config.max_loras")) :
        Py (List Nat × Option PyError)) := by
    decide +kernel
  obtain ⟨start, made, returns⟩ := bind_ok returns
  obtain ⟨reached, ran, returns⟩ := bind_ok returns
  obtain ⟨pass, passed, returns⟩ := bind_ok returns
  simp only [pure, Except.pure, Except.ok.injEq, Prod.mk.injEq] at returns
  exact ⟨start, reached, pass, made, ran, passed, returns.1, returns.2⟩

end Engine
end Vllm
