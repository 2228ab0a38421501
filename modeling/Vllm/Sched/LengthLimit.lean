import Vllm.Sched.QueueRuns

/-! The length limits of generation requests. The stop test looks at the limits only once
`min_tokens` tokens are there, so a request stays below them as long as its prompt and
`min_tokens` fit into `max_model_len` together. -/
namespace Vllm
open Py Option Request
variable {H K M : Type} {cfg : SchedulerConfig H K M}

/-- `SamplingParams._verify_args`, of the lengths. -/
def SamplingParams.verifyArgs (params : SamplingParams) : Py Unit :=
  match params.maxTokens with
  | none => .ok ()
  | some maxTokens =>
    if maxTokens < 1 then .error (.valueError s!"max_tokens must be at least 1, got {maxTokens}.")
    else if params.minTokens > maxTokens then
      .error (.valueError ("min_tokens must be less than or equal to " ++
        s!"max_tokens={maxTokens}, got {params.minTokens}."))
    else .ok ()

namespace RequestArgs

variable (cfg : SchedulerConfig H K M) (args : RequestArgs)

def numPromptTokens : Nat :=
  match lengthFromPromptTokenIdsOrEmbeds args.promptTokenIds args.promptEmbeds with
  | .ok length => length
  | .error _ => 0

/-- A generation request with verified parameters and a prompt that leaves room. -/
def IsGeneration : Prop :=
  args.poolingParams = none ∧ (∃ params ∈ args.samplingParams, params.verifyArgs.isOk = true) ∧
    args.numPromptTokens < cfg.maxModelLen

/-- The prompt and the least output fit into the model together. -/
def FitsMinTokens : Prop :=
  ∀ params ∈ args.samplingParams, args.numPromptTokens + params.minTokens ≤ cfg.maxModelLen

instance (cfg : SchedulerConfig H K M) (args : RequestArgs) : Decidable (args.IsGeneration cfg) :=
  inferInstanceAs (Decidable (_ ∧ _ ∧ _))

instance (cfg : SchedulerConfig H K M) (args : RequestArgs) : Decidable (args.FitsMinTokens cfg) :=
  inferInstanceAs (Decidable (∀ params ∈ args.samplingParams, _))

end RequestArgs

/-- A request that is below its limits, so that the running loop can grant it a token. -/
structure BelowLimits (cfg : SchedulerConfig H K M) (req : Request H) : Prop where
  tokens : req.numTokens < cfg.maxModelLen
  outputs : req.numOutputTokens < req.maxTokens
  granted : ∀ tokenBudget : Int, 0 < tokenBudget → 0 ≤ req.numOutputPlaceholders →
    req.numComputedTokens < req.numTokens →
      0 < Pass.numNewTokensRunning cfg req tokenBudget

theorem BelowLimits.of_lengths (tokens : req.numTokens < cfg.maxModelLen)
    (outputs : req.numOutputTokens < req.maxTokens) : BelowLimits cfg req := by
  refine ⟨tokens, outputs, ?_⟩
  intro _ _ _ _
  have drafts : req.numTokens ≤ req.numTokensWithSpec := Nat.le_add_right _ _
  simp only [Pass.numNewTokensRunning, SchedulerConfig.capLongPrefill]
  split <;> omega

/-- A request that is not a session, whose stop test comes before its limits are passed. -/
structure Limited (cfg : SchedulerConfig H K M) (req : Request H) : Prop where
  params : ∃ params, req.samplingParams = some params ∧ params.minTokens ≤ req.maxTokens ∧
    req.numTokens + params.minTokens ≤ cfg.maxModelLen + req.numOutputTokens
  single : req.resumable = false ∧ req.status ≠ .waitingForStreamingReq
  below : req.isFinished = false →
    req.numTokens < cfg.maxModelLen ∧ req.numOutputTokens < req.maxTokens

namespace Limited
variable {req next : Request H}

theorem of_init (gen : args.IsGeneration cfg) (single : args.resumable = false)
    (fits : args.FitsMinTokens cfg) (h : init cfg.hasher args = .ok req) :
    Limited cfg req := by
  obtain ⟨noPooling, ⟨params, given, verified⟩, _⟩ := gen
  have given : args.samplingParams = some params := given
  obtain ⟨maxTokens, limit, h⟩ := bind_ok h
  obtain ⟨numPromptTokens, length, h⟩ := bind_ok h
  cases h
  have maximum : params.maxTokens = some maxTokens := by
    simp only [initMaxTokens, noPooling, given] at limit
    split at limit
    · cases limit
    · rename_i same
      cases limit
      exact same
  have lengths : 1 ≤ maxTokens ∧ params.minTokens ≤ maxTokens := by
    simp only [SamplingParams.verifyArgs, maximum] at verified
    split at verified
    · cases verified
    · split at verified
      · cases verified
      · omega
  have prompt : args.numPromptTokens = numPromptTokens := by
    simp [RequestArgs.numPromptTokens, length]
  have tokens : (args.promptTokenIds.getD (List.replicate numPromptTokens 0)).length =
      numPromptTokens := by
    unfold lengthFromPromptTokenIdsOrEmbeds at length
    split at length
    · cases length
    · rename_i absent _
      simp [absent]
    · rename_i present _
      cases length
      simp [present]
    · rename_i present _
      split at length
      · cases length
      · cases length
        simp [present]
  have least := fits params given
  rw [updateBlockHashes_eq]
  refine ⟨⟨params, given, lengths.2, ?_⟩, ⟨single, ?_⟩, fun _ => ⟨?_, lengths.1⟩⟩
  · simp only [numTokens]
    omega
  · simp only
    split <;> split <;> decide
  · simp only [numTokens]
    omega

variable (limited : Limited cfg req)
include limited

theorem moves (same : SameText req next)
    (status : next.status = req.status ∨ next.isFinished = true ∨
      req.isFinished = false ∧ next.status ≠ .waitingForStreamingReq) :
    Limited cfg next := by
  have text : next.samplingParams = req.samplingParams ∧ next.maxTokens = req.maxTokens ∧
      next.numTokens = req.numTokens ∧ next.numOutputTokens = req.numOutputTokens ∧
      next.resumable = req.resumable := by
    rw [same]
    exact ⟨rfl, rfl, rfl, rfl, rfl⟩
  obtain ⟨params, maxTokens, tokens, outputs, resumable⟩ := text
  constructor
  · rw [params, maxTokens, tokens, outputs]
    exact limited.params
  · refine ⟨resumable.trans limited.single.1, ?_⟩
    obtain kept | finished | ⟨-, other⟩ := status
    · rw [kept]
      exact limited.single.2
    · intro waits
      simp only [isFinished, waits] at finished
      cases finished
    · exact other
  · intro unfinished
    rw [maxTokens, tokens, outputs]
    apply limited.below
    obtain kept | finished | ⟨live, -⟩ := status
    · simpa only [isFinished, kept] using unfinished
    · rw [finished] at unfinished
      cases unfinished
    · exact live

/-- The stop test lets a request go on only below the limits. -/
theorem appends
    (h : checkStop (req.appendOutputTokenIds cfg.hasher [token]) cfg.maxModelLen
      = .ok stop) : Limited cfg { req.appendOutputTokenIds cfg.hasher [token] with
      status := stop.getD req.status } := by
  obtain ⟨params, given, maximum, _⟩ := limited.params
  have appended := appendOutputTokenIds_eq cfg.hasher req [token]
  have tokens : (req.appendOutputTokenIds cfg.hasher [token]).numTokens =
      req.numTokens + 1 := by
    rw [appended]
    simp [numTokens]
  have outputs : (req.appendOutputTokenIds cfg.hasher [token]).numOutputTokens =
      req.numOutputTokens + 1 := by
    rw [appended]
    simp [numOutputTokens]
  have same : (req.appendOutputTokenIds cfg.hasher [token]).samplingParams = some params ∧
      (req.appendOutputTokenIds cfg.hasher [token]).maxTokens = req.maxTokens ∧
      (req.appendOutputTokenIds cfg.hasher [token]).resumable = false := by
    rw [appended]
    exact ⟨given, rfl, limited.single.1⟩
  generalize req.appendOutputTokenIds cfg.hasher [token] = after at *
  refine ⟨⟨params, same.1, ?_, ?_⟩, ⟨same.2.2, ?_⟩, ?_⟩
  · rw [same.2.1]
    exact maximum
  · change after.numTokens + params.minTokens ≤ cfg.maxModelLen + after.numOutputTokens
    omega
  · cases stop with
    | none => exact limited.single.2
    | some status =>
      have finished := checkStop_finished h
      intro waits
      simp only [getD_some] at waits
      rw [waits] at finished
      cases finished
  · intro unfinished
    change after.numTokens < cfg.maxModelLen ∧ after.numOutputTokens < after.maxTokens
    cases stop with
    | some status =>
      have finished := checkStop_finished h
      simp only [isFinished, getD_some] at unfinished
      rw [finished] at unfinished
      cases unfinished
    | none =>
      obtain ⟨-, h⟩ := assert_bind_ok h
      simp only [same.1] at h
      split at h
      · -- Too few tokens to stop: their number bounds both lengths.
        omega
      · split at h
        · cases h
        · injection h with goesOn
          simp only [stopStatus] at goesOn
          repeat' split at goesOn
          all_goals
            cases goesOn
            try omega

theorem step (step : RequestStep cfg req next) : Limited cfg next := by
  cases step with
  | moves same status => exact limited.moves same status
  | appends checked => exact limited.appends checked
  | idles resumable =>
    rw [limited.single.1] at resumable
    cases resumable
  | continues session updated =>
    obtain resumable | waits := session
    · rw [limited.single.1] at resumable
      cases resumable
    · exact absurd waits limited.single.2

theorem evolves (evolves : Evolves cfg req next) : Limited cfg next := by
  induction evolves with
  | refl => exact limited
  | tail _ step ih => exact ih.step step

end Limited

namespace Engine
open Scheduler
variable [DecidableEq H] {engine next : Engine H K M} {op : EngineOp}

/-- Only generation requests come, none of them a session, with room for `min_tokens`; and
outputs stop requests only in the queue from which they are taken. -/
def KeepsLimits (cfg : SchedulerConfig H K M) (engine : Engine H K M) : EngineOp → Prop
  | .addRequest args => args.IsGeneration cfg ∧ args.resumable = false ∧ args.FitsMinTokens cfg
  | op => engine.StopsInPlace cfg op

instance (cfg : SchedulerConfig H K M) (engine : Engine H K M) (op : EngineOp) :
    Decidable (engine.KeepsLimits cfg op) := by
  induction op using EngineOp.casesOn <;> dsimp only [KeepsLimits] <;> infer_instance

omit [DecidableEq H] in
theorem KeepsLimits.inPlace (allowed : engine.KeepsLimits cfg op) :
    engine.StopsInPlace cfg op := by
  cases op with
  | addRequest => trivial
  | _ => exact allowed

structure Limits (cfg : SchedulerConfig H K M) (engine : Engine H K M) : Prop where
  partitioned : Partitioned engine.scheduler []
  limited : ∀ ref < engine.scheduler.numObjects, Limited cfg (engine.scheduler.objects ref)

theorem Limits.step (limits : Limits cfg engine) (allowed : engine.KeepsLimits cfg op)
    (stepped : engine.exec cfg op = .ok next) : Limits cfg next := by
  refine ⟨exec_partitioned limits.partitioned allowed.inPlace stepped, ?_⟩
  obtain evolve | ⟨_, _, rfl, created, registers⟩ := exec_evolve limits.partitioned stepped
  · intro ref bound
    rw [evolve.numObjects] at bound
    exact (limits.limited ref bound).evolves (evolve.requests ref)
  · intro ref bound
    obtain ⟨gen, single, fits⟩ := allowed
    have limited := Limited.of_init gen single fits created
    rw [registers.rest] at bound
    obtain older | newest := Nat.lt_succ_iff_lt_or_eq.mp bound
    · rw [registers.others ref (ne_of_lt older)]
      exact limits.limited ref older
    · rw [newest, registers.stored, if_neg (by simp [limited.single.1])]
      exact limited

theorem unfinished_below_limits (cfg : SchedulerConfig H K M) (mgr : KVCacheManager H)
    (encoderCacheSize : Nat) (connectorState : K) (ecConnector : Option (List String))
    (absent : Request H) (ops : List EngineOp) (reached : Engine H K M)
    (allowed : Run.AllSteps (exec cfg) (KeepsLimits cfg)
      (init cfg mgr encoderCacheSize connectorState ecConnector absent) ops)
    (ran : Run.run (exec cfg)
      (init cfg mgr encoderCacheSize connectorState ecConnector absent) ops = .ok reached)
    (id : String) (ref : Ref) (found : reached.scheduler.requests.get? id = some ref)
    (unfinished : (reached.scheduler.objects ref).isFinished = false) :
    BelowLimits cfg (reached.scheduler.objects ref) := by
  have start : Limits cfg
      (init cfg mgr encoderCacheSize connectorState ecConnector absent) :=
    ⟨init_partitioned .., fun ref bound => absurd bound (Nat.not_lt_zero ref)⟩
  have limits := Run.run_invariant (Limits cfg) (fun kept => kept.step) start allowed ran
  have bound := (limits.partitioned.named id ref found).2
  have below := (limits.limited ref bound).below unfinished
  exact .of_lengths below.1 below.2

def shortConfig : SchedulerConfig Nat Unit Unit where
  policy := .fcfs
  maxNumRunningReqs := 4
  maxNumScheduledTokens := 100
  maxModelLen := 6
  blockSize := 4
  cacheBlockSize := 4

def insistentArgs (minTokens : Nat) : RequestArgs :=
  { promptArgs "a" 4 5 with
    samplingParams := some { maxTokens := some 5, minTokens := minTokens, eosTokenId := some 2 } }

def insistentRun (minTokens : Nat) : List EngineOp :=
  [.addRequest (insistentArgs minTokens), .schedule,
    .updateFromOutput 0 (sampledOutput [("a", [9])]), .schedule]

theorem unfinished_below_limits_insistent : ∃ start reached, small shortConfig 0 = .ok start ∧
    Run.run (exec shortConfig) start (insistentRun 2) = .ok reached ∧
    BelowLimits shortConfig (reached.scheduler.objects 0) := by
  have state : (do
      let start ← small shortConfig 0
      Py.assert (decide (Run.AllSteps (exec shortConfig) (KeepsLimits shortConfig) start
        (insistentRun 2))) "AllSteps"
      let reached ← Run.run (exec shortConfig) start (insistentRun 2)
      return (reached.scheduler.requests.get? "a", (reached.scheduler.objects 0).isFinished)) =
      (.ok (some 0, false) : Py (Option Ref × Bool)) := by
    decide +kernel
  obtain ⟨start, made, state⟩ := bind_ok state
  obtain ⟨allowed, state⟩ := assert_bind_ok state
  obtain ⟨reached, ran, state⟩ := bind_ok state
  obtain ⟨found, unfinished⟩ : reached.scheduler.requests.get? "a" = some 0 ∧
      (reached.scheduler.objects 0).isFinished = false := by
    simpa only [pure, Except.pure, Except.ok.injEq, Prod.mk.injEq] using state
  refine ⟨start, reached, made, ran, ?_⟩
  obtain ⟨mgr, -, made⟩ := bind_ok made
  cases made
  exact unfinished_below_limits shortConfig mgr 0 () none _ (insistentRun 2) reached
    (of_decide_eq_true allowed) ran "a" 0 found unfinished

/-- The parameters pass their check, but the output has to be longer than the model: when all
six positions are taken the request goes on, and the next step grants it no token. -/
theorem insistent_request_stuck : ∃ start reached, small shortConfig 0 = .ok start ∧
    (insistentArgs 5).IsGeneration shortConfig ∧ Run.run (exec shortConfig) start
      (insistentRun 5 ++ [.updateFromOutput 0 (sampledOutput [("a", [9])])]) = .ok reached ∧
    reached.scheduler.requests.get? "a" = some 0 ∧
    (reached.scheduler.objects 0).isFinished = false ∧
    ¬ BelowLimits shortConfig (reached.scheduler.objects 0) ∧
    ∃ output next, reached.scheduler.schedule shortConfig = .ok (output, next) ∧
      output.totalNumScheduledTokens = 0 := by
  have state : (do
      let start ← small shortConfig 0
      let reached ← Run.run (exec shortConfig) start
        (insistentRun 5 ++ [.updateFromOutput 0 (sampledOutput [("a", [9])])])
      let (output, _) ← reached.scheduler.schedule shortConfig
      return (reached.scheduler.requests.get? "a", (reached.scheduler.objects 0).isFinished,
        (reached.scheduler.objects 0).numTokens, output.totalNumScheduledTokens)) =
      (.ok (some 0, false, 6, 0) : Py (Option Ref × Bool × Nat × Int)) := by
    decide +kernel
  obtain ⟨start, made, state⟩ := bind_ok state
  obtain ⟨reached, ran, state⟩ := bind_ok state
  obtain ⟨⟨output, next⟩, scheduled, state⟩ := bind_ok state
  simp only [pure, Except.pure, Except.ok.injEq, Prod.mk.injEq] at state
  obtain ⟨found, unfinished, length, none⟩ := state
  refine ⟨start, reached, made, by decide, ran, found, unfinished, ?_, output, next, scheduled, none⟩
  intro below
  have tokens := below.tokens
  rw [length] at tokens
  exact absurd tokens (by decide)

end Engine
end Vllm
