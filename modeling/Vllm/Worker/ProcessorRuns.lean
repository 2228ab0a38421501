import Vllm.Lib.Run
import Vllm.Worker.ProcessorTables

/-! The persistent batch together with the built-in logits processors, over any steps. -/
namespace Vllm.Worker
open List hiding next
open Dict Option

/-- The runner as the processors see it. The output lists have the contents of the last refresh. -/
structure SamplingBatch where
  batch : InputBatch
  requests : Dict String CachedRequestState
  outputs : Nat → List TokenId
  minP : MinPLogitsProcessor
  logitBias : LogitBiasLogitsProcessor
  minTokens : MinTokensLogitsProcessor

structure SamplingStep where
  change : BatchStep
  /-- The output lists when the metadata is refreshed. -/
  outputs : Nat → List TokenId := fun _ => []

namespace SamplingBatch
variable {reqId : String} {batch : InputBatch}

def init (maxNumReqs vocabSize : Nat) (blocksPerKvBlock : List Nat) (useDoubleTensor : Bool) :
    SamplingBatch where
  batch := .init maxNumReqs vocabSize false blocksPerKvBlock
  requests := .empty
  outputs _ := []
  minP := { useDoubleTensor }
  logitBias := {}
  minTokens := {}

section
variable (state : SamplingBatch) (requests : Dict String CachedRequestState)

/-- The runner knows a request before it is added to the batch. -/
def record (additions : List (CachedRequestState × List TokenId))
    : Dict String CachedRequestState :=
  additions.foldl (fun requests add => requests.set add.1.reqId add.1) requests

def exec (step : SamplingStep) : Py SamplingBatch := do
  let stepped ← state.batch.step step.change
  .ok {
    batch := stepped.2
    requests := record state.requests step.change.additions
    outputs := step.outputs
    minP := state.minP.updateState stepped.1
    logitBias := state.logitBias.updateState stepped.1
    minTokens := state.minTokens.updateState step.outputs stepped.1 }

/-- A request as the processors know it: its parameters and its list of outputs. -/
abbrev Resident := SamplingParams × Nat

def residentOf (reqId : String) : Option Resident :=
  (requests.get? reqId).bind (fun req =>
    req.samplingParams.map (fun params => (params, req.outputRef)))

def residentAt (i : Nat) : Option Resident :=
  (state.batch.occupant i).bind (residentOf state.requests)

end

/-- The state of each processor at an index, from the request there alone. -/
def minPOf : Option Resident → Rat
  | none => 0
  | some resident => float32 resident.1.minP

def logitBiasOf (resident : Option Resident) : Option (List (TokenId × Rat)) :=
  resident.bind (fun resident => LogitBiasLogitsProcessor.newState ⟨0, resident.1, resident.2⟩)

def minTokensOf (outputs : Nat → List TokenId) (resident : Option Resident) :
    Option MinTokensEntry :=
  resident.bind (fun resident =>
    MinTokensLogitsProcessor.addRequest outputs ⟨0, resident.1, resident.2⟩)

/-- The processors hold what the requests of the batch call for, and nothing else. -/
structure Tracked (state : SamplingBatch) : Prop where
  present : ∀ i, state.residentAt i = none ↔ state.batch.numReqs ≤ i
  minP : ∀ i, state.minP.minPCpu i = minPOf (state.residentAt i)
  count : state.minP.minPCount = Set.ncard {i | state.minP.minPCpu i ≠ 0}
  slice : state.minP.minPCount ≠ 0 →
    state.minP.minP = (range state.batch.numReqs).map (fun i => minPOf (state.residentAt i))
  logitBias : ∀ i, state.logitBias.biases.get? i = logitBiasOf (state.residentAt i)
  logitBiasSlice :
    state.logitBias.logitsSlice = LogitBiasLogitsProcessor.sliceOf state.logitBias.biases
  minTokens : ∀ i, state.minTokens.minToks.get? i = minTokensOf state.outputs (state.residentAt i)
  minTokensSlice :
    state.minTokens.logitsSlice = MinTokensLogitsProcessor.sliceOf state.minTokens.minToks
  beyond : ∀ i ≥ state.batch.numReqs, state.minP.minPCpu i = 0 ∧
    state.logitBias.biases.get? i = none ∧ state.minTokens.minToks.get? i = none

/-- The output list of a request does not fall back below its required length. -/
def staysReached (state : SamplingBatch) (outputs : Nat → List TokenId) (reqId : String) : Bool :=
  (residentOf state.requests reqId).all (fun resident =>
    decide (resident.1.minTokens ≤ (state.outputs resident.2).length →
      resident.1.minTokens ≤ (outputs resident.2).length))

/-- Steps with usable additions, in which no `min_p` is rounded to zero and no request that stays
loses outputs that it needs. -/
structure Allowed (state : SamplingBatch) (step : SamplingStep) : Prop where
  admissible : state.batch.Admissible step.change
  minP : ∀ add ∈ step.change.additions, ∀ params ∈ add.1.samplingParams,
    float32 params.minP = 0 → params.minP = 0
  outputs : ∀ entry ∈ state.batch.reqIds, ∀ reqId ∈ entry, reqId ∉ step.change.removals →
    state.staysReached step.outputs reqId = true

section Known
variable {requests : Dict String CachedRequestState}
  {additions : List (CachedRequestState × List TokenId)}

theorem get?_record_other (other : ∀ add ∈ additions, add.1.reqId ≠ reqId) :
    (record requests additions).get? reqId = requests.get? reqId := by
  induction additions generalizing requests with
  | nil => rfl
  | cons add additions ih =>
    refine (ih (fun later mem => other later (mem_cons_of_mem _ mem))).trans ?_
    rw [get?_set, if_neg (other add (mem_cons_self ..)).symm]

section
variable (distinct : (additions.map (fun add => add.1.reqId)).Nodup)
  (mem : add ∈ additions)
include distinct mem

theorem get?_record : (record requests additions).get? add.1.reqId = some add.1 := by
  induction additions generalizing requests with
  | nil => cases mem
  | cons first additions ih =>
    rw [map_cons, nodup_cons] at distinct
    rcases mem_cons.mp mem with rfl | later
    · rw [record, foldl_cons]
      refine (get?_record_other ?_).trans (by rw [get?_set, if_pos rfl])
      intro _ listed same
      exact distinct.1 (same ▸ mem_map_of_mem listed)
    · exact ih distinct.2 later

theorem residentOf_added (sampled : add.1.samplingParams = some params) :
    residentOf (record requests additions) add.1.reqId =
      some (params, add.1.outputRef) := by
  rw [residentOf, get?_record distinct mem, bind_some, sampled]
  rfl

end

theorem residentOf_kept (closed : batch.Closed) (admissible : batch.Admissible change)
    (here : batch.occupant i = some reqId) (stays : reqId ∉ change.removals) :
    residentOf (record requests change.additions) reqId = residentOf requests reqId := by
  rw [residentOf, get?_record_other, residentOf]
  intro add mem same
  rcases admissible.fresh add mem with unknown | removed
  · rw [same, (closed.inverse reqId i).mpr here] at unknown
    cases unknown
  · exact stays (same ▸ removed)

end Known

structure Sound (state : SamplingBatch) : Prop where
  closed : state.batch.Closed
  generation : state.batch.isPoolingModel = false
  known : ∀ i reqId, state.batch.occupant i = some reqId → (residentOf state.requests reqId).isSome
  minP : ∀ i, state.minP.minPCpu i = minPOf (state.residentAt i)
  counts : Counts state.minP.minPCpu state.minP.minPCount
  sliced : state.minP.Sliced state.batch.numReqs
  logitBias : ∀ i, state.logitBias.biases.get? i = logitBiasOf (state.residentAt i)
  logitBiasSlice :
    state.logitBias.logitsSlice = LogitBiasLogitsProcessor.sliceOf state.logitBias.biases
  minTokens : ∀ i, state.minTokens.minToks.get? i = minTokensOf state.outputs (state.residentAt i)
  minTokensSlice :
    state.minTokens.logitsSlice = MinTokensLogitsProcessor.sliceOf state.minTokens.minToks

theorem Sound.occupant_none {state : SamplingBatch} (sound : state.Sound) (i : Nat) :
    state.batch.occupant i = none ↔ state.batch.numReqs ≤ i :=
  (sound.closed.toOpen.packed_of_nothing_removed
    (by rw [InputBatch.removed, sound.closed.settled])).full i

theorem Sound.tracked {state : SamplingBatch} (sound : state.Sound) : state.Tracked := by
  have present : ∀ i, state.residentAt i = none ↔ state.batch.numReqs ≤ i := by
    intro i
    rw [← sound.occupant_none, residentAt]
    cases here : state.batch.occupant i with
    | none => simp
    | some reqId =>
      have known := sound.known i reqId here
      rw [isSome_iff_ne_none] at known
      simpa using known
  refine { sound with present := present, count := sound.counts.ncard, slice := ?_, beyond := ?_ }
  · intro busy
    obtain ⟨shape, device⟩ := sound.sliced busy
    rw [MinPLogitsProcessor.minP, shape]
    apply map_congr_left
    intro i mem
    rw [← sound.minP i]
    split
    · rename_i double
      exact device double i (mem_range.mp mem)
    · rfl
  · intro i outside
    have nobody := (present i).mpr outside
    rw [sound.minP, sound.logitBias, sound.minTokens, nobody]
    exact ⟨rfl, rfl, rfl⟩

theorem init_sound (maxNumReqs vocabSize : Nat) (blocksPerKvBlock : List Nat)
    (useDoubleTensor : Bool) : (init maxNumReqs vocabSize blocksPerKvBlock useDoubleTensor).Sound where
  closed := InputBatch.init_closed
  generation := rfl
  known i reqId here := by simp [init, InputBatch.init, InputBatch.occupant] at here
  minP _ := rfl
  counts := ⟨∅, by simp [init], rfl⟩
  sliced busy := absurd rfl busy
  logitBias _ := rfl
  logitBiasSlice := rfl
  minTokens _ := rfl
  minTokensSlice := rfl

section Steps
variable {state : SamplingBatch} {change : SamplingStep}

/-- What a step does to a table that is determined by the request at each index. -/
theorem Sound.table {table : Nat → β} (sound : state.Sound)
    (allowed : state.Allowed change) (put : AddedRequest → β) (empty : β)
    (Good Good' : Option Resident → β → Prop)
    (ran : state.batch.step change.change = .ok (update, batch))
    (agree : ∀ i, Good (state.residentAt i) (table i)) (empties : Good' none empty)
    (written : ∀ added : AddedRequest, Good' (some (added.params, added.outputRef)) (put added))
    (vacant : ∀ {value}, Good none value → Good' none value)
    (kept : ∀ {reqId i value}, state.batch.occupant i = some reqId → reqId ∉
      change.change.removals → Good (residentOf state.requests reqId) value → Good' (residentOf
      state.requests reqId) value) (i : Nat) :
    Good' ((batch.occupant i).bind (residentOf (record state.requests change.change.additions)))
      (InputBatch.replayUpdate put empty table update i) := by
  refine (InputBatch.step_tracks put empty (fun _ => True)
    (fun reqId value => Good (reqId.bind (residentOf state.requests)) value)
    (fun reqId value => Good' (reqId.bind (residentOf (record state.requests
      change.change.additions))) value) table ran
    sound.closed sound.generation allowed.admissible agree empties ?_ vacant ?_).2.2.2 i
  · intro add params mem sampled index
    refine ⟨trivial, ?_⟩
    rw [bind_some, residentOf_added allowed.admissible.distinct mem sampled]
    exact written ⟨index, params, add.1.outputRef⟩
  · intro reqId j value here stays fits
    rw [bind_some, residentOf_kept sound.closed allowed.admissible here stays]
    exact kept here stays fits

/-- The layout after a step, and the shape of the update. -/
theorem Sound.layout (sound : state.Sound) (allowed : state.Allowed change)
    (ran : state.batch.step change.change = .ok (update, batch)) :
    batch.Closed ∧ batch.isPoolingModel = false ∧ (∀ i reqId, batch.occupant i = some reqId →
        (residentOf (record state.requests change.change.additions) reqId).isSome) ∧
      ∀ pending, update = some pending → pending.batchSize = batch.numReqs ∧
        (∀ added ∈ pending.added, float32 added.params.minP = 0 → added.params.minP = 0) ∧
        ∀ moved ∈ pending.moved, moved.direction = .unidirectional →
          batch.numReqs ≤ moved.src ∧ moved.dst < moved.src := by
  have tracked := InputBatch.step_tracks (fun _ => ()) ()
    (fun added => float32 added.params.minP = 0 → added.params.minP = 0)
    (fun entry _ => ∀ reqId ∈ entry, (residentOf state.requests reqId).isSome)
    (fun entry _ => ∀ reqId ∈ entry,
      (residentOf (record state.requests change.change.additions) reqId).isSome)
    (fun _ => ()) ran sound.closed sound.generation allowed.admissible sound.known (by simp)
  obtain ⟨closed, gen, shape, known⟩ := tracked
    (by
      intro add params mem sampled _
      refine ⟨allowed.minP add mem params sampled, ?_⟩
      intro reqId same
      cases same
      rw [residentOf_added allowed.admissible.distinct mem sampled]
      rfl)
    (by simp)
    (by
      intro reqId i _ here stays known _ same
      cases same
      rw [residentOf_kept sound.closed allowed.admissible here stays]
      exact known reqId rfl)
  exact ⟨closed, gen, known, shape⟩

/-- Without a pending update the batch is as long as before. -/
theorem Sound.same_size (sound : state.Sound) (allowed : state.Allowed change)
    (closed : batch.Closed) (ran : state.batch.step change.change = .ok (none, batch)) :
    batch.numReqs = state.batch.numReqs := by
  have same := (InputBatch.step_tracks (fun _ => true) false (fun _ => True)
    (fun reqId value => value = reqId.isSome) (fun reqId value => value = reqId.isSome)
    (fun i => (state.batch.occupant i).isSome) ran sound.closed sound.generation allowed.admissible (fun _ => rfl) rfl
    (fun _ _ _ => ⟨trivial, rfl⟩) id (fun _ _ => id)).2.2.2
  have before := sound.occupant_none
  have after := (closed.toOpen.packed_of_nothing_removed
    (by rw [InputBatch.removed, closed.settled])).full
  have sizes : ∀ i, batch.numReqs ≤ i ↔ state.batch.numReqs ≤ i := by
    intro i
    rw [← before, ← after, ← not_isSome_iff_eq_none, ← not_isSome_iff_eq_none, ← same i]
    rfl
  exact le_antisymm ((sizes _).mpr le_rfl) ((sizes _).mp le_rfl)

/-- An entry that is made has not been reached. -/
theorem filter_addRequest (outputs : Nat → List TokenId) (added : AddedRequest) :
    (MinTokensLogitsProcessor.addRequest outputs added).filter
        (fun entry => !MinTokensLogitsProcessor.reached outputs entry) =
      minTokensOf outputs (some (added.params, added.outputRef)) := by
  rw [minTokensOf, bind_some]
  simp only [MinTokensLogitsProcessor.addRequest]
  split
  · rfl
  · rename_i open'
    rw [not_or] at open'
    simp [MinTokensLogitsProcessor.reached, not_le.mp open'.2]

/-- Dropping the entries that have been reached since makes an older entry current. -/
theorem filter_minTokensOf {outputs : Nat → List TokenId}
    (reached : state.staysReached outputs reqId = true) :
    (minTokensOf state.outputs (residentOf state.requests reqId)).filter
        (fun entry => !MinTokensLogitsProcessor.reached outputs entry) =
      minTokensOf outputs (residentOf state.requests reqId) := by
  rw [staysReached] at reached
  cases found : residentOf state.requests reqId with
  | none => rfl
  | some resident =>
    rw [found, all_some, decide_eq_true_eq] at reached
    simp only [minTokensOf, MinTokensLogitsProcessor.addRequest]
    by_cases unused : resident.1.minTokens = 0
    · simp [unused]
    · by_cases now : resident.1.minTokens ≤ (outputs resident.2).length
      · by_cases before : resident.1.minTokens ≤ (state.outputs resident.2).length
        · simp [unused, now, before]
        · simp [unused, now, before, MinTokensLogitsProcessor.reached]
      · have before := mt reached now
        simp [unused, now, before, MinTokensLogitsProcessor.reached]

theorem Sound.step (sound : state.Sound) (allowed : state.Allowed change)
    (ran : state.exec change = .ok next) : next.Sound := by
  rw [exec] at ran
  obtain ⟨⟨update, _⟩, stepped, ran⟩ := Py.bind_ok ran
  cases ran
  obtain ⟨closed, gen, known, shape⟩ := sound.layout allowed stepped
  have apart : ∀ pending, update = some pending → ∀ moved ∈ pending.moved,
      moved.direction = .unidirectional → moved.dst < moved.src :=
    fun pending given moved mem direction => ((shape pending given).2.2 moved mem direction).2
  obtain ⟨cpu, counts, sliced⟩ := MinPLogitsProcessor.updateState_spec sound.counts sound.sliced
    (by rintro rfl; exact sound.same_size allowed closed stepped) shape
  refine ⟨closed, gen, known, ?_, counts, sliced, ?_,
    LogitBiasLogitsProcessor.updateState_slice update sound.logitBiasSlice, ?_,
    MinTokensLogitsProcessor.updateState_slice change.outputs update sound.minTokensSlice⟩
  · intro i
    simp only [cpu]
    exact sound.table allowed _ 0 (fun resident value => value = minPOf resident)
      (fun resident value => value = minPOf resident) stepped sound.minP rfl (fun _ => rfl) id
      (fun _ _ => id) i
  · intro i
    simp only [LogitBiasLogitsProcessor.updateState, get?_processDictUpdates _ _ apart]
    exact sound.table allowed _ none (fun resident entry => entry = logitBiasOf resident)
      (fun resident entry => entry = logitBiasOf resident) stepped sound.logitBias rfl
      (fun _ => rfl) id (fun _ _ => id) i
  · intro i
    simp only [MinTokensLogitsProcessor.updateState_get?, get?_processDictUpdates _ _ apart]
    refine sound.table allowed _ none
      (fun resident entry => entry = minTokensOf state.outputs resident)
      (fun resident entry => entry.filter
        (fun entry => !MinTokensLogitsProcessor.reached change.outputs entry) =
          minTokensOf change.outputs resident) stepped sound.minTokens rfl ?_ ?_ ?_ i
    · intro added
      exact filter_addRequest change.outputs added
    · rintro entry rfl
      rfl
    · rintro reqId j entry here stays rfl
      have listed := mem_of_getElem? (InputBatch.occupant_eq_some.mp here)
      exact filter_minTokensOf (allowed.outputs _ listed reqId rfl stays)

theorem exec_avoids (sound : state.Sound) (allowed : state.Allowed change) :
    Py.Avoids InputBatch.LateRemoval (state.exec change) :=
  Py.Avoids.bind (InputBatch.step_avoids sound.closed allowed.admissible.toUnused)
    (fun _ _ => Py.Avoids.ok _)

end Steps

/-- In every run of allowed steps the processors track the batch, and no removal is registered too
late. -/
theorem processors_track_batch (maxNumReqs vocabSize : Nat) (blocksPerKvBlock : List Nat)
    (useDoubleTensor : Bool) (steps : List SamplingStep) (allowed : Run.AllSteps exec Allowed
      (init maxNumReqs vocabSize blocksPerKvBlock useDoubleTensor) steps) :
    (∀ reached, Run.run exec (init maxNumReqs vocabSize blocksPerKvBlock useDoubleTensor) steps =
        .ok reached → reached.Tracked) ∧
      ∀ message, Run.run exec (init maxNumReqs vocabSize blocksPerKvBlock useDoubleTensor) steps ≠
        .error (.runtimeError message) := by
  have start := init_sound maxNumReqs vocabSize blocksPerKvBlock useDoubleTensor
  constructor
  · intro reached ran
    exact (Run.run_invariant Sound Sound.step start allowed ran).tracked
  · intro message failed
    obtain ⟨now, step, sound, permitted, raised⟩ :=
      Run.run_error Sound Sound.step start allowed failed
    exact exec_avoids sound permitted _ raised ⟨message, rfl⟩

attribute [mk_iff] InputBatch.Admissible Allowed

instance (batch : InputBatch) (change : BatchStep) : Decidable (batch.Admissible change) :=
  have : Decidable (batch.Unused change) := decidable_of_iff (_ ∧ _)
    ⟨fun all => ⟨all.1, all.2⟩, fun all => ⟨all.distinct, all.fresh⟩⟩
  decidable_of_iff' _ (InputBatch.admissible_iff ..)

instance (state : SamplingBatch) (step : SamplingStep) : Decidable (state.Allowed step) :=
  decidable_of_iff' _ (allowed_iff ..)

def sampleRequest (reqId : String) (outputRef : Nat) (params : SamplingParams) :
    CachedRequestState × List TokenId :=
  ({ reqId, promptTokenIds := some [1, 2], samplingParams := some params, outputRef }, [])

/-- Three requests come; the first leaves, its index is reused, one more leaves so that the last
one moves down, and the two that remain are swapped. -/
def reuseRun : List SamplingStep :=
  [{ change := { additions := [sampleRequest "a" 0 { minP := 1 / 2 },
      sampleRequest "b" 1 { minTokens := 2, allStopTokenIds := [7] },
      sampleRequest "c" 2 { logitBias := [(3, 1)] }] } },
   { change := {
      removals := ["a", "b"]
      additions := [sampleRequest "d" 3 { minP := 1 / 4 }]
      swaps := [(0, 1)] } }]

/-- The conditions hold in that run, and it ends with two requests. -/
theorem processors_track_batch_reuse : Run.AllSteps exec Allowed (init 4 10 [1] true) reuseRun ∧
      ((Run.run exec (init 4 10 [1] true) reuseRun).toOption.map (fun state =>
        (state.batch.reqIds, state.minP.minPCount, state.minP.minP))) =
          some ([some "c", some "d"], 1, [0, 1 / 4]) ∧
      ∀ reached, Run.run exec (init 4 10 [1] true) reuseRun = .ok reached → reached.Tracked :=
  have allowed : Run.AllSteps exec Allowed (init 4 10 [1] true) reuseRun := by decide +kernel
  ⟨allowed, by decide +kernel, (processors_track_batch 4 10 [1] true reuseRun allowed).1⟩

/-- A request with a `min_p` that is not zero but too small for a float32 takes the index of one
with a usual `min_p`. -/
def tinyRun : List SamplingStep :=
  [{ change := { additions := [sampleRequest "a" 0 { minP := 1 / 2 }] } },
   { change := {
      removals := ["a"]
      additions := [sampleRequest "b" 1 { minP := mkRat 1 (2 ^ 151) }] } }]

/-- The processor then counts an entry, and has none that is not zero. -/
theorem tiny_min_p_miscounted :
    ((Run.run exec (init 2 10 [1] true) tinyRun).toOption.map (fun state =>
      (state.batch.reqIds, state.minP.minPCount, (range 2).map state.minP.minPCpu))) =
        some ([some "b"], 1, [0, 0]) := by
  decide +kernel

end SamplingBatch
end Vllm.Worker
