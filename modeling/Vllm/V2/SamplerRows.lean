import Vllm.V2.Sampler
import Vllm.V2.TrueTokens

/-! The rows of the logits that the sampler writes to, as the requests see them. -/
namespace Vllm.V2
open List hiding next
open Launch Function Py LogitBiasSlot

variable {cfg : Config} {runner prepared : Runner} {states : RequestState} {truth : Truth}
  {output : SchedulerOutput} {layout : Layout} {batch : InputBatch} {b n i : Nat} {reqId : String}
  {seq : Sequence} {sampled : String → List TokenId}

/-- A row of the logits finds the slot of its request, and its place among its rows. -/
theorem LaidOut.expanded (laid : LaidOut states output layout)
    (row : Row states output layout b reqId n)
    (allows : seq.Allows cfg n (output.numDraftTokens reqId) accepted)
    (le : i ≤ output.numDraftTokens reqId) :
    (expandIdxMapping cfg layout).1 (layout.logitsStart b + i) = layout.idx b ∧
      (expandIdxMapping cfg layout).2 (layout.logitsStart b + i) = i := by
  have block := block_wide allows
  have inside : i < min (2 ^ Nat.clog 2 (cfg.numSpeculativeSteps + 1)) (layout.numLogits b) := by
    rw [row.numLogits]
    omega
  have apart : ∀ other < layout.numReqs, other ≠ b →
      layout.logitsStart b + i < layout.logitsStart other ∨ layout.logitsStart other +
        min (2 ^ Nat.clog 2 (cfg.numSpeculativeSteps + 1)) (layout.numLogits other) ≤
          layout.logitsStart b + i := by
    intro other below differ
    have apart := laid.logitsStart_apart row below differ le
    omega
  exact ⟨launch_store Prod.fst (fun b _ => layout.idx b) _ (fun _ _ => rfl) row.inside inside apart,
    launch_store Prod.snd (fun _ => id) _ (fun _ _ => rfl) row.inside inside apart⟩

/-- The token that a row of the logits follows, and its position. -/
theorem TrueInputs.row (inputs : TrueInputs truth output batch)
    (found : batch.requests[b]? = some (reqId, n)) (present : truth reqId = some seq)
    (allows : seq.Allows cfg n (output.numDraftTokens reqId) accepted)
    (le : i ≤ output.numDraftTokens reqId) :
    batch.inputIds (batch.logitsIndices (batch.logitsStart b + i)) = seq.tokenAt
        (seq.numComputed + (n - (output.numDraftTokens reqId + 1) + i)) ∧
      batch.positions (batch.logitsIndices (batch.logitsStart b + i)) =
        seq.numComputed + (n - (output.numDraftTokens reqId + 1) + i) := by
  obtain ⟨next, tokens, -, logits⟩ := inputs.rows b reqId n seq found present
  have positive := allows.positive
  have wide : output.numDraftTokens reqId + 1 ≤ n := by
    rcases allows.shape with ⟨-, none, -⟩ | ⟨-, all⟩ <;> omega
  rw [logits i le, next, show batch.queryStartLoc b + n - (output.numDraftTokens reqId + 1) + i =
    batch.queryStartLoc b + (n - (output.numDraftTokens reqId + 1) + i) by omega]
  exact tokens _ (by omega)

theorem stageWrite_eq [Inhabited α] {values : List α} (found : values[i]? = some value) :
    stageWrite cells values i = value := by
  obtain ⟨inside, rfl⟩ := List.getElem?_eq_some_iff.mp found
  simp [stageWrite, store, inside]

theorem map_stageWrite [Inhabited α] (cells : Nat → α) (values : List α) :
    (range values.length).map (stageWrite cells values) = values := by
  apply ext_getElem
  · simp
  · intro i _ inside
    simp [stageWrite_eq (getElem?_eq_getElem inside)]

/-- The place among the outputs of a request of the token that is sampled from its row `i`. -/
def outputIndex (promptLen : Nat) (seq : Sequence) (n numDrafts i : Nat) : Int :=
  (seq.numComputed + (n - (numDrafts + 1) + i) : Nat) + 1 - promptLen

namespace LogitBiasSlot
variable {before slot : LogitBiasSlot} {params : Worker.SamplingParams} {promptLen : Nat}

theorem addRequest_ok (positive : 0 < params.minTokens)
    (added : before.addRequest promptLen params = .ok slot) :
    (range slot.numStopTokenIds).map slot.stopTokenIds = params.allStopTokenIds ∧
      slot.minLen = promptLen + params.minTokens ∧
      (range slot.numAllowedTokenIds).map slot.allowedTokenIds =
        params.allowedTokenIds.map Int.ofNat ∧
      (slot.useLogitBias = false → slot.numAllowedTokenIds = 0 ∧ slot.numLogitBias = 0 ∧
        slot.numStopTokenIds = 0) := by
  rw [addRequest] at added
  obtain ⟨-, -, added⟩ := bind_ok added
  obtain ⟨-, -, added⟩ := bind_ok added
  obtain ⟨-, -, added⟩ := bind_ok added
  cases added
  simp only [if_pos positive, map_stageWrite, true_and]
  simp

theorem biased_eq_bot : slot.biased logits token = ⊥ ↔ slot.numAllowedTokenIds > 0 ∧
    token ∉ (range slot.numAllowedTokenIds).map slot.allowedTokenIds ∨ logits token = ⊥ := by
  simp only [biased]
  by_cases restricted : slot.numAllowedTokenIds > 0 ∧
      token ∉ (range slot.numAllowedTokenIds).map slot.allowedTokenIds
  · split <;> simp [restricted]
  · rw [or_iff_right restricted, if_neg restricted]
    split <;> simp

theorem biasKernel_eq (pos : Nat) (logits : LogitsRow) : slot.biasKernel pos logits token =
    if token ∈ (range slot.numStopTokenIds).map slot.stopTokenIds ∧ pos < slot.minLen then ⊥
    else slot.biased logits token := by
  simp only [biasKernel]
  by_cases early : pos < slot.minLen
  · cases count : slot.numStopTokenIds with
    | zero => simp
    | succ count => simp [early]
  · simp [early]

end LogitBiasSlot

variable {before : LogitBiasSlot} {slots : Nat → LogitBiasSlot} {params : Worker.SamplingParams}
  {promptLen : Nat}

theorem applyLogitBias_eq (laid : LaidOut states output batch.toLayout)
    (row : Row states output batch.toLayout b reqId n)
    (allows : seq.Allows cfg n (output.numDraftTokens reqId) accepted)
    (unused : (slots (batch.idx b)).useLogitBias = false → (slots (batch.idx b)).numAllowedTokenIds = 0 ∧
      (slots (batch.idx b)).numLogitBias = 0 ∧ (slots (batch.idx b)).numStopTokenIds = 0)
    (le : i ≤ output.numDraftTokens reqId) (logits : Nat → LogitsRow) :
    applyLogitBias cfg batch slots logits (batch.logitsStart b + i) =
      (slots (batch.idx b)).biasKernel (batch.positions (batch.logitsIndices (batch.logitsStart b + i)))
        (logits (batch.logitsStart b + i)) := by
  rw [applyLogitBias]
  split
  · simp [(laid.expanded row allows le).1]
  · rename_i idle
    rw [any_eq_true, not_exists] at idle
    have own : (slots (batch.idx b)).useLogitBias = false := by
      simpa [laid.idx_mem row.inside] using idle (batch.idx b)
    obtain ⟨allowed, bias, stops⟩ := unused own
    funext token
    simp [biasKernel_eq, biased, allowed, bias, stops]

/-- The stop tokens are masked at the rows of the first `min_tokens` outputs and at no others iff no
row is that of the next output, or the stop tokens are not allowed anyway. -/
theorem stop_tokens_masked_iff (faithful : Faithful cfg runner.states truth)
    (valid : Valid cfg truth output sampled)
    (made : prepareInputs cfg runner output = .ok (batch, prepared))
    (found : batch.requests[b]? = some (reqId, n)) (present : truth reqId = some seq)
    (added : before.addRequest promptLen params = .ok (slots (batch.idx b)))
    (positive : 0 < params.minTokens) : (∀ logits, ∀ i ≤ output.numDraftTokens reqId, ∀ token,
      applyLogitBias cfg batch slots logits (batch.logitsStart b + i) token =
        if token ∈ params.allStopTokenIds ∧
          outputIndex promptLen seq n (output.numDraftTokens reqId) i < params.minTokens then ⊥
        else (slots (batch.idx b)).biased (logits (batch.logitsStart b + i)) token) ↔
      ∀ i ≤ output.numDraftTokens reqId,
        outputIndex promptLen seq n (output.numDraftTokens reqId) i = params.minTokens →
        ∀ token ∈ params.allStopTokenIds,
          params.allowedTokenIds ≠ [] ∧ token ∉ params.allowedTokenIds.map Int.ofNat := by
  obtain ⟨batch', prepared', made', faithful', laid, inputs⟩ := prepareInputs_ok faithful valid
  cases made.symm.trans made'
  obtain ⟨row, sequence', present', allows, -⟩ := laid.served faithful' valid found
  cases present.symm.trans present'
  obtain ⟨stops, minLen, allowed, unused⟩ := addRequest_ok positive added
  have value (logits : Nat → LogitsRow) {i : Nat} (le : i ≤ output.numDraftTokens reqId)
      (token : TokenId) :
      applyLogitBias cfg batch slots logits (batch.logitsStart b + i) token =
        if token ∈ params.allStopTokenIds ∧
          outputIndex promptLen seq n (output.numDraftTokens reqId) i ≤ params.minTokens then ⊥
        else (slots (batch.idx b)).biased (logits (batch.logitsStart b + i)) token := by
    rw [applyLogitBias_eq laid row allows unused le, biasKernel_eq, stops, minLen,
      (inputs.row found present allows le).2, outputIndex]
    congr 2
    simp only [eq_iff_iff]
    omega
  have restricted : (slots (batch.idx b)).numAllowedTokenIds > 0 ↔ params.allowedTokenIds ≠ [] := by
    have lengths := congrArg List.length allowed
    rw [length_map, length_map, length_range] at lengths
    rw [lengths, gt_iff_lt, length_pos_iff]
  constructor
  · intro exact' i le last token stop
    have masked := exact' (fun _ _ => 0) i le token
    rw [value _ le, if_pos ⟨stop, last.le⟩, if_neg (by omega)] at masked
    have bot := biased_eq_bot.mp masked.symm
    rw [restricted, allowed] at bot
    simpa using bot
  · intro apart logits i le token
    rw [value logits le]
    by_cases last : outputIndex promptLen seq n (output.numDraftTokens reqId) i =
        params.minTokens
    · by_cases stop : token ∈ params.allStopTokenIds
      · have bot : (slots (batch.idx b)).biased (logits (batch.logitsStart b + i)) token = ⊥ := by
          rw [biased_eq_bot, restricted, allowed]
          exact .inl (apart i le last token stop)
        simp [bot]
      · simp [stop]
    · congr 2
      simp only [eq_iff_iff]
      omega

def resumed : Sequence := ⟨3, [5, 6, 9], 0, fun _ => 0⟩

def resumedRunner : Runner :=
  ⟨((init ⟨8, 2, 1⟩).states.addRequest "a" 2 [5, 6, 9] 0).toOption.getD (init ⟨8, 2, 1⟩).states,
    (init ⟨8, 2, 1⟩).buffers⟩

def stopParams (minTokens : Nat) : Worker.SamplingParams := { minTokens, allStopTokenIds := [2] }

theorem resumed_present : update (fun _ => none) "a" (some resumed) "a" = some resumed :=
  update_self ..

theorem resumed_faithful : Faithful ⟨8, 2, 1⟩ resumedRunner.states
    (update (fun _ => none) "a" (some resumed)) :=
  (init_faithful ⟨8, 2, 1⟩).addRequest (by decide) (by decide)
    (show (init ⟨8, 2, 1⟩).states.addRequest "a" 2 [5, 6, 9] 0 = .ok _ from rfl)

theorem resumed_valid (token : TokenId) : Valid ⟨8, 2, 1⟩ (update (fun _ => none) "a" (some resumed))
    ⟨Dict.empty.set "a" 3, .empty⟩ (fun _ => [token]) :=
  .single resumed_present ⟨by decide, .inl ⟨by decide, rfl, by decide⟩, by decide,
    ⟨Nat.one_pos, le_rfl⟩, by simp [resumed]⟩

/-- One output is required and there is one, but the stop token is masked for the next one. -/
theorem stop_token_masked_late : ∃ batch prepared slot,
    prepareInputs ⟨8, 2, 1⟩ resumedRunner ⟨Dict.empty.set "a" 3, .empty⟩ = .ok (batch, prepared) ∧
    ({} : LogitBiasSlot).addRequest 2 (stopParams 1) = .ok slot ∧
    applyLogitBias ⟨8, 2, 1⟩ batch (fun _ => slot) (fun _ _ => 0) 0 2 = ⊥ ∧
    outputIndex 2 resumed 3 0 0 = 1 :=
  ⟨_, _, _, rfl, rfl, rfl, rfl⟩

/-- Two outputs are required. -/
theorem stop_tokens_masked_iff_resumed : ∃ batch prepared slot,
    prepareInputs ⟨8, 2, 1⟩ resumedRunner ⟨Dict.empty.set "a" 3, .empty⟩ = .ok (batch, prepared) ∧
    ({} : LogitBiasSlot).addRequest 2 (stopParams 2) = .ok slot ∧ ∀ logits, ∀ i ≤ 0, ∀ token,
      applyLogitBias ⟨8, 2, 1⟩ batch (fun _ => slot) logits (batch.logitsStart 0 + i) token =
        if token ∈ [2] ∧ outputIndex 2 resumed 3 0 i < 2 then ⊥
        else slot.biased (logits (batch.logitsStart 0 + i)) token := by
  have made : prepareInputs ⟨8, 2, 1⟩ resumedRunner ⟨Dict.empty.set "a" 3, .empty⟩ = .ok (_, _) := rfl
  refine ⟨_, _, _, made, rfl, (stop_tokens_masked_iff resumed_faithful (resumed_valid 4)
      made (b := 0) rfl resumed_present rfl (show 0 < (stopParams 2).minTokens by decide)).mpr ?_⟩
  intro i le last
  cases Nat.le_zero.mp le
  exact absurd last (by decide)

end Vllm.V2
