import Vllm.V2.Runner
import Vllm.Worker.InputBatch

/-! What the sampler of the second model runner writes to the logits because of the tokens that a
request allows, favours or may not produce yet. -/
namespace Vllm.V2
open Launch

/-- A row of logits; `⊥` is `-inf`. -/
abbrev LogitsRow := TokenId → WithBot Rat

/-- The slot of each row of the logits, and its place among the rows of its request. Without drafts
these are `idx_mapping` and zeros, as the kernel would compute them. -/
def expandIdxMappingKernel (cfg : Config) (layout : Layout) (batchIdx : Nat)
    (memory : (Nat → Nat) × (Nat → Nat)) : (Nat → Nat) × (Nat → Nat) :=
  let start := layout.logitsStart batchIdx
  let count := min (2 ^ Nat.clog 2 (cfg.numSpeculativeSteps + 1)) (layout.numLogits batchIdx)
  (store memory.1 start count (fun _ => layout.idx batchIdx), store memory.2 start count id)

def expandIdxMapping (cfg : Config) (layout : Layout) : (Nat → Nat) × (Nat → Nat) :=
  launch (expandIdxMappingKernel cfg layout) layout.numReqs (fun _ => 0, fun _ => 0)

/-- `stage_write(req_idx, 0, values)`. -/
def stageWrite {α : Type} [Inhabited α] (cells : Nat → α) (values : List α) : Nat → α :=
  store cells 0 values.length (fun i => values.getD i default)

def checkSize (what bound : String) (size limit : Nat) : Py Unit :=
  if size > limit then .error (.valueError s!"Too many {what}: {size}. The {bound} is {limit}.")
  else .ok ()

structure LogitBiasSlot where
  numAllowedTokenIds : Nat := 0
  allowedTokenIds : Nat → TokenId := fun _ => 0
  numLogitBias : Nat := 0
  logitBiasTokenIds : Nat → TokenId := fun _ => 0
  logitBias : Nat → Rat := fun _ => 0
  minLen : Nat := 0
  numStopTokenIds : Nat := 0
  stopTokenIds : Nat → TokenId := fun _ => 0
  useLogitBias : Bool := false

namespace LogitBiasSlot
variable (slot : LogitBiasSlot)

/-- An empty list is not written, and its number is zero. -/
def addRequest (promptLen : Nat) (params : Worker.SamplingParams) : Py LogitBiasSlot := do
  let allowed := params.allowedTokenIds.map Int.ofNat
  let stops := if 0 < params.minTokens then params.allStopTokenIds else []
  checkSize "allowed token IDs" "max size" allowed.length 1024
  checkSize "logit bias tokens" "max size" params.logitBias.length 1024
  checkSize "stop tokens" "max size" stops.length 128
  return {
    numAllowedTokenIds := allowed.length
    allowedTokenIds := stageWrite slot.allowedTokenIds allowed
    numLogitBias := params.logitBias.length
    logitBiasTokenIds := stageWrite slot.logitBiasTokenIds (params.logitBias.map Prod.fst)
    logitBias := stageWrite slot.logitBias (params.logitBias.map Prod.snd)
    minLen := promptLen + params.minTokens
    numStopTokenIds := stops.length
    stopTokenIds := stageWrite slot.stopTokenIds stops
    useLogitBias := allowed ≠ [] ∨ params.logitBias ≠ [] ∨ stops ≠ [] }

/-- The first two parts of `_bias_kernel`. -/
def biased (logits : LogitsRow) : LogitsRow :=
  let allowed := (List.range slot.numAllowedTokenIds).map slot.allowedTokenIds
  let restricted := fun token =>
    if slot.numAllowedTokenIds > 0 ∧ token ∉ allowed then ⊥ else logits token
  fun token => match (List.range slot.numLogitBias).find? (slot.logitBiasTokenIds · = token) with
    | some i => restricted token + (slot.logitBias i : WithBot Rat)
    | none => restricted token

def biasKernel (pos : Nat) (logits : LogitsRow) : LogitsRow :=
  let stops := (List.range slot.numStopTokenIds).map slot.stopTokenIds
  if slot.numStopTokenIds > 0 ∧ pos < slot.minLen then
    fun token => if token ∈ stops then ⊥ else slot.biased logits token
  else slot.biased logits

end LogitBiasSlot

/-- `pos` is `positions[logits_indices]`. -/
def applyLogitBias (cfg : Config) (batch : InputBatch) (slots : Nat → LogitBiasSlot)
    (logits : Nat → LogitsRow) : Nat → LogitsRow :=
  if batch.idxMapping.any (fun reqIdx => (slots reqIdx).useLogitBias) then fun row =>
    (slots ((expandIdxMapping cfg batch.toLayout).1 row)).biasKernel
      (batch.positions (batch.logitsIndices row)) (logits row)
  else logits

end Vllm.V2
