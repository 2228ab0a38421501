import Vllm.Worker.InputBatch

/-! The built-in logits processors that hold state per batch index. -/
namespace Vllm.Worker
open Function

/-- The integer nearest to `n / d`, the even one of two. -/
def roundHalfEven (n d : Nat) : Nat :=
  if 2 * (n % d) < d ∨ 2 * (n % d) = d ∧ n / d % 2 = 0 then n / d else n / d + 1

/-- The nearest value of a float32. It is measured in units of the smallest subnormal, and 24 bits
are kept. -/
def float32 (x : Rat) : Rat :=
  let units := x.num.natAbs * 2 ^ 149
  let quantum := 2 ^ (Nat.log2 (units / x.den) - 23)
  x.num.sign * mkRat (roundHalfEven units (x.den * quantum) * quantum) (2 ^ 149)

theorem float32_zero : float32 0 = 0 := by
  simp [float32]

structure MinPLogitsProcessor where
  /-- False if the device is the CPU; then the device tensor is the CPU tensor. -/
  useDoubleTensor : Bool
  minPCount : Int := 0
  minPCpu : Nat → Rat := fun _ => 0
  minPDevice : Nat → Rat := fun _ => 0
  /-- The length of the current slice of the device tensor. -/
  shape : Nat := 0

namespace MinPLogitsProcessor

variable (state : MinPLogitsProcessor)

def minP : List Rat :=
  (List.range state.shape).map (if state.useDoubleTensor then state.minPDevice else state.minPCpu)

/-- A Python float is compared with an array element as a float32; its truth value is taken
before it is rounded. -/
def addRequest (state : MinPLogitsProcessor × Bool) (req : AddedRequest) :
    MinPLogitsProcessor × Bool :=
  let minP := req.params.minP
  let before := state.1.minPCpu req.index
  if before ≠ float32 minP then
    ({ state.1 with
      minPCpu := update state.1.minPCpu req.index (float32 minP)
      minPCount := if minP ≠ 0 ∧ before = 0 then state.1.minPCount + 1
        else if minP = 0 ∧ before ≠ 0 then state.1.minPCount - 1
        else state.1.minPCount }, true)
  else state

def removeRequest (index : Nat) : MinPLogitsProcessor :=
  if state.minPCpu index ≠ 0 then
    { state with
      minPCpu := update state.minPCpu index 0
      minPCount := state.minPCount - 1 }
  else state

def moveRequest (state : MinPLogitsProcessor × Bool) (moved : MovedRequest) :
    MinPLogitsProcessor × Bool :=
  let minPA := state.1.minPCpu moved.src
  let minPB := state.1.minPCpu moved.dst
  let cpu := if minPA ≠ minPB then
      let target := update state.1.minPCpu moved.dst minPA
      if moved.direction = .swap then update target moved.src minPB else target
    else state.1.minPCpu
  let needsUpdate := state.2 || decide (minPA ≠ minPB)
  if moved.direction = .unidirectional then
    ({ state.1 with
      minPCpu := if minPA ≠ 0 then update cpu moved.src 0 else cpu
      minPCount := if minPB ≠ 0 then state.1.minPCount - 1 else state.1.minPCount }, needsUpdate)
  else ({ state.1 with minPCpu := cpu }, needsUpdate)

def updateTensors (needsUpdate : Bool) (size : Nat) : MinPLogitsProcessor :=
  if state.minPCount ≠ 0 ∧ (needsUpdate ∨ state.shape ≠ size) then
    { state with
      shape := size
      minPDevice := if state.useDoubleTensor then copyFirst state.minPDevice state.minPCpu size
        else state.minPDevice }
  else state

def updateState : Option BatchUpdate → MinPLogitsProcessor
  | none => state
  | some update =>
    let added := update.added.foldl addRequest (state, false)
    let moved := if added.1.minPCount ≠ 0 then
        update.moved.foldl moveRequest
          (update.removed.foldl removeRequest added.1, added.2 || decide (update.removed ≠ []))
      else added
    moved.1.updateTensors moved.2 update.batchSize

end MinPLogitsProcessor

section DictUpdates
variable {β : Type} (newState : AddedRequest → Option β) (state : Dict Nat β × Bool)

/-- The entries of a sparse processor, and whether they changed. -/
def addEntry (req : AddedRequest) : Dict Nat β × Bool :=
  match newState req with
  | some entry => (state.1.set req.index entry, true)
  | none => (state.1.erase req.index, state.2 || state.1.contains req.index)

/-- No entry of the two users is false as a Python value. -/
def removeEntry (index : Nat) : Dict Nat β × Bool :=
  (state.1.erase index, state.2 || state.1.contains index)

def moveEntry (moved : MovedRequest) : Dict Nat β × Bool :=
  let aEntry := state.1.get? moved.src
  let popped := state.1.erase moved.src
  let bEntry := popped.get? moved.dst
  let popped := popped.erase moved.dst
  let entries := match aEntry with
    | some entry => popped.set moved.dst entry
    | none => popped
  let entries := match bEntry with
    | some entry => if moved.direction = .swap then entries.set moved.src entry else entries
    | none => entries
  (entries, state.2 || aEntry.isSome || bEntry.isSome)

def processDictUpdates (entries : Dict Nat β) (update : Option BatchUpdate)
    (newState : AddedRequest → Option β) : Dict Nat β × Bool :=
  match update with
  | none => (entries, false)
  | some update =>
    let added := update.added.foldl (addEntry newState) (entries, false)
    if added.1.size ≠ 0 then update.moved.foldl moveEntry (update.removed.foldl removeEntry added)
    else added

end DictUpdates

structure LogitBiasLogitsProcessor where
  biases : Dict Nat (List (TokenId × Rat)) := .empty
  /-- Rows, tokens and biases on the device. -/
  logitsSlice : List (Nat × TokenId × Rat) := []

namespace LogitBiasLogitsProcessor

/-- `params.logit_bias or None`. -/
def newState (req : AddedRequest) : Option (List (TokenId × Rat)) :=
  if req.params.logitBias = [] then none else some req.params.logitBias

def sliceOf (biases : Dict Nat (List (TokenId × Rat))) : List (Nat × TokenId × Rat) :=
  biases.entries.flatMap (fun entry =>
    entry.2.map (fun bias => (entry.1, bias.1, float32 bias.2)))

def updateState (state : LogitBiasLogitsProcessor) (update : Option BatchUpdate) :
    LogitBiasLogitsProcessor :=
  let processed := processDictUpdates state.biases update newState
  { biases := processed.1
    logitsSlice := if processed.2 then sliceOf processed.1 else state.logitsSlice }

end LogitBiasLogitsProcessor

structure MinTokensEntry where
  minToks : Nat
  outTokIds : Nat
  stopTokIds : List TokenId
  deriving DecidableEq, Repr

structure MinTokensLogitsProcessor where
  minToks : Dict Nat MinTokensEntry := .empty
  /-- Rows and tokens on the device. -/
  logitsSlice : List (Nat × TokenId) := []

namespace MinTokensLogitsProcessor

variable (state : MinTokensLogitsProcessor) (outputs : Nat → List TokenId)

/-- The contents of the output lists are given. -/
def addRequest (req : AddedRequest) : Option MinTokensEntry :=
  if req.params.minTokens = 0 ∨
      req.params.minTokens ≤ (outputs req.outputRef).length then none
  else some ⟨req.params.minTokens, req.outputRef, req.params.allStopTokenIds⟩

def reached (entry : MinTokensEntry) : Bool :=
  decide (entry.minToks ≤ (outputs entry.outTokIds).length)

def sliceOf (minToks : Dict Nat MinTokensEntry) : List (Nat × TokenId) :=
  minToks.entries.flatMap (fun entry => entry.2.stopTokIds.map (fun token => (entry.1, token)))

def updateState (update : Option BatchUpdate) : MinTokensLogitsProcessor :=
  let processed := processDictUpdates state.minToks update (addRequest outputs)
  let toRemove := (processed.1.entries.filter (fun entry => reached outputs entry.2)).map Prod.fst
  let minToks := toRemove.foldl Dict.erase processed.1
  { minToks
    logitsSlice := if processed.2 || decide (toRemove ≠ []) then sliceOf minToks
      else state.logitsSlice }

end MinTokensLogitsProcessor
end Vllm.Worker
