import Vllm.Request

/-! Incremental detokenization with stop strings: `BaseIncrementalDetokenizer` of
`v1/engine/detokenizer.py`, over the `decode_next` of its subclasses. -/
namespace Vllm

abbrev Text := List Char

/-- `text.find(sub, start)`, with `none` for `-1`. -/
def strFind (text sub : Text) (start : Int) : Option Nat :=
  -- a negative start counts from the end and is cut off at the beginning
  let first := if start < 0 then (text.length + start).toNat else start.toNat
  (List.range' first (text.length + 1 - first)).find? fun i => sub.isPrefixOf (text.drop i)

/-- The stop string found and the length to truncate to, with `none` for `-1`. -/
def checkStopStrings (outputText : Text) (newCharCount : Nat) (stop : List Text)
    (includeInOutput : Bool) : Option (Text × Option Nat) :=
  if newCharCount = 0 ∨ stop = [] then none
  else stop.findSome? fun stopStr =>
    (strFind outputText stopStr (1 - newCharCount - stopStr.length)).map fun stopIndex =>
      if includeInOutput then
        let stopEnd := stopIndex + stopStr.length
        (stopStr, if outputText.length ≤ stopEnd then none else some stopEnd)
      else (stopStr, some stopIndex)

inductive StopParam
  | absent
  | single (stop : Text)
  | listed (stop : List Text)

def StopParam.toList : StopParam → List Text
  | absent => []
  | single stop => [stop]
  | listed stop => stop

/-- The attributes that `__init__` sets and nothing changes. The check of the sampling
parameters rejects empty stop strings. -/
structure StopParams where
  stop : StopParam
  minTokens : Nat
  includeStopStrInOutput : Bool
  promptLen : Nat
  stop_nonempty : ∀ stopStr ∈ stop.toList, stopStr ≠ []

def StopParams.stopBufferLength (params : StopParams) : Nat :=
  if params.stop.toList ≠ [] ∧ !params.includeStopStrInOutput then
    (params.stop.toList.map List.length).foldr max 0 - 1
  else 0

structure Detokenizer (σ : Type) where
  /-- The slow detokenizer starts from the ids of the prompt, the fast one from none. -/
  tokenIds : List TokenId
  lastOutputTextOffset : Nat := 0
  outputText : Text := []
  decoder : σ

namespace Detokenizer
variable {σ : Type} (params : StopParams)
  (decodeNext : List TokenId → σ → TokenId → Py (Text × σ))

def numOutputTokens (d : Detokenizer σ) : Nat := d.tokenIds.length - params.promptLen

/-- One round of the loop of `update`, with its `stop_check_offset`. -/
def append (current : Detokenizer σ × Nat) (newTokenId : TokenId) : Py (Detokenizer σ × Nat) := do
  let (d, stopCheckOffset) := current
  let tokenIds := d.tokenIds ++ [newTokenId]
  let (text, decoder) ← decodeNext tokenIds d.decoder newTokenId
  let d := { d with tokenIds, outputText := d.outputText ++ text, decoder }
  return (d, if params.minTokens ≠ 0 ∧ d.numOutputTokens params ≤ params.minTokens
    then d.outputText.length else stopCheckOffset)

variable (d : Detokenizer σ) (newTokenIds : List TokenId) (finished stopTerminated : Bool)

/-- The first half of `update`: the new text and the offset the search starts from. -/
def detokenize : Py (Detokenizer σ × Nat) := do
  let skip := stopTerminated && !params.includeStopStrInOutput
  let (d, stopCheckOffset) ← (if skip then newTokenIds.dropLast else newTokenIds).foldlM
    (append params decodeNext) (d, d.outputText.length)
  let skippedStopTokenId := if skip then newTokenIds.getLast? else none
  return ({ d with tokenIds := d.tokenIds ++ skippedStopTokenId.toList }, stopCheckOffset)

/-- The second half of `update`: the stop string found and the truncated text. -/
def evaluateStop (stopCheckOffset : Nat) : Option Text × Text :=
  if params.stop.toList ≠ [] ∧ params.minTokens < d.numOutputTokens params then
    match checkStopStrings d.outputText (d.outputText.length - stopCheckOffset) params.stop.toList
        params.includeStopStrInOutput with
    | none => (none, d.outputText)
    | some (stopString, none) => (some stopString, d.outputText)
    | some (stopString, some truncateTo) => (some stopString, d.outputText.take truncateTo)
  else (none, d.outputText)

def update : Py (Option Text × Detokenizer σ) :=
  if newTokenIds = [] then .ok (none, d)
  else do
    let (d, stopCheckOffset) ← d.detokenize params decodeNext newTokenIds stopTerminated
    let (stopString, outputText) := d.evaluateStop params stopCheckOffset
    return (stopString, { d with outputText })

def visible : Nat :=
  d.outputText.length - if finished then 0 else params.stopBufferLength

def getNextOutputText (delta : Bool) : Text × Detokenizer σ :=
  let length := d.visible params finished
  if !delta then (d.outputText.take length, d)
  else if d.lastOutputTextOffset < length then
    ((d.outputText.take length).drop d.lastOutputTextOffset,
      { d with lastOutputTextOffset := length })
  else ([], d)

end Detokenizer
end Vllm
