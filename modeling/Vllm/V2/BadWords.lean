import Vllm.V2.SamplerRows

/-! The bad words of the second model runner, and the history that they are compared with. -/
namespace Vllm.V2
open List hiding next
open Launch Segments Function Py

abbrev BadWords := List (List TokenId)

/-- The cells of one request in the arrays of `BadWordsState`. -/
structure BadWordsSlot where
  numBadWords : Nat := 0
  badWordTokenIds : Nat → TokenId := fun _ => 0
  badWordOffsets : Nat → Nat := fun _ => 0

namespace BadWordsSlot

def addRequest (slot : BadWordsSlot) (badWordsTokenIds : BadWords) : Py BadWordsSlot :=
  if badWordsTokenIds = [] then .ok { slot with numBadWords := 0 }
  else do
    checkSize "bad words" "max number" badWordsTokenIds.length 128
    checkSize "total bad word tokens" "max" badWordsTokenIds.flatten.length 1024
    return {
      numBadWords := badWordsTokenIds.length
      badWordTokenIds := stageWrite slot.badWordTokenIds badWordsTokenIds.flatten
      badWordOffsets :=
        stageWrite slot.badWordOffsets (0 :: cumsum (badWordsTokenIds.map List.length)) }

end BadWordsSlot

section Kernel
variable (slot : BadWordsSlot) (cells : Slot) (promptLen : Nat) (inputIds : Nat → TokenId)

end Kernel

section Drafts
variable (badWords : Dict Nat BadWords) (pastTokensIds : List (List TokenId))

end Drafts

section Words
variable {words : BadWords} {front past : List TokenId} {token : TokenId}
  {logits : LogitsRow}
  {before slot : BadWordsSlot}

section
variable (words : BadWords) (past : List TokenId) (logits : LogitsRow) (token : TokenId)

/-- The token is the last one of a bad word, and the past ends with the others. -/
abbrev Completes : Prop :=
  ∃ word ∈ words, word.getLast? = some token ∧ word.dropLast <:+ past

end

section Drafts
variable {badWords : Dict Nat BadWords} {pasts outputs specs : List (List TokenId)}
  {start r d j remaining : Nat} {lens : List Nat} {logits : Nat → LogitsRow}

end Drafts

/-- The cells of a request hold its bad words. -/
theorem BadWordsSlot.addRequest_ok (added : before.addRequest words = .ok slot) :
    slot.numBadWords = words.length ∧ ∀ (k : Nat) word, words[k]? = some word →
      slot.badWordOffsets (k + 1) = slot.badWordOffsets k + word.length ∧
      ∀ (i : Nat) token, word[i]? = some token →
        slot.badWordTokenIds (slot.badWordOffsets k + i) = token := by
  rw [addRequest] at added
  split at added
  · rename_i none
    cases added
    rw [none]
    exact ⟨rfl, nofun⟩
  · obtain ⟨-, -, added⟩ := bind_ok added
    obtain ⟨-, -, added⟩ := bind_ok added
    cases added
    refine ⟨rfl, fun k word found => ?_⟩
    have starts {k : Nat} (le : k ≤ words.length) : stageWrite before.badWordOffsets
        (0 :: cumsum (words.map length)) k = offset (words.map length) k := by
      apply stageWrite_eq
      cases k with
      | zero => simp
      | succ k =>
        rw [getElem?_cons_succ, getElem?_cumsum (by rw [length_map]; omega)]
    have inside := (List.getElem?_eq_some_iff.mp found).1
    simp only
    rw [starts inside, starts inside.le, offset_succ (by rw [getElem?_map, found]; rfl)]
    refine ⟨rfl, fun i token here => ?_⟩
    apply stageWrite_eq
    rw [getElem?_flatten found (List.getElem?_eq_some_iff.mp here).1, here]

variable {cells : Slot} {promptLen : Nat} {inputIds : Nat → TokenId} {tokenIdx pos k : Nat}

end Words

namespace Sequence
variable (seq : Sequence) (promptLen i : Nat)

def scheduled : List TokenId := (range i).map seq.drafts

def past : List TokenId := seq.tokens.drop promptLen ++ seq.scheduled i

end Sequence

variable {cfg : Config} {runner prepared : Runner} {states : RequestState} {truth : Truth}
  {output : SchedulerOutput} {batch : InputBatch} {b n i : Nat} {reqId : String}
  {seq : Sequence} {sampled : String → List TokenId} {before : BadWordsSlot}
  {slots : Nat → BadWordsSlot} {words : BadWords} {promptLens : Nat → Nat}

section Rows
variable (laid : LaidOut states output batch.toLayout) (inputs : TrueInputs truth output batch)
  (found : batch.requests[b]? = some (reqId, n)) (present : truth reqId = some seq)
  (allows : seq.Allows cfg n (output.numDraftTokens reqId) accepted)
  (ok : seq.Ok cfg) (rep : Represents (states.slots (batch.idx b)) seq)
  (le : i ≤ output.numDraftTokens reqId)
include inputs found present allows ok rep le

include laid

end Rows

namespace Sequence
variable (started : 0 < seq.tokens.length)
include started

end Sequence

/-- The resumed request has sampled a token, and there is a draft of the next one. -/
def drafted : Sequence := ⟨3, [5, 6, 9, 7], 3, fun _ => 8⟩

end Vllm.V2
