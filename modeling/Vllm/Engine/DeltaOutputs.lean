import Vllm.Engine.OutputProcessor

/-! The deltas of a request add up to its tokens and logprobs. What a request still owes its
client is a suffix of its tokens, and a delta takes as many rows of logprobs from the end as it
has tokens: these are the rows of its own tokens unless it has none. -/
namespace Vllm
open List hiding next
open Py Option

namespace Detokenizer

theorem detokenize_tokenIds
    (ran : detokenize params decodeNext d newTokenIds stopTerminated = .ok (e, offset)) :
    e.tokenIds = d.tokenIds ++ newTokenIds := by
  obtain ⟨_, looped, ran⟩ := bind_ok ran
  have grown := foldlM_items (fun done current => current.1.tokenIds = d.tokenIds ++ done)
    (fun _ grown appended => by
      obtain ⟨⟨_, _⟩, -, appended⟩ := bind_ok appended
      cases appended
      simp [grown]) (append_nil _).symm looped
  cases ran
  simp only [grown, append_assoc, append_cancel_left_eq]
  split
  · rcases eq_nil_or_concat newTokenIds with rfl | ⟨_, _, rfl⟩ <;> simp
  · exact append_nil _

theorem update_tokenIds
    (ran : update params decodeNext d newTokenIds stopTerminated = .ok (found, e)) :
    e.tokenIds = d.tokenIds ++ newTokenIds := by
  unfold update at ran
  split at ran
  · rename_i empty
    cases ran
    rw [empty, append_nil]
  · obtain ⟨⟨_, _⟩, detokenized, ran⟩ := bind_ok ran
    have same := detokenize_tokenIds detokenized
    cases ran
    exact same

theorem getNextOutputText_tokenIds (params : StopParams) (d : Detokenizer σ)
    (finished delta : Bool) :
    (d.getNextOutputText params finished delta).2.tokenIds = d.tokenIds := by
  simp only [getNextOutputText]
  split
  · rfl
  · split <;> rfl

end Detokenizer

/-- In the streaming modes a parent passes on the output of a child it knows. -/
theorem ParentRequest.getOutputs_known {parent next : ParentRequest L}
    (streams : parent.outputKind ≠ .finalOnly) (known : childId ∈ parent.childRequests)
    (ran : parent.getOutputs childId output = .ok (outputs, finished, next)) :
    outputs = [some output] ∧ next.outputKind = parent.outputKind ∧
      (output.finishReason = none → childId ∈ next.childRequests) := by
  simp only [getOutputs, if_pos streams] at ran
  cases ran
  refine ⟨by simp [known], rfl, ?_⟩
  intro running
  simpa [running] using known

/-- `new_token_ids` of `make_request_output` in DELTA mode. -/
def RequestState.due (state : RequestState σ L) (newTokenIds : List TokenId) : List TokenId :=
  if 1 < state.streamInterval then state.outputTokenIds.drop state.sentTokensOffset
  else newTokenIds

/-- An output that is not held back has the tokens that are due and as many rows. -/
theorem RequestState.makeRequestOutput_delta {state next : RequestState σ L}
    (delta : state.outputKind = .delta) (made : ¬ state.Deferred finishReason)
    (known : ∀ p ∈ parent, p.outputKind = .delta ∧ state.requestId ∈ p.childRequests)
    (ran : state.makeRequestOutput parent newTokenIds finishReason =
      .ok (requestOutput, next, nextParent)) :
    (∃ output, requestOutput.elim [] (·.outputs) = [some output] ∧
      output.tokenIds = state.due newTokenIds ∧
      output.logprobs = state.logprobs.map (lastItems · (state.due newTokenIds).length)) ∧
    (∃ detokenizer : Detokenizer σ, detokenizer.tokenIds = state.detokenizer.tokenIds ∧
      next = { state with
        outputKind := .delta
        detokenizer
        sentTokensOffset :=
          if 1 < state.streamInterval then state.numOutputTokens else state.sentTokensOffset }) ∧
    ∀ p ∈ nextParent, parent ≠ none ∧ p.outputKind = .delta ∧
      (finishReason = none → state.requestId ∈ p.childRequests) := by
  have text := Detokenizer.getNextOutputText_tokenIds state.params state.detokenizer
    finishReason.isSome true
  unfold makeRequestOutput at ran
  rw [if_neg (by simp [delta, made])] at ran
  simp only [newCompletionOutput, delta, and_true, decide_true] at ran
  cases parent with
  | none =>
    cases ran
    exact ⟨⟨_, rfl, rfl, rfl⟩, ⟨_, text, rfl⟩, by simp⟩
  | some parent =>
    obtain ⟨known, streams⟩ := known parent rfl
    obtain ⟨⟨outputs, _, _⟩, passed, ran⟩ := bind_ok ran
    obtain ⟨rfl, kind, open'⟩ := ParentRequest.getOutputs_known (by simp [known]) streams passed
    cases ran
    refine ⟨⟨_, rfl, rfl, rfl⟩, ⟨_, text, rfl⟩, ?_⟩
    rintro p same
    cases same
    exact ⟨some_ne_none _, kind.trans known, open'⟩

structure Deltas (σ L : Type) where
  state : RequestState σ L
  parent : Option (ParentRequest L)
  /-- Whether the request is in `request_states`. -/
  live : Bool := true
  /-- Whether its last output finished it, or the input chunk it was for. -/
  finished : Bool := false
  delivered : List (CompletionOutput L) := []

inductive DeltasOp (L : Type)
  | processOutput (output : TokenOutput L)
  | abort
  /-- Other children of the parent are added or finish. -/
  | siblings (childRequests : Finset String)
  /-- A chunk of a streaming input is queued or applied. -/
  | streamingInput (more : Bool)

namespace Deltas
variable (s : Deltas σ L)

def tokenIds : List TokenId := s.delivered.flatMap (·.tokenIds)

def deliver (requestOutput : Option (RequestOutput L)) : List (CompletionOutput L) :=
  s.delivered ++ (requestOutput.elim [] (·.outputs)).reduceOption

def exec (decodeNext : List TokenId → σ → TokenId → Py (Text × σ)) : DeltasOp L → Py (Deltas σ L)
  | .processOutput output => if s.live then do
      let (finishReason, requestOutput, state, parent) ←
        s.state.processOutput decodeNext s.parent output
      return ⟨state, parent, finishReason = none ∨ s.state.streamingInput, finishReason.isSome,
        s.deliver requestOutput⟩
    else return s
  | .abort => if s.live then do
      let (requestOutput, state, parent) ← s.state.abort s.parent
      return ⟨state, parent, false, true, s.deliver requestOutput⟩
    else return s
  | .siblings childRequests => .ok { s with
      parent := s.parent.map fun parent => { parent with childRequests } }
  | .streamingInput more => .ok { s with state := { s.state with streamingInput := more } }

/-- The engine sends a row of logprobs for each token if they were asked for. A step that makes
an output has a token for it, or there are no logprobs yet; and an abort without a queue finds
nothing held back. -/
def Allowed : DeltasOp L → Prop
  | .processOutput output =>
    (s.state.logprobs.isSome → (output.newLogprobs.getD []).length = output.newTokenIds.length) ∧
    (s.state.due [] ++ output.newTokenIds ≠ [] ∨ s.state.logprobs.getD [] = [] ∨
      1 < s.state.streamInterval ∧ s.state.sentTokensOffset ≠ 0 ∧ output.finishReason = none)
  | .abort => if s.state.hasQueue then s.state.due [] ≠ [] ∨ s.state.logprobs.getD [] = []
    else s.state.due [] = []
  | .siblings childRequests =>
    ∀ parent ∈ s.parent, s.state.requestId ∈ parent.childRequests → s.state.requestId ∈ childRequests
  | .streamingInput _ => s.parent = none

instance (op : DeltasOp L) : Decidable (s.Allowed op) := by
  cases op <;> unfold Allowed <;> infer_instance

/-- What is delivered and what is due are the tokens of the request, in order. -/
structure Owes (newTokenIds : List TokenId) : Prop where
  delta : s.state.outputKind = .delta
  prompt : s.state.params.promptLen ≤ s.state.detokenizer.tokenIds.length
  child : s.live → ∀ parent ∈ s.parent, parent.outputKind = .delta ∧
    s.state.requestId ∈ parent.childRequests ∧ s.state.streamingInput = false
  tokens : s.tokenIds ++ s.state.due newTokenIds = s.state.outputTokenIds
  offset : 1 < s.state.streamInterval → s.state.sentTokensOffset = s.tokenIds.length
  rows : ∀ logprobs ∈ s.state.logprobs, logprobs.length = s.state.outputTokenIds.length ∧
    s.delivered.flatMap (·.logprobs.getD []) = logprobs.take s.tokenIds.length
  each : ∀ output ∈ s.delivered,
    output.logprobs.map length = s.state.logprobs.map fun _ => output.tokenIds.length
  all : s.finished → s.state.due newTokenIds = []

theorem lastItems_spec {all : List α} (enough : k ≠ 0 ∨ all = []) (total : sent + k = all.length) :
    all.take sent ++ lastItems all k = all ∧ (lastItems all k).length = k := by
  unfold lastItems
  split
  · rename_i none
    have empty := enough.resolve_left (not_not.mpr none)
    simp [empty, none]
  · rw [show all.length - k = sent by omega]
    exact ⟨take_append_drop .., by simp; omega⟩

variable {s next : Deltas σ L} {decodeNext : List TokenId → σ → TokenId → Py (Text × σ)}
  {op : DeltasOp L} {newTokenIds : List TokenId} {finishReason : Option FinishReason}

/-- An output that is made hands over all that is due. -/
theorem Owes.deliver (owes : s.Owes newTokenIds) (live : s.live)
    (ready : s.state.due newTokenIds ≠ [] ∨ s.state.logprobs.getD [] = [] ∨
      s.state.Deferred finishReason)
    (running : next.live → finishReason = none ∨ s.state.streamingInput)
    (finished : next.finished = finishReason.isSome)
    (delivered : next.delivered = s.deliver requestOutput)
    (ran : s.state.makeRequestOutput s.parent newTokenIds finishReason =
      .ok (requestOutput, next.state, next.parent)) : next.Owes [] := by
  obtain ⟨state, parent, _, finished', delivered'⟩ := next
  dsimp only at *
  subst finished' delivered'
  by_cases deferred : s.state.Deferred finishReason
  · rw [RequestState.makeRequestOutput, if_pos (.inr deferred)] at ran
    cases ran
    obtain ⟨interval, unfinished, -⟩ := deferred
    have due : s.state.due newTokenIds = s.state.due [] := by simp [RequestState.due, interval]
    have same : s.deliver none = s.delivered := append_nil _
    rw [same]
    exact { owes with
      child := fun _ => owes.child live
      tokens := due ▸ owes.tokens
      all := by simp [unfinished] }
  · obtain ⟨⟨output, outputs, ids, logprobs⟩, ⟨detokenizer, kept, rfl⟩, child⟩ :=
      RequestState.makeRequestOutput_delta owes.delta deferred
        (fun p mem => ⟨(owes.child live p mem).1, (owes.child live p mem).2.1⟩) ran
    have delivered : s.deliver requestOutput = s.delivered ++ [output] := by
      rw [deliver, outputs]
      rfl
    have tokens : (s.delivered ++ [output]).flatMap (·.tokenIds) = s.state.outputTokenIds := by
      rw [← owes.tokens, ← ids]
      simp [tokenIds]
    have spec : ∀ all ∈ s.state.logprobs,
        all.take s.tokenIds.length ++ lastItems all (s.state.due newTokenIds).length = all ∧
          (lastItems all (s.state.due newTokenIds).length).length =
            (s.state.due newTokenIds).length := by
      intro all mem
      have total := congrArg length owes.tokens
      rw [length_append, ← (owes.rows all mem).1] at total
      refine lastItems_spec ?_ total
      simpa [deferred, mem_def.mp mem] using ready
    rw [delivered]
    generalize reached : ({ s.state with
      outputKind := .delta
      detokenizer
      sentTokensOffset := if 1 < s.state.streamInterval then s.state.numOutputTokens
        else s.state.sentTokensOffset } : RequestState σ L) = state at *
    have same : state.outputTokenIds = s.state.outputTokenIds := by
      subst reached
      exact congrArg (drop _) kept
    have number : s.state.numOutputTokens = s.state.outputTokenIds.length := (length_drop ..).symm
    have paid : state.due [] = [] := by
      rw [RequestState.due, same]
      subst reached
      split <;> simp [*]
    subst reached
    refine ⟨rfl, ?_, ?_, ?_, ?_, ?_, ?_, fun _ => paid⟩
    · exact kept ▸ owes.prompt
    · intro runs p mem
      obtain ⟨had, kind, known⟩ := child p mem
      obtain ⟨p, had⟩ := ne_none_iff_exists'.mp had
      have fixed := (owes.child live p had).2.2
      exact ⟨kind, known ((running runs).resolve_right (by simp [fixed])), fixed⟩
    · rw [paid, append_nil, same]
      exact tokens
    · intro interval
      simp only [if_pos interval, number, ← tokens]
      rfl
    · intro all mem
      have asked : s.state.logprobs = some all := mem
      obtain ⟨rows, taken⟩ := owes.rows all mem
      refine ⟨rows.trans (congrArg length same).symm, ?_⟩
      rw [tokenIds, tokens, take_of_length_le rows.le]
      simpa [taken, logprobs, asked] using (spec all mem).1
    · intro prior mem
      rcases mem_append.mp mem with mem | mem
      · exact owes.each prior mem
      · obtain rfl := mem_singleton.mp mem
        rw [logprobs, ids, Option.map_map]
        exact map_congr fun all mem => (spec all mem).2

theorem updateSampleLogprobs_ok {old : Option (List L)}
    (ran : updateSampleLogprobs old rows = .ok logprobs) :
    logprobs = old.map (· ++ rows.getD []) := by
  cases old <;> cases rows <;> cases ran <;> simp

/-- The new tokens of an engine output are due. -/
theorem Owes.update (owes : s.Owes [])
    (rows : s.state.logprobs.isSome → (newLogprobs.getD []).length = newTokenIds.length)
    (updated : s.state.detokenizer.update s.state.params decodeNext newTokenIds stopped =
      .ok (stopString, detokenizer))
    (sampled : updateSampleLogprobs s.state.logprobs newLogprobs = .ok logprobs) :
    let state := { s.state with detokenizer, logprobs }
    state.due newTokenIds = s.state.due [] ++ newTokenIds ∧
      Owes { s with state, finished := false } newTokenIds := by
  obtain rfl := updateSampleLogprobs_ok sampled
  intro state
  have tokens : state.outputTokenIds = s.state.outputTokenIds ++ newTokenIds := by
    unfold RequestState.outputTokenIds
    rw [Detokenizer.update_tokenIds updated, drop_append_of_le_length owes.prompt]
  have sent := congrArg length owes.tokens
  rw [length_append] at sent
  have due : state.due newTokenIds = s.state.due [] ++ newTokenIds := by
    rw [RequestState.due, RequestState.due, tokens]
    split
    · rename_i interval
      rw [drop_append_of_le_length (by have := owes.offset interval; grind)]
    · rfl
  have grown := Detokenizer.update_tokenIds updated
  refine ⟨due, owes.delta, ?_, owes.child, ?_, owes.offset, ?_, ?_, by simp⟩
  · rw [grown, length_append]
    exact Nat.le_add_right_of_le owes.prompt
  · rw [due, tokens, ← owes.tokens]
    exact (append_assoc ..).symm
  · intro all mem
    have grows : s.state.logprobs.map (· ++ newLogprobs.getD []) = some all := mem
    obtain ⟨old, asked, rfl⟩ := map_eq_some_iff.mp grows
    obtain ⟨length, taken⟩ := owes.rows old asked
    refine ⟨?_, taken.trans (take_append_of_le_length ?_).symm⟩
    · rw [tokens, length_append, length_append, length, rows (by simp [asked])]
    · exact length ▸ sent ▸ Nat.le_add_right ..
  · intro output mem
    simp [state, owes.each output mem, Function.comp_def]

theorem Owes.exec (owes : s.Owes []) (allowed : s.Allowed op)
    (ran : s.exec decodeNext op = .ok next) : next.Owes [] := by
  cases op with
  | siblings childRequests =>
    cases ran
    refine { owes with child := ?_ }
    intro live parent mem
    obtain ⟨p, known, rfl⟩ := map_eq_some_iff.mp mem
    obtain ⟨kind, child, fixed⟩ := owes.child live p known
    exact ⟨kind, allowed p known child, fixed⟩
  | streamingInput more =>
    cases ran
    have alone : s.parent = none := allowed
    exact { owes with child := by simp [alone] }
  | abort =>
    cases live : s.live with
    | false =>
      simp only [exec, live] at ran
      cases ran
      exact owes
    | true =>
      simp only [exec, live] at ran
      obtain ⟨⟨requestOutput, state, parent⟩, aborted, ran⟩ := bind_ok ran
      cases ran
      unfold RequestState.abort at aborted
      unfold Allowed at allowed
      split at aborted
      · rename_i queue
        rw [if_pos queue] at allowed
        exact owes.deliver live (allowed.imp_right .inl) (by simp) rfl rfl aborted
      · rename_i queue
        rw [if_neg queue] at allowed
        cases aborted
        have same : s.deliver none = s.delivered := append_nil _
        rw [same]
        exact { owes with
          child := by simp
          all := fun _ => allowed }
  | processOutput output =>
    cases live : s.live with
    | false =>
      simp only [exec, live] at ran
      cases ran
      exact owes
    | true =>
      simp only [exec, live] at ran
      obtain ⟨⟨_, requestOutput, state, parent⟩, processed, ran⟩ := bind_ok ran
      obtain ⟨⟨_, _⟩, updated, processed⟩ := bind_ok processed
      obtain ⟨logprobs, sampled, processed⟩ := bind_ok processed
      obtain ⟨⟨made, state, parent⟩, made', processed⟩ := bind_ok processed
      cases ran
      cases processed
      obtain ⟨due, owes⟩ := owes.update allowed.1 updated sampled
      refine owes.deliver live ?_ (by simp) rfl ?_ made'
      · by_cases none : s.state.due [] ++ output.newTokenIds = []
        · have empty : output.newTokenIds = [] := (append_eq_nil_iff.mp none).2
          rcases allowed.2.resolve_left (not_not.mpr none) with _ | ⟨interval, sent, runs⟩
          · refine .inr (.inl ?_)
            have rows := allowed.1
            rw [updateSampleLogprobs_ok sampled]
            cases asked : s.state.logprobs <;> simp_all
          · refine .inr (.inr ⟨interval, ?_, sent, ?_⟩)
            · rw [empty] at updated
              cases updated
              exact runs
            · rw [none, RequestState.due, if_pos interval] at due
              have drained := congrArg length due
              simp only [RequestState.outputTokenIds, length_drop] at drained
              exact lt_of_eq_of_lt drained (Nat.zero_lt_one.trans interval)
        · exact .inl (due ▸ none)
      · cases made <;> rfl

def asking (streamInterval : Nat) (hasQueue : Bool) : Deltas Unit Nat where
  state := ⟨"r", "r", 0, .delta, ⟨.absent, 0, false, 0, by simp [StopParam.toList]⟩,
    { tokenIds := [], decoder := () }, some [], streamInterval, 0, hasQueue, false⟩
  parent := none

end Deltas
end Vllm
