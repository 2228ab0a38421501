import Vllm.V2.Runner
import Vllm.Lib.Run

/-! The second model runner feeds the model the true tokens: the arrays of the slots follow
the sequences of the requests through every run. -/
namespace Vllm.V2
open List hiding next
open Segments Launch Function Py Dict Option

/-- What a request is: its tokens, of which the first `prefillLen` came with it, how many of
them are computed, and the drafts of its next tokens. -/
structure Sequence where
  prefillLen : Nat
  tokens : List TokenId
  numComputed : Nat
  drafts : Nat → TokenId

namespace Sequence

section
variable (cfg : Config) (seq : Sequence) (n numDrafts : Nat) (sampled : List TokenId)

/-- The token at a position: a draft after the last token. -/
def tokenAt (position : Nat) : TokenId :=
  seq.tokens.getD position (seq.drafts (position - seq.tokens.length))

/-- A step computes `n` tokens; what is sampled before the end of the prefill is dropped. -/
def advance (drafts : Nat → TokenId) : Sequence where
  prefillLen := seq.prefillLen
  tokens := if seq.numComputed + n < seq.prefillLen then seq.tokens
    else seq.tokens ++ sampled
  numComputed := if seq.numComputed < seq.prefillLen then seq.numComputed + n
    else seq.numComputed + sampled.length
  drafts := drafts

/-- All tokens but the last one are computed once the prefill is done. -/
structure Ok : Prop where
  phase : seq.numComputed < seq.prefillLen ∧ seq.tokens.length = seq.prefillLen ∨
    seq.prefillLen ≤ seq.numComputed ∧ seq.tokens.length = seq.numComputed + 1
  fits : seq.tokens.length ≤ cfg.maxModelLen

/-- A chunk of a prefill, or the last token and drafts; the sampler accepts some of them. -/
structure Allows : Prop where
  positive : 0 < n
  shape : seq.numComputed < seq.prefillLen ∧ numDrafts = 0 ∧
      seq.numComputed + n ≤ seq.prefillLen ∨
    seq.prefillLen ≤ seq.numComputed ∧ n = numDrafts + 1
  drafts : numDrafts ≤ cfg.numSpeculativeSteps
  accepted : 0 < sampled.length ∧ sampled.length ≤ numDrafts + 1
  fits : seq.tokens.length + sampled.length ≤ cfg.maxModelLen

end

variable {cfg : Config} {seq : Sequence} {n : Nat} {sampled : List TokenId}

/-- Either the prefill goes on, or the sampled tokens are kept and the rejected ones are not
computed. -/
theorem Allows.advance (allows : Allows cfg seq n numDrafts sampled)
    (drafts : Nat → TokenId) :
    seq.numComputed + n < seq.prefillLen ∧ seq.advance n sampled drafts =
        { seq with numComputed := seq.numComputed + n, drafts := drafts } ∨
      seq.prefillLen ≤ seq.numComputed + n ∧ seq.advance n sampled drafts =
        { seq with
          tokens := seq.tokens ++ sampled
          numComputed := seq.numComputed + n - (numDrafts + 1 - sampled.length)
          drafts := drafts } := by
  have bounds := allows.accepted
  rw [Sequence.advance]
  rcases allows.shape with ⟨early, _, -⟩ | ⟨_, _⟩
  · rw [if_pos early]
    by_cases more : seq.numComputed + n < seq.prefillLen
    · rw [if_pos more]
      exact .inl ⟨more, rfl⟩
    · rw [if_neg more, show numDrafts + 1 - sampled.length = 0 by omega]
      exact .inr ⟨by omega, rfl⟩
  · rw [if_neg (by omega), if_neg (by omega),
      show seq.numComputed + n - (numDrafts + 1 - sampled.length) =
        seq.numComputed + sampled.length by omega]
    exact .inr ⟨by omega, rfl⟩

theorem Ok.advance {drafts : Nat → TokenId} (ok : Ok cfg seq)
    (allows : Allows cfg seq n numDrafts sampled) :
    Ok cfg (seq.advance n sampled drafts) := by
  have bounds := allows.accepted
  have fits := allows.fits
  have room := ok.fits
  rcases allows.advance drafts with ⟨more, same⟩ | ⟨_, same⟩
  · rw [same]
    refine ⟨.inl ⟨more, ?_⟩, room⟩
    rcases ok.phase with ⟨-, length⟩ | ⟨late, -⟩
    · exact length
    · omega
  · rw [same]
    refine ⟨.inr ⟨?_, ?_⟩, ?_⟩ <;> simp only [length_append] <;>
    rcases ok.phase with ⟨_, length⟩ | ⟨_, length⟩ <;>
    rcases allows.shape with ⟨_, _, _⟩ | ⟨late, _⟩ <;> omega

end Sequence

structure Represents (slot : Slot) (seq : Sequence) : Prop where
  prefillLen : slot.prefillLen = seq.prefillLen
  totalLen : slot.totalLen = seq.tokens.length
  numComputed : slot.numComputedTokens = seq.numComputed
  prefilled : slot.numComputedPrefillTokens = min seq.numComputed seq.prefillLen
  tokens : ∀ i token, seq.tokens[i]? = some token → slot.allTokenIds i = token
  last : seq.prefillLen ≤ seq.numComputed →
    seq.tokens.getLast? = some slot.lastSampledToken ∧ slot.draftTokens = seq.drafts

/-- What a client and the scheduler know of the requests. -/
abbrev Truth := String → Option Sequence

structure Faithful (cfg : Config) (states : RequestState) (truth : Truth) : Prop where
  known : ∀ reqId, (states.reqIdToIndex.get? reqId).isSome = (truth reqId).isSome
  slots : ∀ reqId reqIdx seq, states.reqIdToIndex.get? reqId = some reqIdx →
    truth reqId = some seq → seq.Ok cfg ∧ Represents (states.slots reqIdx) seq
  apart : ∀ reqId other reqIdx, states.reqIdToIndex.get? reqId = some reqIdx →
    states.reqIdToIndex.get? other = some reqIdx → reqId = other
  free : states.freeIndices.Nodup ∧ ∀ reqId reqIdx,
    states.reqIdToIndex.get? reqId = some reqIdx → reqIdx ∉ states.freeIndices

/-- Where the tokens and the logits of each request of a batch are. -/
structure LaidOut (states : RequestState) (output : SchedulerOutput) (layout : Layout) : Prop where
  entries : layout.requests.Perm output.numScheduledTokens.entries
  indices : layout.idxMapping.length = layout.numReqs
  index : ∀ b req, layout.requests[b]? = some req →
    states.reqIdToIndex.get? req.1 = some (layout.idx b)
  logits : ∀ b ≤ layout.numReqs, layout.logitsStart b =
    offset (layout.requests.map (fun req => output.numDraftTokens req.1 + 1)) b

theorem getD_starts (lens : List Nat) (b : Nat) : (0 :: cumsum lens).getD b lens.sum = offset lens b := by
  cases b with
  | zero => simp
  | succ b =>
    rw [getD_cons_succ, getD_eq_getElem?_getD]
    by_cases inside : b < lens.length
    · rw [getElem?_cumsum inside]
      rfl
    · rw [getElem?_eq_none (by simpa using inside), offset, take_of_length_le (by omega)]
      rfl

/-- Each request of the batch has its slot, and the logits stand one request after the other. -/
theorem layoutOf_ok (pos : 0 < output.numScheduledTokens.values.sum)
    (known : ∀ req ∈ output.numScheduledTokens.entries, (states.reqIdToIndex.get?
      req.1).isSome) :
    ∃ layout, layoutOf states output = .ok layout ∧ LaidOut states output layout := by
  have perm := perm_insertionSort (fun a b : String × Nat => a.2 ≤ b.2)
    output.numScheduledTokens.entries
  generalize sorts : output.numScheduledTokens.entries.insertionSort (fun a b => a.2 ≤ b.2) =
    requests at perm
  have there : ∀ req ∈ requests, states.reqIdToIndex.get? req.1 =
      some ((states.reqIdToIndex.get? req.1).getD 0) := by
    intro req mem
    obtain ⟨_, found⟩ := isSome_iff_exists.mp (known req (perm.mem_iff.mp mem))
    rw [found, getD_some]
  have mapped : requests.mapM (fun req => states.index req.1) =
      .ok (requests.map (fun req => (states.reqIdToIndex.get? req.1).getD 0)) := by
    refine mapM_ok (fun req mem => ?_)
    rw [RequestState.index, there req mem]
    rfl
  simp only [layoutOf, sorts, mapped]
  rw [assert_bind (by simpa using pos)]
  refine ⟨_, rfl, perm, by simp [Layout.numReqs], ?_, ?_⟩
  · intro b req found
    rw [there req (mem_of_getElem? found), Layout.idx, getD_eq_getElem?_getD,
      getElem?_map, show requests[b]? = some req from found]
    rfl
  · intro b le
    simp only [Layout.logitsStart, Layout.numReqs] at le ⊢
    split
    · rename_i empty
      have noDrafts : ∀ reqId, output.numDraftTokens reqId = 0 := by
        intro reqId
        rw [SchedulerOutput.numDraftTokens, get?, empty]
        rfl
      simp [noDrafts, offset, le]
    · rw [getD_eq_getElem?_getD, ← getD_starts, getD_eq_getElem?_getD,
        getElem?_eq_getElem (by simpa using Nat.lt_succ_of_le le)]
      rfl

variable {cfg : Config} {states : RequestState} {output : SchedulerOutput} {layout : Layout}
  {truth : Truth} {b n : Nat} {reqId : String} {seq : Sequence}

section Rows
variable {other j : Nat} {sampled : List TokenId}

theorem queryStartLoc_eq (layout : Layout) (b : Nat) :
    layout.queryStartLoc b = offset layout.numScheduledTokens b := getD_starts _ b

theorem queryStartLoc_add (layout : Layout) (b : Nat) :
    layout.queryStartLoc b + layout.queryLen b = layout.queryStartLoc (b + 1) := by
  have le : offset layout.numScheduledTokens b ≤ offset layout.numScheduledTokens (b + 1) :=
    offset_mono (Nat.le_succ b)
  rw [Layout.queryLen, queryStartLoc_eq, queryStartLoc_eq]
  omega

/-- The tokens of two requests do not overlap. -/
theorem queryStartLoc_apart (differ : other ≠ b) (inside : j < layout.queryLen b) :
    layout.queryStartLoc b + j < layout.queryStartLoc other ∨
      layout.queryStartLoc other + layout.queryLen other ≤ layout.queryStartLoc b + j := by
  have here := queryStartLoc_add layout b
  rw [queryStartLoc_add]
  simp only [queryStartLoc_eq] at here ⊢
  exact offset_apart differ (Nat.le_add_right _ _) (by omega)

theorem Layout.len_eq (found : layout.requests[b]? = some (reqId, n)) :
    layout.numScheduledTokens.getD b 0 = n ∧ layout.queryLen b = n := by
  have count : layout.numScheduledTokens[b]? = some n := by
    rw [numScheduledTokens, getElem?_map, found]
    rfl
  constructor
  · rw [getD_eq_getElem?_getD, count]
    rfl
  · rw [queryLen, queryStartLoc_eq, queryStartLoc_eq, offset_succ count]
    omega

structure Row (states : RequestState) (output : SchedulerOutput) (layout : Layout) (b : Nat)
    (reqId : String) (n : Nat) : Prop where
  inside : b < layout.numReqs
  slot : states.reqIdToIndex.get? reqId = some (layout.idx b)
  listed : output.numScheduledTokens.get? reqId = some n
  count : layout.numScheduledTokens.getD b 0 = n
  queryLen : layout.queryLen b = n
  numLogits : layout.numLogits b = output.numDraftTokens reqId + 1

section
variable (laid : LaidOut states output layout)
include laid

theorem LaidOut.row
    (found : layout.requests[b]? = some (reqId, n)) : Row states output layout b reqId n := by
  obtain ⟨inside, -⟩ := List.getElem?_eq_some_iff.mp found
  obtain ⟨count, queryLen⟩ := Layout.len_eq found
  refine ⟨inside, laid.index b _ found, get?_eq_some.mpr
    (laid.entries.mem_iff.mp (mem_of_getElem? found)), count, queryLen, ?_⟩
  rw [Layout.numLogits, laid.logits (b + 1) inside, laid.logits b (le_of_lt inside),
    offset_succ (n := output.numDraftTokens reqId + 1) (by rw [getElem?_map, found]; rfl)]
  omega

theorem LaidOut.idx_mem (inside : b < layout.numReqs) : layout.idx b ∈ layout.idxMapping := by
  rw [Layout.idx, getD_eq_getElem?_getD, getElem?_eq_getElem (laid.indices ▸ inside)]
  exact getElem_mem _

/-- Two requests of the batch have different slots. -/
theorem LaidOut.idx_ne (faithful : Faithful cfg states truth)
    (inside : b < layout.numReqs) (inside' : other < layout.numReqs) (differ : other ≠ b) :
    layout.idx other ≠ layout.idx b := by
  intro same
  have ids : (layout.requests.map Prod.fst).Nodup :=
    (laid.entries.map Prod.fst).nodup_iff.mpr output.numScheduledTokens.nodup
  have place : ∀ {i}, (inside : i < layout.numReqs) → layout.requests[i]? = some _ :=
    fun inside => getElem?_eq_getElem inside
  have here := laid.index b _ (place inside)
  have there := laid.index other _ (place inside')
  rw [same] at there
  refine differ ((getElem?_inj (by simpa [Layout.numReqs] using inside') ids).mp ?_)
  rw [getElem?_map, getElem?_map, place inside, place inside']
  exact congrArg some (faithful.apart _ _ _ there here)

/-- The logits of two requests do not overlap. -/
theorem LaidOut.logitsStart_apart
    (row : Row states output layout b reqId n) (inside : other < layout.numReqs) (differ : other ≠ b)
    (le : i ≤ output.numDraftTokens reqId) : layout.logitsStart b + i < layout.logitsStart other ∨
      layout.logitsStart other + layout.numLogits other ≤ layout.logitsStart b + i := by
  have own := row.numLogits
  have here := laid.logits b (le_of_lt row.inside)
  have there := laid.logits other (le_of_lt inside)
  have next := laid.logits (other + 1) inside
  have apart : layout.logitsStart b + i < layout.logitsStart other ∨
      layout.logitsStart (other + 1) ≤ layout.logitsStart b + i := by
    rw [there, next]
    refine offset_apart differ (by omega) ?_
    rw [← laid.logits (b + 1) row.inside]
    rw [Layout.numLogits] at own
    omega
  rw [Layout.numLogits]
  omega

end

variable (row : Row states output layout b reqId n)
  (rep : Represents (states.slots (layout.idx b)) seq)
include row rep

theorem prefill_inputs (inside : j < n) (early : seq.numComputed < seq.prefillLen) :
    (launch (preparePrefillInputsKernel states.slots layout) layout.numReqs memory).1
      (layout.queryStartLoc b + j) =
      (states.slots (layout.idx b)).allTokenIds (seq.numComputed + j) := by
  refine launch_own (fun memory => memory.1 (layout.queryStartLoc b + j)) (fun _ =>
    (states.slots (layout.idx b)).allTokenIds (seq.numComputed + j)) memory row.inside ?_ ?_
  · intro memory
    rw [preparePrefillInputsKernel, rep.prefillLen, rep.numComputed]
    simp only [if_neg (show ¬ seq.numComputed ≥ seq.prefillLen by omega)]
    exact store_inside (row.queryLen ▸ inside)
  · intro _ _ differ memory
    simp only [preparePrefillInputsKernel]
    split
    · rfl
    · simp only
      exact store_outside (queryStartLoc_apart differ (row.queryLen ▸ inside))

theorem pos_inputs (inside : j < n) :
    (launch (preparePosSeqLensKernel cfg states.slots layout) (layout.numReqs + 1) memory).1
      (layout.queryStartLoc b + j) = seq.numComputed + j := by
  refine launch_own (fun memory => memory.1 (layout.queryStartLoc b + j))
    (fun _ => seq.numComputed + j) memory (Nat.lt_succ_of_lt row.inside) ?_ ?_
  · intro memory
    rw [preparePosSeqLensKernel, if_neg (Nat.ne_of_lt row.inside), rep.numComputed]
    exact store_inside (row.queryLen ▸ inside)
  · intro _ _ differ memory
    rw [preparePosSeqLensKernel]
    split
    · rfl
    · exact store_outside (queryStartLoc_apart differ (row.queryLen ▸ inside))

theorem seqLens_inputs (cfg : Config) (memory : (Nat → Nat) × (Nat → Nat)) :
    (launch (preparePosSeqLensKernel cfg states.slots layout) (layout.numReqs + 1) memory).2 b =
      seq.numComputed + n := by
  refine launch_own (fun memory => memory.2 b) (fun _ => seq.numComputed + n) memory
    (Nat.lt_succ_of_lt row.inside) ?_ ?_
  · intro memory
    rw [preparePosSeqLensKernel, if_neg (Nat.ne_of_lt row.inside), rep.numComputed, row.queryLen]
    exact update_self ..
  · intro _ _ differ memory
    rw [preparePosSeqLensKernel]
    split <;> simp only
    · exact store_outside (.inl row.inside)
    · exact update_of_ne differ.symm ..

variable (allows : seq.Allows cfg n (output.numDraftTokens reqId) sampled)
  {seqLens : Nat → Nat}
include allows

omit row rep in
theorem block_wide :
    output.numDraftTokens reqId + 1 ≤ 2 ^ Nat.clog 2 (cfg.numSpeculativeSteps + 1) :=
  (Nat.succ_le_succ allows.drafts).trans (Nat.le_pow_clog (by decide) _)

omit rep in
theorem logits_inputs (laid : LaidOut states output layout) (le : i ≤ output.numDraftTokens reqId) :
    (launch (fun b => combineSampledAndDraftTokensKernel cfg states.slots layout b seqLens)
      layout.numReqs memory).2 (layout.logitsStart b + i) =
      layout.queryStartLoc (b + 1) - (output.numDraftTokens reqId + 1) + i := by
  have block := block_wide allows
  refine launch_own (fun memory => memory.2 (layout.logitsStart b + i)) (fun _ =>
    layout.queryStartLoc (b + 1) - (output.numDraftTokens reqId + 1) + i) memory row.inside ?_ ?_
  · intro memory
    rw [combineSampledAndDraftTokensKernel, row.numLogits]
    split <;> exact store_inside (by omega)
  · intro other inside differ memory
    have apart := laid.logitsStart_apart row inside differ le
    rw [combineSampledAndDraftTokensKernel]
    split <;> exact store_outside (by omega)

variable (inside : j < n)
  (fit : ∀ b < layout.numReqs, 0 < layout.numLogits b ∧ layout.numLogits b ≤ layout.queryLen b)
  (length : seqLens b = seq.numComputed + n)
include inside fit length

theorem combined_inputs :
    (launch (fun b => combineSampledAndDraftTokensKernel cfg states.slots layout b seqLens)
      layout.numReqs memory).1 (layout.queryStartLoc b + j) =
      if seq.numComputed < seq.prefillLen then memory.1 (layout.queryStartLoc b + j)
      else if j = 0 then (states.slots (layout.idx b)).lastSampledToken
      else (states.slots (layout.idx b)).draftTokens (j - 1) := by
  have block := block_wide allows
  have stop := queryStartLoc_add layout b
  rw [row.queryLen] at stop
  refine launch_own (fun memory => memory.1 (layout.queryStartLoc b + j)) (fun before =>
    if seq.numComputed < seq.prefillLen then before
      else if j = 0 then (states.slots (layout.idx b)).lastSampledToken
      else (states.slots (layout.idx b)).draftTokens (j - 1)) memory row.inside ?_ ?_
  · intro memory
    rw [combineSampledAndDraftTokensKernel, row.numLogits, length, rep.prefillLen, ← stop]
    rcases allows.shape with ⟨early, -, chunk⟩ | ⟨_, rfl⟩
    · rw [if_pos chunk, if_pos early]
    · rw [if_neg (by omega), if_neg (by omega)]
      cases j with
      | zero =>
        refine (store_outside (.inl (by omega))).trans ?_
        rw [Nat.add_sub_cancel]
        exact update_self ..
      | succ j =>
        have place : layout.queryStartLoc b + (j + 1) = layout.queryStartLoc b +
            (output.numDraftTokens reqId + 1) - (output.numDraftTokens reqId + 1 - 1) + j := by
          omega
        rw [place]
        exact store_inside (by omega)
  · intro other below differ memory
    have apart := queryStartLoc_apart differ (row.queryLen ▸ inside)
    have width := queryStartLoc_add layout other
    have logits := fit other below
    rw [combineSampledAndDraftTokensKernel]
    split
    · rfl
    · refine (store_outside (by omega)).trans ?_
      exact update_of_ne (by omega) ..

/-- The tokens of the request, and after the last one its drafts. -/
theorem true_inputs (ok : seq.Ok cfg)
    (prefilled : seq.numComputed < seq.prefillLen → memory.1 (layout.queryStartLoc b + j) =
      (states.slots (layout.idx b)).allTokenIds (seq.numComputed + j)) :
    (launch (fun b => combineSampledAndDraftTokensKernel cfg states.slots layout b seqLens)
      layout.numReqs memory).1 (layout.queryStartLoc b + j) =
      seq.tokenAt (seq.numComputed + j) := by
  rw [combined_inputs row rep allows inside fit length, Sequence.tokenAt]
  rcases ok.phase with ⟨early, total⟩ | ⟨late, total⟩
  · rw [if_pos early, prefilled early]
    have chunk : seq.numComputed + j < seq.tokens.length := by
      rcases allows.shape with ⟨-, -, chunk⟩ | ⟨late, -⟩ <;> omega
    rw [getD_eq_getElem?_getD, getElem?_eq_getElem chunk]
    exact rep.tokens _ _ (getElem?_eq_getElem chunk)
  · rw [if_neg (by omega)]
    obtain ⟨last, drafts⟩ := rep.last late
    cases j with
    | zero =>
      rw [getLast?_eq_getElem?, total, Nat.add_sub_cancel] at last
      rw [Nat.add_zero, getD_eq_getElem?_getD, last]
      rfl
    | succ j =>
      rw [getD_eq_getElem?_getD, getElem?_eq_none (by omega), drafts]
      exact congrArg seq.drafts (by omega)

end Rows

structure Valid (cfg : Config) (truth : Truth) (output : SchedulerOutput)
    (sampled : String → List TokenId) : Prop where
  nonempty : output.numScheduledTokens.entries ≠ []
  each : ∀ reqId n, output.numScheduledTokens.get? reqId = some n → ∃ seq,
    truth reqId = some seq ∧
    seq.Allows cfg n (output.numDraftTokens reqId) (sampled reqId)

/-- The batch has every scheduled request once, with its tokens at their positions. -/
structure TrueInputs (truth : Truth) (output : SchedulerOutput) (batch : InputBatch) : Prop where
  requests : batch.requests.Perm output.numScheduledTokens.entries
  rows : ∀ b reqId n seq, batch.requests[b]? = some (reqId, n) → truth reqId = some seq →
    batch.queryStartLoc (b + 1) = batch.queryStartLoc b + n ∧
    (∀ j < n, batch.inputIds (batch.queryStartLoc b + j) =
        seq.tokenAt (seq.numComputed + j) ∧
      batch.positions (batch.queryStartLoc b + j) = seq.numComputed + j) ∧
    batch.seqLens b = seq.numComputed + n ∧
    ∀ i ≤ output.numDraftTokens reqId, batch.logitsIndices (batch.logitsStart b + i) =
      batch.queryStartLoc (b + 1) - (output.numDraftTokens reqId + 1) + i

/-- What a request that is not scheduled keeps, and what one that is scheduled becomes. -/
def Truth.advance (truth : Truth) (output : SchedulerOutput) (sampled : String → List TokenId)
    (drafts : String → Nat → TokenId) : Truth := fun reqId =>
  match output.numScheduledTokens.get? reqId with
  | none => truth reqId
  | some n => (truth reqId).map (·.advance n (sampled reqId) (drafts reqId))

section Step
variable {runner : Runner} {batch : InputBatch} {slots : Nat → Slot} {accepted : List TokenId}
  {sampled : String → List TokenId} {drafts : String → Nat → TokenId}

theorem LaidOut.served (laid : LaidOut states output layout)
    (faithful : Faithful cfg states truth) (valid : Valid cfg truth output sampled)
    (found : layout.requests[b]? = some (reqId, n)) :
    Row states output layout b reqId n ∧ ∃ seq, truth reqId = some seq ∧
      seq.Allows cfg n (output.numDraftTokens reqId) (sampled reqId) ∧
      seq.Ok cfg ∧ Represents (states.slots (layout.idx b)) seq := by
  have row := laid.row found
  obtain ⟨seq, present, allows⟩ := valid.each reqId n row.listed
  exact ⟨row, seq, present, allows, faithful.slots reqId _ seq row.slot present⟩

/-- The kernel of the prefills only notes their next tokens in the slots. -/
theorem prefill_slots (memory : (Nat → TokenId) × (Nat → Slot)) (numReqs : Nat) (reqIdx : Nat)
    (rep : Represents (memory.2 reqIdx) seq) :
    Represents ((launch (preparePrefillInputsKernel slots layout) numReqs memory).2 reqIdx) seq := by
  induction numReqs with
  | zero => exact rep
  | succ numReqs ih =>
    simp only [launch, preparePrefillInputsKernel]
    split
    · exact ih
    simp only
    split
    · by_cases same : reqIdx = layout.idx numReqs
      · rw [← same, update_self]
        exact { ih with }
      · rw [update_of_ne same]
        exact ih
    · exact ih

theorem prepareInputs_ok (faithful : Faithful cfg runner.states truth)
    (valid : Valid cfg truth output sampled) :
    ∃ batch prepared, prepareInputs cfg runner output = .ok (batch, prepared) ∧
      Faithful cfg prepared.states truth ∧ LaidOut prepared.states output batch.toLayout ∧
      TrueInputs truth output batch := by
  obtain ⟨layout, made, laid⟩ : ∃ layout, layoutOf runner.states output = .ok layout ∧
      LaidOut runner.states output layout := by
    apply layoutOf_ok
    · obtain ⟨⟨reqId, n⟩, _, whole⟩ := exists_cons_of_ne_nil valid.nonempty
      obtain ⟨seq, -, allows⟩ := valid.each reqId n
        (get?_eq_some.mpr (by rw [whole]; exact mem_cons_self ..))
      have pos := allows.positive
      rw [values, whole, map_cons, sum_cons]
      omega
    · rintro ⟨reqId, n⟩ mem
      obtain ⟨seq, present, -⟩ := valid.each reqId n (get?_eq_some.mpr mem)
      rw [faithful.known reqId, present]
      rfl
  have fit : ∀ b < layout.numReqs, 0 < layout.numLogits b ∧ layout.numLogits b ≤ layout.queryLen b := by
    intro b inside
    obtain ⟨row, seq, -, allows, -⟩ := laid.served faithful valid (getElem?_eq_getElem inside)
    have pos := allows.positive
    rw [row.numLogits, row.queryLen]
    rcases allows.shape with ⟨-, _, -⟩ | ⟨-, _⟩ <;> omega
  refine ⟨_, _, by rw [prepareInputs, made]; rfl, ?_,
    { laid with }, laid.entries, ?_⟩
  · refine { faithful with slots := fun reqId reqIdx seq found present => ?_ }
    obtain ⟨ok, slot⟩ := faithful.slots reqId reqIdx seq found present
    refine ⟨ok, ?_⟩
    split
    · exact prefill_slots (runner.buffers.inputIds, runner.states.slots) _ reqIdx slot
    · exact slot
  · intro b reqId n seq found present
    obtain ⟨row, _, present', allows, ok, rep⟩ := laid.served faithful valid found
    cases present.symm.trans present'
    have length := seqLens_inputs row rep cfg (runner.buffers.positions, runner.buffers.seqLens)
    refine ⟨?_, fun j inside => ⟨?_, pos_inputs row rep inside⟩, length,
      fun i le => logits_inputs row allows laid le⟩
    · exact (queryStartLoc_add layout b).symm.trans (by rw [row.queryLen])
    · refine true_inputs row rep allows inside fit length ok ?_
      intro early
      have prefills : anyPrefills runner.states.slots layout = true := by
        refine any_eq_true.mpr ⟨layout.idx b, laid.idx_mem row.inside, ?_⟩
        rw [rep.prefilled, rep.prefillLen, decide_eq_true_eq]
        omega
      rw [if_pos prefills]
      exact prefill_inputs row rep inside early

/-- The slot of a request of the batch follows its sequence. -/
theorem postprocess_own (row : Row states output batch.toLayout b reqId n)
    (apart : ∀ other < batch.numReqs, other ≠ b → batch.idx other ≠ batch.idx b)
    (allows : seq.Allows cfg n (output.numDraftTokens reqId) accepted)
    (rep : Represents (slots (batch.idx b)) seq)
    (length : batch.seqLens b = seq.numComputed + n) (isAccepted : returned b = accepted)
    (drafts : Nat → Nat → TokenId) :
    Represents (writeDrafts batch (postprocess batch slots returned) drafts (batch.idx b))
      (seq.advance n accepted (drafts b)) := by
  simp only [writeDrafts, postprocess, comp_apply, scatter_own row.inside apart,
    countPrefillTokens, boundPrefillTokens, postUpdateKernel, isAccepted, row.count, row.queryLen,
    getNumSampledAndRejected, length, rep.prefillLen, row.numLogits, rep.totalLen,
    rep.numComputed, rep.prefilled]
  have bounds := allows.accepted
  rcases allows.advance (drafts b) with ⟨more, same⟩ | ⟨all, same⟩
  · rw [same]
    simp only [if_pos more]
    refine ⟨rfl, rfl, rfl, ?_, ?_, fun done => absurd done (Nat.not_le_of_lt more)⟩
    · simp only
      omega
    · intro i token found
      simp only
      exact (store_outside (by omega)).trans (rep.tokens i token found)
  · rw [same]
    simp only [if_neg (Nat.not_lt_of_le all), bounds.1]
    refine ⟨rfl, (length_append).symm, rfl, ?_, ?_, fun _ => ⟨?_, rfl⟩⟩
    · rcases allows.shape with ⟨_, _, _⟩ | ⟨_, _⟩ <;> simp only <;> omega
    · intro i token found
      simp only at found ⊢
      by_cases old : i < seq.tokens.length
      · rw [getElem?_append_left old] at found
        exact (store_outside (.inl old)).trans (rep.tokens i token found)
      · obtain ⟨k, rfl⟩ := Nat.exists_eq_add_of_le (Nat.le_of_not_lt old)
        rw [getElem?_append_right (Nat.le_add_right _ _), Nat.add_sub_cancel_left] at found
        refine (store_inside (List.getElem?_eq_some_iff.mp found).1).trans ?_
        rw [getD_eq_getElem?_getD, found]
        rfl
    · have found := getElem?_eq_getElem (show accepted.length - 1 < accepted.length by omega)
      rw [getLast?_append_of_ne_nil _ (by rintro rfl; simp at bounds), getLast?_eq_getElem?,
        getD_eq_getElem?_getD, found]
      rfl

/-- A slot outside the batch stays as it is. -/
theorem postprocess_absent (absent : ∀ b < batch.numReqs, batch.idx b ≠ reqIdx)
    (rep : Represents (slots reqIdx) seq) (returned : Nat → List TokenId)
    (drafts : Nat → Nat → TokenId) :
    Represents (writeDrafts batch (postprocess batch slots returned) drafts reqIdx) seq := by
  simp only [writeDrafts, postprocess, comp_apply, scatter_absent absent]
  refine { rep with prefilled := ?_ }
  simp only [boundPrefillTokens, rep.prefilled, rep.prefillLen]
  omega

/-- A step returns, feeds the model the true tokens, and keeps the slots faithful. -/
theorem Faithful.step (faithful : Faithful cfg runner.states truth)
    (valid : Valid cfg truth output sampled) :
    ∃ batch next, V2.step cfg runner output sampled drafts = .ok (batch, next) ∧
      TrueInputs truth output batch ∧
      Faithful cfg next.states (truth.advance output sampled drafts) := by
  obtain ⟨batch, _, made, here, laid, inputs⟩ := prepareInputs_ok faithful valid
  refine ⟨batch, _, by rw [V2.step, made]; rfl, inputs, ?_⟩
  refine ⟨?_, ?_, here.apart, here.free⟩
  · intro reqId
    simp only [here.known reqId, Truth.advance]
    split <;> simp
  · intro reqId reqIdx seq found present
    simp only [Truth.advance] at present
    split at present
    · rename_i unscheduled
      obtain ⟨ok, rep⟩ := here.slots reqId reqIdx seq found present
      refine ⟨ok, postprocess_absent ?_ rep _ _⟩
      rintro b inside rfl
      have row := (laid.served here valid (getElem?_eq_getElem inside)).1
      have listed := row.listed
      rw [here.apart _ _ _ row.slot found, unscheduled] at listed
      cases listed
    · rename_i n scheduled
      obtain ⟨before, was, rfl⟩ := map_eq_some_iff.mp present
      obtain ⟨b, place⟩ := mem_iff_getElem?.mp
        (laid.entries.mem_iff.mpr (get?_eq_some.mp scheduled))
      obtain ⟨row, _, was', allows, ok, rep⟩ := laid.served here valid place
      cases was.symm.trans was'
      cases found.symm.trans row.slot
      have name : ((batch.requests[b]?).map Prod.fst).getD "" = reqId := by
        rw [place]
        rfl
      have own := postprocess_own row
        (fun other inside differ => laid.idx_ne here row.inside inside differ) allows rep
        (inputs.rows b reqId n before place was).2.2.1
        (show (sampled ∘ fun b => ((batch.requests[b]?).map Prod.fst).getD "") b = _ by
          rw [comp_apply, name])
        (drafts ∘ fun b => ((batch.requests[b]?).map Prod.fst).getD "")
      rw [comp_apply, name] at own
      exact ⟨ok.advance allows, own⟩

theorem Faithful.addRequest (faithful : Faithful cfg states truth)
    (rest : computed < tokens.length) (fits : tokens.length ≤ cfg.maxModelLen)
    (ran : states.addRequest reqId promptLen tokens computed = .ok added) :
    Faithful cfg added (update truth reqId
      (some ⟨tokens.length, tokens, computed, fun _ => 0⟩)) := by
  rw [RequestState.addRequest] at ran
  split at ran
  · cases ran
  rename_i reqIdx last
  obtain ⟨-, ran⟩ := assert_bind_ok ran
  cases ran
  obtain ⟨_, isFront⟩ := getLast?_eq_some_iff.mp last
  obtain ⟨nodup, unused⟩ := faithful.free
  rw [isFront] at nodup unused
  have places : ∀ other otherIdx, (states.reqIdToIndex.set reqId reqIdx).get? other = some otherIdx →
      other = reqId ∧ otherIdx = reqIdx ∨ other ≠ reqId ∧ otherIdx ≠ reqIdx ∧
        states.reqIdToIndex.get? other = some otherIdx := by
    intro other otherIdx found
    rw [get?_set] at found
    split at found
    · exact .inl ⟨‹_›, (some.inj found).symm⟩
    · refine .inr ⟨‹_›, ?_, found⟩
      rintro rfl
      exact unused other _ found (by simp)
  constructor
  · intro other
    simp only [get?_set, update_apply]
    split
    · rfl
    · exact faithful.known other
  · intro other otherIdx seq found present
    rcases places other otherIdx found with ⟨rfl, rfl⟩ | ⟨differ, elsewhere, found⟩
    · rw [update_self] at present
      cases present
      simp only [update_self]
      refine ⟨⟨.inl ⟨rest, rfl⟩, fits⟩, rfl, rfl, rfl, (Nat.min_eq_left (Nat.le_of_lt rest)).symm, ?_,
        fun done => absurd done (Nat.not_le_of_lt rest)⟩
      intro i _ found
      have below := (List.getElem?_eq_some_iff.mp found).1
      simp only at below found ⊢
      rw [store, if_pos (by omega), getD_eq_getElem?_getD, Nat.sub_zero, found]
      rfl
    · rw [update_of_ne differ] at present
      simp only [update_of_ne elsewhere]
      exact faithful.slots other otherIdx seq found present
  · intro one other otherIdx found found'
    rcases places one otherIdx found with ⟨rfl, rfl⟩ | ⟨-, elsewhere, found⟩ <;>
    rcases places other _ found' with ⟨same, here⟩ | ⟨-, elsewhere', found'⟩
    · exact same.symm
    · exact absurd rfl elsewhere'
    · exact absurd here elsewhere
    · exact faithful.apart one other otherIdx found found'
  · simp only [isFront, dropLast_concat]
    refine ⟨(nodup_append.mp nodup).1, ?_⟩
    intro other otherIdx found mem
    rcases places other otherIdx found with ⟨rfl, rfl⟩ | ⟨-, -, found⟩
    · exact disjoint_of_nodup_append nodup mem (mem_singleton_self _)
    · exact unused other otherIdx found (mem_append_left _ mem)

theorem Faithful.removeRequest (faithful : Faithful cfg states truth) (reqId : String) :
    Faithful cfg (states.removeRequest reqId) (update truth reqId none) := by
  rw [RequestState.removeRequest]
  cases found : states.reqIdToIndex.get? reqId with
  | none =>
    have unknown : truth reqId = none := by
      have known := faithful.known reqId
      rw [found] at known
      exact not_isSome_iff_eq_none.mp (by simp [← known])
    rw [← unknown, update_eq_self]
    exact faithful
  | some reqIdx =>
    have places : ∀ other otherIdx, (states.reqIdToIndex.erase reqId).get? other = some otherIdx →
        other ≠ reqId ∧ states.reqIdToIndex.get? other = some otherIdx := by
      intro other otherIdx there
      rw [get?_erase] at there
      split at there
      · cases there
      · exact ⟨‹_›, there⟩
    obtain ⟨nodup, unused⟩ := faithful.free
    constructor
    · intro other
      simp only [get?_erase, update_apply]
      split
      · rfl
      · exact faithful.known other
    · intro other otherIdx seq there present
      obtain ⟨differ, there⟩ := places other otherIdx there
      rw [update_of_ne differ] at present
      exact faithful.slots other otherIdx seq there present
    · intro one other otherIdx there there'
      exact faithful.apart one other otherIdx (places one _ there).2 (places other _ there').2
    · refine ⟨nodup.append (nodup_singleton _) ?_, ?_⟩
      · intro free mem same
        cases mem_singleton.mp same
        exact unused reqId _ found mem
      · intro other otherIdx there mem
        obtain ⟨differ, there⟩ := places other otherIdx there
        rcases mem_append.mp mem with free | same
        · exact unused other otherIdx there free
        · cases mem_singleton.mp same
          exact differ (faithful.apart other reqId _ there found)

end Step

inductive Op where
  | addRequest (reqId : String) (promptLen : Nat) (tokens : List TokenId) (numComputed : Nat)
  | removeRequest (reqId : String)
  | step (output : SchedulerOutput) (sampled : String → List TokenId) (drafts : String → Nat → TokenId)

def exec (cfg : Config) (state : Runner × Truth) : Op → Py (Runner × Truth)
  | .addRequest reqId promptLen tokens numComputed => do
    let states ← state.1.states.addRequest reqId promptLen tokens numComputed
    return ({ state.1 with states := states }, update state.2 reqId
      (some ⟨tokens.length, tokens, numComputed, fun _ => 0⟩))
  | .removeRequest reqId => .ok ({ state.1 with states := state.1.states.removeRequest reqId },
      update state.2 reqId none)
  | .step output sampled drafts => do
    let (_, runner) ← step cfg state.1 output sampled drafts
    return (runner, state.2.advance output sampled drafts)

/-- A new request has a token to compute and fits; a step is one the scheduler may ask for. -/
def Allowed (cfg : Config) (state : Runner × Truth) : Op → Prop
  | .addRequest _ _ tokens numComputed =>
    numComputed < tokens.length ∧ tokens.length ≤ cfg.maxModelLen
  | .removeRequest _ => True
  | .step output sampled _ => Valid cfg state.2 output sampled

theorem Faithful.exec (faithful : Faithful cfg state.1.states state.2)
    (allowed : Allowed cfg state op) (ran : V2.exec cfg state op = .ok next) :
    Faithful cfg next.1.states next.2 := by
  cases op with
  | addRequest reqId promptLen tokens numComputed =>
    obtain ⟨states, added, ran⟩ := bind_ok ran
    cases ran
    exact faithful.addRequest allowed.1 allowed.2 added
  | removeRequest reqId =>
    cases ran
    exact faithful.removeRequest reqId
  | step output sampled drafts =>
    obtain ⟨_, _, stepped, -, kept⟩ := faithful.step allowed
    rw [V2.exec, stepped] at ran
    cases ran
    exact kept

theorem init_faithful (cfg : Config) : Faithful cfg (init cfg).states (fun _ => none) :=
  ⟨fun _ => rfl, nofun, nofun, nodup_range, nofun⟩

/-- In every run each request has its tokens in its slot, with all but the last one computed
once its prefill is done, and every step that may follow feeds the model the true tokens. -/
theorem feeds_true_tokens (cfg : Config) (ops : List Op) (runner : Runner) (truth : Truth)
    (allowed : Run.AllSteps (exec cfg) (Allowed cfg) (init cfg, fun _ => none) ops)
    (ran : Run.run (exec cfg) (init cfg, fun _ => none) ops = .ok (runner, truth)) :
    (∀ reqId seq, truth reqId = some seq → ∃ reqIdx slot,
      runner.states.reqIdToIndex.get? reqId = some reqIdx ∧ runner.states.slots reqIdx = slot ∧
      slot.totalLen = seq.tokens.length ∧
      (∀ i token, seq.tokens[i]? = some token → slot.allTokenIds i = token) ∧
      slot.numComputedTokens = seq.numComputed ∧ (seq.prefillLen ≤ seq.numComputed →
        slot.totalLen = slot.numComputedTokens + 1 ∧
        seq.tokens.getLast? = some slot.lastSampledToken)) ∧
    ∀ output sampled drafts, Valid cfg truth output sampled → ∃ batch next,
      step cfg runner output sampled drafts = .ok (batch, next) ∧ TrueInputs truth output batch := by
  have faithful : Faithful cfg runner.states truth :=
    Run.run_invariant (fun state => Faithful cfg state.1.states state.2) Faithful.exec
      (init_faithful cfg) allowed ran
  constructor
  · intro reqId seq present
    obtain ⟨reqIdx, found⟩ := isSome_iff_exists.mp
      ((faithful.known reqId).trans (by rw [present]; rfl))
    obtain ⟨ok, slot⟩ := faithful.slots reqId reqIdx seq found present
    refine ⟨reqIdx, _, found, rfl, slot.totalLen, slot.tokens, slot.numComputed, fun done => ?_⟩
    refine ⟨?_, (slot.last done).1⟩
    rw [slot.totalLen, slot.numComputed]
    rcases ok.phase with ⟨_, -⟩ | ⟨-, length⟩
    · omega
    · exact length
  · intro output sampled drafts valid
    obtain ⟨batch, next, stepped, inputs, -⟩ := faithful.step valid
    exact ⟨batch, next, stepped, inputs⟩

/-- A step of one request. -/
theorem Valid.single {seq : Sequence}
    (present : truth reqId = some seq) (allows : seq.Allows cfg n
      (SchedulerOutput.numDraftTokens ⟨empty.set reqId n, specs⟩ reqId) (sampled reqId)) :
    Valid cfg truth ⟨empty.set reqId n, specs⟩ sampled := by
  refine ⟨cons_ne_nil _ _, fun other m scheduled => ?_⟩
  rw [get?_set] at scheduled
  split at scheduled
  · rename_i same
    subst same
    cases scheduled
    exact ⟨seq, present, allows⟩
  · cases scheduled

/-- The prompt is fed to the model and a token is sampled; of its two drafts the first is accepted
and the second is not. -/
def draftedOps : List Op :=
  [.addRequest "a" 2 [5, 6] 0, .step ⟨empty.set "a" 2, .empty⟩ (fun _ => [7]) (fun _ k => 8 + k),
    .step ⟨empty.set "a" 3, empty.set "a" [8, 9]⟩ (fun _ => [8, 4]) (fun _ _ => 1)]

theorem feeds_true_tokens_drafts : ∃ runner truth batch next,
    Run.run (exec ⟨8, 2, 2⟩) (init ⟨8, 2, 2⟩, fun _ => none) draftedOps = .ok (runner, truth) ∧
    step ⟨8, 2, 2⟩ runner ⟨empty.set "a" 3, empty.set "a" [1, 1]⟩ (fun _ => [3]) (fun _ _ => 1) =
      .ok (batch, next) ∧
    TrueInputs truth ⟨empty.set "a" 3, empty.set "a" [1, 1]⟩ batch ∧
    truth "a" = some ⟨2, [5, 6, 7, 8, 4], 4, fun _ => 1⟩ := by
  obtain ⟨-, steps⟩ := feeds_true_tokens ⟨8, 2, 2⟩ draftedOps _ _
    ⟨⟨by decide, by decide⟩, fun _ ran => by
      cases ran
      refine ⟨.single rfl ⟨by decide, .inl ⟨by decide, rfl, by decide⟩, by decide,
        ⟨by decide, by decide⟩, by decide⟩, fun _ ran => ?_⟩
      cases ran
      exact ⟨.single rfl ⟨by decide, .inr ⟨by decide, rfl⟩, by decide,
        ⟨by decide, by decide⟩, by decide⟩, fun _ _ => trivial⟩⟩ rfl
  obtain ⟨batch, next, stepped, inputs⟩ := steps ⟨empty.set "a" 3, empty.set "a" [1, 1]⟩
    (fun _ => [3]) (fun _ _ => 1) (.single rfl ⟨by decide, .inr ⟨by decide, rfl⟩, by decide,
      ⟨by decide, by decide⟩, by decide⟩)
  exact ⟨_, _, batch, next, rfl, stepped, inputs, rfl⟩

end Vllm.V2
