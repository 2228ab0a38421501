import Vllm.Worker.ProcessorRuns
import Vllm.Worker.SpecDecode

/-! The stop tokens that are masked in a step of the rejection sampler: at the draft rows by one
method of the processor, at the bonus rows by another. -/
namespace Vllm.Worker
open List Segments GPUModelRunner SamplingBatch

/-- Rows of logits; `⊥` is `-inf`. -/
abbrev Logits := Nat → TokenId → WithBot Rat

namespace Logits

/-- `logits[indices]`, a new tensor. -/
def gather (logits : Logits) (indices : List Int) : Logits :=
  fun row => logits (indices.getD row 0).toNat

/-- `logits.index_put_(slice, -inf)`. -/
def indexPut (logits : Logits) (slice : List (Nat × TokenId)) : Logits :=
  fun row token => if (row, token) ∈ slice then ⊥ else logits row token

end Logits

namespace MinTokensLogitsProcessor
variable (outputs : Nat → List TokenId) (lens : List Nat) (proc : MinTokensLogitsProcessor)
  (logits : Logits)

def apply : Logits :=
  if proc.minToks.size ≠ 0 then logits.indexPut proc.logitsSlice else logits

/-- The leading draft rows of a request that still need masking, with its stop tokens. -/
def draftCells (entry : Nat × MinTokensEntry) (numDrafts : Nat) : List (Nat × TokenId) :=
  let nMask := min (entry.2.minToks - (outputs entry.2.outTokIds).length) numDrafts
  (range nMask).flatMap (fun j =>
    entry.2.stopTokIds.map (fun token => (offset lens entry.1 + j, token)))

/-- The early returns write nothing either. -/
def applyWithSpecDecode : Py Logits := do
  let entries := proc.minToks.entries.filter (fun entry => entry.2.stopTokIds ≠ [])
  let cells ← entries.mapM (fun entry => do
    let numDrafts ← Np.item lens entry.1
    return draftCells outputs lens entry numDrafts)
  return logits.indexPut cells.flatten

end MinTokensLogitsProcessor

section
variable (proc : MinTokensLogitsProcessor) (outputs : Nat → List TokenId)
  (resident : Nat → Option Resident) (numDraftTokens : List Nat)

/-- `MAX_SPEC_LEN`. -/
def RejectionSampler.maxSpecLen : Nat := 128

def RejectionSampler.forward (metadata : SpecDecodeMetadata) (logits : Logits) :
    Py (Logits × Logits) := do
  Py.assert (metadata.numDraftTokens.foldr max 0 ≤ maxSpecLen)
    "metadata.max_spec_len <= MAX_SPEC_LEN"
  let bonusLogits := proc.apply (logits.gather metadata.bonusLogitsIndices)
  let targetLogits ← proc.applyWithSpecDecode outputs metadata.numDraftTokens
    (logits.gather metadata.targetLogitsIndices)
  return (targetLogits, bonusLogits)

/-- The token would be a stop token among the first `min_tokens` outputs, `j` tokens from now. -/
def due (resident : Option Resident) (j : Nat) (token : TokenId) : Bool :=
  resident.any (fun resident => decide (token ∈ resident.1.allStopTokenIds ∧
    (outputs resident.2).length + j < resident.1.minTokens))

structure MasksDue (logits target bonus : Logits) : Prop where
  drafts : ∀ {i d j : Nat}, numDraftTokens[i]? = some d → j < d → ∀ token,
    target (offset numDraftTokens i + j) token =
      if due outputs (resident i) j token then ⊥ else logits (logitsRow numDraftTokens i j) token
  bonus : ∀ {i d : Nat}, numDraftTokens[i]? = some d → ∀ token,
    bonus i token =
      if due outputs (resident i) d token then ⊥ else logits (logitsRow numDraftTokens i d) token

/-- The processor holds the entries of the requests at each index. -/
structure MinTokensLogitsProcessor.Holds : Prop where
  present : ∀ i, resident i = none ↔ numDraftTokens.length ≤ i
  entries : ∀ i, proc.minToks.get? i = minTokensOf outputs (resident i)
  slice : proc.logitsSlice = sliceOf proc.minToks

end

theorem SamplingBatch.Tracked.holds {state : SamplingBatch} (tracked : state.Tracked)
    (counted : lens.length = state.batch.numReqs) :
    state.minTokens.Holds state.outputs state.residentAt lens where
  present := counted ▸ tracked.present
  entries := tracked.minTokens
  slice := tracked.minTokensSlice

namespace MinTokensLogitsProcessor.Holds
variable {proc : MinTokensLogitsProcessor} {outputs : Nat → List TokenId}
  {resident : Nat → Option Resident} {lens : List Nat}
  (holds : proc.Holds outputs resident lens)
include holds

/-- The requests that have an entry still need outputs. -/
theorem mem_entries : (i, entry) ∈ proc.minToks.entries ↔ ∃ req, resident i = some req ∧
    (outputs req.2).length < req.1.minTokens ∧
      entry = ⟨req.1.minTokens, req.2, req.1.allStopTokenIds⟩ := by
  rw [← Dict.get?_eq_some, holds.entries, minTokensOf, Option.bind_eq_some_iff]
  refine exists_congr (fun req => and_congr_right (fun _ => ?_))
  simp only [addRequest]
  split
  · simp
    omega
  · simp
    grind

theorem apply_eq (logits : Logits) : proc.apply logits i token =
    if due outputs (resident i) 0 token then ⊥ else logits i token := by
  have cell : (i, token) ∈ proc.logitsSlice ↔ due outputs (resident i) 0 token = true := by
    simp only [holds.slice, sliceOf, mem_flatMap, Prod.exists, holds.mem_entries, due,
      Option.any_eq_true]
    grind
  rw [← if_congr cell rfl rfl, apply]
  split
  · rfl
  · rename_i idle
    rw [not_not, Dict.size, length_eq_zero_iff] at idle
    rw [holds.slice, sliceOf, idle, flatMap_nil, if_neg not_mem_nil]

theorem applyWithSpecDecode_ok (logits : Logits) :
    ∃ target, proc.applyWithSpecDecode outputs lens logits = .ok target ∧
      ∀ {i d j : Nat}, lens[i]? = some d → j < d → ∀ token,
        target (offset lens i + j) token = if due outputs (resident i) j token then ⊥
          else logits (offset lens i + j) token := by
  have counted {i : Nat} {entry : MinTokensEntry} (mem : (i, entry) ∈ proc.minToks.entries) :
      lens[i]? = some (lens.getD i 0) := by
    obtain ⟨req, here, -⟩ := holds.mem_entries.mp mem
    have inside : i < lens.length := by
      by_contra outside
      rw [(holds.present i).mpr (not_lt.mp outside)] at here
      cases here
    rw [getD_eq_getElem?_getD, getElem?_eq_getElem inside]
    rfl
  rw [applyWithSpecDecode, Py.mapM_ok (g := fun entry => draftCells outputs lens entry
    (lens.getD entry.1 0)) ?_]
  · refine ⟨_, rfl, fun {i d j} found within token => if_congr ?_ rfl rfl⟩
    simp only [← flatMap_def, draftCells, mem_flatMap, mem_filter, mem_range, mem_map,
      Prod.mk.injEq, Prod.exists, due, Option.any_eq_true, decide_eq_true_eq]
    constructor
    · rintro ⟨k, entry, ⟨mem, -⟩, _, bound, _, listed, same, rfl⟩
      obtain ⟨rfl, rfl⟩ := segment_unique (counted mem) found (by omega) within same
      obtain ⟨req, here, -, rfl⟩ := holds.mem_entries.mp mem
      exact ⟨req.1, req.2, here, listed, by simp only at bound; omega⟩
    · rintro ⟨params, ref, here, listed, _⟩
      refine ⟨i, _, ⟨holds.mem_entries.mpr ⟨(params, ref), here, by simp only; omega, rfl⟩,
        by simpa using ne_nil_of_mem listed⟩, j, ?_, token, listed, rfl, rfl⟩
      simp only [getD_eq_getElem?_getD, found, Option.getD_some]
      omega
  · intro entry mem
    rw [Np.item_ok (by omega) (by simpa using counted (mem_filter.mp mem).1)]
    rfl

end MinTokensLogitsProcessor.Holds

theorem foldr_max_le {lens : List Nat} : lens.foldr max 0 ≤ n ↔ ∀ d ∈ lens, d ≤ n := by
  induction lens with
  | nil => simp
  | cons d rest ih => simp [ih]

/-- The masks are exact whatever the logits are iff no request has too many drafts and the required
length of none with stop tokens lies among them. -/
theorem forward_masks_due_iff {proc : MinTokensLogitsProcessor}
    {outputs : Nat → List TokenId} {resident : Nat → Option Resident}
    {metadata : SpecDecodeMetadata} {inputIds : List TokenId} {numScheduledTokens : List Nat}
    (holds : proc.Holds outputs resident metadata.numDraftTokens)
    (names : NamesRows inputIds metadata.numDraftTokens numScheduledTokens metadata) :
    (∀ logits, ∃ target bonus,
      RejectionSampler.forward proc outputs metadata logits = .ok (target, bonus) ∧
        MasksDue outputs resident metadata.numDraftTokens logits target bonus) ↔
      (∀ d ∈ metadata.numDraftTokens, d ≤ RejectionSampler.maxSpecLen) ∧
      ∀ i d req, metadata.numDraftTokens[i]? = some d → resident i = some req →
        req.1.allStopTokenIds ≠ [] → (outputs req.2).length < req.1.minTokens →
          (outputs req.2).length + d < req.1.minTokens := by
  have forward (short : ∀ d ∈ metadata.numDraftTokens, d ≤ RejectionSampler.maxSpecLen)
      (logits : Logits) : ∃ target,
      RejectionSampler.forward proc outputs metadata logits =
        .ok (target, proc.apply (logits.gather metadata.bonusLogitsIndices)) ∧
      ∀ {i d j : Nat}, metadata.numDraftTokens[i]? = some d → j < d → ∀ token,
        target (offset metadata.numDraftTokens i + j) token =
          if due outputs (resident i) j token then ⊥
          else logits (logitsRow metadata.numDraftTokens i j) token := by
    obtain ⟨target, applied, masked⟩ :=
      holds.applyWithSpecDecode_ok (logits.gather metadata.targetLogitsIndices)
    refine ⟨target, ?_, ?_⟩
    · rw [RejectionSampler.forward, Py.assert_bind (decide_eq_true (foldr_max_le.mpr short)), applied]
      rfl
    intro i d j found within token
    rw [masked found within, Logits.gather, names.targets, getD_eq_getElem?_getD,
      getElem?_flatMap_zipIdx (fun i j => (logitsRow metadata.numDraftTokens i j : Int)) found within]
    rfl
  constructor
  · intro exact'
    obtain ⟨target, bonus, ran, masks⟩ := exact' (fun _ _ => 0)
    have short := foldr_max_le.mp (of_decide_eq_true (Py.assert_bind_ok ran).1)
    refine ⟨short, ?_⟩
    intro i d req found here stops open'
    obtain ⟨_, ran', -⟩ := forward short (fun _ _ => 0)
    rw [ran'] at ran
    cases ran
    obtain ⟨stop, listed⟩ := exists_mem_of_ne_nil _ stops
    have masked := masks.bonus found stop
    rw [holds.apply_eq, if_pos (by simp [due, here, listed, open'])] at masked
    by_contra late
    rw [if_neg (by simp [due, here, listed, late])] at masked
    cases masked
  · rintro ⟨short, apart⟩ logits
    obtain ⟨target, ran, drafts⟩ := forward short logits
    refine ⟨target, _, ran, drafts, ?_⟩
    intro i d found token
    rw [holds.apply_eq, Logits.gather, names.bonuses, getD_eq_getElem?_getD, getElem?_map,
      getElem?_zipIdx, found]
    refine if_congr ?_ rfl (by simp)
    simp only [due, Option.any_eq_true, decide_eq_true_eq]
    constructor
    · rintro ⟨req, here, listed, open'⟩
      exact ⟨req, here, listed, apart i d req found here (ne_nil_of_mem listed) open'⟩
    · rintro ⟨req, here, listed, open'⟩
      exact ⟨req, here, listed, by omega⟩

def oneDraft : SpecDecodeMetadata := ⟨[5], [1], [1], [2], [0], [1], [0, 1]⟩

def stopParams (minTokens : Nat) : SamplingParams := { minTokens, allStopTokenIds := [2] }

def stopProcessor (minTokens : Nat) : MinTokensLogitsProcessor :=
  ({} : MinTokensLogitsProcessor).updateState (fun _ => [])
    (some ⟨1, [], [⟨0, stopParams minTokens, 0⟩], []⟩)

/-- One token is required, so the bonus token may stop the request, but its row is masked. -/
theorem bonus_row_masked_late : calcSpecDecodeMetadata [4, 5] [1] [2] = .ok oneDraft ∧
      ∃ target bonus, RejectionSampler.forward (stopProcessor 1) (fun _ => []) oneDraft
        (fun _ _ => 0) = .ok (target, bonus) ∧ bonus 0 2 = ⊥ ∧
        due (fun _ => []) (some (stopParams 1, 0)) 1 2 = false :=
  ⟨rfl, _, _, rfl, rfl, by decide⟩

/-- Two tokens are required, and both rows are masked rightly. -/
theorem forward_masks_due_iff_two :
    ∃ target bonus, RejectionSampler.forward (stopProcessor 2) (fun _ => []) oneDraft
      (fun _ _ => 0) = .ok (target, bonus) ∧
        MasksDue (fun _ => []) ([(stopParams 2, 0)][·]?) [1] (fun _ _ => 0) target bonus := by
  have fits {i d s : Nat} (found : [1][i]? = some d) (scheduled : [2][i]? = some s) : d + 1 ≤ s := by
    rcases i with _ | i <;> cases found
    cases scheduled
    exact le_rfl
  have filled : [2].sum ≤ [(4 : TokenId), 5].length := by decide
  obtain ⟨_, calculated, names⟩ :=
    calcSpecDecodeMetadata_ok (show [2].length = [1].length from rfl) fits (by decide) filled
  cases calculated
  refine (forward_masks_due_iff ⟨fun _ => getElem?_eq_none_iff, ?_, rfl⟩ names).mpr ⟨by decide, ?_⟩ _
  · rintro (_ | i) <;> rfl
  · rintro (_ | i) d _ found here - -
    · cases found
      cases here
      decide
    · cases here

end Vllm.Worker
