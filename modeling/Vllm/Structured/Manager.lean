import Vllm.Worker.SpecDecode

/-! `StructuredOutputManager`: the bitmask of a step, and when a request follows its
grammar. `G` is the state of a compiled grammar and `B` a row of the bitmask; both belong
to the grammar backend. -/
namespace Vllm
open List hiding next
open Py
variable {G B H : Type}

structure GrammarBackend (G B : Type) where
  isTerminated : G → Bool
  fillBitmask : G → B
  /-- The row that lets all tokens through. -/
  fullMask : B
  acceptTokens : G → List TokenId → Bool × G
  rollback : G → Nat → G

structure ReasoningParser where
  isReasoningEnd : List TokenId → Bool

structure StructuredOutputRequest (G : Type) where
  grammar : G
  reasoningEnded : Option Bool := none

structure StructuredOutputManager (G B : Type) where
  backend : GrammarBackend G B
  reasoner : Option ReasoningParser := none
  enableInReasoning : Bool := false
  /-- Zero without a speculative configuration. -/
  maxNumSpecTokens : Nat := 0
  fillBitmaskParallelThreshold : Nat := 128

namespace StructuredOutputManager
variable (mgr : StructuredOutputManager G B) (req : Request H)

section
variable (structured : StructuredOutputRequest G) (bitmask : List B) (grammar : G) (index : Nat)
  (applyBitmask : Bool)

def shouldFillBitmask : Bool × StructuredOutputRequest G :=
  match mgr.reasoner with
  | none => (true, structured)
  | some reasoner =>
    if mgr.enableInReasoning then (true, structured)
    else match structured.reasoningEnded with
      | some ended => (ended, structured)
      | none =>
        let ended := reasoner.isReasoningEnd (req.promptTokenIds.getD [])
        (ended, { structured with reasoningEnded := some ended })

def maskRow : B :=
  if applyBitmask && !mgr.backend.isTerminated grammar then mgr.backend.fillBitmask grammar
  else mgr.backend.fullMask

def fillBitmasks : Py (List B) :=
  if index < bitmask.length then .ok (bitmask.set index (mgr.maskRow grammar applyBitmask))
  else .error (.indexError "index out of range")

end

structure Filling (G B : Type) where
  bitmask : List B
  cumulativeIndex : Nat
  grammar : G
  applyBitmask : Bool
  stateAdvancements : Nat := 0

def fillToken (fill : Filling G B) (token : TokenId) : Py (Filling G B) := do
  let bitmask ← mgr.fillBitmasks fill.bitmask fill.grammar fill.cumulativeIndex
    fill.applyBitmask
  -- The grammar is not advanced past a padding token.
  let applyBitmask := fill.applyBitmask && token ≠ -1
  if applyBitmask && !mgr.backend.isTerminated fill.grammar then
    let (accepted, grammar) := mgr.backend.acceptTokens fill.grammar [token]
    Py.assert accepted "accepted"
    return { bitmask, cumulativeIndex := fill.cumulativeIndex + 1, grammar, applyBitmask,
             stateAdvancements := fill.stateAdvancements + 1 }
  else
    return { fill with bitmask, cumulativeIndex := fill.cumulativeIndex + 1, applyBitmask }

def lookUp (requests : Dict String (Request H × StructuredOutputRequest G)) (reqId : String) :
    Py (Request H × StructuredOutputRequest G) :=
  match requests.get? reqId with
  | none => .error (.keyError reqId)
  | some entry => .ok entry

structure BitmaskState (H G B : Type) where
  bitmask : List B
  cumulativeIndex : Nat
  requests : Dict String (Request H × StructuredOutputRequest G)

section
variable (buffer : List B) (requests : Dict String (Request H × StructuredOutputRequest G))
  (reqIds : List String)
  (scheduledSpecDecodeTokens : Dict String (List TokenId)) (state : BitmaskState H G B)
  (reqId : String)

/-- A request in the serial case: one row for each draft and one for the bonus token. -/
def fillSerial : Py (BitmaskState H G B) := do
  let (req, structured) ← lookUp state.requests reqId
  let (applyBitmask, structured) := mgr.shouldFillBitmask req structured
  let reqTokens := (scheduledSpecDecodeTokens.get? reqId).getD []
  let filled ← (reqTokens ++ [-1]).foldlM mgr.fillToken
    { bitmask := state.bitmask, cumulativeIndex := state.cumulativeIndex,
      grammar := structured.grammar, applyBitmask }
  let grammar := if filled.stateAdvancements > 0
    then mgr.backend.rollback filled.grammar filled.stateAdvancements else filled.grammar
  return {
    bitmask := filled.bitmask
    cumulativeIndex := filled.cumulativeIndex
    requests := state.requests.set reqId (req, { structured with grammar }) }

/-- A request in the parallel case. The tasks write different rows, so that their order does
not matter. -/
def fillParallel : Py (BitmaskState H G B) := do
  let (req, structured) ← lookUp state.requests reqId
  let (applyBitmask, structured) := mgr.shouldFillBitmask req structured
  let bitmask ← mgr.fillBitmasks state.bitmask structured.grammar state.cumulativeIndex
    applyBitmask
  return {
    bitmask
    cumulativeIndex := state.cumulativeIndex + 1
    requests := state.requests.set reqId (req, structured) }

def fillAll (start : BitmaskState H G B) : Py (BitmaskState H G B) :=
  if reqIds.length > mgr.fillBitmaskParallelThreshold ∧
      mgr.maxNumSpecTokens = 0 then
    reqIds.foldlM mgr.fillParallel start
  else
    reqIds.foldlM (mgr.fillSerial scheduledSpecDecodeTokens) start

/-- The rows of the structured output requests, in their order. `buffer` is the tensor that
the backend has allocated. -/
def grammarBitmask :
    Py (Option (List B) × Dict String (Request H × StructuredOutputRequest G)) := do
  if reqIds.isEmpty then return (none, requests)
  else
    let filled ← mgr.fillAll reqIds scheduledSpecDecodeTokens
      { bitmask := buffer, cumulativeIndex := 0, requests }
    let rows := if filled.cumulativeIndex < filled.bitmask.length
      then filled.bitmask.take filled.cumulativeIndex else filled.bitmask
    return (some rows, filled.requests)

def maskRows : List TokenId → Bool → G → List B
  | [], applyBitmask, grammar => [mgr.maskRow grammar applyBitmask]
  | token :: drafts, applyBitmask, grammar =>
    mgr.maskRow grammar applyBitmask ::
      (if (applyBitmask && token ≠ -1) && !mgr.backend.isTerminated grammar then
        maskRows drafts true (mgr.backend.acceptTokens grammar [token]).2
      else maskRows drafts (applyBitmask && token ≠ -1) grammar)

def rowsOf : List B :=
  match requests.get? reqId with
  | none => []
  | some (req, structured) =>
    mgr.maskRows ((scheduledSpecDecodeTokens.get? reqId).getD [])
      (mgr.shouldFillBitmask req structured).1 structured.grammar

end

variable {mgr}

theorem length_maskRows (drafts : List TokenId) (applyBitmask : Bool) (grammar : G) :
    (mgr.maskRows drafts applyBitmask grammar).length = drafts.length + 1 := by
  induction drafts generalizing applyBitmask grammar with
  | nil => rfl
  | cons token drafts ih =>
    rw [maskRows, length_cons, length_cons]
    split <;> rw [ih]

theorem shouldFillBitmask_grammar (structured : StructuredOutputRequest G) :
    (mgr.shouldFillBitmask req structured).2.grammar = structured.grammar := by
  unfold shouldFillBitmask
  split
  · rfl
  · split
    · rfl
    · split <;> rfl

theorem fillBitmasks_ok (h : mgr.fillBitmasks bitmask grammar index applyBitmask = .ok next) :
    next.length = bitmask.length ∧ index < bitmask.length ∧
      next.take (index + 1) = bitmask.take index ++ [mgr.maskRow grammar applyBitmask] := by
  unfold fillBitmasks at h
  split at h
  · rename_i inside
    cases h
    refine ⟨length_set .., inside, ?_⟩
    have length : (bitmask.take index).length = index := length_take_of_le (Nat.le_of_lt inside)
    rw [take_set, take_add_one, getElem?_eq_getElem inside,
      set_append_right _ _ (Nat.le_of_eq length), length, Nat.sub_self]
    rfl
  · cases h

/-- A token of a request fills its row and advances the grammar. -/
theorem fillToken_ok (h : mgr.fillToken fill token = .ok next) :
    next.bitmask.length = fill.bitmask.length ∧
      fill.cumulativeIndex < fill.bitmask.length ∧
      next.cumulativeIndex = fill.cumulativeIndex + 1 ∧
      next.bitmask.take (fill.cumulativeIndex + 1) =
        fill.bitmask.take fill.cumulativeIndex ++
          [mgr.maskRow fill.grammar fill.applyBitmask] ∧
      next.applyBitmask = (fill.applyBitmask && token ≠ -1) ∧
      next.grammar = if (fill.applyBitmask && token ≠ -1) &&
          !mgr.backend.isTerminated fill.grammar
        then (mgr.backend.acceptTokens fill.grammar [token]).2 else fill.grammar := by
  obtain ⟨bitmask, row, h⟩ := bind_ok h
  obtain ⟨length, inside, rows⟩ := fillBitmasks_ok row
  simp only at h
  split at h
  · rename_i advances
    obtain ⟨_, h⟩ := assert_bind_ok h
    cases h
    exact ⟨length, inside, rfl, rows, rfl, by rw [if_pos advances]⟩
  · rename_i stays
    cases h
    exact ⟨length, inside, rfl, rows, rfl, by rw [if_neg stays]⟩

/-- The rows of a request follow those that were filled before. -/
theorem fillTokens_ok (h : (drafts ++ [-1]).foldlM mgr.fillToken fill = .ok last) :
    last.cumulativeIndex ≤ last.bitmask.length ∧ last.bitmask.take last.cumulativeIndex =
        fill.bitmask.take fill.cumulativeIndex ++
          mgr.maskRows drafts fill.applyBitmask fill.grammar := by
  induction drafts generalizing fill with
  | nil =>
    obtain ⟨next, step, h⟩ := bind_ok h
    cases h
    obtain ⟨length, inside, index, rows, -, -⟩ := fillToken_ok step
    refine ⟨by omega, ?_⟩
    rw [index, rows, maskRows]
  | cons token drafts ih =>
    rw [cons_append] at h
    obtain ⟨next, step, h⟩ := bind_ok h
    obtain ⟨-, -, index, rows, applies, grammar⟩ := fillToken_ok step
    obtain ⟨inside, lastRows⟩ := ih h
    refine ⟨inside, ?_⟩
    rw [lastRows, index, rows, append_assoc, singleton_append, maskRows, applies, grammar]
    split
    · rename_i advances
      rw [show (fill.applyBitmask && decide (token ≠ -1)) = true from
        (Bool.and_eq_true_iff.mp advances).1]
    · rfl

variable {requests : Dict String (Request H × StructuredOutputRequest G)} {reqId : String}

/-- The rows filled so far are those of the requests that are done, and the others are
untouched. -/
structure FilledRows (mgr : StructuredOutputManager G B)
    (requests : Dict String (Request H × StructuredOutputRequest G))
    (scheduledSpecDecodeTokens : Dict String (List TokenId)) (done : List String)
    (state : BitmaskState H G B) : Prop where
  inside : state.cumulativeIndex ≤ state.bitmask.length
  rows : state.bitmask.take state.cumulativeIndex =
    done.flatMap (mgr.rowsOf requests scheduledSpecDecodeTokens)
  lengths : ∀ reqId ∈ done, (mgr.rowsOf requests scheduledSpecDecodeTokens reqId).length =
    numSpecTokens scheduledSpecDecodeTokens reqId + 1
  others : ∀ reqId, reqId ∉ done → state.requests.get? reqId = requests.get? reqId

theorem lookUp_ok (h : lookUp requests reqId = .ok entry) : requests.get? reqId = some entry := by
  unfold lookUp at h
  split at h
  · cases h
  · rename_i stored
    cases h
    exact stored

/-- A request adds its rows, in whichever way they are filled. -/
theorem FilledRows.add (filled : FilledRows mgr requests specTokens done state)
    (fresh : reqId ∉ done) {req : Request H}
    (found : lookUp state.requests reqId = .ok (req, structured))
    (inside : next.cumulativeIndex ≤ next.bitmask.length)
    (rows : next.bitmask.take next.cumulativeIndex = state.bitmask.take state.cumulativeIndex ++
      mgr.maskRows ((specTokens.get? reqId).getD [])
      (mgr.shouldFillBitmask req structured).1
      (mgr.shouldFillBitmask req structured).2.grammar)
    (stored : next.requests = state.requests.set reqId entry) :
    FilledRows mgr requests specTokens (done ++ [reqId]) next := by
  have same : requests.get? reqId = some (req, structured) := by
    rw [← filled.others reqId fresh]
    exact lookUp_ok found
  rw [shouldFillBitmask_grammar] at rows
  have own : mgr.rowsOf requests specTokens reqId =
      mgr.maskRows ((specTokens.get? reqId).getD [])
        (mgr.shouldFillBitmask req structured).1 structured.grammar := by
    simp [rowsOf, same]
  constructor
  · exact inside
  · rw [rows, filled.rows, flatMap_append, flatMap_singleton, own]
  · intro other mem
    rcases mem_append.mp mem with prior | here
    · exact filled.lengths other prior
    · rw [mem_singleton.mp here, own, length_maskRows]
      rfl
  · intro other absent
    rw [mem_append, mem_singleton, not_or] at absent
    rw [stored, Dict.get?_set, if_neg absent.2]
    exact filled.others other absent.1

theorem FilledRows.serial
    (filled : FilledRows mgr requests specTokens done state)
    (fresh : reqId ∉ done)
    (h : mgr.fillSerial specTokens state reqId = .ok next) :
    FilledRows mgr requests specTokens (done ++ [reqId]) next := by
  obtain ⟨⟨req, structured⟩, found, h⟩ := bind_ok h
  simp only at h
  generalize chosen : mgr.shouldFillBitmask req structured = fills at h
  obtain ⟨_, tokens, h⟩ := bind_ok h
  cases h
  obtain ⟨inside, rows⟩ := fillTokens_ok tokens
  refine filled.add fresh found inside ?_ rfl
  rw [chosen]
  exact rows

theorem FilledRows.parallel
    (filled : FilledRows mgr requests specTokens done state)
    (fresh : reqId ∉ done) (noDrafts : numSpecTokens specTokens reqId = 0)
    (h : mgr.fillParallel state reqId = .ok next) :
    FilledRows mgr requests specTokens (done ++ [reqId]) next := by
  obtain ⟨⟨req, structured⟩, found, h⟩ := bind_ok h
  simp only at h
  generalize chosen : mgr.shouldFillBitmask req structured = fills at h
  obtain ⟨_, row, h⟩ := bind_ok h
  cases h
  obtain ⟨_, _, rows⟩ := fillBitmasks_ok row
  refine filled.add fresh found (by simp only; omega) ?_ rfl
  have none : (specTokens.get? reqId).getD [] = [] := length_eq_zero_iff.mp noDrafts
  rw [none, chosen]
  exact rows

/-- The bitmask of a step is the rows of its requests, one request after the other. -/
theorem grammarBitmask_ok (unique : ids.Nodup)
    (speculative : mgr.maxNumSpecTokens = 0 → ∀ reqId ∈ ids, numSpecTokens specTokens reqId = 0)
    (h : mgr.grammarBitmask buffer requests ids
      specTokens = .ok (some rows, next)) : rows = ids.flatMap
        (mgr.rowsOf requests specTokens) ∧ ∀ reqId ∈ ids,
        (mgr.rowsOf requests specTokens reqId).length =
          numSpecTokens specTokens reqId + 1 := by
  unfold grammarBitmask at h
  split at h
  · cases h
  obtain ⟨filled, fills, h⟩ := bind_ok h
  cases h
  have start : FilledRows mgr requests specTokens []
      { bitmask := buffer, cumulativeIndex := 0, requests := requests } :=
    ⟨Nat.zero_le _, by simp, fun _ mem => (by cases mem), fun _ _ => rfl⟩
  have fresh {prior later : List String} {reqId : String}
      (split : ids = prior ++ reqId :: later) : reqId ∉ prior := by
    rw [split] at unique
    exact fun mem => (disjoint_of_nodup_append unique) mem (mem_cons_self ..)
  have whole : FilledRows mgr requests specTokens ids
      filled := by
    unfold fillAll at fills
    split at fills
    · rename_i parallel
      refine foldlM_items _ ?_ start fills
      intro prior reqId later state after split kept step
      exact kept.parallel (fresh split) (speculative parallel.2 reqId (by rw [split]; simp)) step
    · refine foldlM_items _ ?_ start fills
      intro prior reqId later state after split kept step
      exact kept.serial (fresh split) step
  refine ⟨?_, whole.lengths⟩
  rw [← whole.rows]
  split
  · rfl
  · have inside := whole.inside
    rw [take_of_length_le (by omega)]

end StructuredOutputManager
end Vllm
