import Vllm.Worker.LogitsProcessors
import Vllm.Worker.Tracking

/-! What an update does to the table of each built-in processor: it replays the lists of the
update, whichever shortcuts the processor takes. -/
namespace Vllm.Worker
open List hiding next
open Relocate Function
variable {moved : MovedRequest} {moves : List MovedRequest}

theorem apply_constant (moved : MovedRequest) :
    moved.apply empty (fun _ => empty) = fun _ => empty := by
  rw [MovedRequest.apply]
  split <;> simp [moveOne, exchange]

/-- Removals and moves leave an empty table empty. -/
theorem moves_constant (removed : List Nat) (moved : List MovedRequest) :
    moved.foldl (MovedRequest.apply empty) (clear empty (fun _ => empty) removed) =
      fun _ => empty := by
  have cleared : clear empty (fun _ => empty) removed = fun _ => empty := by
    funext i
    rw [clear, ite_self]
  rw [cleared]
  induction moved with
  | nil => rfl
  | cons move moved ih => rw [foldl_cons, apply_constant, ih]

/-- A loop that reports no change has made none. -/
theorem foldl_unchanged {σ ι : Type} {f : σ × Bool → ι → σ × Bool}
    (round : ∀ state item, (f state item).2 = false → f state item = state) (items : List ι)
    (state : σ × Bool) (quiet : (items.foldl f state).2 = false) : items.foldl f state = state := by
  induction items generalizing state with
  | nil => rfl
  | cons item items ih =>
    rw [foldl_cons] at quiet ⊢
    have rest := ih (f state item) quiet
    rw [rest] at quiet ⊢
    exact round state item quiet

section DictUpdates
variable {β : Type} {newState : AddedRequest → Option β} (state : Dict Nat β × Bool)

theorem get?_addEntry (req : AddedRequest) : (addEntry newState state req).1.get? =
      update state.1.get? req.index (newState req) := by
  funext i
  rw [addEntry, update_apply]
  cases newState req <;> simp [Dict.get?_set, Dict.get?_erase]

theorem get?_addEntries (added : List AddedRequest) (state : Dict Nat β × Bool) :
    (added.foldl (addEntry newState) state).1.get? = afterAdds newState state.1.get? added := by
  induction added generalizing state with
  | nil => rfl
  | cons req added ih =>
    rw [foldl_cons, ih, get?_addEntry]
    rfl

theorem get?_removeEntries (removed : List Nat) (state : Dict Nat β × Bool) :
    (removed.foldl removeEntry state).1.get? = clear none state.1.get? removed := by
  induction removed generalizing state with
  | nil =>
    funext i
    simp [clear]
  | cons index removed ih =>
    rw [foldl_cons, ih]
    funext i
    simp only [clear, removeEntry]
    by_cases later : i ∈ removed <;> simp [later]

theorem get?_moveEntry (apart : moved.direction = .unidirectional → moved.dst < moved.src) :
    (moveEntry state moved).1.get? = moved.apply none state.1.get? := by
  funext i
  rw [MovedRequest.apply]
  cases direction : moved.direction with
  | unidirectional =>
    have ne := (apart direction).ne
    simp only [moveEntry, direction, Dict.get?_erase, moveOne, update_apply]
    cases state.1.get? moved.src <;> cases there : state.1.get? moved.dst <;>
      simp only [ne, if_false, reduceCtorEq, Dict.get?_set] <;>
      split_ifs <;> simp_all
  | swap =>
    simp only [moveEntry, Dict.get?_erase, exchange_apply]
    cases here : state.1.get? moved.src <;> cases there : state.1.get? moved.dst <;>
      by_cases same : moved.dst = moved.src <;>
      simp only [same, if_true, if_false, Dict.get?_set] <;>
      split_ifs <;> simp_all

theorem get?_moveEntries
    (apart : ∀ moved ∈ moves, moved.direction = .unidirectional → moved.dst < moved.src)
    (state : Dict Nat β × Bool) :
    (moves.foldl moveEntry state).1.get? = moves.foldl (MovedRequest.apply none) state.1.get? := by
  induction moves generalizing state with
  | nil => rfl
  | cons moved moves ih =>
    rw [foldl_cons, ih (fun later mem => apart later (mem_cons_of_mem _ mem)),
      get?_moveEntry state (apart moved (mem_cons_self ..))]
    rfl

theorem get?_of_size_zero {entries : Dict Nat β} (nothing : entries.size = 0) :
    entries.get? = fun _ => none := by
  funext i
  rw [Dict.size, length_eq_zero_iff] at nothing
  rw [Dict.get?, nothing]
  rfl

variable (entries : Dict Nat β) (update : Option BatchUpdate)

/-- The entries of a sparse processor replay the update. -/
theorem get?_processDictUpdates (apart : ∀ pending, update = some pending →
      ∀ moved ∈ pending.moved, moved.direction = .unidirectional → moved.dst < moved.src) :
    (processDictUpdates entries update newState).1.get? =
      InputBatch.replayUpdate newState none entries.get? update := by
  cases update with
  | none => rfl
  | some pending =>
    rw [InputBatch.replayUpdate, replay]
    simp only [processDictUpdates]
    split
    · rw [get?_moveEntries (apart pending rfl), get?_removeEntries, get?_addEntries]
    · rename_i nothing
      rw [← get?_addEntries pending.added (entries, false),
        get?_of_size_zero (not_not.mp nothing), moves_constant]

theorem addEntry_unchanged (req : AddedRequest)
    (quiet : (addEntry newState state req).2 = false) :
    addEntry newState state req = state := by
  rw [addEntry] at quiet ⊢
  split
  · rename_i entry made
    rw [made] at quiet
    cases quiet
  · rename_i made
    rw [made] at quiet
    obtain ⟨before, absent⟩ := Bool.or_eq_false_iff.mp quiet
    rw [Dict.erase_of_absent absent, absent, before]
    exact Prod.ext rfl before.symm

theorem removeEntry_unchanged (index : Nat) (quiet : (removeEntry state index).2 = false) :
    removeEntry state index = state := by
  obtain ⟨before, absent⟩ := Bool.or_eq_false_iff.mp quiet
  rw [removeEntry, Dict.erase_of_absent absent, absent, before]
  exact Prod.ext rfl before.symm

theorem moveEntry_unchanged (moved : MovedRequest) (quiet : (moveEntry state moved).2 = false) :
    moveEntry state moved = state := by
  simp only [moveEntry, Bool.or_eq_false_iff] at quiet
  obtain ⟨⟨before, source⟩, target⟩ := quiet
  have first : state.1.erase moved.src = state.1 := Dict.erase_of_absent source
  rw [first] at target
  have second : state.1.erase moved.dst = state.1 := Dict.erase_of_absent target
  have noSource : state.1.get? moved.src = none := by simpa using source
  have noTarget : state.1.get? moved.dst = none := by simpa using target
  simp only [moveEntry, first, second, noSource, noTarget]
  exact Prod.ext rfl (by simp)

/-- If no change is reported, the entries are the same, in the same order. -/
theorem processDictUpdates_unchanged (h : (processDictUpdates entries update newState).2 = false) :
    (processDictUpdates entries update newState).1 = entries := by
  cases update with
  | none => rfl
  | some pending =>
    simp only [processDictUpdates] at h ⊢
    split at h
    · rename_i busy
      have moves := foldl_unchanged moveEntry_unchanged _ _ h
      rw [moves] at h
      have removals := foldl_unchanged removeEntry_unchanged _ _ h
      rw [removals] at h
      rw [if_pos busy, moves, removals, foldl_unchanged addEntry_unchanged _ _ h]
    · rename_i idle
      rw [if_neg idle, foldl_unchanged addEntry_unchanged _ _ h]

end DictUpdates

section Count
variable {count : Int} {table : Nat → Rat}

/-- The number of entries that are not zero. -/
def Counts (table : Nat → Rat) (count : Int) : Prop :=
  ∃ nonzero : Finset Nat, (∀ i, i ∈ nonzero ↔ table i ≠ 0) ∧ count = nonzero.card

theorem Counts.update (counts : Counts table count) (k : Nat) (value : Rat) :
    Counts (update table k value)
      (count - (if table k ≠ 0 then 1 else 0) + (if value ≠ 0 then 1 else 0)) := by
  obtain ⟨nonzero, listed, rfl⟩ := counts
  refine ⟨if value ≠ 0 then insert k nonzero else nonzero.erase k, ?_, ?_⟩
  · intro i
    by_cases here : i = k
    · by_cases zero : value = 0 <;> simp [here, zero]
    · by_cases zero : value = 0 <;> simp [here, zero, listed]
  · by_cases before : table k = 0
    · have outside : k ∉ nonzero := by simp [listed, before]
      by_cases zero : value = 0 <;>
        simp [before, zero, Finset.erase_eq_of_notMem outside, Finset.card_insert_of_notMem outside]
    · have inside : k ∈ nonzero := by simp [listed, before]
      have pos := Finset.card_pos.mpr ⟨k, inside⟩
      by_cases zero : value = 0
      · simp only [before, zero, Finset.card_erase_of_mem inside, ne_eq, not_true, not_false_iff,
          if_true, if_false]
        omega
      · simp [before, zero, Finset.insert_eq_of_mem inside]

theorem Counts.eq_zero (counts : Counts table 0) : table = fun _ => 0 := by
  obtain ⟨nonzero, listed, _⟩ := counts
  have nothing : nonzero = ∅ := by
    apply Finset.card_eq_zero.mp
    omega
  funext i
  have absent := (listed i).not
  simpa [nothing] using absent

theorem Counts.ncard (counts : Counts table count) : count = Set.ncard {i | table i ≠ 0} := by
  obtain ⟨nonzero, listed, rfl⟩ := counts
  have same : {i | table i ≠ 0} = (nonzero : Set Nat) := by
    ext i
    simp [listed]
  rw [same, Set.ncard_coe_finset]

theorem Counts.exchange (counts : Counts table count) (i j : Nat) :
    Counts (exchange table i j) count := by
  by_cases same : i = j
  · have unchanged : Relocate.exchange table i j = table := by
      funext k
      rw [exchange_apply, same]
      split_ifs with here
      · rw [here]
      · rfl
    rw [unchanged]
    exact counts
  · have twice := (counts.update i (table j)).update j (table i)
    rw [update_of_ne (symm same), add_sub_cancel_right, sub_add_cancel] at twice
    exact twice

theorem Counts.moveOne (counts : Counts table count) (apart : dst < src) :
    Counts (moveOne 0 table src dst) (count - (if table dst ≠ 0 then 1 else 0)) := by
  have twice := (counts.update dst (table src)).update src 0
  rw [update_of_ne apart.ne', add_sub_cancel_right] at twice
  simp only [ne_eq, not_true, if_false, add_zero] at twice ⊢
  exact twice

end Count

namespace MinPLogitsProcessor
variable {state : MinPLogitsProcessor} {pair : MinPLogitsProcessor × Bool}

def tensors (state : MinPLogitsProcessor) : Bool × (Nat → Rat) × Nat :=
  (state.useDoubleTensor, state.minPDevice, state.shape)

theorem addRequest_cpu (pair : MinPLogitsProcessor × Bool) (req : AddedRequest) :
    (addRequest pair req).1.minPCpu =
      update pair.1.minPCpu req.index (float32 req.params.minP) := by
  rw [addRequest]
  split
  · rfl
  · rename_i same
    rw [← not_not.mp same, update_eq_self]

theorem addRequest_counts (counts : Counts pair.1.minPCpu pair.1.minPCount)
    (normal : float32 req.params.minP = 0 → req.params.minP = 0) :
    Counts (addRequest pair req).1.minPCpu (addRequest pair req).1.minPCount := by
  rw [addRequest_cpu]
  convert counts.update req.index (float32 req.params.minP) using 1
  have zero : req.params.minP = 0 → float32 req.params.minP = 0 := by
    intro isZero
    rw [isZero, float32_zero]
  rw [addRequest]
  split
  · by_cases before : pair.1.minPCpu req.index = 0 <;>
      by_cases none : req.params.minP = 0
    · simp [before, none, float32_zero]
    · simp [before, none, mt normal none]
    · simp [before, none, float32_zero]
    · simp [before, none, mt normal none]
  · rename_i same
    rw [← not_not.mp same, sub_add_cancel]

section
variable (pair : MinPLogitsProcessor × Bool)

theorem addRequest_tensors (req : AddedRequest) :
    (addRequest pair req).1.tensors = pair.1.tensors := by
  rw [addRequest]
  split <;> rfl

theorem addRequests (counts : Counts pair.1.minPCpu pair.1.minPCount)
    (normal : ∀ req ∈ added, float32 req.params.minP = 0 → req.params.minP = 0) :
    (added.foldl addRequest pair).1.minPCpu =
        afterAdds (fun req => float32 req.params.minP) pair.1.minPCpu added ∧
      Counts (added.foldl addRequest pair).1.minPCpu (added.foldl addRequest pair).1.minPCount ∧
      (added.foldl addRequest pair).1.tensors = pair.1.tensors := by
  induction added generalizing pair with
  | nil => exact ⟨rfl, counts, rfl⟩
  | cons req added ih =>
    obtain ⟨cpu, counted, tensors⟩ := ih (addRequest pair req)
      (addRequest_counts counts (normal req (mem_cons_self ..)))
      (fun later mem => normal later (mem_cons_of_mem _ mem))
    refine ⟨?_, counted, tensors.trans (addRequest_tensors pair req)⟩
    rw [foldl_cons, cpu, addRequest_cpu]
    rfl

theorem addRequest_unchanged (req : AddedRequest)
    (h : (addRequest pair req).2 = false) : addRequest pair req = pair := by
  rw [addRequest] at h ⊢
  split at h
  · cases h
  · rename_i same
    rw [if_neg same]

theorem removeRequest_cpu (state : MinPLogitsProcessor) (index : Nat) :
    (state.removeRequest index).minPCpu = update state.minPCpu index 0 := by
  rw [removeRequest]
  split
  · rfl
  · rename_i zero
    rw [← not_not.mp zero, update_eq_self]

theorem removeRequest_counts (counts : Counts state.minPCpu state.minPCount) (index : Nat) :
    Counts (state.removeRequest index).minPCpu (state.removeRequest index).minPCount := by
  rw [removeRequest_cpu]
  convert counts.update index 0 using 1
  rw [removeRequest]
  split <;> simp

theorem removeRequests (removed : List Nat) {state : MinPLogitsProcessor}
    (counts : Counts state.minPCpu state.minPCount) :
    (removed.foldl removeRequest state).minPCpu = clear 0 state.minPCpu removed ∧
      Counts (removed.foldl removeRequest state).minPCpu
        (removed.foldl removeRequest state).minPCount ∧
      (removed.foldl removeRequest state).tensors = state.tensors := by
  induction removed generalizing state with
  | nil =>
    refine ⟨?_, counts, rfl⟩
    funext i
    simp [clear]
  | cons index removed ih =>
    obtain ⟨cpu, counted, tensors⟩ := ih (removeRequest_counts counts index)
    have same : (state.removeRequest index).tensors = state.tensors := by
      rw [removeRequest]
      split <;> rfl
    refine ⟨?_, counted, tensors.trans same⟩
    rw [foldl_cons, cpu, removeRequest_cpu]
    funext i
    simp only [clear, update_apply, mem_cons]
    by_cases later : i ∈ removed <;> simp [later]

theorem moveRequest_cpu (apart : moved.direction = .unidirectional → moved.dst < moved.src) :
    (moveRequest pair moved).1.minPCpu = moved.apply 0 pair.1.minPCpu := by
  funext i
  rw [MovedRequest.apply]
  cases direction : moved.direction with
  | unidirectional =>
    have ne := (apart direction).ne'
    simp only [moveRequest, direction, moveOne, update_apply, reduceCtorEq, if_false, if_true]
    split_ifs <;> simp_all
  | swap =>
    simp only [moveRequest, direction, exchange_apply, reduceCtorEq, if_false, if_true]
    split_ifs <;> simp_all

end

theorem moveRequest_counts (counts : Counts pair.1.minPCpu pair.1.minPCount)
    (apart : moved.direction = .unidirectional → moved.dst < moved.src) :
    Counts (moveRequest pair moved).1.minPCpu (moveRequest pair moved).1.minPCount := by
  rw [moveRequest_cpu pair apart, MovedRequest.apply]
  cases direction : moved.direction with
  | unidirectional =>
    convert counts.moveOne (apart direction) using 1
    simp only [moveRequest, direction, if_true]
    split_ifs <;> simp
  | swap =>
    convert counts.exchange moved.src moved.dst using 1
    simp only [moveRequest, direction, reduceCtorEq, if_false]

theorem moveRequest_tensors (pair : MinPLogitsProcessor × Bool) (moved : MovedRequest) :
    (moveRequest pair moved).1.tensors = pair.1.tensors := by
  simp only [moveRequest]
  split <;> rfl

theorem moveRequests
    (apart : ∀ moved ∈ moves, moved.direction = .unidirectional → moved.dst < moved.src)
    (pair : MinPLogitsProcessor × Bool) (counts : Counts pair.1.minPCpu pair.1.minPCount) :
    (moves.foldl moveRequest pair).1.minPCpu = moves.foldl (MovedRequest.apply 0) pair.1.minPCpu ∧
      Counts (moves.foldl moveRequest pair).1.minPCpu (moves.foldl moveRequest pair).1.minPCount ∧
      (moves.foldl moveRequest pair).1.tensors = pair.1.tensors := by
  induction moves generalizing pair with
  | nil => exact ⟨rfl, counts, rfl⟩
  | cons moved moves ih =>
    obtain ⟨cpu, counted, tensors⟩ := ih
      (fun later mem => apart later (mem_cons_of_mem _ mem)) (moveRequest pair moved)
      (moveRequest_counts counts (apart moved (mem_cons_self ..)))
    refine ⟨?_, counted, tensors.trans (moveRequest_tensors pair moved)⟩
    rw [foldl_cons, cpu, moveRequest_cpu pair (apart moved (mem_cons_self ..))]
    rfl

/-- Moves that do not ask for an update change nothing within the batch. -/
theorem moveRequests_unchanged {size : Nat}
    (downward : ∀ moved ∈ moves, moved.direction = .unidirectional → size ≤ moved.src)
    (quiet : (moves.foldl moveRequest pair).2 = false) :
    pair.2 = false ∧ ∀ i < size, (moves.foldl moveRequest pair).1.minPCpu i = pair.1.minPCpu i := by
  induction moves generalizing pair with
  | nil => exact ⟨quiet, fun _ _ => rfl⟩
  | cons moved moves ih =>
    obtain ⟨flag, rest⟩ := ih (fun later mem => downward later (mem_cons_of_mem _ mem))
      quiet
    have parts : pair.2 = false ∧ pair.1.minPCpu moved.src = pair.1.minPCpu moved.dst := by
      have both : (pair.2 || decide (pair.1.minPCpu moved.src ≠ pair.1.minPCpu moved.dst)) =
          false := by
        simp only [moveRequest] at flag
        split at flag <;> exact flag
      simpa using both
    refine ⟨parts.1, ?_⟩
    intro i below
    rw [foldl_cons, rest i below]
    simp only [moveRequest, parts.2, ne_eq, not_true, if_false]
    split
    · rename_i direction
      have beyond := downward moved (mem_cons_self ..) direction
      dsimp only
      split
      · rw [update_of_ne (by omega)]
      · rfl
    · rfl

/-- The slice on the device is the table up to the batch size, as long as it is used. -/
def Sliced (state : MinPLogitsProcessor) (size : Nat) : Prop :=
  state.minPCount ≠ 0 → state.shape = size ∧
    (state.useDoubleTensor = true → ∀ i < size, state.minPDevice i = state.minPCpu i)

theorem updateTensors_sliced
    (current : needsUpdate = false → state.shape = size → state.Sliced size) :
    (state.updateTensors needsUpdate size).Sliced size := by
  rw [updateTensors]
  split
  · intro _
    refine ⟨rfl, ?_⟩
    intro double i below
    simp only [show state.useDoubleTensor = true from double, if_true, copyFirst, if_pos below]
  · rename_i skipped
    intro busy
    have quiet : needsUpdate = false ∧ state.shape = size := by
      rw [not_and_or, not_or, not_not] at skipped
      have both := skipped.resolve_left busy
      exact ⟨by simpa using both.1, not_not.mp both.2⟩
    exact current quiet.1 quiet.2 busy

/-- An update replays its lists on the table, whether the later phases are skipped or not; it
counts the entries and keeps the slice on the device current. -/
theorem updateState_spec {update : Option BatchUpdate}
    (counts : Counts state.minPCpu state.minPCount) (sliced : state.Sliced size)
    (same : update = none → next = size)
    (pending : ∀ pending, update = some pending → pending.batchSize = next ∧ (∀ added ∈
      pending.added, float32 added.params.minP = 0 → added.params.minP = 0) ∧ ∀ moved ∈
      pending.moved, moved.direction = .unidirectional → next ≤ moved.src ∧ moved.dst < moved.src) :
    (state.updateState update).minPCpu = InputBatch.replayUpdate
        (fun added => float32 added.params.minP) 0 state.minPCpu update ∧
      Counts (state.updateState update).minPCpu (state.updateState update).minPCount ∧
      (state.updateState update).Sliced next := by
  cases update with
  | none =>
    rw [same rfl]
    exact ⟨rfl, counts, sliced⟩
  | some given =>
    obtain ⟨sizeIs, normal, downward⟩ := pending given rfl
    have apart := fun moved mem direction => (downward moved mem direction).2
    obtain ⟨cpu, counted, tensors⟩ := addRequests (state, false) counts normal
    rw [InputBatch.replayUpdate, replay, ← cpu]
    simp only [updateState]
    generalize addedIs : given.added.foldl addRequest (state, false) = added at cpu counted tensors
    have first : added.2 = false → added = (state, false) := by
      intro quiet
      rw [← addedIs] at quiet ⊢
      exact foldl_unchanged addRequest_unchanged _ _ quiet
    have kept : ∀ (after : MinPLogitsProcessor) (flag : Bool),
        (after.updateTensors flag given.batchSize).minPCpu = after.minPCpu ∧
        (after.updateTensors flag given.batchSize).minPCount = after.minPCount := by
      intro after flag
      rw [updateTensors]
      split <;> exact ⟨rfl, rfl⟩
    rw [(kept _ _).1, (kept _ _).2]
    by_cases busy : added.1.minPCount = 0
    · rw [if_neg (not_not.mpr busy)]
      have nothing := Counts.eq_zero (busy ▸ counted)
      refine ⟨?_, counted, ?_⟩
      · rw [nothing, moves_constant]
      · rw [← sizeIs]
        exact updateTensors_sliced (fun _ _ some_left => absurd busy some_left)
    · rw [if_pos busy]
      obtain ⟨cleared, countedCleared, tensorsCleared⟩ := removeRequests given.removed counted
      obtain ⟨moved, countedMoved, tensorsMoved⟩ := moveRequests apart
        (given.removed.foldl removeRequest added.1, added.2 || decide (given.removed ≠ []))
        countedCleared
      refine ⟨by rw [moved, cleared], countedMoved, ?_⟩
      rw [← sizeIs]
      apply updateTensors_sliced
      intro quiet shape
      obtain ⟨flag, inside⟩ := moveRequests_unchanged
        (fun moved mem direction => sizeIs ▸ (downward moved mem direction).1) quiet
      obtain ⟨unchanged, nothing⟩ := Bool.or_eq_false_iff.mp flag
      have noRemoval : given.removed = [] := by simpa using nothing
      have whole := tensorsMoved.trans (tensorsCleared.trans tensors)
      simp only [MinPLogitsProcessor.tensors, Prod.mk.injEq] at whole
      rw [whole.2.2] at shape
      rw [noRemoval, first unchanged] at inside
      intro _
      rw [first unchanged] at busy
      obtain ⟨_, device⟩ := sliced busy
      refine ⟨whole.2.2.trans shape, ?_⟩
      intro double i below
      rw [noRemoval, first unchanged] at whole double ⊢
      rw [inside i below, whole.2.1]
      rw [whole.1] at double
      exact device double i (by omega)

end MinPLogitsProcessor

namespace LogitBiasLogitsProcessor

theorem updateState_slice {state : LogitBiasLogitsProcessor} (update : Option BatchUpdate)
    (sliced : state.logitsSlice = sliceOf state.biases) :
    (state.updateState update).logitsSlice = sliceOf (state.updateState update).biases := by
  simp only [updateState]
  split
  · rfl
  · rename_i quiet
    rw [processDictUpdates_unchanged _ _ (Bool.eq_false_iff.mpr quiet), sliced]

end LogitBiasLogitsProcessor

namespace MinTokensLogitsProcessor

/-- Entries that have been reached are dropped. -/
theorem updateState_get? (state : MinTokensLogitsProcessor) (outputs : Nat → List TokenId)
    (update : Option BatchUpdate) (i : Nat) : (state.updateState outputs update).minToks.get? i =
      ((processDictUpdates state.minToks update (addRequest outputs)).1.get? i).filter
        (fun entry => !reached outputs entry) := by
  simp only [updateState, Dict.get?_foldl_erase]
  generalize (processDictUpdates state.minToks update (addRequest outputs)).1 = entries
  have listed : i ∈ (entries.entries.filter (fun entry => reached outputs entry.2)).map Prod.fst ↔
      ∃ entry, entries.get? i = some entry ∧ reached outputs entry = true := by
    simp only [mem_map, mem_filter, Prod.exists, Dict.get?_eq_some]
    constructor
    · rintro ⟨key, entry, ⟨mem, done⟩, rfl⟩
      exact ⟨entry, mem, done⟩
    · rintro ⟨entry, mem, done⟩
      exact ⟨i, entry, ⟨mem, done⟩, rfl⟩
  simp only [listed]
  cases found : entries.get? i with
  | none => simp
  | some entry => cases done : reached outputs entry <;> simp [done, Option.filter]

theorem updateState_slice {state : MinTokensLogitsProcessor} (outputs : Nat → List TokenId)
    (update : Option BatchUpdate) (sliced : state.logitsSlice = sliceOf state.minToks) :
    (state.updateState outputs update).logitsSlice =
      sliceOf (state.updateState outputs update).minToks := by
  simp only [updateState]
  split
  · rfl
  · rename_i quiet
    simp only [Bool.not_eq_true, Bool.or_eq_false_iff, decide_eq_false_iff_not, not_not] at quiet
    rw [quiet.2, foldl_nil, processDictUpdates_unchanged _ _ quiet.1, sliced]

end MinTokensLogitsProcessor
end Vllm.Worker
