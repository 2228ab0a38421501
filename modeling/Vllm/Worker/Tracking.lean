import Vllm.Worker.BatchStep

/-! A table with one value per batch index that is kept up to date by the pending updates of the
batch. The update lists additions, removals and moves apart from each other, although they
happened interleaved; the table that replays them agrees with the batch after the step. -/
namespace Vllm.Worker
open List hiding next
open Relocate Py Dict Py.Avoids BatchUpdateBuilder

section Replay
variable {β : Type} (put : AddedRequest → β) (empty : β) (table : Nat → β) (removed : List Nat)
  (added : List AddedRequest)

def afterAdds : Nat → β :=
  added.foldl (fun table req => Function.update table req.index (put req)) table

def MovedRequest.apply (moved : MovedRequest) : Nat → β :=
  match moved.direction with
  | .unidirectional => moveOne empty table moved.src moved.dst
  | .swap => exchange table moved.src moved.dst

def replay (moved : List MovedRequest) : Nat → β :=
  moved.foldl (MovedRequest.apply empty) (clear empty (afterAdds put table added) removed)

end Replay

namespace InputBatch

variable {batch next : InputBatch} {reqId : String}

section Phases
variable {β : Type} {put : AddedRequest → β} {empty : β} {Listed : AddedRequest → Prop}
  {Fits : Option String → β → Prop} {table : Nat → β}

section
variable (put : AddedRequest → β) (empty : β) (Listed : AddedRequest → Prop)
  (Fits : Option String → β → Prop) (table : Nat → β) (batch : InputBatch)

/-- While requests are removed and added, the removed indices are stale. -/
structure Filling : Prop where
  opened : batch.Open
  generation : batch.isPoolingModel = false
  still : batch.batchUpdateBuilder.moved = []
  listed : ∀ added ∈ batch.batchUpdateBuilder.added, Listed added
  agree : Agree Fits (· ∈ batch.removed) (afterAdds put table batch.batchUpdateBuilder.added)
    batch.occupant

/-- Once the moves have begun, the removed indices that the update will not clear are stale. -/
structure Settling : Prop where
  generation : batch.isPoolingModel = false
  listed : ∀ added ∈ batch.batchUpdateBuilder.added, Listed added
  agree : ∀ cleared ⊆ batch.removed,
    Agree Fits (fun i => i ∈ batch.removed ∧ i ∉ cleared)
      (replay put empty table cleared batch.batchUpdateBuilder.added
        batch.batchUpdateBuilder.moved) batch.occupant
  downward : ∀ moved ∈ batch.batchUpdateBuilder.moved, moved.direction = .unidirectional →
    batch.numReqs ≤ moved.src ∧ moved.dst < moved.src

end

theorem Filling.removeRequest (fill : Filling put Listed Fits table batch)
    (ran : batch.removeRequest reqId = .ok next) : Filling put Listed Fits table next := by
  have opened := fill.opened.removeRequest ran
  rcases removeRequest_layout ran with ⟨-, rfl⟩ | ⟨index, found, -, ids, -, builder, kind⟩
  · exact fill
  have here := (fill.opened.inverse reqId index).mp found
  have vacated : next.occupant = Function.update batch.occupant index none :=
    funext (occupant_set (lt_of_occupant here) ids)
  refine ⟨opened.1, kind.trans fill.generation, by rw [builder]; exact fill.still,
    by rw [builder]; exact fill.listed, ?_⟩
  rw [vacated, builder]
  refine (fill.agree.vacate index).weaken ?_
  intro i stale
  rw [removed, builder]
  exact mem_append.mpr (stale.imp_right mem_singleton.mpr)

/-- A write to a row changes nothing that the layout depends on. -/
theorem writeRow_layout (batch : InputBatch) (index : Nat) (write : RowWrite) :
    (batch.writeRow index write).reqIds = batch.reqIds ∧
      (batch.writeRow index write).reqIdToIndex = batch.reqIdToIndex ∧
      (batch.writeRow index write).batchUpdateBuilder = batch.batchUpdateBuilder ∧
      (batch.writeRow index write).isPoolingModel = batch.isPoolingModel := by
  cases write <;> exact ⟨rfl, rfl, rfl, rfl⟩

theorem updateRow_layout (ran : batch.updateRow reqId write = .ok next) :
    next.reqIds = batch.reqIds ∧ next.reqIdToIndex = batch.reqIdToIndex ∧
      next.batchUpdateBuilder = batch.batchUpdateBuilder ∧
      next.isPoolingModel = batch.isPoolingModel := by
  rw [updateRow] at ran
  split at ran
  · cases ran
  · cases ran
    exact writeRow_layout ..

theorem Open.of_layout (opened : batch.Open) (ids : next.reqIds = batch.reqIds)
    (map : next.reqIdToIndex = batch.reqIdToIndex)
    (builder : next.batchUpdateBuilder = batch.batchUpdateBuilder) : next.Open := by
  have occ : next.occupant = batch.occupant := by
    funext i
    rw [occupant, ids, occupant]
  have listed : next.removed = batch.removed := by rw [removed, builder, removed]
  constructor
  · rw [map, occ]
    exact opened.inverse
  · rw [ids, occ, listed]
    exact opened.holes
  · rw [ids, listed]
    exact opened.removed_lt
  · rw [listed]
    exact opened.removed_nodup
  · rw [ids, listed, numReqs, map]
    exact opened.counted
  · rw [builder, listed]
    exact opened.sorted

section
variable (fill : Filling put Listed Fits table batch)
include fill

theorem Filling.updateRow
    (ran : batch.updateRow reqId write = .ok next) : Filling put Listed Fits table next := by
  obtain ⟨ids, map, builder, kind⟩ := updateRow_layout ran
  have same : next.occupant = batch.occupant := by
    funext i
    rw [occupant, ids, occupant]
  refine ⟨fill.opened.of_layout ids map builder, kind.trans fill.generation,
    by rw [builder]; exact fill.still, by rw [builder]; exact fill.listed, ?_⟩
  rw [removed, builder, same]
  exact fill.agree

theorem Filling.addRequest (sampled : req.samplingParams = some params)
    (written : ∀ index, Listed ⟨index, params, req.outputRef⟩ ∧ Fits (some req.reqId)
      (put ⟨index, params, req.outputRef⟩))
    (fresh : batch.reqIdToIndex.get? req.reqId = none)
    (ran : batch.addRequest req = .ok next) : Filling put Listed Fits table next := by
  have opened := fill.opened.addRequest ran fresh
  have occ := fill.opened.occupant_addRequest ran
  have holes := fill.opened.removed_addRequest ran
  obtain ⟨-, -, builder, kind⟩ := addRequest_layout ran
  have pending := popRemoved_moved batch.batchUpdateBuilder
  have added : next.batchUpdateBuilder.added =
      batch.batchUpdateBuilder.added ++ [⟨batch.newIndex, params, req.outputRef⟩] := by
    rw [builder, builderAfter, sampled, ← pending.2]
  refine ⟨opened, kind.trans fill.generation, ?_, ?_, ?_⟩
  · rw [builder]
    exact pending.1.trans fill.still
  · intro entry mem
    rw [added, mem_append, mem_singleton] at mem
    rcases mem with prior | rfl
    · exact fill.listed entry prior
    · exact (written _).1
  · rw [occ, added, afterAdds, foldl_append]
    refine (fill.agree.put batch.newIndex (written _).2).weaken ?_
    intro i stale
    exact (holes i).mpr stale

theorem Filling.settling (vacant : Fits none empty) :
    Settling put empty Listed Fits table batch.sortRemoved := by
  have pending := ensureRemovedSorted_moved batch.batchUpdateBuilder
  have still : batch.sortRemoved.batchUpdateBuilder.moved = [] := pending.1.trans fill.still
  refine ⟨fill.generation, by rw [sortRemoved, pending.2]; exact fill.listed, ?_, ?_⟩
  · intro cleared some_removed
    have holes : ∀ i ∈ cleared, batch.occupant i = none := by
      intro i mem
      have hole := (mem_sortRemoved batch i).mp (some_removed mem)
      exact (fill.opened.holes i (fill.opened.removed_lt i hole)).mpr hole
    rw [still, sortRemoved, pending.2]
    refine (fill.agree.clear vacant holes).weaken ?_
    intro i stale
    exact ⟨(mem_sortRemoved batch i).mpr stale.1, stale.2⟩
  · rw [still]
    intro moved mem
    cases mem

end

theorem Settling.moveRequest (settling : Settling put empty Listed Fits table batch)
    (vacant : Fits none empty) (condensing : batch.Condensing last)
    (lowest : batch.removed.getLast? = some empty') (lower : empty' < last)
    (here : batch.occupant last = some reqId) :
    Settling put empty Listed Fits table (batch.moveRequest last empty' reqId) := by
  obtain ⟨moved, split⟩ := condensing.moveRequest lowest lower here
  have pending := popRemoved_moved batch.batchUpdateBuilder
  have kind : (batch.moveRequest last empty' reqId).isPoolingModel = false := by
    rw [InputBatch.moveRequest]
    split <;> exact settling.generation
  have builder : (batch.moveRequest last empty' reqId).batchUpdateBuilder.added =
        batch.batchUpdateBuilder.added ∧
      (batch.moveRequest last empty' reqId).batchUpdateBuilder.moved =
        batch.batchUpdateBuilder.moved ++ [⟨last, empty', .unidirectional⟩] := by
    rw [InputBatch.moveRequest, settling.generation, ← pending.1, ← pending.2]
    exact ⟨rfl, rfl⟩
  have places := occupant_moveRequest here lower
  have solid : last ∉ batch.removed := by
    rw [← condensing.below last le_rfl, here]
    simp
  have size : (batch.moveRequest last empty' reqId).numReqs = batch.numReqs := by
    rw [numReqs, (moveRequest_layout _ _ _ _).2.1, size_set, (condensing.inverse _ _).mpr here]
    rfl
  refine ⟨kind, by rw [builder.1]; exact settling.listed, ?_, ?_⟩
  · intro cleared some_removed
    have wider : cleared ⊆ batch.removed := by
      rw [split]
      exact subset_append_of_subset_left _ some_removed
    rw [builder.1, builder.2, replay, foldl_append, places]
    have before := settling.agree cleared wider
    refine (before.moveOne vacant (fun stale => solid stale.1)).weaken ?_
    rintro i ⟨⟨hole, uncleared⟩, other⟩
    rw [split, mem_append, mem_singleton] at hole
    exact ⟨hole.resolve_right other, uncleared⟩
  · intro move mem downward
    rw [builder.2, mem_append, mem_singleton] at mem
    rw [size]
    rcases mem with prior | rfl
    · exact settling.downward move prior downward
    · refine ⟨?_, lower⟩
      have counted := condensing.counted
      have some_counted : 0 < batch.removed.countP (· ≤ last) :=
        countP_pos_iff.mpr ⟨empty', mem_of_getLast? lowest, by simpa using lower.le⟩
      simp only
      omega

theorem Settling.trim (settling : Settling put empty Listed Fits table batch)
    (packed : batch.Packed) : Settling put empty Listed Fits table batch.trim := by
  refine { settling with agree := ?_ }
  rw [packed.occupant_trim]
  exact settling.agree

theorem Settling.swapStates (dense : batch.Dense)
    (settling : Settling put empty Listed Fits table batch)
    (ran : batch.swapStates i j = .ok next) : Settling put empty Listed Fits table next := by
  have places := occupant_swapStates ran
  have size := (dense.swapStates ran).2
  obtain ⟨_, _, _, _, here, there, -, -, rfl⟩ := swapStates_ok ran
  rw [if_neg (by simp [settling.generation])] at places size ⊢
  have solid : ∀ {k : Nat} {reqId : String}, batch.occupant k = some reqId → k ∉ batch.removed := by
    intro k reqId found hole
    rw [(dense.full k).mpr (dense.beyond k hole)] at found
    cases found
  refine ⟨settling.generation, settling.listed, ?_, ?_⟩
  · intro cleared some_removed
    change Agree Fits _ (replay put empty table cleared batch.batchUpdateBuilder.added
      (batch.batchUpdateBuilder.moved ++ [⟨i, j, .swap⟩])) _
    rw [places, replay, foldl_append]
    exact (settling.agree cleared some_removed).exchange (fun stale => solid here stale.1)
      (fun stale => solid there stale.1)
  · intro move mem downward
    rw [size]
    change move ∈ batch.batchUpdateBuilder.moved ++ [⟨i, j, .swap⟩] at mem
    rw [mem_append, mem_singleton] at mem
    rcases mem with prior | rfl
    · exact settling.downward move prior downward
    · cases downward

end Phases
variable {change : BatchStep} {now : InputBatch} {writes : List (String × RowWrite)}

section
variable (batch : InputBatch) (change : BatchStep)

structure Unused : Prop where
  distinct : (change.additions.map (fun add => add.1.reqId)).Nodup
  fresh : ∀ add ∈ change.additions,
    batch.reqIdToIndex.get? add.1.reqId = none ∨ add.1.reqId ∈ change.removals

structure Admissible : Prop extends
    Unused batch change where
  sampling : ∀ add ∈ change.additions, add.1.samplingParams.isSome

def replayUpdate {β : Type} (put : AddedRequest → β) (empty : β) (table : Nat → β) :
    Option BatchUpdate → Nat → β
  | none => table
  | some update => replay put empty table update.removed update.added update.moved

structure Leaving (gone : List String) (now : InputBatch) : Prop where
  opened : now.Open
  unread : now.batchUpdateBuilder.isRemovedSorted = false
  stays : ∀ reqId i, now.occupant i = some reqId → batch.occupant i = some reqId ∧ reqId ∉ gone

end

theorem Leaving.removeRequest (leaving : Leaving batch gone now)
    (ran : now.removeRequest reqId = .ok next) : Leaving batch (gone ++ [reqId]) next := by
  have opened := leaving.opened.removeRequest ran
  refine ⟨opened.1, opened.2.trans leaving.unread, ?_⟩
  intro other i here
  rw [mem_append, mem_singleton, not_or]
  rcases removeRequest_layout ran with ⟨unknown, rfl⟩ | ⟨_, _, -, _, map, -, -⟩
  · refine ⟨(leaving.stays other i here).1, (leaving.stays other i here).2, ?_⟩
    rintro rfl
    rw [(leaving.opened.inverse other i).mpr here] at unknown
    cases unknown
  · have known := (opened.1.inverse other i).mpr here
    rw [map, get?_erase] at known
    split at known
    · cases known
    · rename_i ne
      have before := leaving.stays other i ((leaving.opened.inverse other i).mp known)
      exact ⟨before.1, before.2, ne⟩

theorem occupant_updateAll (ran : batch.updateAll writes = .ok now) :
    now.reqIds = batch.reqIds ∧ now.reqIdToIndex = batch.reqIdToIndex ∧
      now.batchUpdateBuilder = batch.batchUpdateBuilder ∧
      now.isPoolingModel = batch.isPoolingModel := by
  refine foldlM_invariant (fun now => now.reqIds = batch.reqIds ∧
    now.reqIdToIndex = batch.reqIdToIndex ∧
    now.batchUpdateBuilder = batch.batchUpdateBuilder ∧
    now.isPoolingModel = batch.isPoolingModel) ?_ ⟨rfl, rfl, rfl, rfl⟩ ran
  intro now _ _ _ kept stepped
  have same := updateRow_layout stepped
  exact ⟨same.1.trans kept.1, same.2.1.trans kept.2.1, same.2.2.1.trans kept.2.2.1,
    same.2.2.2.trans kept.2.2.2⟩

/-- The successive batches of a step. -/
theorem step_ok (ran : batch.step change = .ok (update, next)) :
    ∃ sampled removed written added condensed swapped,
      batch.updateAll (change.sampled.map (fun entry => (entry.1, .sampled entry.2))) =
        .ok sampled ∧ sampled.removeAll change.removals = .ok removed ∧
      removed.updateAll change.writes = .ok written ∧ written.addAll change.additions = .ok added ∧
      added.condense = .ok condensed ∧ condensed.swapAll change.swaps = .ok swapped ∧
      swapped.refreshMetadata = (update, next) := by
  obtain ⟨sampled, first, ran⟩ := bind_ok ran
  obtain ⟨removed, second, ran⟩ := bind_ok ran
  obtain ⟨written, third, ran⟩ := bind_ok ran
  obtain ⟨added, fourth, ran⟩ := bind_ok ran
  obtain ⟨condensed, fifth, ran⟩ := bind_ok ran
  obtain ⟨swapped, sixth, ran⟩ := bind_ok ran
  exact ⟨sampled, removed, written, added, condensed, swapped, first, second, third, fourth, fifth,
    sixth, Except.ok.inj ran⟩

theorem Closed.leaving (closed : batch.Closed) (ran : batch.updateAll writes = .ok now) :
    Leaving batch [] now := by
  obtain ⟨ids, map, builder, -⟩ := occupant_updateAll ran
  refine ⟨closed.toOpen.of_layout ids map builder, by rw [builder, closed.settled], ?_⟩
  intro _ i here
  rw [occupant, ids] at here
  exact ⟨here, by simp⟩

theorem Leaving.removeAll {reqIds : List String} (leaving : Leaving batch [] now)
    (ran : now.removeAll reqIds = .ok next) : Leaving batch reqIds next := by
  refine foldlM_items (fun gone now => Leaving batch gone now) ?_ leaving ran
  intro _ _ _ now _ _ leaving stepped
  exact leaving.removeRequest stepped

structure Joining (additions done : List (CachedRequestState × List TokenId)) (now : InputBatch) :
    Prop where
  opened : now.Open
  fresh : ∀ add ∈ additions, add ∉ done → now.reqIdToIndex.get? add.1.reqId = none

theorem Leaving.joining (closed : batch.Closed)
    (unused : batch.Unused change) (leaving : Leaving batch change.removals now)
    (ran : now.updateAll writes = .ok written) : Joining change.additions [] written := by
  obtain ⟨ids, map, builder, -⟩ := occupant_updateAll ran
  refine ⟨leaving.opened.of_layout ids map builder, ?_⟩
  intro add mem _
  rw [map]
  cases found : now.reqIdToIndex.get? add.1.reqId with
  | none => rfl
  | some i =>
    obtain ⟨here, kept⟩ := leaving.stays _ i ((leaving.opened.inverse _ i).mp found)
    rcases unused.fresh add mem with unknown | removed
    · rw [(closed.inverse _ i).mpr here] at unknown
      cases unknown
    · exact absurd removed kept

theorem Joining.addWithSpec {additions prior later : List (CachedRequestState × List TokenId)}
    {add : CachedRequestState × List TokenId}
    (distinct : (additions.map (fun add => add.1.reqId)).Nodup)
    (split : additions = prior ++ add :: later) (joining : Joining additions prior now)
    (ran : now.addWithSpec add = .ok next) : now.reqIdToIndex.get? add.1.reqId = none ∧
      Joining additions (prior ++ [add]) next := by
  have unique : ∀ other ∈ additions, other.1.reqId = add.1.reqId → other = add :=
    fun other mem same => inj_on_of_nodup_map distinct mem (by simp [split]) same
  have new : add ∉ prior := by
    rw [split] at distinct
    have listed := List.Nodup.of_map _ distinct
    intro mem
    exact (disjoint_of_nodup_append listed) mem (mem_cons_self ..)
  have fresh := joining.fresh add (by simp [split]) new
  obtain ⟨placed, added, written⟩ := bind_ok ran
  obtain ⟨ids, map, builder, -⟩ := updateRow_layout written
  refine ⟨fresh, (joining.opened.addRequest added fresh).of_layout ids map builder, ?_⟩
  intro other mem undone
  rw [mem_append, mem_singleton, not_or] at undone
  rw [map, (addRequest_layout added).2.1, get?_set]
  split
  · rename_i same
    exact absurd (unique other mem same) undone.2
  · exact joining.fresh other mem undone.1

/-- What `removed_append` raises. -/
def LateRemoval (e : PyError) : Prop := ∃ message, e = .runtimeError message

theorem updateRow_avoids (batch : InputBatch) (reqId : String) (write : RowWrite) :
    Py.Avoids LateRemoval (batch.updateRow reqId write) := by
  intro e raised
  rintro ⟨_, rfl⟩
  rw [updateRow] at raised
  split at raised <;> cases raised

theorem updateAll_avoids (batch : InputBatch) (writes : List (String × RowWrite)) :
    Py.Avoids LateRemoval (batch.updateAll writes) :=
  foldlM (fun _ => True) (fun write _ _ => updateRow_avoids _ write.1 write.2)
    (fun _ _ _ => trivial) trivial

theorem removeRequest_avoids (unread : batch.batchUpdateBuilder.isRemovedSorted = false)
    (reqId : String) : Py.Avoids LateRemoval (batch.removeRequest reqId) := by
  rw [removeRequest]
  split
  · exact ok batch
  · rw [removedAppend, if_neg (by simp [unread]), ok_bind]
    refine bind ?_ (fun _ _ => ok _)
    intro e raised
    rintro ⟨_, rfl⟩
    rw [removeLora] at raised
    split at raised
    · cases raised
    · split at raised <;> cases raised

theorem addRequest_avoids (batch : InputBatch) (req : CachedRequestState) :
    Py.Avoids LateRemoval (batch.addRequest req) := by
  refine bind ?_ ?_
  · intro e raised
    rintro ⟨message, rfl⟩
    rw [registerAddRequest, Py.assert] at raised
    split at raised <;> cases raised
  · rintro ⟨_, _⟩ _
    refine bind ?_ ?_
    · intro e raised
      rintro ⟨message, rfl⟩
      rw [lengthFromPromptTokenIdsOrEmbeds.eq_def] at raised
      split at raised
      · cases raised
      · cases raised
      · cases raised
      · split at raised <;> cases raised
    · intro _ _
      refine bind ?_ (fun _ _ => ok _)
      intro e raised
      rintro ⟨message, rfl⟩
      rw [writeParams] at raised
      split at raised
      · cases raised
      · rw [writePoolingParams] at raised
        split at raised <;> cases raised
      · cases raised

theorem swapAll_avoids (batch : InputBatch) (swaps : List (Nat × Nat)) :
    Py.Avoids LateRemoval (batch.swapAll swaps) := by
  refine foldlM (fun _ => True) ?_ (fun _ _ _ => trivial) trivial
  intro _ _ _ _ e raised
  rintro ⟨_, rfl⟩
  rw [swapStates] at raised
  split at raised
  · split at raised <;> cases raised
  · cases raised
  · cases raised

/-- All removals of a step come before the removed indices are read. -/
theorem step_avoids (closed : batch.Closed) (unused : batch.Unused change) :
    Py.Avoids LateRemoval (batch.step change) := by
  rw [step]
  refine bind (updateAll_avoids _ _) ?_
  intro _ first
  refine bind ?_ ?_
  · refine foldlM (fun now => now.batchUpdateBuilder.isRemovedSorted = false)
      (fun reqId _ unread => removeRequest_avoids unread reqId) ?_ (closed.leaving first).unread
    intro now reqId after _ unread stepped
    rcases removeRequest_layout stepped with ⟨-, rfl⟩ | ⟨index, -, -, -, -, builder, -⟩
    · exact unread
    · rw [builder]
      exact unread
  intro removed second
  refine bind (updateAll_avoids _ _) ?_
  intro written third
  refine bind ?_ ?_
  · refine foldlM (fun _ => True) ?_ (fun _ _ _ => trivial) trivial
    intro now add _ _
    rw [addWithSpec]
    refine bind (addRequest_avoids now add.1) ?_
    intro placed _
    exact updateRow_avoids placed _ _
  intro added fourth
  have joined := foldlM_items (Joining change.additions)
    (fun split joining stepped => (joining.addWithSpec unused.distinct split stepped).2)
    (((closed.leaving first).removeAll second).joining closed unused third) fourth
  obtain ⟨_, ran, -⟩ := joined.opened.condense (P := fun _ => True) trivial
    (fun _ _ _ _ _ => trivial) (fun _ _ => trivial)
  rw [ran, ok_bind]
  exact bind (swapAll_avoids _ _) (fun _ _ => ok _)

variable {β : Type} {put : AddedRequest → β} {empty : β} {Listed : AddedRequest → Prop}
  {Fits Fits' : Option String → β → Prop} {table : Nat → β}

theorem Filling.updateAll (fill : Filling put Listed Fits table batch)
    (ran : batch.updateAll writes = .ok next) : Filling put Listed Fits table next :=
  foldlM_invariant (Filling put Listed Fits table)
    (fun _ fill stepped => fill.updateRow stepped) fill ran

/-- The requests that stay keep their entries. -/
theorem Filling.switch (fill : Filling put Listed Fits table now)
    (leaving : Leaving batch change.removals now)
    (vacant : ∀ {value}, Fits none value → Fits' none value)
    (kept : ∀ {reqId i value}, batch.occupant i = some reqId → reqId ∉ change.removals → Fits
      (some reqId) value → Fits' (some reqId) value) : Filling put Listed Fits' table now := by
  refine { fill with agree := ?_ }
  intro i fresh
  have fits := fill.agree i fresh
  cases here : now.occupant i with
  | none =>
    rw [here] at fits
    exact vacant fits
  | some reqId =>
    rw [here] at fits
    obtain ⟨before, stays⟩ := leaving.stays reqId i here
    exact kept before stays fits

theorem Filling.addAll (admissible : batch.Admissible change)
    (fill : Filling put Listed Fits table now) (joining : Joining change.additions [] now)
    (written : ∀ {add params}, add ∈ change.additions → add.1.samplingParams =
      some params → ∀ index, Listed ⟨index, params, add.1.outputRef⟩ ∧
        Fits (some add.1.reqId) (put ⟨index, params, add.1.outputRef⟩))
    (ran : now.addAll change.additions = .ok next) : Filling put Listed Fits table next := by
  have both := foldlM_items (fun done now =>
    Filling put Listed Fits table now ∧ Joining change.additions done now) ?_ ⟨fill, joining⟩ ran
  · exact both.1
  · intro _ add _ now _ split ⟨fill, joining⟩ stepped
    obtain ⟨fresh, joined⟩ := joining.addWithSpec admissible.distinct split stepped
    have mem : add ∈ change.additions := by simp [split]
    obtain ⟨params, sampled⟩ := Option.isSome_iff_exists.mp (admissible.sampling add mem)
    obtain ⟨_, added, specs⟩ := bind_ok stepped
    exact ⟨(fill.addRequest sampled (written mem sampled) fresh added).updateRow specs, joined⟩

variable (put empty Listed Fits Fits' table) in
/-- After a step the batch has no holes, and a table that agreed with it and replays the pending
update agrees with it again. What fits a request may change with the step. -/
theorem step_tracks {update : Option BatchUpdate}
    (ran : batch.step change = .ok (update, next)) (closed : batch.Closed)
    (gen : batch.isPoolingModel = false) (admissible : batch.Admissible change)
    (agree : ∀ i, Fits (batch.occupant i) (table i)) (empties : Fits' none empty)
    (written : ∀ {add params}, add ∈ change.additions →
      add.1.samplingParams = some params → ∀ index,
      Listed ⟨index, params, add.1.outputRef⟩ ∧
        Fits' (some add.1.reqId) (put ⟨index, params, add.1.outputRef⟩))
    (vacant : ∀ {value}, Fits none value → Fits' none value)
    (kept : ∀ {reqId i value}, batch.occupant i = some reqId → reqId ∉ change.removals →
      Fits (some reqId) value → Fits' (some reqId) value) :
    next.Closed ∧ next.isPoolingModel = false ∧
      (∀ pending, update = some pending → pending.batchSize = next.numReqs ∧
        (∀ added ∈ pending.added, Listed added) ∧
        ∀ moved ∈ pending.moved, moved.direction = .unidirectional →
          next.numReqs ≤ moved.src ∧ moved.dst < moved.src) ∧
      ∀ i, Fits' (next.occupant i) (replayUpdate put empty table update i) := by
  obtain ⟨sampled, removed, rewritten, added, condensed, swapped, first, second, third, fourth,
    fifth, sixth, refreshed⟩ := step_ok ran
  -- Removals: the indices that become free are stale from now on.
  have start : Filling put Listed Fits table batch := by
    refine ⟨closed.toOpen, gen, by rw [closed.settled], by simp [closed.settled], ?_⟩
    intro i _
    rw [closed.settled]
    exact agree i
  have fill := foldlM_invariant (Filling put Listed Fits table)
    (fun _ fill stepped => fill.removeRequest stepped) (start.updateAll first) second
  have leaving := (closed.leaving first).removeAll second
  -- Additions.
  have switched := (fill.switch leaving vacant kept).updateAll third
  have filled := switched.addAll admissible (leaving.joining closed admissible.toUnused third) written fourth
  -- The moves of `condense` and of the reordering.
  obtain ⟨packed, ended, dense, settling⟩ := filled.opened.condense
    (P := Settling put empty Listed Fits' table) (filled.settling empties)
    (fun condensing lowest lower here settling =>
      settling.moveRequest empties condensing lowest lower here)
    (fun packed settling => settling.trim packed)
  rw [fifth] at ended
  cases ended
  obtain ⟨final, settled⟩ := foldlM_invariant
    (fun now => now.Dense ∧ Settling put empty Listed Fits' table now)
    (fun _ both stepped => ⟨(both.1.swapStates stepped).1, both.2.swapStates both.1 stepped⟩)
    ⟨dense, settling⟩ sixth
  have nextIs : next = swapped.refreshMetadata.2 := by rw [refreshed]
  have updateIs : update = swapped.refreshMetadata.1 := by rw [refreshed]
  have layout := refreshMetadata_layout swapped
  have places : next.occupant = swapped.occupant := by
    rw [nextIs, layout]
    rfl
  have size : next.numReqs = swapped.numReqs := by
    rw [nextIs, layout]
    rfl
  rw [refreshMetadata, if_neg (by simp [settled.generation]),
    getAndReset] at updateIs
  refine ⟨nextIs ▸ final.refreshMetadata, ?_, ?_, ?_⟩
  · rw [nextIs, layout]
    exact settled.generation
  · intro pending given
    rw [size]
    split at updateIs
    · rw [given] at updateIs
      cases updateIs
    · rw [given] at updateIs
      cases updateIs
      exact ⟨rfl, settled.listed, settled.downward⟩
  · intro i
    have here := settled.agree swapped.removed (List.Subset.refl _) i (fun stale => stale.2 stale.1)
    rw [places, updateIs]
    split
    · rename_i nothing
      simp only [InputBatch.removed, nothing.1, nothing.2.1, nothing.2.2] at here
      simpa [replay, afterAdds, clear, replayUpdate] using here
    · exact here

end InputBatch
end Vllm.Worker
