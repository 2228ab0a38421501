import Vllm.Lib.Run
import Vllm.Worker.RowMoves

/-! The persistent batch beside the ledger of its requests, over any steps. -/
namespace Vllm.Worker
open List hiding next
open Relocate Function Py Dict InputBatch
variable {reqId : String} {req : CachedRequestState}

namespace Ledger
variable {ledger : Ledger}

def requests (ledger : Ledger) : List CachedRequestState :=
  ledger.rows.entries.map (fun entry => entry.2.request)

def involved (ledger : Ledger) (change : BatchStep) : List CachedRequestState :=
  ledger.requests ++ change.additions.map Prod.fst

def remaining (ledger : Ledger) (change : BatchStep) : List CachedRequestState :=
  (change.removals.foldl remove ledger).requests ++ change.additions.map Prod.fst

theorem mem_requests (found : ledger.request reqId = some req) : req ∈ ledger.requests := by
  rw [Ledger.request, Option.map_eq_some_iff] at found
  obtain ⟨_, loc, rfl⟩ := found
  rw [get?_eq_some] at loc
  exact mem_map_of_mem loc

theorem request_updated (ledger : Ledger) (reqId : String) (write : RowWrite) :
    (ledger.write reqId write).request = ledger.request := by
  cases found : ledger.rows.get? reqId with
  | none => rw [Ledger.write, found]
  | some row => exact (request_ledger_write write found).1

theorem request_writeAll (ledger : Ledger) (writes : List (String × RowWrite)) :
    (writes.foldl (fun ledger entry => ledger.write entry.1 entry.2) ledger).request =
      ledger.request := by
  induction writes generalizing ledger with
  | nil => rfl
  | cons write writes ih => exact (ih _).trans (request_updated ledger write.1 write.2)

theorem request_removeAll (reqIds : List String) (reqId : String) :
    (reqIds.foldl remove ledger).request reqId =
      if reqId ∈ reqIds then none else ledger.request reqId := by
  induction reqIds generalizing ledger with
  | nil => simp
  | cons first reqIds ih =>
    rw [foldl_cons, ih, request_ledger_remove]
    by_cases same : reqId = first <;> simp [same]

theorem request_addAll {additions : List (CachedRequestState × List TokenId)}
    (found : (additions.foldl addWithSpec ledger).request reqId = some req) :
    ledger.request reqId = some req ∨ req ∈ additions.map Prod.fst := by
  induction additions generalizing ledger with
  | nil => exact .inl found
  | cons add additions ih =>
    rcases ih found with before | later
    · have written : (ledger.addWithSpec add).request = (ledger.add add.1).request :=
        request_updated ..
      rw [written, request_ledger_add, update_apply] at before
      split at before
      · cases before
        exact .inr (mem_cons_self ..)
      · exact .inl before
    · exact .inr (mem_cons_of_mem _ later)

/-- After a step every request is one of those that remain. -/
theorem mem_remaining (found : (ledger.step change).request reqId = some req) :
    req ∈ ledger.remaining change := by
  refine mem_append.mpr ?_
  refine (request_addAll found).imp_left ?_
  intro before
  have sampled := request_writeAll ledger
    (change.sampled.map (fun entry => (entry.1, .sampled entry.2)))
  rw [foldl_map] at sampled
  rw [request_writeAll, request_removeAll, sampled, ← request_removeAll] at before
  exact mem_requests before

end Ledger

namespace InputBatch
variable {batch next : InputBatch} {ledger : Ledger} {change : BatchStep}

theorem updateRow_elsewhere (ran : batch.updateRow reqId write = .ok next) :
    next.maskRow = batch.maskRow ∧ next.vocabSize = batch.vocabSize ∧
      next.logitsProcessingNeedsTokenIds = batch.logitsProcessingNeedsTokenIds := by
  rw [updateRow] at ran
  split at ran
  · cases ran
  · cases ran
    cases write <;> exact ⟨rfl, rfl, rfl⟩

theorem removeRequest_elsewhere (found : batch.reqIdToIndex.get? reqId = some index)
    (ran : batch.removeRequest reqId = .ok next) :
    (batch.isPoolingModel = false → ∀ i, next.maskRow i =
        if i = index then fun _ => false else batch.maskRow i) ∧ next.vocabSize = batch.vocabSize ∧
      next.logitsProcessingNeedsTokenIds = batch.logitsProcessingNeedsTokenIds := by
  rcases removeRequest_ok ran with ⟨unknown, -⟩ | ⟨_, _, _, known, unloaded, rfl⟩
  · rw [found] at unknown
    cases unknown
  rw [found] at known
  cases known
  obtain ⟨_, _, _, rfl, -⟩ := removeLora_ok unloaded
  refine ⟨?_, ?_, ?_⟩
  · intro gen i
    rw [removeParams, if_neg (by simp [vacated, gen])]
    simp only [maskRow, vacated]
    cases batch.allowedTokenIdsMask with
    | none => simp
    | some mask =>
      simp [update_apply]
  · rw [removeParams]
    split <;> rfl
  · rw [removeParams]
    split <;> rfl

theorem addRequest_elsewhere (ran : batch.addRequest req = .ok next) :
    next.vocabSize = batch.vocabSize ∧ ∀ i ≠ batch.newIndex, next.maskRow i = batch.maskRow i ∧
      next.logitsProcessingNeedsTokenIds i = batch.logitsProcessingNeedsTokenIds i := by
  obtain ⟨n, withParams, -, written, rfl⟩ := addRequest_ok ran
  obtain ⟨-, placedMask, placedVocab, -, placedNeeds, -, -⟩ := placed_same batch req n
  obtain ⟨_, _, _, _, loraSame⟩ := writeLora_eq withParams req batch.newIndex
  rw [loraSame]
  refine ⟨(shared_writeParams written).2.1.trans placedVocab, ?_⟩
  intro i other
  rw [← placedMask, ← placedNeeds]
  rw [writeParams] at written
  split at written
  · cases written
    exact ⟨maskRow_writeParams_other req other, rfl⟩
  · obtain ⟨states, -, rfl⟩ := writePoolingParams_ok written
    exact ⟨rfl, update_of_ne other ..⟩
  · cases written

/-- Some addition of the step does not restrict its tokens. -/
def Unrestricted (change : BatchStep) : Prop :=
  ∃ add ∈ change.additions, add.1.allowedTokenIds = some []

instance : Decidable (Unrestricted change) := by
  unfold Unrestricted
  infer_instance

/-- Steps after which the batch can be right. The additions are fresh requests for this kind of
model, and no mask is left over where one without restrictions goes. Requests that may change
places do not differ in what does not go with them: the allowed tokens when they are swapped, and
for pooling the flag for token ids when they are swapped or moved down. -/
structure Orderly (batch : InputBatch) (ledger : Ledger) (change : BatchStep) : Prop where
  unused : batch.Unused change
  suits : ∀ add ∈ change.additions, Suits batch.isPoolingModel add.1
  blank : batch.isPoolingModel = false → Unrestricted change →
    ∀ i < change.additions.length, ∀ token < batch.vocabSize,
      batch.maskRow (batch.numReqs + i) token = false
  masks : batch.isPoolingModel = false → change.swaps ≠ [] →
    ∀ first ∈ ledger.remaining change, ∀ second ∈ ledger.remaining change,
      first.allowedTokenIds = second.allowedTokenIds
  flags : batch.isPoolingModel = true →
    change.swaps = [] ∧ change.removals.length ≤ change.additions.length ∨
      ∀ first ∈ ledger.involved change, ∀ second ∈ ledger.involved change,
        first.requiresTokenIds = second.requiresTokenIds

/-- The batch while requests leave and come: `done` of the additions have been made, and at most
`holes` indices are empty. -/
structure Turnover (change : BatchStep) (involved : List CachedRequestState) (start holes done : Nat)
    (now : InputBatch) (ledger : Ledger) : Prop where
  carried : Carried now ledger
  opened : now.Open
  within : ∀ reqId req, ledger.request reqId = some req → req ∈ involved
  blank : now.isPoolingModel = false → Unrestricted change →
    ∀ i, i ∈ now.removed ∨ now.reqIds.length ≤ i ∧ i < start + change.additions.length →
      ∀ token < now.vocabSize, now.maskRow i token = false
  flagged : now.isPoolingModel = true →
    (∀ first ∈ involved, ∀ second ∈ involved, first.requiresTokenIds = second.requiresTokenIds) →
    ∀ i ∈ now.removed, ∀ req ∈ involved,
      req.requiresTokenIds = some (now.logitsProcessingNeedsTokenIds i)
  room : now.reqIds.length ≤ start + done
  few : now.removed.length ≤ holes

variable {involved : List CachedRequestState} {start holes done : Nat} {now after : InputBatch}

section
variable (turnover : Turnover change involved start holes done now ledger)
include turnover

theorem Turnover.updateRow {write : RowWrite} (ran : now.updateRow reqId write = .ok after) :
    Turnover change involved start holes done after (ledger.write reqId write) := by
  obtain ⟨ids, map, builder, kind⟩ := updateRow_layout ran
  obtain ⟨mask, vocab, needs⟩ := updateRow_elsewhere ran
  have removed : after.removed = now.removed := by rw [removed, builder, removed]
  refine ⟨Carried.updateRow turnover.opened.inverse turnover.carried ran,
    turnover.opened.of_layout ids map builder, ?_, ?_, ?_, ?_, ?_⟩
  · rw [Ledger.request_updated]
    exact turnover.within
  · rw [kind, removed, ids, vocab, mask]
    exact turnover.blank
  · rw [kind, removed, needs]
    exact turnover.flagged
  · rw [ids]
    exact turnover.room
  · rw [removed]
    exact turnover.few

theorem Turnover.updateAll {writes : List (String × RowWrite)}
    (ran : now.updateAll writes = .ok after) : Turnover change involved start holes done after
      (writes.foldl (fun ledger entry => ledger.write entry.1 entry.2) ledger) := by
  refine foldlM_items (fun prior now => Turnover change involved start holes done now
    (prior.foldl (fun ledger entry => ledger.write entry.1 entry.2) ledger)) ?_ turnover ran
  intro prior write _ now after _ turnover stepped
  rw [foldl_append]
  exact turnover.updateRow stepped

/-- A request leaves: its mask is cleared, and its flag stays behind. -/
theorem Turnover.removeRequest (ran : now.removeRequest reqId = .ok after) :
    Turnover change involved start (holes + 1) done after (ledger.remove reqId) := by
  have carried := Carried.removeRequest turnover.opened.inverse turnover.carried ran
  have opened := (turnover.opened.removeRequest ran).1
  have within : ∀ other req, (ledger.remove reqId).request other = some req →
      req ∈ involved := by
    intro other req found
    rw [request_ledger_remove, update_apply] at found
    split at found
    · cases found
    · exact turnover.within other req found
  rcases removeRequest_layout ran with ⟨-, rfl⟩ | ⟨index, found, -, ids, -, builder, kind⟩
  · exact ⟨carried, opened, within, turnover.blank, turnover.flagged, turnover.room,
      turnover.few.trans (Nat.le_succ _)⟩
  have here := (turnover.opened.inverse reqId index).mp found
  have removed : after.removed = now.removed ++ [index] := by rw [removed, builder]
  have length : after.reqIds.length = now.reqIds.length := by rw [ids, length_set]
  obtain ⟨mask, vocab, needs⟩ := removeRequest_elsewhere found ran
  refine ⟨carried, opened, within, ?_, ?_, ?_, ?_⟩
  · intro gen unrestricted i free token inside
    rw [kind] at gen
    rw [mask gen]
    split
    · rfl
    · rename_i other
      rw [removed, mem_append, mem_singleton, length] at free
      rw [vocab] at inside
      refine turnover.blank gen unrestricted i ?_ token inside
      exact free.imp_left (fun mem => mem.resolve_right other)
  · intro pooling alike i mem req listed
    rw [kind] at pooling
    rw [needs]
    rw [removed, mem_append, mem_singleton] at mem
    rcases mem with prior | rfl
    · exact turnover.flagged pooling alike i prior req listed
    · obtain ⟨row, loc, own⟩ := turnover.carried.found found
      have suits := (turnover.carried.suits reqId row.request own).1
      rw [pooling] at suits
      obtain ⟨params, given⟩ := Option.isSome_iff_exists.mp suits.2
      rw [alike req listed row.request (turnover.within reqId row.request own),
        (turnover.carried.needs pooling i).2 reqId row here loc params given,
        CachedRequestState.requiresTokenIds, given]
      rfl
  · rw [length]
    exact turnover.room
  · rw [removed, length_append]
    exact Nat.succ_le_succ turnover.few

end

theorem Turnover.removeAll {reqIds : List String}
    (turnover : Turnover change involved start 0 done now ledger)
    (ran : now.removeAll reqIds = .ok after) :
    Turnover change involved start reqIds.length done after
      (reqIds.foldl Ledger.remove ledger) := by
  refine foldlM_items (fun prior now => Turnover change involved start prior.length done now
    (prior.foldl Ledger.remove ledger)) ?_ turnover ran
  intro prior _ _ now after _ turnover stepped
  rw [foldl_append, length_append]
  exact turnover.removeRequest stepped

/-- A request comes: its index is one of the empty ones, or the next one. -/
theorem Turnover.addRequest (turnover : Turnover change involved start holes done now ledger)
    (fresh : now.reqIdToIndex.get? req.reqId = none) (suits : Suits now.isPoolingModel req)
    (listed : req ∈ involved)
    (unrestricted : req.allowedTokenIds = some [] → Unrestricted change)
    (more : done < change.additions.length) (ran : now.addRequest req = .ok after) :
    Turnover change involved start (holes - 1) (done + 1) after (ledger.add req) := by
  have opened := turnover.opened.addRequest ran fresh
  have holesLeft := turnover.opened.removed_addRequest ran
  have newIndex := turnover.opened.newIndex_cases
  obtain ⟨vocab, elsewhere⟩ := addRequest_elsewhere ran
  obtain ⟨ids, -, -, kind⟩ := addRequest_layout ran
  have longer : now.reqIds.length ≤ after.reqIds.length ∧
      after.reqIds.length ≤ now.reqIds.length + 1 ∧ now.newIndex < after.reqIds.length := by
    have inside := turnover.opened.newIndex_vacant.1
    rw [ids]
    split <;> simp only [length_append, length_singleton, length_set] <;> omega
  have room := turnover.room
  refine ⟨?_, opened, ?_, ?_, ?_, by omega, ?_⟩
  · refine Carried.addRequest turnover.opened turnover.carried fresh suits ?_ ran
    intro _ given nothing
    have kind : now.isPoolingModel = false := by
      cases pooling : now.isPoolingModel with
      | false => rfl
      | true =>
        rw [pooling] at suits
        rw [suits.1.1] at given
        cases given
    have restricts : req.allowedTokenIds = some [] := by
      rw [CachedRequestState.allowedTokenIds, given, Option.map_some, nothing]
    refine turnover.blank kind (unrestricted restricts) now.newIndex ?_
    rcases newIndex with ⟨-, last, -⟩ | ⟨mem, -⟩
    · exact .inr ⟨last.ge, by omega⟩
    · exact .inl mem
  · intro reqId other found
    rw [request_ledger_add, update_apply] at found
    split at found
    · cases found
      exact listed
    · exact turnover.within reqId other found
  · intro gen free i place token inside
    rw [kind] at gen
    rw [vocab] at inside
    rw [holesLeft] at place
    have ne : i ≠ now.newIndex := by
      rcases place with hole | beyond
      · exact hole.2
      · omega
    rw [(elsewhere i ne).1]
    refine turnover.blank gen free i ?_ token inside
    rcases place with hole | beyond
    · exact .inl hole.1
    · exact .inr ⟨by omega, beyond.2⟩
  · intro pooling alike i mem
    rw [kind] at pooling
    rw [holesLeft] at mem
    rw [(elsewhere i mem.2).2]
    exact turnover.flagged pooling alike i mem.1
  · have before := turnover.opened.counted
    have counted := opened.counted
    have few := turnover.few
    have size : after.numReqs = now.numReqs + 1 := by
      rw [numReqs, (addRequest_layout ran).2.1, size_set, fresh]
      rfl
    rcases newIndex with ⟨nothing, -⟩ | ⟨mem, -⟩
    · have none_left : after.removed = [] := by
        apply eq_nil_iff_forall_not_mem.mpr
        intro i still
        rw [holesLeft, nothing] at still
        cases still.1
      rw [none_left]
      exact Nat.zero_le _
    · have inside := turnover.opened.removed_lt _ mem
      have same : after.reqIds.length = now.reqIds.length := by
        rw [ids, if_neg (by omega), length_set]
      omega

theorem Turnover.addAll (unused : batch.Unused change)
    (suits : ∀ add ∈ change.additions, Suits now.isPoolingModel add.1)
    (listed : ∀ add ∈ change.additions, add.1 ∈ involved)
    (turnover : Turnover change involved start holes 0 now ledger)
    (joining : Joining change.additions [] now) (ran : now.addAll change.additions = .ok after) :
    Turnover change involved start (holes - change.additions.length) change.additions.length after
      (change.additions.foldl Ledger.addWithSpec ledger) ∧
      after.isPoolingModel = now.isPoolingModel := by
  refine (foldlM_items (fun prior after => (Turnover change involved start
      (holes - prior.length) prior.length after (prior.foldl Ledger.addWithSpec ledger) ∧
      after.isPoolingModel = now.isPoolingModel) ∧ Joining change.additions prior after)
    ?_ ⟨⟨turnover, rfl⟩, joining⟩ ran).1
  intro prior add later now' after' split ⟨⟨turnover, kind⟩, joining⟩ stepped
  obtain ⟨fresh, joining⟩ := joining.addWithSpec unused.distinct split stepped
  have mem : add ∈ change.additions := by simp [split]
  rw [addWithSpec] at stepped
  obtain ⟨placed, added, written⟩ := bind_ok stepped
  have more : prior.length < change.additions.length := by
    rw [split, length_append, length_cons]
    omega
  have next := (turnover.addRequest fresh (by rw [kind]; exact suits add mem)
    (listed add mem) (fun free => ⟨add, mem, free⟩) more added).updateRow written
  refine ⟨⟨?_, ?_⟩, joining⟩
  · rw [foldl_append, length_append, ← Nat.sub_sub]
    exact next
  · rw [(updateRow_layout written).2.2.2, (addRequest_layout added).2.2.2, kind]

/-- Condensing finds the flags that it leaves in place right. -/
theorem Turnover.condense (turnover : Turnover change involved start holes done now ledger)
    (flags : now.isPoolingModel = true → holes = 0 ∨
      ∀ first ∈ involved, ∀ second ∈ involved, first.requiresTokenIds = second.requiresTokenIds)
    (ran : now.condense = .ok after) :
    after.Dense ∧ Carried after ledger ∧ after.isPoolingModel = now.isPoolingModel := by
  let Settled (batch : InputBatch) : Prop := Carried batch ledger ∧
    batch.isPoolingModel = now.isPoolingModel ∧ (now.isPoolingModel = true →
      ∀ i ∈ batch.removed, ∀ reqId req, ledger.request reqId = some req →
        req.requiresTokenIds = some (batch.logitsProcessingNeedsTokenIds i))
  have start : Settled now.sortRemoved := by
    refine ⟨Carried.sortRemoved turnover.carried, rfl, ?_⟩
    intro pooling i mem reqId req found
    rw [mem_sortRemoved] at mem
    rcases flags pooling with none_left | alike
    · have few := turnover.few
      rw [none_left, Nat.le_zero, length_eq_zero_iff] at few
      rw [few] at mem
      cases mem
    · exact turnover.flagged pooling alike i mem req (turnover.within reqId req found)
  obtain ⟨_, success, dense, settled⟩ := turnover.opened.condense (P := Settled) start
    (by
      intro batch last empty reqId condensing lowest lower here ⟨carried, kind, flagged⟩
      have hole : empty ∈ batch.removed := mem_of_getLast? lowest
      have vacant := (condensing.below empty lower.le).mpr hole
      obtain ⟨-, split⟩ := condensing.moveRequest lowest lower here
      obtain ⟨-, -, -, -, sameKind, sameNeeds⟩ := moveRequest_shared batch last empty reqId 0
      refine ⟨Carried.moveRequest carried condensing vacant lower here ?_, sameKind.trans kind, ?_⟩
      · intro pooling row _ found given
        have flag := flagged (kind ▸ pooling) empty hole reqId row.request
          (Ledger.request_eq found)
        rw [CachedRequestState.requiresTokenIds, given] at flag
        exact (Option.some.inj flag).symm
      · intro pooling i mem
        rw [sameNeeds]
        refine flagged pooling i ?_
        rw [split]
        exact mem_append_left _ mem)
    (by
      intro batch packed ⟨carried, kind, flagged⟩
      exact ⟨Carried.trim carried packed, kind, flagged⟩)
  rw [success] at ran
  cases ran
  exact ⟨dense, settled.1, settled.2.1⟩

theorem Carried.swapAll (dense : now.Dense) (carried : Carried now ledger)
    (masks : now.isPoolingModel = false → swaps ≠ [] →
      Alike CachedRequestState.allowedTokenIds ledger)
    (flags : now.isPoolingModel = true → swaps ≠ [] →
      Alike CachedRequestState.requiresTokenIds ledger)
    (ran : now.swapAll swaps = .ok after) : after.Dense ∧ Carried after ledger := by
  refine (foldlM_invariant (fun after => (after.Dense ∧ Carried after ledger) ∧
    after.isPoolingModel = now.isPoolingModel) ?_ ⟨⟨dense, carried⟩, rfl⟩ ran).1
  intro now' swap after' mem ⟨⟨dense, carried⟩, kind⟩ stepped
  have some_swap : swaps ≠ [] := ne_nil_of_mem mem
  refine ⟨⟨(dense.swapStates stepped).1, Carried.swapStates dense carried ?_ ?_ stepped⟩, ?_⟩
  · intro gen
    exact masks (kind ▸ gen) some_swap
  · intro pooling
    exact flags (kind ▸ pooling) some_swap
  · obtain ⟨-, -, -, -, -, -, -, same, -⟩ := swapStates_shared carried stepped
    exact same.trans kind

theorem Carried.step {update : Option BatchUpdate} (closed : batch.Closed)
    (carried : Carried batch ledger) (orderly : Orderly batch ledger change)
    (ran : batch.step change = .ok (update, next)) :
    next.Closed ∧ Carried next (ledger.step change) := by
  obtain ⟨sampled, removed, written, added, condensed, swapped, first, second, third, fourth, fifth,
    sixth, last⟩ := step_ok ran
  have nothing : batch.removed = [] := by rw [InputBatch.removed, closed.settled]
  have full : batch.reqIds.length = batch.numReqs := by
    rw [← closed.counted, nothing]
    rfl
  have start : Turnover change (ledger.involved change) batch.numReqs 0 0 batch ledger := by
    refine ⟨carried, closed.toOpen, ?_, ?_, ?_, full.le, by rw [nothing]; rfl⟩
    · intro reqId req found
      exact mem_append_left _ (Ledger.mem_requests found)
    · intro gen unrestricted i free
      rw [nothing, full] at free
      rcases free with hole | ⟨low, high⟩
      · cases hole
      · have clear := orderly.blank gen unrestricted (i - batch.numReqs) (by omega)
        rwa [Nat.add_sub_cancel' low] at clear
    · intro _ _ i hole
      rw [nothing] at hole
      cases hole
  have one := start.updateAll first
  rw [foldl_map] at one
  have three := (one.removeAll second).updateAll third
  have leaving := (closed.leaving first).removeAll second
  have kind : written.isPoolingModel = batch.isPoolingModel := by
    have kept : removed.isPoolingModel = sampled.isPoolingModel := by
      refine foldlM_invariant (fun now => now.isPoolingModel = sampled.isPoolingModel) ?_ rfl
        second
      intro now reqId after _ same stepped
      rcases removeRequest_layout stepped with ⟨-, rfl⟩ | ⟨-, -, -, -, -, -, kind⟩
      · exact same
      · exact kind.trans same
    exact (occupant_updateAll third).2.2.2.trans (kept.trans (occupant_updateAll first).2.2.2)
  obtain ⟨four, kindAdded⟩ := three.addAll orderly.unused
    (by rw [kind]; exact orderly.suits)
    (fun add mem => mem_append_right _ (mem_map_of_mem mem))
    (leaving.joining closed orderly.unused third) fourth
  obtain ⟨dense, carriedCondensed, kindCondensed⟩ := four.condense
    (by
      intro pooling
      rw [kindAdded, kind] at pooling
      exact (orderly.flags pooling).imp_left (fun quiet => Nat.sub_eq_zero_of_le quiet.2)) fifth
  have kinds : condensed.isPoolingModel = batch.isPoolingModel :=
    kindCondensed.trans (kindAdded.trans kind)
  obtain ⟨denseSwapped, carriedSwapped⟩ := Carried.swapAll dense carriedCondensed
    (by
      intro gen some_swap reqId reqId' req request' found found'
      rw [kinds] at gen
      exact orderly.masks gen some_swap req (Ledger.mem_remaining found) request'
        (Ledger.mem_remaining found'))
    (by
      intro pooling some_swap reqId reqId' req request' found found'
      rw [kinds] at pooling
      rcases orderly.flags pooling with quiet | alike
      · exact absurd quiet.1 some_swap
      · exact alike req (four.within reqId req found) request'
          (four.within reqId' request' found')) sixth
  have same : next = swapped.refreshMetadata.2 := by rw [last]
  rw [same]
  exact ⟨denseSwapped.refreshMetadata, Carried.refreshMetadata carriedSwapped⟩

end InputBatch

structure LedgerBatch where
  batch : InputBatch
  ledger : Ledger

namespace LedgerBatch

def init (maxNumReqs vocabSize : Nat) (isPoolingModel : Bool) (blocksPerKvBlock : List Nat) :
    LedgerBatch where
  batch := .init maxNumReqs vocabSize isPoolingModel blocksPerKvBlock
  ledger := { ratios := blocksPerKvBlock }

section
variable (state : LedgerBatch) (change : BatchStep)

def exec : Py LedgerBatch := do
  let stepped ← state.batch.step change
  .ok ⟨stepped.2, state.ledger.step change⟩

def Allowed : Prop :=
  state.batch.Orderly state.ledger change

/-- The ids have no hole and the indices are their inverse, and every request has its row. -/
structure Faithful : Prop where
  present : none ∉ state.batch.reqIds
  inverse : ∀ reqId i, state.batch.reqIdToIndex.get? reqId = some i ↔
    state.batch.reqIds[i]? = some (some reqId)
  carried : Carried state.batch state.ledger

structure Sound : Prop where
  closed : state.batch.Closed
  carried : Carried state.batch state.ledger

theorem Sound.faithful {state : LedgerBatch} (sound : state.Sound) : state.Faithful := by
  have nothing : state.batch.removed = [] := by rw [removed, sound.closed.settled]
  refine ⟨?_, ?_, sound.carried⟩
  · intro hole
    obtain ⟨i, inside, here⟩ := mem_iff_getElem.mp hole
    have vacant : state.batch.occupant i = none := by
      rw [occupant, getElem?_eq_getElem inside, here]
      rfl
    have listed := (sound.closed.holes i inside).mp vacant
    rw [nothing] at listed
    cases listed
  · intro reqId i
    rw [sound.closed.inverse reqId i, occupant_eq_some]

theorem init_sound (maxNumReqs vocabSize : Nat) (isPoolingModel : Bool)
    (blocksPerKvBlock : List Nat) : (init maxNumReqs vocabSize isPoolingModel blocksPerKvBlock).Sound := by
  refine ⟨InputBatch.init_closed, ?_⟩
  have unknown : ∀ reqId, ({ ratios := blocksPerKvBlock } : Ledger).request reqId = none :=
    fun _ => rfl
  have nobody : ∀ i, (init maxNumReqs vocabSize isPoolingModel blocksPerKvBlock).batch.occupant
      i = none := by simp [init, InputBatch.init, InputBatch.occupant]
  have spec : ∀ i, ((init maxNumReqs vocabSize isPoolingModel blocksPerKvBlock).batch.shared
      i).spec = [] := by
    intro i
    simp only [init, InputBatch.init, InputBatch.shared, getD_eq_getElem?_getD]
    cases found : (replicate maxNumReqs ([] : List TokenId))[i]? with
    | none => rfl
    | some entry => exact eq_of_mem_replicate (mem_of_getElem? found)
  have owned {β : Type} {Vacant : β → Prop} {Holds : Row → β → Prop} {table : Nat → β}
      (vacant : ∀ i, Vacant (table i)) : Owned Vacant Holds
      (init maxNumReqs vocabSize isPoolingModel blocksPerKvBlock).ledger.rows.get?
      (init maxNumReqs vocabSize isPoolingModel blocksPerKvBlock).batch.occupant table := by
    intro i
    refine ⟨fun _ => vacant i, ?_⟩
    intro key row here
    rw [nobody] at here
    cases here
  refine ⟨?_, fun _ => rfl, ?_, rfl, Nat.zero_le _, owned spec, fun _ => owned (fun _ => ⟨rfl, rfl⟩),
    fun _ _ => ⟨rfl, rfl⟩, fun _ => owned (fun _ => trivial), fun _ => owned (fun _ => trivial),
    ?_, ?_⟩
  · simp only [init, InputBatch.init, InputBatch.ratios, map_map]
    exact map_id' _
  · intro reqId req found
    cases (unknown reqId).symm.trans found
  · constructor <;> intro reqId <;> simp [Entries, unknown, init, InputBatch.init]
  · constructor <;> simp [Uses, unknown, init, InputBatch.init]

end

theorem Sound.step {state next : LedgerBatch} (sound : state.Sound)
    (allowed : state.Allowed change) (ran : state.exec change = .ok next) : next.Sound := by
  rw [exec] at ran
  obtain ⟨⟨_, _⟩, stepped, ran⟩ := bind_ok ran
  cases ran
  obtain ⟨closed, carried⟩ := InputBatch.Carried.step sound.closed sound.carried allowed stepped
  exact ⟨closed, carried⟩

/-- In every run of orderly steps the batch has each request's row at its index. -/
theorem batch_carries_requests (maxNumReqs vocabSize : Nat) (isPoolingModel : Bool)
    (blocksPerKvBlock : List Nat) (steps : List BatchStep) (reached : LedgerBatch)
    (allowed : Run.AllSteps exec Allowed
      (init maxNumReqs vocabSize isPoolingModel blocksPerKvBlock) steps)
    (ran : Run.run exec (init maxNumReqs vocabSize isPoolingModel blocksPerKvBlock) steps =
      .ok reached) : reached.Faithful :=
  (Run.run_invariant Sound Sound.step
    (init_sound maxNumReqs vocabSize isPoolingModel blocksPerKvBlock) allowed ran).faithful

instance (isPoolingModel : Bool) (req : CachedRequestState) :
    Decidable (Suits isPoolingModel req) := by
  unfold Suits
  infer_instance

attribute [mk_iff] InputBatch.Unused InputBatch.Orderly

instance (batch : InputBatch) (change : BatchStep) : Decidable (batch.Unused change) :=
  decidable_of_iff' _ (unused_iff ..)

instance (state : LedgerBatch) (change : BatchStep) : Decidable (state.Allowed change) :=
  decidable_of_iff' _ (orderly_iff ..)

def sampleRequest (reqId : String) (outputRef : Nat) (params : SamplingParams) :
    CachedRequestState × List TokenId :=
  ({ reqId, promptTokenIds := some [1, 2], samplingParams := some params, outputRef,
     blockIds := [[outputRef]] }, [])

/-- Three requests come, of which the first one may only use one token. The second one leaves, and
the third one, which has a draft by then, moves down. -/
def condensingRun : List BatchStep :=
  [{ additions := [sampleRequest "a" 0 { allowedTokenIds := [1] }, sampleRequest "b" 1 {},
      sampleRequest "c" 2 { samplingType := .random, temperature := 2 }] },
   { sampled := [("c", [3])]
     removals := ["b"]
     writes := [("c", .numComputedTokens 3), ("c", .specTokens [0, 2])] }]

theorem batch_carries_requests_condensing :
    Run.AllSteps exec Allowed (init 4 4 false [1]) condensingRun ∧
      ((Run.run exec (init 4 4 false [1]) condensingRun).toOption.map (fun state =>
        (state.batch.reqIds, (range 5).map (state.batch.tokenIdsCpu 1),
          state.batch.temperatureCpu 1, (range 4).map (state.batch.maskRow 0)))) =
        some ([some "a", some "c"], [1, 2, 3, 0, 2], 2, [true, false, true, true]) ∧
      ∀ reached, Run.run exec (init 4 4 false [1]) condensingRun = .ok reached → reached.Faithful :=
  have allowed : Run.AllSteps exec Allowed (init 4 4 false [1]) condensingRun := by decide +kernel
  ⟨allowed, by decide +kernel,
    fun reached ran => batch_carries_requests 4 4 false [1] condensingRun reached allowed ran⟩

/-- Two requests come and are swapped; the first one may only use one token. -/
def swappingRun : List BatchStep :=
  [{ additions := [sampleRequest "a" 0 { allowedTokenIds := [1] }, sampleRequest "b" 1 {}]
     swaps := [(0, 1)] }]

/-- Nothing is masked out for either of them afterwards. -/
theorem swap_loses_allowed_tokens :
    ((Run.run exec (init 2 4 false [1]) swappingRun).toOption.map (fun state =>
      (state.batch.reqIds, state.ledger.requests.map CachedRequestState.allowedTokenIds,
        (range 2).map (fun i => (range 4).map (state.batch.maskRow i))))) =
      some ([some "b", some "a"], [some [1], some []],
        [[false, false, false, false], [false, false, false, false]]) := by
  decide +kernel

end LedgerBatch
end Vllm.Worker
