import Vllm.Eplb.Execute

/-! Both ends of the exchange agree, and every slot ends up with its expert. -/
namespace Vllm.Eplb
open Dict Runs Rows Share List Py
variable {expert : Int} {entry : Int × Nat} {epRank row : Nat} {here : LocalExperts}

section Ranks
variable {width : Nat}

def ranksOf (indices : List Int) (width : Nat) (expert : Int) : List Nat :=
  firsts (((range indices.length).filter
    (fun position => indices.getD position noExpert = expert)).map (· / width))

/-- Sorting by expert keeps the positions of each expert in order. -/
theorem filter_sorted_relevantEntries (indices : List Int) (queried : expert ∈ uniqueExperts) :
    ((relevantEntries indices uniqueExperts).insertionSort EntryLe).filter (·.1 = expert) =
      ((range indices.length).filter (fun position => indices.getD position noExpert = expert)).map
          (fun position => (indices.getD position noExpert, position)) := by
  have listed : (relevantEntries indices uniqueExperts).filter (·.1 = expert) =
      ((range indices.length).filter (fun position =>
        indices.getD position noExpert = expert)).map
          (fun position => (indices.getD position noExpert, position)) := by
    rw [relevantEntries, filter_filter, filter_map]
    congr 1
    apply filter_congr
    intro position _
    by_cases same : indices.getD position noExpert = expert <;> simp_all
  rw [← listed]
  apply Perm.eq_of_pairwise' (r := EntryLe)
  · exact (pairwise_insertionSort EntryLe _).filter _
  · rw [listed, pairwise_map]
    apply (pairwise_lt_range.filter _).imp_of_mem
    intro p q left right before
    have same : indices.getD p noExpert = indices.getD q noExpert := by
      simp only [mem_filter, decide_eq_true_eq] at left right
      rw [left.2, right.2]
    exact .inr ⟨same, before.le⟩
  · exact (perm_insertionSort EntryLe _).filter _

theorem sorted_ranks (indices uniqueExperts : List Int) (width : Nat) :
    (((relevantEntries indices uniqueExperts).insertionSort EntryLe).map
      (fun entry => (entry.1, entry.2 / width))).Pairwise (·.1 ≤ ·.1) := by
  rw [pairwise_map]
  apply (pairwise_insertionSort EntryLe _).imp
  rintro a b (less | ⟨same, -⟩)
  · exact less.le
  · exact same.le

theorem getIn_groupRanks (queried : expert ∈ uniqueExperts) :
    (getIn expert (groupRanks indices uniqueExperts width)).getD [] =
      ranksOf indices width expert := by
  have grouped := getIn_groupRuns (sorted_ranks indices uniqueExperts width) expert
  rw [filter_map, map_map] at grouped
  simp only [Function.comp_def] at grouped
  have positions := congrArg (map (fun entry => entry.2 / width))
    (filter_sorted_relevantEntries indices queried)
  rw [map_map] at positions
  rw [groupRanks, getIn_map (fun _ ranks => firsts ranks), ranksOf]
  simp only [Function.comp_def] at positions
  rw [← positions, ← grouped]
  cases getIn expert _ <;> rfl

theorem nodup_groupRanks (indices uniqueExperts : List Int) (width : Nat) :
    ((groupRanks indices uniqueExperts width).map Prod.fst).Nodup := by
  have strict := strict_groupRuns (sorted_ranks indices uniqueExperts width)
  rw [groupRanks, map_map]
  exact strict.imp ne_of_lt

/-- A rank holds an expert exactly if one of its slots does. -/
theorem mem_ranksOf {rank : Nat} (sized : indices.length = epSize * width)
    (real : expert ≠ noExpert) : rank ∈ ranksOf indices width expert ↔
      ∃ row < width, indices.getD (rank * width + row) noExpert = expert := by
  simp only [ranksOf, mem_firsts, mem_map, mem_filter, mem_range, decide_eq_true_eq]
  constructor
  · rintro ⟨position, ⟨below, found⟩, rfl⟩
    have pos : 0 < width :=
      Nat.pos_of_mul_pos_left (Nat.zero_lt_of_lt (sized ▸ below))
    refine ⟨position % width, Nat.mod_lt _ pos, ?_⟩
    rw [Nat.div_add_mod']
    exact found
  · rintro ⟨row, inside, found⟩
    refine ⟨rank * width + row, ⟨?_, found⟩, ?_⟩
    · by_contra outside
      rw [getD_eq_default _ _ (Nat.le_of_not_lt outside)] at found
      exact real found.symm
    · rw [Nat.mul_comm, Nat.mul_add_div (Nat.zero_lt_of_lt inside), Nat.div_eq_of_lt inside,
        Nat.add_zero]

theorem lt_of_mem_ranksOf {rank : Nat} (sized : indices.length = epSize * width)
    (mem : rank ∈ ranksOf indices width expert) : rank < epSize := by
  simp only [ranksOf, mem_firsts, mem_map, mem_filter, mem_range] at mem
  obtain ⟨position, ⟨below, -⟩, rfl⟩ := mem
  exact Nat.div_lt_of_lt_mul (by rw [Nat.mul_comm, ← sized]; exact below)

end Ranks

section Maps
variable (width : Nat) (olds news : List Int)

def receiversOf (expert : Int) : List Nat :=
  (ranksOf news width expert).filter
    (· ∉ ranksOf olds width expert)

variable {width olds news}
variable {expertIds : List Int}

theorem getEpRanksWithExpertsBatch_get? (width : Nat) (olds news : List Int)
    (queried : expert ∈ expertIds) :
    (getEpRanksWithExpertsBatch expertIds width olds news).1.get? expert =
        some (ranksOf olds width expert) ∧
      (getEpRanksWithExpertsBatch expertIds width olds news).2.get? expert =
        some (receiversOf width olds news expert) := by
  have some_queried : expertIds ≠ [] := ne_nil_of_mem queried
  have listed : expert ∈ (unique expertIds).map Prod.fst := by
    rw [map_fst_unique, mem_insertionSort, mem_firsts]
    exact queried
  have default_or (found : Option (List Nat)) : found.or (some []) = some (found.getD []) := by
    cases found <;> rfl
  simp only [getEpRanksWithExpertsBatch, if_neg some_queried, get?_setDefaults, if_pos listed,
    default_or, Option.some.injEq]
  have send : ((setAll empty (groupRanks olds ((unique expertIds).map Prod.fst)
      width)).get? expert).getD [] = ranksOf olds width expert := by
    rw [get?_setAll (nodup_groupRanks ..), get?_empty, Option.or_none, getIn_groupRanks listed]
  constructor
  · exact send
  · rw [get?_setAll (by rw [map_map]; exact nodup_groupRanks ..), get?_empty, Option.or_none,
      getIn_map (recvRanksActual _), receiversOf, ← send, ← getIn_groupRanks listed]
    cases getIn expert _ <;> rfl

section
variable (width olds news) (expert : Int) (epRank : Nat)

def sourceOf : Nat :=
  let senders := ranksOf olds width expert
  let receivers := receiversOf width olds news expert
  senders.getD (owner senders.length receivers.length (receivers.idxOf epRank)) 0

def targetsOf : List Nat :=
  let senders := ranksOf olds width expert
  share senders.length (receiversOf width olds news expert)
    (senders.idxOf epRank)

end

theorem nodup_receiversOf (expert : Int) : (receiversOf width olds news expert).Nodup :=
  (nodup_firsts _).filter _

/-- Sender and receiver work out the same pairs. -/
theorem mem_targetsOf_iff (holds : src ∈ ranksOf olds width expert)
    (needs : dst ∈ receiversOf width olds news expert) :
    dst ∈ targetsOf width olds news expert src ↔
      sourceOf width olds news expert dst = src := by
  have sender := idxOf_lt_length_of_mem holds
  have unique : (ranksOf olds width expert).Nodup := nodup_firsts _
  have inside := owner_lt (Nat.zero_lt_of_lt sender) (idxOf_lt_length_of_mem needs)
  simp only [targetsOf, sourceOf]
  rw [mem_share_iff sender (nodup_receiversOf expert) (getElem?_idxOf needs),
    getD_eq_getElem _ _ inside]
  constructor
  · intro same
    simp only [same, getElem_idxOf]
  · intro same
    rw [← same, unique.idxOf_getElem]

theorem sourceOf_mem (held : ranksOf olds width expert ≠ [])
    (needs : dst ∈ receiversOf width olds news expert) :
    sourceOf width olds news expert dst ∈
      ranksOf olds width expert := by
  have inside := owner_lt (length_pos_of_ne_nil held) (idxOf_lt_length_of_mem needs)
  simp only [sourceOf]
  rw [getD_eq_getElem _ _ inside]
  exact getElem_mem inside

theorem lookUp_ok {map : Dict Int (List Nat)}
    (found : map.get? expert = some ranks) : lookUp map expert = .ok ranks := by
  simp [lookUp, found]

theorem sendsOf_ok (queried : entry.1 ∈ expertIds)
    (holds : epRank ∈ ranksOf olds width entry.1) : sendsOf epRank
        (getEpRanksWithExpertsBatch expertIds width olds news).1
        (getEpRanksWithExpertsBatch expertIds width olds news).2 entry =
      .ok ((targetsOf width olds news entry.1 epRank).map
        (fun dst => ⟨entry.1, entry.2, dst⟩)) := by
  obtain ⟨send, recv⟩ := getEpRanksWithExpertsBatch_get? width olds news queried
  have held : ranksOf olds width entry.1 ≠ [] := ne_nil_of_mem holds
  simp only [sendsOf, lookUp_ok send, lookUp_ok recv, ok_bind]
  by_cases unneeded : receiversOf width olds news entry.1 = []
  · rw [if_pos (.inr unneeded)]
    simp [targetsOf, share, unneeded]
  · rw [if_neg (by simp [held, unneeded])]
    simp only [index, if_pos holds, ok_bind]
    rfl

theorem recvOf_ok (queried : entry.1 ∈ expertIds)
    (held : ranksOf olds width entry.1 ≠ [])
    (needs : epRank ∈ receiversOf width olds news entry.1) : recvOf epRank
        (getEpRanksWithExpertsBatch expertIds width olds news).1
        (getEpRanksWithExpertsBatch expertIds width olds news).2 entry =
      .ok [⟨entry.1, entry.2, sourceOf width olds news entry.1 epRank⟩] := by
  obtain ⟨send, recv⟩ := getEpRanksWithExpertsBatch_get? width olds news queried
  have needed : receiversOf width olds news entry.1 ≠ [] :=
    ne_nil_of_mem needs
  have inside := owner_lt (length_pos_of_ne_nil held) (idxOf_lt_length_of_mem needs)
  simp only [recvOf, lookUp_ok send, lookUp_ok recv, ok_bind]
  rw [if_neg (by simp [held, needed])]
  simp only [index, if_pos needs, ok_bind, sourceOf]
  rw [getD_eq_getElem _ _ inside]
  simp only [owner] at inside ⊢
  simp only [item, getElem?_eq_getElem inside, ok_bind]

end Maps
section Local
variable {width epSize epRank : Nat} {olds news : List Int}

namespace LocalExperts

@[simp] theorem length_old_ofRank :
    (ofRank width olds news epRank).old.length = width := by
  simp [ofRank]

@[simp] theorem length_new_ofRank :
    (ofRank width olds news epRank).new.length = width := by
  simp [ofRank]

theorem oldAt_ofRank (inside : row < width) : (ofRank width olds news epRank).oldAt row =
      olds.getD (epRank * width + row) noExpert := by
  simp [oldAt, ofRank, inside]

theorem newAt_ofRank (inside : row < width) : (ofRank width olds news epRank).newAt row =
      news.getD (epRank * width + row) noExpert := by
  simp [newAt, ofRank, inside]

theorem mem_old_ofRank (sized : olds.length = epSize * width)
    (real : expert ≠ noExpert) :
    expert ∈ (ofRank width olds news epRank).old ↔
      epRank ∈ ranksOf olds width expert := by
  rw [mem_ranksOf sized real]
  simp only [ofRank, mem_map, mem_range]

theorem oldAt_mem (inside : row < here.old.length) : here.oldAt row ∈ here.old := by
  rw [oldAt, getD_eq_getElem _ _ inside]
  exact getElem_mem inside

/-- A row is filled from another rank if its expert is not here. -/
theorem needRecv_iff (inside : row < here.old.length) :
    here.needRecv row = true ↔ here.newAt row ≠ noExpert ∧ here.newAt row ∉ here.old := by
  have mem := oldAt_mem inside
  simp only [needRecv, isReceivedLocally, isUnchanged, newValid, Bool.and_eq_true,
    Bool.not_eq_true', Bool.or_eq_false_iff, beq_eq_false_iff_ne, Bool.and_eq_false_iff,
    bne_iff_ne, decide_eq_false_iff_not, bne_eq_false_iff_eq]
  constructor
  · rintro ⟨⟨-, absent⟩, real⟩
    exact ⟨real, absent.resolve_left real⟩
  · rintro ⟨real, absent⟩
    exact ⟨⟨fun same => absent (same ▸ mem), .inr absent⟩, real⟩

theorem mem_sendRows (mem : entry ∈ here.sendRows) :
    entry.2 < here.old.length ∧ here.oldAt entry.2 = entry.1 ∧ entry.1 ≠ noExpert := by
  have listed := mem_of_mem_firstRows mem
  simp only [mem_filter, mem_map, mem_range, decide_eq_true_eq] at listed
  obtain ⟨⟨row, inside, rfl⟩, real⟩ := listed
  exact ⟨inside, rfl, real⟩

theorem mem_keys_sendRows :
    expert ∈ here.sendRows.map Prod.fst ↔ expert ∈ here.old ∧ expert ≠ noExpert := by
  rw [sendRows, mem_keys_firstRows]
  simp only [mem_filter, mem_map, mem_range, decide_eq_true_eq]
  constructor
  · rintro ⟨_, ⟨⟨row, inside, rfl⟩, real⟩, rfl⟩
    exact ⟨oldAt_mem inside, real⟩
  · rintro ⟨held, real⟩
    obtain ⟨row, inside, rfl⟩ := getElem_of_mem held
    refine ⟨(here.oldAt row, row), ⟨⟨row, inside, rfl⟩, ?_⟩, ?_⟩
    all_goals simp only [oldAt, getD_eq_getElem _ _ inside]
    exact real

theorem mem_recvRows (mem : entry ∈ here.recvRows) :
    entry.2 < here.new.length ∧ here.newAt entry.2 = entry.1 ∧ here.needRecv entry.2 = true := by
  have listed := mem_of_mem_firstRows mem
  simp only [mem_filter, mem_map, mem_range] at listed
  obtain ⟨row, ⟨inside, need⟩, rfl⟩ := listed
  exact ⟨inside, rfl, need⟩

theorem mem_keys_recvRows : expert ∈ here.recvRows.map Prod.fst ↔
      ∃ row < here.new.length, here.needRecv row = true ∧ here.newAt row = expert := by
  rw [recvRows, mem_keys_firstRows]
  simp only [mem_filter, mem_map, mem_range]
  constructor
  · rintro ⟨_, ⟨row, ⟨inside, need⟩, rfl⟩, rfl⟩
    exact ⟨row, inside, need, rfl⟩
  · rintro ⟨row, inside, need, rfl⟩
    exact ⟨_, ⟨row, ⟨inside, need⟩, rfl⟩, rfl⟩

theorem holds_of_mem_sendRows (sized : olds.length = epSize * width)
    (mem : entry ∈ (ofRank width olds news epRank).sendRows) :
    epRank ∈ ranksOf olds width entry.1 := by
  obtain ⟨inside, found, real⟩ := mem_sendRows mem
  have held := oldAt_mem inside
  rw [found] at held
  exact (mem_old_ofRank sized real).mp held

theorem needs_iff_mem_recvRows (sized : olds.length = epSize * width)
    (sized' : news.length = epSize * width) :
    expert ∈ (ofRank width olds news epRank).recvRows.map Prod.fst ↔
      expert ≠ noExpert ∧ epRank ∈ receiversOf width olds news expert := by
  rw [mem_keys_recvRows, length_new_ofRank]
  constructor
  · rintro ⟨row, inside, need, rfl⟩
    obtain ⟨real, absent⟩ := (needRecv_iff (by rw [length_old_ofRank]; exact inside)).mp need
    refine ⟨real, ?_⟩
    rw [mem_old_ofRank sized real] at absent
    rw [receiversOf, mem_filter, mem_ranksOf sized' real]
    exact ⟨⟨row, inside, (newAt_ofRank inside).symm⟩, by simpa using absent⟩
  · rintro ⟨real, needs⟩
    rw [receiversOf, mem_filter, mem_ranksOf sized' real] at needs
    obtain ⟨⟨row, inside, found⟩, absent⟩ := needs
    have found : (ofRank width olds news epRank).newAt row = expert := by
      rw [newAt_ofRank inside, found]
    refine ⟨row, inside, (needRecv_iff (by rw [length_old_ofRank]; exact inside)).mpr ?_, found⟩
    rw [found, mem_old_ofRank sized real]
    exact ⟨real, by simpa using absent⟩

end LocalExperts

open LocalExperts

theorem orderByExpert_firstRows (rows : List (Int × Nat)) :
    orderByExpert (firstRows rows) = firstRows rows := by
  apply Pairwise.insertionSort_eq
  have strict := strict_firstRows rows
  rw [pairwise_map] at strict
  exact strict.imp le_of_lt

section
variable (width olds news)

def sendList (epRank : Nat) : List Send :=
  (ofRank width olds news epRank).sendRows.flatMap (fun entry =>
    (targetsOf width olds news entry.1 epRank).map
      (fun dst => ⟨entry.1, entry.2, dst⟩))

def recvList (epRank : Nat) : List Recv :=
  (ofRank width olds news epRank).recvRows.map (fun entry =>
    ⟨entry.1, entry.2, sourceOf width olds news entry.1 epRank⟩)

/-- Every expert of the new placement is somewhere in the old one. -/
def Covered : Prop :=
  ∀ expert ∈ news, expert ≠ noExpert → expert ∈ olds

end

theorem postSends_ok (sized : olds.length = epSize * width) : postSends width olds news epRank
        (ofRank width olds news epRank).sendRows =
      .ok (sendList width olds news epRank) := by
  rw [postSends, sendRows, orderByExpert_firstRows, ← sendRows]
  rw [mapM_ok (fun entry listed => sendsOf_ok (mem_map_of_mem listed)
    (holds_of_mem_sendRows sized listed)), ok_bind, sendList, flatMap_def]

theorem ranksOf_ne_nil (held : expert ∈ indices) : ranksOf indices width expert ≠ [] := by
  obtain ⟨position, inside, found⟩ := getElem_of_mem held
  apply ne_nil_of_mem (a := position / width)
  simp only [ranksOf, mem_firsts, mem_map, mem_filter, mem_range, decide_eq_true_eq]
  exact ⟨position, ⟨inside, by rw [getD_eq_getElem _ _ inside, found]⟩, rfl⟩

theorem mem_of_needs (needs : epRank ∈ receiversOf width olds news expert) : expert ∈ news := by
  simp only [receiversOf, ranksOf, mem_filter, mem_firsts, mem_map, mem_range,
    decide_eq_true_eq] at needs
  obtain ⟨⟨_, ⟨inside, rfl⟩, -⟩, -⟩ := needs
  rw [getD_eq_getElem _ _ inside]
  exact getElem_mem inside

theorem held_of_needs (covered : Covered olds news) (real : expert ≠ noExpert)
    (needs : epRank ∈ receiversOf width olds news expert) :
    ranksOf olds width expert ≠ [] :=
  ranksOf_ne_nil (covered expert (mem_of_needs needs) real)

theorem postRecvs_ok (sized : olds.length = epSize * width)
    (sized' : news.length = epSize * width)
    (covered : Covered olds news) :
    postRecvs width olds news epRank
        (ofRank width olds news epRank).recvRows =
      .ok (recvList width olds news epRank) := by
  rw [postRecvs, recvRows, orderByExpert_firstRows, ← recvRows]
  have each (entry : Int × Nat)
      (listed : entry ∈ (ofRank width olds news epRank).recvRows) :=
    have key := (needs_iff_mem_recvRows sized sized').mp (mem_map_of_mem listed)
    recvOf_ok (mem_map_of_mem listed) (held_of_needs covered key.1 key.2) key.2
  rw [mapM_ok each, ok_bind, recvList, ← flatMap_def, map_eq_flatMap]

/-- The experts that one rank sends to another. -/
theorem sendList_experts (src dst : Nat) (sized : olds.length = epSize * width) :
    ((sendList width olds news src).filter (·.dst = dst)).map (·.expert) =
      ((ofRank width olds news src).sendRows.filter (fun entry =>
        dst ∈ targetsOf width olds news entry.1 src)).map Prod.fst := by
  have each (entry : Int × Nat)
      (listed : entry ∈ (ofRank width olds news src).sendRows) :
      (targetsOf width olds news entry.1 src).Nodup :=
    nodup_share (idxOf_lt_length_of_mem (holds_of_mem_sendRows sized listed))
      (nodup_receiversOf _)
  rw [sendList]
  generalize (ofRank width olds news src).sendRows = rows at each
  induction rows with
  | nil => rfl
  | cons entry rows ih =>
    have rest := ih (fun entry listed => each entry (mem_cons_of_mem _ listed))
    rw [flatMap_cons, filter_append, map_append, rest, filter_map]
    simp only [Function.comp_def]
    rw [filter_eq, (each entry (mem_cons_self ..)).count]
    by_cases sent : dst ∈ targetsOf width olds news entry.1 src <;>
      simp [sent]

theorem recvList_experts (src dst : Nat) :
    ((recvList width olds news dst).filter (·.src = src)).map (·.expert) =
      ((ofRank width olds news dst).recvRows.filter (fun entry =>
        sourceOf width olds news entry.1 dst = src)).map Prod.fst := by
  rw [recvList, filter_map, map_map]
  rfl

theorem mem_keys_filter (P : Int → Prop) [DecidablePred P] {rows : List (Int × Nat)} :
    expert ∈ (rows.filter (fun entry => P entry.1)).map Prod.fst ↔
      expert ∈ rows.map Prod.fst ∧ P expert := by
  simp only [mem_map, mem_filter, decide_eq_true_eq]
  constructor
  · rintro ⟨entry, ⟨listed, sent⟩, rfl⟩
    exact ⟨⟨entry, listed, rfl⟩, sent⟩
  · rintro ⟨⟨entry, listed, rfl⟩, sent⟩
    exact ⟨entry, ⟨listed, sent⟩, rfl⟩

/-- Both ends of a pair of ranks list the same experts in the same order. -/
theorem experts_agree (sized : olds.length = epSize * width)
    (sized' : news.length = epSize * width)
    (covered : Covered olds news) (src dst : Nat) :
    ((sendList width olds news src).filter (·.dst = dst)).map (·.expert) =
      ((recvList width olds news dst).filter (·.src = src)).map
        (·.expert) := by
  rw [sendList_experts src dst sized, recvList_experts]
  apply eq_of_mem_iff
  · exact (strict_firstRows _).sublist (filter_sublist.map _)
  · exact (strict_firstRows _).sublist (filter_sublist.map _)
  intro expert
  rw [mem_keys_filter (fun expert => dst ∈ targetsOf _ _ _ expert src),
    mem_keys_filter (fun expert => sourceOf _ _ _ expert dst = src),
    needs_iff_mem_recvRows sized sized', mem_keys_sendRows]
  constructor
  · rintro ⟨⟨held, real⟩, sent⟩
    rw [mem_old_ofRank sized real] at held
    have needs := mem_of_mem_share sent
    exact ⟨⟨real, needs⟩, (mem_targetsOf_iff held needs).mp sent⟩
  · rintro ⟨⟨real, needs⟩, source⟩
    have held := sourceOf_mem (held_of_needs covered real needs) needs
    rw [source] at held
    refine ⟨⟨?_, real⟩, (mem_targetsOf_iff held needs).mpr source⟩
    rw [mem_old_ofRank sized real]
    exact held

end Local
section Layer
open LocalExperts
variable {W : Type} {width epSize : Nat} {olds news : List Int}
  {weights buffers : Nat → Nat → W} {value : Int → W}

def posting (width : Nat) (olds news : List Int)
    (weights buffers : Nat → Nat → W) (epRank : Nat) : Posted W :=
  let here := ofRank width olds news epRank
  { isUnchanged := here.isUnchanged
    isReceivedLocally := here.isReceivedLocally
    recvMetadata := {
      recvPrimaryMask := fun row => decide (row ∈ here.recvRows.map Prod.snd)
      recvRows := here.recvRows }
    buffer := localMoves here (weights epRank) (buffers epRank)
    sends := sendList width olds news epRank
    recvs := recvList width olds news epRank }

theorem moveToBuffer_ok (sized : olds.length = epSize * width)
    (sized' : news.length = epSize * width)
    (covered : Covered olds news) (epRank : Nat) :
    moveToBuffer width olds news weights buffers epRank =
      .ok (posting width olds news weights buffers epRank) := by
  rw [moveToBuffer, assert_bind (by simp [sized, sized'])]
  simp only [postSends_ok sized, postRecvs_ok sized sized' covered, ok_bind]
  rfl

def postings (width epSize : Nat) (olds news : List Int)
    (weights buffers : Nat → Nat → W) : List (Posted W) :=
  (range epSize).map (posting width olds news weights buffers)

theorem getElem?_postings (mem : epRank < epSize) :
    (postings width epSize olds news weights buffers)[epRank]? =
      some (posting width olds news weights buffers epRank) := by
  simp [postings, mem]

theorem sendsTo_postings (mem : src < epSize) :
    sendsTo (postings width epSize olds news weights buffers) src dst =
      (sendList width olds news src).filter (·.dst = dst) := by
  rw [sendsTo, getElem?_postings mem]
  rfl

theorem recvsFrom_postings (mem : dst < epSize) :
    recvsFrom (postings width epSize olds news weights buffers) dst src =
      (recvList width olds news dst).filter (·.src = src) := by
  rw [recvsFrom, getElem?_postings mem]
  rfl

theorem exchange_ok {exchange : Exchange W} (inOrder : exchange.InOrder)
    (weights buffers : Nat → Nat → W) (sized : olds.length = epSize * width)
    (sized' : news.length = epSize * width)
    (covered : Covered olds news) : ∃ filled, exchange weights
        (postings width epSize olds news weights buffers) = .ok filled ∧
      ∀ dst < epSize, filled[dst]? = some (write
        (localMoves (ofRank width olds news dst) (weights dst) (buffers dst))
        (deliveries weights
          (postings width epSize olds news weights buffers) dst)) := by
  have size : (postings width epSize olds news weights buffers).length =
      epSize := by simp [postings]
  have matched : Matched (postings width epSize olds news weights buffers) := by
    rw [Matched, size]
    intro src here dst there
    rw [sendsTo_postings here, recvsFrom_postings there]
    have agree := congrArg List.length (experts_agree sized sized' covered src dst)
    simpa using agree
  obtain ⟨filled, ran, buffer⟩ := inOrder weights _ matched
  exact ⟨filled, ran, fun dst rank => buffer dst _ (getElem?_postings rank)⟩

/-- Paired entries of two lists with equal keys have equal keys. -/
theorem keys_of_mem_zip {α β κ : Type} {f : α → κ} {g : β → κ} {l : List α} {l' : List β}
    (same : l.map f = l'.map g) {a : α} {b : β} (mem : (a, b) ∈ l.zip l') : f a = g b := by
  induction l generalizing l' with
  | nil => cases mem
  | cons x l ih =>
    cases l' with
    | nil => cases mem
    | cons y l' =>
      rw [map_cons, map_cons, cons.injEq] at same
      rcases mem_cons.mp mem with here | later
      · cases here
        exact same.1
      · exact ih same.2 later

def Holds (width epSize : Nat) (indices : List Int) (value : Int → W)
    (weights : Nat → Nat → W) : Prop :=
  ∀ epRank < epSize, ∀ row < width,
    indices.getD (epRank * width + row) noExpert ≠ noExpert →
      weights epRank row = value (indices.getD (epRank * width + row) noExpert)

theorem weights_of_mem_sendRows (holds : Holds width epSize olds value weights)
    (rank : epRank < epSize)
    (mem : entry ∈ (ofRank width olds news epRank).sendRows) :
    weights epRank entry.2 = value entry.1 := by
  obtain ⟨inside, found, real⟩ := mem_sendRows mem
  rw [length_old_ofRank] at inside
  rw [oldAt_ofRank inside] at found
  rw [holds epRank rank entry.2 inside (found ▸ real), found]

def filledBuffer (width epSize : Nat) (olds news : List Int)
    (weights buffers : Nat → Nat → W) (dst : Nat) : Nat → W :=
  write (localMoves (ofRank width olds news dst) (weights dst) (buffers dst))
    (deliveries weights
      (postings width epSize olds news weights buffers) dst)

theorem getIn_sendRows (held : expert ∈ here.old) (real : expert ≠ noExpert) :
    ∃ src, getIn expert here.sendRows = some src ∧ (expert, src) ∈ here.sendRows := by
  have mem := mem_keys_sendRows.mpr ⟨held, real⟩
  obtain ⟨⟨_, src⟩, listed, rfl⟩ := mem_map.mp mem
  have nodup : (here.sendRows.map Prod.fst).Nodup := (strict_firstRows _).imp ne_of_lt
  exact ⟨src, (getIn_eq_some nodup).mpr listed, listed⟩

theorem getElem?_searchsorted (strict : sorted.Pairwise (· < ·)) (mem : key ∈ sorted) :
    sorted[searchsorted sorted key]? = some key := by
  induction sorted with
  | nil => cases mem
  | cons first sorted ih =>
    rcases mem_cons.mp mem with rfl | later
    · simp [searchsorted]
    · have below := rel_of_pairwise_cons strict later
      have rest := ih strict.of_cons later
      simp only [searchsorted, takeWhile_cons, below, decide_true, if_true,
        length_cons, getElem?_cons_succ] at rest ⊢
      exact rest

def LocalExperts.duplicates (here : LocalExperts) : List (Nat × Nat) :=
  duplicateRows here.isUnchanged here.isReceivedLocally
    ⟨fun row => decide (row ∈ here.recvRows.map Prod.snd), here.recvRows⟩ here.new

/-- Duplicates copy a primary row of the same expert. -/
theorem mem_duplicates (mem : copy ∈ here.duplicates) :
    copy.1 ∉ here.recvRows.map Prod.snd ∧ (here.newAt copy.1, copy.2) ∈ here.recvRows := by
  simp only [duplicates, duplicateRows, mem_filterMap, mem_filter] at mem
  obtain ⟨dst, ⟨-, mask⟩, found⟩ := mem
  rw [recvRows, orderByExpert_firstRows, ← recvRows] at found
  split at found
  · rename_i entry loc
    split at found
    · rename_i same
      cases found
      refine ⟨by simp at mask; simpa using mask.2.1, ?_⟩
      have listed := mem_of_getElem? loc
      rw [show here.newAt dst = entry.1 from same.symm]
      exact listed
    · cases found
  · cases found

/-- A row that is neither here nor a primary is a duplicate of one. -/
theorem duplicates_complete (inside : row < here.new.length) (real : here.newAt row ≠ noExpert)
    (absent : here.isReceivedLocally row = false) (secondary : row ∉ here.recvRows.map Prod.snd) :
    row ∈ here.duplicates.map Prod.fst := by
  have need : here.needRecv row = true := by simp [needRecv, absent, newValid, real]
  have key : here.newAt row ∈ here.recvRows.map Prod.fst :=
    mem_keys_recvRows.mpr ⟨row, inside, need, rfl⟩
  have strict : (here.recvRows.map Prod.fst).Pairwise (· < ·) := strict_firstRows _
  have loc := getElem?_searchsorted strict key
  rw [getElem?_map, Option.map_eq_some_iff] at loc
  obtain ⟨entry, loc, same⟩ := loc
  have changed : here.isUnchanged row = false := by
    simp only [isReceivedLocally, Bool.or_eq_false_iff] at absent
    exact absent.1
  apply mem_map.mpr
  refine ⟨(row, entry.2), ?_, rfl⟩
  rw [duplicates, duplicateRows, mem_filterMap]
  refine ⟨row, mem_filter.mpr ⟨mem_range.mpr inside, ?_⟩, ?_⟩
  · simp only [changed, absent, secondary, decide_false, Bool.not_false, Bool.true_and, bne_iff_ne]
    exact real
  · rw [recvRows, orderByExpert_firstRows, ← recvRows]
    rw [show here.new.getD row noExpert = here.newAt row from rfl]
    simp only [loc, same, if_true]

/-- If the rows that are here and the primary rows are right, the duplicates make all rows
right. -/
theorem copyWithin_value
    (settled : ∀ row < here.new.length, here.newAt row ≠ noExpert → here.isReceivedLocally row =
      true ∨ row ∈ here.recvRows.map Prod.snd → copied row = value (here.newAt row))
    (inside : row < here.new.length) (real : here.newAt row ≠ noExpert) :
    copyWithin copied here.duplicates row = value (here.newAt row) := by
  have each {copy : Nat × Nat} (mem : copy ∈ here.duplicates) := mem_duplicates mem
  generalize listed : here.duplicates = copies at each
  have apart : ∀ copy ∈ copies, copy.2 ∉ copies.map Prod.fst := by
    intro copy mem again
    obtain ⟨other, present, same⟩ := mem_map.mp again
    exact (each present).1 (same ▸ mem_map_of_mem (each mem).2)
  rw [copyWithin_eq_write apart]
  by_cases duplicate : row ∈ copies.map Prod.fst
  · apply write_same
    · intro x written
      obtain ⟨copy, mem, same⟩ := mem_map.mp written
      obtain ⟨rfl, rfl⟩ := Prod.mk.inj same
      have primary := (each mem).2
      obtain ⟨below, expert, -⟩ := mem_recvRows primary
      rw [settled copy.2 below (expert ▸ real) (.inr (mem_map_of_mem primary)), expert]
    · rw [map_map]
      exact duplicate
  · rw [write_other (by rw [map_map]; exact duplicate)]
    apply settled row inside real
    by_contra unsettled
    rw [not_or, Bool.not_eq_true] at unsettled
    exact duplicate (listed ▸ duplicates_complete inside real unsettled.1 unsettled.2)

variable {dst : Nat} (view : ofRank width olds news dst = here)
  (sized : olds.length = epSize * width)
  (sized' : news.length = epSize * width)
  (covered : Covered olds news) (rank : dst < epSize)
include view sized sized' covered rank

theorem delivered_row (needed : entry ∈ here.recvRows) : entry.2 ∈ (deliveries weights
      (postings width epSize olds news weights buffers) dst).map
        Prod.fst := by
  subst view
  obtain ⟨real, needs⟩ := (needs_iff_mem_recvRows sized sized').mp (mem_map_of_mem needed)
  generalize source : sourceOf width olds news entry.1 dst = src
  have held := sourceOf_mem (held_of_needs covered real needs) needs
  have there : src < epSize := lt_of_mem_ranksOf sized (source ▸ held)
  have posted : (⟨entry.1, entry.2, src⟩ : Recv) ∈
      (recvList width olds news dst).filter (·.src = src) := by
    rw [mem_filter, recvList, mem_map]
    exact ⟨⟨entry, needed, by rw [source]⟩, by simp⟩
  have agree := congrArg List.length (experts_agree sized sized' covered src dst)
  rw [length_map, length_map] at agree
  obtain ⟨k, found⟩ := getElem?_of_mem posted
  obtain ⟨inside, -⟩ := List.getElem?_eq_some_iff.mp found
  obtain ⟨send, met⟩ : ∃ send, ((sendList width olds news src).filter
      (·.dst = dst))[k]? = some send := ⟨_, getElem?_eq_getElem (agree ▸ inside)⟩
  have paired : ((⟨entry.1, entry.2, src⟩ : Recv), send) ∈ zip _ _ :=
    mem_of_getElem? (getElem?_zip_eq_some.mpr ⟨found, met⟩)
  simp only [deliveries, map_flatMap, mem_flatMap, mem_range, mem_map]
  refine ⟨src, by simpa [postings] using there, (entry.2, weights src send.srcRow),
    ⟨(⟨entry.1, entry.2, src⟩, send), ?_, rfl⟩, rfl⟩
  rw [sendsTo_postings there, recvsFrom_postings rank]
  exact paired

variable (holds : Holds width epSize olds value weights)
include holds

/-- What is delivered into a row is the weights of the expert that the row needs. -/
theorem delivered_value {x : W} (mem : (row, x) ∈ deliveries weights
      (postings width epSize olds news weights buffers) dst) :
    row ∈ here.recvRows.map Prod.snd ∧ x = value (here.newAt row) := by
  simp only [deliveries, mem_flatMap, mem_range, mem_map] at mem
  obtain ⟨src, there, ⟨recv, send⟩, paired, same⟩ := mem
  have there : src < epSize := by simpa [postings] using there
  rw [sendsTo_postings there, recvsFrom_postings rank] at paired
  have expert := keys_of_mem_zip (experts_agree sized sized' covered src dst).symm paired
  obtain ⟨received, sent⟩ := of_mem_zip paired
  rw [mem_filter, recvList, mem_map, view] at received
  obtain ⟨⟨wanted, needed, rfl⟩, -⟩ := received
  rw [mem_filter, sendList, mem_flatMap] at sent
  obtain ⟨⟨entry, listed, mapped⟩, -⟩ := sent
  obtain ⟨target, -, rfl⟩ := mem_map.mp mapped
  simp only [Prod.mk.injEq] at same expert
  obtain ⟨rfl, rfl⟩ := same
  refine ⟨mem_map_of_mem needed, ?_⟩
  rw [weights_of_mem_sendRows holds there listed, ← expert, (mem_recvRows needed).2.1]

theorem filledBuffer_primary (primary : row ∈ here.recvRows.map Prod.snd) :
    filledBuffer width epSize olds news weights buffers dst row =
      value (here.newAt row) := by
  obtain ⟨entry, needed, rfl⟩ := mem_map.mp primary
  apply write_same
  · intro x delivered
    exact (delivered_value view sized sized' covered rank holds delivered).2
  · exact delivered_row view sized sized' covered rank needed

variable (inside : row < width)
include inside

theorem filledBuffer_local (eligible : here.eligibleLocalBuffer row = true) :
    filledBuffer width epSize olds news weights buffers dst row =
      value (here.newAt row) := by
  have changed := eligible
  simp only [eligibleLocalBuffer, isReceivedLocally, newValid, Bool.and_eq_true,
    Bool.not_eq_true', Bool.or_eq_true, bne_iff_ne, decide_eq_true_eq] at changed
  obtain ⟨real, held⟩ := changed.2.resolve_left (by simp [changed.1])
  obtain ⟨src, found, listed⟩ := getIn_sendRows held real
  have undelivered : row ∉ (deliveries weights
      (postings width epSize olds news weights buffers) dst).map
        Prod.fst := by
    intro mem
    obtain ⟨⟨_, x⟩, delivered, rfl⟩ := mem_map.mp mem
    have primary := (delivered_value view sized sized' covered rank holds delivered).1
    obtain ⟨entry, needed, rfl⟩ := mem_map.mp primary
    have need := (mem_recvRows needed).2.2
    simp only [needRecv, eligibleLocalBuffer, Bool.and_eq_true] at need eligible
    simp [eligible.2] at need
  rw [filledBuffer, write_other undelivered, localMoves, view]
  apply write_same
  · intro x written
    simp only [mem_filterMap, Option.map_eq_some_iff, Prod.mk.injEq] at written
    obtain ⟨_, -, other, same, rfl, rfl⟩ := written
    obtain rfl : src = other := Option.some.inj (found.symm.trans same)
    subst view
    exact weights_of_mem_sendRows holds rank listed
  · have size : here.new.length = width := by rw [← view, length_new_ofRank]
    simp only [mem_map, mem_filterMap, mem_filter, mem_range, size]
    exact ⟨_, ⟨row, ⟨inside, eligible⟩, by rw [found]; rfl⟩, rfl⟩

variable (real : here.newAt row ≠ noExpert)
include real

/-- Rows that are not duplicates are right after the copy from the buffer. -/
theorem copied_value
    (settled : here.isReceivedLocally row = true ∨ row ∈ here.recvRows.map Prod.snd) :
    write (weights dst) (((range width).filter (fun row =>
        !here.isUnchanged row && (here.isReceivedLocally row ||
          decide (row ∈ here.recvRows.map Prod.snd)))).map (fun row => (row,
          filledBuffer width epSize olds news weights buffers dst row))) row =
      value (here.newAt row) := by
  by_cases unchanged : here.isUnchanged row = true
  · rw [write_other (by simp [unchanged])]
    have same : here.oldAt row = here.newAt row := by simpa [isUnchanged] using unchanged
    rw [← same] at real ⊢
    rw [← view, oldAt_ofRank inside] at real ⊢
    exact holds dst rank row inside real
  · apply write_same
    · intro x written
      simp only [mem_map, Prod.mk.injEq] at written
      obtain ⟨_, -, rfl, rfl⟩ := written
      rcases settled with received | primary
      · apply filledBuffer_local view sized sized' covered rank holds inside
        simp [eligibleLocalBuffer, unchanged, received]
      · exact filledBuffer_primary view sized sized' covered rank holds primary
    · simp only [map_map, mem_map, mem_filter, mem_range, Function.comp_apply, exists_eq_right]
      simpa [inside, unchanged] using settled

theorem moveFromBuffer_value : moveFromBuffer width news (weights dst)
        (filledBuffer width epSize olds news weights buffers dst)
        here.isUnchanged here.isReceivedLocally
        ⟨fun row => decide (row ∈ here.recvRows.map Prod.snd), here.recvRows⟩ dst row =
      value (here.newAt row) := by
  have size : here.new.length = width := by rw [← view, length_new_ofRank]
  have below : row < here.new.length := by
    rw [size]
    exact inside
  rw [moveFromBuffer]
  split
  · rename_i nothing
    apply copied_value view sized sized' covered rank holds inside real
    by_contra unsettled
    rw [not_or, Bool.not_eq_true] at unsettled
    have key := mem_keys_recvRows.mpr
      ⟨row, below, by simp [needRecv, newValid, unsettled.1, real], rfl⟩
    rw [show LocalExperts.recvRows _ = [] from nothing] at key
    cases key
  · subst view
    apply copyWithin_value _ below real
    intro row below valid settled
    rw [size] at below
    exact copied_value rfl sized sized' covered rank holds below valid settled

end Layer

open LocalExperts
variable {W : Type} {width epSize : Nat} {olds news : List Int}
  {weights buffers : Nat → Nat → W} {value : Int → W}

/-- For every pair of ranks the sends of the first and the receives of the second list the same
experts in the same order, so the exchange completes; afterwards every slot holds the weights
that its expert had before. -/
theorem weights_follow_placement {exchange : Exchange W} (inOrder : exchange.InOrder)
    (sized : olds.length = epSize * width)
    (sized' : news.length = epSize * width)
    (covered : Covered olds news)
    (holds : Holds width epSize olds value weights) : (∃ posted, (range epSize).mapM
        (moveToBuffer width olds news weights buffers) = .ok posted ∧
      ∀ src < epSize, ∀ dst < epSize,
        (sendsTo posted src dst).map (·.expert) = (recvsFrom posted dst src).map (·.expert)) ∧
    ∃ after, moveLayer width olds news exchange epSize weights buffers =
        .ok after ∧ Holds width epSize news value after := by
  have posts : (range epSize).mapM
      (moveToBuffer width olds news weights buffers) =
      .ok (postings width epSize olds news weights buffers) :=
    mapM_ok (fun epRank _ => moveToBuffer_ok sized sized' covered epRank)
  constructor
  · refine ⟨_, posts, ?_⟩
    intro src here dst there
    rw [sendsTo_postings here, recvsFrom_postings there]
    exact experts_agree sized sized' covered src dst
  · obtain ⟨filled, exchanged, buffer⟩ := exchange_ok inOrder weights buffers sized sized' covered
    rw [moveLayer, posts, ok_bind, exchanged, ok_bind]
    refine ⟨_, rfl, ?_⟩
    intro dst rank row inside real
    simp only [getElem?_postings rank, buffer dst rank]
    have expert : (ofRank width olds news dst).newAt row =
      news.getD (dst * width + row) noExpert := newAt_ofRank inside
    rw [← expert] at real ⊢
    exact moveFromBuffer_value rfl sized sized' covered rank holds inside real

/-- The operations meet in order; one that meets none waits for ever. -/
def exchangeInOrder (weights : Nat → Nat → W) (posted : List (Posted W)) : Py (List (Nat → W)) :=
  if (range posted.length).all (fun src => (range posted.length).all (fun dst =>
      (sendsTo posted src dst).length = (recvsFrom posted dst src).length)) then
    .ok (posted.zipIdx.map (fun (mine, dst) => write mine.buffer (deliveries weights posted dst)))
  else .error (.runtimeError "the exchange does not complete")

theorem exchangeInOrder_inOrder : Exchange.InOrder (exchangeInOrder (W := W)) := by
  intro weights posted matched
  rw [exchangeInOrder, if_pos (by simpa [Matched] using matched)]
  refine ⟨_, rfl, fun dst mine found => ?_⟩
  rw [getElem?_map, getElem?_zipIdx, found]
  simp

/-- Two ranks with two slots each. The first gets both of its slots from the second, one of them
as a duplicate, the second gets one slot from the first and leaves one empty. -/
theorem weights_follow_placement_duplicate : ∃ after,
      moveLayer 2 [0, 1, 2, 0] [2, 2, 1, -1] exchangeInOrder 2
        (fun epRank row => [0, 1, 2, 0].getD (epRank * 2 + row) 0) (fun _ _ => 7) = .ok after ∧
      Holds 2 2 [2, 2, 1, -1] id after :=
  (weights_follow_placement exchangeInOrder_inOrder (by rfl) (by rfl) (by simp [Covered, noExpert])
    (by unfold Holds; decide)).2

end Vllm.Eplb
