import Vllm.Eplb.Balance

/-! Experts that stay on a GPU keep their slots. What the reshuffle leaves on a GPU is a
permutation of what was to be there. -/
namespace Vllm.Eplb
open Rows Replicas List Function

/-- If the marked elements come first, they are what a filter by the mark keeps. -/
theorem eq_filter_append {α : Type} {mask : α → Bool} {l : List α}
    (first : l.Pairwise (fun a b => mask b = true → mask a = true)) :
    l = l.filter mask ++ l.filter (fun a => !mask a) := by
  induction l with
  | nil => rfl
  | cons a l ih =>
    by_cases marked : mask a = true
    · rw [filter_cons_of_pos marked, filter_cons_of_neg (by simp [marked]),
        cons_append, ← ih first.of_cons]
    · have none_later : l.filter mask = [] := by
        apply filter_eq_nil_iff.mpr
        intro b mem later
        exact marked (rel_of_pairwise_cons first mem later)
      have rest := ih first.of_cons
      rw [none_later, nil_append] at rest
      rw [filter_cons_of_neg marked, filter_cons_of_pos (by simp [marked]), none_later,
        nil_append, ← rest]

/-- The positions that the priorities put first are the marked ones, in increasing order. -/
theorem take_argsort_priority (sorter : Sorter) (n : Nat) (mask : Nat → Bool) :
    (sorter.argsort n (priority n mask)).take ((range n).countP mask) = (range n).filter mask := by
  have order := sorter.perm n (priority n mask)
  have sorted := sorter.sorted n (priority n mask)
  generalize sorter.argsort n (priority n mask) = indices at order sorted
  have below {i : Nat} (mem : i ∈ indices) : i < n := mem_range.mp (order.mem_iff.mp mem)
  have first : indices.Pairwise (fun i j => mask j = true → mask i = true) := by
    apply sorted.imp_of_mem
    intro i j left right le marked
    by_contra unmarked
    simp only [priority, marked, unmarked] at le
    have := below right
    have : n + 1 ≤ j := by simpa using le
    omega
  have kept : indices.filter mask = (range n).filter mask := by
    apply Perm.eq_of_pairwise' (r := (· ≤ ·))
    · apply (sorted.filter mask).imp_of_mem
      intro i j left right le
      simpa [priority, (mem_filter.mp left).2, (mem_filter.mp right).2] using le
    · exact (pairwise_le_range).filter _
    · exact order.filter mask
  rw [eq_filter_append first, countP_eq_length_filter, kept, take_left]

variable {slots : Nat} {oldLocal : Nat → Int} {newLocal newRidx : Nat → Nat}

section Keeping
variable {kept : Kept} {source : Nat → Nat} {slot : Nat}

/-- After the slots below `done`: a preserved slot holds the expert of its source, no two have
one source, and a slot that is not preserved found all of its expert's new places used. -/
structure Keeping (slots : Nat) (oldLocal : Nat → Int) (newLocal newRidx source : Nat → Nat)
    (done : Nat) (kept : Kept) : Prop where
  preserved : ∀ slot, kept.preservedPositions slot = true →
    slot < done ∧ source slot < slots ∧ kept.usedNewIndices (source slot) = true ∧
      kept.phy2log slot = newLocal (source slot) ∧
      kept.replicaIdx slot = newRidx (source slot) ∧ (newLocal (source slot) : Int) = oldLocal slot
  distinct : ∀ slot other, kept.preservedPositions slot = true →
    kept.preservedPositions other = true → source slot = source other → slot = other
  used : ∀ i, kept.usedNewIndices i = true →
    ∃ slot, kept.preservedPositions slot = true ∧ source slot = i
  exhausted : ∀ slot < done, kept.preservedPositions slot = false →
    ∀ i < slots, (newLocal i : Int) = oldLocal slot → kept.usedNewIndices i = true

section
variable (keeping : Keeping slots oldLocal newLocal newRidx source done kept)
include keeping

theorem Keeping.unmatched
    (none_left : ∀ i < slots, (newLocal i : Int) = oldLocal done → kept.usedNewIndices i = true) :
    Keeping slots oldLocal newLocal newRidx source (done + 1) kept where
  preserved slot marked :=
    have known := keeping.preserved slot marked
    ⟨Nat.lt_succ_of_lt known.1, known.2⟩
  distinct := keeping.distinct
  used := keeping.used
  exhausted slot below unmarked := by
    rcases Nat.lt_succ_iff_lt_or_eq.mp below with prior | rfl
    · exact keeping.exhausted slot prior unmarked
    · exact none_left

theorem Keeping.matched {matched : Nat}
    (inside : matched < slots) (same : (newLocal matched : Int) = oldLocal done)
    (free : kept.usedNewIndices matched = false) :
    Keeping slots oldLocal newLocal newRidx (update source done matched) (done + 1)
      { phy2log := update kept.phy2log done (newLocal matched)
        replicaIdx := update kept.replicaIdx done (newRidx matched)
        usedNewIndices := update kept.usedNewIndices matched true
        preservedPositions := update kept.preservedPositions done true } := by
  have older {slot : Nat} (ne : slot ≠ done)
      (marked : update kept.preservedPositions done true slot = true) :
      kept.preservedPositions slot = true := by
    rwa [update_of_ne ne] at marked
  have taken {slot : Nat} (marked : kept.preservedPositions slot = true) :
      source slot ≠ matched := by
    intro equal
    have known := (keeping.preserved slot marked).2.2.1
    rw [equal, free] at known
    cases known
  constructor
  · intro slot marked
    by_cases mine : slot = done
    · subst mine
      simp [inside, same]
    · have marked := older mine marked
      have known := keeping.preserved slot marked
      simp only [update_of_ne mine, update_of_ne (taken marked)]
      exact ⟨Nat.lt_succ_of_lt known.1, known.2⟩
  · intro slot other marked marked' equal
    by_cases mine : slot = done <;> by_cases yours : other = done
    · rw [mine, yours]
    · rw [mine, update_self, update_of_ne yours] at equal
      exact absurd equal.symm (taken (older yours marked'))
    · rw [yours, update_self, update_of_ne mine] at equal
      exact absurd equal (taken (older mine marked))
    · rw [update_of_ne mine, update_of_ne yours] at equal
      exact keeping.distinct slot other (older mine marked) (older yours marked') equal
  · intro i taken_
    by_cases mine : i = matched
    · exact ⟨done, update_self .., by rw [update_self, mine]⟩
    · simp only [update_of_ne mine] at taken_
      obtain ⟨slot, marked, rfl⟩ := keeping.used i taken_
      have prior : slot ≠ done := (keeping.preserved slot marked).1.ne
      exact ⟨slot, by simpa only [update_of_ne prior] using marked, update_of_ne prior ..⟩
  · intro slot _ unmarked i within equal
    by_cases mine : slot = done
    · simp [mine] at unmarked
    · simp only [update_of_ne mine] at unmarked
      have used := keeping.exhausted slot (by omega) unmarked i within equal
      by_cases now : i = matched
      · simp [now]
      · simpa [update_of_ne now] using used

theorem Keeping.step : ∃ source', Keeping slots oldLocal newLocal newRidx source' (done + 1)
      (preserveSlot slots oldLocal newLocal newRidx kept done) := by
  rw [preserveSlot]
  split
  · rename_i nothing
    refine ⟨source, keeping.unmatched ?_⟩
    intro i inside same
    have tried := find?_eq_none.mp nothing i (mem_range.mpr inside)
    simpa [same] using tried
  · rename_i matched found
    have inside := mem_range.mp (mem_of_find?_eq_some found)
    have chosen := find?_some found
    simp only [Bool.and_eq_true, decide_eq_true_eq, Bool.not_eq_true'] at chosen
    exact ⟨_, keeping.matched inside chosen.1 chosen.2⟩

end

theorem keeping_foldl (slots : Nat) (oldLocal : Nat → Int) (newLocal newRidx : Nat → Nat)
    (done : Nat) : ∃ source, Keeping slots oldLocal newLocal newRidx source done
      ((range done).foldl (preserveSlot slots oldLocal newLocal newRidx)
        ⟨newLocal, newRidx, fun _ => false, fun _ => false⟩) := by
  induction done with
  | zero =>
    refine ⟨fun _ => 0, ?_⟩
    constructor
    · intro slot marked
      cases marked
    · intro slot _ marked
      cases marked
    · intro i used
      cases used
    · intro slot _
      omega
  | succ done ih =>
    obtain ⟨source, keeping⟩ := ih
    rw [range_succ, foldl_append]
    exact keeping.step

/-- As many new places are used as slots are preserved. -/
theorem Keeping.counts (keeping : Keeping slots oldLocal newLocal newRidx source slots kept) :
    ((Finset.range slots).filter (kept.preservedPositions · = true)).card =
      ((Finset.range slots).filter (kept.usedNewIndices · = true)).card := by
  apply Finset.card_nbij source
  · intro slot mem
    have marked := (Finset.mem_filter.mp mem).2
    have known := keeping.preserved slot marked
    exact Finset.mem_filter.mpr ⟨Finset.mem_range.mpr known.2.1, known.2.2.1⟩
  · intro slot mem other member' same
    exact keeping.distinct slot other (Finset.mem_filter.mp mem).2
      (Finset.mem_filter.mp member').2 same
  · intro i mem
    obtain ⟨slot, marked, same⟩ := keeping.used i (Finset.mem_filter.mp mem).2
    exact ⟨slot, Finset.mem_filter.mpr
      ⟨Finset.mem_range.mpr (keeping.preserved slot marked).1, marked⟩, same⟩

theorem length_filter_not (n : Nat) (mask : Nat → Bool) :
    ((range n).filter (fun i => !mask i)).length =
      n - ((Finset.range n).filter (mask · = true)).card := by
  have marked : ((Finset.range n).filter (mask · = true)).card =
      ((range n).filter mask).length := by
    rw [← toFinset_card_of_nodup (nodup_range.filter mask)]
    congr 1
    ext i
    simp
  have whole := length_eq_length_filter_add (l := range n) mask
  rw [length_range] at whole
  omega

theorem Keeping.fill_length (keeping : Keeping slots oldLocal newLocal newRidx source slots kept) :
    ((range slots).filter (fun i => !kept.preservedPositions i)).length =
      ((range slots).filter (fun i => !kept.usedNewIndices i)).length := by
  rw [length_filter_not, length_filter_not, keeping.counts]

def origin (slots : Nat) (source : Nat → Nat) (kept : Kept) (slot : Nat) : Nat :=
  if kept.preservedPositions slot then source slot
  else ((range slots).filter (fun i => !kept.usedNewIndices i)).getD
    (((range slots).filter (fun i => !kept.preservedPositions i)).idxOf slot) 0

variable (keeping : Keeping slots oldLocal newLocal newRidx source slots kept)
include keeping

theorem Keeping.origin_filled
    (inside : slot < slots) (unmarked : kept.preservedPositions slot = false) :
    ∃ k : Nat, ((range slots).filter (fun i => !kept.preservedPositions i))[k]? = some slot ∧
      ((range slots).filter (fun i => !kept.usedNewIndices i))[k]? =
        some (origin slots source kept slot) := by
  have mem : slot ∈ (range slots).filter (fun i => !kept.preservedPositions i) := by
    simp [inside, unmarked]
  have below := idxOf_lt_length_of_mem mem
  refine ⟨_, getElem?_idxOf mem, ?_⟩
  rw [keeping.fill_length] at below
  rw [origin, if_neg (by simp [unmarked]), getD_eq_getElem _ _ below, getElem?_eq_getElem below]

theorem Keeping.permutes : Permutes slots (origin slots source kept) := by
  have at_preserved {slot : Nat} (marked : kept.preservedPositions slot = true) :
      origin slots source kept slot = source slot := by
    rw [origin, if_pos marked]
  have unused {slot : Nat} (inside : slot < slots)
      (unmarked : kept.preservedPositions slot = false) :
      origin slots source kept slot < slots ∧
        kept.usedNewIndices (origin slots source kept slot) = false := by
    obtain ⟨k, -, filled⟩ := keeping.origin_filled inside unmarked
    simpa using mem_of_getElem? filled
  have apart {slot other : Nat} (marked : kept.preservedPositions slot = true)
      (inside : other < slots) (unmarked : kept.preservedPositions other = false) :
      origin slots source kept slot ≠ origin slots source kept other := by
    intro same
    have free := (unused inside unmarked).2
    rw [← same, at_preserved marked, (keeping.preserved slot marked).2.2.1] at free
    cases free
  apply Permutes.of_inj
  · intro slot inside
    cases marked : kept.preservedPositions slot with
    | true => exact at_preserved marked ▸ (keeping.preserved slot marked).2.1
    | false => exact (unused inside marked).1
  · intro slot inside other inside' same
    cases marked : kept.preservedPositions slot with
    | true =>
      cases marked' : kept.preservedPositions other with
      | true =>
        rw [at_preserved marked, at_preserved marked'] at same
        exact keeping.distinct slot other marked marked' same
      | false => exact absurd same (apart marked inside' marked')
    | false =>
      cases marked' : kept.preservedPositions other with
      | true => exact absurd same.symm (apart marked' inside marked)
      | false =>
        obtain ⟨k, place, filled⟩ := keeping.origin_filled inside marked
        obtain ⟨k', place', filled'⟩ := keeping.origin_filled inside' marked'
        -- the places to fill from are distinct, so both slots are the same one to be filled
        rw [same] at filled
        have equal : k = k' := (getElem?_inj (List.getElem?_eq_some_iff.mp filled).1
          (nodup_range.filter _)).mp (filled.trans filled'.symm)
        rw [equal, place'] at place
        exact (Option.some.inj place).symm

/-- One array of the GPU after the fill: preserved slots are left alone, the others get the
values of their origins. -/
theorem Keeping.write_fill {values : Nat → Nat}
    (held : ∀ slot, kept.preservedPositions slot = true → current slot = values (source slot))
    (inside : slot < slots) :
    write current ((((range slots).filter (fun i => !kept.preservedPositions i)).zip
      ((range slots).filter (fun i => !kept.usedNewIndices i))).map
        (fun move => (move.1, values move.2))) slot = values (origin slots source kept slot) := by
  cases marked : kept.preservedPositions slot with
  | true =>
    rw [write_other, held slot marked, origin, if_pos marked]
    intro mem
    simp only [map_map, mem_map, comp_apply] at mem
    obtain ⟨move, paired, rfl⟩ := mem
    have listed := (of_mem_zip paired).1
    simp [marked] at listed
  | false =>
    obtain ⟨k, place, filled⟩ := keeping.origin_filled inside marked
    apply write_same
    · intro _ written
      obtain ⟨⟨_, _⟩, paired, same⟩ := mem_map.mp written
      obtain ⟨rfl, rfl⟩ := Prod.mk.inj same
      obtain ⟨j, found⟩ := getElem?_of_mem paired
      obtain ⟨place', filled'⟩ := getElem?_zip_eq_some.mp found
      have equal : j = k := (getElem?_inj (List.getElem?_eq_some_iff.mp place').1
        (nodup_range.filter _)).mp (place'.trans place.symm)
      rw [equal, filled] at filled'
      rw [Option.some.inj filled']
    · rw [map_map]
      apply mem_map.mpr
      exact ⟨(slot, origin slots source kept slot),
        mem_of_getElem? (getElem?_zip_eq_some.mpr ⟨place, filled⟩), rfl⟩

theorem Keeping.fillSlots (sorter : Sorter) (inside : slot < slots) :
    (fillSlots sorter slots newLocal newRidx kept).1 slot =
        newLocal (origin slots source kept slot) ∧
      (fillSlots sorter slots newLocal newRidx kept).2 slot =
        newRidx (origin slots source kept slot) := by
  have lengths := keeping.fill_length
  have take : min ((range slots).countP (fun i => !kept.usedNewIndices i))
      ((range slots).countP (fun i => !kept.preservedPositions i)) =
      (range slots).countP (fun i => !kept.usedNewIndices i) := by
    rw [countP_eq_length_filter, countP_eq_length_filter, lengths, min_self]
  have take' : (range slots).countP (fun i => !kept.usedNewIndices i) =
      (range slots).countP (fun i => !kept.preservedPositions i) := by
    rw [countP_eq_length_filter, countP_eq_length_filter, lengths]
  simp only [Eplb.fillSlots, take]
  rw [take_argsort_priority, take', take_argsort_priority]
  constructor
  · exact keeping.write_fill (fun slot marked => (keeping.preserved slot marked).2.2.2.1) inside
  · exact keeping.write_fill (fun slot marked => (keeping.preserved slot marked).2.2.2.2.1) inside

/-- Of an expert's old slots as many are preserved as it has, before or after. -/
theorem Keeping.min_le (expert : Nat) : min ((Finset.range slots).filter (oldLocal · = expert)).card
        ((Finset.range slots).filter (newLocal · = expert)).card ≤
      ((Finset.range slots).filter (fun slot =>
        oldLocal slot = expert ∧ kept.preservedPositions slot = true)).card := by
  by_cases all : ∀ slot < slots, oldLocal slot = expert → kept.preservedPositions slot = true
  · apply (min_le_left _ _).trans
    apply Finset.card_le_card
    intro slot mem
    rw [Finset.mem_filter, Finset.mem_range] at mem ⊢
    exact ⟨mem.1, mem.2, all slot mem.1 mem.2⟩
  · apply (min_le_right _ _).trans
    push Not at all
    obtain ⟨left, inside, old, unmarked⟩ := all
    have used := keeping.exhausted left inside (by simpa using unmarked)
    -- every new place of the expert is the source of one of its preserved slots
    apply (Finset.card_le_card _).trans Finset.card_image_le
    · exact source
    intro i mem
    rw [Finset.mem_filter, Finset.mem_range] at mem
    obtain ⟨slot, marked, rfl⟩ := keeping.used i (used i mem.1 (by rw [mem.2, old]))
    have known := keeping.preserved slot marked
    apply Finset.mem_image_of_mem
    rw [Finset.mem_filter, Finset.mem_range]
    exact ⟨known.1, by rw [← known.2.2.2.2.2, mem.2], marked⟩

end Keeping

theorem card_filter_permuted (perm : Permutes n order) (row : Nat → Nat) (value : Nat) :
    ((Finset.range n).filter (fun i => row (order i) = value)).card =
      ((Finset.range n).filter (row · = value)).card := by
  apply Finset.card_nbij order
  · intro i mem
    have known := Finset.mem_filter.mp mem
    exact Finset.mem_filter.mpr
      ⟨Finset.mem_range.mpr (perm.lt (Finset.mem_range.mp known.1)), known.2⟩
  · intro i mem j member' same
    exact perm.inj (Finset.mem_range.mp (Finset.mem_filter.mp mem).1)
      (Finset.mem_range.mp (Finset.mem_filter.mp member').1) same
  · intro j mem
    have inside := Finset.mem_filter.mp mem
    obtain ⟨i, below, rfl⟩ := perm.reach (Finset.mem_range.mp inside.1)
    exact ⟨i, Finset.mem_filter.mpr ⟨Finset.mem_range.mpr below, inside.2⟩, rfl⟩

theorem preserveGpu_ok (sorter : Sorter) (slots : Nat) (oldLocal : Nat → Int)
    (newLocal newRidx : Nat → Nat) : ∃ order, Permutes slots order ∧ (∀ slot < slots,
        (preserveGpu sorter slots oldLocal newLocal newRidx).1 slot = newLocal (order slot) ∧
        (preserveGpu sorter slots oldLocal newLocal newRidx).2 slot = newRidx (order slot)) ∧
      ∀ expert : Nat, ((Finset.range slots).filter (fun slot => oldLocal slot = expert ∧
          (preserveGpu sorter slots oldLocal newLocal newRidx).1 slot = expert)).card =
        min ((Finset.range slots).filter (oldLocal · = expert)).card ((Finset.range slots).filter
            ((preserveGpu sorter slots oldLocal newLocal newRidx).1 · = expert)).card := by
  obtain ⟨_, keeping⟩ := keeping_foldl slots oldLocal newLocal newRidx slots
  have values {slot : Nat} (inside : slot < slots) := keeping.fillSlots sorter inside
  have lower := keeping.min_le
  have perm := keeping.permutes
  rw [preserveGpu]
  generalize (range slots).foldl _ _ = kept at *
  refine ⟨_, perm, fun slot inside => values inside, ?_⟩
  intro expert
  have same : ((Finset.range slots).filter
      ((fillSlots sorter slots newLocal newRidx kept).1 · = expert)).card =
        ((Finset.range slots).filter (newLocal · = expert)).card := by
    rw [← card_filter_permuted perm newLocal expert]
    congr 1
    apply Finset.filter_congr
    intro slot mem
    rw [(values (Finset.mem_range.mp mem)).1]
  apply le_antisymm
  · apply Nat.le_min.mpr
    constructor <;>
    · apply Finset.card_le_card
      intro slot mem
      rw [Finset.mem_filter] at mem ⊢
      tauto
  · rw [same]
    apply (lower expert).trans
    apply Finset.card_le_card
    intro slot mem
    rw [Finset.mem_filter] at mem ⊢
    obtain ⟨inside, old, marked⟩ := mem
    refine ⟨inside, old, ?_⟩
    rw [(values (Finset.mem_range.mp inside)).1, origin, if_pos marked]
    have known := (keeping.preserved slot marked).2.2.2.2.2
    rw [old] at known
    exact_mod_cast known

/-- With the old placement every GPU hosts the experts it hosts without it, and as many slots of
an expert are unchanged as it has on the GPU, before or after. -/
structure Preserves (numReplicas numRanks : Nat) (old : Nat → Int) (fresh kept : Nat → Nat) :
    Prop where
  hosts : ∀ gpu < numRanks,
    ((range (numReplicas / numRanks)).map
        (fun slot => kept (gpu * (numReplicas / numRanks) + slot))).Perm
      ((range (numReplicas / numRanks)).map
        (fun slot => fresh (gpu * (numReplicas / numRanks) + slot)))
  unchanged : ∀ gpu < numRanks, ∀ expert : Nat,
    ((Finset.range (numReplicas / numRanks)).filter (fun slot =>
        old (gpu * (numReplicas / numRanks) + slot) = expert ∧
          kept (gpu * (numReplicas / numRanks) + slot) = expert)).card =
      min ((Finset.range (numReplicas / numRanks)).filter (fun slot =>
          old (gpu * (numReplicas / numRanks) + slot) = expert)).card
        ((Finset.range (numReplicas / numRanks)).filter (fun slot =>
          kept (gpu * (numReplicas / numRanks) + slot) = expert)).card

theorem preserveIntragpuSlots_ok (sorter : Sorter) (some_rank : 0 < numRanks)
    (phy2log ridx : Nat → Nat) (old : Nat → Int) :
    ∃ order, Permutes (numRanks * perGpu) order ∧
      (∀ slot < numRanks * perGpu, order slot / perGpu = slot / perGpu ∧
        (preserveIntragpuSlots sorter (numRanks * perGpu) numRanks phy2log ridx old).1 slot =
          phy2log (order slot) ∧
        (preserveIntragpuSlots sorter (numRanks * perGpu) numRanks phy2log ridx old).2 slot =
          ridx (order slot)) ∧ Preserves (numRanks * perGpu) numRanks old phy2log
        (preserveIntragpuSlots sorter (numRanks * perGpu) numRanks phy2log ridx old).1 := by
  have size : numRanks * perGpu / numRanks = perGpu := Nat.mul_div_cancel_left _ some_rank
  choose orders perm values counts using fun gpu : Nat => preserveGpu_ok sorter perGpu
    (fun slot => old (gpu * perGpu + slot)) (fun slot => phy2log (gpu * perGpu + slot))
    (fun slot => ridx (gpu * perGpu + slot))
  simp only [preserveIntragpuSlots, Nat.mul_mod_right, some_rank.ne', ne_eq, not_true_eq_false,
    or_self, if_false, size]
  refine ⟨fun slot => slot / perGpu * perGpu + orders (slot / perGpu)
    (slot % perGpu), Permutes.id.blocks (fun gpu _ => perm gpu), ?_, ?_⟩
  · intro slot below
    have inside := mod_lt_size below
    exact ⟨block_div _ ((perm _).lt inside), (values _ _ inside).1, (values _ _ inside).2⟩
  · constructor
    · intro gpu below
      rw [size]
      have moved := (perm gpu).map_perm (fun slot => phy2log (gpu * perGpu + slot))
      apply (Perm.of_eq _).trans moved
      apply map_congr_left
      intro slot mem
      have inside := mem_range.mp mem
      rw [block_div _ inside, block_mod _ inside]
      exact (values gpu slot inside).1
    · intro gpu below expert
      rw [size]
      have here (slot : Nat) (mem : slot ∈ range perGpu) :
          (preserveGpu sorter perGpu
            (fun place => old ((gpu * perGpu + slot) / perGpu * perGpu + place))
            (fun place => phy2log ((gpu * perGpu + slot) / perGpu * perGpu + place))
            (fun place => ridx ((gpu * perGpu + slot) / perGpu * perGpu + place))).1
              ((gpu * perGpu + slot) % perGpu) =
          (preserveGpu sorter perGpu (fun place => old (gpu * perGpu + place))
            (fun place => phy2log (gpu * perGpu + place))
            (fun place => ridx (gpu * perGpu + place))).1 slot := by
        rw [block_div _ (Finset.mem_range.mp mem), block_mod _ (Finset.mem_range.mp mem)]
      rw [Finset.filter_congr (fun slot mem => by rw [here slot mem])]
      rw [counts gpu expert]
      congr 2
      apply Finset.filter_congr
      intro slot mem
      rw [here slot mem]

end Vllm.Eplb
