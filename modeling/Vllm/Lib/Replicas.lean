import Vllm.Lib.Rows

/-! Permutations of the numbers below a bound, and slots that hold the numbered replicas of
items. -/
namespace Vllm.Replicas
open Rows List Function

/-- The place in block `block`, with blocks of `size` places. -/
theorem block_div (block : Nat) (inside : place < size) :
    (block * size + place) / size = block := by
  rw [Nat.mul_comm, Nat.mul_add_div (Nat.zero_lt_of_lt inside), Nat.div_eq_of_lt inside,
    Nat.add_zero]

theorem block_mod (block : Nat) (inside : place < size) :
    (block * size + place) % size = place := by
  rw [Nat.mul_comm, Nat.mul_add_mod, Nat.mod_eq_of_lt inside]

theorem block_lt {block blocks place size : Nat} (inside : place < size) (below : block < blocks) :
    block * size + place < blocks * size :=
  calc block * size + place < block * size + size := Nat.add_lt_add_left inside _
    _ = (block + 1) * size := (Nat.succ_mul ..).symm
    _ ≤ blocks * size := Nat.mul_le_mul_right _ below

theorem div_lt_blocks {place blocks size : Nat} (below : place < blocks * size) :
    place / size < blocks :=
  Nat.div_lt_of_lt_mul (by rwa [Nat.mul_comm])

theorem mod_lt_size {place blocks size : Nat} (below : place < blocks * size) :
    place % size < size :=
  Nat.mod_lt _ (Nat.pos_of_mul_pos_left (Nat.zero_lt_of_lt below))

def Permutes (n : Nat) (f : Nat → Nat) : Prop := Set.BijOn f (Set.Iio n) (Set.Iio n)

namespace Permutes
theorem lt (perm : Permutes n f) (inside : i < n) : f i < n := perm.mapsTo inside

theorem inj (perm : Permutes n f) (left : i < n) (right : j < n) (same : f i = f j) : i = j :=
  perm.injOn left right same

theorem reach (perm : Permutes n f) (inside : j < n) : ∃ i < n, f i = j :=
  perm.surjOn inside

theorem id : Permutes n (fun i => i) := Set.bijOn_id _

/-- Among finitely many places an injection is a permutation. -/
theorem of_inj (below : ∀ i < n, f i < n)
    (distinct : ∀ i < n, ∀ j < n, f i = f j → i = j) : Permutes n f := by
  refine ⟨below, fun i left j right => distinct i left j right, ?_⟩
  have surjective := Finset.surjOn_of_injOn_of_card_le (s := Finset.range n) (t := Finset.range n) f
    (fun i mem => by simpa using below i (by simpa using mem))
    (fun i left j right => distinct i (by simpa using left) j (by simpa using right)) le_rfl
  simpa using surjective

theorem map_perm {α : Type} (perm : Permutes n f) (row : Nat → α) :
    ((range n).map (fun i => row (f i))).Perm ((range n).map row) := by
  have places : ((range n).map f).Perm (range n) := by
    apply (perm_ext_iff_of_nodup _ nodup_range).mpr
    · intro j
      simp only [mem_map, mem_range]
      constructor
      · rintro ⟨i, inside, rfl⟩
        exact perm.lt inside
      · exact perm.reach
    · apply List.Nodup.map_on _ nodup_range
      intro i left j right same
      exact perm.inj (mem_range.mp left) (mem_range.mp right) same
  simpa [map_map, comp_def] using places.map row

/-- The blocks are permuted, and the places within each block. -/
theorem blocks {blocks : Nat} {inner : Nat → Nat → Nat} (between : Permutes blocks outer)
    (within : ∀ block < blocks, Permutes size (inner block)) : Permutes (blocks * size)
      (fun i => outer (i / size) * size + inner (i / size) (i % size)) := by
  apply of_inj
  · intro i below
    exact block_lt ((within _ (div_lt_blocks below)).lt (mod_lt_size below))
      (between.lt (div_lt_blocks below))
  · intro i left j right same
    have first := (within _ (div_lt_blocks left)).lt (mod_lt_size left)
    have second := (within _ (div_lt_blocks right)).lt (mod_lt_size right)
    have block : i / size = j / size := by
      apply between.inj (div_lt_blocks left) (div_lt_blocks right)
      rw [← block_div (outer (i / size)) first, same, block_div _ second]
    have place : i % size = j % size := by
      rw [← block] at same second
      apply (within _ (div_lt_blocks left)).inj (mod_lt_size left) (mod_lt_size right)
      exact Nat.add_left_cancel same
    rw [← Nat.div_add_mod i size, ← Nat.div_add_mod j size, block, place]

end Permutes

/-- The inverse, written place by place. -/
def inverse (n : Nat) (perm : Nat → Nat) : Nat → Nat :=
  write (fun _ => 0) ((range n).map (fun i => (perm i, i)))

theorem inverse_apply (perm : Permutes n f) (inside : i < n) : inverse n f (f i) = i := by
  apply write_same
  · intro j written
    obtain ⟨k, mem, same⟩ := mem_map.mp written
    obtain ⟨image, rfl⟩ := Prod.mk.inj same
    exact perm.inj (mem_range.mp mem) inside image
  · rw [map_map]
    exact mem_map.mpr ⟨i, mem_range.mpr inside, rfl⟩

theorem apply_inverse (perm : Permutes n f) (inside : j < n) : f (inverse n f j) = j := by
  obtain ⟨i, below, rfl⟩ := perm.reach inside
  rw [inverse_apply perm below]

theorem Permutes.inverse (perm : Permutes n f) : Permutes n (inverse n f) := by
  apply of_inj
  · intro j inside
    obtain ⟨i, below, rfl⟩ := perm.reach inside
    rwa [inverse_apply perm below]
  · intro i left j right same
    rw [← apply_inverse perm left, same, apply_inverse perm right]

/-- The slots hold the replicas of the items, `number p` being the replica in slot `p`: every
replica below its item's count is in exactly one slot. -/
structure Enumerates (slots items : Nat) (item number count : Nat → Nat) : Prop where
  inside : ∀ p < slots, item p < items ∧ number p < count (item p)
  distinct : ∀ p < slots, ∀ q < slots, item p = item q → number p = number q → p = q
  reached : ∀ e < items, ∀ r < count e, ∃ p < slots, item p = e ∧ number p = r

namespace Enumerates
variable {slots items : Nat} {item number count : Nat → Nat}

theorem single (items : Nat) : Enumerates items items (fun p => p) (fun _ => 0) (fun _ => 1) where
  inside p below := ⟨below, one_pos⟩
  distinct p _ q _ same _ := same
  reached e below r first := ⟨e, below, rfl, by omega⟩

theorem extend (old : Enumerates slots items item number count) (below : e < items) :
    Enumerates (slots + 1) items (update item slots e)
      (update number slots (count e)) (update count e (count e + 1)) where
  inside p within := by
    rcases Nat.lt_succ_iff_lt_or_eq.mp within with prior | rfl
    · have known := old.inside p prior
      rw [update_of_ne (Nat.ne_of_lt prior), update_of_ne (Nat.ne_of_lt prior)]
      refine ⟨known.1, ?_⟩
      by_cases same : item p = e
      · rw [same, update_self]
        exact Nat.lt_succ_of_lt (same ▸ known.2)
      · rw [update_of_ne same]
        exact known.2
    · simp [below]
  distinct p first q second same order := by
    rcases Nat.lt_succ_iff_lt_or_eq.mp first with prior | rfl <;>
      rcases Nat.lt_succ_iff_lt_or_eq.mp second with earlier' | rfl
    · rw [update_of_ne (Nat.ne_of_lt prior), update_of_ne (Nat.ne_of_lt earlier')] at same order
      exact old.distinct p prior q earlier' same order
    · rw [update_of_ne (Nat.ne_of_lt prior), update_self] at same order
      have known := (old.inside p prior).2
      rw [same, order] at known
      exact absurd known (Nat.lt_irrefl _)
    · rw [update_of_ne (Nat.ne_of_lt earlier'), update_self] at same order
      have known := (old.inside q earlier').2
      rw [← same, ← order] at known
      exact absurd known (Nat.lt_irrefl _)
    · rfl
  reached e' within r known := by
    have prior (older : r < count e') : ∃ p < slots + 1, update item slots e p = e' ∧
        update number slots (count e) p = r := by
      obtain ⟨p, low, rfl, rfl⟩ := old.reached e' within r older
      exact ⟨p, Nat.lt_succ_of_lt low, update_of_ne (Nat.ne_of_lt low) ..,
        update_of_ne (Nat.ne_of_lt low) ..⟩
    by_cases same : e' = e
    · subst same
      rw [update_self] at known
      rcases Nat.lt_succ_iff_lt_or_eq.mp known with older | rfl
      · exact prior older
      · exact ⟨slots, Nat.lt_succ_self _, update_self .., update_self ..⟩
    · rw [update_of_ne same] at known
      exact prior known

theorem reorder (old : Enumerates slots items item number count) (perm : Permutes slots order) :
    Enumerates slots items (fun p => item (order p)) (fun p => number (order p)) count where
  inside p below := old.inside _ (perm.lt below)
  distinct p left q right same alike :=
    perm.inj left right (old.distinct _ (perm.lt left) _ (perm.lt right) same alike)
  reached e below r known := by
    obtain ⟨p, low, rfl, rfl⟩ := old.reached e below r known
    obtain ⟨q, low', rfl⟩ := perm.reach low
    exact ⟨q, low', rfl, rfl⟩

/-- Blocks of slots that each hold the items of their own block. -/
theorem stack {item number count : Nat → Nat → Nat}
    (each : ∀ block < blocks, Enumerates slots items (item block) (number block) (count block)) :
    Enumerates (blocks * slots) (blocks * items)
      (fun p => p / slots * items + item (p / slots) (p % slots))
      (fun p => number (p / slots) (p % slots)) (fun e => count (e / items) (e % items)) where
  inside p below := by
    have block := div_lt_blocks below
    have known := (each _ block).inside _ (mod_lt_size below)
    refine ⟨block_lt known.1 block, ?_⟩
    rw [block_div _ known.1, block_mod _ known.1]
    exact known.2
  distinct p left q right same alike := by
    have first := ((each _ (div_lt_blocks left)).inside _ (mod_lt_size left)).1
    have second := ((each _ (div_lt_blocks right)).inside _ (mod_lt_size right)).1
    have block : p / slots = q / slots := by
      rw [← block_div (p / slots) first, same, block_div _ second]
    rw [← block] at same alike
    have place := (each _ (div_lt_blocks left)).distinct _ (mod_lt_size left) _
      (mod_lt_size right) (Nat.add_left_cancel same) alike
    rw [← Nat.div_add_mod p slots, ← Nat.div_add_mod q slots, block, place]
  reached e below r known := by
    obtain ⟨p, low, same, rfl⟩ :=
      (each _ (div_lt_blocks below)).reached _ (mod_lt_size below) r known
    refine ⟨e / items * slots + p, block_lt low (div_lt_blocks below), ?_, ?_⟩
    · rw [block_div _ low, block_mod _ low, same, Nat.mul_comm]
      exact Nat.div_add_mod e items
    · rw [block_div _ low, block_mod _ low]

variable (old : Enumerates slots items item number count)
include old

theorem rename (perm : Permutes items name) :
    Enumerates slots items (fun p => inverse items name (item p)) number
      (fun e => count (name e)) where
  inside p below := by
    have known := old.inside p below
    refine ⟨perm.inverse.lt known.1, ?_⟩
    rw [apply_inverse perm known.1]
    exact known.2
  distinct p left q right same alike :=
    old.distinct p left q right
      (perm.inverse.inj (old.inside p left).1 (old.inside q right).1 same) alike
  reached e below r known := by
    obtain ⟨p, low, same, alike⟩ := old.reached (name e) (perm.lt below) r known
    exact ⟨p, low, by rw [same, inverse_apply perm below], alike⟩

/-- The slots of one item, in the order of its replicas. -/
theorem slots_of (below : e < items) : ∃ listed : List Nat, listed.length = count e ∧ listed.Nodup ∧
      (∀ p, p ∈ listed ↔ p < slots ∧ item p = e) ∧ ∀ r p, listed[r]? = some p → number p = r := by
  choose! at_ known using old.reached e below
  refine ⟨(range (count e)).map at_, by simp, ?_, ?_, ?_⟩
  · apply List.Nodup.map_on _ nodup_range
    intro r left r' right same
    rw [← (known r (mem_range.mp left)).2.2, same, (known r' (mem_range.mp right)).2.2]
  · intro p
    simp only [mem_map, mem_range]
    constructor
    · rintro ⟨r, order, rfl⟩
      exact ⟨(known r order).1, (known r order).2.1⟩
    · rintro ⟨low, rfl⟩
      have order := (old.inside p low).2
      exact ⟨number p, order, old.distinct _ (known _ order).1 p low (known _ order).2.1
        (known _ order).2.2⟩
  · intro r p found
    rw [getElem?_map, Option.map_eq_some_iff] at found
    obtain ⟨r', place, rfl⟩ := found
    obtain ⟨order, same⟩ := List.getElem?_eq_some_iff.mp place
    rw [getElem_range] at same
    subst same
    rw [length_range] at order
    exact (known _ order).2.2

theorem count_eq (below : e < items) :
    count e = ((Finset.range slots).filter (item · = e)).card := by
  obtain ⟨_, length, unique, mem, -⟩ := old.slots_of below
  rw [← length, ← toFinset_card_of_nodup unique]
  congr 1
  ext p
  rw [mem_toFinset, mem, Finset.mem_filter, Finset.mem_range]

theorem count_le_slots (some_replica : ∀ e < items, 0 < count e) (below : e < items) :
    count e + items ≤ slots + 1 := by
  -- the other items have a first replica each, in slots of their own
  have first (e' : Nat) (low : e' < items) := old.reached e' low 0 (some_replica e' low)
  choose! at_ known using first
  obtain ⟨listed, length, unique, mem, -⟩ := old.slots_of below
  have apart : Disjoint listed.toFinset (((Finset.range items).erase e).image at_) := by
    rw [Finset.disjoint_left]
    intro p mine other
    rw [Finset.mem_image] at other
    obtain ⟨e', ne, rfl⟩ := other
    rw [Finset.mem_erase, Finset.mem_range] at ne
    rw [mem_toFinset, mem] at mine
    exact ne.1 ((known e' ne.2).2.1.symm.trans mine.2)
  have within : listed.toFinset ∪ ((Finset.range items).erase e).image at_ ⊆
      Finset.range slots := by
    intro p either
    rw [Finset.mem_range]
    rcases Finset.mem_union.mp either with mine | other
    · exact ((mem p).mp (mem_toFinset.mp mine)).1
    · obtain ⟨e', ne, rfl⟩ := Finset.mem_image.mp other
      rw [Finset.mem_erase, Finset.mem_range] at ne
      exact (known e' ne.2).1
  have injective : Set.InjOn at_ ((Finset.range items).erase e) := by
    intro a left b right same
    simp only [Finset.coe_erase, Finset.coe_range, Set.mem_sdiff] at left right
    rw [← (known a left.1).2.1, same, (known b right.1).2.1]
  have total := Finset.card_le_card within
  rw [Finset.card_union_of_disjoint apart, Finset.card_image_of_injOn injective,
    Finset.card_erase_of_mem (Finset.mem_range.mpr below), Finset.card_range, Finset.card_range,
    toFinset_card_of_nodup unique] at total
  omega

end Enumerates
end Vllm.Replicas
