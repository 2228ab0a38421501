import Mathlib

/-! Binary heaps in lists, with the exchanges that Python's `heapq` makes. The order
is any Boolean relation, and may change between two calls: whatever it is, an
operation only moves the items around. -/
namespace Vllm.Heap
open List
variable {α : Type}

def swap (heap : List α) (i j : Nat) : List α :=
  match heap[i]?, heap[j]? with
  | some a, some b => (heap.set i b).set j a
  | _, _ => heap

theorem swap_perm (heap : List α) (i j : Nat) : (swap heap i j).Perm heap := by
  unfold swap
  split
  · rename_i a b first second
    obtain ⟨boundI, rfl⟩ := List.getElem?_eq_some_iff.mp first
    obtain ⟨boundJ, rfl⟩ := List.getElem?_eq_some_iff.mp second
    exact set_set_perm boundI boundJ
  · exact .refl _

variable (lt : α → α → Bool)

/-- Move the item at `pos` up, as long as it is smaller than its parent and below
`startpos`. Parents have smaller places, so `pos` rounds are enough. -/
def siftdownLoop (startpos : Nat) : Nat → Nat → List α → List α
  | 0, _, heap => heap
  | rounds + 1, pos, heap =>
    if pos ≤ startpos then heap
    else
      match heap[pos]?, heap[(pos - 1) / 2]? with
      | some newitem, some parent =>
        if lt newitem parent then
          siftdownLoop startpos rounds ((pos - 1) / 2) (swap heap pos ((pos - 1) / 2))
        else heap
      | _, _ => heap

def siftdown (startpos pos : Nat) (heap : List α) : List α := siftdownLoop lt startpos pos pos heap

theorem siftdownLoop_perm (startpos rounds pos : Nat) (heap : List α) :
    (siftdownLoop lt startpos rounds pos heap).Perm heap := by
  induction rounds generalizing pos heap with
  | zero => exact .refl _
  | succ rounds ih =>
    unfold siftdownLoop
    split
    · exact .refl _
    · split
      · split
        · exact (ih _ _).trans (swap_perm _ _ _)
        · exact .refl _
      · exact .refl _

/-- The smaller child of `pos`, the right one if neither is smaller. -/
def smallerChild (heap : List α) (pos : Nat) : Nat :=
  match heap[2 * pos + 1]?, heap[2 * pos + 2]? with
  | some left, some right => if lt left right then 2 * pos + 1 else 2 * pos + 2
  | _, _ => 2 * pos + 1

/-- Bubble the smaller child up until a leaf is hit, then move the item up to its place. -/
def siftupLoop (startpos : Nat) : Nat → Nat → List α → List α
  | 0, pos, heap => siftdown lt startpos pos heap
  | rounds + 1, pos, heap =>
    if 2 * pos + 1 < heap.length then
      siftupLoop startpos rounds (smallerChild lt heap pos) (swap heap pos (smallerChild lt heap pos))
    else siftdown lt startpos pos heap

section
variable (startpos rounds pos : Nat) (heap : List α) (item : α)

def siftup : List α := siftupLoop lt pos heap.length pos heap

theorem siftupLoop_perm : (siftupLoop lt startpos rounds pos heap).Perm heap := by
  induction rounds generalizing pos heap with
  | zero => exact siftdownLoop_perm lt _ _ _ _
  | succ rounds ih =>
    unfold siftupLoop
    split
    · exact (ih _ _).trans (swap_perm _ _ _)
    · exact siftdownLoop_perm lt _ _ _ _

def heappush : List α := siftdown lt 0 heap.length (heap ++ [item])

theorem heappush_perm : (heappush lt heap item).Perm (item :: heap) :=
  (siftdownLoop_perm lt _ _ _ _).trans perm_append_comm

def heappop : Option (α × List α) :=
  match heap with
  | [] => none
  | root :: rest =>
    match rest.getLast? with
    | none => some (root, [])
    | some lastelt => some (root, siftup lt 0 (lastelt :: rest.dropLast))

end

theorem heappop_perm (h : heappop lt heap = some (item, rest)) : heap.Perm (item :: rest) := by
  unfold heappop at h
  split at h
  · cases h
  · rename_i root others
    split at h
    · rename_i none
      cases h
      rw [getLast?_eq_none_iff.mp none]
    · rename_i lastelt final
      cases h
      have moved : (lastelt :: others.dropLast).Perm others := by
        have whole := dropLast_append_getLast? lastelt final
        exact perm_append_comm.trans (.of_eq whole)
      exact ((siftupLoop_perm lt _ _ _ _).trans moved).symm.cons _

theorem heappop_head (h : heappop lt heap = some (item, rest)) : heap.head? = some item := by
  cases heap with
  | nil => cases h
  | cons root others =>
    simp only [heappop] at h
    split at h <;> cases h <;> rfl

def heapify (heap : List α) : List α := (range (heap.length / 2)).foldr (siftup lt) heap

theorem heapify_perm (heap : List α) : (heapify lt heap).Perm heap := by
  have sifts (places : List Nat) : (places.foldr (siftup lt) heap).Perm heap := by
    induction places with
    | nil => exact .refl _
    | cons pos places ih => exact (siftupLoop_perm lt _ _ _ _).trans ih
  exact sifts _

/-- The items in the order in which they are popped from a copy. -/
def drain : Nat → List α → List α
  | 0, _ => []
  | rounds + 1, heap =>
    match heappop lt heap with
    | none => []
    | some (item, rest) => item :: drain rounds rest

theorem drain_perm (rounds : Nat) (heap : List α) (enough : heap.length ≤ rounds) :
    (drain lt rounds heap).Perm heap := by
  induction rounds generalizing heap with
  | zero =>
    rw [length_eq_zero_iff.mp (Nat.le_zero.mp enough)]
    exact .refl _
  | succ rounds ih =>
    unfold drain
    cases popped : heappop lt heap with
    | none =>
      cases heap with
      | nil => exact .refl _
      | cons root others =>
        simp only [heappop] at popped
        split at popped <;> cases popped
    | some taken =>
      obtain ⟨item, rest⟩ := taken
      have moved := heappop_perm lt popped
      have bound : rest.length ≤ rounds := by
        have := moved.length_eq
        simp only [length_cons] at this
        omega
      exact ((ih rest bound).cons item).trans moved.symm

end Vllm.Heap
