import Mathlib

/-! Chains of digests: every digest is linked to the one before it and to its own
item. For a collision-free link the digests determine the items, one digest
determines every item up to its place, and no digest occurs twice. -/
namespace Vllm.HashChain
open Option
variable {H X : Type} (link : H → X → H)

def chain : H → List X → List H
  | _, [] => []
  | parent, item :: rest => link parent item :: chain (link parent item) rest

section
variable (parent : H) (items : List X)

@[simp] theorem length_chain :
    (chain link parent items).length = items.length := by
  induction items generalizing parent with
  | nil => rfl
  | cons item rest ih => simp [chain, ih]

theorem chain_append (front back : List X)
    : chain link parent (front ++ back) = chain link parent front ++
      chain link ((chain link parent front).getLastD parent) back := by
  induction front generalizing parent with
  | nil => rfl
  | cons item rest ih =>
    simp only [List.cons_append, chain, ih, List.getLastD_cons]

theorem chain_get_zero : (chain link parent items)[0]? = items[0]?.map (link parent) := by
  cases items with
  | nil => rfl
  | cons item rest => rfl

theorem chain_get_succ (i : Nat) : (chain link parent items)[i + 1]? =
      (chain link parent items)[i]?.bind (fun h => items[i + 1]?.map (link h)) := by
  induction items generalizing parent i with
  | nil => rfl
  | cons item rest ih =>
    cases i with
    | zero => simp [chain, chain_get_zero]
    | succ i => simpa only [chain, List.getElem?_cons_succ] using ih (link parent item) i

end

/-- A digest is a function of the items up to its place. -/
theorem chain_get_congr {i : Nat} (same : ∀ j ≤ i, first[j]? = second[j]?) :
    (chain link parent first)[i]? = (chain link parent second)[i]? := by
  induction i with
  | zero => rw [chain_get_zero, chain_get_zero, same 0 (Nat.le_refl 0)]
  | succ i ih =>
    rw [chain_get_succ, chain_get_succ, ih (fun j bound => same j (by omega)),
      same (i + 1) (Nat.le_refl _)]

variable {link}

/-- The digest at the same place of two chains with one root fixes every item up
to that place. -/
theorem items_eq_of_get (injective : Function.Injective2 link)
    {i : Nat} (left : (chain link parent first)[i]? = some h)
    (right : (chain link parent second)[i]? = some h) : ∀ j ≤ i, first[j]? = second[j]? := by
  induction i generalizing h with
  | zero =>
    intro j bound
    obtain rfl : j = 0 := by omega
    rw [chain_get_zero, map_eq_some_iff] at left right
    obtain ⟨x, foundX, rfl⟩ := left
    obtain ⟨y, foundY, same⟩ := right
    rw [foundX, foundY, (injective same).2]
  | succ i ih =>
    intro j bound
    rw [chain_get_succ, bind_eq_some_iff] at left right
    obtain ⟨h₁, previous₁, left⟩ := left
    obtain ⟨h₂, previous₂, right⟩ := right
    obtain ⟨x, foundX, rfl⟩ := map_eq_some_iff.mp left
    obtain ⟨y, foundY, same⟩ := map_eq_some_iff.mp right
    obtain ⟨rfl, rfl⟩ := injective same
    rcases Nat.lt_or_eq_of_le bound with _ | rfl
    · exact ih previous₁ previous₂ j (by omega)
    · rw [foundX, foundY]

theorem chain_injective (injective : Function.Injective2 link)
    (same : chain link parent first = chain link parent second) : first = second := by
  induction first generalizing parent second with
  | nil =>
    cases second with
    | nil => rfl
    | cons item rest => cases same
  | cons item rest ih =>
    cases second with
    | nil => cases same
    | cons item' rest' =>
      simp only [chain, List.cons.injEq] at same
      obtain ⟨head, tail⟩ := same
      obtain ⟨_, rfl⟩ := injective head
      rw [ih tail]

end Vllm.HashChain
