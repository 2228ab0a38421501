import Mathlib

/-! Numbered places that hold values, and a second table that follows what happens to them. The
table replays the changes of a round in another order than they were made in; it still agrees
with the places in the end, if the places that it gets wrong meanwhile are written last. -/
namespace Vllm.Relocate
open Function
variable {α β : Type}

section
variable (Fits : Option α → β → Prop) (stale : Nat → Prop) (empty : β) (table : Nat → β)

def moveOne (src dst : Nat) : Nat → β :=
  update (update table dst (table src)) src empty

def exchange (i j : Nat) : Nat → β :=
  update (update table i (table j)) j (table i)

def clear (indices : List Nat) (i : Nat) : β :=
  if i ∈ indices then empty else table i

theorem exchange_apply (i j k : Nat) :
    exchange table i j k = if k = i then table j else if k = j then table i else table k := by
  by_cases last : k = j
  · subst last
    by_cases first : k = i
    · subst first
      simp [exchange]
    · simp [exchange, first]
  · by_cases first : k = i
    · subst first
      simp [exchange, update_of_ne last]
    · simp [exchange, first, last]

def Agree (places : Nat → Option α) : Prop :=
  ∀ i, ¬ stale i → Fits (places i) (table i)

end

namespace Agree
variable {Fits : Option α → β → Prop} {table : Nat → β} {places : Nat → Option α}
  (agree : Agree Fits stale table places)
include agree

/-- A place that is vacated becomes stale. -/
theorem vacate (k : Nat) : Agree Fits (fun i => stale i ∨ i = k) table (update places k none) := by
  intro i fresh
  rw [not_or] at fresh
  rw [update_of_ne fresh.2]
  exact agree i fresh.1

theorem put (k : Nat) (fits : Fits (some a) value) :
    Agree Fits (fun i => stale i ∧ i ≠ k) (update table k value) (update places k (some a)) := by
  intro i fresh
  by_cases same : i = k
  · rw [same, update_self, update_self]
    exact fits
  · rw [update_of_ne same, update_of_ne same]
    exact agree i (fun old => fresh ⟨old, same⟩)

theorem clear (fits : Fits none empty)
    (vacant : ∀ i ∈ indices, places i = none) :
    Agree Fits (fun i => stale i ∧ i ∉ indices) (clear empty table indices) places := by
  intro i fresh
  by_cases mem : i ∈ indices
  · rw [Relocate.clear, if_pos mem, vacant i mem]
    exact fits
  · rw [Relocate.clear, if_neg mem]
    exact agree i (fun old => fresh ⟨old, mem⟩)

theorem moveOne (fits : Fits none empty)
    (known : ¬ stale src) : Agree Fits (fun i => stale i ∧ i ≠ dst) (moveOne empty table src dst)
      (moveOne none places src dst) := by
  intro i fresh
  by_cases source : i = src
  · simp only [Relocate.moveOne, source, update_self]
    exact fits
  · simp only [Relocate.moveOne, update_of_ne source]
    by_cases target : i = dst
    · rw [target, update_self, update_self]
      exact agree src known
    · rw [update_of_ne target, update_of_ne target]
      exact agree i (fun old => fresh ⟨old, target⟩)

theorem exchange (first : ¬ stale i) (second : ¬ stale j) :
    Agree Fits stale (exchange table i j) (exchange places i j) := by
  intro k fresh
  rw [exchange_apply, exchange_apply]
  split
  · exact agree j second
  · split
    · exact agree i first
    · exact agree k fresh

theorem weaken (wider : ∀ i, stale i → stale' i) : Agree Fits stale' table places :=
  fun i fresh => agree i (fun old => fresh (wider i old))

end Agree

section
variable {κ : Type} [DecidableEq κ]

/-- Where a key is, and what is at a place. -/
def Inverse (find : κ → Option Nat) (places : Nat → Option κ) : Prop :=
  ∀ key i, find key = some i ↔ places i = some key

namespace Inverse
variable {find : κ → Option Nat} {places : Nat → Option κ} {key : κ} (inverse : Inverse find places)
include inverse

theorem vacate (here : places k = some key) :
    Inverse (fun other => if other = key then none else find other) (update places k none) := by
  intro other i
  have place := (inverse key k).mpr here
  have now := inverse other i
  grind

theorem put (vacant : places k = none) (fresh : find key = none) :
    Inverse (fun other => if other = key then some k else find other)
      (update places k (some key)) := by
  intro other i
  have now := inverse other i
  grind

theorem moveOne (here : places src = some key) (vacant : places dst = none) :
    Inverse (fun other => if other = key then some dst else find other)
      (moveOne none places src dst) := by
  intro other i
  have place := (inverse key src).mpr here
  rw [Relocate.moveOne]
  have now := inverse other i
  grind

theorem exchange {first : κ} (here : places i = some first) (there : places j = some second) :
    Inverse (fun other => if other = second then some i else if other = first then some j
      else find other) (exchange places i j) := by
  intro other k
  have one := (inverse first i).mpr here
  have two := (inverse second j).mpr there
  have now := inverse other k
  rw [exchange_apply]
  grind

end Inverse
end

variable {κ R : Type}

def Owned (Vacant : β → Prop) (Holds : R → β → Prop) (find : κ → Option R)
    (places : Nat → Option κ) (table : Nat → β) : Prop :=
  ∀ i, (places i = none → Vacant (table i)) ∧
    ∀ key row, places i = some key → find key = some row → Holds row (table i)

namespace Owned
variable {find : κ → Option R} {places : Nat → Option κ} {key : κ}
  {Vacant : β → Prop} {Holds : R → β → Prop} {table : Nat → β}
  (owned : Owned Vacant Holds find places table)
include owned

theorem vacate [DecidableEq κ] 
    (others : ∀ i ≠ k, table' i = table i) (vacant : Vacant (table' k)) :
    Owned Vacant Holds (update find key none) (update places k none) table' := by
  intro i
  by_cases here : i = k
  · rw [here, update_self]
    exact ⟨fun _ => vacant, fun _ _ absurd => by cases absurd⟩
  · rw [update_of_ne here, others i here]
    refine ⟨(owned i).1, ?_⟩
    intro other row place found
    rw [update_apply] at found
    split at found
    · cases found
    · exact (owned i).2 other row place found

theorem put [DecidableEq κ] 
    (absent : ∀ i ≠ k, places i ≠ some key) (others : ∀ i ≠ k, table' i = table i)
    (holds : Holds row (table' k)) :
    Owned Vacant Holds (update find key (some row)) (update places k (some key)) table' := by
  intro i
  by_cases here : i = k
  · rw [here, update_self]
    refine ⟨fun nobody => by (cases nobody), ?_⟩
    intro other found same loc
    cases same
    rw [update_self] at loc
    cases loc
    exact holds
  · rw [update_of_ne here, others i here]
    refine ⟨(owned i).1, ?_⟩
    intro other found place loc
    have ne : other ≠ key := by
      rintro rfl
      exact absent i here place
    rw [update_of_ne ne] at loc
    exact (owned i).2 other found place loc

theorem rewrite [DecidableEq κ] 
    (here : places k = some key) (only : ∀ i, places i = some key → i = k)
    (others : ∀ i ≠ k, table' i = table i) (holds : Holds row (table' k)) :
    Owned Vacant Holds (update find key (some row)) places table' := by
  have same : update places k (some key) = places := by
    rw [← here, update_eq_self]
  have written := owned.put (fun i other place => other (only i place)) others holds
  rwa [same] at written

theorem moveOne (here : places src = some key)
    (others : ∀ i, i ≠ src → i ≠ dst → table' i = table i)
    (carried : ∀ row, find key = some row → Holds row (table src) → Holds row (table' dst))
    (vacant : Vacant (table' src)) :
    Owned Vacant Holds find (moveOne none places src dst) table' := by
  intro i
  rw [Relocate.moveOne]
  by_cases source : i = src
  · rw [source, update_self]
    exact ⟨fun _ => vacant, fun _ _ absurd => by cases absurd⟩
  · rw [update_of_ne source]
    by_cases target : i = dst
    · rw [target, update_self, here]
      refine ⟨fun nobody => by (cases nobody), ?_⟩
      intro other row same found
      cases same
      exact carried row found ((owned src).2 key row here found)
    · rw [update_of_ne target, others i source target]
      exact owned i

theorem exchange 
    (same : ∀ k, table' k = exchange table i j k) :
    Owned Vacant Holds find (exchange places i j) table' := by
  intro k
  rw [same k, exchange_apply, exchange_apply]
  split
  · exact owned j
  · split
    · exact owned i
    · exact owned k

/-- Only places without an occupant are written. -/
theorem elsewhere 
    (occupied : ∀ i, places i ≠ none → table' i = table i)
    (vacant : ∀ i, places i = none → Vacant (table' i)) :
    Owned Vacant Holds find places table' := by
  intro i
  refine ⟨vacant i, ?_⟩
  intro key row here found
  rw [occupied i (by simp [here])]
  exact (owned i).2 key row here found

end Owned
end Vllm.Relocate
