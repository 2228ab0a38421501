import Mathlib

/-! Insertion-ordered dictionaries with unique keys. Overwriting keeps the place
of a key, a new key goes last, and a weight summed over the values changes by
exactly the weights of the entry that is replaced or removed. -/
namespace Vllm
open List

structure Dict (α β : Type) where
  entries : List (α × β)
  nodup : (entries.map Prod.fst).Nodup

namespace Dict
variable {α β : Type} [DecidableEq α] {k : α} {l : List (α × β)} {v : β} {d : Dict α β}

def setIn (k : α) (v : β) : List (α × β) → List (α × β)
  | [] => [(k, v)]
  | (k', v') :: rest => if k' = k then (k, v) :: rest else (k', v') :: setIn k v rest

def getIn (k : α) : List (α × β) → Option β
  | [] => none
  | (k', v') :: rest => if k' = k then some v' else getIn k rest

theorem mem_keys_setIn : k' ∈ (setIn k v l).map Prod.fst ↔ k' = k ∨ k' ∈ l.map Prod.fst := by
  induction l with
  | nil => simp [setIn]
  | cons head rest ih =>
    obtain ⟨key, _⟩ := head
    by_cases same : key = k
    · simp only [setIn, same, if_true, map_cons, mem_cons]
      tauto
    · simp only [setIn, if_neg same, map_cons, mem_cons]
      tauto

theorem nodup_setIn (unique : (l.map Prod.fst).Nodup) : ((setIn k v l).map Prod.fst).Nodup := by
  induction l with
  | nil => simp [setIn]
  | cons head rest ih =>
    obtain ⟨key, _⟩ := head
    simp only [map_cons, nodup_cons] at unique
    by_cases same : key = k
    · subst same
      simpa only [setIn, if_true, map_cons, nodup_cons] using unique
    · simp only [setIn, if_neg same, map_cons, nodup_cons, mem_keys_setIn]
      exact ⟨fun h => h.elim same unique.1, ih unique.2⟩

def empty : Dict α β := ⟨[], nodup_nil⟩

section
variable (d : Dict α β) (k : α)

def get? : Option β := getIn k d.entries

def contains : Bool := (d.get? k).isSome

def set (v : β) : Dict α β := ⟨setIn k v d.entries, nodup_setIn d.nodup⟩

def erase : Dict α β :=
  ⟨d.entries.filter (fun entry => entry.1 ≠ k), d.nodup.sublist (filter_sublist.map Prod.fst)⟩

def keys : List α := d.entries.map Prod.fst

def values : List β := d.entries.map Prod.snd

def size : Nat := d.entries.length

def total (f : β → Nat) : Nat := (d.entries.map (fun entry => f entry.2)).sum

end

omit [DecidableEq α] in
theorem ext_entries {e : Dict α β} (same : d.entries = e.entries) : d = e := by
  cases d
  cases e
  cases same
  rfl

theorem getIn_setIn (k k' : α) (v : β) (l : List (α × β)) :
    getIn k' (setIn k v l) = if k' = k then some v else getIn k' l := by
  induction l with
  | nil =>
    by_cases same : k' = k
    · simp [setIn, getIn, same]
    · simp [setIn, getIn, same, Ne.symm same]
  | cons head rest ih =>
    obtain ⟨key, value⟩ := head
    by_cases here : key = k
    · subst here
      by_cases same : k' = key
      · simp [setIn, getIn, same]
      · simp [setIn, getIn, same, Ne.symm same]
    · simp only [setIn, if_neg here, getIn, ih]
      by_cases same : key = k'
      · subst same
        simp [here]
      · simp only [if_neg same]

@[simp] theorem get?_empty (k : α) : (empty : Dict α β).get? k = none := rfl

@[simp] theorem get?_set (d : Dict α β) (k k' : α) (v : β) :
    (d.set k v).get? k' = if k' = k then some v else d.get? k' :=
  getIn_setIn k k' v d.entries

/-- A dictionary of a list, and what a new last element puts into it. -/
theorem get?_set_concat {γ : Type} {list : List γ} {last : γ} {key : γ → α} {P : γ → β → Prop}
    (indexed : ∀ k v, d.get? k = some v ↔ ∃ x ∈ list, key x = k ∧ P x v)
    (fresh : ∀ x ∈ list, key x ≠ key last) (own : ∀ v, P last v ↔ n = v) (k : α) (v : β) :
    (∃ x ∈ list ++ [last], key x = k ∧ P x v) ↔ (d.set (key last) n).get? k = some v := by
  simp only [get?_set, mem_append, mem_singleton, or_and_right, exists_or, exists_eq_left]
  by_cases same : k = key last
  · subst same
    rw [if_pos rfl, Option.some.injEq, ← own]
    constructor
    · rintro (⟨x, mem, same, -⟩ | ⟨-, holds⟩)
      · exact absurd same (fresh x mem)
      · exact holds
    · exact fun holds => .inr ⟨rfl, holds⟩
  · rw [if_neg same, indexed]
    exact or_iff_left fun last => same last.1.symm

theorem getIn_filter (k k' : α) (l : List (α × β)) :
    getIn k' (l.filter (fun entry => entry.1 ≠ k)) = if k' = k then none else getIn k' l := by
  induction l with
  | nil => simp [getIn]
  | cons head rest ih =>
    obtain ⟨key, value⟩ := head
    by_cases here : key = k
    · subst here
      rw [filter_cons_of_neg (by simp), ih]
      by_cases same : k' = key
      · simp [same]
      · simp [getIn, same, Ne.symm same]
    · rw [filter_cons_of_pos (by simpa using here)]
      simp only [getIn, ih]
      by_cases same : key = k'
      · subst same
        simp [here]
      · simp only [if_neg same]

@[simp] theorem get?_erase (d : Dict α β) (k k' : α) :
    (d.erase k).get? k' = if k' = k then none else d.get? k' :=
  getIn_filter k k' d.entries

theorem get?_foldl_erase (keys : List α) (d : Dict α β) (k : α) :
    (keys.foldl erase d).get? k = if k ∈ keys then none else d.get? k := by
  induction keys generalizing d with
  | nil => simp
  | cons key keys ih =>
    rw [foldl_cons, ih]
    by_cases later : k ∈ keys <;> simp [later]

theorem getIn_eq_some (unique : (l.map Prod.fst).Nodup) : getIn k l = some v ↔ (k, v) ∈ l := by
  induction l with
  | nil => simp [getIn]
  | cons head rest ih =>
    obtain ⟨key, _⟩ := head
    simp only [map_cons, nodup_cons] at unique
    simp only [getIn, mem_cons]
    by_cases here : key = k
    · subst here
      have absent : ∀ w, (key, w) ∉ rest := fun w member => unique.1 (mem_map.mpr ⟨_, member, rfl⟩)
      simp [absent, eq_comm]
    · rw [if_neg here, ih unique.2]
      simp [Ne.symm here]

theorem get?_eq_some : d.get? k = some v ↔ (k, v) ∈ d.entries := getIn_eq_some d.nodup

theorem mem_values : v ∈ d.values ↔ ∃ k, d.get? k = some v := by
  simp only [values, mem_map, get?_eq_some]
  constructor
  · rintro ⟨⟨k, w⟩, member, rfl⟩
    exact ⟨k, member⟩
  · rintro ⟨k, member⟩
    exact ⟨(k, v), member, rfl⟩

theorem mem_keys : k ∈ d.keys ↔ ∃ v, d.get? k = some v := by
  simp only [keys, mem_map, get?_eq_some]
  constructor
  · rintro ⟨⟨_, v⟩, member, rfl⟩
    exact ⟨v, member⟩
  · rintro ⟨v, member⟩
    exact ⟨(k, v), member, rfl⟩

theorem contains_iff : d.contains k = true ↔ ∃ v, d.get? k = some v := Option.isSome_iff_exists

section
variable (d : Dict α β) (k k' : α) (v : β) (f : β → Nat)

theorem contains_set : (d.set k v).contains k' = (decide (k' = k) || d.contains k') := by
  simp only [contains]
  by_cases same : k' = k <;> simp [same]

/-- Replacing an entry trades the weight of the old value for that of the new. -/
theorem total_set : (d.set k v).total f + ((d.get? k).elim 0 f) = d.total f + f v := by
  simp only [total, set, get?]
  induction d.entries with
  | nil => simp [setIn, getIn]
  | cons head rest ih =>
    obtain ⟨key, value⟩ := head
    by_cases here : key = k
    · simp only [setIn, here, if_true, getIn, map_cons, sum_cons, Option.elim_some]
      omega
    · simp only [setIn, if_neg here, getIn, map_cons, sum_cons]
      omega

theorem total_erase : (d.erase k).total f + ((d.get? k).elim 0 f) = d.total f := by
  have sums (l : List (α × β)) (unique : (l.map Prod.fst).Nodup) :
      ((l.filter (fun entry => entry.1 ≠ k)).map (fun entry => f entry.2)).sum +
        ((getIn k l).elim 0 f) = (l.map (fun entry => f entry.2)).sum := by
    induction l with
    | nil => simp [getIn]
    | cons head rest ih =>
      obtain ⟨key, value⟩ := head
      simp only [map_cons, nodup_cons] at unique
      by_cases here : key = k
      · subst here
        have kept : rest.filter (fun entry => entry.1 ≠ key) = rest := by
          apply filter_eq_self.mpr
          intro entry member
          simpa using fun same : entry.1 = key => unique.1 (mem_map.mpr ⟨entry, member, same⟩)
        rw [filter_cons_of_neg (by simp), kept]
        simp only [getIn, if_true, Option.elim_some, map_cons, sum_cons]
        omega
      · rw [filter_cons_of_pos (by simpa using here)]
        simp only [getIn, if_neg here, map_cons, sum_cons]
        have := ih unique.2
        omega
  exact sums d.entries d.nodup

end

theorem le_total (found : d.get? k = some v) (f : β → Nat) : f v ≤ d.total f := by
  have split := total_erase d k f
  rw [found, Option.elim_some] at split
  omega

/-- The same keys in the same places, with values computed from the old ones. -/
def mapValues {γ : Type} (d : Dict α β) (f : β → γ) : Dict α γ :=
  ⟨d.entries.map (fun entry => (entry.1, f entry.2)), by
    rw [map_map]
    exact d.nodup⟩

section
variable (d : Dict α β) (f : β → γ) (k : α) (v : β)

theorem get?_mapValues : (d.mapValues f).get? k = (d.get? k).map f := by
  simp only [get?, mapValues]
  induction d.entries with
  | nil => rfl
  | cons head rest ih =>
    by_cases here : head.1 = k
    · simp [getIn, here]
    · simp [getIn, here, ih]

theorem mapValues_set : (d.set k v).mapValues f = (d.mapValues f).set k (f v) := by
  apply ext_entries
  simp only [mapValues, set]
  induction d.entries with
  | nil => rfl
  | cons head rest ih =>
    by_cases here : head.1 = k
    · simp [setIn, here]
    · simp [setIn, here, ih]

theorem mapValues_erase : (d.erase k).mapValues f = (d.mapValues f).erase k := by
  simp only [mapValues, erase, filter_map]
  rfl

/-- The same laws for the lookup as a function. -/
theorem get?_set_eq_update : (d.set k v).get? = Function.update d.get? k (some v) := by
  funext other
  rw [get?_set, Function.update_apply]

theorem get?_erase_eq_update : (d.erase k).get? = Function.update d.get? k none := by
  funext other
  rw [get?_erase, Function.update_apply]

end

theorem erase_of_absent (absent : d.contains k = false) : d.erase k = d := by
  apply ext_entries
  refine filter_eq_self.mpr ?_
  intro _ member
  apply decide_eq_true
  rintro rfl
  rw [contains, get?_eq_some.mpr member] at absent
  cases absent

omit [DecidableEq α] in
theorem size_eq_total (d : Dict α β) : d.size = d.total (fun _ => 1) := by
  simp [size, total]

theorem size_set (d : Dict α β) (k : α) (v : β) :
    (d.set k v).size = if (d.get? k).isSome then d.size else d.size + 1 := by
  have total := total_set d k v (fun _ => 1)
  rw [← size_eq_total, ← size_eq_total] at total
  cases found : d.get? k <;> simp only [found, Option.elim] at total <;> simp <;> omega

theorem size_erase (d : Dict α β) (found : d.get? k = some v) : (d.erase k).size + 1 = d.size := by
  have total := total_erase d k (fun _ => 1)
  rw [← size_eq_total, ← size_eq_total, found] at total
  exact total

theorem size_erase_lt (d : Dict α β) (found : d.get? k = some v) : (d.erase k).size < d.size := by
  have sizes := size_erase d found
  omega

end Dict
end Vllm
