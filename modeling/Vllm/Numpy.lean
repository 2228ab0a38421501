import Vllm.Python
import Vllm.Lib.Segments

/-! The array operations that the model shares. Arrays are lists of integers; operands of an
elementwise operation have equal lengths. -/
namespace Vllm.Np
open Segments List
variable {α : Type}

def add (a b : List Int) : List Int := zipWith (· + ·) a b

def sub (a b : List Int) : List Int := zipWith (· - ·) a b

theorem getElem?_add {k : Nat} (left : a[k]? = some x)
    (right : b[k]? = some y) : (add a b)[k]? = some (x + y) := by
  rw [add, getElem?_zipWith, left, right]

theorem getElem?_sub {k : Nat} (left : a[k]? = some x)
    (right : b[k]? = some y) : (sub a b)[k]? = some (x - y) := by
  rw [sub, getElem?_zipWith, left, right]

theorem length_add (same : a.length = b.length) : (add a b).length = b.length := by
  rw [add, length_zipWith, same, Nat.min_self]

theorem length_sub (same : a.length = b.length) : (sub a b).length = b.length := by
  rw [sub, length_zipWith, same, Nat.min_self]

def ofNats (values : List Nat) : List Int := values.map Int.ofNat

theorem getElem?_ofNats {k n : Nat} (found : values[k]? = some n) :
    (ofNats values)[k]? = some (n : Int) := by
  rw [ofNats, getElem?_map, found]
  rfl

@[simp] theorem length_ofNats (values : List Nat) : (ofNats values).length = values.length :=
  length_map _

/-- The running totals less the counts are where the segments start. -/
theorem getElem?_cumsum_sub {counts : List Nat} (found : counts[i]? = some n) :
    (sub (ofNats (cumsum counts)) (ofNats counts))[i]? = some (offset counts i : Int) := by
  obtain ⟨below, -⟩ := List.getElem?_eq_some_iff.mp found
  rw [getElem?_sub (getElem?_ofNats (getElem?_cumsum below)) (getElem?_ofNats found),
    offset_succ found]
  simp

theorem length_cumsum_sub (counts : List Nat) :
    (sub (ofNats (cumsum counts)) (ofNats counts)).length = counts.length := by
  rw [length_sub (by simp), length_ofNats]

/-- Every segment starts at a base that is the same for all of its rows. -/
theorem getElem?_batched {i j n : Nat} {base : Int}
    (widths : bases.length = counts.length) (found : counts[i]? = some n) (inside : j < n)
    (start : bases[i]? = some base) (counted : arange[offset counts i + j]? = some (j : Int)) :
    (add (repeatEach bases counts) arange)[offset counts i + j]? = some (base + j) := by
  refine getElem?_add ?_ counted
  rw [getElem?_repeatEach widths found inside, start]

theorem length_batched (widths : bases.length = counts.length)
    (length : arange.length = counts.sum) :
    (add (repeatEach bases counts) arange).length = counts.sum := by
  rw [length_add (by rw [length_repeatEach widths, length]), length]

/-- `array[i]`. -/
def item (array : List α) (i : Int) : Py α :=
  match Py.place array.length i with
  | none => .error (.indexError "index out of range")
  | some k => match array[k]? with
    | none => .error (.indexError "index out of range")
    | some value => .ok value

/-- `array[indices]`. -/
def gather (array : List α) (indices : List Int) : Py (List α) := indices.mapM (item array)

theorem item_ok (start : 0 ≤ i) (found : array[i.toNat]? = some value) :
    item array i = .ok value := by
  obtain ⟨inside, -⟩ := List.getElem?_eq_some_iff.mp found
  have placed : Py.place array.length i = some i.toNat := by
    rw [Py.place, if_pos start, if_pos inside]
  simp only [item, placed, found]

/-- Indices inside the array gather the values they name. -/
theorem gather_ok {array : List α} (inside : ∀ i ∈ indices, 0 ≤ i ∧ i.toNat < array.length) :
    ∃ values, gather array indices = .ok values ∧ values.length = indices.length ∧
      ∀ {k : Nat} {i : Int}, indices[k]? = some i → values[k]? = array[i.toNat]? := by
  induction indices with
  | nil => exact ⟨[], rfl, rfl, fun found => by cases found⟩
  | cons first rest ih =>
    obtain ⟨start, bound⟩ := inside first (mem_cons_self ..)
    obtain ⟨values, gathered, length, rows⟩ :=
      ih (fun i mem => inside i (mem_cons_of_mem _ mem))
    have found : array[first.toNat]? = some array[first.toNat] := getElem?_eq_getElem bound
    refine ⟨array[first.toNat] :: values, ?_, by simp [length], ?_⟩
    · rw [gather, mapM_cons, item_ok start found]
      rw [gather] at gathered
      rw [gathered]
      rfl
    · intro k i named
      cases k with
      | zero =>
        cases named
        exact found.symm
      | succ k => exact rows named

end Vllm.Np
