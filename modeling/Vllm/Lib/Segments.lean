import Mathlib

/-! Rows laid out one segment after the other. Segment `i` starts at `offset lens i`, so the
row `j` of segment `i` has the index `offset lens i + j`, and every index below the total
belongs to one segment. -/
namespace Vllm.Segments
open List
variable {α : Type} {lens counts : List Nat}

def offset (lens : List Nat) (i : Nat) : Nat := (lens.take i).sum

@[simp] theorem offset_zero (lens : List Nat) : offset lens 0 = 0 := by simp [offset]

@[simp] theorem offset_cons_succ (n : Nat) (lens : List Nat) (i : Nat) :
    offset (n :: lens) (i + 1) = n + offset lens i := by
  simp [offset]

theorem offset_succ (found : lens[i]? = some n) : offset lens (i + 1) = offset lens i + n := by
  induction lens generalizing i with
  | nil => cases found
  | cons head rest ih =>
    cases i with
    | zero =>
      cases found
      simp
    | succ i =>
      rw [offset_cons_succ, offset_cons_succ, ih found, add_assoc]

theorem offset_length (lens : List Nat) : offset lens lens.length = lens.sum := by simp [offset]

theorem offset_succ_le_sum (found : lens[i]? = some n) : offset lens i + n ≤ lens.sum := by
  induction lens generalizing i with
  | nil => cases found
  | cons head rest ih =>
    cases i with
    | zero =>
      cases found
      simp
    | succ i =>
      have later := ih found
      rw [offset_cons_succ, sum_cons]
      omega

theorem offset_mono (le : i ≤ j) : offset lens i ≤ offset lens j := by
  induction lens generalizing i j with
  | nil => simp [offset]
  | cons n lens ih =>
    cases i with
    | zero => simp
    | succ i =>
      cases j with
      | zero => cases le
      | succ j =>
        have later := ih (Nat.le_of_succ_le_succ le)
        rw [offset_cons_succ, offset_cons_succ]
        omega

/-- An index inside one segment is outside the others. -/
theorem offset_apart (differ : i' ≠ i) (low : offset lens i ≤ k) (high : k < offset lens (i + 1)) :
    k < offset lens i' ∨ offset lens (i' + 1) ≤ k := by
  rcases Nat.lt_or_gt_of_ne differ with before | after
  · exact .inr (Nat.le_trans (offset_mono before) low)
  · exact .inl (Nat.lt_of_lt_of_le high (offset_mono after))

/-- An index below the total belongs to a segment. -/
theorem exists_segment (inside : k < lens.sum) :
    ∃ i n j, lens[i]? = some n ∧ j < n ∧ k = offset lens i + j := by
  induction lens generalizing k with
  | nil => cases inside
  | cons head rest ih =>
    rw [sum_cons] at inside
    by_cases here : k < head
    · exact ⟨0, head, k, rfl, here, by simp⟩
    · obtain ⟨i, n, j, found, within, _⟩ := ih (k := k - head) (by omega)
      exact ⟨i + 1, n, j, found, within, by rw [offset_cons_succ]; omega⟩

/-- Different segments have different rows. -/
theorem segment_unique (found : lens[i]? = some n) (found' : lens[i']? = some n') (inside : j < n)
    (inside' : j' < n') (same : offset lens i + j = offset lens i' + j') : i = i' ∧ j = j' := by
  induction lens generalizing i i' with
  | nil => cases found
  | cons head rest ih =>
    cases i with
    | zero =>
      cases i' with
      | zero => simpa using same
      | succ i' =>
        cases found
        rw [offset_zero, offset_cons_succ] at same
        omega
    | succ i =>
      cases i' with
      | zero =>
        cases found'
        rw [offset_zero, offset_cons_succ] at same
        omega
      | succ i' =>
        rw [offset_cons_succ, offset_cons_succ] at same
        have tail := ih found found' (by omega)
        omega

def cumsum : List Nat → List Nat
  | [] => []
  | n :: lens => n :: (cumsum lens).map (n + ·)

@[simp] theorem length_cumsum (lens : List Nat) : (cumsum lens).length = lens.length := by
  induction lens with
  | nil => rfl
  | cons n lens ih => simp [cumsum, ih]

theorem getElem?_cumsum (inside : i < lens.length) :
    (cumsum lens)[i]? = some (offset lens (i + 1)) := by
  induction lens generalizing i with
  | nil => cases inside
  | cons n lens ih =>
    cases i with
    | zero => simp [cumsum]
    | succ i =>
      simp only [cumsum, getElem?_cons_succ, getElem?_map,
        ih (Nat.lt_of_succ_lt_succ inside), Option.map_some, offset_cons_succ]

/-- Segments one after the other, and where each of their rows is found. -/
theorem getElem?_flatten {segs : List (List α)} {seg : List α} (found : segs[i]? = some seg)
    (inside : j < seg.length) : segs.flatten[offset (segs.map List.length) i + j]? = seg[j]? := by
  induction segs generalizing i with
  | nil => cases found
  | cons head rest ih =>
    cases i with
    | zero =>
      cases found
      rw [offset_zero, zero_add, flatten_cons, getElem?_append_left inside]
    | succ i =>
      rw [map_cons, offset_cons_succ, flatten_cons, getElem?_append_right (by omega), ← ih found]
      congr 1
      omega

/-- The rows of all segments, each given by its segment and its place there. -/
theorem getElem?_flatMap_zipIdx (row : Nat → Nat → α) (found : lens[i]? = some n) (inside : j < n) :
    (lens.zipIdx.flatMap (fun seg => (range seg.1).map (row seg.2)))[offset lens i + j]? =
      some (row i j) := by
  have widths : (lens.zipIdx.map (fun seg => (range seg.1).map (row seg.2))).map length =
      lens := by
    rw [map_map]
    conv_rhs => rw [← zipIdx_map_fst 0 lens]
    exact map_congr_left (fun seg _ => by simp)
  have here : (lens.zipIdx.map (fun seg => (range seg.1).map (row seg.2)))[i]? =
      some ((range n).map (row i)) := by
    rw [getElem?_map, getElem?_zipIdx, found]
    simp
  have flattened := getElem?_flatten (j := j) here (by simpa using inside)
  rw [widths] at flattened
  rw [flatMap_def, flattened, getElem?_map, getElem?_range inside]
  rfl

def repeatEach (values : List α) (counts : List Nat) : List α :=
  (zipWith replicate counts values).flatten

theorem map_length_replicates (same : values.length = counts.length) :
    (zipWith replicate counts values).map List.length = counts := by
  induction counts generalizing values with
  | nil => rfl
  | cons n counts ih =>
    cases values with
    | nil => cases same
    | cons v values => simp [ih (Nat.succ.inj same)]

theorem length_repeatEach (same : values.length = counts.length) :
    (repeatEach values counts).length = counts.sum := by
  rw [repeatEach, length_flatten, map_length_replicates same]

theorem getElem?_repeatEach {i j n : Nat} (same : values.length = counts.length)
    (found : counts[i]? = some n) (inside : j < n) :
    (repeatEach values counts)[offset counts i + j]? = values[i]? := by
  obtain ⟨atCounts, -⟩ := List.getElem?_eq_some_iff.mp found
  have atValues : i < values.length := same ▸ atCounts
  have seg : (zipWith replicate counts values)[i]? =
      some (replicate n values[i]) := by
    rw [getElem?_zipWith, found, getElem?_eq_getElem atValues]
  have row := getElem?_flatten (j := j) seg (by simpa using inside)
  rw [map_length_replicates same] at row
  rw [repeatEach, row, getElem?_replicate, if_pos inside, getElem?_eq_getElem atValues]

end Vllm.Segments
