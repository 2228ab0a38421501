import Mathlib

/-! Nested loops as lists: rows of equal length one after another, and the one round of a
loop that yields an item. -/
namespace Vllm.Grid
open List
variable {α β : Type}

theorem getElem?_flatMap_uniform {rows : List α} {f : α → List β}
    (sized : ∀ row ∈ rows, (f row).length = width) (k : Nat) (inside : j < width) :
    (rows.flatMap f)[k * width + j]? = rows[k]?.bind (fun row => (f row)[j]?) := by
  induction rows generalizing k with
  | nil => simp
  | cons row rows ih =>
    have len := sized row (mem_cons_self ..)
    rw [flatMap_cons]
    cases k with
    | zero =>
      rw [getElem?_append_left (by omega)]
      simp
    | succ k =>
      have later : (k + 1) * width + j = width + (k * width + j) := by ring
      rw [getElem?_append_right (by omega), len, later, Nat.add_sub_cancel_left,
        ih (fun other mem => sized other (mem_cons_of_mem _ mem))]
      rfl

/-- Two loops with as many items in each round run side by side. -/
theorem zip_flatMap_map {ι γ δ : Type} {xs : List α} (f : ι → α → γ) (g : ι → β → δ)
    (same : xs.length = ys.length) (rounds : List ι) :
    (rounds.flatMap (fun i => xs.map (f i))).zip (rounds.flatMap (fun i => ys.map (g i))) =
      rounds.flatMap (fun i => (xs.zip ys).map (Prod.map (f i) (g i))) := by
  induction rounds with
  | nil => rfl
  | cons i rounds ih =>
    simp only [flatMap_cons]
    rw [zip_append (by simp [same]), zip_map, ih]

/-- Only one round yields items that pass the test. -/
theorem filter_flatMap_of_unique {rounds : List α} {p : β → Bool}
    (nodup : rounds.Nodup) (mem : a ∈ rounds)
    (elsewhere : ∀ b ∈ rounds, (∃ item ∈ f b, p item = true) → b = a) :
    (rounds.flatMap f).filter p = (f a).filter p := by
  have nothing : ∀ b ∈ rounds, b ≠ a → (f b).filter p = [] := by
    intro b listed differ
    rw [filter_eq_nil_iff]
    exact fun item yields passes => differ (elsewhere b listed ⟨item, yields, passes⟩)
  obtain ⟨before, after, rfl⟩ := append_of_mem mem
  obtain ⟨absent, absent'⟩ : a ∉ before ∧ a ∉ after := by
    have apart := nodup_middle.mp nodup
    simpa [mem_append] using (nodup_cons.mp apart).1
  have none (part : List α) (sub : part ⊆ before ++ a :: after) (out : a ∉ part) :
      (part.flatMap f).filter p = [] := by
    rw [filter_flatMap, flatMap_eq_nil_iff]
    intro b listed
    exact nothing b (sub listed) (fun same => out (same ▸ listed))
  rw [flatMap_append, flatMap_cons, filter_append, filter_append,
    none before (by simp) absent, none after (by simp) absent', nil_append, append_nil]

theorem digits_lt {m : Nat} (high : x < k) (low : y < m) : x * m + y < k * m :=
  calc x * m + y < (x + 1) * m := by rw [Nat.succ_mul]; omega
    _ ≤ k * m := Nat.mul_le_mul_right m high

/-- The digits of a number are determined by it. -/
theorem digits_inj {m : Nat} (low : y < m) (low' : y' < m) (same : x * m + y = x' * m + y') :
    x = x' ∧ y = y' := by
  have high : (x * m + y) / m = (x' * m + y') / m := by rw [same]
  rw [Nat.mul_comm x, Nat.mul_comm x', Nat.mul_add_div (by omega), Nat.mul_add_div (by omega),
    Nat.div_eq_of_lt low, Nat.div_eq_of_lt low'] at high
  obtain rfl : x = x' := by omega
  exact ⟨rfl, by omega⟩

end Vllm.Grid
