import Mathlib

/-! Numbered rows that are written one after another, with values that are known before or
with the values of other rows. -/
namespace Vllm.Rows
open List Function
variable {ι α : Type} [DecidableEq ι]

def write (rows : ι → α) (writes : List (ι × α)) : ι → α :=
  writes.foldl (fun rows entry => update rows entry.1 entry.2) rows

theorem write_other {writes : List (ι × α)}
    (absent : i ∉ writes.map Prod.fst) : write rows writes i = rows i := by
  induction writes generalizing rows with
  | nil => rfl
  | cons entry writes ih =>
    simp only [map_cons, mem_cons, not_or] at absent
    simp only [write, foldl_cons] at ih ⊢
    rw [ih absent.2, update_of_ne absent.1]

/-- A row that is written holds the written value if all writes to it agree. -/
theorem write_same {i : ι} {x : α}
    (agree : ∀ y, (i, y) ∈ writes → y = x) (mem : i ∈ writes.map Prod.fst) :
    write rows writes i = x := by
  induction writes generalizing rows with
  | nil => cases mem
  | cons entry writes ih =>
    obtain ⟨j, y⟩ := entry
    by_cases later : i ∈ writes.map Prod.fst
    · exact ih (fun y listed => agree y (mem_cons_of_mem _ listed)) later
    · obtain rfl : i = j := by
        rcases mem_cons.mp mem with same | listed
        · exact same
        · exact absurd listed later
      calc write rows ((i, y) :: writes) i = write (update rows i y) writes i := rfl
        _ = update rows i y i := write_other later
        _ = y := update_self ..
        _ = x := agree y (mem_cons_self ..)

def copyWithin (rows : ι → α) (copies : List (ι × ι)) : ι → α :=
  copies.foldl (fun rows entry => update rows entry.1 (rows entry.2)) rows

/-- If no source is a target the copies see the rows as they were. -/
theorem copyWithin_eq_write {rows : ι → α} {copies : List (ι × ι)}
    (apart : ∀ entry ∈ copies, entry.2 ∉ copies.map Prod.fst) :
    copyWithin rows copies = write rows (copies.map (fun entry => (entry.1, rows entry.2))) := by
  have loop (rest : List (ι × ι)) (current : ι → α)
      (later : ∀ entry ∈ rest, entry.2 ∉ copies.map Prod.fst ∧ entry.1 ∈ copies.map Prod.fst)
      (kept : ∀ i, i ∉ copies.map Prod.fst → current i = rows i) :
      copyWithin current rest =
        write current (rest.map (fun entry => (entry.1, rows entry.2))) := by
    induction rest generalizing current with
    | nil => rfl
    | cons entry rest ih =>
      have here := later entry (mem_cons_self ..)
      simp only [copyWithin, foldl_cons] at ih ⊢
      rw [kept entry.2 here.1]
      apply ih _ (fun entry listed => later entry (mem_cons_of_mem _ listed))
      intro i outside
      have differ : i ≠ entry.1 := by
        rintro rfl
        exact outside here.2
      rw [update_of_ne differ, kept i outside]
  exact loop copies rows (fun entry listed => ⟨apart entry listed, mem_map_of_mem listed⟩)
    (fun i outside => rfl)

end Vllm.Rows
