import Mathlib

/-! Several parties lower a value in turn. A pass asks all of them once; the value
that comes out is the one that went in exactly if every party accepts it. -/
namespace Vllm.Descent
open List
variable {G α : Type}

def pass (accept : G → α → α) (parties : List G) (start : α) : α :=
  parties.foldl (fun value party => accept party value) start

variable {accept : G → α → α} {parties : List G} {start : α}

@[simp] theorem pass_cons (party : G) :
    pass accept (party :: parties) start = pass accept parties (accept party start) := rfl

variable [PartialOrder α] (lowers : ∀ party ∈ parties, ∀ value, accept party value ≤ value)
include lowers

theorem pass_le : pass accept parties start ≤ start := by
  induction parties generalizing start with
  | nil => exact le_refl start
  | cons party rest ih =>
    have first := lowers party (mem_cons_self ..) start
    exact le_trans (ih (fun other mem => lowers other (mem_cons_of_mem _ mem))) first

theorem pass_eq_iff :
    pass accept parties start = start ↔ ∀ party ∈ parties, accept party start = start := by
  induction parties generalizing start with
  | nil => exact ⟨fun _ _ mem => absurd mem not_mem_nil, fun _ => rfl⟩
  | cons party rest ih =>
    have later : ∀ other ∈ rest, ∀ value, accept other value ≤ value :=
      fun other mem => lowers other (mem_cons_of_mem _ mem)
    have first := lowers party (mem_cons_self ..) start
    constructor
    · intro same
      have accepted : accept party start = start := by
        refine le_antisymm first ?_
        exact le_of_eq_of_le same.symm (pass_le later)
      rw [pass_cons, accepted, ih later] at same
      intro other mem
      rcases mem_cons.mp mem with rfl | mem
      · exact accepted
      · exact same other mem
    · intro all
      have accepted := all party (mem_cons_self ..)
      rw [pass_cons, accepted, ih later]
      exact fun other mem => all other (mem_cons_of_mem _ mem)

end Vllm.Descent
