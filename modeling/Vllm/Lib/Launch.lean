import Mathlib

/-! Kernels: one program for each index of a grid, each of which stores to a memory that no
other program loads from. -/
namespace Vllm.Launch
variable {S α β : Type}

def store (memory : Nat → α) (base len : Nat) (values : Nat → α) (i : Nat) : α :=
  if base ≤ i ∧ i < base + len then values (i - base) else memory i

theorem store_inside (inside : j < len) : store memory base len values (base + j) = values j := by
  rw [store, if_pos (by omega), Nat.add_sub_cancel_left]

theorem store_outside (outside : i < base ∨ base + len ≤ i) :
    store memory base len values i = memory i :=
  if_neg (by omega)

def launch (program : Nat → S → S) : Nat → S → S
  | 0, memory => memory
  | n + 1, memory => program n (launch program n memory)

variable {n b : Nat}

theorem launch_same (see : S → β) (memory : S)
    (same : ∀ b < n, ∀ memory, see (program b memory) = see memory) :
    see (launch program n memory) = see memory := by
  induction n with
  | zero => rfl
  | succ n ih =>
    exact (same n (Nat.lt_succ_self n) _).trans (ih (fun b below => same b (Nat.lt_succ_of_lt below)))

theorem launch_own (see : S → β) (f : β → β) (memory : S) (inside : b < n)
    (own : ∀ memory, see (program b memory) = f (see memory))
    (others : ∀ other < n, other ≠ b → ∀ memory, see (program other memory) = see memory) :
    see (launch program n memory) = f (see memory) := by
  induction n with
  | zero => cases inside
  | succ n ih =>
    rcases Nat.lt_succ_iff_lt_or_eq.mp inside with before | rfl
    · exact (others n (Nat.lt_succ_self n) (Nat.ne_of_gt before) _).trans
        (ih before (fun other below => others other (Nat.lt_succ_of_lt below)))
    · rw [launch, own]
      exact congrArg f (launch_same see memory (fun other below =>
        others other (Nat.lt_succ_of_lt below) (Nat.ne_of_lt below)))

/-- Programs that store to segments which do not overlap. -/
theorem launch_store {start len : Nat → Nat} (see : S → Nat → α) (values : Nat → Nat → α) (memory : S)
    (stores : ∀ b memory, see (program b memory) = store (see memory) (start b) (len b) (values b))
    (inside : b < n) (within : j < len b) (apart : ∀ other < n, other ≠ b →
      start b + j < start other ∨ start other + len other ≤ start b + j) :
    see (launch program n memory) (start b + j) = values b j := by
  refine launch_own (fun memory => see memory (start b + j)) (fun _ => values b j) memory inside ?_ ?_
  · intro memory
    rw [stores]
    exact store_inside within
  · intro other below differ memory
    rw [stores]
    exact store_outside (apart other below differ)

/-- Each program changes the cell that an index names. -/
def scatter (index : Nat → Nat) (change : Nat → α → α) (n : Nat) (memory : Nat → α) : Nat → α :=
  launch (fun b memory => Function.update memory (index b) (change b (memory (index b)))) n memory

variable {memory : Nat → α}

theorem scatter_own (inside : b < n) (apart : ∀ other < n, other ≠ b → index other ≠ index b) :
    scatter index change n memory (index b) = change b (memory (index b)) :=
  launch_own (fun memory : Nat → α => memory (index b)) (change b) memory inside
    (fun _ => Function.update_self ..)
    (fun other below differ _ => Function.update_of_ne (apart other below differ).symm ..)

theorem scatter_absent (absent : ∀ b < n, index b ≠ cell) :
    scatter index change n memory cell = memory cell :=
  launch_same (fun memory : Nat → α => memory cell) memory
    (fun b below _ => Function.update_of_ne (absent b below).symm ..)

end Vllm.Launch
