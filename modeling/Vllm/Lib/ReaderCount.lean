import Mathlib

/-! One object that a writer shares with `n` readers. The writer counts how often it
names the object, and all readers together count their uses in one number. Readers
touch an object as often as they get it, touches first, and a touch is counted only
once the number has reached `n`. The object may be freed when the number reaches `n`
times the count of the writer. -/
namespace Vllm.ReaderCount
open List hiding next
open Function Finset

inductive Use where
  | touch
  | get
  deriving DecidableEq

/-- Every rest of the uses has at least as many gets as touches. -/
def Paired : List Use → Prop
  | [] => True
  | use :: rest => (use :: rest).count .touch ≤ (use :: rest).count .get ∧ Paired rest

def batch (number : Nat) : List Use := replicate number .touch ++ replicate number .get

section Uses
variable {uses : List Use}

theorem Paired.le (paired : Paired uses) : uses.count .touch ≤ uses.count .get := by
  cases uses with
  | nil => exact le_refl _
  | cons use rest => exact paired.1

theorem Paired.append (first : Paired uses) (second : Paired more) : Paired (uses ++ more) := by
  induction uses with
  | nil => exact second
  | cons use rest ih =>
    refine ⟨?_, ih first.2⟩
    show (use :: rest ++ more).count .touch ≤ (use :: rest ++ more).count .get
    rw [count_append, count_append]
    exact add_le_add first.1 second.le

variable (uses : List Use) (number : Nat)

theorem paired_batch : Paired (batch number) := by
  have gets : ∀ k, Paired (replicate k .get) := by
    intro k
    induction k with
    | zero => trivial
    | succ k ih => exact ⟨by simp [count_replicate], ih⟩
  have touches : ∀ k ≤ number, Paired (replicate k .touch ++ replicate number .get) := by
    intro k
    induction k with
    | zero => exact fun _ => gets number
    | succ k ih =>
      intro _
      refine ⟨?_, ih (by omega)⟩
      simp [count_replicate]
      omega
  exact touches number (le_refl _)

theorem length_eq : uses.length = uses.count .touch + uses.count .get := by
  induction uses with
  | nil => rfl
  | cons use rest ih =>
    cases use <;> simp <;> omega

theorem batch_length : (batch number).length = 2 * number := by
  simp [batch]
  omega

theorem batch_gets : (batch number).count .get = number := by
  simp [batch, count_replicate]

def fromGet : List Use := uses.dropWhile (· = .touch)

theorem fromGet_append_le (more : List Use) :
    (fromGet (uses ++ more)).length ≤ (fromGet uses).length + more.length := by
  induction uses with
  | nil => simpa [fromGet] using (dropWhile_sublist (p := (· = Use.touch))).length_le
  | cons use rest ih =>
    cases use with
    | touch => simpa [fromGet] using ih
    | get =>
      have whole (others : List Use) : fromGet (.get :: others) = .get :: others := by
        simp [fromGet]
      grind

theorem fromGet_batch : (fromGet (batch number)).length = number := by
  have gets : ∀ k, fromGet (replicate k Use.touch ++ replicate number .get) =
      replicate number .get := by
    intro k
    induction k with
    | zero => cases number <;> simp [fromGet, replicate_succ]
    | succ k ih =>
      simp [fromGet]
  rw [batch, gets, length_replicate]

end Uses

/-- What is known of the object: the count of the writer, the number of the readers, what
each reader still has to do, and what the writer has done for the request it is at:
touches, whether or not the object was stored then, and the number of times it has
named the object. -/
@[ext] structure Account (n : Nat) where
  written : Nat
  read : Nat
  uses : Fin n → List Use
  touched : Nat
  sent : Nat

namespace Account
variable {n : Nat} {account : Account n}

section
variable (account : Account n)

def pending : Nat := ∑ r, (account.uses r).length

def gets : Nat := ∑ r, (account.uses r).count .get

/-- Enough is still to be read before the first `n` reads are counted. With one reader,
all touches of a request are over before its first get. -/
def Early : Prop :=
  (n = 1 ∧ ((account.pending = 0 ∧ account.sent ≤ account.written) ∨
    (∑ r, (fromGet (account.uses r)).length) + account.touched + account.sent ≤ account.written)) ∨
  2 * (account.read + account.gets + n * account.sent) + n * account.touched ≤
    n * account.written + n + n * account.sent

/-- What keeps the number below the bound while a reader has something to do. -/
structure Covered : Prop where
  named : 1 ≤ account.written
  paired : ∀ r, Paired (account.uses r)
  early : account.read < n → account.Early
  late : n ≤ account.read →
    account.read + account.pending + n * (account.touched + account.sent) ≤ n * account.written

end

/-- An object that may be freed is not waited for, and not part of the current request. -/
theorem Covered.free (covered : account.Covered) (pos : 0 < n)
    (bound : n * account.written ≤ account.read) :
    (∀ r, account.uses r = []) ∧ account.touched = 0 ∧ account.sent = 0 := by
  have enough : n ≤ account.read := by
    have := Nat.mul_le_mul_left n covered.named
    omega
  have late := covered.late enough
  have none : account.pending = 0 := by omega
  have product : n * (account.touched + account.sent) = 0 := by omega
  have zero : account.touched + account.sent = 0 := by
    rcases Nat.mul_eq_zero.mp product with _ | zero
    · omega
    · exact zero
  refine ⟨?_, by omega, by omega⟩
  intro r
  have := (Finset.sum_eq_zero_iff.mp none) r (mem_univ r)
  exact length_eq_zero_iff.mp this

/-- An object that was just stored and named once. Several readers need that the request does not
name it again. -/
theorem Covered.new (pos : 0 < n) (idle : ∀ r, account.uses r = []) (unread : account.read = 0)
    (written : account.written = 1) (sent : account.sent = 1)
    (once : n = 1 ∨ account.touched = 1) : account.Covered := by
  refine ⟨written.ge, fun r => ?_, fun _ => ?_, fun large => by omega⟩
  · rw [idle r]
    trivial
  · rcases once with one | touched
    · exact .inl ⟨one, .inl ⟨by simp [pending, idle], by rw [sent, written]⟩⟩
    · refine .inr ?_
      simp [gets, idle, unread, written, sent, touched]
      omega

section
variable (covered : account.Covered)
include covered

/-- The writer counts at least what it does for its request. -/
theorem Covered.change {written touched sent : Nat} (counted : account.written ≤ written)
    (naming : sent + account.written ≤ account.sent + written)
    (doing : touched + sent + account.written ≤ account.touched + account.sent + written) :
    Covered { account with written, touched, sent } := by
  have scaled := Nat.mul_le_mul_left n doing
  refine ⟨covered.named.trans counted, covered.paired, ?_, ?_⟩
  · intro small
    rcases covered.early small with ⟨one, first | _⟩ | many
    · exact .inl ⟨one, .inl ⟨first.1, by dsimp only; omega⟩⟩
    · exact .inl ⟨one, .inr (by dsimp only; omega)⟩
    · refine .inr ?_
      simp only [gets, Nat.mul_add] at many scaled ⊢
      omega
  · intro large
    have late := covered.late large
    simp only [pending, Nat.mul_add] at late scaled ⊢
    omega

theorem Covered.touch :
    Covered { account with written := account.written + 1, touched := account.touched + 1 } :=
  covered.change (by omega) (by omega) (by omega)

theorem Covered.name :
    Covered { account with written := account.written + 1, sent := account.sent + 1 } :=
  covered.change (by omega) (by omega) (by omega)

theorem Covered.drop : Covered { account with touched := 0, sent := 0 } :=
  covered.change le_rfl (by omega) (by omega)

theorem Covered.deliver (same : account.touched = account.sent) : Covered { account with
      uses := fun r => account.uses r ++ batch account.sent, touched := 0, sent := 0 } := by
  have lengths : ∑ r, (account.uses r ++ batch account.sent).length =
      account.pending + n * (2 * account.sent) := by
    simp only [length_append, batch_length, sum_add_distrib, sum_const,
      card_univ, Fintype.card_fin, smul_eq_mul, pending]
  have allGets : ∑ r, (account.uses r ++ batch account.sent).count .get =
      account.gets + n * account.sent := by
    simp only [count_append, batch_gets, sum_add_distrib, sum_const,
      card_univ, Fintype.card_fin, smul_eq_mul, gets]
  refine ⟨covered.named, fun r => (covered.paired r).append (paired_batch _), ?_, ?_⟩
  · intro small
    rcases covered.early small with ⟨rfl, first | later⟩ | many
    · -- The only reader has nothing to do before this request.
      refine .inl ⟨rfl, .inr ?_⟩
      have nothing : account.uses 0 = [] := by
        have := Finset.sum_eq_zero_iff.mp first.1 0 (mem_univ 0)
        exact length_eq_zero_iff.mp this
      simpa [nothing, fromGet_batch] using first.2
    · refine .inl ⟨rfl, .inr ?_⟩
      have longer := fromGet_append_le (account.uses 0) (batch account.sent)
      rw [batch_length] at longer
      simp only [univ_unique, Fin.default_eq_zero, Finset.sum_singleton] at later ⊢
      omega
    · refine .inr ?_
      simp only [gets, same] at many allGets ⊢
      omega
  · intro large
    have late := covered.late large
    simp only [pending, lengths]
    simp only [mul_add, same] at late ⊢
    have double : n * (2 * account.sent) = n * account.sent + n * account.sent := by
      rw [← mul_add, Nat.two_mul]
    unfold pending at late
    omega

end

/-- A sum over all readers when only one of them changes. -/
theorem sum_update {f : List Use → Nat} (uses : Fin n → List Use) (r : Fin n) (next : List Use) :
    ∑ x, f (update uses r next x) + f (uses r) = ∑ x, f (uses x) + f next := by
  rw [← add_sum_erase _ _ (mem_univ r),
    ← add_sum_erase _ (fun x => f (uses x)) (mem_univ r), update_self]
  have others : ∑ x ∈ univ.erase r, f (update uses r next x) =
      ∑ x ∈ univ.erase r, f (uses x) := by
    apply sum_congr rfl
    intro x mem
    rw [update_of_ne (ne_of_mem_erase mem)]
  omega

theorem paired_update {uses : Fin n → List Use}
    (paired : ∀ r, Paired (uses r)) (head : uses r = use :: rest) (x : Fin n) :
    Paired (update uses r rest x) := by
  by_cases same : x = r
  · subst same
    rw [update_self]
    have := paired x
    rw [head] at this
    exact this.2
  · rw [update_of_ne same]
    exact paired x

theorem Covered.readerTouch (covered : account.Covered) (head : account.uses r = .touch :: rest) :
    Covered { account with
      uses := update account.uses r rest
      read := if n ≤ account.read then account.read + 1 else account.read } := by
  have lengths := sum_update (f := length) account.uses r rest
  have allGets := sum_update (f := count .get) account.uses r rest
  have fromGets := sum_update (f := fun uses => (fromGet uses).length) account.uses r rest
  rw [head] at lengths allGets fromGets
  have sameFrom : fromGet (.touch :: rest) = fromGet rest := by simp [fromGet]
  simp only [length_cons, count_cons, beq_iff_eq, sameFrom]
    at lengths allGets fromGets
  refine ⟨covered.named, paired_update covered.paired head, ?_, ?_⟩
  · intro small
    dsimp only at small
    have low : account.read < n := by split at small <;> omega
    rw [if_neg (Nat.not_le.mpr low)]
    rcases covered.early low with ⟨one, first | _⟩ | many
    · unfold pending at first
      omega
    · refine .inl ⟨one, .inr ?_⟩
      dsimp only
      omega
    · refine .inr ?_
      simp only [gets] at many ⊢
      omega
  · intro large
    have high : n ≤ account.read := by
      split at large
      · assumption
      · exact large
    have late := covered.late high
    simp only [if_pos high, pending] at late ⊢
    omega

theorem Covered.readerGet (covered : account.Covered) (head : account.uses r = .get :: rest) :
    Covered { account with uses := update account.uses r rest, read := account.read + 1 } := by
  have lengths := sum_update (f := length) account.uses r rest
  have allGets := sum_update (f := count .get) account.uses r rest
  have fromGets := sum_update (f := fun uses => (fromGet uses).length) account.uses r rest
  rw [head] at lengths allGets fromGets
  have whole : fromGet (.get :: rest) = .get :: rest := by simp [fromGet]
  simp only [length_cons, count_cons, beq_iff_eq, if_true]
    at lengths allGets fromGets
  have paired := paired_update covered.paired head
  refine ⟨covered.named, paired, ?_, ?_⟩
  · intro small
    dsimp only at small
    rcases covered.early (by omega) with ⟨_, _⟩ | many
    · omega
    · refine .inr ?_
      simp only [gets] at many ⊢
      omega
  · intro large
    dsimp only at large
    by_cases high : n ≤ account.read
    · have late := covered.late high
      simp only [pending] at late ⊢
      omega
    · -- The read that makes the number reach `n`.
      have bound : ∑ x, (update account.uses r rest x).length ≤
          2 * ∑ x, (update account.uses r rest x).count .get := by
        rw [mul_sum]
        apply Finset.sum_le_sum
        intro x _
        have := (paired x).le
        have := length_eq (update account.uses r rest x)
        omega
      simp only [pending]
      rcases covered.early (by omega) with ⟨rfl, first | later⟩ | many
      · unfold pending at first
        omega
      · cases Subsingleton.elim r 0
        simp only [univ_unique, Fin.default_eq_zero, Finset.sum_singleton, update_self, head, whole, length_cons] at later ⊢
        omega
      · simp only [gets, mul_add] at many ⊢
        omega

end Account
end Vllm.ReaderCount
