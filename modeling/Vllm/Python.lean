import Mathlib

/-! Python conventions shared by the whole model: exceptions, list indexing with
negative indices, and the rules that take a successful computation apart. A call
that raises has no successor state, so every run below is a run of calls that
return. -/
namespace Vllm
open List hiding next

inductive PyError where
  | assertionError (message : String)
  | valueError (message : String)
  | indexError (message : String)
  | keyError (message : String)
  | runtimeError (message : String)
  | notImplementedError (message : String)
  | memoryError (message : String)
  | overflowError (message : String)
  | zeroDivisionError (message : String)
  | stopIteration
  deriving DecidableEq, Repr

abbrev Py (α : Type) := Except PyError α

namespace Py
variable {f : α → Py β} {message : String} {items : List α} {σ : Type} {bad : PyError → Prop}

def assert (condition : Bool) (message : String) : Py Unit :=
  if condition then .ok () else .error (.assertionError message)

theorem ok_bind (a : α) (f : α → Py β) : ((.ok a : Py α) >>= f) = f a := rfl

theorem ok_of_isOk {x : Except ε α} (returns : x.isOk = true) : ∃ a, x = .ok a := by
  cases x with
  | error e => cases returns
  | ok a => exact ⟨a, rfl⟩

/-- A computation that returns exactly under a condition, and then something good. -/
def ReturnsIff (condition : Prop) (x : Py α) (Good : α → Prop) : Prop :=
  condition ∧ (∃ a, x = .ok a ∧ Good a) ∨ ¬ condition ∧ ∃ e, x = .error e

def raised? : Except ε α → Option ε
  | .error e => some e
  | .ok _ => none

theorem error_of_raised (raises : raised? x = some e) : x = .error e := by
  cases x with
  | error other =>
    cases raises
    rfl
  | ok a => cases raises

theorem bind_ok (h : x >>= f = .ok b) : ∃ a, x = .ok a ∧ f a = .ok b := by
  cases x with
  | error e => cases h
  | ok a => exact ⟨a, rfl, h⟩

theorem assert_bind_ok (h : assert condition message >>= next = .ok a) :
    condition = true ∧ next () = .ok a := by
  cases condition with
  | false => cases h
  | true => exact ⟨rfl, h⟩

theorem of_assert_ok (h : assert condition message = .ok done) : condition = true := by
  cases condition with
  | false => cases h
  | true => rfl

theorem assert_bind (holds : condition = true) : (assert condition message >>= next) = next () := by
  subst holds
  rfl

/-- A loop whose invariant speaks about the items that are done. -/
theorem foldlM_items (Inv : List α → σ → Prop) {f : σ → α → Py σ}
    (round : ∀ {prior item later state next}, items = prior ++ item :: later →
      Inv prior state → f state item = .ok next → Inv (prior ++ [item]) next)
    {state last : σ} (start : Inv [] state) (h : items.foldlM f state = .ok last) :
    Inv items last := by
  have loop (rest prior : List α) (split : items = prior ++ rest) {state : σ}
      (kept : Inv prior state) (h : rest.foldlM f state = .ok last) : Inv items last := by
    induction rest generalizing prior state with
    | nil =>
      cases h
      rw [split, append_nil]
      exact kept
    | cons item rest ih =>
      rw [foldlM_cons] at h
      obtain ⟨next, stepped, h⟩ := bind_ok h
      exact ih (prior ++ [item]) (by simpa using split) (round split kept stepped) h
  exact loop items [] rfl start h

/-- What every round of a loop keeps, the loop keeps. -/
theorem foldlM_invariant (Inv : σ → Prop) {f : σ → α → Py σ}
    (round : ∀ {state item next}, item ∈ items → Inv state → f state item = .ok next → Inv next)
    (start : Inv state) (h : items.foldlM f state = .ok last) : Inv last :=
  foldlM_items (fun _ => Inv) (fun split => round (by simp [split])) start h

/-- A loop that raises nothing. -/
theorem foldl_items (Inv : List α → σ → Prop) {f : σ → α → σ} (items : List α)
    (round : ∀ {prior item later state}, items = prior ++ item :: later → Inv prior state →
      Inv (prior ++ [item]) (f state item)) (start : Inv [] state) : Inv items (items.foldl f state) := by
  refine foldlM_items Inv ?_ start (List.foldlM_pure : items.foldlM (fun state item =>
    (pure (f state item) : Py σ)) state = pure (items.foldl f state))
  intro prior item later state next split kept stepped
  cases stepped
  exact round split kept

def Avoids (bad : PyError → Prop) (x : Py α) : Prop := ∀ e, x = .error e → ¬ bad e

theorem Avoids.ok (a : α) : Avoids bad (.ok a : Py α) := by
  intro e raised
  cases raised

theorem Avoids.bind (first : Avoids bad x) (rest : ∀ a, x = .ok a → Avoids bad (f a)) :
    Avoids bad (x >>= f) := by
  cases x with
  | error e =>
    intro _ raised
    cases raised
    exact first e rfl
  | ok a => exact rest a rfl

theorem Avoids.foldlM (Inv : σ → Prop) {f : σ → α → Py σ}
    (quiet : ∀ {state}, ∀ item ∈ items, Inv state → Avoids bad (f state item))
    (round : ∀ {state item next}, item ∈ items → Inv state → f state item = .ok next → Inv next)
    (start : Inv state) : Avoids bad (items.foldlM f state) := by
  induction items generalizing state with
  | nil => exact ok state
  | cons item items ih =>
    refine bind (quiet item (mem_cons_self ..) start) ?_
    intro next stepped
    exact ih (fun item mem => quiet item (mem_cons_of_mem _ mem))
      (fun mem => round (mem_cons_of_mem _ mem))
      (round (mem_cons_self ..) start stepped)

/-- A comprehension whose every item returns. -/
theorem mapM_ok (each : ∀ item ∈ items, f item = .ok (g item)) :
    items.mapM f = .ok (items.map g) := by
  induction items with
  | nil => rfl
  | cons item items ih =>
    rw [mapM_cons, each item (mem_cons_self ..),
      ih (fun item listed => each item (mem_cons_of_mem _ listed))]
    rfl

theorem of_mapM_ok (ran : items.mapM f = .ok results) (mem : item ∈ items) :
    ∃ result, f item = .ok result := by
  induction items generalizing results with
  | nil => cases mem
  | cons first items ih =>
    rw [mapM_cons] at ran
    obtain ⟨result, here, ran⟩ := bind_ok ran
    obtain ⟨_, later, -⟩ := bind_ok ran
    rcases mem_cons.mp mem with rfl | mem
    · exact ⟨result, here⟩
    · exact ih later mem

/-- The place in a list of length `n` that the Python index `i` names. -/
def place (n : Nat) (i : Int) : Option Nat :=
  if 0 ≤ i then (if i.toNat < n then some i.toNat else none)
  else if 0 ≤ n + i then some (n + i).toNat else none

theorem place_lt (h : place n i = some k) : k < n := by
  unfold place at h
  split at h
  · split at h
    · cases h
      assumption
    · contradiction
  · split at h
    · cases h
      omega
    · contradiction

/-- `l[:n]`. -/
def take (l : List α) (n : Int) : List α :=
  if 0 ≤ n then l.take n.toNat else l.take (l.length + n).toNat

end Py
end Vllm
