import Mathlib

/-! Loops that need not end. A loop is run with fuel; it ends with a result when some
fuel gives that result, and no other fuel gives another one. A body that raises leaves
the state as it was. -/
namespace Vllm.Loop
open Option
variable {S E : Type} (cond : S → Bool) (body : S → Except E S)

def loop : Nat → S → Option (S × Option E)
  | 0, _ => none
  | fuel + 1, state =>
    if cond state then
      match body state with
      | .error e => some (state, some e)
      | .ok next => loop fuel next
    else some (state, none)

/-- The loop ends with this state, and with the error of its body if it raised one. -/
def Ends (state : S) (result : S × Option E) : Prop := ∃ fuel, loop cond body fuel state = some result

variable {cond body} {state next : S} {result : S × Option E}

theorem ends_of_done (done : cond state = false) :
    Ends cond body state result ↔ result = (state, none) := by
  constructor
  · rintro ⟨fuel, ran⟩
    cases fuel with
    | zero => cases ran
    | succ fuel =>
      simp only [loop, done, Bool.false_eq_true, if_false, some.injEq] at ran
      exact ran.symm
  · rintro rfl
    exact ⟨1, by simp [loop, done]⟩

theorem ends_of_error (more : cond state = true) (raised : body state = .error e) :
    Ends cond body state result ↔ result = (state, some e) := by
  constructor
  · rintro ⟨fuel, ran⟩
    cases fuel with
    | zero => cases ran
    | succ fuel =>
      simp only [loop, more, raised, if_true, some.injEq] at ran
      exact ran.symm
  · rintro rfl
    exact ⟨1, by simp [loop, more, raised]⟩

theorem ends_of_next (more : cond state = true) (stepped : body state = .ok next) :
    Ends cond body state result ↔ Ends cond body next result := by
  constructor
  · rintro ⟨fuel, ran⟩
    cases fuel with
    | zero => cases ran
    | succ fuel =>
      simp only [loop, more, stepped] at ran
      exact ⟨fuel, ran⟩
  · rintro ⟨fuel, ran⟩
    exact ⟨fuel + 1, by simpa only [loop, more, stepped, if_true] using ran⟩

/-- More fuel changes no result. -/
theorem loop_mono (le : fuel ≤ more) (ran : loop cond body fuel state = some result) :
    loop cond body more state = some result := by
  induction fuel generalizing state more with
  | zero => cases ran
  | succ fuel ih =>
    obtain ⟨more, rfl⟩ : ∃ n, more = n + 1 := ⟨more - 1, by omega⟩
    rw [loop] at ran ⊢
    split
    · rename_i continues
      rw [if_pos continues] at ran
      cases stepped : body state with
      | error e =>
        rw [stepped] at ran
        exact ran
      | ok next =>
        rw [stepped] at ran
        exact ih (by omega) ran
    · rename_i done
      rw [if_neg done] at ran
      exact ran

theorem Ends.unique (one : Ends cond body state result) (two : Ends cond body state other) :
    result = other := by
  obtain ⟨fuel, ran⟩ := one
  obtain ⟨more, same⟩ := two
  have longer := loop_mono (Nat.le_max_left fuel more) ran
  rw [loop_mono (Nat.le_max_right fuel more) same, some.injEq] at longer
  exact longer.symm

/-- A body that changes nothing is repeated forever. -/
theorem not_ends_of_stuck (more : cond state = true) (stuck : body state = .ok state) :
    ¬Ends cond body state result := by
  rintro ⟨fuel, ran⟩
  induction fuel with
  | zero => cases ran
  | succ fuel ih =>
    simp only [loop, more, stuck] at ran
    exact ih ran

/-- What the body keeps holds where the loop ends, either because the condition fails
or because the body raises. -/
theorem Ends.invariant (Inv : S → Prop)
    (step : ∀ now later, Inv now → cond now = true → body now = .ok later → Inv later)
    (start : Inv state) (ends : Ends cond body state result) :
    Inv result.1 ∧ (result.2 = none ∧ cond result.1 = false ∨
      ∃ e, result.2 = some e ∧ cond result.1 = true ∧ body result.1 = .error e) := by
  obtain ⟨fuel, ran⟩ := ends
  induction fuel generalizing state with
  | zero => cases ran
  | succ fuel ih =>
    rw [loop] at ran
    cases more : cond state with
    | false =>
      rw [more] at ran
      cases ran
      exact ⟨start, .inl ⟨rfl, more⟩⟩
    | true =>
      rw [if_pos more] at ran
      cases stepped : body state with
      | error e =>
        rw [stepped] at ran
        cases ran
        exact ⟨start, .inr ⟨e, rfl, more, stepped⟩⟩
      | ok later =>
        rw [stepped] at ran
        exact ih (step state later start more stepped) ran

/-- A map that the condition and the body respect is respected by the loop. -/
theorem loop_map {T : Type} {cond' : T → Bool} {body' : T → Except E T} (f : S → T)
    (conds : ∀ now, cond' (f now) = cond now) (bodies : ∀ now, body' (f now) = (body now).map f)
    (fuel : Nat) (state : S) : loop cond' body' fuel (f state) =
      (loop cond body fuel state).map (fun result => (f result.1, result.2)) := by
  induction fuel generalizing state with
  | zero => rfl
  | succ fuel ih =>
    simp only [loop, conds, bodies]
    cases cond state with
    | false => rfl
    | true =>
      cases body state with
      | error e => rfl
      | ok next => exact ih next

end Vllm.Loop
