import Vllm.Request
import Vllm.Lib.Run

/-! `XgrammarGrammar`: a count of the tokens of the matcher and a copy of its termination
status. The matcher is a deterministic automaton with exact rollback and reset, so its state
is the list of the tokens that it holds. -/
namespace Vllm
open List hiding next
variable {Q : Type}

structure GrammarAutomaton (Q : Type) where
  start : Q
  step : Q → TokenId → Option Q
  terminated : Q → Bool
  terminated_rejects : ∀ q token, terminated q = true → step q token = none

namespace GrammarAutomaton
variable (auto : GrammarAutomaton Q) {held : List TokenId}

def Accepts (tokens : List TokenId) : Bool := (tokens.foldlM auto.step auto.start).isSome

def isTerminated (held : List TokenId) : Bool :=
  (held.foldlM auto.step auto.start).any auto.terminated

def acceptToken (held : List TokenId) (token : TokenId) : Option (List TokenId) :=
  if auto.Accepts (held ++ [token]) then some (held ++ [token]) else none

variable {auto}

theorem accepts_of_append (accepts : auto.Accepts (held ++ more)) : auto.Accepts held := by
  unfold Accepts at *
  rw [foldlM_append] at accepts
  exact Option.isSome_of_isSome_bind accepts

end GrammarAutomaton

structure XgrammarGrammar where
  matcher : List TokenId := []
  numProcessedTokens : Int := 0
  isTerminated : Bool := false

inductive GrammarCall where
  | acceptTokens (tokens : List TokenId)
  | validateTokens (tokens : List TokenId)
  | rollback (numTokens : Nat)
  | reset

namespace XgrammarGrammar
variable (auto : GrammarAutomaton Q)

def acceptLoop (grammar : XgrammarGrammar) : List TokenId → Bool × XgrammarGrammar
  | [] => (true, { grammar with isTerminated := auto.isTerminated grammar.matcher })
  | token :: tokens =>
    match auto.acceptToken grammar.matcher token with
    | none => (false, grammar)
    | some matcher => acceptLoop
        { grammar with matcher, numProcessedTokens := grammar.numProcessedTokens + 1 } tokens

section
variable (grammar : XgrammarGrammar)

def acceptTokens (tokens : List TokenId) : Bool × XgrammarGrammar :=
  if grammar.isTerminated then (false, grammar) else grammar.acceptLoop auto tokens

/-- The accepted tokens and the matcher after them. -/
def validateLoop (matcher : List TokenId) : List TokenId → List TokenId × List TokenId
  | [] => ([], matcher)
  | token :: tokens =>
    match auto.acceptToken matcher token with
    | none => ([], matcher)
    | some next =>
      let (acceptedTokens, last) := validateLoop next tokens
      (token :: acceptedTokens, last)

def validateTokens (tokens : List TokenId) : List TokenId × XgrammarGrammar :=
  let (acceptedTokens, matcher) := validateLoop auto grammar.matcher tokens
  (acceptedTokens, { grammar with matcher :=
    if acceptedTokens.length > 0 then matcher.rdrop acceptedTokens.length else matcher })

def rollback (numTokens : Nat) : XgrammarGrammar :=
  let matcher := grammar.matcher.rdrop numTokens
  { matcher, numProcessedTokens := grammar.numProcessedTokens - numTokens
    isTerminated := auto.isTerminated matcher }

def reset : XgrammarGrammar :=
  { grammar with numProcessedTokens := 0, matcher := [] }

def exec : GrammarCall → Py XgrammarGrammar
  | .acceptTokens tokens => .ok (grammar.acceptTokens auto tokens).2
  | .validateTokens tokens => .ok (grammar.validateTokens auto tokens).2
  | .rollback numTokens =>
    if numTokens ≤ grammar.matcher.length then .ok (grammar.rollback auto numTokens)
    else .error (.runtimeError "the matcher holds fewer tokens")
  | .reset => .ok grammar.reset

/-- The flag is refreshed where the status changes: no token comes after one that terminates the
grammar, unless the wrapper knows, and a terminated grammar is not reset. -/
def Refreshes : GrammarCall → Prop
  | .acceptTokens tokens => grammar.isTerminated = false → ∀ n < tokens.length,
      auto.isTerminated (grammar.matcher ++ tokens.take n) = false
  | .reset => grammar.isTerminated = auto.isTerminated []
  | _ => True

/-- The tokens that may follow those of the matcher, as many of the given ones as possible. -/
structure Longest (held tokens accepted : List TokenId) : Prop where
  taken : accepted <+: tokens
  accepts : auto.Accepts (held ++ accepted)
  longest : ∀ other, other <+: tokens → auto.Accepts (held ++ other) →
    other.length ≤ accepted.length

/-- The count and the tokens of the matcher, which hold after every call. -/
structure Counts : Prop where
  accepts : auto.Accepts grammar.matcher
  count : grammar.numProcessedTokens = grammar.matcher.length

structure Mirrors : Prop extends Counts auto grammar where
  status : grammar.isTerminated = auto.isTerminated grammar.matcher

end

variable {auto} {grammar next : XgrammarGrammar}

/-- If a token is refused, the matcher keeps those before it and the flag is not refreshed. -/
theorem acceptLoop_ok (counts : Counts auto grammar)
    (ran : grammar.acceptLoop auto tokens = (accepted, next)) : Counts auto next ∧
      (next.isTerminated = auto.isTerminated next.matcher ∨
        next.isTerminated = grammar.isTerminated ∧
          ∃ n < tokens.length, next.matcher = grammar.matcher ++ tokens.take n) := by
  induction tokens generalizing grammar with
  | nil =>
    cases ran
    exact ⟨⟨counts.accepts, counts.count⟩, .inl rfl⟩
  | cons token tokens ih =>
    rw [acceptLoop, GrammarAutomaton.acceptToken] at ran
    split at ran
    · cases ran
      exact ⟨counts, .inr ⟨rfl, 0, Nat.succ_pos _, by simp⟩⟩
    · rename_i matcher taken
      obtain ⟨accepts, same⟩ := Option.ite_none_right_eq_some.mp taken
      cases same
      have counted : Counts auto { grammar with
          matcher := grammar.matcher ++ [token]
          numProcessedTokens := grammar.numProcessedTokens + 1 } :=
        ⟨accepts, by simp [counts.count]⟩
      obtain ⟨after, fresh | ⟨flag, n, inside, held⟩⟩ := ih counted ran
      · exact ⟨after, .inl fresh⟩
      · exact ⟨after, .inr ⟨flag, n + 1, Nat.succ_lt_succ inside, by simp [held]⟩⟩

theorem validateLoop_ok (accepts : auto.Accepts held) (tokens : List TokenId) :
    ∃ accepted, validateLoop auto held tokens = (accepted, held ++ accepted) ∧
      Longest auto held tokens accepted := by
  induction tokens generalizing held with
  | nil =>
    refine ⟨[], by simp [validateLoop], nil_prefix, by simpa using accepts, ?_⟩
    rintro other taken -
    exact taken.length_le
  | cons token tokens ih =>
    rw [validateLoop, GrammarAutomaton.acceptToken]
    by_cases more : auto.Accepts (held ++ [token])
    · obtain ⟨accepted, ran, taken, all, longest⟩ := ih more
      rw [if_pos more]
      simp only [ran, append_assoc, singleton_append] at all longest ⊢
      refine ⟨_, rfl, (prefix_cons_inj _).mpr taken, all, ?_⟩
      rintro (_ | ⟨first, other⟩) shorter fits
      · exact Nat.zero_le _
      · obtain ⟨rfl, rest⟩ := cons_prefix_cons.mp shorter
        exact Nat.succ_le_succ (longest other rest fits)
    -- Any other acceptable prefix would begin with the refused token.
    · rw [if_neg more]
      refine ⟨[], by simp, nil_prefix, by simpa using accepts, ?_⟩
      rintro (_ | ⟨first, other⟩) shorter fits
      · exact Nat.le_refl _
      · obtain ⟨rfl, -⟩ := cons_prefix_cons.mp shorter
        rw [append_cons] at fits
        exact absurd (GrammarAutomaton.accepts_of_append fits) more

theorem validateTokens_ok (accepts : auto.Accepts grammar.matcher) (tokens : List TokenId) :
    ∃ accepted, grammar.validateTokens auto tokens = (accepted, grammar) ∧
      Longest auto grammar.matcher tokens accepted := by
  obtain ⟨accepted, ran, longest⟩ := validateLoop_ok accepts tokens
  refine ⟨accepted, ?_, longest⟩
  cases accepted <;> simp [validateTokens, ran, rdrop]

/-- Every call keeps the count, and one that refreshes the flag keeps that too. -/
theorem exec_mirrors (mirrors : Mirrors auto grammar) (refreshes : Refreshes auto grammar op)
    (ran : exec auto grammar op = .ok next) : Mirrors auto next := by
  cases op with
  | acceptTokens tokens =>
    cases ran
    by_cases ended : grammar.isTerminated = true
    · simpa [acceptTokens, ended] using mirrors
    · rw [Bool.not_eq_true] at ended
      simp only [acceptTokens, ended, Bool.false_eq_true, if_false]
      obtain ⟨counts, fresh | ⟨flag, n, inside, held⟩⟩ := acceptLoop_ok mirrors.toCounts rfl
      · exact ⟨counts, fresh⟩
      · exact ⟨counts, by rw [flag, held, ended, refreshes ended n inside]⟩
  | validateTokens tokens =>
    obtain ⟨accepted, same, -⟩ := validateTokens_ok mirrors.accepts tokens
    simp only [exec, same, Except.ok.injEq] at ran
    exact ran ▸ mirrors
  | rollback numTokens =>
    simp only [exec] at ran
    split at ran
    swap
    · cases ran
    cases ran
    have parts : auto.Accepts (grammar.matcher.rdrop numTokens ++ _) :=
      (take_append_drop _ grammar.matcher).symm ▸ mirrors.accepts
    refine ⟨⟨GrammarAutomaton.accepts_of_append parts, ?_⟩, rfl⟩
    simp only [rollback, rdrop, length_take, mirrors.count]
    omega
  | reset =>
    -- The flag is not reset, so it has to agree with the start beforehand.
    cases ran
    exact ⟨⟨rfl, rfl⟩, refreshes⟩

/-- In a run whose calls refresh the flag the wrapper agrees with its matcher, and
`validate_tokens` gives the longest acceptable prefix and changes nothing. -/
theorem wrapper_mirrors_matcher (auto : GrammarAutomaton Q)
    (fresh : auto.terminated auto.start = false) (calls : List GrammarCall)
    (refreshes : Run.AllSteps (exec auto) (Refreshes auto) {} calls)
    (reached : XgrammarGrammar) (ran : Run.run (exec auto) {} calls = .ok reached) :
    reached.isTerminated = auto.isTerminated reached.matcher ∧
    reached.numProcessedTokens = reached.matcher.length ∧
    ∀ tokens, ∃ accepted, reached.validateTokens auto tokens = (accepted, reached) ∧
      Longest auto reached.matcher tokens accepted := by
  have mirrors := Run.run_invariant (Mirrors auto) exec_mirrors
    ⟨⟨rfl, rfl⟩, fresh.symm⟩ refreshes ran
  exact ⟨mirrors.status, mirrors.count, validateTokens_ok mirrors.accepts⟩

/-- One token, after which the matcher has terminated. -/
def oneToken : GrammarAutomaton Bool where
  start := false
  step := fun ended token => if ended = false ∧ token = 1 then some true else none
  terminated := id
  terminated_rejects := by
    rintro _ token rfl
    rfl

instance (grammar : XgrammarGrammar) (op : GrammarCall) :
    Decidable (Refreshes auto grammar op) := by
  cases op with
  | acceptTokens tokens => exact inferInstanceAs (Decidable (_ = false → ∀ n < tokens.length, _))
  | reset => exact inferInstanceAs (Decidable (_ = _))
  | _ => exact .isTrue trivial

theorem wrapper_mirrors_one_token : ∃ reached, Run.run (exec oneToken) {}
      [.validateTokens [1, 2], .acceptTokens [1], .acceptTokens [2], .rollback 1] = .ok reached ∧
    reached.isTerminated = oneToken.isTerminated reached.matcher ∧
    reached.numProcessedTokens = reached.matcher.length ∧
    ∀ tokens, ∃ accepted, reached.validateTokens oneToken tokens = (accepted, reached) ∧
      Longest oneToken reached.matcher tokens accepted :=
  ⟨_, rfl, wrapper_mirrors_matcher oneToken rfl
    [.validateTokens [1, 2], .acceptTokens [1], .acceptTokens [2], .rollback 1] (by decide) _ rfl⟩

/-- Tokens refused after the last one leave the flag behind, and so does a reset. -/
theorem termination_missed :
    (∃ reached, Run.run (exec oneToken) {} [.acceptTokens [1, 2]] = .ok reached ∧
      reached.isTerminated = false ∧ oneToken.isTerminated reached.matcher = true) ∧
    ∃ reached, Run.run (exec oneToken) {} [.acceptTokens [1], .reset] = .ok reached ∧
      reached.isTerminated = true ∧ oneToken.isTerminated reached.matcher = false :=
  ⟨⟨_, rfl, rfl, rfl⟩, _, rfl, rfl, rfl⟩

end XgrammarGrammar
end Vllm
