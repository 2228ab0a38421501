import Vllm.Python

/-! `AsyncMicrobatchTokenizer` of `utils/async_utils.py`. A call goes into the queue of a key made
from some of its arguments. The loop of a queue takes a batch from it, runs the tokenizer once and
resolves the futures of the batch. Callers and loops take turns in any order. -/
namespace Vllm.Microbatch
open List Function

inductive Op
  | encode
  | decode

/-- The arguments that the queue key reads, and all others. -/
structure Kwargs (K : Type) where
  addSpecialTokens : Option Bool := none
  truncation : Option Bool := none
  maxLength : Option Nat := none
  others : Option K := none

/-- The prompt of `decode` is a list of token ids. -/
structure Call (P K : Type) where
  op : Op
  prompt : P
  kwargs : Kwargs K

inductive Key
  | decode
  | encode (addSpecialTokens truncation : Bool)
  | other
  deriving DecidableEq

inductive Future (R : Type)
  | pending
  | cancelled
  | resolved (result : Py R)

/-- A call is known by the number of its future. The first `taken` entries of a queue are the batch
that its loop has taken. -/
structure State (P K R : Type) where
  calls : List (Call P K) := []
  futures : Nat → Future R := fun _ => .pending
  queue : Key → List (Nat × Call P K) := fun _ => []
  taken : Key → Nat := fun _ => 0

def State.batch (state : State P K R) (key : Key) : List (Nat × Call P K) :=
  (state.queue key).take (state.taken key)

inductive Event (P K : Type)
  | call (call : Call P K)
  | cancel (future : Nat)
  | take (key : Key)
  | finish (key : Key)

structure AsyncMicrobatchTokenizer (P K R : Type) where
  maxBatchSize : Nat
  modelMaxLength : Option Nat
  answer : Op → P → Kwargs K → Py R

namespace AsyncMicrobatchTokenizer
variable (tok : AsyncMicrobatchTokenizer P K R) (state : State P K R) (key : Key)
  (batch : List (Call P K)) (call : Call P K)

def own : Py R := tok.answer call.op call.prompt call.kwargs

def queueKey : Key :=
  match call.op with
  | .decode => .decode
  | .encode =>
    let addSpecialTokens := call.kwargs.addSpecialTokens.getD true
    let maxLength := call.kwargs.maxLength
    let modelMax := tok.modelMaxLength
    if call.kwargs.truncation.getD false = false then .encode addSpecialTokens false
    else if maxLength = none ∨ modelMax ≠ none ∧ maxLength = modelMax then
      .encode addSpecialTokens true
    else .other

/-- A batch is decoded without arguments. Several prompts are encoded with those of the last. -/
def inBatch : Py R :=
  tok.answer call.op call.prompt <| match key with
    | .decode => {}
    | .encode _ _ => if 1 < batch.length then (batch.getLast?.getD call).kwargs else call.kwargs
    | .other => call.kwargs

/-- The items of a batch are independent. The first that raises fails the batch. -/
def result : Py R :=
  let results := batch.map (tok.inBatch key batch)
  (results.find? (!·.isOk)).getD (tok.inBatch key batch call)

def step : Event P K → State P K R
  | .call call =>
    let key := tok.queueKey call
    { state with
      calls := state.calls ++ [call]
      queue := update state.queue key (state.queue key ++ [(state.calls.length, call)]) }
  | .cancel future =>
    { state with futures := fun other => match state.futures other with
        | .pending => if other = future ∧ future < state.calls.length then .cancelled else .pending
        | done => done }
  | .take key =>
    let taken := state.taken key
    { state with taken := update state.taken key <|
        if (taken = 0 ∨ taken < tok.maxBatchSize) ∧ taken < (state.queue key).length then
          taken + 1
        else taken }
  | .finish key =>
    let batch := state.batch key
    { state with
      futures := fun future => match state.futures future, batch.find? (·.1 = future) with
        | .pending, some entry => .resolved (tok.result key (batch.map Prod.snd) entry.2)
        | now, _ => now
      queue := update state.queue key ((state.queue key).drop (state.taken key))
      taken := update state.taken key 0 }

def run (events : List (Event P K)) : State P K R := events.foldl tok.step {}

/-- A call may be in a batch: `decode` has no arguments, several prompts that are encoded together
have those of the last, and none of several calls raises. -/
structure MayJoin : Prop where
  decoded : key = .decode → call.kwargs = {}
  encoded : ∀ addSpecialTokens truncation, key = .encode addSpecialTokens truncation →
    1 < batch.length → ∀ last, batch.getLast? = some last → call.kwargs = last.kwargs
  returns : 1 < batch.length → (tok.own call).isOk

def Harmless : Event P K → Prop
  | .finish key => let batch := (state.batch key).map Prod.snd
    ∀ call ∈ batch, tok.MayJoin key batch call
  | _ => True

def AllHarmless : State P K R → List (Event P K) → Prop
  | _, [] => True
  | state, event :: events => tok.Harmless state event ∧
      AllHarmless (tok.step state event) events

theorem finish_cases (future : Nat) :
    ((tok.step state (.finish key)).futures future = state.futures future ∧
      (state.futures future = .pending → ∀ call, (future, call) ∉ state.batch key)) ∨
    ∃ call, (future, call) ∈ state.batch key ∧
      (tok.step state (.finish key)).futures future =
        .resolved (tok.result key ((state.batch key).map Prod.snd) call) := by
  simp only [step]
  split
  · rename_i entry _ found
    have same : entry.1 = future := by simpa using find?_some found
    exact .inr ⟨entry.2, same ▸ mem_of_find?_eq_some found, rfl⟩
  · rename_i open_
    refine .inl ⟨rfl, ?_⟩
    intro now call mem
    cases found : (state.batch key).find? (·.1 = future) with
    | none => simpa using find?_eq_none.mp found _ mem
    | some entry => exact open_ entry now found

section
variable {tok state batch call}

theorem MayJoin.inBatch_eq_own (joins : tok.MayJoin key batch call) :
    tok.inBatch key batch call = tok.own call := by
  unfold inBatch own
  cases key with
  | decode => rw [joins.decoded rfl]
  | other => rfl
  | encode addSpecialTokens truncation =>
    by_cases several : 1 < batch.length
    · simp only [if_pos several]
      cases last : batch.getLast? with
      | none => rfl
      | some last' => rw [joins.encoded _ _ rfl several last' last]; rfl
    · simp only [if_neg several]

theorem result_eq_own (harmless : ∀ call ∈ batch, tok.MayJoin key batch call)
    (mem : call ∈ batch) : tok.result key batch call = tok.own call := by
  dsimp only [result]
  cases found : (batch.map (tok.inBatch key batch)).find? (!·.isOk) with
  | none => exact (harmless call mem).inBatch_eq_own
  | some failed =>
    have raises := find?_some found
    obtain ⟨other, here, rfl⟩ := mem_map.mp (mem_of_find?_eq_some found)
    have same := (harmless other here).inBatch_eq_own
    by_cases several : 1 < batch.length
    · rw [same, (harmless other here).returns several] at raises
      cases raises
    · obtain ⟨only, rfl⟩ := length_eq_one_iff.mp
        (le_antisymm (not_lt.mp several) (length_pos_of_mem mem))
      rw [mem_singleton.mp mem, ← mem_singleton.mp here]
      exact same

theorem step_done (event : Event P K) (done : state.futures future ≠ .pending) :
    (tok.step state event).futures future = state.futures future := by
  cases event <;> simp only [step]
  all_goals
    split
    · contradiction
    · rfl

theorem run_done (more : List (Event P K)) (done : state.futures future ≠ .pending) :
    (more.foldl tok.step state).futures future = state.futures future := by
  induction more generalizing state with
  | nil => rfl
  | cons event more ih =>
    have kept : (tok.step state event).futures future = _ := step_done event done
    exact (ih (kept ▸ done)).trans kept

end

/-- The calls of a key, in the order in which they were made, with their futures. -/
def callsOf : List (Nat × Call P K) :=
  (state.calls.zipIdx.filter (tok.queueKey ·.1 = key)).map Prod.swap

theorem mem_callsOf : entry ∈ tok.callsOf state key ↔
    state.calls[entry.1]? = some entry.2 ∧ tok.queueKey entry.2 = key := by
  simp only [callsOf, mem_map, mem_filter, Prod.exists, mk_mem_zipIdx_iff_getElem?]
  grind

theorem callsOf_nodup : ((tok.callsOf state key).map Prod.fst).Nodup := by
  have numbers : (state.calls.zipIdx.map Prod.snd).Nodup := by simpa using nodup_range'
  rw [callsOf, map_map]
  exact (numbers.of_map _).filter _ |>.map_on (by grind)

/-- The calls of a key are those that are done, then its queue, where none is resolved. -/
structure Ordered : Prop where
  queued : ∀ key, ∃ done, tok.callsOf state key = done ++ state.queue key ∧
    (∀ entry ∈ done, state.futures entry.1 ≠ .pending) ∧
    ∀ entry ∈ state.queue key, ∀ result, state.futures entry.1 ≠ .resolved result
  unmade : ∀ future, state.calls.length ≤ future → state.futures future = .pending

/-- Every result is the own one. -/
def Right : Prop :=
  ∀ future result, state.futures future = .resolved result →
    ∃ call, state.calls[future]? = some call ∧ result = tok.own call

section
variable {tok state call} (ordered : Ordered tok state)
include ordered

theorem Ordered.made {entry : Nat × Call P K} (mem : entry ∈ state.queue key) :
    state.calls[entry.1]? = some entry.2 ∧ tok.queueKey entry.2 = key := by
  obtain ⟨done, calls, -⟩ := ordered.queued key
  exact (mem_callsOf ..).mp (calls ▸ mem_append_right done mem)

theorem Ordered.waits (made : state.calls[future]? = some call)
    (open_ : state.futures future = .pending) :
    (future, call) ∈ state.queue (tok.queueKey call) := by
  obtain ⟨done, calls, ended, -⟩ := ordered.queued (tok.queueKey call)
  have mem : (future, call) ∈ tok.callsOf state (tok.queueKey call) :=
    (mem_callsOf ..).mpr ⟨made, rfl⟩
  exact (mem_append.mp (calls ▸ mem)).resolve_left (fun early => ended _ early open_)

/-- Only the futures of the batch are resolved. -/
theorem Ordered.finish_queued (lane : Key) : ∃ done,
    let next := tok.step state (.finish lane)
    tok.callsOf state key = done ++ next.queue key ∧
      (∀ entry ∈ done, next.futures entry.1 ≠ .pending) ∧
      ∀ entry ∈ next.queue key, ∀ result, next.futures entry.1 ≠ .resolved result := by
  obtain ⟨done, calls, ended, waiting⟩ := ordered.queued key
  have kept : ∀ entry ∈ done, (tok.step state (.finish lane)).futures entry.1 ≠ .pending :=
    fun entry mem => step_done (.finish lane) (ended entry mem) ▸ ended entry mem
  have still {entry : Nat × Call P K} (mem : entry ∈ state.queue key)
      (apart : ∀ call, (entry.1, call) ∉ state.batch lane) (result) :
      (tok.step state (.finish lane)).futures entry.1 ≠ .resolved result := by
    rcases finish_cases tok state lane entry.1 with ⟨same, -⟩ | ⟨call, taken, -⟩
    · exact same ▸ waiting entry mem result
    · exact absurd taken (apart call)
  obtain rfl | other := eq_or_ne key lane
  · have split : state.queue key = state.batch key ++ (state.queue key).drop (state.taken key) :=
      (take_append_drop ..).symm
    have unique := callsOf_nodup tok state key
    rw [calls, split, map_append, map_append] at unique
    refine ⟨done ++ state.batch key, calls.trans (by simp [step, ← split]), ?_, ?_⟩
    · intro entry mem open_
      rcases mem_append.mp mem with mem | mem
      · exact kept entry mem open_
      · rcases finish_cases tok state key entry.1 with ⟨same, absent⟩ | ⟨_, -, now⟩
        · exact absent (same ▸ open_) entry.2 mem
        · cases open_.symm.trans now
    · intro entry mem
      simp only [step, update_self] at mem
      refine still (mem_of_mem_drop mem) (fun call taken => ?_)
      exact disjoint_of_nodup_append unique.of_append_right (mem_map.mpr ⟨_, taken, rfl⟩)
        (mem_map.mpr ⟨entry, mem, rfl⟩)
  · refine ⟨done, calls.trans (by simp [step, other]), kept, ?_⟩
    intro entry mem
    simp only [step, update_of_ne other] at mem
    refine still mem (fun call taken => other ?_)
    have mine := ordered.made key mem
    have theirs := ordered.made lane (mem_of_mem_take taken)
    cases mine.1.symm.trans theirs.1
    exact mine.2.symm.trans theirs.2

theorem Ordered.stepped (event : Event P K) : Ordered tok (tok.step state event) := by
  cases event with
  | call call =>
    refine ⟨fun key => ?_, fun future beyond => ordered.unmade future ?_⟩
    · obtain ⟨done, calls, ended, waiting⟩ := ordered.queued key
      refine ⟨done, ?_, ended, ?_⟩
      · simp only [callsOf] at calls
        simp only [callsOf, step, zipIdx_append, filter_append, map_append, calls, update_apply]
        grind
      · have fresh := ordered.unmade state.calls.length le_rfl
        simp only [step, update_apply]
        grind
    · simp only [step, length_append] at beyond
      omega
  | cancel future =>
    refine ⟨fun key => ?_, fun other beyond => ?_⟩
    · obtain ⟨done, calls, ended, waiting⟩ := ordered.queued key
      refine ⟨done, calls, fun entry mem => ?_, fun entry mem result => ?_⟩
      · exact step_done (.cancel future) (ended entry mem) ▸ ended entry mem
      · have before := waiting entry mem result
        grind [step]
    · have before := ordered.unmade other beyond
      grind [step]
  | take key => exact ⟨ordered.queued, ordered.unmade⟩
  | finish lane =>
    refine ⟨fun key => ordered.finish_queued key lane, fun future beyond => ?_⟩
    rcases finish_cases tok state lane future with ⟨same, -⟩ | ⟨call, taken, -⟩
    · exact same ▸ ordered.unmade future beyond
    · obtain ⟨inside, -⟩ :=
        List.getElem?_eq_some_iff.mp (ordered.made lane (mem_of_mem_take taken)).1
      exact absurd beyond (not_le.mpr inside)

theorem Ordered.run (events : List (Event P K)) :
    Ordered tok (events.foldl tok.step state) := by
  induction events generalizing state with
  | nil => exact ordered
  | cons event events ih => exact ih (ordered.stepped event)

theorem Right.stepped (right : Right tok state) (harmless : tok.Harmless state event) :
    Right tok (tok.step state event) := by
  intro future result done
  cases event with
  | call call =>
    obtain ⟨made, listed, own⟩ := right future result done
    exact ⟨made, by simp only [step]; grind, own⟩
  | cancel other => exact right future result (by grind [step])
  | take key => exact right future result done
  | finish key =>
    rcases finish_cases tok state key future with ⟨kept, -⟩ | ⟨call, mem, now⟩
    · exact right future result (kept ▸ done)
    · cases done.symm.trans now
      exact ⟨call, (ordered.made key (mem_of_mem_take mem)).1,
        result_eq_own key harmless (mem_map_of_mem mem)⟩

theorem Right.run (right : Right tok state) (harmless : tok.AllHarmless state events) :
    Right tok (events.foldl tok.step state) := by
  induction events generalizing state with
  | nil => exact right
  | cons event events ih =>
    exact ih (ordered.stepped event) (Right.stepped ordered right harmless.1) harmless.2

/-- The loop of a queue comes to every call in it. -/
theorem queue_drains (made : state.calls[future]? = some call) : ∃ rounds,
    ((replicate rounds [.take (tok.queueKey call),
      .finish (tok.queueKey call)]).flatten.foldl tok.step state).futures
        future ≠ .pending := by
  by_cases open_ : state.futures future = .pending
  · have mem := ordered.waits made open_
    generalize same : tok.queueKey call = key at mem
    induction size : (state.queue key).length using Nat.strong_induction_on generalizing state with
    | _ n ih =>
      let next := tok.step (tok.step state (.take key)) (.finish key)
      by_cases open_ : next.futures future = .pending
      · have shorter : (next.queue key).length < n := by
          have := length_pos_of_mem mem
          simp only [next, step, update_self, length_drop]
          split <;> omega
        have later := (ordered.stepped (.take key)).stepped (.finish key)
        obtain ⟨rounds, done⟩ := ih _ shorter later made open_ (same ▸ later.waits made open_) rfl
        exact ⟨rounds + 1, done⟩
      · exact ⟨1, open_⟩
  · exact ⟨0, open_⟩

end

theorem ordered_start : Ordered tok {} :=
  ⟨fun _ => ⟨[], rfl, by simp, by simp⟩, fun _ _ => rfl⟩

/-- In any order of events no call is lost, taken twice or overtaken by a later call of its key. -/
theorem calls_done_in_order (events : List (Event P K)) (key : Key) :
    let state := tok.run events
    ∃ done, tok.callsOf state key = done ++ state.queue key ∧
      (∀ entry ∈ done, state.futures entry.1 ≠ .pending) ∧
      ∀ entry ∈ state.queue key, ∀ result, state.futures entry.1 ≠ .resolved result :=
  ((ordered_start tok).run events).queued key

theorem answered_alone (events : List (Event P K)) (harmless : tok.AllHarmless {} events) :
    let state := tok.run events
    (∀ future result, state.futures future = .resolved result →
      ∃ call, state.calls[future]? = some call ∧ result = tok.own call) ∧
    (∀ more future, state.futures future ≠ .pending →
      (tok.run (events ++ more)).futures future = state.futures future) ∧
    ∀ future < state.calls.length, ∃ key rounds, (tok.run (events ++
      (replicate rounds [.take key, .finish key]).flatten)).futures future ≠ .pending := by
  have start := ordered_start tok
  simp only [run, foldl_append]
  refine ⟨Right.run start (by simp [Right]) harmless, fun more future => run_done more, ?_⟩
  intro future made
  exact ⟨_, queue_drains (start.run events) (getElem?_eq_getElem made)⟩

/-- A tokenizer that returns an argument. -/
def echo : AsyncMicrobatchTokenizer Unit Nat (Option Nat) where
  maxBatchSize := 32
  modelMaxLength := none
  answer _ _ kwargs := .ok kwargs.others

def together (first second : Nat) : List (Event Unit Nat) :=
  [.call ⟨.encode, (), { others := first }⟩, .call ⟨.encode, (), { others := second }⟩,
    .take (.encode true false), .take (.encode true false), .finish (.encode true false)]

theorem answered_alone_same_kwargs : ∃ call, (echo.run (together 1 1)).calls[0]? = some call ∧
    .ok (some 1) = echo.own call := by
  have harmless : echo.AllHarmless {} (together 1 1) := by
    refine ⟨trivial, trivial, trivial, trivial, ?_, trivial⟩
    intro call mem
    fin_cases mem <;> exact ⟨nofun, fun _ _ _ _ last found => by cases found; rfl, fun _ => rfl⟩
  exact (answered_alone echo (together 1 1) harmless).1 0 _ rfl

/-- Of two prompts the first is encoded with the arguments of the second, and `decode` drops its
own. -/
theorem kwargs_not_own : (echo.run (together 1 2)).futures 0 = .resolved (.ok (some 2)) ∧
    (echo.run (together 1 2)).calls[0]?.map echo.own = some (.ok (some 1)) ∧
    (echo.run [.call ⟨.decode, (), { others := some 1 }⟩, .take .decode, .finish .decode]).futures
      0 = .resolved (.ok none) := by
  exact ⟨rfl, rfl, rfl⟩

end AsyncMicrobatchTokenizer
end Vllm.Microbatch
