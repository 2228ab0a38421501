import Vllm.Engine.Detokenizer
import Vllm.Lib.Run

/-! What a caller has been shown of a streamed text stays a prefix of it. A text is shown
only up to `stop_buffer_length` characters before its end, and a stop string found by an
update ends after the text the update started from, so it starts after what was shown. -/
namespace Vllm
open List hiding next
open Py Option Detokenizer

theorem strFind_some (negative : start < 0) (found : strFind text sub start = some i) :
    (text.length + start).toNat ≤ i ∧
      ∀ j < i, (text.length + start).toNat ≤ j → ¬ sub <+: text.drop j := by
  simp only [strFind, if_pos negative, find?_range'_eq_some] at found
  obtain ⟨-, listed, missed⟩ := found
  refine ⟨(mem_range'_1.mp listed).1, ?_⟩
  intro j before start occurs
  have starts := isPrefixOf_iff_prefix.mpr occurs
  simpa [starts] using missed j start before

/-- A stop string is found at its first occurrence that ends in the new characters. -/
theorem checkStopStrings_some (nonempty : ∀ stopStr ∈ stop, stopStr ≠ [])
    (within : offset ≤ text.length)
    (h : checkStopStrings text (text.length - offset) stop included = some (stopString,
      truncateTo)) : stopString ∈ stop ∧ ∃ i, offset < i + stopString.length ∧
      (∀ j < i, offset < j + stopString.length → ¬ stopString <+: text.drop j) ∧
      truncateTo = if included then
        if text.length ≤ i + stopString.length then none else some (i + stopString.length)
      else some i := by
  unfold checkStopStrings at h
  split at h
  · contradiction
  · rename_i searched
    obtain ⟨stopStr, mem, h⟩ := exists_of_findSome?_eq_some h
    obtain ⟨i, h, result⟩ := map_eq_some_iff.mp h
    have length : 0 < stopStr.length := length_pos_of_ne_nil (nonempty stopStr mem)
    obtain ⟨_, first⟩ := strFind_some (by omega) h
    have same : stopStr = stopString := by
      split at result <;> cases result <;> rfl
    subst same
    refine ⟨mem, i, by omega, ?_, by cases included <;> cases result <;> rfl⟩
    intro j before ends
    exact first j before (by omega)

/-- `stop_buffer_length` is enough for every stop string that is to be cut off. -/
theorem StopParams.length_le (params : StopParams) (mem : stopStr ∈ params.stop.toList)
    (excluded : params.includeStopStrInOutput = false) :
    stopStr.length ≤ params.stopBufferLength + 1 := by
  have longest : stopStr.length ≤ (params.stop.toList.map length).foldr max 0 :=
    le_max_of_le' 0 (mem_map_of_mem mem) (le_refl _)
  rw [stopBufferLength, if_pos ⟨ne_nil_of_mem mem, by simp [excluded]⟩]
  omega

namespace Detokenizer
variable {σ : Type} {params : StopParams} {decodeNext : List TokenId → σ → TokenId → Py (Text × σ)}
  {d e : Detokenizer σ} {newTokenIds : List TokenId} {stopTerminated : Bool} {offset : Nat}

/-- What the loop of `update` leaves: more text, and an offset in what was added. -/
structure Grown (d e : Detokenizer σ) (offset : Nat) : Prop where
  shown : e.lastOutputTextOffset = d.lastOutputTextOffset
  text : d.outputText <+: e.outputText
  after : d.outputText.length ≤ offset
  within : offset ≤ e.outputText.length

theorem Grown.append (grown : Grown d e offset)
    (h : append params decodeNext (e, offset) newTokenId = .ok next) : Grown d next.1 next.2 := by
  obtain ⟨⟨text, _⟩, -, h⟩ := bind_ok h
  cases h
  have longer := prefix_append e.outputText text
  have start := grown.after
  have ends := le_trans grown.within longer.length_le
  refine ⟨grown.shown, grown.text.trans longer, ?_, ?_⟩ <;> dsimp only <;> split <;> omega

theorem grown_of_detokenize
    (ran : d.detokenize params decodeNext newTokenIds stopTerminated = .ok (e, offset)) :
    Grown d e offset := by
  obtain ⟨last, looped, ran⟩ := bind_ok ran
  have grown : Grown d last.1 last.2 :=
    foldlM_invariant (fun current => Grown d current.1 current.2) (fun _ => Grown.append)
      ⟨rfl, prefix_refl _, le_refl _, le_refl _⟩ looped
  cases ran
  exact { grown with }

/-- No occurrence of the stop string in the text ends after the offset. -/
def Cleared (text : Text) (reported : Text × Nat) : Prop :=
  ∀ i, reported.1 <+: text.drop i → i + reported.1.length ≤ reported.2

/-- Text is only cut off from `stop_buffer_length` before the offset on. -/
theorem evaluateStop_some (within : offset ≤ d.outputText.length)
    (h : d.evaluateStop params offset = (some stopString, text)) :
    text <+: d.outputText ∧ offset - params.stopBufferLength ≤ text.length ∧
      (params.includeStopStrInOutput = false → Cleared text (stopString, offset)) := by
  unfold evaluateStop at h
  split at h
  · split at h <;> cases h
    · rename_i h
      obtain ⟨-, i, ends, -, kept⟩ := checkStopStrings_some params.stop_nonempty within h
      refine ⟨prefix_refl _, by omega, ?_⟩
      intro excluded
      simp [excluded] at kept
    · rename_i truncateTo h
      obtain ⟨mem, i, ends, first, kept⟩ :=
        checkStopStrings_some params.stop_nonempty within h
      have short := params.length_le mem
      refine ⟨?_, ?_, ?_⟩
      · exact take_prefix ..
      · rw [length_take]
        cases included : params.includeStopStrInOutput <;> grind
      · intro excluded j occurs
        simp only [excluded, Bool.false_eq_true, if_false, some.injEq] at kept
        by_contra later
        have nonempty := length_pos_of_ne_nil (params.stop_nonempty stopString mem)
        have bound := occurs.length_le
        simp only [length_drop, length_take] at bound
        refine first j (by omega) (by simpa using later) (occurs.trans ?_)
        rw [drop_take]
        exact take_prefix ..
  · cases h

theorem evaluateStop_none (h : d.evaluateStop params offset = (none, text)) :
    text = d.outputText := by
  unfold evaluateStop at h
  split at h
  · split at h <;> cases h
    rfl
  · cases h
    rfl

/-- A delta extends the deltas before it to all that may be shown. -/
theorem delta_spec (finished : Bool) {before : Text} (shown : before <+: d.outputText)
    (offset : before.length = d.lastOutputTextOffset) :
    before ++ (d.getNextOutputText params finished true).1 =
      d.outputText.take (max before.length (d.visible params finished)) ∧
    (d.getNextOutputText params finished true).2 =
      { d with lastOutputTextOffset := max before.length (d.visible params finished) } := by
  have isTake := prefix_iff_eq_take.mp shown
  simp only [getNextOutputText, Bool.not_true, Bool.false_eq_true, if_false, ← offset]
  split
  · rename_i more
    rw [max_eq_right (Nat.le_of_lt more)]
    refine ⟨?_, rfl⟩
    conv_rhs => rw [← take_append_drop before.length (d.outputText.take _)]
    rw [take_take, min_eq_left (Nat.le_of_lt more), ← isTake]
  · rename_i less
    rw [max_eq_left (Nat.le_of_not_lt less), append_nil]
    exact ⟨isTake, by rw [offset]⟩

end Detokenizer

/-- A detokenizer with what its caller has been given: the reported stop string with the
offset its search started from, the full texts, and the deltas joined. -/
structure Stream (σ : Type) where
  detokenizer : Detokenizer σ
  reported : Option (Text × Nat) := none
  snapshots : List Text := []
  deltas : Text := []

inductive StreamCall
  | update (newTokenIds : List TokenId) (stopTerminated : Bool)
  | getNextOutputText (delta : Bool)

namespace Stream

def start {σ : Type} (tokenIds : List TokenId) (decoder : σ) : Stream σ :=
  { detokenizer := { tokenIds, decoder } }

variable {σ : Type} (params : StopParams) (decodeNext : List TokenId → σ → TokenId → Py (Text × σ))

def call (s : Stream σ) : StreamCall → Py (Stream σ)
  | .update newTokenIds stopTerminated => do
    let (_, offset) ← s.detokenizer.detokenize params decodeNext newTokenIds stopTerminated
    let (found, detokenizer) ← s.detokenizer.update params decodeNext newTokenIds stopTerminated
    return { s with detokenizer, reported := found.map (·, offset) }
  | .getNextOutputText delta =>
    let (text, detokenizer) := s.detokenizer.getNextOutputText params false delta
    .ok (if delta then { s with detokenizer, deltas := s.deltas ++ text }
      else { s with detokenizer, snapshots := text :: s.snapshots })

/-- No update follows one that returned a stop string. -/
def Allowed (s : Stream σ) : StreamCall → Prop
  | .update .. => s.reported = none
  | .getNextOutputText _ => True

instance (s : Stream σ) (op : StreamCall) : Decidable (s.Allowed op) := by
  cases op <;> unfold Allowed <;> infer_instance

/-- How much of the text is never shown: until a stop string is reported, the buffer. -/
def hold (s : Stream σ) : Nat := if s.reported = none then params.stopBufferLength else 0

structure Kept (s : Stream σ) : Prop where
  offset : s.deltas.length = s.detokenizer.lastOutputTextOffset
  shown : ∀ text ∈ s.deltas :: s.snapshots, text <+: s.detokenizer.outputText ∧
    text.length ≤ s.detokenizer.outputText.length - s.hold params
  cleared : ∀ reported ∈ s.reported, params.includeStopStrInOutput = false →
    Detokenizer.Cleared s.detokenizer.outputText reported

variable {params decodeNext} {s next : Stream σ} {delta : Bool}

theorem Kept.evaluateStop {offset : Nat}
    (kept : s.Kept params) (unreported : s.reported = none) (grown : s.detokenizer.Grown e offset)
    (evaluated : e.evaluateStop params offset = (found, text)) : Kept params { s with
      detokenizer := { e with outputText := text }, reported := found.map (·, offset) } := by
  have within := grown.within
  have shown : ∀ shown ∈ s.deltas :: s.snapshots, shown <+: e.outputText ∧
      shown.length ≤ offset - params.stopBufferLength := by
    intro shown mem
    obtain ⟨isPrefix, short⟩ := kept.shown shown mem
    have := grown.after
    rw [hold, if_pos unreported] at short
    exact ⟨isPrefix.trans grown.text, by omega⟩
  cases found with
  | none =>
    obtain rfl := evaluateStop_none evaluated
    refine ⟨kept.offset.trans grown.shown.symm, ?_, by simp⟩
    intro text mem
    refine ⟨(shown text mem).1, Nat.le_trans (shown text mem).2 ?_⟩
    exact Nat.sub_le_sub_right within _
  | some stopString =>
    obtain ⟨shorter, longEnough, cleared⟩ := evaluateStop_some within evaluated
    refine ⟨kept.offset.trans grown.shown.symm, ?_, ?_⟩
    · intro shownText mem
      have long := Nat.le_trans (shown shownText mem).2 longEnough
      exact ⟨prefix_of_prefix_length_le (shown shownText mem).1 shorter long, long⟩
    · intro reported same
      cases same
      exact cleared

theorem Kept.getNextOutputText (kept : s.Kept params)
    (ran : s.call params decodeNext (.getNextOutputText delta) = .ok next) : next.Kept params := by
  have visible : s.detokenizer.visible params false ≤
      s.detokenizer.outputText.length - s.hold params := by
    refine Nat.sub_le_sub_left ?_ _
    unfold hold
    split <;> simp
  have first := kept.shown s.deltas (mem_cons_self ..)
  have others := fun text mem => kept.shown text (mem_cons_of_mem _ mem)
  have shown {n : Nat} : s.detokenizer.outputText.take n <+: s.detokenizer.outputText := take_prefix ..
  cases delta with
  | false =>
    cases ran
    have text := Nat.le_trans (length_take_le _ s.detokenizer.outputText) visible
    have snapshots := forall_mem_cons.mpr ⟨⟨shown, text⟩, others⟩
    exact ⟨kept.offset, forall_mem_cons.mpr ⟨first, snapshots⟩, kept.cleared⟩
  | true =>
    have effect : { s with
        detokenizer := (s.detokenizer.getNextOutputText params false true).2
        deltas := s.deltas ++ (s.detokenizer.getNextOutputText params false true).1 } = next :=
      Except.ok.inj ran
    obtain ⟨joined, frame⟩ := delta_spec false first.1 kept.offset
    have bound := max_le first.2 visible
    rw [← effect, frame, joined]
    refine ⟨length_take_of_le (by omega), ?_, kept.cleared⟩
    rw [forall_mem_cons]
    exact ⟨⟨shown, Nat.le_trans (length_take_le ..) bound⟩, others⟩

theorem Kept.call (kept : s.Kept params) (allowed : s.Allowed op)
    (ran : s.call params decodeNext op = .ok next) : next.Kept params := by
  cases op with
  | update newTokenIds stopTerminated =>
    obtain ⟨⟨e, _⟩, detokenized, ran⟩ := bind_ok ran
    obtain ⟨_, updated, ran⟩ := bind_ok ran
    cases ran
    unfold update at updated
    split at updated
    · cases updated
      obtain ⟨_, _⟩ := s
      cases allowed
      exact kept
    · rw [detokenized] at updated
      cases updated
      exact kept.evaluateStop allowed (grown_of_detokenize detokenized) rfl
  | getNextOutputText => exact kept.getNextOutputText ran

/-- In every sequence of calls, with any `decode_next`: a full text that was returned is a
prefix of the final text, the deltas with a last one add up to it, and it has no occurrence
of an excluded stop string that ends in the part the last update searched. -/
theorem streamed_text_not_retracted (tokenIds : List TokenId) (decoder : σ)
    {calls : List StreamCall} {reached : Stream σ}
    (allowed : Run.AllSteps (call params decodeNext) Allowed (start tokenIds decoder) calls)
    (ran : Run.run (call params decodeNext) (start tokenIds decoder) calls = .ok reached) :
    let last := reached.detokenizer
    (last.getNextOutputText params true false).1 = last.outputText ∧
    (∀ text ∈ reached.snapshots, text <+: last.outputText) ∧
    reached.deltas ++ (last.getNextOutputText params true true).1 = last.outputText ∧
    ∀ stopString offset, reached.reported = some (stopString, offset) →
      params.includeStopStrInOutput = false →
      ∀ i, stopString <+: last.outputText.drop i → i + stopString.length ≤ offset := by
  have kept := Run.run_invariant (Kept params) Kept.call ⟨rfl, by simp [start], by simp [start]⟩ allowed ran
  have first := (kept.shown _ (mem_cons_self ..)).1
  refine ⟨by simp [getNextOutputText, visible], ?_, ?_, ?_⟩
  · intro text mem
    exact (kept.shown text (mem_cons_of_mem _ mem)).1
  · rw [(delta_spec true first kept.offset).1]
    exact take_of_length_le (le_max_right ..)
  · intro stopString offset reported
    exact kept.cleared _ reported

def spellNext (_ : List TokenId) (_ : Unit) (id : TokenId) : Py (Text × Unit) :=
  .ok ([if id = 0 then 'a' else if id = 1 then 'b' else 'c'], ())

def stopAtAb : StopParams := ⟨.single ['a', 'b'], 1, false, 0, by simp [StopParam.toList]⟩

def spellCab : List StreamCall :=
  [.update [2] false, .getNextOutputText true, .update [0] false, .getNextOutputText true,
    .getNextOutputText false, .update [1] false]

/-- An update per letter of `"cab"` with the stop string `"ab"`. -/
theorem streamed_text_not_retracted_cab :
    ∃ reached, Run.run (call stopAtAb spellNext) (start [] ()) spellCab = .ok reached ∧
      reached.snapshots = [['c']] ∧ reached.reported = some (['a', 'b'], 2) ∧
      reached.deltas ++ (reached.detokenizer.getNextOutputText stopAtAb true true).1 = ['c'] := by
  have allowed : Run.AllSteps (call stopAtAb spellNext) Allowed (start [] ()) spellCab := by decide
  have ran : ∃ reached, Run.run (call stopAtAb spellNext) (start [] ()) spellCab = .ok reached ∧
      reached.snapshots = [['c']] ∧ reached.reported = some (['a', 'b'], 2) ∧
      reached.detokenizer.outputText = ['c'] := ⟨_, rfl, rfl, rfl, rfl⟩
  obtain ⟨reached, ran, snapshots, reported, text⟩ := ran
  have streamed := streamed_text_not_retracted [] () allowed ran
  exact ⟨reached, ran, snapshots, reported, streamed.2.2.1.trans text⟩

end Stream
end Vllm
