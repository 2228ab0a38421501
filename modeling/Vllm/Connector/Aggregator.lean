import Vllm.Lib.Dict
import Vllm.Python

/-! How `KVOutputAggregator` merges the outputs of all workers. Each worker reports a transfer once
when it has finished its part, in any call; the merged output is to report it when the last worker
has done so. -/
namespace Vllm.Connector
open List hiding next
open Py Dict

/-- A set is a list of its elements in the order of iteration. -/
structure KVConnectorOutput where
  finishedSending : Option (List String) := none
  finishedRecving : Option (List String) := none
  invalidBlockIds : List Nat := []
  expectedFinishedCount : Nat := 0

abbrev ModelRunnerOutput := Option KVConnectorOutput

abbrev Outputs := List (Option ModelRunnerOutput)

abbrev Side := KVConnectorOutput → Option (List String)

open KVConnectorOutput (finishedSending finishedRecving)

structure KVOutputAggregator where
  recvRemainingCount : Dict String Int := .empty
  sendRemainingCount : Dict String Int := .empty
  expectedFinishedCount : Nat

section
variable (expected : Nat) (reqIds : Option (List String)) (state : Dict String Int × List String)

/-- One round of `update_finished_set`. -/
def countDown (reqId : String) : Dict String Int × List String :=
  let remainingCount := (state.1.get? reqId).getD expected - 1
  if remainingCount = 0 then
    ((state.1.set reqId remainingCount).erase reqId, state.2.insert reqId)
  else (state.1.set reqId remainingCount, state.2)

def updateFinishedSet : Dict String Int × List String :=
  (reqIds.getD []).foldl (countDown expected) state

end

structure Merging where
  sending : Dict String Int × List String
  recving : Dict String Int × List String
  invalidBlockIds : List Nat := []
  expectedFinishedCount : Nat

def mergeOutput (state : Merging) : Option ModelRunnerOutput → Py Merging
  | none => .error (.assertionError "")
  | some none => .ok state
  | some (some output) =>
    let expected := if output.expectedFinishedCount > 0 then output.expectedFinishedCount
      else state.expectedFinishedCount
    .ok {
      sending := updateFinishedSet expected output.finishedSending state.sending
      recving := updateFinishedSet expected output.finishedRecving state.recving
      invalidBlockIds := state.invalidBlockIds ∪ output.invalidBlockIds
      expectedFinishedCount := expected }

def KVOutputAggregator.merging (aggregator : KVOutputAggregator) : Merging where
  sending := (aggregator.sendRemainingCount, [])
  recving := (aggregator.recvRemainingCount, [])
  expectedFinishedCount := aggregator.expectedFinishedCount

/-- `finished or None`. -/
def orNone (finished : List String) : Option (List String) :=
  if finished = [] then none else some finished

def Merging.output (state : Merging) : KVConnectorOutput where
  finishedSending := orNone state.sending.2
  finishedRecving := orNone state.recving.2
  invalidBlockIds := state.invalidBlockIds
  expectedFinishedCount := state.expectedFinishedCount

def KVOutputAggregator.aggregate (aggregator : KVOutputAggregator)
    (outputs : Outputs) (outputRank : Nat) :
    Py (KVOutputAggregator × Option KVConnectorOutput) :=
  match outputs[outputRank]? with
  | none => .error (.indexError "list index out of range")
  | some none => .ok (aggregator, none)
  | some (some _) => do
    let state ← outputs.foldlM mergeOutput aggregator.merging
    .ok (⟨state.recving.1, state.sending.1, state.expectedFinishedCount⟩, some state.output)

def aggregateAll (outputRank : Nat) :
    KVOutputAggregator → List Outputs → Py (List (Option KVConnectorOutput))
  | _, [] => .ok []
  | aggregator, call :: calls => do
    let (aggregator, output) ← aggregator.aggregate call outputRank
    let outputs ← aggregateAll outputRank aggregator calls
    .ok (output :: outputs)

def idsOf (side : Side) (entry : Option ModelRunnerOutput) : List String :=
  (entry.join.bind side).getD []

def reported (side : Side) (calls : List Outputs) : List String :=
  calls.flatMap (·.flatMap (idsOf side))

/-- Who reports what: the requests with the workers. -/
def reports (side : Side) (calls : List Outputs) : List (String × Nat) :=
  calls.flatMap (·.zipIdx.flatMap (fun (entry, worker) => (idsOf side entry).map (·, worker)))

/-- There is an output of each of the `n` workers, and none of them changes the number of reports
to wait for. Either no worker has an output or all have. -/
def Regular (n : Nat) (call : Outputs) : Prop :=
  call.length = n ∧
    (∀ entry ∈ call, ∀ output ∈ entry.join, output.expectedFinishedCount ∈ [0, n]) ∧
    ((∀ entry ∈ call, entry = none) ∨ ∀ entry ∈ call, entry ≠ none)

instance : Decidable (Regular n call) := by
  unfold Regular
  infer_instance

section
variable (n : Nat) (side : Side) (prior : List Outputs) (call : Outputs)
  (output : Option KVConnectorOutput)

/-- An output reports the transfers whose last report is in its call. -/
def Completes : Prop :=
  ∀ reqId, reqId ∈ (output.bind side).getD [] ↔ (reported side prior).count reqId < n ∧
    (reported side (prior ++ [call])).count reqId = n

/-- An output has the invalid blocks of the outputs in its call. -/
def Invalidates : Prop :=
  ∀ block, block ∈ (output.map KVConnectorOutput.invalidBlockIds).getD [] ↔
    ∃ entry ∈ call, ∃ reply ∈ entry.join, block ∈ reply.invalidBlockIds

end

section Counting
variable {n : Nat} {past : List String} {remaining : Dict String Int} {reqId : String}

/-- The number of reports to wait for, once there was one and until there were all. -/
def Tracks (n : Nat) (past : List String) (remaining : Dict String Int) : Prop :=
  ∀ reqId, remaining.get? reqId =
    if past.count reqId = 0 ∨ past.count reqId = n then none else some ((n : Int) - past.count reqId)

/-- One more report. -/
theorem Tracks.countDown (tracks : Tracks n past remaining) (room : past.count reqId < n)
    (finished : List String) :
    Tracks n (past ++ [reqId]) (countDown n (remaining, finished) reqId).1 ∧
      ∀ other, other ∈ (Connector.countDown n (remaining, finished) reqId).2 ↔
        other ∈ finished ∨ other = reqId ∧ past.count reqId + 1 = n := by
  have left : (remaining.get? reqId).getD (n : Int) = n - past.count reqId := by
    rw [tracks reqId]
    split
    · simp
      omega
    · rfl
  have count (other : String) : (past ++ [reqId]).count other =
      past.count other + if other = reqId then 1 else 0 := by
    rw [count_append, count_singleton]
    simp [@eq_comm _ reqId]
  have zero : (n : Int) - past.count reqId - 1 = 0 ↔ past.count reqId + 1 = n := by omega
  simp only [Connector.countDown, left, zero]
  constructor
  · intro other
    rw [count]
    by_cases same : other = reqId
    · subst same
      split
      · simp [*]
      · simp [*]
        omega
    · split <;> simp [same, tracks other]
  · intro other
    split <;> simp [*, or_comm]

/-- The reports `now` of a call. -/
theorem Tracks.call (tracks : Tracks n past remaining)
    (room : ∀ reqId, (past ++ now).count reqId ≤ n) :
    Tracks n (past ++ now) (now.foldl (Connector.countDown n) (remaining, [])).1 ∧
      ∀ reqId, reqId ∈ (now.foldl (Connector.countDown n) (remaining, [])).2 ↔
        past.count reqId < n ∧ (past ++ now).count reqId = n := by
  apply foldl_items (fun (prior : List String) (state : Dict String Int × List String) =>
    Tracks n (past ++ prior) state.1 ∧ ∀ reqId, reqId ∈ state.2 ↔
      past.count reqId < n ∧ (past ++ prior).count reqId = n)
  · intro prior item _ state split ⟨tracks, counted⟩
    have room : (past ++ prior).count item < n := by
      have room := room item
      simp only [split, count_append, count_cons_self] at room ⊢
      omega
    obtain ⟨tracks, finished⟩ := tracks.countDown room state.2
    constructor
    · simpa using tracks
    · intro reqId
      rw [finished, counted]
      by_cases same : reqId = item
      · subst same
        simp only [count_append, count_singleton_self, true_and] at room ⊢
        omega
      · simp [count_append, same, Ne.symm same]
  · refine ⟨(append_nil past).symm ▸ tracks, ?_⟩
    simpa using fun _ => Nat.ne_of_lt

end Counting

variable {n rank : Nat} {side : Side} {call : Outputs} {calls : List Outputs}

theorem reported_concat (calls : List Outputs) (call : Outputs) :
    reported side (calls ++ [call]) = reported side calls ++ call.flatMap (idsOf side) := by
  simp [reported]

theorem map_reports : (reports side calls).map Prod.fst = reported side calls := by
  have each (call : Outputs) : (call.zipIdx.flatMap (fun (entry, worker) =>
      (idsOf side entry).map (·, worker))).map Prod.fst = call.flatMap (idsOf side) := by
    conv_rhs => rw [← zipIdx_map_fst 0 call, flatMap_map]
    simp [map_flatMap, Function.comp_def]
  simp only [reports, map_flatMap, each, reported]

/-- Workers that report a request at most once report it at most `n` times together. -/
theorem count_reported_le (full : ∀ call ∈ calls, call.length = n) (once : (reports side calls).Nodup)
    (reqId : String) : (reported side calls).count reqId ≤ n := by
  have workers : ((reports side calls).filter (·.1 == reqId)).map Prod.snd ⊆ range n := by
    intro worker listed
    obtain ⟨⟨_, _⟩, kept, rfl⟩ := mem_map.mp listed
    obtain ⟨call, mem, listed⟩ := mem_flatMap.mp (mem_filter.mp kept).1
    obtain ⟨⟨_, worker⟩, placed, listed⟩ := mem_flatMap.mp listed
    obtain ⟨_, -, same⟩ := mem_map.mp listed
    cases same
    rw [mem_range, ← full call mem]
    exact snd_lt_of_mem_zipIdx placed
  have distinct : (((reports side calls).filter (·.1 == reqId)).map Prod.snd).Nodup := by
    refine (once.filter _).map_on ?_
    rintro ⟨_, _⟩ one ⟨_, _⟩ other rfl
    simp_all
  have bound := (distinct.subperm workers).length_le
  rw [length_map, length_range, ← countP_eq_length_filter] at bound
  rwa [← map_reports, count, countP_map]

theorem getD_orNone (finished : List String) : (orNone finished).getD [] = finished := by
  unfold orNone
  split <;> simp [*]

/-- The loop takes the reports of all outputs in their order. -/
theorem merge_ok (fixed : ∀ entry ∈ call, ∀ output ∈ entry.join, output.expectedFinishedCount ∈ [0, n])
    (everybody : ∀ entry ∈ call, entry ≠ none) (state : Merging)
    (expected : state.expectedFinishedCount = n) :
    ∃ last, call.foldlM mergeOutput state = .ok last ∧ last.expectedFinishedCount = n ∧
      last.sending = (call.flatMap (idsOf finishedSending)).foldl (countDown n) state.sending ∧
      last.recving = (call.flatMap (idsOf finishedRecving)).foldl (countDown n) state.recving ∧
      ∀ block, block ∈ last.invalidBlockIds ↔ block ∈ state.invalidBlockIds ∨
        ∃ entry ∈ call, ∃ reply ∈ entry.join, block ∈ reply.invalidBlockIds := by
  induction call generalizing state with
  | nil => exact ⟨state, rfl, expected, rfl, rfl, by simp⟩
  | cons entry call ih =>
    obtain ⟨here, others⟩ := forall_mem_cons.mp everybody
    obtain ⟨constant, later⟩ := forall_mem_cons.mp fixed
    rcases entry with _ | _ | output
    · exact absurd rfl here
    · simpa [idsOf, mergeOutput, ok_bind] using ih later others state expected
    · have same : (if output.expectedFinishedCount > 0 then output.expectedFinishedCount
          else state.expectedFinishedCount) = n := by
        have constant := constant output rfl
        simp only [mem_cons, not_mem_nil, or_false] at constant
        split <;> omega
      obtain ⟨last, ran, rest⟩ := ih later others {
        sending := updateFinishedSet n output.finishedSending state.sending
        recving := updateFinishedSet n output.finishedRecving state.recving
        invalidBlockIds := state.invalidBlockIds ∪ output.invalidBlockIds
        expectedFinishedCount := n } rfl
      refine ⟨last, ?_, ?_⟩
      · simp only [foldlM_cons, mergeOutput, same]
        exact ran
      · simpa [idsOf, updateFinishedSet, or_assoc] using rest

/-- A regular call returns, having counted the reports of all workers. -/
theorem aggregate_ok {aggregator : KVOutputAggregator} (inside : rank < n)
    (expected : aggregator.expectedFinishedCount = n) (regular : Regular n call) :
    ∃ sending recving output, aggregator.aggregate call rank =
        .ok (⟨recving.1, sending.1, n⟩, output) ∧
      sending = (call.flatMap (idsOf finishedSending)).foldl (countDown n)
        (aggregator.sendRemainingCount, []) ∧
      recving = (call.flatMap (idsOf finishedRecving)).foldl (countDown n)
        (aggregator.recvRemainingCount, []) ∧ (output.bind finishedSending).getD [] = sending.2 ∧
      (output.bind finishedRecving).getD [] = recving.2 ∧ Invalidates call output := by
  obtain ⟨length, fixed, together⟩ := regular
  have here := getElem?_eq_getElem (length.symm ▸ inside)
  have listed := mem_of_getElem? here
  rcases together with nobody | everybody
  · have nothing (side : Side) : call.flatMap (idsOf side) = [] := by
      refine flatMap_eq_nil_iff.mpr (fun entry mem => ?_)
      rw [nobody entry mem]
      rfl
    refine ⟨_, _, none, ?_, by rw [nothing], by rw [nothing], rfl, rfl, ?_⟩
    · simp only [KVOutputAggregator.aggregate, here, nobody _ listed, ← expected, foldl_nil]
    · intro _
      simp only [Option.map_none, Option.getD_none, not_mem_nil, false_iff, not_exists, not_and]
      intro entry mem _ replied
      rw [nobody entry mem] at replied
      cases replied
  · obtain ⟨last, ran, count, sending, recving, invalid⟩ :=
      merge_ok fixed everybody aggregator.merging expected
    obtain ⟨_, owned⟩ := Option.ne_none_iff_exists'.mp (everybody _ listed)
    refine ⟨last.sending, last.recving, some last.output, ?_, sending, recving, getD_orNone _,
      getD_orNone _, ?_⟩
    · simp only [KVOutputAggregator.aggregate, here, owned, ran, ok_bind, count]
    · simpa [Invalidates, Merging.output, KVOutputAggregator.merging] using invalid

theorem aggregateAll_ok {aggregator : KVOutputAggregator} (inside : rank < n)
    (expected : aggregator.expectedFinishedCount = n) (prior : List Outputs)
    (send : Tracks n (reported finishedSending prior) aggregator.sendRemainingCount)
    (recv : Tracks n (reported finishedRecving prior) aggregator.recvRemainingCount)
    (regular : ∀ call ∈ prior ++ calls, Regular n call)
    (sends : (reports finishedSending (prior ++ calls)).Nodup)
    (receives : (reports finishedRecving (prior ++ calls)).Nodup) :
    ∃ outputs, aggregateAll rank aggregator calls = .ok outputs ∧
      ∀ j call, calls[j]? = some call → ∃ output, outputs[j]? = some output ∧
        Completes n finishedSending (prior ++ calls.take j) call output ∧
        Completes n finishedRecving (prior ++ calls.take j) call output ∧
        Invalidates call output := by
  induction calls generalizing aggregator prior with
  | nil => exact ⟨[], rfl, by simp⟩
  | cons call calls ih =>
    have room {side : Side} (once : (reports side (prior ++ call :: calls)).Nodup)
        (reqId : String) : (reported side prior ++ call.flatMap (idsOf side)).count reqId ≤ n := by
      have most := count_reported_le (fun call listed => (regular call listed).1) once reqId
      simp only [reported, flatMap_append, flatMap_cons, count_append] at most ⊢
      omega
    obtain ⟨_, _, output, called, rfl, rfl, sending, recving, invalid⟩ :=
      aggregate_ok inside expected (regular call (by simp))
    obtain ⟨sent, finishedSent⟩ := send.call (room sends)
    obtain ⟨received, finishedReceived⟩ := recv.call (room receives)
    rw [← reported_concat] at sent received
    rw [append_cons] at regular sends receives
    obtain ⟨outputs, ran, each⟩ :=
      @ih ⟨_, _, n⟩ rfl (prior ++ [call]) sent received regular sends receives
    refine ⟨output :: outputs, ?_, ?_⟩
    · simp only [aggregateAll, called, ok_bind, ran]
    · intro j next found
      cases j with
      | zero =>
        cases found
        refine ⟨output, rfl, ?_, ?_, invalid⟩
        · simpa [Completes, reported_concat, sending] using finishedSent
        · simpa [Completes, reported_concat, recving] using finishedReceived
      | succ j => simpa using each j next found

/-- Outputs of calls in which no worker or every worker has one: each reports the transfers whose
`n`th report is in its call and no other, and every invalid block. -/
theorem transfers_reported_once (n rank : Nat) (inside : rank < n) (calls : List Outputs)
    (regular : ∀ call ∈ calls, Regular n call) (sends : (reports finishedSending calls).Nodup)
    (receives : (reports finishedRecving calls).Nodup) :
    ∃ outputs, aggregateAll rank { expectedFinishedCount := n } calls = .ok outputs ∧
      ∀ j call, calls[j]? = some call → ∃ output, outputs[j]? = some output ∧
        Completes n finishedSending (calls.take j) call output ∧
        Completes n finishedRecving (calls.take j) call output ∧ Invalidates call output := by
  have fresh : Tracks n [] .empty := by
    intro _
    simp
  exact aggregateAll_ok inside rfl [] fresh fresh regular sends receives

def sentA : Option ModelRunnerOutput := some (some { finishedSending := some ["a"] })

/-- The second of two workers reports the transfer a call later. -/
theorem transfers_reported_once_pair : ∃ outputs, aggregateAll 0 { expectedFinishedCount := 2 }
      [[sentA, some none], [some none, sentA]] = .ok outputs ∧
      ∃ output, outputs[1]? = some output ∧ "a" ∈ (output.bind finishedSending).getD [] := by
  obtain ⟨outputs, ran, each⟩ := transfers_reported_once 2 0 (by decide)
    [[sentA, some none], [some none, sentA]] (by decide) (by decide) (by decide)
  obtain ⟨output, found, sent, -⟩ := each 1 _ rfl
  exact ⟨outputs, ran, output, found, (sent "a").mpr (by decide)⟩

/-- The first of two pipeline ranks has no output of its own. The report of the second is lost with
rank 0 as the output rank, and with rank 1 the call raises. -/
theorem transfer_lost :
    (KVOutputAggregator.aggregate { expectedFinishedCount := 2 } [none, sentA] 0).toOption.map
        (fun (aggregator, output) => (aggregator.sendRemainingCount.get? "a", output.isNone)) =
      some (none, true) ∧
    raised? (KVOutputAggregator.aggregate { expectedFinishedCount := 2 } [none, sentA] 1) =
      some (.assertionError "") := by
  decide

end Vllm.Connector
