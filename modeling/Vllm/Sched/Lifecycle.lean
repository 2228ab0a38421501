import Vllm.Sched.Partition
import Vllm.Sched.Outcomes

/-! What no call changes: request objects keep their adapter, the queues hold objects that
were created, and a pass only moves requests between the queues. -/
namespace Vllm
open List hiding next
variable {H K M : Type} {cfg : SchedulerConfig H K M} {ref : Ref}

namespace Scheduler
variable {sched next : Scheduler H K} {held : List Ref}

def places (sched : Scheduler H K) (held : List Ref) : List Ref :=
  sched.running ++ sched.outside held

structure Stored (sched : Scheduler H K) (held : List Ref) : Prop where
  queued : ∀ ref ∈ sched.places held, ref < sched.numObjects
  named : ∀ id ref, sched.requests.get? id = some ref → ref < sched.numObjects

theorem Moves.places (moves : Moves sched held ref next heldNext) :
    (next.places heldNext).Perm (sched.places held) := by
  have place := moves.place
  unfold Scheduler.places
  generalize next.status ref = status, next.running = running at place ⊢
  cases place with
  | stays same | waits _ _ same => exact same.append_left _
  | leaves left entered =>
    exact (entered.append_left _).trans (perm_middle.trans (left.symm.append_right _))
  | enters entered left =>
    exact (entered.append_right _).trans (perm_middle.symm.trans (left.symm.append_left _))

end Scheduler

namespace Pass
open Scheduler
variable {pass next : Pass H K}

/-- A change of a pass that only moves requests and leaves their adapters alone. -/
structure Rearranged (pass next : Pass H K) : Prop where
  loras : ∀ ref, (next.scheduler.objects ref).loraRequest = (pass.scheduler.objects ref).loraRequest
  requests : next.scheduler.requests = pass.scheduler.requests
  numObjects : next.scheduler.numObjects = pass.scheduler.numObjects
  places : (next.scheduler.places next.stepSkippedWaiting).Perm
    (pass.scheduler.places pass.stepSkippedWaiting)

theorem Rearranged.refl (pass : Pass H K) : Rearranged pass pass := ⟨fun _ => rfl, rfl, rfl, .refl _⟩

theorem Rearranged.trans (first : Rearranged pass next) (second : Rearranged next third) :
    Rearranged pass third where
  loras ref := (second.loras ref).trans (first.loras ref)
  requests := second.requests.trans first.requests
  numObjects := second.numObjects.trans first.numObjects
  places := second.places.trans first.places

theorem Moved.rearranged (moved : Moved pass next) : Rearranged pass next := by
  obtain ⟨ref, moves⟩ := moved
  refine ⟨fun other => ?_, moves.requests, moves.numObjects, moves.places⟩
  by_cases same : other = ref
  · rw [same, moves.text]
  · rw [moves.others other same]

theorem rearranged_of_moved (path : Relation.ReflTransGen Moved pass next) : Rearranged pass next :=
  steps_keep (Rearranged pass) (fun moved kept => kept.trans moved.rearranged) path (.refl _)

end Pass

namespace Scheduler
variable {sched next : Scheduler H K}

/-- What every call but `schedule` does: requests only leave the running queue, objects
keep their adapter, and the queues still hold objects that were created. -/
structure Keeps (sched next : Scheduler H K) : Prop where
  loras : ∀ ref, ref < sched.numObjects →
    (next.objects ref).loraRequest = (sched.objects ref).loraRequest
  running : ∀ ref ∈ next.running, ref ∈ sched.running
  stored : sched.Stored [] → next.Stored []

/-- What is left of a queue was in it. -/
theorem mem_of_removeAll (h : ref ∈ removeAll list items) : ref ∈ list := by
  unfold removeAll at h
  split at h
  · exact h
  · exact mem_of_mem_erase h
  · exact (mem_filter.mp h).1

theorem mem_of_removeRequests {lt : Ref → Ref → Bool} {queue : RequestQueue}
    (mem : ref ∈ RequestQueue.removeRequests policy lt queue items) : ref ∈ queue :=
  (mem_filter.mp ((RequestQueue.removeRequests_perm queue items).mem_iff.mp mem)).1

theorem Registers.keeps (registers : Registers sched req next) : Keeps sched next := by
  have rest := registers.rest
  have numObjects : next.numObjects = sched.numObjects + 1 := by rw [rest]
  have running : next.running = sched.running := by rw [rest]
  have queued := registers.queued
  constructor
  · intro other bound
    rw [registers.others other (Nat.ne_of_lt bound)]
  · intro other mem
    rw [running] at mem
    exact mem
  · intro before
    constructor
    · intro other mem
      rw [numObjects]
      rw [places, outside, append_nil, mem_append, queued.mem_iff, running, mem_cons] at mem
      have older (inside : other ∈ sched.places []) : other < sched.numObjects + 1 :=
        Nat.lt_succ_of_lt (before.queued other inside)
      rcases mem with inRunning | rfl | inWaiting
      · exact older (mem_append_left _ inRunning)
      · exact Nat.lt_succ_self _
      · refine older (mem_append_right _ ?_)
        rw [outside, append_nil]
        exact inWaiting
    · intro id other found
      rw [rest] at found
      rw [numObjects]
      simp only [Dict.get?_set] at found
      split at found
      · cases found
        exact Nat.lt_succ_self _
      · exact Nat.lt_succ_of_lt (before.named id other found)

end Scheduler

/-! What the calls make of one request object. Whatever the scheduler does, a request goes
through a path of these changes: its counts and its queue change, a token is appended and
tested, or a session waits for its next input and goes on. -/
open Relation Py

inductive RequestStep (cfg : SchedulerConfig H K M) : Request H → Request H → Prop
  /-- A finished request stays finished, and none starts to wait for input here. -/
  | moves {req next} (same : SameText req next)
      (status : next.status = req.status ∨ next.isFinished = true ∨
        req.isFinished = false ∧ next.status ≠ .waitingForStreamingReq) :
      RequestStep cfg req next
  | appends {req token stop}
      (checked : checkStop (req.appendOutputTokenIds cfg.hasher [token])
        cfg.maxModelLen = .ok stop) :
      RequestStep cfg req { req.appendOutputTokenIds cfg.hasher [token] with
        status := stop.getD req.status }
  | idles {req} (resumable : req.resumable = true) :
      RequestStep cfg req { req with status := .waitingForStreamingReq }
  | continues {req update next}
      (session : req.resumable = true ∨ req.status = .waitingForStreamingReq)
      (updated : updateRequestAsSession cfg.hasher req update = .ok next) :
      RequestStep cfg req next

abbrev Evolves (cfg : SchedulerConfig H K M) : Request H → Request H → Prop :=
  ReflTransGen (RequestStep cfg)

theorem Evolves.counts (same : SameText req next) (status : next.status = req.status) :
    Evolves cfg req next :=
  .single (.moves same (.inl status))

theorem Evolves.loraRequest (evolves : Evolves cfg req next) :
    next.loraRequest = req.loraRequest := by
  induction evolves with
  | refl => rfl
  | tail _ step ih =>
    rw [← ih]
    cases step with
    | moves same => rw [same]
    | appends => rw [appendOutputTokenIds_eq]
    | idles => rfl
    | continues _ updated => exact (Scheduler.updateRequestAsSession_ok updated).2.1

/-- A request that is not a session takes no further input. -/
abbrev Request.Single (req : Request H) : Prop :=
  req.resumable = false ∧ req.status ≠ .waitingForStreamingReq

theorem Evolves.history (evolves : Evolves cfg req next) (single : req.Single) :
    next.Single ∧ req.allTokenIds <+: next.allTokenIds ∧
      (req.isFinished = true → next.isFinished = true) := by
  induction evolves with
  | refl => exact ⟨single, prefix_rfl, id⟩
  | tail _ step ih =>
    obtain ⟨⟨resumable, fed⟩, kept, final⟩ := ih
    cases step with
    | moves same status =>
      refine ⟨⟨by rw [same, resumable], ?_⟩, by rwa [same], ?_⟩ <;>
        grind [Request.isFinished, RequestStatus.isFinished, RequestStatus.value]
    | @appends token stop checked =>
      rw [appendOutputTokenIds_eq]
      have longer := kept.trans (prefix_append _ [token])
      cases stop with
      | none => exact ⟨⟨resumable, fed⟩, longer, final⟩
      | some status =>
        have stopped := checkStop_finished checked
        exact ⟨⟨resumable, by rintro rfl; cases stopped⟩, longer, fun _ => stopped⟩
    | idles | continues => grind

/-- The tokens of a step are appended one by one. -/
theorem appendOutput_evolves
    (h : appendOutput cfg tokens req = .ok ((kept, stopped), last)) :
    Evolves cfg req last := by
  induction tokens generalizing req kept with
  | nil =>
    cases h
    exact .refl
  | cons token rest ih =>
    rw [appendOutput] at h
    obtain ⟨stop, checked, h⟩ := bind_ok h
    have step := RequestStep.appends checked
    cases stop with
    | some status =>
      cases h
      exact .single step
    | none =>
      obtain ⟨⟨⟨keptRest, stoppedRest⟩, lastRest⟩, later, h⟩ := bind_ok h
      cases h
      have same := appendOutputTokenIds_eq cfg.hasher req [token]
      have status : (req.appendOutputTokenIds cfg.hasher [token]).status = req.status := by
        rw [same]
      have unchanged : { req.appendOutputTokenIds cfg.hasher [token] with
          status := req.status } = req.appendOutputTokenIds cfg.hasher [token] := by
        rw [← status]
      simp only [Option.getD_none, unchanged] at step
      exact .head step (ih later)

namespace Scheduler
variable {sched next : Scheduler H K}

structure Evolve (cfg : SchedulerConfig H K M) (sched next : Scheduler H K) : Prop where
  numObjects : next.numObjects = sched.numObjects
  requests : ∀ ref, Evolves cfg (sched.objects ref) (next.objects ref)

namespace Evolve

theorem trans (first : Evolve cfg sched next) (second : Evolve cfg next third) :
    Evolve cfg sched third where
  numObjects := second.numObjects.trans first.numObjects
  requests ref := (first.requests ref).trans (second.requests ref)

theorem of_objects (numObjects : next.numObjects = sched.numObjects)
    (objects : next.objects = sched.objects) : Evolve cfg sched next where
  numObjects := numObjects
  requests ref := by
    rw [objects]

theorem of_one (numObjects : next.numObjects = sched.numObjects)
    (others : ∀ other, other ≠ ref → next.objects other = sched.objects other)
    (req : Evolves cfg (sched.objects ref) (next.objects ref)) :
    Evolve cfg sched next where
  numObjects := numObjects
  requests other := by
    by_cases same : other = ref
    · rw [same]
      exact req
    · rw [others other same]

theorem modify (ref : Ref) (change : Request H → Request H)
    (req : Evolves cfg (sched.objects ref) (change (sched.objects ref))) :
    Evolve cfg sched (sched.modify ref change) := by
  refine of_one rfl (fun other ne => modify_objects_of_ne _ _ ne) ?_
  rw [modify_objects_self]
  exact req

end Evolve

/-- What every call but `schedule` does to the requests that exist: they evolve, they only
leave the running queue, and the queues still hold objects that were created. -/
structure Changes (cfg : SchedulerConfig H K M) (sched next : Scheduler H K) : Prop
    extends Evolve cfg sched next where
  running : ∀ ref ∈ next.running, ref ∈ sched.running
  stored : sched.Stored [] → next.Stored []

namespace Changes

theorem trans (first : Changes cfg sched next) (second : Changes cfg next third) :
    Changes cfg sched third where
  toEvolve := first.toEvolve.trans second.toEvolve
  running ref mem := first.running ref (second.running ref mem)
  stored before := second.stored (first.stored before)

/-- What is queued or named was queued or named before. -/
theorem of_places (evolve : Evolve cfg sched next)
    (running : ∀ ref ∈ next.running, ref ∈ sched.running)
    (places : ∀ ref ∈ next.places [], ref ∈ sched.places [] ∨
      ∃ id, sched.requests.get? id = some ref)
    (requests : ∀ id ref, next.requests.get? id = some ref →
      sched.requests.get? id = some ref) : Changes cfg sched next where
  toEvolve := evolve
  running := running
  stored before := by
    constructor
    · intro ref mem
      rw [evolve.numObjects]
      obtain queued | ⟨id, named⟩ := places ref mem
      · exact before.queued ref queued
      · exact before.named id ref named
    · intro id ref found
      rw [evolve.numObjects]
      exact before.named id ref (requests id ref found)

/-- The queues and the names are the same. -/
theorem of_evolve (evolve : Evolve cfg sched next) (same : next = { next with
      requests := sched.requests
      running := sched.running
      waiting := sched.waiting
      skippedWaiting := sched.skippedWaiting }) : Changes cfg sched next := by
  refine of_places evolve ?_ ?_ ?_ <;> rw [same]
  · exact fun _ mem => mem
  · exact fun _ mem => .inl mem
  · exact fun _ _ found => found

/-- Neither the requests nor the queues change. -/
theorem of_rest (same : next = { next with
      objects := sched.objects
      numObjects := sched.numObjects
      requests := sched.requests
      running := sched.running
      waiting := sched.waiting
      skippedWaiting := sched.skippedWaiting }) : Changes cfg sched next :=
  of_evolve (.of_objects (by rw [same]) (by rw [same])) (by rw [same])

theorem refl (sched : Scheduler H K) : Changes cfg sched sched := of_rest rfl

variable (ref : Ref) (change : Request H → Request H)

theorem modify (req : Evolves cfg (sched.objects ref) (change (sched.objects ref))) :
    Changes cfg sched (sched.modify ref change) :=
  of_evolve (.modify ref change req) rfl

theorem counts (same : SameText (sched.objects ref) (change (sched.objects ref)))
    (status : (change (sched.objects ref)).status = (sched.objects ref).status) :
    Changes cfg sched (sched.modify ref change) :=
  modify ref change (.counts same status)

theorem erases {id : String} (objects : next.objects = sched.objects) (same : next = { next with
      numObjects := sched.numObjects
      requests := sched.requests.erase id
      running := sched.running
      waiting := sched.waiting
      skippedWaiting := sched.skippedWaiting }) : Changes cfg sched next := by
  refine of_places (.of_objects (by rw [same]) objects) ?_ ?_ ?_ <;> rw [same]
  · exact fun _ mem => mem
  · exact fun _ mem => .inl mem
  · intro _ _ found
    rw [Dict.get?_erase] at found
    split at found
    · cases found
    · exact found

theorem keeps (changes : Changes cfg sched next) : Keeps sched next where
  loras ref _ := (changes.requests ref).loraRequest
  running := changes.running
  stored := changes.stored

end Changes

/-- Changes that also keep the queues a partition. -/
structure Steady (cfg : SchedulerConfig H K M) (sched next : Scheduler H K) : Prop
    extends Changes cfg sched next where
  partitioned : Partitioned sched [] → Partitioned next []

namespace Steady

theorem trans (first : Steady cfg sched next) (second : Steady cfg next third) :
    Steady cfg sched third where
  toChanges := first.toChanges.trans second.toChanges
  partitioned before := second.partitioned (first.partitioned before)

theorem of_rest (same : next = { next with
      objects := sched.objects
      numObjects := sched.numObjects
      requests := sched.requests
      running := sched.running
      waiting := sched.waiting
      skippedWaiting := sched.skippedWaiting }) : Steady cfg sched next where
  toChanges := .of_rest same
  partitioned before := by
    rw [same]
    exact before.congr rfl rfl (fun _ => rfl) (fun _ => rfl) (.refl _) (.refl _)

theorem refl (sched : Scheduler H K) : Steady cfg sched sched := of_rest rfl

theorem counts (ref : Ref) (change : Request H → Request H)
    (same : SameText (sched.objects ref) (change (sched.objects ref)))
    (status : (change (sched.objects ref)).status = (sched.objects ref).status) :
    Steady cfg sched (sched.modify ref change) where
  toChanges := .counts ref change same status
  partitioned before := before.modify ref change (by rw [same]) status

end Steady

theorem FreesRequest.changes (frees : FreesRequest sched ref next) :
    Changes cfg sched next := by
  have rest := frees.rest
  obtain same | erased := frees.requests
  · rw [same] at rest
    rw [rest]
    exact .of_rest rfl
  · rw [erased] at rest
    rw [rest]
    exact .erases rfl rfl

theorem finishRequest_changes (isFinished : finishedStatus.isFinished = true)
    (finished : finishRequest cfg finishedStatus sched ref = .ok next) :
    Changes cfg sched next := by
  obtain ⟨_, frees, rest⟩ := finishRequest_ok finished
  have set : Changes cfg sched (sched.setStatus ref finishedStatus) :=
    .modify ref _ (.single (.moves rfl (.inr (.inl isFinished))))
  refine (set.trans (.of_rest ?_)).trans frees.changes
  rw [rest]

/-- Requests leave the queues. -/
theorem Changes.leave (evolve : Evolve cfg sched next)
    (running : ∀ ref ∈ next.running, ref ∈ sched.running)
    (waiting : ∀ ref ∈ next.waiting, ref ∈ sched.waiting)
    (skipped : ∀ ref ∈ next.skippedWaiting, ref ∈ sched.skippedWaiting)
    (requests : next.requests = sched.requests) : Changes cfg sched next := by
  refine of_places evolve running ?_ (fun _ _ found => by rwa [requests] at found)
  intro other mem
  simp only [places, outside, append_nil, mem_append] at mem ⊢
  rcases mem with inRunning | inWaiting | inSkipped
  · exact .inl (.inl (running other inRunning))
  · exact .inl (.inr (.inl (waiting other inWaiting)))
  · exact .inl (.inr (.inr (skipped other inSkipped)))

theorem dequeue_changes (policy : SchedulingPolicy) (sched : Scheduler H K) (refs : List Ref) :
    Changes cfg sched (sched.dequeue policy refs) := by
  refine .leave (.of_objects rfl rfl) (fun _ => mem_of_removeAll) ?_ ?_ rfl <;>
  · intro other mem
    simp only [dequeue] at mem
    split at mem
    · exact mem
    · exact mem_of_removeRequests mem

theorem finishRequests_changes
    (h : sched.finishRequests cfg requestIds finishedStatus = .ok (aborted, next)) :
    Changes cfg sched next := by
  unfold finishRequests at h
  obtain ⟨isFinished, h⟩ := assert_bind_ok h
  obtain ⟨_, loop, h⟩ := bind_ok h
  cases h
  exact foldlM_invariant (Changes cfg sched)
    (fun _ kept done => kept.trans (finishRequest_changes isFinished done)) (dequeue_changes _ _ _)
    loop

theorem addRequest_changes (h : sched.addRequest cfg req = .ok next) :
    Changes cfg sched next ∨ Registers sched req next := by
  unfold addRequest at h
  split at h
  · cases h
    exact .inr (registerRequest_ok cfg.policy sched req)
  · rename_i existing _
    simp only at h
    split at h
    · split at h
      · cases h
      · cases h
        exact .inl (.counts existing _ rfl rfl)
    · rename_i waits
      split at h
      · unfold updateSession at h
        obtain ⟨session, done, h⟩ := bind_ok h
        cases h
        have continues : RequestStep cfg (sched.objects existing) session :=
          .continues (.inr (not_not.mp waits)) done
        have updated := Changes.modify existing (fun _ => session) (.single continues)
        exact .inl (updated.trans (.of_rest rfl))
      · obtain ⟨⟨_, _⟩, finishes, h⟩ := bind_ok h
        cases h
        exact .inl (finishRequests_changes finishes)

theorem freeBlocks_steady (found : sched.requests.get? reqId = some ref)
    (freed : sched.freeBlocks ref = .ok next) : Steady cfg sched next := by
  obtain ⟨finished, same⟩ := freeBlocks_ok freed
  rw [same]
  refine ⟨.erases rfl rfl, fun before => Placed.forget before ?_ finished rfl rfl rfl⟩
  rw [(before.named _ _ found).1]
  exact found

theorem updateFromKvXferFinished_steady
    (h : sched.updateFromKvXferFinished cfg report = .ok next) :
    Steady cfg sched next := by
  unfold updateFromKvXferFinished at h
  split at h
  · cases h
    exact .refl _
  · obtain ⟨told, tells, h⟩ := bind_ok h
    obtain ⟨received, receives, h⟩ := bind_ok h
    have afterTold : Steady cfg sched told := by
      unfold tellConnectorOutput at tells
      split at tells
      · cases tells
        exact .refl _
      · obtain ⟨state, -, tells⟩ := bind_ok tells
        cases tells
        exact .of_rest rfl
    have afterReceived : Steady cfg sched received := by
      refine foldlM_invariant (Steady cfg sched) ?_ afterTold receives
      intro state reqId after _ kept done
      refine kept.trans ?_
      unfold finishRecving at done
      split at done
      · cases done
      · rename_i found
        split at done
        · cases done
          exact .of_rest rfl
        · obtain ⟨-, done⟩ := assert_bind_ok done
          exact freeBlocks_steady found done
    refine foldlM_invariant (Steady cfg sched) ?_ afterReceived h
    intro state reqId after _ kept done
    refine kept.trans ?_
    unfold finishSending at done
    split at done
    · cases done
    · rename_i found
      exact freeBlocks_steady found done

theorem Truncates.changes (truncates : Truncates sched next) : Changes cfg sched next := by
  refine .of_evolve ⟨by rw [truncates.rest], fun ref => ?_⟩ (by rw [truncates.rest])
  have same := truncates.objects ref
  refine .counts ?_ same.status
  unfold SameText
  rw [same]

theorem Moves.evolve (moves : Moves sched held ref next heldNext)
    (live : next.status ref = sched.status ref ∨ (sched.status ref).isFinished = false) :
    Evolve cfg sched next := by
  refine .of_one moves.numObjects moves.others (.single (.moves moves.text ?_))
  have place := moves.place
  change next.status ref = _ ∨ _ ∨ _ ∧ next.status ref ≠ _
  generalize next.status ref = status, next.running = running at place live ⊢
  cases place with
  | stays => exact .inl rfl
  | waits mem waiting =>
    refine live.imp_right (fun unfinished => .inr ⟨unfinished, ?_⟩)
    rintro rfl
    simp at waiting
  | leaves | enters => exact live.imp_right (fun unfinished => .inr ⟨unfinished, by decide⟩)

/-- A request that waits or runs after a step was not finished before it. -/
theorem Moves.live (moves : Moves sched held ref next heldNext)
    (parts : Partitioned sched held) :
    next.status ref = sched.status ref ∨ (sched.status ref).isFinished = false := by
  have place := moves.place
  generalize next.status ref = status, next.running = running at place ⊢
  cases place with
  | stays => exact .inl rfl
  | waits mem => exact .inr (parts.mem_outside.mp mem).1.2
  | leaves left =>
    exact .inr (parts.mem_running.mp (left.mem_iff.mpr (mem_cons_self ..))).1.2
  | enters _ left =>
    exact .inr (parts.mem_outside.mp (left.mem_iff.mpr (mem_cons_self ..))).1.2

theorem preemptAll_steady (h : preemptAll policy rounds sched = .ok next) :
    Steady cfg sched next := by
  induction rounds generalizing sched with
  | zero =>
    cases h
    exact .refl _
  | succ rounds ih =>
    rw [preemptAll] at h
    split at h
    · cases h
      exact .refl _
    · rename_i victim chosen
      obtain ⟨after, preempts, h⟩ := bind_ok h
      have isVictim : Pass.IsVictim .fcfs sched victim := chosen
      have spec := Pass.preemptRequest_ok preempts
      have moves := spec.moves [] isVictim.running
      have live : (sched.status victim).isFinished = false := by
        rw [status, spec.wasRunning]
        rfl
      have moved : Steady cfg sched after := by
        refine ⟨.of_places (moves.evolve (.inr live)) ?_ ?_ ?_, moves.partitioned⟩
        · intro other mem
          rw [spec.rest] at mem
          exact (dropLast_sublist _).subset mem
        · intro other mem
          exact .inl (moves.places.mem_iff.mp mem)
        · intro id other found
          rw [moves.requests] at found
          exact found
      have discards : Steady cfg after (after.modify victim (fun req =>
          { req with numOutputPlaceholders := 0, discardLatestAsyncTokens := true })) :=
        .counts victim _ rfl rfl
      exact (moved.trans discards).trans (ih h)

theorem resetPrefixCache_steady
    (h : sched.resetPrefixCache cfg resetRunningRequests resetConnector = .ok
      (successful, next)) : Steady cfg sched next := by
  unfold resetPrefixCache at h
  obtain ⟨preempted, preempts, h⟩ := bind_ok h
  have kept : Steady cfg sched preempted := by
    unfold preemptForReset at preempts
    split at preempts
    · obtain ⟨_, all, preempts⟩ := bind_ok preempts
      cases preempts
      exact (preemptAll_steady all).trans (.of_rest rfl)
    · cases preempts
      exact .refl _
  refine kept.trans ?_
  simp only at h
  split at h
  · cases h
  · split at h
    · cases h
      unfold resetConnectorCache
      split <;> exact .of_rest rfl
    · cases h
      exact .of_rest rfl

theorem updateDraftTokenIds_steady (sched : Scheduler H K)
    (drafts : List (String × List TokenId)) :
    Steady cfg sched (sched.updateDraftTokenIds cfg drafts) := by
  induction drafts generalizing sched with
  | nil => exact .refl _
  | cons draft drafts ih =>
    refine .trans ?_ (ih _)
    unfold updateDrafts
    split
    · exact .refl _
    · simp only
      split
      · exact .refl _
      · split <;> exact .counts _ _ rfl rfl

theorem enqueueWaitingRequest_changes (policy : SchedulingPolicy)
    (named : ∃ id, sched.requests.get? id = some ref) :
    Changes cfg sched (sched.enqueueWaitingRequest policy ref) := by
  obtain ⟨_, _, same, queued⟩ := enqueueWaitingRequest_ok policy sched ref
  rw [same]
  refine .of_places (.of_objects rfl rfl) (fun _ mem => mem) ?_ (fun _ _ found => found)
  intro _ mem
  rw [places, outside, append_nil, mem_append, queued.mem_iff, mem_cons] at mem
  rw [places, outside, append_nil, mem_append]
  rcases mem with inRunning | rfl | inWaiting
  · exact .inl (.inl inRunning)
  · exact .inr named
  · exact .inl (.inr inWaiting)

theorem settleDrafts_changes (sched : Scheduler H K) (ref : Ref)
    (drafts generated : List TokenId) :
    Changes cfg sched (sched.settleDrafts ref drafts generated) := by
  unfold settleDrafts
  split
  · exact .refl _
  · exact .counts ref _ rfl rfl

theorem settleStopped_changes (named : ∃ id, sched.requests.get? id = some ref)
    (h : sched.settleStopped cfg ref = .ok next) : Changes cfg sched next := by
  obtain ⟨⟨_, _⟩, handles, h⟩ := bind_ok h
  simp only [handleStoppedRequest] at handles
  split at handles
  · cases handles
    exact (freeRequest_ok h).changes
  · rename_i session
    have resumable : (sched.objects ref).resumable = true := by simpa using session
    split at handles
    · cases handles
      cases h
      have waits : Changes cfg sched (sched.setStatus ref .waitingForStreamingReq) :=
        .modify ref _ (.single (.idles resumable))
      have counted : Changes cfg (sched.setStatus ref .waitingForStreamingReq)
          { sched.setStatus ref .waitingForStreamingReq with
            numWaitingForStreamingInput := sched.numWaitingForStreamingInput + 1 } :=
        .of_rest rfl
      exact (waits.trans counted).trans (enqueueWaitingRequest_changes _ named)
    · cases handles
      refine .trans ?_ (freeRequest_ok h).changes
      exact .counts ref _ rfl rfl
    · rename_i queue _
      obtain ⟨_, updates, handles⟩ := bind_ok handles
      cases handles
      cases h
      obtain ⟨session, continues, updates⟩ := bind_ok updates
      cases updates
      refine .trans ?_ (enqueueWaitingRequest_changes _ named)
      have popped : Changes cfg sched (sched.modify ref
          (fun req => { req with streamingQueue := some queue })) :=
        .counts ref _ rfl rfl
      refine popped.trans (.trans (.modify ref (fun _ => session) (.single (.continues (.inl ?_)
        continues))) (.of_rest rfl))
      rw [modify_objects_self]
      exact resumable

variable [DecidableEq H] {output : SchedulerOutput M} {runnerOutput : ModelRunnerOutput}

theorem updateRequestWithOutput_changes
    (h : sched.updateRequestWithOutput cfg ref generated = .ok ((kept, stopped), next)) :
    Changes cfg sched next := by
  unfold updateRequestWithOutput at h
  split at h
  · simp only [asyncUpdateRequestWithOutput] at h
    split at h
    · cases h
      exact .counts ref _ rfl rfl
    · obtain ⟨⟨⟨keptTokens, stops⟩, appended⟩, appends, h⟩ := bind_ok h
      obtain ⟨-, h⟩ := assert_bind_ok h
      obtain ⟨_, caches, h⟩ := bind_ok h
      cases h
      obtain ⟨_, rfl⟩ := cacheOutput_ok caches
      have settles : Evolves cfg (sched.objects ref) { appended with
          numOutputPlaceholders := appended.numOutputPlaceholders - keptTokens.length } :=
        (appendOutput_evolves appends).trans (Evolves.counts rfl rfl)
      exact (Changes.modify ref (fun _ => _) settles).trans (.of_rest rfl)
  · obtain ⟨⟨⟨keptTokens, stops⟩, appended⟩, appends, h⟩ := bind_ok h
    cases h
    exact .modify ref _ (appendOutput_evolves appends)

theorem applyOutput_changes
    (h : sched.applyOutput cfg ref generated hasPoolerOutput = .ok ((kept, stopped),
      next)) : Changes cfg sched next := by
  unfold applyOutput at h
  split at h
  · exact updateRequestWithOutput_changes h
  · split at h
    · cases h
      exact .modify ref _ (.single (.moves rfl (.inr (.inl rfl))))
    · cases h
      exact .refl _

theorem updateEntry_changes {after : UpdateState H K}
    (h : updateEntry cfg output runnerOutput failed state entry = .ok after) :
    Changes cfg state.scheduler after.scheduler := by
  obtain ⟨-, h⟩ := assert_bind_ok h
  split at h
  · cases h
    exact .refl _
  split at h
  · cases h
    exact .refl _
  rename_i ref found
  split at h
  · cases h
    exact .refl _
  unfold updateLive at h
  obtain ⟨reqIndex, -, h⟩ := bind_ok h
  obtain ⟨generated, -, h⟩ := bind_ok h
  obtain ⟨hasPoolerOutput, -, h⟩ := bind_ok h
  obtain ⟨⟨⟨kept, stopped⟩, applied⟩, applies, h⟩ := bind_ok h
  obtain ⟨-, -, drafts⟩ := settleDrafts_objects state.scheduler ref
    ((output.scheduledSpecDecodeTokens.get? entry.1).getD []) generated
  have appended := (settleDrafts_changes state.scheduler ref
    ((output.scheduledSpecDecodeTokens.get? entry.1).getD []) generated).trans
      (applyOutput_changes applies)
  cases stopped with
  | false =>
    simp only [Bool.false_eq_true, if_false] at h
    split at h <;>
    · cases h
      exact appended
  | true =>
    simp only [if_true] at h
    obtain ⟨settled, settles, h⟩ := bind_ok h
    cases h
    refine appended.trans (settleStopped_changes ⟨entry.1, ?_⟩ settles)
    rw [(applyOutput_ok applies).1.rest, drafts]
    exact found

theorem updateFromOutput_changes
    (h : sched.updateFromOutput cfg output runnerOutput = .ok (outputs, next)) :
    Changes cfg sched next := by
  unfold updateFromOutput at h
  obtain ⟨⟨failed, start⟩, scans, h⟩ := bind_ok h
  obtain ⟨state, loop, h⟩ := bind_ok h
  obtain ⟨⟨errors, afterFailed⟩, fails, h⟩ := bind_ok h
  obtain ⟨_, transfers, h⟩ := bind_ok h
  cases h
  have looped : Changes cfg sched state.scheduler :=
    foldlM_invariant (fun state : UpdateState H K => Changes cfg sched state.scheduler)
      (fun _ kept done => kept.trans (updateEntry_changes done)) (handleLoadFailures_ok scans).changes
      loop
  have removed : Changes cfg state.scheduler (removeStopped cfg.policy state) := by
    refine .leave (.of_objects rfl rfl) (fun _ => mem_of_removeAll) ?_ (fun _ mem => mem) rfl
    intro _ mem
    simp only [removeStopped] at mem
    split at mem
    · exact mem
    · exact mem_of_removeRequests mem
  have afterFails : Changes cfg (removeStopped cfg.policy state) afterFailed := by
    unfold failLoads at fails
    split at fails
    · obtain ⟨_, -, fails⟩ := bind_ok fails
      obtain ⟨⟨_, _⟩, finishes, fails⟩ := bind_ok fails
      cases fails
      exact finishRequests_changes finishes
    · cases fails
      exact .refl _
  exact ((looped.trans removed).trans afterFails).trans (updateFromKvXferFinished_steady transfers).toChanges

end Scheduler

namespace Pass
open Scheduler
variable {pass : Pass H K}

theorem Passes.evolve [DecidableEq H] {sched : Scheduler H K} {ran : Pass H K}
    (passes : Passes cfg sched ran pass) (parts : Partitioned sched []) :
    Evolve cfg sched pass.scheduler := by
  have kept : Partitioned pass.scheduler pass.stepSkippedWaiting ∧
      Evolve cfg sched pass.scheduler := by
    refine steps_keep (fun pass => Partitioned pass.scheduler pass.stepSkippedWaiting ∧
      Evolve cfg sched pass.scheduler) ?_ passes.moved.1
      ⟨parts.withKv _, .of_objects rfl rfl⟩
    rintro pass _ ⟨_, moves⟩ before
    exact ⟨moves.partitioned before.1, before.2.trans (moves.evolve (moves.live before.1))⟩
  exact kept.2

end Pass

namespace Scheduler
variable {sched next : Scheduler H K} {output : SchedulerOutput M}

theorem updateAfterSchedule_steady
    (h : sched.updateAfterSchedule cfg output = .ok (sent, next)) :
    Steady cfg sched next ∧ next.queues = sched.queues := by
  unfold updateAfterSchedule at h
  obtain ⟨⟨_, advanced⟩, advances, h⟩ := bind_ok h
  obtain ⟨⟨pending, _⟩, awaits, h⟩ := bind_ok h
  cases h
  have first : Steady cfg sched advanced ∧ advanced.queues = sched.queues := by
    refine foldlM_invariant (fun state : Bool × Scheduler H K => Steady cfg sched state.2 ∧
      state.2.queues = sched.queues) ?_ ⟨.refl sched, rfl⟩ advances
    intro state entry after _ kept advance
    obtain ⟨ref, cache, same⟩ := advanceScheduled_ok advance
    simp only [same]
    have advances : Steady cfg state.2 (state.2.modify ref (Scheduler.advance · entry.2)) :=
      .counts ref _ rfl rfl
    exact ⟨kept.1.trans (advances.trans (.of_rest rfl)), kept.2⟩
  have cleared : Steady cfg sched { advanced with finishedReqIds := [] } :=
    first.1.trans (.of_rest rfl)
  unfold awaitOutputs at awaits
  split at awaits
  · refine foldlM_invariant (fun state : Bool × Scheduler H K => Steady cfg sched state.2 ∧
      state.2.queues = sched.queues) ?_ ⟨cleared, first.2⟩ awaits
    intro state reqId after _ kept awaitsOne
    obtain ⟨ref, same⟩ := awaitOutput_ok awaitsOne
    simp only [same]
    split
    · exact kept
    · exact ⟨kept.1.trans (.counts ref (addPlaceholders cfg · _) rfl rfl), kept.2⟩
  · cases awaits
    exact ⟨cleared, first.2⟩

/-- After its passes over the queues, a step only counts the tokens it has scheduled. -/
theorem schedule_counts [DecidableEq H]
    (h : sched.schedule cfg = .ok (output, next)) :
    ∃ pass, Pass.schedulePass cfg sched = .ok pass ∧ Steady cfg pass.scheduler next ∧
      next.queues = pass.scheduler.queues := by
  obtain ⟨pass, passed, h⟩ := bind_ok h
  obtain ⟨⟨made, sent⟩, makes, h⟩ := bind_ok h
  obtain ⟨⟨described, built⟩, builds, h⟩ := bind_ok h
  obtain ⟨metadata, state, rfl, rfl⟩ := Pass.buildConnectorMeta_ok builds
  obtain ⟨counts, queues⟩ := updateAfterSchedule_steady h
  obtain rfl := Pass.makeOutput_ok makes
  exact ⟨pass, passed, .trans (.of_rest rfl) counts, queues⟩

theorem schedule_steady [DecidableEq H] (h : sched.schedule cfg = .ok (output, next)) :
    ∃ ran pass, Pass.Passes cfg sched ran pass ∧ Steady cfg pass.scheduler next := by
  obtain ⟨pass, passed, steady, -⟩ := schedule_counts h
  obtain ⟨ran, passes⟩ := Pass.schedulePass_ok passed
  exact ⟨ran, pass, passes, steady⟩

theorem schedule_partitioned [DecidableEq H] (parts : Partitioned sched [])
    (h : sched.schedule cfg = .ok (output, next)) : Partitioned next [] := by
  obtain ⟨_, _, passes, steady⟩ := schedule_steady h
  exact steady.partitioned (passes.partitioned parts)

theorem schedule_evolve [DecidableEq H] (parts : Partitioned sched [])
    (h : sched.schedule cfg = .ok (output, next)) : Evolve cfg sched next := by
  obtain ⟨_, _, passes, steady⟩ := schedule_steady h
  exact (passes.evolve parts).trans steady.toEvolve

end Scheduler

namespace Engine
open Scheduler
variable [DecidableEq H] {engine next : Engine H K M} {op : EngineOp}

/-- Every call but `schedule` changes the requests that exist, or adds one. -/
theorem exec_changes (h : engine.exec cfg op = .ok next) (other : op ≠ .schedule) :
    Changes cfg engine.scheduler next.scheduler ∨
      ∃ args req, op = .addRequest args ∧ Request.init cfg.hasher args = .ok req ∧
        Registers engine.scheduler req next.scheduler := by
  cases op with
  | addRequest args =>
    obtain ⟨req, created, h⟩ := bind_ok h
    obtain ⟨_, adds, h⟩ := bind_ok h
    cases h
    obtain changes | registers := addRequest_changes adds
    · exact .inl changes
    · exact .inr ⟨args, req, rfl, created, registers⟩
  | finishRequests requestIds finishedStatus =>
    obtain ⟨⟨_, _⟩, finishes, h⟩ := bind_ok h
    cases h
    exact .inl (finishRequests_changes finishes)
  | schedule => exact absurd rfl other
  | updateFromOutput step runnerOutput =>
    obtain ⟨output, -, h⟩ := bind_ok h
    obtain ⟨⟨_, _⟩, updates, h⟩ := bind_ok h
    cases h
    exact .inl (updateFromOutput_changes updates)
  | updateDraftTokenIds drafts =>
    cases h
    exact .inl (updateDraftTokenIds_steady _ drafts).toChanges
  | updateDraftTokenIdsInOutput step drafts =>
    obtain ⟨output, -, h⟩ := bind_ok h
    cases h
    exact .inl (.refl _)
  | resetPrefixCache resetRunningRequests resetConnector =>
    obtain ⟨⟨_, _⟩, resets, h⟩ := bind_ok h
    cases h
    exact .inl (resetPrefixCache_steady resets).toChanges
  | resetEncoderCache | setPauseState pauseState | compileGrammar ref | changeRemoteItems items =>
    cases h
    exact .inl (.of_rest rfl)

/-- Every call but `schedule` keeps the adapters of the running requests. -/
theorem exec_keeps (stepped : engine.exec cfg op = .ok next) (other : op ≠ .schedule) :
    Keeps engine.scheduler next.scheduler := by
  obtain changes | ⟨_, _, _, _, registers⟩ := exec_changes stepped other
  · exact changes.keeps
  · exact registers.keeps

/-- In every call the requests evolve, or one is added. -/
theorem exec_evolve (parts : Partitioned engine.scheduler [])
    (h : engine.exec cfg op = .ok next) : Evolve cfg engine.scheduler next.scheduler ∨
      ∃ args req, op = .addRequest args ∧ Request.init cfg.hasher args = .ok req ∧
        Registers engine.scheduler req next.scheduler := by
  by_cases isSchedule : op = .schedule
  · subst isSchedule
    obtain ⟨⟨output, scheduled⟩, schedules, h⟩ := bind_ok h
    cases h
    exact .inl (schedule_evolve parts schedules)
  · exact (exec_changes h isSchedule).imp_left (·.toEvolve)

end Engine
end Vllm
