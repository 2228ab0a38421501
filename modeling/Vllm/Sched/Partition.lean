import Vllm.Sched.Engine

/-! The queues partition the live requests: each of them is in exactly one place of one
queue, the running ones in the running queue, and no other request is in any queue. -/
namespace Vllm
open List hiding next
open Relation Py Dict Scheduler
variable {H K M : Type} {sched : Scheduler H K}

/-- The prompt, the output and the parameters of the two requests are the same. -/
def SameText (req other : Request H) : Prop :=
  other = { req with
    status := other.status
    numOutputPlaceholders := other.numOutputPlaceholders
    discardLatestAsyncTokens := other.discardLatestAsyncTokens
    specTokenIds := other.specTokenIds
    numComputedTokens := other.numComputedTokens
    numCachedTokens := other.numCachedTokens
    isPrefillChunk := other.isPrefillChunk
    numPreemptions := other.numPreemptions
    numExternalComputedTokens := other.numExternalComputedTokens
    blockHashes := other.blockHashes
    streamingQueue := other.streamingQueue }

namespace Scheduler

def status (sched : Scheduler H K) (ref : Ref) : RequestStatus := (sched.objects ref).status

section
variable (sched : Scheduler H K)

/-- A request that the scheduler still has to serve. -/
def Live (ref : Ref) : Prop :=
  sched.requests.get? (sched.requestId ref) = some ref ∧
    (sched.status ref).isFinished = false

instance (sched : Scheduler H K) (ref : Ref) : Decidable (sched.Live ref) :=
  inferInstanceAs (Decidable (_ ∧ _))

def Named : Prop :=
  ∀ id ref, sched.requests.get? id = some ref →
    sched.requestId ref = id ∧ ref < sched.numObjects

/-- How often a request should be in the running queue. -/
def runningPlaces (ref : Ref) : Nat :=
  if sched.Live ref ∧ sched.status ref = .running then 1 else 0

/-- How often a request should be in the other queues. -/
def outsidePlaces (ref : Ref) : Nat :=
  if sched.Live ref ∧ sched.status ref ≠ .running then 1 else 0

structure ChangesOne (ref : Ref) (next : Scheduler H K) : Prop where
  requests : next.requests = sched.requests
  numObjects : next.numObjects = sched.numObjects
  others : ∀ other, other ≠ ref → next.objects other = sched.objects other
  id : next.requestId ref = sched.requestId ref

end

theorem ChangesOne.trans (first : ChangesOne sched ref next)
    (second : ChangesOne next ref third) : ChangesOne sched ref third where
  requests := second.requests.trans first.requests
  numObjects := second.numObjects.trans first.numObjects
  others other ne := (second.others other ne).trans (first.others other ne)
  id := second.id.trans first.id

theorem ChangesOne.live (changes : ChangesOne sched ref next) (live : sched.Live ref)
    (unfinished : (next.status ref).isFinished = false) : next.Live ref := by
  refine ⟨?_, unfinished⟩
  rw [changes.requests, changes.id]
  exact live.1

theorem ChangesOne.modify (sched : Scheduler H K) (ref : Ref) (change : Request H → Request H)
    (id : (change (sched.objects ref)).requestId = (sched.objects ref).requestId) :
    ChangesOne sched ref (sched.modify ref change) where
  requests := rfl
  numObjects := rfl
  others _ ne := if_neg ne
  id := by
    rw [requestId, modify_objects_self]
    exact id

/-- Two lists that hold the live requests once each, the running ones apart. -/
structure Placed (sched : Scheduler H K) (running outside : List Ref) : Prop where
  named : sched.Named
  running : ∀ ref, running.count ref = sched.runningPlaces ref
  outside : ∀ ref, outside.count ref = sched.outsidePlaces ref

def outside (sched : Scheduler H K) (held : List Ref) : List Ref :=
  sched.waiting ++ sched.skippedWaiting ++ held

def Partitioned (sched : Scheduler H K) (held : List Ref) : Prop :=
  sched.Placed sched.running (sched.outside held)

namespace Placed
variable {sched next : Scheduler H K} {running outside : List Ref} {ref : Ref}

section
variable (placed : Placed sched running outside)
include placed

theorem mem_running : ref ∈ running ↔ sched.Live ref ∧ sched.status ref = .running := by
  rw [← count_pos_iff, placed.running, runningPlaces]
  split <;> simp_all

theorem mem_outside : ref ∈ outside ↔ sched.Live ref ∧ sched.status ref ≠ .running := by
  rw [← count_pos_iff, placed.outside, outsidePlaces]
  split <;> simp_all

theorem nodup_running : running.Nodup := by
  apply nodup_iff_count_le_one.mpr
  intro _
  rw [placed.running, runningPlaces]
  split <;> omega

theorem nodup_outside : outside.Nodup := by
  apply nodup_iff_count_le_one.mpr
  intro _
  rw [placed.outside, outsidePlaces]
  split <;> omega

/-- What reads neither the queues nor the status of a request may change. -/
theorem congr
    (requests : next.requests = sched.requests) (numObjects : next.numObjects = sched.numObjects)
    (ids : ∀ ref, next.requestId ref = sched.requestId ref)
    (status : ∀ ref, next.status ref = sched.status ref)
    (sameRunning : runningNext.Perm running) (sameOutside : outsideNext.Perm outside) :
    Placed next runningNext outsideNext := by
  have live (ref : Ref) : next.Live ref ↔ sched.Live ref := by
    simp only [Live, requests, ids, status]
  constructor
  · intro id ref found
    rw [requests] at found
    rw [ids, numObjects]
    exact placed.named id ref found
  · intro ref
    simp only [sameRunning.count_eq, placed.running, runningPlaces, live, status]
  · intro ref
    simp only [sameOutside.count_eq, placed.outside, outsidePlaces, live, status]

end

section Moves
variable (placed : Placed sched running outside) (changes : ChangesOne sched ref next)
include placed changes

theorem named_of_one : next.Named := by
  intro other target found
  rw [changes.requests] at found
  rw [changes.numObjects]
  have before := placed.named other target found
  by_cases same : target = ref
  · subst same
    rw [changes.id]
    exact before
  · rw [requestId, changes.others target same]
    exact before

omit placed in
theorem places_other (ne : other ≠ ref) : next.runningPlaces other = sched.runningPlaces other ∧
      next.outsidePlaces other = sched.outsidePlaces other := by
  have live : next.Live other ↔ sched.Live other := by
    simp only [Live, changes.requests, requestId, status, changes.others other ne]
  have status : next.status other = sched.status other := by
    simp only [status, changes.others other ne]
  simp only [runningPlaces, outsidePlaces, live, status, and_self]

/-- It suffices to look at the places of the request that changes. -/
theorem of_one
    (runningOthers : ∀ other, other ≠ ref → runningNext.count other = running.count other)
    (runningSelf : runningNext.count ref = next.runningPlaces ref)
    (outsideOthers : ∀ other, other ≠ ref → outsideNext.count other = outside.count other)
    (outsideSelf : outsideNext.count ref = next.outsidePlaces ref) :
    Placed next runningNext outsideNext := by
  refine ⟨placed.named_of_one changes, ?_, ?_⟩
  · intro other
    by_cases same : other = ref
    · rw [same, runningSelf]
    · rw [runningOthers other same, placed.running, (places_other changes same).1]
  · intro other
    by_cases same : other = ref
    · rw [same, outsideSelf]
    · rw [outsideOthers other same, placed.outside, (places_other changes same).2]

theorem keepsStatus (status : next.status ref = sched.status ref)
    (sameRunning : runningNext.Perm running) (sameOutside : outsideNext.Perm outside) :
    Placed next runningNext outsideNext := by
  have each (other : Ref) : next.requestId other = sched.requestId other ∧
      next.status other = sched.status other := by
    by_cases same : other = ref
    · rw [same]
      exact ⟨changes.id, status⟩
    · simp only [requestId, Scheduler.status, changes.others other same, and_self]
  exact placed.congr changes.requests changes.numObjects (fun other => (each other).1)
    (fun other => (each other).2) sameRunning sameOutside

theorem toOutside (unfinished : (next.status ref).isFinished = false)
    (notRunning : next.status ref ≠ .running) (left : running.Perm (ref :: runningNext))
    (entered : outsideNext.Perm (ref :: outside)) : Placed next runningNext outsideNext := by
  have mem : ref ∈ running := left.mem_iff.mpr (mem_cons_self ..)
  obtain ⟨live, wasRunning⟩ := placed.mem_running.mp mem
  have liveNext := changes.live live unfinished
  have before := placed.running ref
  have beforeOutside := placed.outside ref
  rw [left.count_eq, count_cons_self, runningPlaces, if_pos ⟨live, wasRunning⟩] at before
  rw [outsidePlaces, if_neg (fun both => both.2 wasRunning)] at beforeOutside
  refine placed.of_one changes ?_ ?_ ?_ ?_
  · intro other ne
    rw [left.count_eq, count_cons_of_ne ne.symm]
  · rw [runningPlaces, if_neg (fun both => notRunning both.2)]
    omega
  · intro other ne
    rw [entered.count_eq, count_cons_of_ne ne.symm]
  · rw [entered.count_eq, count_cons_self, beforeOutside, outsidePlaces,
      if_pos ⟨liveNext, notRunning⟩]

theorem toRunning (isRunning : next.status ref = .running)
    (entered : runningNext.Perm (ref :: running)) (left : outside.Perm (ref :: outsideNext)) :
    Placed next runningNext outsideNext := by
  have mem : ref ∈ outside := left.mem_iff.mpr (mem_cons_self ..)
  obtain ⟨live, notRunning⟩ := placed.mem_outside.mp mem
  have liveNext := changes.live live (by rw [isRunning]; rfl)
  have before := placed.outside ref
  have beforeRunning := placed.running ref
  rw [left.count_eq, count_cons_self, outsidePlaces, if_pos ⟨live, notRunning⟩] at before
  rw [runningPlaces, if_neg (fun both => notRunning both.2)] at beforeRunning
  refine placed.of_one changes ?_ ?_ ?_ ?_
  · intro other ne
    rw [entered.count_eq, count_cons_of_ne ne.symm]
  · rw [entered.count_eq, count_cons_self, beforeRunning, runningPlaces,
      if_pos ⟨liveNext, isRunning⟩]
  · intro other ne
    rw [left.count_eq, count_cons_of_ne ne.symm]
  · rw [outsidePlaces, if_neg (fun both => both.2 isRunning)]
    omega

theorem staysOutside (unfinished : (next.status ref).isFinished = false)
    (notRunning : next.status ref ≠ .running) (mem : ref ∈ outside)
    (same : outsideNext.Perm outside) : Placed next running outsideNext := by
  obtain ⟨live, wasNot⟩ := placed.mem_outside.mp mem
  have liveNext := changes.live live unfinished
  refine placed.of_one changes (fun _ _ => rfl) ?_ ?_ ?_
  · rw [placed.running, runningPlaces, runningPlaces, if_neg (fun both => wasNot both.2),
      if_neg (fun both => notRunning both.2)]
  · intro other _
    exact same.count_eq other
  · rw [same.count_eq, placed.outside, outsidePlaces, outsidePlaces, if_pos ⟨live, wasNot⟩,
      if_pos ⟨liveNext, notRunning⟩]

theorem finishes (finished : (next.status ref).isFinished = true)
    (leftRunning : runningNext.Perm (running.filter (· ≠ ref)))
    (leftOutside : outsideNext.Perm (outside.filter (· ≠ ref))) :
    Placed next runningNext outsideNext := by
  have notLive : ¬ next.Live ref := fun live => by simp [live.2] at finished
  have others {list : List Ref} {other : Ref} (ne : other ≠ ref) :
      (list.filter (· ≠ ref)).count other = list.count other :=
    count_filter (by simpa using ne)
  have self {list : List Ref} : (list.filter (· ≠ ref)).count ref = 0 := count_eq_zero.mpr (by simp)
  refine placed.of_one changes ?_ ?_ ?_ ?_
  · intro other ne
    rw [leftRunning.count_eq, others ne]
  · rw [leftRunning.count_eq, self, runningPlaces, if_neg (fun both => notLive both.1)]
  · intro other ne
    rw [leftOutside.count_eq, others ne]
  · rw [leftOutside.count_eq, self, outsidePlaces, if_neg (fun both => notLive both.1)]

end Moves

variable (placed : Placed sched running outside)
include placed

theorem modify (ref : Ref) (change : Request H → Request H)
    (id : (change (sched.objects ref)).requestId = (sched.objects ref).requestId)
    (status : (change (sched.objects ref)).status = (sched.objects ref).status) :
    Placed (sched.modify ref change) running outside := by
  refine placed.keepsStatus (.modify sched ref change id) ?_ (.refl _) (.refl _)
  rw [Scheduler.status, modify_objects_self]
  exact status

theorem modifyOutside (mem : ref ∈ outside) (change : Request H → Request H)
    (id : (change (sched.objects ref)).requestId = (sched.objects ref).requestId)
    (unfinished : (change (sched.objects ref)).status.isFinished = false)
    (notRunning : (change (sched.objects ref)).status ≠ .running) :
    Placed (sched.modify ref change) running outside := by
  have self := modify_objects_self sched ref change
  refine placed.staysOutside (.modify sched ref change id) ?_ ?_ mem (.refl _)
  · rw [status, self]
    exact unfinished
  · rw [status, self]
    exact notRunning

theorem forget (registered : sched.requests.get? (sched.requestId ref) = some ref)
    (finished : (sched.status ref).isFinished = true)
    (requests : next.requests = sched.requests.erase (sched.requestId ref))
    (numObjects : next.numObjects = sched.numObjects)
    (objects : next.objects = sched.objects) : Placed next running outside := by
  have ids (other : Ref) : next.requestId other = sched.requestId other := by
    rw [requestId, requestId, objects]
  have status (other : Ref) : next.status other = sched.status other := by
    rw [status, status, objects]
  have live (other : Ref) : next.Live other ↔ sched.Live other := by
    simp only [Live, requests, ids, status, get?_erase]
    constructor
    · rintro ⟨found, unfinished⟩
      split at found
      · cases found
      · exact ⟨found, unfinished⟩
    · rintro ⟨found, unfinished⟩
      rw [if_neg, found]
      · exact ⟨rfl, unfinished⟩
      · intro same
        rw [same, registered] at found
        cases found
        rw [finished] at unfinished
        cases unfinished
  constructor
  · intro id other found
    rw [requests, get?_erase] at found
    rw [ids, numObjects]
    split at found
    · cases found
    · exact placed.named id other found
  · intro other
    simp only [placed.running, runningPlaces, live, status]
  · intro other
    simp only [placed.outside, outsidePlaces, live, status]

end Placed

namespace Partitioned
variable (parts : Partitioned sched held)
include parts

theorem withEncoder (cache : EncoderCache) : Partitioned (sched.withEncoder cache) held :=
  Placed.congr parts rfl rfl (fun _ => rfl) (fun _ => rfl) (.refl _) (.refl _)

theorem withKv (mgr : KVCacheManager H) : Partitioned (sched.withKv mgr) held :=
  Placed.congr parts rfl rfl (fun _ => rfl) (fun _ => rfl) (.refl _) (.refl _)

end Partitioned

/-- A request that is popped from its queue is held. -/
theorem outside_taken (name : QueueName) (popped : (sched.queue name).Perm (ref :: rest)) :
    ((sched.setQueue name rest).outside (ref :: held)).Perm (sched.outside held) := by
  apply perm_iff_count.mpr
  intro other
  have before := popped.count_eq other
  cases name <;>
  · simp only [queue, count_append, count_cons, setQueue, outside] at before ⊢
    omega

inductive Place (ref : Ref) (status : RequestStatus) (running outside : List Ref) :
    RequestStatus → List Ref → List Ref → Prop
  | stays (same : outsideNext.Perm outside) : Place ref status running outside status running outsideNext
  | waits (mem : ref ∈ outside)
      (waiting : statusNext ∈ [.waiting, .preempted, .waitingForRemoteKvs])
      (same : outsideNext.Perm outside) :
      Place ref status running outside statusNext running outsideNext
  | leaves (left : running.Perm (ref :: runningNext)) (entered : outsideNext.Perm (ref :: outside)) :
      Place ref status running outside .preempted runningNext outsideNext
  | enters (entered : runningNext.Perm (ref :: running)) (left : outside.Perm (ref :: outsideNext)) :
      Place ref status running outside .running runningNext outsideNext

/-- What a step of a pass does: one request changes, but not its text, and it may change
its queue. -/
structure Moves (sched : Scheduler H K) (held : List Ref) (ref : Ref) (next : Scheduler H K)
    (heldNext : List Ref) : Prop where
  requests : next.requests = sched.requests
  numObjects : next.numObjects = sched.numObjects
  others : ∀ other, other ≠ ref → next.objects other = sched.objects other
  text : SameText (sched.objects ref) (next.objects ref)
  place : Place ref (sched.status ref) sched.running (sched.outside held)
    (next.status ref) next.running (next.outside heldNext)

namespace Moves
variable {sched next : Scheduler H K} {ref : Ref}

theorem rest (ref : Ref) (objects : next.objects = sched.objects)
    (requests : next.requests = sched.requests)
    (numObjects : next.numObjects = sched.numObjects)
    (running : next.running = sched.running)
    (outside : (next.outside heldNext).Perm (sched.outside held)) :
    Moves sched held ref next heldNext where
  requests := requests
  numObjects := numObjects
  others other _ := by rw [objects]
  text := by
    rw [objects]
    rfl
  place := by
    rw [status, status, objects, running]
    exact .stays outside

theorem modify (change : Request H → Request H)
    (objects : next.objects = (sched.modify ref change).objects)
    (requests : next.requests = sched.requests)
    (numObjects : next.numObjects = sched.numObjects)
    (text : SameText (sched.objects ref) (change (sched.objects ref)))
    (place : Place ref (sched.status ref) sched.running (sched.outside held)
      (change (sched.objects ref)).status next.running (next.outside heldNext)) :
    Moves sched held ref next heldNext := by
  have req : next.objects ref = change (sched.objects ref) := by
    rw [objects]
    exact modify_objects_self _ _ _
  constructor
  · exact requests
  · exact numObjects
  · intro other ne
    rw [objects]
    exact modify_objects_of_ne _ _ ne
  · rw [req]
    exact text
  · have isStatus : next.status ref = (change (sched.objects ref)).status := by
      rw [status, req]
    rw [isStatus]
    exact place

/-- A step keeps the queues a partition. -/
theorem partitioned (moves : Moves sched held ref next heldNext)
    (parts : Partitioned sched held) : Partitioned next heldNext := by
  have changes : ChangesOne sched ref next :=
    ⟨moves.requests, moves.numObjects, moves.others, by rw [requestId, requestId, moves.text]⟩
  obtain ⟨-, -, -, -, place⟩ := moves
  unfold Partitioned
  generalize isStatus : next.status ref = status, isRunning : next.running = running at place ⊢
  cases place with
  | stays same => exact Placed.keepsStatus parts changes isStatus (.refl _) same
  | waits mem waiting same =>
    have open' : status.isFinished = false ∧ status ≠ .running := by
      simp only [mem_cons, not_mem_nil, or_false] at waiting
      rcases waiting with rfl | rfl | rfl <;> decide
    rw [← isStatus] at open'
    exact Placed.staysOutside parts changes open'.1 open'.2 mem same
  | leaves left entered =>
    exact Placed.toOutside parts changes (by rw [isStatus]; rfl) (by rw [isStatus]; decide)
      left entered
  | enters entered left => exact Placed.toRunning parts changes isStatus entered left

end Moves
end Scheduler

namespace Pass
open Scheduler
variable {pass next : Pass H K} {cfg : SchedulerConfig H K M} {policy : SchedulingPolicy}
  {ref : Ref}

theorem IsVictim.running (chosen : IsVictim policy sched victim) :
    sched.running.Perm (victim :: runningWithout policy sched.running victim) := by
  cases policy with
  | fcfs =>
    have split := dropLast_append_getLast? victim chosen
    have moved : (sched.running.dropLast ++ [victim]).Perm
      (victim :: sched.running.dropLast) := perm_append_comm
    rw [split] at moved
    exact moved
  | priority => exact perm_cons_erase chosen.mem

theorem PreemptsRequest.moves {next : Scheduler H K} {running : List Ref}
    (preempts : PreemptsRequest { sched with running := running } ref next) (held : List Ref)
    (taken : sched.running.Perm (ref :: running)) : Moves sched held ref next held := by
  have rest := preempts.rest
  refine .modify preemptedRequest (by rw [rest]; rfl) (by rw [rest]; rfl) (by rw [rest]; rfl) rfl
    (.leaves ?_ ?_)
  · rw [rest]
    exact taken
  · have skipped : next.skippedWaiting = sched.skippedWaiting := by rw [rest]; rfl
    rw [outside, skipped]
    exact (preempts.waiting.append_right _).append_right _

theorem LooksUp.moves (looks : LooksUp sched ref matched) (held : List Ref) :
    Moves sched held ref matched held := by
  have rest := looks.rest
  obtain ⟨_, req⟩ := looks.request
  refine ⟨by rw [rest], by rw [rest], looks.others, ?_, ?_⟩
  · rw [req]
    rfl
  · have isStatus : matched.status ref = sched.status ref := by
      rw [status, req]
      rfl
    rw [isStatus, rest]
    exact .stays (.refl _)

/-- The request at the front of a queue is outside the running queue. -/
theorem mem_outside_of_front (held : List Ref) (front : (sched.queue name).head? = some ref) :
    ref ∈ sched.outside held := by
  have mem := mem_of_mem_head? front
  cases name with
  | waiting => exact mem_append_left _ (mem_append_left _ mem)
  | skippedWaiting => exact mem_append_left _ (mem_append_right _ mem)

theorem skipRequest_moves {name : QueueName} (front : (pass.scheduler.queue name).head? = some ref)
    (h : pass.skipRequest cfg name ref = .ok next) :
    Moves pass.scheduler pass.stepSkippedWaiting ref next.scheduler next.stepSkippedWaiting := by
  obtain ⟨⟨_, rest⟩, taken, h⟩ := bind_ok h
  cases h
  obtain ⟨head, perm⟩ := RequestQueue.popRequest_ok taken
  rw [front] at head
  cases head
  refine .rest ref (by cases name <;> rfl) (by cases name <;> rfl) (by cases name <;> rfl)
    (by cases name <;> rfl) ?_
  exact ((RequestQueue.prependRequest_perm _ _).append_left _).trans (outside_taken name perm)

theorem Admits.moves (admits : Admits cfg pass name ref computed next)
    (front : (pass.scheduler.queue name).head? = some ref) :
    Moves pass.scheduler pass.stepSkippedWaiting ref next.scheduler next.stepSkippedWaiting := by
  have taken (state : K) {rest : RequestQueue} (popped : (pass.scheduler.queue name).Perm (ref :: rest)) :
      (({ pass.scheduler with connectorState := state }.setQueue name rest).outside
        (ref :: pass.stepSkippedWaiting)).Perm (pass.scheduler.outside pass.stepSkippedWaiting) :=
    outside_taken name (by cases name <;> exact popped)
  cases admits with
  | @loading state rest held popped skipped =>
    refine .modify (loadingRequest computed) (by cases name <;> rfl) (by cases name <;> rfl)
      (by cases name <;> rfl) rfl ?_
    have mem := mem_outside_of_front pass.stepSkippedWaiting front
    have same := (skipped.append_left _).trans (taken state popped)
    cases name <;> exact .waits mem (by simp [loadingRequest]) same
  | @scheduled state rest _ popped schedules =>
    have held : next.stepSkippedWaiting = pass.stepSkippedWaiting := by
      rw [schedules.rest]
      rfl
    rw [held, schedules.scheduler]
    refine .modify (admittedRequest computed) (by cases name <;> rfl) (by cases name <;> rfl)
      (by cases name <;> rfl) rfl (.enters ?_ ?_)
    · cases name <;> exact perm_append_comm
    · exact (taken state popped).symm.trans perm_middle

theorem Promoted.moves (promotes : Promoted sched ref promoted)
    (mem : ref ∈ sched.outside held) : Moves sched held ref promoted held := by
  cases promotes with
  | unblocked => exact .rest ref rfl rfl rfl rfl (.refl _)
  | compiled =>
    exact .modify (fun req => { req with status := .waiting }) rfl rfl rfl rfl
      (.waits mem (by simp) (.refl _))
  | received =>
    refine .modify (receivedRequest _) rfl rfl rfl ?_ (.waits mem ?_ (.refl _))
    · simp only [receivedRequest]
      split <;> rfl
    · simp only [receivedRequest]
      split <;> simp

theorem RunningStep.moves (step : RunningStep cfg pass next) (held : List Ref) :
    ∃ ref, Moves pass.scheduler held ref next.scheduler held := by
  cases step with
  | passOver | idle | probe => exact ⟨0, .rest 0 rfl rfl rfl rfl (.refl _)⟩
  | preempt preempted =>
    have spec := preemptVictim_ok preempted
    have moves := spec.scheduler.moves held spec.chosen.running
    exact ⟨_, { moves with }⟩
  | schedule current scheduled =>
    rw [(scheduleRunning_ok scheduled).scheduler]
    exact ⟨_, .modify draftsTaken rfl rfl rfl rfl (.stays (.refl _))⟩

/-- The running loop skips no waiting request. -/
theorem RunningStep.stepSkippedWaiting (step : RunningStep cfg pass next) :
    next.stepSkippedWaiting = pass.stepSkippedWaiting := by
  cases step with
  | passOver | idle | probe => rfl
  | preempt preempted =>
    obtain ⟨_, same, ⟨-, rfl⟩ | ⟨-, unscheduled⟩⟩ := (preemptVictim_ok preempted).rest
    · rw [same]
      rfl
    · rw [same]
      cases unscheduled <;> rfl
  | schedule current scheduled =>
    rw [(scheduleRunning_ok scheduled).rest]
    rfl

variable {ran : Pass H K}

def Moved (pass next : Pass H K) : Prop :=
  ∃ ref, Moves pass.scheduler pass.stepSkippedWaiting ref next.scheduler next.stepSkippedWaiting

theorem requeueSkipped_moved (cfg : SchedulerConfig H K M) (pass : Pass H K) :
    Moved pass (pass.requeueSkipped cfg) := by
  have requeued : (RequestQueue.prependRequests cfg.policy pass.scheduler.lt
      pass.scheduler.skippedWaiting pass.stepSkippedWaiting).Perm
      (pass.scheduler.skippedWaiting ++ pass.stepSkippedWaiting) :=
    (RequestQueue.prependRequests_perm _ _).trans perm_append_comm
  refine ⟨0, .rest 0 rfl rfl rfl rfl ?_⟩
  simp only [outside, requeueSkipped, append_nil, append_assoc]
  exact requeued.append_left _

theorem moved_of_running (path : ReflTransGen (RunningStep cfg) (start cfg sched) ran) :
    ReflTransGen Moved (start cfg sched) ran ∧ ran.stepSkippedWaiting = [] := by
  refine steps_keep (fun pass => ReflTransGen Moved (start cfg sched) pass ∧
    pass.stepSkippedWaiting = []) ?_ path ⟨.refl, rfl⟩
  rintro pass _ step ⟨path, held⟩
  have same := step.stepSkippedWaiting.trans held
  refine ⟨path.tail ?_, same⟩
  rw [Moved, same, held]
  exact step.moves []

variable [DecidableEq H]

theorem WaitingStep.moves (step : WaitingStep cfg pass next) : ∃ ref,
    Moves pass.scheduler pass.stepSkippedWaiting ref next.scheduler next.stepSkippedWaiting := by
  cases step with
  | promote front ready =>
    have promotes := promoteIfBlocked_ok ready
    exact ⟨_, promotes.moves (mem_outside_of_front _ front)⟩
  | skip front skipped => exact ⟨_, skipRequest_moves front skipped⟩
  | lookUp lookedUp => exact ⟨_, (lookUpComputed_looksUp lookedUp).moves _⟩
  | probe => exact ⟨0, .rest 0 rfl rfl rfl rfl (.refl _)⟩
  | refuse untouched =>
    obtain ⟨_, rfl⟩ := untouchEncoder_ok untouched
    exact ⟨0, .rest 0 rfl rfl rfl rfl (.refl _)⟩
  | @accept name ref _ _ mgr _ front fits accepted =>
    have frontAsked : ((pass.scheduler.withKv mgr).queue name).head? = some ref := by
      cases name <;> exact front
    have admits : Admits cfg (pass.withScheduler (pass.scheduler.withKv mgr)) name ref _
      next := admitRequest_ok frontAsked accepted
    have moves := admits.moves frontAsked
    exact ⟨ref, { moves with }⟩

theorem Passes.moved (passes : Passes cfg sched ran pass) :
    ReflTransGen Moved (start cfg sched) pass ∧ pass.stepSkippedWaiting = [] := by
  obtain ⟨running, held⟩ := moved_of_running passes.running
  have recorded : Moved ran (ran.lorasRecorded cfg) := by
    rw [Moved, lorasRecorded_rest]
    exact ⟨0, .rest 0 rfl rfl rfl rfl (.refl _)⟩
  obtain rfl | ⟨-, waited, path, -, rfl⟩ := passes.waiting
  · refine ⟨running.tail recorded, ?_⟩
    rw [lorasRecorded_rest]
    exact held
  · have waiting := ReflTransGen.mono (fun _ _ step => WaitingStep.moves step) _ _ path
    exact ⟨((running.tail recorded).trans waiting).tail (requeueSkipped_moved cfg waited), rfl⟩

theorem Passes.partitioned (passes : Passes cfg sched ran pass)
    (parts : Partitioned sched []) : Partitioned pass.scheduler [] := by
  obtain ⟨path, held⟩ := passes.moved
  rw [← held]
  refine steps_keep (fun pass => Partitioned pass.scheduler pass.stepSkippedWaiting) ?_ path
    (parts.withKv _)
  rintro pass next ⟨ref, moves⟩ before
  exact moves.partitioned before

end Pass

end Vllm
