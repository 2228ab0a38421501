import Vllm.Lib.Heap
import Vllm.Request

/-! The queues of waiting requests. A queue holds references to request objects; the
first-come-first-served queue is a deque, the priority queue a heap whose order is
read from the objects at each call. -/
namespace Vllm
variable {H : Type}

inductive SchedulingPolicy where
  | fcfs
  | priority
  deriving DecidableEq, Repr

abbrev Ref := Nat

/-- `Request.__lt__`. References stand for the addresses that `id` returns. -/
def requestLt (objects : Ref → Request H) (self other : Ref) : Bool :=
  let req := objects self
  let against := objects other
  if req.priority ≠ against.priority then req.priority < against.priority
  else if req.arrivalTime ≠ against.arrivalTime then req.arrivalTime < against.arrivalTime
  else if req.requestId ≠ against.requestId then req.requestId < against.requestId
  else self < other

/-- The items of an `FCFSRequestQueue`, or the heap of a `PriorityRequestQueue`. -/
abbrev RequestQueue := List Ref

namespace RequestQueue
variable (policy : SchedulingPolicy) (lt : Ref → Ref → Bool) (queue : RequestQueue) (req : Ref)

def addRequest : RequestQueue :=
  match policy with
  | .fcfs => queue ++ [req]
  | .priority => Heap.heappush lt queue req

def popRequest : Py (Ref × RequestQueue) :=
  match policy with
  | .fcfs =>
    match queue with
    | [] => .error (.indexError "pop from an empty deque")
    | req :: rest => .ok (req, rest)
  | .priority =>
    match Heap.heappop lt queue with
    | none => .error (.indexError "pop from empty heap")
    | some popped => .ok popped

def peekRequest : Py Ref :=
  match queue, policy with
  | [], .fcfs => .error (.indexError "peek from an empty queue")
  | [], .priority => .error (.indexError "peek from empty heap")
  | req :: _, _ => .ok req

def prependRequest : RequestQueue :=
  match policy with
  | .fcfs => req :: queue
  | .priority => addRequest .priority lt queue req

def iter : List Ref :=
  match policy with
  | .fcfs => queue
  | .priority => Heap.drain lt queue.length queue

/-- `extendleft` reverses the order of the requests it prepends. -/
def prependRequests (requests : RequestQueue) : RequestQueue :=
  match policy with
  | .fcfs => requests.reverse ++ queue
  | .priority => (iter .priority lt requests).foldl (addRequest .priority lt) queue

def removeRequests (requests : List Ref) : RequestQueue :=
  let filtered := queue.filter (fun req => req ∉ requests)
  match policy with
  | .fcfs => filtered
  | .priority => Heap.heapify lt filtered

variable {policy lt}

theorem addRequest_perm : (addRequest policy lt queue req).Perm (req :: queue) := by
  cases policy with
  | fcfs => exact List.perm_append_comm
  | priority => exact Heap.heappush_perm lt queue req

theorem prependRequest_perm : (prependRequest policy lt queue req).Perm (req :: queue) := by
  cases policy with
  | fcfs => exact .refl _
  | priority => exact Heap.heappush_perm lt queue req

theorem peekRequest_ok {queue : RequestQueue} {req : Ref}
    (peeked : peekRequest policy queue = .ok req) : queue.head? = some req := by
  cases queue with
  | nil => cases policy <;> cases peeked
  | cons first rest =>
    cases peeked
    rfl

/-- What is popped is what was peeked at, and it leaves the queue once. -/
theorem popRequest_ok {queue : RequestQueue} {req : Ref}
    (popped : popRequest policy lt queue = .ok (req, rest)) :
    queue.head? = some req ∧ queue.Perm (req :: rest) := by
  cases policy with
  | fcfs =>
    cases queue with
    | nil => cases popped
    | cons first others =>
      cases popped
      exact ⟨rfl, .refl _⟩
  | priority =>
    simp only [popRequest] at popped
    cases taken : Heap.heappop lt queue with
    | none =>
      rw [taken] at popped
      cases popped
    | some pair =>
      rw [taken] at popped
      cases popped
      exact ⟨Heap.heappop_head lt taken, Heap.heappop_perm lt taken⟩

theorem iter_perm : (iter policy lt queue).Perm queue := by
  cases policy with
  | fcfs => exact .refl _
  | priority => exact Heap.drain_perm lt _ _ (Nat.le_refl _)

theorem prependRequests_perm (requests : RequestQueue) :
    (prependRequests policy lt queue requests).Perm (requests ++ queue) := by
  cases policy with
  | fcfs => exact (List.reverse_perm requests).append_right queue
  | priority =>
    have pushes (items : List Ref) (queue : RequestQueue) :
        (items.foldl (addRequest .priority lt) queue).Perm (items ++ queue) := by
      induction items generalizing queue with
      | nil => exact .refl _
      | cons item items ih =>
        calc ((item :: items).foldl (addRequest .priority lt) queue)
            |>.Perm (items ++ addRequest .priority lt queue item) := ih _
          _ |>.Perm (items ++ item :: queue) := (addRequest_perm queue item).append_left items
          _ |>.Perm (item :: items ++ queue) := List.perm_middle
    exact (pushes _ queue).trans ((iter_perm requests).append_right queue)

theorem removeRequests_perm (requests : List Ref) : (removeRequests policy lt queue requests).Perm
      (queue.filter (fun req => req ∉ requests)) := by
  cases policy with
  | fcfs => exact .refl _
  | priority => exact Heap.heapify_perm lt _

end RequestQueue
end Vllm
