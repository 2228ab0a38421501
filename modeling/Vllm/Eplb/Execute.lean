import Vllm.Python
import Vllm.Lib.Share
import Vllm.Lib.Runs
import Vllm.Lib.Rows

/-! How expert weights move between ranks when experts are placed anew. Every rank works out
from the two global placements what it sends and what it receives. The weights of a slot stand
for the rows of all weight tensors at that slot: the source posts the operations of the tensors
of one expert one after another, on both sides. -/
namespace Vllm.Eplb
open Dict Runs Rows List

/-- An empty slot. -/
def noExpert : Int := -1

/-- Entries sorted by expert first, then by position. -/
def EntryLe (a b : Int × Nat) : Prop := a.1 < b.1 ∨ a.1 = b.1 ∧ a.2 ≤ b.2

instance : DecidableRel EntryLe := fun _ _ => instDecidableOr

instance : Std.Total EntryLe where
  total a b := by
    simp only [EntryLe]
    omega

instance : IsTrans (Int × Nat) EntryLe where
  trans a b c := by
    simp only [EntryLe]
    omega

instance : Std.Antisymm EntryLe where
  antisymm a b := by
    simp only [EntryLe]
    intro left right
    apply Prod.ext <;> omega

def relevantEntries (indices uniqueExperts : List Int) : List (Int × Nat) :=
  ((range indices.length).map (fun position => (indices.getD position noExpert, position))).filter
    (·.1 ∈ uniqueExperts)

/-- For every queried expert that occurs, the ranks it occurs on in order of first
appearance. -/
def groupRanks (indices uniqueExperts : List Int) (numLocalExperts : Nat) : List (Int × List Nat) :=
  let sorted := (relevantEntries indices uniqueExperts).insertionSort EntryLe
  (groupRuns (sorted.map (fun entry => (entry.1, entry.2 / numLocalExperts)))).map
    (fun run => (run.1, firsts run.2))

def recvRanksActual (ranksToSendMap : Dict Int (List Nat)) (expert : Int) (ranks : List Nat) :
    List Nat :=
  ranks.filter (· ∉ (ranksToSendMap.get? expert).getD [])

def getEpRanksWithExpertsBatch (expertIds : List Int) (numLocalExperts : Nat)
    (oldIndices newIndices : List Int) : Dict Int (List Nat) × Dict Int (List Nat) :=
  if expertIds = [] then (.empty, .empty)
  else
    let uniqueExperts := (unique expertIds).map Prod.fst
    let ranksToSendMap := setAll .empty (groupRanks oldIndices uniqueExperts numLocalExperts)
    let ranksToRecvMap := setAll .empty
      ((groupRanks newIndices uniqueExperts numLocalExperts).map (fun run =>
        (run.1, recvRanksActual ranksToSendMap run.1 run.2)))
    (setDefaults ranksToSendMap uniqueExperts [], setDefaults ranksToRecvMap uniqueExperts [])

def lookUp (map : Dict Int (List Nat)) (expert : Int) : Py (List Nat) :=
  match map.get? expert with
  | some ranks => .ok ranks
  | none => .error (.keyError (toString expert))

def index (ranks : List Nat) (rank : Nat) : Py Nat :=
  if rank ∈ ranks then .ok (ranks.idxOf rank)
  else .error (.valueError s!"{rank} is not in list")

def item (ranks : List Nat) (i : Nat) : Py Nat :=
  match ranks[i]? with
  | some rank => .ok rank
  | none => .error (.indexError "list index out of range")

/-- What a rank sees of the two placements in its own slots. -/
structure LocalExperts where
  old : List Int
  new : List Int

namespace LocalExperts

def ofRank (numLocalExperts : Nat) (oldIndices newIndices : List Int) (epRank : Nat) :
    LocalExperts where
  old := (range numLocalExperts).map
    (fun row => oldIndices.getD (epRank * numLocalExperts + row) noExpert)
  new := (range numLocalExperts).map
    (fun row => newIndices.getD (epRank * numLocalExperts + row) noExpert)

variable (here : LocalExperts)

def oldAt (row : Nat) : Int := here.old.getD row noExpert

def newAt (row : Nat) : Int := here.new.getD row noExpert

def isUnchanged (row : Nat) : Bool := here.oldAt row == here.newAt row

def newValid (row : Nat) : Bool := here.newAt row != noExpert

def isReceivedLocally (row : Nat) : Bool :=
  here.isUnchanged row || (here.newValid row && decide (here.newAt row ∈ here.old))

def sendRows : List (Int × Nat) :=
  firstRows (((range here.old.length).map (fun row => (here.oldAt row, row))).filter
    (·.1 ≠ noExpert))

def needRecv (row : Nat) : Bool := !here.isReceivedLocally row && here.newValid row

def recvRows : List (Int × Nat) :=
  firstRows (((range here.new.length).filter here.needRecv).map
    (fun row => (here.newAt row, row)))

def eligibleLocalBuffer (row : Nat) : Bool := !here.isUnchanged row && here.isReceivedLocally row

end LocalExperts

structure RecvMetadata where
  recvPrimaryMask : Nat → Bool
  /-- The received experts with their destination rows. -/
  recvRows : List (Int × Nat)

structure Send where
  expert : Int
  srcRow : Nat
  dst : Nat
  deriving DecidableEq

structure Recv where
  expert : Int
  dstRow : Nat
  src : Nat
  deriving DecidableEq

/-- The stable sort of the rows by expert. -/
def orderByExpert (rows : List (Int × Nat)) : List (Int × Nat) := rows.insertionSort (·.1 ≤ ·.1)

section
variable (epRank : Nat) (sendMap recvMap : Dict Int (List Nat)) (entry : Int × Nat)

def sendsOf : Py (List Send) := do
  let ranksToSend ← lookUp sendMap entry.1
  let ranksToRecv ← lookUp recvMap entry.1
  if ranksToSend = [] ∨ ranksToRecv = [] then .ok []
  else do
    let numDstPerSender := ranksToRecv.length / ranksToSend.length
    let senderPos ← index ranksToSend epRank
    let recvBegin := senderPos * numDstPerSender
    let remainderStart := ranksToSend.length * numDstPerSender
    let recvRanks := (ranksToRecv.drop recvBegin).take numDstPerSender ++
      (ranksToRecv[remainderStart + senderPos]?).toList
    .ok (recvRanks.map (fun dst => ⟨entry.1, entry.2, dst⟩))

def recvOf : Py (List Recv) := do
  let ranksToSend ← lookUp sendMap entry.1
  let ranksToRecv ← lookUp recvMap entry.1
  if ranksToSend = [] ∨ ranksToRecv = [] then .ok []
  else do
    let numDstPerSender := ranksToRecv.length / ranksToSend.length
    let recverPos ← index ranksToRecv epRank
    let remainderStart := ranksToSend.length * numDstPerSender
    let src ← item ranksToSend
      (if recverPos < remainderStart then recverPos / numDstPerSender
       else recverPos - remainderStart)
    .ok [⟨entry.1, entry.2, src⟩]

/-- What `move_to_buffer` has done on one rank when it starts the exchange. -/
structure Posted (W : Type) where
  isUnchanged : Nat → Bool
  isReceivedLocally : Nat → Bool
  recvMetadata : RecvMetadata
  buffer : Nat → W
  sends : List Send
  recvs : List Recv

end

variable {W : Type} (numLocalExperts : Nat) (oldIndices newIndices : List Int)

def localMoves (here : LocalExperts) (weights buffer : Nat → W) : Nat → W :=
  write buffer (((range here.new.length).filter here.eligibleLocalBuffer).filterMap
    (fun dst => (getIn (here.newAt dst) here.sendRows).map (fun src => (dst, weights src))))

section
variable (weights buffer : Nat → W) (isUnchanged isReceivedLocally : Nat → Bool)
  (recvMetadata : RecvMetadata) (epRank : Nat)

def postSends (sendRows : List (Int × Nat)) : Py (List Send) := do
  let ordered := orderByExpert sendRows
  let maps := getEpRanksWithExpertsBatch (ordered.map Prod.fst) numLocalExperts oldIndices newIndices
  let posted ← ordered.mapM (sendsOf epRank maps.1 maps.2)
  .ok posted.flatten

def postRecvs (recvRows : List (Int × Nat)) : Py (List Recv) := do
  let ordered := orderByExpert recvRows
  let maps := getEpRanksWithExpertsBatch (ordered.map Prod.fst) numLocalExperts oldIndices newIndices
  let posted ← ordered.mapM (recvOf epRank maps.1 maps.2)
  .ok posted.flatten

def moveToBuffer (weights buffers : Nat → Nat → W) (epRank : Nat) : Py (Posted W) := do
  Py.assert (oldIndices.length = newIndices.length) "old_indices.shape == new_indices.shape"
  let here := LocalExperts.ofRank numLocalExperts oldIndices newIndices epRank
  let sends ← postSends numLocalExperts oldIndices newIndices epRank here.sendRows
  let recvs ← postRecvs numLocalExperts oldIndices newIndices epRank here.recvRows
  .ok {
    isUnchanged := here.isUnchanged
    isReceivedLocally := here.isReceivedLocally
    recvMetadata := {
      recvPrimaryMask := fun row => decide (row ∈ here.recvRows.map Prod.snd)
      recvRows := here.recvRows }
    buffer := localMoves here (weights epRank) (buffers epRank)
    sends
    recvs }

/-- The sends of one rank to another, in the order in which they are posted. -/
def sendsTo (posted : List (Posted W)) (src dst : Nat) : List Send :=
  ((posted[src]?.map (·.sends)).getD []).filter (·.dst = dst)

/-- The receives of one rank from another, in the order in which they are posted. -/
def recvsFrom (posted : List (Posted W)) (dst src : Nat) : List Recv :=
  ((posted[dst]?.map (·.recvs)).getD []).filter (·.src = src)

/-- The batched exchange of the communication library, which fills the buffers of the ranks. -/
abbrev Exchange (W : Type) := (Nat → Nat → W) → List (Posted W) → Py (List (Nat → W))

def Matched (posted : List (Posted W)) : Prop :=
  ∀ src < posted.length, ∀ dst < posted.length,
    (sendsTo posted src dst).length = (recvsFrom posted dst src).length

/-- The rows that a rank receives when the first receive from each rank meets its first send, the
second its second and so on. -/
def deliveries (weights : Nat → Nat → W) (posted : List (Posted W)) (dst : Nat) : List (Nat × W) :=
  (range posted.length).flatMap (fun src =>
    ((recvsFrom posted dst src).zip (sendsTo posted src dst)).map
      (fun (recv, send) => (recv.dstRow, weights src send.srcRow)))

/-- An exchange completes if every operation meets one, and the operations meet in order. -/
def Exchange.InOrder (exchange : Exchange W) : Prop :=
  ∀ weights posted, Matched posted → ∃ filled, exchange weights posted = .ok filled ∧
    ∀ (dst : Nat) (mine : Posted W), posted[dst]? = some mine →
      filled[dst]? = some (write mine.buffer (deliveries weights posted dst))

def searchsorted (sorted : List Int) (value : Int) : Nat := (sorted.takeWhile (· < value)).length

/-- The rows that get a copy of a received row, with the row they copy. -/
def duplicateRows (localExperts : List Int) : List (Nat × Nat) :=
  let primary := orderByExpert recvMetadata.recvRows
  ((range localExperts.length).filter (fun row =>
      !isUnchanged row && !isReceivedLocally row &&
        (!recvMetadata.recvPrimaryMask row && localExperts.getD row noExpert != noExpert))).filterMap
    (fun dst =>
      let expert := localExperts.getD dst noExpert
      match primary[searchsorted (primary.map Prod.fst) expert]? with
      | some found => if found.1 = expert then some (dst, found.2) else none
      | none => none)

def moveFromBuffer : Nat → W :=
  let copied := write weights (((range numLocalExperts).filter (fun row =>
    !isUnchanged row && (isReceivedLocally row || recvMetadata.recvPrimaryMask row))).map
      (fun dst => (dst, buffer dst)))
  if recvMetadata.recvRows = [] then copied
  else
    let localExperts := (range numLocalExperts).map
      (fun row => newIndices.getD (epRank * numLocalExperts + row) noExpert)
    copyWithin copied (duplicateRows isUnchanged isReceivedLocally recvMetadata localExperts)

end

def moveLayer (exchange : Exchange W) (epSize : Nat) (weights buffers : Nat → Nat → W) : Py (Nat → Nat → W) := do
  let posted ← (range epSize).mapM
    (moveToBuffer numLocalExperts oldIndices newIndices weights buffers)
  let filled ← exchange weights posted
  .ok (fun epRank =>
    match posted[epRank]?, filled[epRank]? with
    | some mine, some buffer => moveFromBuffer numLocalExperts newIndices (weights epRank) buffer
        mine.isUnchanged mine.isReceivedLocally mine.recvMetadata epRank
    | _, _ => weights epRank)

end Vllm.Eplb
