import Vllm.Python
import Vllm.Lib.Dict

/-! The ring buffer in shared memory, with one writer. `V` is the type of the objects; an
object lies in the memory as a whole, and overwriting any byte of its chunk destroys
it. -/
namespace Vllm

/-- Ids are stored in four signed bytes. -/
def idMax : Nat := 2 ^ 31

/-- Four bytes for the id and four for the size of a chunk. -/
def mdSize : Nat := 8

def int2byte (integer : Nat) : Py Nat :=
  if integer < idMax then .ok integer else .error (.overflowError "int too big to convert")

/-- A chunk as it lies in the memory, with its header, the reader count and the object. The
last two are written after the header. -/
structure Cell (V : Type) where
  idx : Nat
  size : Nat
  id : Nat
  contents : Option (Nat × V) := none

/-- `metadata` leads from the ids of the chunks that are not freed to their addresses. -/
structure RingBuffer (V : Type) where
  dataBufferSize : Nat
  dataBufferSize_pos : 0 < dataBufferSize
  monotonicIdEnd : Nat := 0
  monotonicIdStart : Nat := 0
  dataBufferStart : Nat := 0
  dataBufferEnd : Nat := 0
  metadata : Dict Nat Nat := .empty
  memory : List (Cell V) := []

namespace RingBuffer
variable {V : Type}

/-- What is left of the memory after `size` bytes from `idx` on are written. -/
def clobber (memory : List (Cell V)) (idx size : Nat) : List (Cell V) :=
  memory.filter (fun cell => cell.idx + cell.size ≤ idx ∨ idx + size ≤ cell.idx)

variable (ring : RingBuffer V)

/-- The end moves to the start of the buffer if the chunk does not fit before its end. -/
def bufferEndReset (size : Nat) : Nat :=
  if ring.dataBufferEnd % ring.dataBufferSize + size > ring.dataBufferSize then
    (ring.dataBufferEnd / ring.dataBufferSize + 1) * ring.dataBufferSize
  else ring.dataBufferEnd

/-- A failed call leaves the buffer it had reached: when the size cannot be stored, the
id is already written. -/
def allocateBuf (size : Nat) : RingBuffer V × Py (Nat × Nat) :=
  if size = 0 then (ring, .error (.assertionError "Size must be greater than 0"))
  else
    let size := size + mdSize
    let reset := ring.bufferEndReset size
    if reset + size > ring.dataBufferStart + ring.dataBufferSize then
      (ring, .error (.memoryError ("Not enough space in the data buffer, " ++
        "try calling free_buf() to free up space")))
    else
      let bufIdx := reset % ring.dataBufferSize
      match int2byte size with
      | .error e =>
        ({ ring with dataBufferEnd := reset, memory := clobber ring.memory bufIdx 4 }, .error e)
      | .ok stored =>
        ({ ring with
            metadata := ring.metadata.set (ring.monotonicIdEnd % idMax) reset
            memory := ⟨bufIdx, stored, ring.monotonicIdEnd, none⟩ :: clobber ring.memory bufIdx size
            dataBufferEnd := reset + size
            monotonicIdEnd := (ring.monotonicIdEnd + 1) % idMax },
          .ok (reset, ring.monotonicIdEnd))

/-- `access_buf`. Bytes that are not those of a chunk have no meaning in the model. -/
def accessBuf (address : Nat) : Py (Cell V) :=
  match ring.memory.find? (fun cell => cell.idx = address % ring.dataBufferSize) with
  | some cell => .ok cell
  | none => .error (.runtimeError "no chunk at this address")

/-- The reader count and the object of the chunk at an address are written. -/
def writeBuf (address : Nat) (count : Nat) (value : V) : RingBuffer V :=
  { ring with memory := ring.memory.map (fun cell =>
      if cell.idx = address % ring.dataBufferSize then { cell with contents := some (count, value) }
      else cell) }

def release : RingBuffer V :=
  let metadata := ring.metadata.erase ring.monotonicIdStart
  let monotonicIdStart := (ring.monotonicIdStart + 1) % idMax
  match metadata.get? monotonicIdStart with
  | some address => { ring with
      metadata := metadata
      monotonicIdStart := monotonicIdStart
      dataBufferStart := ring.dataBufferStart +
        (((address : Int) - ring.dataBufferStart) % ring.dataBufferSize).toNat }
  | none => { ring with
      metadata := metadata
      monotonicIdStart := monotonicIdStart
      dataBufferStart := 0
      dataBufferEnd := 0 }

/-- The loop of `free_buf`. Every turn but the last removes an entry of `metadata`. -/
def freeLoop (isFree : Nat → Cell V → Py Bool) (nbytes : Nat) :
    (turns : Nat) → RingBuffer V → (freedBytes : Nat) → Py (RingBuffer V)
  | 0, ring, _ => .ok ring
  | turns + 1, ring, freedBytes =>
    match ring.metadata.get? ring.monotonicIdStart with
    | none => .ok ring
    | some address =>
      if freedBytes < nbytes then do
        let cell ← ring.accessBuf address
        let free ← isFree ring.monotonicIdStart cell
        if free then freeLoop isFree nbytes turns ring.release (freedBytes + cell.size)
        else return ring
      else .ok ring

/-- The start never passes the end, so that both stay above zero. -/
def wrapAround : RingBuffer V :=
  if ring.dataBufferStart ≥ ring.dataBufferSize then
    { ring with
      dataBufferStart := ring.dataBufferStart - ring.dataBufferSize
      dataBufferEnd := ring.dataBufferEnd - ring.dataBufferSize }
  else ring

def idRange (before after : Nat) : List Nat :=
  if after ≥ before then List.range' before (after - before)
  else List.range' before (idMax - before) ++ List.range after

def freeBuf (isFree : Nat → Cell V → Py Bool) (nbytes : Nat) : Py (List Nat × RingBuffer V) := do
  let freed ← freeLoop isFree nbytes ring.metadata.size ring 0
  return (idRange ring.monotonicIdStart freed.monotonicIdStart, freed.wrapAround)

end RingBuffer
end Vllm
