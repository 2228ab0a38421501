import Vllm.Shm.RingBuffer

/-! The object storage in shared memory, and the cache of the front end over it. The
writer keeps the index of the objects and counts how often it names each of them; the
readers count their accesses in the chunk itself. `V` is the type of the objects and `P`
of prompt updates. -/
namespace Vllm
variable {V P : Type}

/-- `flag_bytes`, for the reader count. -/
def flagBytes : Nat := 4

/-- `serialize` gives the number of bytes of the data and of its metadata. -/
structure ObjectStorage (V : Type) where
  maxObjectSize : Nat
  nReaders : Nat
  serialize : V → Nat × Nat
  ringBuffer : RingBuffer V
  keyIndex : Dict String (Nat × Nat) := .empty
  idIndex : Dict Nat String := .empty
  writerFlag : Dict Nat Nat := .empty

namespace ObjectStorage

variable (store : ObjectStorage V) (id : Nat) (key : String)

def incrementWriterFlag : ObjectStorage V :=
  { store with
    writerFlag := store.writerFlag.set id ((store.writerFlag.get? id).getD 0 + 1) }

def readerCount (cell : Cell V) : Py (Nat × V) :=
  match cell.contents with
  | some contents => .ok contents
  | none => .error (.runtimeError "the chunk has not been written")

def defaultIsFreeCheck (cell : Cell V) : Py Bool := do
  let (count, _) ← readerCount cell
  match store.writerFlag.get? id with
  | none => .error (.keyError (toString id))
  | some writerCount => return decide (count ≥ writerCount * store.nReaders)

/-- The loop of `free_unused` over the freed ids. -/
def forget (store : ObjectStorage V) : List Nat → Py (ObjectStorage V)
  | [] => .ok store
  | freedId :: rest =>
    match store.idIndex.get? freedId with
    | none => .error (.keyError (toString freedId))
    | some keyToFree =>
      if store.keyIndex.contains keyToFree then
        if store.writerFlag.contains freedId then
          forget { store with
            keyIndex := store.keyIndex.erase keyToFree
            idIndex := store.idIndex.erase freedId
            writerFlag := store.writerFlag.erase freedId } rest
        else .error (.keyError (toString freedId))
      else .error (.keyError keyToFree)

/-- `free_unused`. Nothing is modelled of the state in which it raises. -/
def freeUnused : Py (ObjectStorage V) := do
  let (freedIds, ringBuffer) ← store.ringBuffer.freeBuf store.defaultIsFreeCheck
    (2 * store.maxObjectSize)
  forget { store with ringBuffer := ringBuffer } freedIds

def isCached : Bool := store.keyIndex.contains key

def getCached : Py ((Nat × Nat) × ObjectStorage V) :=
  match store.keyIndex.get? key with
  | none => .error (.keyError key)
  | some (address, monotonicId) =>
    .ok ((address, monotonicId), store.incrementWriterFlag monotonicId)

def stored (ringBuffer : RingBuffer V) (key : String) (value : V) (address monotonicId : Nat) :
    ObjectStorage V :=
  let written := { store with ringBuffer := ringBuffer.writeBuf address 0 value }
  let flagged := written.incrementWriterFlag monotonicId
  { flagged with
    keyIndex := flagged.keyIndex.set key (address, monotonicId)
    idIndex := flagged.idIndex.set monotonicId key }

def allocate (bufferSize : Nat) (key : String) (value : V) : ObjectStorage V × Py (Nat × Nat) :=
  match store.ringBuffer.allocateBuf bufferSize with
  | (ringBuffer, .error e) => ({ store with ringBuffer := ringBuffer }, .error e)
  | (ringBuffer, .ok (address, monotonicId)) =>
    (store.stored ringBuffer key value address monotonicId, .ok (address, monotonicId))

/-- A failed call leaves the storage it had reached. -/
def put (value : V) : Py (ObjectStorage V × Py (Nat × Nat)) :=
  if store.isCached key then
    .ok (store, .error (.valueError s!"Key '{key}' already exists in the storage."))
  else
    let (dataBytes, mdBytes) := store.serialize value
    let bufferSize := flagBytes + dataBytes + mdBytes
    if bufferSize > store.maxObjectSize then
      .ok (store, .error (.valueError (s!"Serialized object size ({bufferSize} bytes) exceeds " ++
        s!"max object size ({store.maxObjectSize} bytes)")))
    else match store.allocate bufferSize key value with
      | (failed, .error (.memoryError _)) => do
        let freed ← failed.freeUnused
        return freed.allocate bufferSize key value
      | result => .ok result

def setReaderCount (address count : Nat) (value : V) : Py (ObjectStorage V) := do
  let _ ← int2byte count
  return { store with ringBuffer := store.ringBuffer.writeBuf address count value }

def get (address monotonicId : Nat) : Py (V × ObjectStorage V) := do
  let cell ← store.ringBuffer.accessBuf address
  if cell.id ≠ monotonicId then
    .error (.valueError (s!"Data for address:id '{address}:{monotonicId}'" ++
      " has been modified or is invalid."))
  else do
    let (count, value) ← readerCount cell
    let read ← store.setReaderCount address (count + 1) value
    return (value, read)

def touch : ObjectStorage V :=
  match store.keyIndex.get? key with
  | none => store
  | some (_, monotonicId) => store.incrementWriterFlag monotonicId

def readerTouch (address : Nat) : Py (ObjectStorage V) := do
  let cell ← store.ringBuffer.accessBuf address
  let (count, value) ← readerCount cell
  if count ≥ store.nReaders then store.setReaderCount address (count + 1) value
  else return store

end ObjectStorage

structure ShmObjectStoreSenderCache (V P : Type) where
  shmCache : ObjectStorage V
  p0Cache : Dict String P := .empty
  hits : Nat := 0
  total : Nat := 0

/-- What is sent for an item: where it lies in the shared memory, or the item itself. -/
inductive SentItem (V : Type) where
  | address (address monotonicId : Nat)
  | item (value : V)

namespace ShmObjectStoreSenderCache

variable (cache : ShmObjectStoreSenderCache V P)

def touchSenderCacheItem (mmHash : String) : ShmObjectStoreSenderCache V P :=
  { cache with shmCache := cache.shmCache.touch mmHash }

def removeDanglingItems : ShmObjectStoreSenderCache V P :=
  let dangling := cache.p0Cache.keys.filter (fun mmHash => !cache.shmCache.isCached mmHash)
  { cache with p0Cache := dangling.foldl Dict.erase cache.p0Cache }

/-- The prompt updates of an item that has been stored. -/
def remember (mmHash : String) (promptUpdates : P) : ShmObjectStoreSenderCache V P :=
  let cleaned := if cache.p0Cache.size ≥ 2 * cache.shmCache.keyIndex.size then
      cache.removeDanglingItems
    else cache
  { cleaned with p0Cache := cleaned.p0Cache.set mmHash promptUpdates }

/-- A failed call leaves the cache it had reached. -/
def getAndUpdateItem (mmItem : Option (V × P)) (mmHash : String) :
    Py (ShmObjectStoreSenderCache V P × Py (SentItem V × P)) :=
  if cache.shmCache.isCached mmHash then do
    let counted := { cache with hits := cache.hits + 1, total := cache.total + 1 }
    let ((address, monotonicId), shmCache) ← counted.shmCache.getCached mmHash
    let named := { counted with shmCache := shmCache }
    match named.p0Cache.get? mmHash with
    | none => return (named, .error (.keyError mmHash))
    | some promptUpdates => return (named, .ok (.address address monotonicId, promptUpdates))
  else match mmItem with
    | none =>
      .ok (cache, .error (.assertionError s!"Expected a cached item for mm_hash='{mmHash}'"))
    | some (item, promptUpdates) => do
      let counted := { cache with total := cache.total + 1 }
      let (shmCache, result) ← counted.shmCache.put mmHash item
      let reached := { counted with shmCache := shmCache }
      match result with
      | .ok (address, monotonicId) =>
        return (reached.remember mmHash promptUpdates,
          .ok (.address address monotonicId, promptUpdates))
      | .error (.valueError _) | .error (.memoryError _) =>
        return (reached, .ok (.item item, promptUpdates))
      | .error e => return (reached, .error e)

end ShmObjectStoreSenderCache
end Vllm
