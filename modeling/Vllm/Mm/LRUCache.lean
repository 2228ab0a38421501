import Vllm.Python
import Vllm.Lib.Dict
import Vllm.Lib.Loop

/-! The least-recently-used cache of the multimodal caches: a dictionary of values with
their sizes, and beside it the order in which keys were last used. Sizes are whole
numbers, and a fractional capacity compares with them as its floor does. -/
namespace Vllm

structure CacheInfo where
  hits : Nat
  total : Nat
  deriving DecidableEq, Repr

/-- `entries` holds for each key its value and the size that was recorded for it. -/
structure LRUCache (K V : Type) where
  capacity : Nat
  getsizeof : V → Nat
  entries : Dict K (V × Nat) := .empty
  currsize : Int := 0
  order : List K := []
  pinnedItems : List K := []
  hits : Nat := 0
  total : Nat := 0
  lastInfo : CacheInfo := ⟨0, 0⟩

namespace LRUCache
variable {K V : Type} [DecidableEq K] [ToString K] (cache : LRUCache K V)

def contains (key : K) : Bool := cache.entries.contains key

/-- A key that is not in the order is appended to it, whether it is stored or not. -/
def touch (key : K) : LRUCache K V :=
  if key ∈ cache.order then { cache with order := cache.order.erase key ++ [key] }
  else { cache with order := cache.order ++ [key] }

/-- `__getitem__` of the base class, `cachetools.LRUCache`. -/
def baseGetItem (key : K) : Py (V × LRUCache K V) :=
  match cache.entries.get? key with
  | none => .error (.keyError (toString key))
  | some (value, _) => .ok (value, cache.touch key)

/-- `__delitem__` of the base class. -/
def baseDelItem (key : K) : Py (LRUCache K V) :=
  match cache.entries.get? key with
  | none => .error (.keyError (toString key))
  | some (_, size) => .ok { cache with
      entries := cache.entries.erase key
      currsize := cache.currsize - size
      order := cache.order.erase key }

def getItem (key : K) (updateInfo : Bool) : Py (V × LRUCache K V) := do
  let (value, read) ← cache.baseGetItem key
  .ok (value, if updateInfo then { read with hits := read.hits + 1, total := read.total + 1 }
    else read)

def unpin (key : K) : LRUCache K V :=
  { cache with pinnedItems := cache.pinnedItems.filter (· ≠ key) }

def delItem (key : K) : Py (LRUCache K V) := do
  let (_, read) ← cache.getItem key false
  let deleted ← read.baseDelItem key
  return if key ∈ deleted.pinnedItems then deleted.unpin key else deleted

def get (key : K) : Py (Option V × LRUCache K V) :=
  if cache.contains key then do
    let (value, read) ← cache.getItem key false
    return (some value, { read with hits := read.hits + 1, total := read.total + 1 })
  else .ok (none, { cache with total := cache.total + 1 })

def pop (key : K) : Py (Option V × LRUCache K V) :=
  if cache.contains key then do
    let (value, read) ← cache.getItem key false
    let deleted ← read.delItem key
    return (some value, deleted)
  else .ok (none, cache)

def pin (cache : LRUCache K V) (key : K) : Py (LRUCache K V) :=
  if cache.contains key then .ok { cache with pinnedItems := cache.pinnedItems.insert key }
  else .error (.valueError s!"Cannot pin key: {key} not in cache.")

def lruKey (removePinned : Bool) : Py K :=
  if removePinned then
    match cache.order.head? with
    | some key => .ok key
    | none => .error .stopIteration
  else
    match cache.order.find? (fun key => decide (key ∉ cache.pinnedItems)) with
    | some key => .ok key
    | none => .error (.runtimeError "All items are pinned, cannot remove oldest from the cache.")

def popitem (removePinned : Bool := false) : Py ((K × Option V) × LRUCache K V) := do
  let key ← cache.lruKey removePinned
  let (value, popped) ← cache.pop key
  return ((key, value), popped)

def removeOldest (removePinned : Bool) : Py (LRUCache K V) :=
  if cache.entries.size = 0 then .ok cache
  else do
    let (_, popped) ← cache.popitem removePinned
    return popped

/-- The insertion looks for room unless the key is stored with at least this size. -/
def needsRoom (key : K) (size : Nat) : Bool :=
  match cache.entries.get? key with
  | none => true
  | some (_, stored) => stored < size

def overfull (size : Nat) (cache : LRUCache K V) : Bool := cache.currsize + size > cache.capacity

def evictOldest : Py (LRUCache K V) := do
  let (_, popped) ← cache.popitem
  return popped

/-- The loop `while currsize + size > maxsize: popitem()`. -/
def makeRoom (fuel : Nat) (cache : LRUCache K V) (size : Nat) :
    Option (LRUCache K V × Option PyError) :=
  Loop.loop (overfull size) evictOldest fuel cache

def store (key : K) (value : V) (size : Nat) : LRUCache K V :=
  let diffsize : Int := match cache.entries.get? key with
    | none => size
    | some (_, stored) => size - stored
  { cache with
    entries := cache.entries.set key (value, size)
    currsize := cache.currsize + diffsize }.touch key

/-- `__setitem__` of the base class. -/
def baseSetItem (fuel : Nat) (cache : LRUCache K V) (key : K) (value : V) :
    Option (LRUCache K V × Option PyError) :=
  let size := cache.getsizeof value
  if size > cache.capacity then some (cache, some (.valueError "value too large"))
  else if cache.needsRoom key size then
    match cache.makeRoom fuel size with
    | none => none
    | some (evicted, some e) => some (evicted, some e)
    | some (evicted, none) => some (evicted.store key value size, none)
  else some (cache.store key value size, none)

def put (fuel : Nat) (cache : LRUCache K V) (key : K) (value : V) :
    Option (LRUCache K V × Option PyError) :=
  cache.baseSetItem fuel key value

def nonempty : Bool := cache.entries.size > 0

def clear (fuel : Nat) (cache : LRUCache K V) : Option (LRUCache K V × Option PyError) :=
  match Loop.loop nonempty (removeOldest · true) fuel cache with
  | none => none
  | some (emptied, some e) => some (emptied, some e)
  | some (emptied, none) =>
    some ({ emptied with hits := 0, total := 0, lastInfo := ⟨0, 0⟩ }, none)

end LRUCache
end Vllm
