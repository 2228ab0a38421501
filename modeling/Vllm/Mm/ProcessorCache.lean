import Vllm.Mm.LRUCache

/-! The two ends of the multimodal cache. The front end (P0) keeps the sizes of the items
it has sent, and sends `None` for an item that is among them; the engine core (P1) keeps
the items. `D` is the type of raw data, `I` of processed items and `P` of prompt updates. -/
namespace Vllm

/-- An item of a prompt: the hash and the data that the front end gets, and the place of
its placeholder in the prompt. -/
structure MmDataItem (D : Type) where
  mmHash : String
  data : Option D
  offset : Nat

/-- The multimodal part of a request, modality by modality. `accepted` tells whether the
input validation after the processing lets the request through. -/
structure MmRequest (D : Type) where
  mmItems : List (String × List (MmDataItem D))
  /-- The name of the adapter if identifiers depend on it. -/
  loraName : Option String := none
  accepted : Bool := true

structure MmProcessor (D I P : Type) where
  process : D → I × P
  getItemSize : I → Nat

structure MultiModalProcessorCacheItemMetadata (P : Type) where
  itemSize : Nat
  promptUpdates : P

structure MmFeature (I : Type) where
  data : Option I
  identifier : String
  mmHash : Option String

variable {D I P : Type}

/-- Calls in a row: the first one that raises ends them, and leaves the state it had
reached. Without enough fuel there is no state. -/
def callAll {S A B : Type} (call : S → A → Option (S × Py B)) : S → List A →
    Option (S × Py (List B))
  | state, [] => some (state, .ok [])
  | state, arg :: rest =>
    match call state arg with
    | none => none
    | some (next, .error e) => some (next, .error e)
    | some (next, .ok result) =>
      match callAll call next rest with
      | none => none
      | some (last, .error e) => some (last, .error e)
      | some (last, .ok results) => some (last, .ok (result :: results))

theorem callAll_cons (ran : callAll call state (arg :: rest) = some (last, .ok results)) :
    ∃ next result later, call state arg = some (next, .ok result) ∧
      callAll call next rest = some (last, .ok later) ∧ results = result :: later := by
  rw [callAll] at ran
  split at ran
  · cases ran
  · cases ran
  · split at ran
    · cases ran
    · cases ran
    · cases ran
      exact ⟨_, _, _, ‹_›, ‹_›, rfl⟩

/-- `get_and_update_item`: what is stored of an item, and what is returned for one that is
found and for one that is passed. -/
def LRUCache.getAndUpdateItem {V A B : Type} (store : A → V) (hit : V → B) (pass : A → B)
    (fuel : Nat) (cache : LRUCache String V) (mmItem : Option A) (mmHash : String) :
    Option (LRUCache String V × Py B) :=
  match cache.get mmHash with
  | .error e => some (cache, .error e)
  | .ok (some cachedItem, read) => some (read, .ok (hit cachedItem))
  | .ok (none, read) =>
    match mmItem with
    | none =>
      some (read, .error (.assertionError s!"Expected a cached item for mm_hash='{mmHash}'"))
    | some item =>
      match read.put fuel mmHash (store item) with
      | none => none
      | some (stored, some e) => some (stored, .error e)
      | some (stored, none) => some (stored, .ok (pass item))

/-- `MultiModalProcessorOnlyCache`. -/
abbrev ProcessorOnlyCache (I P : Type) := LRUCache String (I × P)

namespace ProcessorOnlyCache

def getAndUpdateItem (fuel : Nat) (cache : ProcessorOnlyCache I P) (mmItem : Option (I × P))
    (mmHash : String) : Option (ProcessorOnlyCache I P × Py (I × P)) :=
  LRUCache.getAndUpdateItem id id id fuel cache mmItem mmHash

def mergeMmKwargs (fuel : Nat) (cache : ProcessorOnlyCache I P)
    (picked : List (String × Option (I × P))) : Option (ProcessorOnlyCache I P × Py (List (I × P))) :=
  callAll (fun now entry => getAndUpdateItem fuel now entry.2 entry.1)
    (picked.foldl (fun now entry => now.touch entry.1) cache) picked

end ProcessorOnlyCache

/-- `MultiModalProcessorSenderCache`. -/
abbrev SenderCache (P : Type) := LRUCache String (MultiModalProcessorCacheItemMetadata P)

/-- `MultiModalReceiverCache`. -/
abbrev ReceiverCache (I : Type) := LRUCache String I

variable (req : MmRequest D)

namespace MmRequest

def walk : List (MmDataItem D) := req.mmItems.flatMap (·.2)

def senderHashes : List String := req.walk.map (·.mmHash)

def getMmIdentifier (mmHash : String) : String :=
  match req.loraName with
  | none => mmHash
  | some loraName => s!"{loraName}:{mmHash}"

end MmRequest

namespace SenderCache

variable (proc : MmProcessor D I P) (fuel : Nat) (cache : SenderCache P)

def isCachedItem (mmHash : String) : Bool := cache.contains mmHash

def getAndUpdateItem (mmItem : Option (I × P))
    (mmHash : String) : Option (SenderCache P × Py (Option I × P)) :=
  match cache.get mmHash with
  | .error e => some (cache, .error e)
  | .ok (some cachedItem, read) => some (read, .ok (none, cachedItem.promptUpdates))
  | .ok (none, read) =>
    match mmItem with
    | none =>
      some (read, .error (.assertionError s!"Expected a cached item for mm_hash='{mmHash}'"))
    | some (item, promptUpdates) =>
      match read.put fuel mmHash ⟨proc.getItemSize item, promptUpdates⟩ with
      | none => none
      | some (stored, some e) => some (stored, .error e)
      | some (stored, none) => some (stored, .ok (some item, promptUpdates))

def missingData (cache : SenderCache P) (modality : String) :
    (idx : Nat) → List (MmDataItem D) → Py (List D)
  | _, [] => .ok []
  | idx, item :: rest =>
    if cache.isCachedItem item.mmHash then missingData cache modality (idx + 1) rest
    else match item.data with
      | none => .error (.valueError
          s!"Cache miss for {modality} at index {idx} but data is not provided.")
      | some data => do
        let others ← missingData cache modality (idx + 1) rest
        return data :: others

/-- The item that `_merge_mm_kwargs` passes for each hash: the next processed one for a
hash that was missing, none for one that was cached. -/
def pickItems : List (String × Bool) → List (I × P) → Py (List (String × Option (I × P)))
  | [], _ => .ok []
  | (mmHash, true) :: rest, missing => do
    let others ← pickItems rest missing
    return (mmHash, none) :: others
  | (_, false) :: _, [] => .error (.indexError "list index out of range")
  | (mmHash, false) :: rest, item :: missing => do
    let others ← pickItems rest missing
    return (mmHash, some item) :: others

def pickModality (entry : String × List (MmDataItem D)) : Py (List (String × Option (I × P))) := do
  let data ← cache.missingData entry.1 0 entry.2
  pickItems (entry.2.map (fun item => (item.mmHash, cache.isCachedItem item.mmHash)))
    (data.map proc.process)

def pickAll (proc : MmProcessor D I P) (cache : SenderCache P) :
    List (String × List (MmDataItem D)) → Py (List (String × Option (I × P)))
  | [] => .ok []
  | entry :: rest => do
    let picked ← cache.pickModality proc entry
    let others ← cache.pickAll proc rest
    return picked ++ others

def mergeMmKwargs
    (picked : List (String × Option (I × P))) : Option (SenderCache P × Py (List (Option I × P))) :=
  callAll (fun now entry => getAndUpdateItem proc fuel now entry.2 entry.1)
    (picked.foldl (fun now entry => now.touch entry.1) cache) picked

/-- The cached part of `_cached_apply_hf_processor`. -/
def cachedApply (req : MmRequest D) : Option (SenderCache P × Py (List (Option I × P))) :=
  match cache.pickAll proc req.mmItems with
  | .error e => some (cache, .error e)
  | .ok picked => cache.mergeMmKwargs proc fuel picked

end SenderCache

/-- `argsort_mm_positions`, and the features made in that order. -/
def MmRequest.features (kwargs : List (Option I × P)) : List (MmFeature I) :=
  (((req.walk.zip kwargs).insertionSort (fun one two => one.1.offset ≤ two.1.offset)).map
    (fun entry =>
      { data := entry.2.1
        identifier := req.getMmIdentifier entry.1.mmHash
        mmHash := some entry.1.mmHash }))

namespace ReceiverCache

variable (fuel : Nat) (cache : ReceiverCache I)

def getAndUpdateItem (mmItem : Option I) (mmHash : String) : Option (ReceiverCache I × Py I) :=
  match cache.get mmHash with
  | .error e => some (cache, .error e)
  | .ok (some cachedItem, read) => some (read, .ok cachedItem)
  | .ok (none, read) =>
    match mmItem with
    | none =>
      some (read, .error (.assertionError s!"Expected a cached item for mm_hash='{mmHash}'"))
    | some item =>
      match read.put fuel mmHash item with
      | none => none
      | some (stored, some e) => some (stored, .error e)
      | some (stored, none) => some (stored, .ok item)

/-- `feature.mm_hash or feature.identifier`. -/
def cacheKey (feat : MmFeature I) : String :=
  match feat.mmHash with
  | some mmHash => if mmHash = "" then feat.identifier else mmHash
  | none => feat.identifier

def getAndUpdateFeatures (mmFeatures : List (MmFeature I))
    : Option (ReceiverCache I × Py (List I)) :=
  callAll (fun now feat => getAndUpdateItem fuel now feat.data (cacheKey feat))
    (mmFeatures.foldl (fun now feat => now.touch (cacheKey feat)) cache) mmFeatures

end ReceiverCache

structure MmCaches (I P : Type) where
  sender : SenderCache P
  receiver : ReceiverCache I

inductive MmFailure where
  | outOfFuel
  | receiver (e : PyError)
  deriving DecidableEq

namespace MmCaches

variable (proc : MmProcessor D I P)

def init (capacity : Nat) : MmCaches I P where
  sender := { capacity := capacity, getsizeof := (·.itemSize) }
  receiver := { capacity := capacity, getsizeof := proc.getItemSize }

/-- One request. One that fails in the front end, or is rejected by it, leaves what it
did to the sender cache and never reaches the engine core. -/
def exec (fuel : Nat) (caches : MmCaches I P) (req : MmRequest D)
    : Except MmFailure (MmCaches I P) :=
  match caches.sender.cachedApply proc fuel req with
  | none => .error .outOfFuel
  | some (sender, .error _) => .ok { caches with sender := sender }
  | some (sender, .ok kwargs) =>
    if req.accepted then
      match caches.receiver.getAndUpdateFeatures fuel (req.features kwargs) with
      | none => .error .outOfFuel
      | some (_, .error e) => .error (.receiver e)
      | some (receiver, .ok _) => .ok ⟨sender, receiver⟩
    else .ok { caches with sender := sender }

end MmCaches
end Vllm
