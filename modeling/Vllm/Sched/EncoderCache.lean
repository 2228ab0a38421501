import Vllm.Request
import Vllm.Lib.Dict

/-! The managers of the encoder cache. `EncoderCacheManager` records which encoder
outputs the workers hold and which requests refer to them; outputs without a reference
are evicted when their room is needed. `EncoderDecoderCacheManager` only counts. -/
namespace Vllm
variable {H : Type}

namespace PlaceholderRange

/-- A mask has one entry for each position, and a placeholder has a position. -/
def getNumEmbeds (range : PlaceholderRange) : Nat :=
  match range.isEmbed with
  | none => range.length
  | some mask => mask.count true

/-- `embeds_cumsum[i]`. -/
def embedsCumsum (mask : List Bool) (i : Int) : Py Int :=
  match Py.place mask.length i with
  | none => .error (.indexError "index out of range")
  | some k => .ok ((mask.take (k + 1)).count true)

def embedsStart (mask : List Bool) (startIdx : Int) : Py Int :=
  if startIdx > 0 then embedsCumsum mask (startIdx - 1) else .ok 0

def getEmbedsIndicesInRange (range : PlaceholderRange) (startIdx endIdx : Int) : Py (Int × Int) :=
  match range.isEmbed with
  | none => .ok (startIdx, endIdx)
  | some mask => do
    let embedsStartIdx ← embedsStart mask startIdx
    let embedsEndIdx ← embedsCumsum mask (endIdx - 1)
    return (embedsStartIdx, embedsEndIdx)

end PlaceholderRange

namespace Request

/-- `mm_features[input_id]`. -/
def mmFeature (req : Request H) (inputId : Nat) : Py MultiModalFeatureSpec :=
  match req.mmFeatures[inputId]? with
  | none => .error (.indexError "list index out of range")
  | some feat => .ok feat

def getNumEncoderEmbeds (req : Request H) (inputId : Nat) : Py Nat :=
  match req.mmFeatures[inputId]? with
  | none => .error (.assertionError "input_id < len(self.mm_features)")
  | some feat => .ok feat.mmPosition.getNumEmbeds

end Request

structure EncoderCacheManager where
  cacheSize : Nat
  numFreeSlots : Int
  numFreeableSlots : Int
  /-- The requests that refer to each cached output. -/
  cached : Dict String (List String)
  freeable : Dict String Nat
  freed : List String

namespace EncoderCacheManager

def init (cacheSize : Nat) : EncoderCacheManager where
  cacheSize := cacheSize
  numFreeSlots := cacheSize
  numFreeableSlots := cacheSize
  cached := .empty
  freeable := .empty
  freed := []

variable (mgr : EncoderCacheManager)

def reset : EncoderCacheManager := init mgr.cacheSize

def addReference (references : List String) (requestId : String) : List String :=
  if requestId ∈ references then references else references ++ [requestId]

/-- An output that nobody refers to is taken out of `freeable`. -/
def unfree (mmHash : String) (references : List String) : Py EncoderCacheManager :=
  if references.isEmpty then
    match mgr.freeable.get? mmHash with
    | none => .error (.keyError mmHash)
    | some numEncoderEmbeds => .ok { mgr with
        freeable := mgr.freeable.erase mmHash
        numFreeableSlots := mgr.numFreeableSlots - numEncoderEmbeds }
  else .ok mgr

variable (req : Request H)

def checkAndUpdateCache (inputId : Nat) : Py (Bool × EncoderCacheManager) := do
  let feat ← req.mmFeature inputId
  match mgr.cached.get? feat.identifier with
  | none => return (false, mgr)
  | some references =>
    let held ← mgr.unfree feat.identifier references
    return (true, { held with
      cached := held.cached.set feat.identifier (addReference references req.requestId) })

def evict (numEmbeds : Int) : List (String × Nat) → EncoderCacheManager → Py EncoderCacheManager
  | [], mgr =>
    if numEmbeds ≤ mgr.numFreeSlots then .ok mgr
    else .error (.keyError "dictionary is empty")
  | (mmHash, numFreeEmbeds) :: rest, mgr =>
    if numEmbeds ≤ mgr.numFreeSlots then .ok mgr
    else if mgr.cached.contains mmHash then
      evict numEmbeds rest { mgr with
        freeable := mgr.freeable.erase mmHash
        cached := mgr.cached.erase mmHash
        freed := mgr.freed ++ [mmHash]
        numFreeSlots := mgr.numFreeSlots + numFreeEmbeds }
    else .error (.keyError mmHash)

def canAllocate (inputId : Nat)
    (encoderComputeBudget numEmbedsToSchedule : Int) : Py (Bool × EncoderCacheManager) := do
  let numEncoderEmbeds ← req.getNumEncoderEmbeds inputId
  if numEncoderEmbeds > encoderComputeBudget then return (false, mgr)
  else
    let numEmbeds := numEncoderEmbeds + numEmbedsToSchedule
    if numEmbeds ≤ mgr.numFreeSlots then return (true, mgr)
    else if numEmbeds > mgr.numFreeableSlots then return (false, mgr)
    else
      let evicted ← evict numEmbeds mgr.freeable.entries mgr
      return (true, evicted)

def allocate (inputId : Nat) : Py EncoderCacheManager := do
  let feat ← req.mmFeature inputId
  let numEncoderEmbeds ← req.getNumEncoderEmbeds inputId
  Py.assert (mgr.numFreeSlots ≥ numEncoderEmbeds) "self.num_free_slots >= num_encoder_embeds"
  Py.assert (mgr.numFreeableSlots ≥ numEncoderEmbeds)
    "self.num_freeable_slots >= num_encoder_embeds"
  return { mgr with
    cached := mgr.cached.set feat.identifier
      (addReference ((mgr.cached.get? feat.identifier).getD []) req.requestId)
    numFreeSlots := mgr.numFreeSlots - numEncoderEmbeds
    numFreeableSlots := mgr.numFreeableSlots - numEncoderEmbeds }

/-- The set is listed in increasing order. -/
def getCachedInputIds : List Nat :=
  (List.range req.mmFeatures.length).filter (fun inputId =>
    match req.mmFeatures[inputId]? with
    | none => false
    | some feat => mgr.cached.contains feat.identifier)

def freeEncoderInput (inputId : Nat) : Py EncoderCacheManager := do
  let feat ← req.mmFeature inputId
  match mgr.cached.get? feat.identifier with
  | none => return mgr
  | some [] => return mgr
  | some references =>
    let remaining := references.filter (· ≠ req.requestId)
    let dropped := { mgr with cached := mgr.cached.set feat.identifier remaining }
    if remaining.isEmpty then
      let numEncoderEmbeds ← req.getNumEncoderEmbeds inputId
      return { dropped with
        freeable := dropped.freeable.set feat.identifier numEncoderEmbeds
        numFreeableSlots := dropped.numFreeableSlots + numEncoderEmbeds }
    else return dropped

def free : Py EncoderCacheManager :=
  (mgr.getCachedInputIds req).foldlM (fun mgr => mgr.freeEncoderInput req)
    mgr

def getFreedMmHashes : List String × EncoderCacheManager :=
  (mgr.freed, { mgr with freed := [] })

end EncoderCacheManager

structure EncoderDecoderCacheManager where
  cacheSize : Nat
  numFreeSlots : Int
  allocated : List String
  toFree : List String

namespace EncoderDecoderCacheManager

variable (mgr : EncoderDecoderCacheManager) (req : Request H) (inputId : Nat)

def init (cacheSize : Nat) : EncoderDecoderCacheManager where
  cacheSize := cacheSize
  numFreeSlots := cacheSize
  allocated := []
  toFree := []

def reset : EncoderDecoderCacheManager :=
  init mgr.cacheSize

def canAllocate (encoderComputeBudget numEmbedsToSchedule : Int) : Py Bool := do
  let numEncoderEmbeds ← req.getNumEncoderEmbeds inputId
  if numEncoderEmbeds > encoderComputeBudget then return false
  else return numEncoderEmbeds + numEmbedsToSchedule ≤ mgr.numFreeSlots

def allocate : Py EncoderDecoderCacheManager := do
  let numEncoderEmbeds ← req.getNumEncoderEmbeds inputId
  let feat ← req.mmFeature inputId
  return { mgr with
    numFreeSlots := mgr.numFreeSlots - numEncoderEmbeds
    allocated := mgr.allocated ++ [feat.identifier] }

def getCachedInputIds : List Nat := List.range req.mmFeatures.length

def freeEncoderInput : Py EncoderDecoderCacheManager := do
  let numEncoderEmbeds ← req.getNumEncoderEmbeds inputId
  return { mgr with numFreeSlots := mgr.numFreeSlots + numEncoderEmbeds }

def free : Py EncoderDecoderCacheManager :=
  (List.range req.mmFeatures.length).foldlM
    (fun mgr => mgr.freeEncoderInput req) mgr

def getFreedMmHashes : List String × EncoderDecoderCacheManager :=
  (mgr.toFree, { mgr with toFree := mgr.allocated, allocated := [] })

end EncoderDecoderCacheManager

inductive EncoderCache where
  | decoderOnly (mgr : EncoderCacheManager)
  | encoderDecoder (mgr : EncoderDecoderCacheManager)

namespace EncoderCache

def init (isEncoderDecoder : Bool) (cacheSize : Nat) : EncoderCache :=
  if isEncoderDecoder then .encoderDecoder (.init cacheSize) else .decoderOnly (.init cacheSize)

def reset : EncoderCache → EncoderCache
  | .decoderOnly mgr => .decoderOnly mgr.reset
  | .encoderDecoder mgr => .encoderDecoder mgr.reset

def checkAndUpdateCache (req : Request H) (inputId : Nat) :
    EncoderCache → Py (Bool × EncoderCache)
  | .decoderOnly mgr => do
    let (hit, next) ← mgr.checkAndUpdateCache req inputId
    return (hit, .decoderOnly next)
  | .encoderDecoder mgr => .ok (false, .encoderDecoder mgr)

def canAllocate (req : Request H) (inputId : Nat)
    (encoderComputeBudget numEmbedsToSchedule : Int) : EncoderCache → Py (Bool × EncoderCache)
  | .decoderOnly mgr => do
    let (fits, next) ← mgr.canAllocate req inputId encoderComputeBudget numEmbedsToSchedule
    return (fits, .decoderOnly next)
  | .encoderDecoder mgr => do
    let fits ← mgr.canAllocate req inputId encoderComputeBudget numEmbedsToSchedule
    return (fits, .encoderDecoder mgr)

def allocate (req : Request H) (cache : EncoderCache) (inputId : Nat) : Py EncoderCache :=
  match cache with
  | .decoderOnly mgr => do
    let next ← mgr.allocate req inputId
    return .decoderOnly next
  | .encoderDecoder mgr => do
    let next ← mgr.allocate req inputId
    return .encoderDecoder next

def getCachedInputIds (req : Request H) : EncoderCache → List Nat
  | .decoderOnly mgr => mgr.getCachedInputIds req
  | .encoderDecoder _ => EncoderDecoderCacheManager.getCachedInputIds req

def freeEncoderInput (req : Request H) (cache : EncoderCache) (inputId : Nat) :
    Py EncoderCache :=
  match cache with
  | .decoderOnly mgr => do
    let next ← mgr.freeEncoderInput req inputId
    return .decoderOnly next
  | .encoderDecoder mgr => do
    let next ← mgr.freeEncoderInput req inputId
    return .encoderDecoder next

def free (req : Request H) : EncoderCache → Py EncoderCache
  | .decoderOnly mgr => do
    let next ← mgr.free req
    return .decoderOnly next
  | .encoderDecoder mgr => do
    let next ← mgr.free req
    return .encoderDecoder next

def getFreedMmHashes : EncoderCache → List String × EncoderCache
  | .decoderOnly mgr =>
    let (freed, next) := mgr.getFreedMmHashes
    (freed, .decoderOnly next)
  | .encoderDecoder mgr =>
    let (freed, next) := mgr.getFreedMmHashes
    (freed, .encoderDecoder next)

end EncoderCache
end Vllm
