import Vllm.KV.BlockPool
import Vllm.KV.Spec

/-! Prefix-cache lookup of a single type of attention. A lookup works on several
groups of one format at once; a row holds the blocks of all groups at one place, and
the result has one column of blocks for each group. -/
namespace Vllm
variable {H : Type}

abbrev Row := List BlockId

def nullRow (groups : Nat) : Row := List.replicate groups nullBlock

def columns (groups : Nat) (rows : List Row) : List (List BlockId) :=
  (List.range groups).map (fun group => rows.map (fun row => row.getD group nullBlock))

structure LookupArgs (H : Type) where
  blockHashes : BlockHashList H
  maxLength : Nat
  kvCacheGroupIds : List Nat
  blockPool : BlockPool H
  kvCacheSpec : KVCacheSpec
  useEagle : Bool
  alignmentTokens : Nat
  dcpWorldSize : Nat := 1
  pcpWorldSize : Nat := 1

namespace LookupArgs

def groups (args : LookupArgs H) : Nat := args.kvCacheGroupIds.length

def cachedRow (args : LookupArgs H) (i : Nat) : Py (Option Row) := do
  let blockHash ← args.blockHashes.getValueAt i
  return args.blockPool.getCachedBlock blockHash args.kvCacheGroupIds

end LookupArgs

/-- The loop that pops blocks until the length is aligned: how many blocks stay. -/
def alignedCount (blockSize alignmentTokens : Nat) : Nat → Nat
  | 0 => 0
  | count + 1 =>
    if blockSize ≠ alignmentTokens ∧ (count + 1) * blockSize % alignmentTokens ≠ 0 then
      alignedCount blockSize alignmentTokens count
    else count + 1

/-- The rows from `i` on, `count` at most, up to the first miss. -/
def hitRows (args : LookupArgs H) : (count i : Nat) → Py (List Row)
  | 0, _ => .ok []
  | count + 1, i => do
    match ← args.cachedRow i with
    | none => return []
    | some row =>
      let rest ← hitRows args count (i + 1)
      return row :: rest

namespace FullAttentionManager

def findLongestCacheHit (args : LookupArgs H) : Py (List (List BlockId)) := do
  Py.assert (match args.kvCacheSpec with
    | .chunkedLocalAttention .. => true
    | spec => spec.isFullAttention)
    ("FullAttentionManager can only be used for full attention " ++
      "and chunked local attention groups")
  let blockSize := if args.dcpWorldSize * args.pcpWorldSize > 1 then
      args.kvCacheSpec.blockSize * (args.dcpWorldSize * args.pcpWorldSize)
    else args.kvCacheSpec.blockSize
  let maxNumBlocks := min (args.maxLength / blockSize) args.blockHashes.length
  let computed ← hitRows args maxNumBlocks 0
  let dropped := if args.useEagle then computed.dropLast else computed
  return columns args.groups
    (dropped.take (alignedCount blockSize args.alignmentTokens dropped.length))

end FullAttentionManager

namespace SlidingWindowManager

/-- The scan from right to left. `tail` holds the rows after block `i`; the result
says whether enough contiguous blocks were found. -/
def scan (args : LookupArgs H) (contiguousBlocks : Nat) :
    (i numContiguousBlocks : Nat) → (tail : List Row) → Py (List Row × Bool)
  | 0, numContiguousBlocks, tail => .ok (tail.take numContiguousBlocks, false)
  | i + 1, numContiguousBlocks, tail => do
    match ← args.cachedRow i with
    | none => scan args contiguousBlocks i 0 (nullRow args.groups :: tail)
    | some row =>
      if numContiguousBlocks = 0 ∧ args.kvCacheSpec.blockSize ≠ args.alignmentTokens ∧
          (i + 1) * args.kvCacheSpec.blockSize % args.alignmentTokens ≠ 0 then
        scan args contiguousBlocks i 0 (nullRow args.groups :: tail)
      else if numContiguousBlocks + 1 ≥ contiguousBlocks then
        return (List.replicate i (nullRow args.groups) ++
          (row :: tail).take (numContiguousBlocks + 1), true)
      else scan args contiguousBlocks i (numContiguousBlocks + 1) (row :: tail)

/-- With EAGLE the last matched block is recomputed. -/
def dropEagle (args : LookupArgs H) (rows : List Row) : Py (List Row) :=
  if args.useEagle ∧ rows ≠ [] then
    if args.kvCacheSpec.blockSize = args.alignmentTokens then .ok rows.dropLast
    else .error (.assertionError "aligned_length is not compatible with eagle now")
  else .ok rows

theorem dropEagle_ok (h : dropEagle args rows = .ok computed) :
    computed = rows ∨ args.useEagle = true ∧
      args.kvCacheSpec.blockSize = args.alignmentTokens ∧ computed = rows.dropLast := by
  unfold dropEagle at h
  split at h
  · rename_i eagle
    split at h
    · rename_i same
      cases h
      exact .inr ⟨eagle.1, same, rfl⟩
    · cases h
  · cases h
    exact .inl rfl

def findLongestCacheHit (args : LookupArgs H) : Py (List (List BlockId)) :=
  match args.kvCacheSpec with
  | .slidingWindow fields window _ => do
    Py.assert (args.dcpWorldSize = 1) "DCP not support sliding window attn now."
    Py.assert (args.pcpWorldSize = 1) "PCP not support sliding window attn now."
    let contiguousBlocks := (cdiv ((window : Int) - 1) fields.blockSize).toNat +
      (if args.useEagle then 1 else 0)
    let (rows, matchFound) ← scan args contiguousBlocks (args.maxLength / fields.blockSize) 0 []
    let aligned := if matchFound then rows
      else rows.take (alignedCount fields.blockSize args.alignmentTokens rows.length)
    let computed ← dropEagle args aligned
    return columns args.groups computed
  | _ => .error (.assertionError "SlidingWindowManager can only be used for sliding window groups")

end SlidingWindowManager

namespace ChunkedLocalAttentionManager

def findLongestCacheHit (args : LookupArgs H) : Py (List (List BlockId)) :=
  match args.kvCacheSpec with
  | .chunkedLocalAttention fields attentionChunkSize _ => do
    Py.assert (!args.useEagle)
      "Hybrid KV cache is not supported for eagle + chunked local attention."
    Py.assert (args.dcpWorldSize = 1) "DCP not support chunked local attn now."
    Py.assert (args.pcpWorldSize = 1) "PCP not support chunked local attn now."
    Py.assert (fields.blockSize = args.alignmentTokens)
      ("KV cache groups with different block sizes are not compatible with " ++
        "chunked local attention now")
    let maxNumBlocks := args.maxLength / fields.blockSize
    let localAttentionStartIdx := args.maxLength / attentionChunkSize * attentionChunkSize
    let localAttentionStartBlockIdx := localAttentionStartIdx / fields.blockSize
    let hits ← hitRows args (maxNumBlocks - localAttentionStartBlockIdx)
      localAttentionStartBlockIdx
    return columns args.groups
      (List.replicate localAttentionStartBlockIdx (nullRow args.groups) ++ hits)
  | _ => .error (.assertionError
      ("ChunkedLocalAttentionManager can only be used for " ++ "chunked local attention groups"))

end ChunkedLocalAttentionManager

namespace MambaManager

def scan (args : LookupArgs H) : (i : Nat) → Py (List Row)
  | 0 => .ok []
  | i + 1 => do
    match ← args.cachedRow i with
    | none => scan args i
    | some row =>
      if args.kvCacheSpec.blockSize ≠ args.alignmentTokens ∧
          (i + 1) * args.kvCacheSpec.blockSize % args.alignmentTokens ≠ 0 then scan args i
      else return List.replicate i (nullRow args.groups) ++ [row]

def findLongestCacheHit (args : LookupArgs H) : Py (List (List BlockId)) :=
  match args.kvCacheSpec with
  | .mamba spec => do
    Py.assert (args.dcpWorldSize = 1) "DCP not support mamba now."
    Py.assert (args.pcpWorldSize = 1) "PCP not support mamba now."
    let rows ← scan args (args.maxLength / spec.blockSize)
    return columns args.groups rows
  | _ => .error (.assertionError "MambaManager can only be used for mamba groups")

end MambaManager

def findLongestCacheHit (args : LookupArgs H) : Py (List (List BlockId)) :=
  match args.kvCacheSpec with
  | .slidingWindow .. => SlidingWindowManager.findLongestCacheHit args
  | .chunkedLocalAttention .. => ChunkedLocalAttentionManager.findLongestCacheHit args
  | .mamba .. => MambaManager.findLongestCacheHit args
  | .crossAttention .. =>
    .error (.notImplementedError "CrossAttentionManager does not support caching")
  | .encoderOnlyAttention .. => .error (.keyError "EncoderOnlyAttentionSpec")
  | _ => FullAttentionManager.findLongestCacheHit args

end Vllm
