import Vllm.Python
import Vllm.Lib.CeilDiv

/-! The formats of the KV cache of a layer. Layers with one format form a group
whose blocks are managed together. Block sizes, windows and chunk sizes are positive
by construction. -/
namespace Vllm

structure DType where
  name : String
  itemsize : Nat
  deriving DecidableEq

inductive MambaCacheMode where
  | none
  | all
  | align
  deriving DecidableEq

structure AttentionFields where
  blockSize : Nat
  blockSize_pos : 0 < blockSize := by decide
  numKvHeads : Nat
  headSize : Nat
  dtype : DType
  pageSizePadded : Option Nat := none
  deriving DecidableEq

/-- The fields `FullAttentionSpec` adds, with `head_size_v` as `__post_init__` sets it. -/
structure FullAttentionFields extends AttentionFields where
  headSizeV : Nat
  slidingWindow : Option Nat := none
  attentionChunkSize : Option Nat := none
  deriving DecidableEq

structure MambaSpec where
  blockSize : Nat
  blockSize_pos : 0 < blockSize := by decide
  shapes : List (List Nat)
  dtypes : List DType
  pageSizePadded : Option Nat := none
  mambaType : String := "mamba2"
  mambaCacheMode : MambaCacheMode := .none
  numSpeculativeBlocks : Nat := 0
  deriving DecidableEq

inductive KVCacheSpec where
  | fullAttention (fields : FullAttentionFields)
  | mlaAttention (fields : FullAttentionFields) (cacheDtypeStr : Option String)
  | sinkFullAttention (fields : FullAttentionFields) (sinkLen : Option Nat)
  | slidingWindow (fields : AttentionFields) (window : Nat) (pos : 0 < window)
  | chunkedLocalAttention (fields : AttentionFields) (attentionChunkSize : Nat)
      (pos : 0 < attentionChunkSize)
  | mamba (spec : MambaSpec)
  | crossAttention (fields : AttentionFields)
  | encoderOnlyAttention (fields : AttentionFields)
  deriving DecidableEq

namespace KVCacheSpec

def blockSize : KVCacheSpec → Nat
  | fullAttention fields => fields.blockSize
  | mlaAttention fields _ => fields.blockSize
  | sinkFullAttention fields _ => fields.blockSize
  | slidingWindow fields _ _ => fields.blockSize
  | chunkedLocalAttention fields _ _ => fields.blockSize
  | mamba spec => spec.blockSize
  | crossAttention fields => fields.blockSize
  | encoderOnlyAttention fields => fields.blockSize

/-- `isinstance(spec, FullAttentionSpec)`. -/
def isFullAttention : KVCacheSpec → Bool
  | fullAttention _ => true
  | mlaAttention _ _ => true
  | sinkFullAttention _ _ => true
  | _ => false

/-- `type(spec) is FullAttentionSpec`. -/
def isExactlyFullAttention : KVCacheSpec → Bool
  | fullAttention _ => true
  | _ => false

/-- `isinstance(spec, SinkFullAttentionSpec)`. -/
def hasSinks : KVCacheSpec → Bool
  | sinkFullAttention _ _ => true
  | _ => false

/-- `get_num_skipped_tokens` of the manager of this format. -/
def getNumSkippedTokens (spec : KVCacheSpec) (numComputedTokens : Int) : Int :=
  match spec with
  | slidingWindow _ window _ => max 0 (numComputedTokens - window + 1)
  | chunkedLocalAttention _ attentionChunkSize _ =>
    numComputedTokens / attentionChunkSize * attentionChunkSize
  | mamba _ => numComputedTokens - 1
  | _ => 0

theorem blockSize_pos (spec : KVCacheSpec) : 0 < spec.blockSize := by
  cases spec with
  | fullAttention fields => exact fields.blockSize_pos
  | mlaAttention fields _ => exact fields.blockSize_pos
  | sinkFullAttention fields _ => exact fields.blockSize_pos
  | slidingWindow fields _ _ => exact fields.blockSize_pos
  | chunkedLocalAttention fields _ _ => exact fields.blockSize_pos
  | mamba spec => exact spec.blockSize_pos
  | crossAttention fields => exact fields.blockSize_pos
  | encoderOnlyAttention fields => exact fields.blockSize_pos

theorem getNumSkippedTokens_le (spec : KVCacheSpec) (nonneg : 0 ≤ n) :
    spec.getNumSkippedTokens n ≤ n := by
  cases spec with
  | slidingWindow fields window pos =>
    simp only [getNumSkippedTokens]
    omega
  | chunkedLocalAttention fields chunk pos => exact Int.ediv_mul_le n (by omega)
  | mamba spec =>
    simp only [getNumSkippedTokens]
    omega
  | _ => exact nonneg

end KVCacheSpec
end Vllm
