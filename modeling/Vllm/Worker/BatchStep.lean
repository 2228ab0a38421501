import Vllm.Worker.BatchLayout

/-! One step of the runner on its persistent batch: sampled tokens are cached, requests are
removed, rows of the remaining ones are updated, requests are added, the batch is condensed and
reordered, and the pending update is taken. -/
namespace Vllm.Worker
open Function

/-- What the runner writes to the row of a request in the batch. -/
inductive RowWrite where
  /-- Tokens that were sampled for the request. -/
  | sampled (tokens : List TokenId)
  | numComputedTokens (value : Nat)
  /-- The number of tokens after some were discarded. -/
  | numTokens (value : Nat)
  | newBlocks (blockIds : List (List Nat))
  | specTokens (tokens : List TokenId)
  | numAcceptedTokens (value : Nat)
  deriving DecidableEq, Repr

structure BatchStep where
  sampled : List (String × List TokenId) := []
  removals : List String := []
  writes : List (String × RowWrite) := []
  /-- Requests with the draft tokens scheduled for them. -/
  additions : List (CachedRequestState × List TokenId) := []
  swaps : List (Nat × Nat) := []

namespace InputBatch

variable (batch : InputBatch)

/-- `token_ids_cpu[index, start:end] = tokens`. -/
def writeTokensAt (index start : Nat) (tokens : List TokenId) : InputBatch :=
  { batch with
    tokenIdsCpu := update batch.tokenIdsCpu index
      (writeFrom (batch.tokenIdsCpu index) start tokens) }

def writeRow (index : Nat) : RowWrite → InputBatch
  | .sampled tokens =>
    let start := batch.numTokensNoSpec index
    { batch.writeTokensAt index start tokens with
      isTokenIds := update batch.isTokenIds index
        (writeFrom (batch.isTokenIds index) start (List.replicate tokens.length true))
      numTokensNoSpec := update batch.numTokensNoSpec index (start + tokens.length) }
  | .numComputedTokens value =>
    { batch with numComputedTokensCpu := update batch.numComputedTokensCpu index value }
  | .numTokens value =>
    { batch with numTokensNoSpec := update batch.numTokensNoSpec index value }
  | .newBlocks blockIds =>
    { batch with
      blockTable := batch.blockTable.mapIdx
        (fun group table => table.appendRow (blockIds.getD group []) index) }
  | .specTokens tokens =>
    { batch.writeTokensAt index (batch.numTokensNoSpec index) tokens with
      specTokenIds := batch.specTokenIds.set index tokens }
  | .numAcceptedTokens value =>
    { batch with numAcceptedTokensCpu := update batch.numAcceptedTokensCpu index value }

def updateRow (reqId : String) (write : RowWrite) : Py InputBatch :=
  match batch.reqIdToIndex.get? reqId with
  | none => .error (.keyError reqId)
  | some index => .ok (batch.writeRow index write)

def removeAll (reqIds : List String) : Py InputBatch := reqIds.foldlM removeRequest batch

def updateAll (writes : List (String × RowWrite)) : Py InputBatch :=
  writes.foldlM (fun batch write => batch.updateRow write.1 write.2) batch

def addWithSpec (add : CachedRequestState × List TokenId) : Py InputBatch := do
  let batch ← batch.addRequest add.1
  batch.updateRow add.1.reqId (.specTokens add.2)

def addAll (additions : List (CachedRequestState × List TokenId)) : Py InputBatch :=
  additions.foldlM addWithSpec batch

def swapAll (swaps : List (Nat × Nat)) : Py InputBatch :=
  swaps.foldlM (fun batch swap => batch.swapStates swap.1 swap.2) batch

def step (change : BatchStep) : Py (Option BatchUpdate × InputBatch) := do
  let batch ← batch.updateAll (change.sampled.map (fun entry => (entry.1, .sampled entry.2)))
  let batch ← batch.removeAll change.removals
  let batch ← batch.updateAll change.writes
  let batch ← batch.addAll change.additions
  let batch ← batch.condense
  let batch ← batch.swapAll change.swaps
  .ok batch.refreshMetadata

end InputBatch
end Vllm.Worker
