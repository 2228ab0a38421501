import Vllm.Hash.Chain
import Vllm.Lib.Run

/-! Streaming sessions and the hashes of their tokens. Output tokens and prompt
chunks only ever extend the hashes of a request. A session update first drops the
tokens that are not computed, so it keeps the hashes right exactly when it puts
the dropped tokens of every hashed block back. -/
namespace Vllm
open List hiding next
variable {H : Type} {hasher : BlockHasher H} {req : Request H}

def MultiModalFeatureSpec.shift (base : Nat) (feat : MultiModalFeatureSpec) :
    MultiModalFeatureSpec :=
  { feat with mmPosition :=
      { feat.mmPosition with offset := feat.mmPosition.offset + base } }

section
variable (hasher : Option (BlockHasher H)) (session : Request H) (update : StreamingUpdate)

def sessionTokenIds : List TokenId :=
  Py.take session.allTokenIds session.numComputedTokens ++ update.promptTokenIds.getD []

def extendSession (promptTokenIds : List TokenId) (update : StreamingUpdate) : Request H :=
  let keptTokenIds := Py.take session.allTokenIds session.numComputedTokens
  let keptOutputTokens := keptTokenIds.drop session.numPromptTokens
  { session with
    outputTokenIds := []
    mmFeatures := session.mmFeatures ++ update.mmFeatures.map (·.shift keptTokenIds.length)
    allTokenIds := sessionTokenIds session update
    promptTokenIds := some (promptTokenIds ++ keptOutputTokens ++ update.promptTokenIds.getD []) }

/-- `_update_request_as_session`, less the scheduler's count of waiting sessions. -/
def updateRequestAsSession : Py (Request H) :=
  match session.promptTokenIds with
  | none => .error (.assertionError "session.prompt_token_ids is not None")
  | some promptTokenIds =>
    let extended := (extendSession session promptTokenIds update).updateBlockHashes hasher
    .ok { extended with
      numPromptTokens := (extended.promptTokenIds.getD []).length
      arrivalTime := update.arrivalTime
      samplingParams := update.samplingParams
      status := .waiting }

end

def recomputedHash (hasher : BlockHasher H) (req : Request H) : Nat → H
  | 0 => hashBlockTokens hasher none (tokenSlice req.allTokenIds 0 hasher.blockSize)
      (generateBlockHashExtraKeys hasher req 0 hasher.blockSize 0).1
  | i + 1 =>
    let start := (i + 1) * hasher.blockSize
    hashBlockTokens hasher (some (recomputedHash hasher req i))
      (tokenSlice req.allTokenIds start (start + hasher.blockSize))
      (generateBlockHashExtraKeys hasher req start (start + hasher.blockSize) 0).1

section
variable (hasher : BlockHasher H) (req : Request H)

/-- Every full block is hashed, and its hash is the one of the tokens. -/
structure HashesMatchTokens : Prop where
  length : req.blockHashes.length = req.numTokens / hasher.blockSize
  hash : ∀ i < req.blockHashes.length,
    req.blockHashes[i]? = some (recomputedHash hasher req i)

/-- The update leaves the tokens of the hashed blocks as they are. -/
def KeepsHashedTokens (session : Request H) (update : StreamingUpdate) : Prop :=
  let hashed := session.numTokens / hasher.blockSize * hasher.blockSize
  (sessionTokenIds session update).take hashed = session.allTokenIds.take hashed

/-- What changes the tokens of a request, or how many of them are computed. -/
inductive TokenOp where
  | append (tokenIds : List TokenId)
  | progress (numComputedTokens : Int)
  | session (update : StreamingUpdate)

def TokenOp.exec : TokenOp → Py (Request H)
  | append tokenIds => .ok (req.appendOutputTokenIds (some hasher) tokenIds)
  | progress numComputedTokens => .ok { req with numComputedTokens := numComputedTokens }
  | session update => updateRequestAsSession (some hasher) req update

/-- No multimodal input joins the session. -/
def TokenOp.Plain : TokenOp → Prop
  | session update => update.mmFeatures = []
  | _ => True

def TokenOp.KeepsHashes : TokenOp → Prop
  | session update => KeepsHashedTokens hasher req update
  | _ => True

end

def plainChain (hasher : BlockHasher H) (req : Request H) (count : Nat) : List H :=
  HashChain.chain hasher.link hasher.noneHash
    (blockItems hasher req 0 (replicate count []))

@[simp] theorem length_plainChain (count : Nat) :
    (plainChain hasher req count).length = count := by
  rw [plainChain, HashChain.length_chain, length_blockItems, length_replicate]

theorem plainChain_congr {count : Nat} (tokens : first.allTokenIds.take (count * hasher.blockSize) =
      second.allTokenIds.take (count * hasher.blockSize))
    (lora : first.loraRequest = second.loraRequest) (salt : first.cacheSalt = second.cacheSalt)
    (embeds : first.promptEmbeds = second.promptEmbeds) :
    plainChain hasher first count = plainChain hasher second count := by
  rw [plainChain, plainChain, blockItems_congr tokens lora salt embeds (by simp)]

theorem loopMmKeys_nil (blockSize count start : Nat) (idx : Int) :
    loopMmKeys blockSize [] count start idx = replicate count [] := by
  induction count generalizing start idx with
  | zero => rfl
  | succ count ih =>
    rw [loopMmKeys, ih]
    rfl

theorem plainChain_get (plain : req.mmFeatures = []) {count i : Nat} (bound : i < count) :
    (plainChain hasher req count)[i]? = some (recomputedHash hasher req i) := by
  have item : ∀ j < count, (blockItems hasher req 0 (replicate count []))[j]? =
      some (tokenSlice req.allTokenIds (j * hasher.blockSize)
          (j * hasher.blockSize + hasher.blockSize),
        (generateBlockHashExtraKeys hasher req (j * hasher.blockSize)
          (j * hasher.blockSize + hasher.blockSize) 0).1) := by
    intro j below
    rw [blockItems_get, getElem?_replicate_of_lt below, generate_keys, plain, Nat.zero_add]
    rfl
  induction i with
  | zero =>
    have first := item 0 bound
    rw [Nat.zero_mul, Nat.zero_add] at first
    rw [plainChain, HashChain.chain_get_zero, first]
    rfl
  | succ i ih =>
    rw [plainChain, HashChain.chain_get_succ, item (i + 1) bound, ← plainChain, ih (by omega)]
    rfl

theorem hashesMatchTokens_iff (plain : req.mmFeatures = []) : HashesMatchTokens hasher req ↔
      req.blockHashes = plainChain hasher req (req.numTokens / hasher.blockSize) := by
  constructor
  · intro matched
    apply ext_getElem?
    intro i
    by_cases bound : i < req.blockHashes.length
    · rw [matched.hash i bound, plainChain_get plain (matched.length ▸ bound)]
    · rw [getElem?_eq_none (by omega),
        getElem?_eq_none (by rw [length_plainChain, ← matched.length]; omega)]
  · intro chained
    have length : req.blockHashes.length = req.numTokens / hasher.blockSize := by
      rw [chained, length_plainChain]
    refine ⟨length, ?_⟩
    intro i bound
    rw [chained, plainChain_get plain (length ▸ bound)]

/-- The property reads the tokens, the hashes and the keys that stay with a request. -/
theorem HashesMatchTokens.congr (matched : HashesMatchTokens hasher first)
    (plain : first.mmFeatures = []) (plain' : second.mmFeatures = [])
    (tokens : first.allTokenIds = second.allTokenIds)
    (hashes : first.blockHashes = second.blockHashes)
    (lora : first.loraRequest = second.loraRequest) (salt : first.cacheSalt = second.cacheSalt)
    (embeds : first.promptEmbeds = second.promptEmbeds) : HashesMatchTokens hasher second := by
  rw [hashesMatchTokens_iff plain, hashes, Request.numTokens, tokens] at matched
  rw [hashesMatchTokens_iff plain', matched]
  exact plainChain_congr (by rw [tokens]) lora salt embeds

/-- The hasher completes the hashes of a request whose first blocks are hashed. -/
theorem updateBlockHashes_match (plain : req.mmFeatures = []) (count : Nat)
    (hashed : req.blockHashes = plainChain hasher req count)
    (within : count ≤ req.numTokens / hasher.blockSize) :
    HashesMatchTokens hasher (req.updateBlockHashes (some hasher)) := by
  have remaining : (req.numTokens - count * hasher.blockSize) / hasher.blockSize =
      req.numTokens / hasher.blockSize - count := by
    rw [Nat.mul_comm, Nat.sub_mul_div]
  have extended := updateBlockHashes_chain hashed
  rw [length_replicate, plain, loopMmKeys_nil, replicate_append_replicate, remaining,
    Nat.add_sub_of_le within] at extended
  have plain' : (req.updateBlockHashes (some hasher)).mmFeatures = [] := plain
  rw [hashesMatchTokens_iff plain', extended]
  exact plainChain_congr rfl rfl rfl rfl

theorem init_match (plain : args.mmFeatures = [])
    (h : Request.init (some hasher) args = .ok req) :
    req.mmFeatures = [] ∧ HashesMatchTokens hasher req := by
  obtain ⟨_, _, h⟩ := Py.bind_ok h
  obtain ⟨_, _, h⟩ := Py.bind_ok h
  cases h
  exact ⟨plain, updateBlockHashes_match plain 0 rfl (Nat.zero_le _)⟩

theorem append_match (plain : req.mmFeatures = [])
    (matched : HashesMatchTokens hasher req) :
    HashesMatchTokens hasher (req.appendOutputTokenIds (some hasher) tokenIds) := by
  have chained := (hashesMatchTokens_iff plain).mp matched
  refine updateBlockHashes_match plain (req.numTokens / hasher.blockSize) ?_ ?_
  · refine chained.trans (plainChain_congr ?_ rfl rfl rfl)
    exact (take_append_of_le_length (Nat.div_mul_le_self _ _)).symm
  · refine Nat.div_le_div_right ?_
    exact Nat.le_trans (Nat.le_add_right _ _) (Nat.le_of_eq length_append.symm)

theorem session_match (plain : session.mmFeatures = []) (single : update.mmFeatures = [])
    (matched : HashesMatchTokens hasher session) (kept : KeepsHashedTokens hasher session update)
    (updated : updateRequestAsSession (some hasher) session update = .ok next) :
    next.mmFeatures = [] ∧ HashesMatchTokens hasher next := by
  have chained := (hashesMatchTokens_iff plain).mp matched
  have enough : session.numTokens / hasher.blockSize ≤
      (sessionTokenIds session update).length / hasher.blockSize := by
    rw [Nat.le_div_iff_mul_le hasher.blockSize_pos]
    have lengths := congrArg List.length kept
    have whole := Nat.div_mul_le_self session.numTokens hasher.blockSize
    have size : session.allTokenIds.length = session.numTokens := rfl
    simp only [length_take] at lengths
    omega
  unfold updateRequestAsSession at updated
  cases prompt : session.promptTokenIds with
  | none =>
    rw [prompt] at updated
    cases updated
  | some promptTokenIds =>
    rw [prompt] at updated
    cases updated
    have none : (extendSession session promptTokenIds update).mmFeatures = [] := by
      simp [extendSession, plain, single]
    refine ⟨none, ?_⟩
    refine HashesMatchTokens.congr (updateBlockHashes_match none _ ?_ enough)
      none none rfl rfl rfl rfl rfl
    exact chained.trans (plainChain_congr kept.symm rfl rfl rfl)

theorem exec_match {op : TokenOp}
    (holds : req.mmFeatures = [] ∧ HashesMatchTokens hasher req)
    (allowed : op.Plain ∧ op.KeepsHashes hasher req)
    (stepped : op.exec hasher req = .ok next) :
    next.mmFeatures = [] ∧ HashesMatchTokens hasher next := by
  obtain ⟨plain, matched⟩ := holds
  cases op with
  | append tokenIds =>
    cases stepped
    exact ⟨plain, append_match plain matched⟩
  | progress numComputedTokens =>
    cases stepped
    exact ⟨plain, matched.congr plain plain rfl rfl rfl rfl rfl⟩
  | session update => exact session_match plain allowed.1 matched allowed.2 stepped

/-- Every request whose session updates keep the tokens of its hashed blocks has,
at every point, the hashes of its tokens. -/
theorem hashes_match_tokens (hasher : BlockHasher H) (args : RequestArgs)
    (plain : args.mmFeatures = []) (req reached : Request H) (ops : List TokenOp)
    (created : Request.init (some hasher) args = .ok req)
    (allowed : Run.AllSteps (fun r op => op.exec hasher r)
      (fun r op => TokenOp.Plain op ∧ TokenOp.KeepsHashes hasher r op) req ops)
    (ran : Run.run (fun r op => op.exec hasher r) req ops = .ok reached) :
    HashesMatchTokens hasher reached :=
  (Run.run_invariant (fun r => r.mmFeatures = [] ∧ HashesMatchTokens hasher r)
    exec_match (init_match plain created) allowed ran).2

def shortSession : RequestArgs where
  requestId := "session"
  promptTokenIds := some [1, 2, 3]
  samplingParams := some { maxTokens := some 1 }
  poolingParams := none
  resumable := true

def nextChunk (tokens : List TokenId) : StreamingUpdate where
  mmFeatures := []
  promptTokenIds := some tokens
  maxTokens := 1
  arrivalTime := 1
  samplingParams := some { maxTokens := some 1 }

def sessionRun (ops : List TokenOp) : Py (Request Digest) :=
  Request.init (some (termHasher 4 (by decide))) shortSession >>= fun req =>
    Run.run (fun r op => op.exec (termHasher 4 (by decide)) r) req ops

/-- Here the chunk begins with the token that was sampled, so the hash stays right. -/
theorem hashes_match_tokens_repeated : ∃ reached : Request Digest,
    sessionRun [.progress 3, .append [4], .session (nextChunk [4, 5])] = .ok reached ∧
    reached.blockHashes.length = 1 ∧ HashesMatchTokens (termHasher 4 (by decide)) reached := by
  refine ⟨_, rfl, rfl, ?_⟩
  refine hashes_match_tokens (termHasher 4 (by decide)) shortSession rfl _ _
    [.progress 3, .append [4], .session (nextChunk [4, 5])] rfl ?_ rfl
  refine ⟨⟨trivial, trivial⟩, ?_⟩
  rintro _ ⟨⟩
  refine ⟨⟨trivial, trivial⟩, ?_⟩
  rintro _ ⟨⟩
  exact ⟨⟨rfl, rfl⟩, fun _ _ => trivial⟩

/-- Blocks have four tokens. The three prompt tokens are computed and a fourth is
sampled, which completes a block. The next chunk replaces the sampled token, and the
hash of the block stays. -/
theorem session_update_leaves_stale_hash : ∃ reached : Request Digest,
    sessionRun [.progress 3, .append [4], .session (nextChunk [9])] = .ok reached ∧
    reached.allTokenIds = [1, 2, 3, 9] ∧
    reached.blockHashes = [.block .noneHash [1, 2, 3, 4] none] ∧
    ¬ HashesMatchTokens (termHasher 4 (by decide)) reached := by
  refine ⟨_, rfl, rfl, rfl, ?_⟩
  intro matched
  have first := Option.some.inj (matched.hash 0 (by decide))
  have tokens := (Digest.block.inj first).2.1
  exact absurd tokens (by decide)

end Vllm
