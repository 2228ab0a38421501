import Vllm.Hash.Keys
import Vllm.Lib.HashChain

/-! The hasher as a chain. Every call of the hasher appends a chain whose items are
the tokens and the extra keys of the new blocks, so statements about the hashes
reduce to statements about items. Later calls differ from a single call in the
multimodal index they start from, and in nothing else. -/
namespace Vllm
open List Option
variable {H : Type} {hasher : BlockHasher H} {req : Request H} {keys : List (List String)}

abbrev BlockItem (H : Type) := List TokenId × Option (List (ExtraKey H))

section
variable (hasher : BlockHasher H)

def BlockHasher.link (parent : H) (item : BlockItem H) : H :=
  hasher.cachingHashFn parent item.1 item.2

def combineKeys (req : Request H) (startTokenIdx endTokenIdx : Nat) (mmExtraKeys : List String)
    : Option (List (ExtraKey H)) :=
  let extraKeys := (genLoraExtraHashKeys req).map .str ++ mmExtraKeys.map .str ++
    (cacheSaltKeys req startTokenIdx).map .str ++
    (genPromptEmbedsExtraHashKeys hasher req startTokenIdx endTokenIdx).map .bytes
  if extraKeys.isEmpty then none else some extraKeys

/-- No two blocks share a digest, and no block has the digest of the root. -/
structure BlockHasher.CollisionFree : Prop where
  injective : ∀ {parent parent' : H} {tokens tokens' : List TokenId}
    {keys keys' : Option (List (ExtraKey H))},
    hasher.cachingHashFn parent tokens keys = hasher.cachingHashFn parent' tokens' keys' →
      parent = parent' ∧ tokens = tokens' ∧ keys = keys'
  fresh : ∀ (parent : H) (tokens : List TokenId) (keys : Option (List (ExtraKey H))),
    hasher.cachingHashFn parent tokens keys ≠ hasher.noneHash

end

theorem BlockHasher.CollisionFree.link_injective (free : hasher.CollisionFree) :
    Function.Injective2 hasher.link := by
  intro _ _ _ _ same
  obtain ⟨parents, tokens, keys⟩ := free.injective same
  exact ⟨parents, Prod.ext tokens keys⟩

/-- Digests as terms: the digest functions that never collide. -/
inductive Digest where
  | noneHash
  | data (bytes : List UInt8)
  | block (parent : Digest) (tokens : List TokenId) (keys : Option (List (ExtraKey Digest)))

section
variable (blockSize : Nat) (pos : 0 < blockSize)

def termHasher : BlockHasher Digest where
  blockSize := blockSize
  blockSize_pos := pos
  cachingHashFn := .block
  noneHash := .noneHash
  sha256 := .data

theorem termHasher_collisionFree : (termHasher blockSize pos).CollisionFree where
  injective := fun same => Digest.block.inj same
  fresh := fun _ _ _ same => Digest.noConfusion same

theorem generate_keys (hasher : BlockHasher H) (req : Request H) (s e : Nat)
    (idx : Int) : generateBlockHashExtraKeys hasher req s e idx =
      (combineKeys hasher req s e (genMmExtraHashKeys req.mmFeatures s e idx).1,
        (genMmExtraHashKeys req.mmFeatures s e idx).2) := rfl

end

theorem optionOfList_injective {a b : List α}
    (same : (if a.isEmpty then none else some a) = (if b.isEmpty then none else some b)) : a = b := by
  cases a with
  | nil =>
    cases b with
    | nil => rfl
    | cons x rest => cases same
  | cons x rest =>
    cases b with
    | nil => cases same
    | cons y rest' => exact some.inj same

theorem combineKeys_injective
    (same : combineKeys hasher req s e first = combineKeys hasher req s e second) :
    first = second := by
  have lists := optionOfList_injective same
  rw [append_left_inj, append_left_inj, append_right_inj] at lists
  exact map_injective_iff.mpr (fun _ _ h => ExtraKey.str.inj h) lists

def loopMmKeys (blockSize : Nat) (mmFeatures : List MultiModalFeatureSpec) :
    (count startTokenIdx : Nat) → (currMmIdx : Int) → List (List String)
  | 0, _, _ => []
  | count + 1, startTokenIdx, currMmIdx =>
    let step := genMmExtraHashKeys mmFeatures startTokenIdx (startTokenIdx + blockSize) currMmIdx
    step.1 :: loopMmKeys blockSize mmFeatures count (startTokenIdx + blockSize) step.2

section
variable (blockSize : Nat) (features : List MultiModalFeatureSpec) (hasher : BlockHasher H)
  (req : Request H) (count start : Nat)

@[simp] theorem length_loopMmKeys (idx : Int) :
    (loopMmKeys blockSize features count start idx).length = count := by
  induction count generalizing start idx with
  | zero => rfl
  | succ count ih => simp [loopMmKeys, ih]

def blockItems (hasher : BlockHasher H) (req : Request H) :
    Nat → List (List String) → List (BlockItem H)
  | _, [] => []
  | startTokenIdx, keys :: rest =>
    let endTokenIdx := startTokenIdx + hasher.blockSize
    (tokenSlice req.allTokenIds startTokenIdx endTokenIdx,
      combineKeys hasher req startTokenIdx endTokenIdx keys) ::
        blockItems hasher req endTokenIdx rest

theorem hashBlocks_chain
    (idx : Int) (previous : Option H) : hashBlocks hasher req count start idx previous =
      HashChain.chain hasher.link (previous.getD hasher.noneHash) (blockItems hasher req start
          (loopMmKeys hasher.blockSize req.mmFeatures count start idx)) := by
  induction count generalizing start idx previous with
  | zero => rfl
  | succ count ih =>
    simp only [hashBlocks, generate_keys, ih, loopMmKeys, blockItems, HashChain.chain,
      hashBlockTokens, BlockHasher.link, getD_some]

@[simp] theorem length_blockItems
    (keys : List (List String)) : (blockItems hasher req start keys).length = keys.length := by
  induction keys generalizing start with
  | nil => rfl
  | cons head rest ih => simp [blockItems, ih]

theorem blockItems_append (front back : List (List String)) :
    blockItems hasher req start (front ++ back) = blockItems hasher req start front ++
      blockItems hasher req (start + front.length * hasher.blockSize) back := by
  induction front generalizing start with
  | nil => simp [blockItems]
  | cons head rest ih =>
    simp only [cons_append, blockItems, ih, length_cons]
    congr 3
    rw [Nat.add_mul]
    omega

end

theorem blockItems_injective
    (same : blockItems hasher req start first = blockItems hasher req start second) :
    first = second := by
  induction first generalizing start second with
  | nil =>
    cases second with
    | nil => rfl
    | cons head rest => cases same
  | cons head rest ih =>
    cases second with
    | nil => cases same
    | cons head' rest' =>
      simp only [blockItems, cons.injEq, Prod.mk.injEq] at same
      obtain ⟨⟨_, keys⟩, tail⟩ := same
      rw [combineKeys_injective keys, ih tail]

theorem blockItems_get (hasher : BlockHasher H) (req : Request H) (start : Nat)
    (keys : List (List String)) (i : Nat) :
    (blockItems hasher req start keys)[i]? = keys[i]?.map (fun identifiers =>
      (tokenSlice req.allTokenIds (start + i * hasher.blockSize)
        (start + i * hasher.blockSize + hasher.blockSize),
      combineKeys hasher req (start + i * hasher.blockSize)
        (start + i * hasher.blockSize + hasher.blockSize) identifiers)) := by
  induction keys generalizing start i with
  | nil => rfl
  | cons head rest ih =>
    cases i with
    | zero => simp [blockItems]
    | succ i =>
      have place : start + hasher.blockSize + i * hasher.blockSize =
          start + (i + 1) * hasher.blockSize := by
        rw [Nat.add_mul]
        omega
      simp only [blockItems, getElem?_cons_succ, ih, place]

theorem tokenSlice_take (within : e ≤ m) :
    tokenSlice (tokens.take m) s e = tokenSlice tokens s e := by
  rw [tokenSlice, tokenSlice, take_take, Nat.min_eq_left within]

/-- The slices of the first blocks are the tokens of these blocks. -/
theorem take_eq_of_slices {first second : List TokenId} {blockSize count : Nat}
    (slices : ∀ i < count, tokenSlice first (i * blockSize) (i * blockSize + blockSize) =
      tokenSlice second (i * blockSize) (i * blockSize + blockSize)) :
    first.take (count * blockSize) = second.take (count * blockSize) := by
  have split : ∀ (tokens : List TokenId) (s : Nat), tokens.take (s + blockSize) =
      tokens.take s ++ tokenSlice tokens s (s + blockSize) := by
    intro tokens s
    rw [tokenSlice, take_add, drop_append, length_take, drop_take,
      Nat.sub_self, take_zero, nil_append]
    by_cases within : s ≤ tokens.length
    · rw [Nat.min_eq_left within, Nat.sub_self, drop_zero]
    · rw [drop_of_length_le (by omega), take_nil, drop_nil]
  induction count with
  | zero => simp
  | succ count ih =>
    rw [Nat.add_mul, Nat.one_mul, split, split, ih (fun i below => slices i (by omega)),
      slices count (by omega)]

/-- Items read the tokens of their blocks and the keys that stay with a request. -/
theorem blockItems_congr (tokens : first.allTokenIds.take m = second.allTokenIds.take m)
    (lora : first.loraRequest = second.loraRequest) (salt : first.cacheSalt = second.cacheSalt)
    (embeds : first.promptEmbeds = second.promptEmbeds)
    (present : start + keys.length * hasher.blockSize ≤ m) :
    blockItems hasher first start keys = blockItems hasher second start keys := by
  induction keys generalizing start with
  | nil => rfl
  | cons head rest ih =>
    simp only [length_cons, Nat.add_mul] at present
    have slice : tokenSlice first.allTokenIds start (start + hasher.blockSize) =
        tokenSlice second.allTokenIds start (start + hasher.blockSize) := by
      rw [← tokenSlice_take (m := m) (by omega), tokens, tokenSlice_take (by omega)]
    have combined : combineKeys hasher first start (start + hasher.blockSize) head =
        combineKeys hasher second start (start + hasher.blockSize) head := by
      have loraKeys : genLoraExtraHashKeys first = genLoraExtraHashKeys second := by
        rw [genLoraExtraHashKeys, genLoraExtraHashKeys, lora]
      have saltKeys : cacheSaltKeys first start = cacheSaltKeys second start := by
        rw [cacheSaltKeys, cacheSaltKeys, salt]
      have embedKeys : genPromptEmbedsExtraHashKeys hasher first start (start + hasher.blockSize) =
          genPromptEmbedsExtraHashKeys hasher second start (start + hasher.blockSize) := by
        rw [genPromptEmbedsExtraHashKeys, genPromptEmbedsExtraHashKeys, embeds]
      rw [combineKeys, combineKeys, loraKeys, saltKeys, embedKeys]
    simp only [blockItems, slice, combined]
    rw [ih (by omega)]

/-- Items do not read the hashes. -/
theorem blockItems_updateBlockHashes (hasher : BlockHasher H) (req : Request H) (start : Nat)
    (keys : List (List String)) :
    blockItems hasher (req.updateBlockHashes (some hasher)) start keys =
      blockItems hasher req start keys :=
  blockItems_congr rfl rfl rfl rfl (Nat.le_refl _)

/-- One call of the hasher extends the chain of the hashes that are there. -/
theorem updateBlockHashes_chain
    (chained : req.blockHashes = HashChain.chain hasher.link hasher.noneHash (blockItems
      hasher req 0 keys)) : (req.updateBlockHashes (some hasher)).blockHashes =
      HashChain.chain hasher.link hasher.noneHash (blockItems hasher req 0
        (keys ++ loopMmKeys hasher.blockSize req.mmFeatures
          ((req.numTokens - keys.length * hasher.blockSize) / hasher.blockSize)
          (keys.length * hasher.blockSize)
          (if keys.length * hasher.blockSize > 0 then -1 else 0))) := by
  have count : req.blockHashes.length = keys.length := by
    rw [chained, HashChain.length_chain, length_blockItems]
  have last : req.blockHashes.getLast?.getD hasher.noneHash =
      (HashChain.chain hasher.link hasher.noneHash (blockItems hasher req 0 keys)).getLastD
        hasher.noneHash := by
    rw [chained, getLastD_eq_getLast?]
  simp only [Request.updateBlockHashes, requestBlockHasher, hashBlocks_chain, count]
  rw [blockItems_append, HashChain.chain_append, Nat.zero_add, last, ← chained]

def oneShotHashes (hasher : BlockHasher H) (req : Request H) : List H :=
  requestBlockHasher hasher { req with blockHashes := [] }

theorem oneShotHashes_chain (hasher : BlockHasher H) (req : Request H) :
    oneShotHashes hasher req = HashChain.chain hasher.link hasher.noneHash
      (blockItems hasher req 0 (loopMmKeys hasher.blockSize req.mmFeatures
        (req.numTokens / hasher.blockSize) 0 0)) := by
  have start : ([] : List H).length * hasher.blockSize = 0 := Nat.zero_mul _
  simp only [oneShotHashes, requestBlockHasher, start, hashBlocks_chain, Nat.sub_zero,
    gt_iff_lt, Nat.lt_irrefl, if_false]
  exact congrArg _ (blockItems_congr rfl rfl rfl rfl (Nat.le_refl _))

theorem appendOutputTokenIds_numTokens (hasher : Option (BlockHasher H)) (req : Request H)
    (tokenIds : List TokenId) : (req.appendOutputTokenIds hasher tokenIds).numTokens =
      req.numTokens + tokenIds.length := by
  cases hasher with
  | none => exact length_append
  | some hasher => exact length_append

theorem appendOutputTokenIds_chain (tokenIds : List TokenId)
    (within : keys.length * hasher.blockSize ≤ req.numTokens)
    (chained : req.blockHashes = HashChain.chain hasher.link hasher.noneHash (blockItems
      hasher req 0 keys)) : (req.appendOutputTokenIds (some hasher) tokenIds).blockHashes =
      HashChain.chain hasher.link hasher.noneHash
        (blockItems hasher (req.appendOutputTokenIds (some hasher) tokenIds) 0
          (keys ++ loopMmKeys hasher.blockSize req.mmFeatures
            ((req.numTokens + tokenIds.length - keys.length * hasher.blockSize) /
              hasher.blockSize) (keys.length * hasher.blockSize)
            (if keys.length * hasher.blockSize > 0 then -1 else 0))) := by
  have items : blockItems hasher req 0 keys =
      blockItems hasher (req.extendOutputTokenIds tokenIds) 0 keys := by
    refine blockItems_congr (m := req.numTokens) ?_ rfl rfl rfl (by omega)
    exact (take_append_of_le_length (Nat.le_refl _)).symm
  rw [items] at chained
  have size : (req.extendOutputTokenIds tokenIds).numTokens =
      req.numTokens + tokenIds.length := length_append
  rw [← size, Request.appendOutputTokenIds, blockItems_updateBlockHashes]
  exact updateBlockHashes_chain chained

end Vllm
