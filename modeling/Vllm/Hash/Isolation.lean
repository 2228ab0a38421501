import Vllm.Hash.Multimodal

/-! Isolation of the prefix cache. A block hash fixes the tokens, the prompt
embeddings and one flat list of texts for every block up to its own. The texts do
not say which of them is the LoRA name, a multimodal identifier or the salt, and no
text holds an offset, so requests that differ in these alone share their hashes. -/
namespace Vllm
open List Option ExtraKey
variable {H : Type} (blockSize : Nat) (req : Request H)

namespace Request

def loraName : Option String := req.loraRequest.map (·.loraName)

/-- The salt of a request, where an empty one counts as none. -/
def salt (req : Request H) : Option String :=
  match req.cacheSalt with
  | none => none
  | some salt => if salt = "" then none else some salt

def embedContent (j : Nat) : Option (List UInt8) :=
  req.promptEmbeds.map (promptEmbedsData · (j * blockSize) (j * blockSize + blockSize))

/-- Identifier and offset of the multimodal items with tokens before `stop`. -/
def overlappingItems (stop : Nat) : List (String × Nat) :=
  (req.mmFeatures.filter (fun feat =>
    feat.offset < stop && 0 < feat.mmPosition.length)).map
      (fun feat => (feat.identifier, feat.offset))

def foldedIdentifiers (j : Nat) : List String :=
  ((loopMmKeys blockSize req.mmFeatures (j + 1) 0 0)[j]?).getD []

end Request

/-- What two requests share that may use each other's blocks up to block `i`. -/
structure SameContent (blockSize : Nat) (first second : Request H) (i : Nat) : Prop where
  tokens : first.allTokenIds.take ((i + 1) * blockSize) =
    second.allTokenIds.take ((i + 1) * blockSize)
  loraName : first.loraName = second.loraName
  salt : first.salt = second.salt
  embeds : ∀ j ≤ i, first.embedContent blockSize j = second.embedContent blockSize j
  items : ∀ item, item ∈ first.overlappingItems ((i + 1) * blockSize) ↔
    item ∈ second.overlappingItems ((i + 1) * blockSize)

section Kinds
variable (blockSize : Nat) (first second : Request H) (i : Nat)

/-- The same identifiers in every block, at other offsets or for other lengths. -/
def OffsetsDiffer : Prop :=
  first.loraName = second.loraName ∧ first.salt = second.salt ∧
  (∀ j ≤ i, first.foldedIdentifiers blockSize j = second.foldedIdentifiers blockSize j) ∧
  ¬ ∀ item, item ∈ first.overlappingItems ((i + 1) * blockSize) ↔
    item ∈ second.overlappingItems ((i + 1) * blockSize)

/-- The salt of the first request is the last identifier of the second in block 0. -/
def SaltReadAsItem : Prop :=
  first.loraName = second.loraName ∧ second.salt = none ∧
  (∃ salt, first.salt = some salt ∧
    second.foldedIdentifiers blockSize 0 = first.foldedIdentifiers blockSize 0 ++ [salt]) ∧
  ∀ j ≤ i, 0 < j → first.foldedIdentifiers blockSize j = second.foldedIdentifiers blockSize j

/-- The LoRA name of the first request is the first identifier of every later block of
the second, and in block 0 an identifier or the salt. -/
def LoraReadAsText : Prop :=
  second.loraName = none ∧ ∃ name, first.loraName = some name ∧
  name :: first.foldedIdentifiers blockSize 0 ++ first.salt.toList =
    second.foldedIdentifiers blockSize 0 ++ second.salt.toList ∧
  ∀ j ≤ i, 0 < j →
    second.foldedIdentifiers blockSize j = name :: first.foldedIdentifiers blockSize j

/-- The requests agree in tokens and embeddings, and differ in texts that the flat
list does not tell apart. -/
def Confusable : Prop :=
  first.allTokenIds.take ((i + 1) * blockSize) = second.allTokenIds.take ((i + 1) * blockSize) ∧
  (∀ j ≤ i, first.embedContent blockSize j = second.embedContent blockSize j) ∧
  (OffsetsDiffer blockSize first second i ∨
    SaltReadAsItem blockSize first second i ∨ SaltReadAsItem blockSize second first i ∨
    LoraReadAsText blockSize first second i ∨ LoraReadAsText blockSize second first i)

end Kinds

def blockTexts (j : Nat) : List String :=
  req.loraName.toList ++ req.foldedIdentifiers blockSize j ++
    (if j = 0 then req.salt.toList else [])

theorem lora_keys : genLoraExtraHashKeys req = req.loraName.toList := by
  rw [genLoraExtraHashKeys, Request.loraName]
  cases req.loraRequest with
  | none => rfl
  | some lora => rfl

theorem salt_keys (s : Nat) :
    cacheSaltKeys req s = if s = 0 then req.salt.toList else [] := by
  rw [cacheSaltKeys, Request.salt]
  cases req.cacheSalt with
  | none => simp
  | some salt =>
    by_cases empty : salt = ""
    · simp [empty]
    · simp [empty]

variable (hasher : BlockHasher H)

theorem embed_keys (req : Request H) (j : Nat) :
    genPromptEmbedsExtraHashKeys hasher req (j * hasher.blockSize)
        (j * hasher.blockSize + hasher.blockSize) =
      ((req.embedContent hasher.blockSize j).map hasher.sha256).toList := by
  rw [genPromptEmbedsExtraHashKeys, Request.embedContent]
  cases req.promptEmbeds with
  | none => rfl
  | some rows => rfl

theorem loopMmKeys_get (features : List MultiModalFeatureSpec) (left : j < m) (right : j < n)
    (s : Nat) (idx : Int) :
    (loopMmKeys blockSize features m s idx)[j]? = (loopMmKeys blockSize features n s idx)[j]? := by
  induction j generalizing m n s idx with
  | zero =>
    obtain ⟨m, rfl⟩ := Nat.exists_eq_add_one.mpr left
    obtain ⟨n, rfl⟩ := Nat.exists_eq_add_one.mpr right
    rfl
  | succ j ih =>
    obtain ⟨m, rfl⟩ : ∃ k, m = k + 1 := ⟨m - 1, by omega⟩
    obtain ⟨n, rfl⟩ : ∃ k, n = k + 1 := ⟨n - 1, by omega⟩
    exact ih (by omega) (by omega) _ _

theorem foldedIdentifiers_get (bound : j < n) :
    (loopMmKeys blockSize req.mmFeatures n 0 0)[j]? =
      some (req.foldedIdentifiers blockSize j) := by
  have length : j < (loopMmKeys blockSize req.mmFeatures (j + 1) 0 0).length := by
    rw [length_loopMmKeys]
    omega
  rw [loopMmKeys_get blockSize req.mmFeatures bound (Nat.lt_add_one j),
    Request.foldedIdentifiers, getElem?_eq_getElem length]
  rfl

/-- Texts and digests can be told apart in the tuple. -/
theorem texts_append_injective {texts texts' : List String} {digests digests' : List H}
    (same : texts.map str ++ digests.map bytes =
      texts'.map str ++ digests'.map bytes) :
    texts = texts' ∧ digests = digests' := by
  induction texts generalizing texts' with
  | nil =>
    cases texts' with
    | nil => exact ⟨rfl, map_injective_iff.mpr (fun _ _ h => bytes.inj h) same⟩
    | cons text rest =>
      cases digests with
      | nil => cases same
      | cons digest others => cases same
  | cons text rest ih =>
    cases texts' with
    | nil =>
      cases digests' with
      | nil => cases same
      | cons digest others => cases same
    | cons text' rest' =>
      simp only [map_cons, cons_append, cons.injEq, str.injEq] at same
      obtain ⟨rfl, rfl⟩ := ih same.2
      exact ⟨by rw [same.1], rfl⟩

theorem combineKeys_texts (req : Request H) (j : Nat) :
    combineKeys hasher req (j * hasher.blockSize) (j * hasher.blockSize + hasher.blockSize)
        (req.foldedIdentifiers hasher.blockSize j) =
      let keys := (blockTexts hasher.blockSize req j).map str ++
        ((req.embedContent hasher.blockSize j).map hasher.sha256).toList.map bytes
      if keys.isEmpty then none else some keys := by
  have zero : j * hasher.blockSize = 0 ↔ j = 0 := by
    rw [Nat.mul_eq_zero]
    exact or_iff_left (Nat.ne_of_gt hasher.blockSize_pos)
  simp only [combineKeys, lora_keys, salt_keys, embed_keys, zero, blockTexts, map_append]

/-- The hashes of block `i` agree exactly when tokens, texts and embeddings do. -/
theorem oneShotHashes_get_iff {hasher : BlockHasher H} (free : hasher.CollisionFree)
    (sha256 : Function.Injective hasher.sha256) {first second : Request H} {i : Nat}
    (left : i < first.numTokens / hasher.blockSize)
    (right : i < second.numTokens / hasher.blockSize) :
    (oneShotHashes hasher first)[i]? = (oneShotHashes hasher second)[i]? ↔
      first.allTokenIds.take ((i + 1) * hasher.blockSize) =
        second.allTokenIds.take ((i + 1) * hasher.blockSize) ∧
      (∀ j ≤ i, first.embedContent hasher.blockSize j = second.embedContent hasher.blockSize j) ∧
      ∀ j ≤ i, blockTexts hasher.blockSize first j = blockTexts hasher.blockSize second j := by
  have item : ∀ (req : Request H), i < req.numTokens / hasher.blockSize → ∀ j ≤ i,
      (blockItems hasher req 0 (loopMmKeys hasher.blockSize req.mmFeatures
        (req.numTokens / hasher.blockSize) 0 0))[j]? =
      some (tokenSlice req.allTokenIds (j * hasher.blockSize)
          (j * hasher.blockSize + hasher.blockSize),
        combineKeys hasher req (j * hasher.blockSize)
          (j * hasher.blockSize + hasher.blockSize)
          (req.foldedIdentifiers hasher.blockSize j)) := by
    intro req bound j below
    rw [blockItems_get, foldedIdentifiers_get hasher.blockSize req (by omega), Nat.zero_add]
    rfl
  rw [oneShotHashes_chain, oneShotHashes_chain]
  constructor
  · intro same
    have bound : i < (HashChain.chain hasher.link hasher.noneHash
        (blockItems hasher first 0 (loopMmKeys hasher.blockSize first.mmFeatures
          (first.numTokens / hasher.blockSize) 0 0))).length := by
      rw [HashChain.length_chain, length_blockItems, length_loopMmKeys]
      exact left
    have found := getElem?_eq_getElem bound
    have items := HashChain.items_eq_of_get free.link_injective found (same ▸ found)
    have parts : ∀ j ≤ i,
        tokenSlice first.allTokenIds (j * hasher.blockSize)
            (j * hasher.blockSize + hasher.blockSize) =
          tokenSlice second.allTokenIds (j * hasher.blockSize)
            (j * hasher.blockSize + hasher.blockSize) ∧
        first.embedContent hasher.blockSize j = second.embedContent hasher.blockSize j ∧
        blockTexts hasher.blockSize first j = blockTexts hasher.blockSize second j := by
      intro j below
      have same := items j below
      rw [item first left j below, item second right j below, some.injEq,
        Prod.mk.injEq, combineKeys_texts, combineKeys_texts] at same
      obtain ⟨texts, digests⟩ := texts_append_injective (optionOfList_injective same.2)
      have contents := congrArg head? digests
      rw [head?_toList, head?_toList] at contents
      exact ⟨same.1, map_injective sha256 contents, texts⟩
    exact ⟨take_eq_of_slices (fun j below => (parts j (by omega)).1),
      fun j below => (parts j below).2.1, fun j below => (parts j below).2.2⟩
  · rintro ⟨tokens, embeds, texts⟩
    refine HashChain.chain_get_congr _ ?_
    intro j below
    have within : j * hasher.blockSize + hasher.blockSize ≤ (i + 1) * hasher.blockSize := by
      rw [← Nat.succ_mul]
      exact Nat.mul_le_mul_right _ (by omega)
    have slice : tokenSlice first.allTokenIds (j * hasher.blockSize)
        (j * hasher.blockSize + hasher.blockSize) =
          tokenSlice second.allTokenIds (j * hasher.blockSize)
            (j * hasher.blockSize + hasher.blockSize) := by
      rw [← tokenSlice_take within, tokens, tokenSlice_take within]
    rw [item first left j below, item second right j below, slice, combineKeys_texts,
      combineKeys_texts, texts j below, embeds j below]

section Texts
variable {blockSize : Nat} {first second : Request H} {i : Nat}

theorem blockTexts_all_iff :
    (∀ j ≤ i, blockTexts blockSize first j = blockTexts blockSize second j) ↔
      first.loraName.toList ++ first.foldedIdentifiers blockSize 0 ++ first.salt.toList =
        second.loraName.toList ++ second.foldedIdentifiers blockSize 0 ++ second.salt.toList ∧
      ∀ j ≤ i, 0 < j → first.loraName.toList ++ first.foldedIdentifiers blockSize j =
        second.loraName.toList ++ second.foldedIdentifiers blockSize j := by
  constructor
  · intro all
    refine ⟨by simpa [blockTexts] using all 0 (Nat.zero_le i), ?_⟩
    intro j below later
    simpa [blockTexts, Nat.ne_of_gt later] using all j below
  · rintro ⟨zero, later⟩ j below
    rcases Nat.eq_zero_or_pos j with rfl | pos
    · simpa [blockTexts] using zero
    · simpa [blockTexts, Nat.ne_of_gt pos] using later j below pos

/-- Two tuples of texts that agree block by block while the requests differ. -/
theorem texts_confused
    (texts : ∀ j ≤ i, blockTexts blockSize first j = blockTexts blockSize second j)
    (differ : ¬ (first.loraName = second.loraName ∧ first.salt = second.salt ∧
      ∀ item, item ∈ first.overlappingItems ((i + 1) * blockSize) ↔
        item ∈ second.overlappingItems ((i + 1) * blockSize))) :
    OffsetsDiffer blockSize first second i ∨
      SaltReadAsItem blockSize first second i ∨ SaltReadAsItem blockSize second first i ∨
      LoraReadAsText blockSize first second i ∨ LoraReadAsText blockSize second first i := by
  obtain ⟨zero, later⟩ := blockTexts_all_iff.mp texts
  by_cases lora : first.loraName = second.loraName
  · rw [lora, append_assoc, append_assoc, append_cancel_left_eq] at zero
    have rest : ∀ j ≤ i, 0 < j →
        first.foldedIdentifiers blockSize j = second.foldedIdentifiers blockSize j := by
      intro j below pos
      have := later j below pos
      rwa [lora, append_cancel_left_eq] at this
    by_cases salt : first.salt = second.salt
    · rw [salt, append_cancel_right_eq] at zero
      refine .inl ⟨lora, salt, ?_, fun items => differ ⟨lora, salt, items⟩⟩
      intro j below
      rcases Nat.eq_zero_or_pos j with rfl | pos
      · exact zero
      · exact rest j below pos
    · cases left : first.salt with
      | none =>
        cases right : second.salt with
        | none => exact absurd (left.trans right.symm) salt
        | some b =>
          rw [left, right, toList_none, append_nil] at zero
          exact .inr (.inr (.inl ⟨lora.symm, left, ⟨b, right, zero⟩,
            fun j below pos => (rest j below pos).symm⟩))
      | some a =>
        cases right : second.salt with
        | none =>
          rw [left, right, toList_none, append_nil] at zero
          exact .inr (.inl ⟨lora, right, ⟨a, left, zero.symm⟩, rest⟩)
        | some b =>
          rw [left, right] at zero
          have same := append_inj_right' zero rfl
          exact absurd (by rw [left, right, (cons.inj same).1]) salt
  · cases left : first.loraName with
    | none =>
      cases right : second.loraName with
      | none => exact absurd (left.trans right.symm) lora
      | some b =>
        rw [left, right] at zero later
        exact .inr (.inr (.inr (.inr ⟨left, b, right, zero.symm, later⟩)))
    | some a =>
      cases right : second.loraName with
      | none =>
        rw [left, right] at zero later
        exact .inr (.inr (.inr (.inl ⟨right, a, left, zero,
          fun j below pos => (later j below pos).symm⟩)))
      | some b =>
        rw [left, right] at zero
        exact absurd (by rw [left, right, (cons.inj zero).1]) lora

theorem SaltReadAsItem.texts (kind : SaltReadAsItem blockSize first second i) :
    ∀ j ≤ i, blockTexts blockSize first j = blockTexts blockSize second j := by
  obtain ⟨lora, unsalted, ⟨_, salted, zero⟩, rest⟩ := kind
  refine blockTexts_all_iff.mpr ⟨?_, ?_⟩
  · rw [lora, unsalted, salted, zero, toList_none, append_nil, append_assoc]
    rfl
  · intro j below pos
    rw [lora, rest j below pos]

theorem LoraReadAsText.texts (kind : LoraReadAsText blockSize first second i) :
    ∀ j ≤ i, blockTexts blockSize first j = blockTexts blockSize second j := by
  obtain ⟨plain, _, adapted, zero, rest⟩ := kind
  refine blockTexts_all_iff.mpr ⟨?_, ?_⟩
  · rw [adapted, plain]
    exact zero
  · intro j below pos
    rw [adapted, plain, rest j below pos]
    rfl

theorem OffsetsDiffer.texts (kind : OffsetsDiffer blockSize first second i) :
    ∀ j ≤ i, blockTexts blockSize first j = blockTexts blockSize second j := by
  obtain ⟨lora, salt, identifiers, _⟩ := kind
  intro j below
  rw [blockTexts, blockTexts, lora, salt, identifiers j below]

theorem Confusable.texts (confusable : Confusable blockSize first second i) :
    ∀ j ≤ i, blockTexts blockSize first j = blockTexts blockSize second j := by
  rcases confusable.2.2 with kind | kind | kind | kind | kind
  · exact kind.texts
  · exact kind.texts
  · exact fun j below => (kind.texts j below).symm
  · exact kind.texts
  · exact fun j below => (kind.texts j below).symm

theorem Confusable.not_same (confusable : Confusable blockSize first second i) :
    ¬ SameContent blockSize first second i := by
  intro same
  have lora := same.loraName
  have salt := same.salt
  rcases confusable.2.2 with kind | kind | kind | kind | kind
  · exact kind.2.2.2 same.items
  · obtain ⟨_, unsalted, ⟨text, salted, _⟩, _⟩ := kind
    rw [unsalted, salted] at salt
    cases salt
  · obtain ⟨_, unsalted, ⟨text, salted, _⟩, _⟩ := kind
    rw [unsalted, salted] at salt
    cases salt
  · obtain ⟨plain, name, adapted, _⟩ := kind
    rw [plain, adapted] at lora
    cases lora
  · obtain ⟨plain, name, adapted, _⟩ := kind
    rw [plain, adapted] at lora
    cases lora

end Texts

/-- Without hash collisions, requests with the same hash of block `i` have the same
content up to that block, unless they are confusable. -/
theorem prefix_cache_isolation_iff (free : hasher.CollisionFree)
    (sha256 : Function.Injective hasher.sha256) (first second : Request H) (i : Nat)
    (left : i < first.numTokens / hasher.blockSize)
    (right : i < second.numTokens / hasher.blockSize) :
    ((oneShotHashes hasher first)[i]? = (oneShotHashes hasher second)[i]? →
      SameContent hasher.blockSize first second i) ↔
    ¬ Confusable hasher.blockSize first second i := by
  rw [oneShotHashes_get_iff free sha256 left right]
  constructor
  · intro isolated confusable
    exact confusable.not_same (isolated ⟨confusable.1, confusable.2.1, confusable.texts⟩)
  · rintro distinct ⟨tokens, embeds, texts⟩
    by_contra differ
    refine distinct ⟨tokens, embeds, texts_confused texts ?_⟩
    rintro ⟨lora, salt, items⟩
    exact differ ⟨tokens, lora, salt, embeds, items⟩

def shortPrompt (lora salt : Option String) : Request Digest where
  requestId := "prompt"
  promptTokenIds := some [1, 2, 3, 4]
  numPromptTokens := 4
  allTokenIds := [1, 2, 3, 4]
  loraRequest := lora.map (fun name => { loraName := name, loraIntId := 1 })
  cacheSalt := salt

/-- Two tenants with different salts do not share a block. -/
theorem prefix_cache_isolation_iff_salts :
    (oneShotHashes (termHasher 4 (by decide)) (shortPrompt none (some "a")))[0]? ≠
      (oneShotHashes (termHasher 4 (by decide)) (shortPrompt none (some "b")))[0]? := by
  intro same
  refine absurd ((prefix_cache_isolation_iff (termHasher 4 (by decide))
    (termHasher_collisionFree 4 _) (fun _ _ same => Digest.data.inj same)
    (shortPrompt none (some "a")) (shortPrompt none (some "b")) 0 (by decide)
    (by decide)).mpr ?_ same).salt (by decide)
  rintro ⟨_, _, kind | kind | kind | kind | kind⟩
  · exact absurd kind.2.1 (by decide)
  · cases kind.2.1
  · cases kind.2.1
  · obtain ⟨_, name, adapted, _⟩ := kind
    cases adapted
  · obtain ⟨_, name, adapted, _⟩ := kind
    cases adapted

/-- A request for the adapter `x` and a request of the base model with the salt `x`
have the same hash. -/
theorem salt_shares_hash_of_lora :
    (oneShotHashes (termHasher 4 (by decide)) (shortPrompt (some "x") none))[0]? =
      (oneShotHashes (termHasher 4 (by decide)) (shortPrompt none (some "x")))[0]? ∧
    (oneShotHashes (termHasher 4 (by decide)) (shortPrompt (some "x") none))[0]? =
      some (.block .noneHash [1, 2, 3, 4] (some [.str "x"])) ∧
    ¬ SameContent 4 (shortPrompt (some "x") none) (shortPrompt none (some "x")) 0 := by
  refine ⟨rfl, rfl, ?_⟩
  intro same
  cases same.loraName

end Vllm
