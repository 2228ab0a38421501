import Vllm.Hash.Chain

/-! Multimodal identifiers in the hashes of blocks. Hashing all tokens at once
carries an index past the features from block to block, and folds into each block
the identifiers of the features that touch it. A later call of the hasher restarts
at the last feature, so it can miss the other features of its blocks, and at its
first block it also takes a last feature that has just ended. -/
namespace Vllm
open List hiding next
variable {H : Type}

namespace MultiModalFeatureSpec

def offset (feat : MultiModalFeatureSpec) : Nat := feat.mmPosition.offset

section
variable (s e : Nat) (feat : MultiModalFeatureSpec)

def stop : Nat :=
  feat.mmPosition.offset + feat.mmPosition.length

theorem offset_le_stop : feat.offset ≤ feat.stop :=
  Nat.le_add_right _ _

def passed : Bool :=
  feat.offset < e && feat.stop ≤ e

/-- The feature has tokens in the block `[s, e)`, or is an empty range there. -/
def touches : Bool :=
  feat.offset < e && (s ≤ feat.offset || s < feat.stop)

/-- What the loop tests: a feature that ends at `s` is included. -/
def reaches : Bool :=
  feat.offset < e && s ≤ feat.stop

end

variable {feat : MultiModalFeatureSpec} {s e : Nat}

theorem passed_iff : feat.passed e = true ↔ feat.offset < e ∧ feat.stop ≤ e := by
  simp [passed]

theorem touches_iff : feat.touches s e = true ↔
    feat.offset < e ∧ (s ≤ feat.offset ∨ s < feat.stop) := by
  simp [touches]

theorem reaches_iff : feat.reaches s e = true ↔ feat.offset < e ∧ s ≤ feat.stop := by
  simp [reaches]

end MultiModalFeatureSpec

open MultiModalFeatureSpec

/-- Sorted by offset, and no two features overlap. -/
def SortedFeatures (features : List MultiModalFeatureSpec) : Prop :=
  features.Pairwise (fun first second => first.stop ≤ second.offset)

section Loop
variable {features : List MultiModalFeatureSpec} {s e : Nat}

theorem reaches_beyond (s : Nat) (beyond : ∀ feat ∈ features, e ≤ feat.offset) :
    features.filter (·.reaches s e) = [] ∧ features.countP (·.passed e) = 0 := by
  refine ⟨filter_eq_nil_iff.mpr ?_, countP_eq_zero.mpr ?_⟩
  · intro feat mem
    have := beyond feat mem
    rw [reaches_iff]
    omega
  · intro feat mem
    have := beyond feat mem
    rw [passed_iff]
    omega

theorem genMmLoop_cons (idx : Nat) : genMmLoop s e (feat :: rest) idx =
    if e > feat.offset then if s > feat.stop then genMmLoop s e rest (idx + 1)
      else if e ≥ feat.stop then
        (feat.identifier :: (genMmLoop s e rest (idx + 1)).1, (genMmLoop s e rest (idx + 1)).2)
      else ([feat.identifier], idx) else ([], idx) := by
  rfl

/-- The loop takes the features that reach the block and steps past those that have
ended at its end. -/
theorem genMmLoop_eq (sorted : SortedFeatures features) (ordered : s ≤ e) (idx : Nat) :
    genMmLoop s e features idx =
      ((features.filter (·.reaches s e)).map (·.identifier), idx + features.countP (·.passed e)) := by
  induction features generalizing idx with
  | nil => rfl
  | cons feat rest ih =>
    obtain ⟨after, sorted⟩ := pairwise_cons.mp sorted
    have span := feat.offset_le_stop
    rw [genMmLoop_cons]
    split
    · split
      · rw [ih sorted, filter_cons_of_neg (by rw [reaches_iff]; omega),
          countP_cons_of_pos (by rw [passed_iff]; omega), Nat.add_assoc, Nat.add_comm 1]
      · rw [filter_cons_of_pos (by rw [reaches_iff]; omega)]
        split
        · rw [ih sorted, countP_cons_of_pos (by rw [passed_iff]; omega), map_cons, Nat.add_assoc,
            Nat.add_comm 1]
        · have beyond : ∀ later ∈ rest, e ≤ later.offset := fun later mem =>
            Nat.le_trans (by omega) (after later mem)
          obtain ⟨none, zero⟩ := reaches_beyond s beyond
          rw [countP_cons_of_neg (by rw [passed_iff]; omega), none, zero]
          rfl
    · have beyond : ∀ later ∈ feat :: rest, e ≤ later.offset := forall_mem_cons.mpr
        ⟨by omega, fun later mem => Nat.le_trans (by omega) (after later mem)⟩
      obtain ⟨none, zero⟩ := reaches_beyond s beyond
      rw [none, zero]
      rfl

theorem drop_passed (sorted : SortedFeatures features) :
    features.drop (features.countP (·.passed e)) = features.filter (fun f => !f.passed e) := by
  induction features with
  | nil => rfl
  | cons feat rest ih =>
    obtain ⟨after, sorted⟩ := pairwise_cons.mp sorted
    cases pass : feat.passed e with
    | true =>
      rw [countP_cons_of_pos pass, drop_succ_cons, ih sorted, filter_cons_of_neg (by simp [pass])]
    | false =>
      have none : ∀ later ∈ feat :: rest, later.passed e = false := by
        refine forall_mem_cons.mpr ⟨pass, fun later mem => ?_⟩
        have := after later mem
        have := feat.offset_le_stop
        rw [Bool.eq_false_iff, ne_eq, passed_iff] at pass ⊢
        omega
      rw [countP_eq_zero.mpr (by simpa using none), drop_zero, filter_eq_self.mpr (by simpa using none)]

end Loop

def touchedKeys (blockSize : Nat) (part : List MultiModalFeatureSpec) :
    (count startTokenIdx : Nat) → List (List String)
  | 0, _ => []
  | count + 1, startTokenIdx =>
    (part.filter (·.touches startTokenIdx (startTokenIdx + blockSize))).map (·.identifier) ::
      touchedKeys blockSize part count (startTokenIdx + blockSize)

section
variable (blockSize : Nat) (part : List MultiModalFeatureSpec) (count more start : Nat)

@[simp] theorem length_touchedKeys : (touchedKeys blockSize part count start).length = count := by
  induction count generalizing start with
  | zero => rfl
  | succ count ih => simp [touchedKeys, ih]

theorem next_block (m : Nat) : start + blockSize + m * blockSize = start + (m + 1) * blockSize := by
  rw [Nat.add_mul]
  omega

theorem touchedKeys_add : touchedKeys blockSize part (count + more) start =
      touchedKeys blockSize part count start ++
        touchedKeys blockSize part more (start + count * blockSize) := by
  induction count generalizing start with
  | zero => simp [touchedKeys]
  | succ count ih =>
    rw [Nat.succ_add_eq_add_succ, Nat.add_succ, touchedKeys, ih, next_block, touchedKeys, cons_append]

end

section Carried
variable {blockSize : Nat} {features part : List MultiModalFeatureSpec}
  {last : MultiModalFeatureSpec}

theorem not_touches_of_past {feat : MultiModalFeatureSpec} (e : Nat)
    (past : feat.stop < s) : feat.touches s e = false := by
  have := feat.offset_le_stop
  rw [Bool.eq_false_iff, ne_eq, touches_iff]
  omega

theorem filter_touches_past (past : ∀ feat ∈ part, feat.stop < s) :
    part.filter (·.touches s e) = [] :=
  filter_eq_nil_iff.mpr fun feat mem => by simp [not_touches_of_past e (past feat mem)]

section
variable (final : features.getLast? = some last)
include final

/-- Past the last feature the loop returns at once. -/
theorem loopMmKeys_past
    (bounded : ∀ feat ∈ part, feat.stop ≤ last.stop) {s : Nat} (past : last.stop < s)
    (count : Nat) (idx : Int) :
    loopMmKeys blockSize features count s idx = touchedKeys blockSize part count s := by
  induction count generalizing s idx with
  | zero => rfl
  | succ count ih =>
    have early : genMmExtraHashKeys features s (s + blockSize) idx = ([], idx) := by
      rw [genMmExtraHashKeys, final]
      exact if_pos past
    rw [loopMmKeys, touchedKeys, early,
      filter_touches_past fun feat mem => Nat.lt_of_le_of_lt (bounded feat mem) past,
      ih (by omega)]
    rfl

theorem genMmExtraHashKeys_at {s e : Nat} (ordered : s ≤ e)
    (live : s ≤ last.stop) {idx : Int} {k : Nat}
    (start : (if idx < 0 then features.length + idx else idx).toNat = k)
    (sorted : SortedFeatures (features.drop k)) : genMmExtraHashKeys features s e idx =
      (((features.drop k).filter (·.reaches s e)).map (·.identifier),
        ((k + (features.drop k).countP (·.passed e) : Nat) : Int)) := by
  have notPast : ¬ last.mmPosition.offset + last.mmPosition.length < s := Nat.not_lt.mpr live
  rw [genMmExtraHashKeys, final]
  simp only [if_neg notPast, start, genMmLoop_eq sorted ordered]

/-- From an index that has just stepped past the features that have ended, each block
gets the features that touch it. -/
theorem loopMmKeys_carried
    (bounded : ∀ feat ∈ part, feat.stop ≤ last.stop) (sorted : SortedFeatures part)
    (carried : features.drop k = part.filter (fun f => !f.passed s)) (count : Nat) :
    loopMmKeys blockSize features count s k = touchedKeys blockSize part count s := by
  induction count generalizing s k with
  | zero => rfl
  | succ count ih =>
    by_cases past : last.stop < s
    · exact loopMmKeys_past final bounded past (count + 1) k
    · have rest : SortedFeatures (features.drop k) := by
        rw [carried]
        exact sorted.filter _
      have keys : (features.drop k).filter (·.reaches s (s + blockSize)) =
          part.filter (·.touches s (s + blockSize)) := by
        rw [carried, filter_filter]
        refine filter_congr ?_
        intro feat _
        have := feat.offset_le_stop
        rw [Bool.eq_iff_iff, Bool.and_eq_true, Bool.not_eq_true', Bool.eq_false_iff, ne_eq,
          passed_iff, reaches_iff, touches_iff]
        omega
      have next : features.drop (k + (features.drop k).countP (·.passed (s + blockSize))) =
          part.filter (fun f => !f.passed (s + blockSize)) := by
        rw [← drop_drop, drop_passed rest, carried, filter_filter]
        refine filter_congr ?_
        intro feat _
        rw [Bool.eq_iff_iff, Bool.and_eq_true, Bool.not_eq_true', Bool.not_eq_true',
          Bool.eq_false_iff, Bool.eq_false_iff, ne_eq, ne_eq, passed_iff, passed_iff]
        omega
      have start : (if (k : Int) < 0 then features.length + (k : Int) else k).toNat = k := by
        rw [if_neg (by omega), Int.toNat_natCast]
      rw [loopMmKeys, touchedKeys, genMmExtraHashKeys_at final (by omega) (by omega) start rest]
      simp only [keys, ih next]

end

theorem sorted_bounded (sorted : SortedFeatures features) (final : features.getLast? = some last) :
    ∀ feat ∈ features, feat.stop ≤ last.stop := by
  obtain ⟨front, rfl⟩ := getLast?_eq_some_iff.mp final
  intro feat mem
  rcases mem_append.mp mem with prior | same
  · have := (pairwise_append.mp sorted).2.2 feat prior last (by simp)
    have := last.offset_le_stop
    omega
  · exact Nat.le_of_eq (congrArg stop (mem_singleton.mp same))

theorem loopMmKeys_empty (count s : Nat) (idx : Int) :
    loopMmKeys blockSize [] count s idx = touchedKeys blockSize [] count s := by
  induction count generalizing s idx with
  | zero => rfl
  | succ count ih =>
    rw [loopMmKeys, ih]
    rfl

/-- Hashing from block 0 folds the touching features into every block. -/
theorem loopMmKeys_oneShot (sorted : SortedFeatures features) (count : Nat) :
    loopMmKeys blockSize features count 0 0 = touchedKeys blockSize features count 0 := by
  cases final : features.getLast? with
  | none =>
    rw [getLast?_eq_none_iff.mp final, loopMmKeys_empty]
  | some last =>
    refine loopMmKeys_carried (k := 0) final (sorted_bounded sorted final) sorted ?_ count
    refine (filter_eq_self.mpr ?_).symm
    intro _ _
    simp [passed]

/-- A restart considers the last feature only, and in its first block also when
that feature has just ended. -/
theorem loopMmKeys_restart (final : features.getLast? = some last) (s count : Nat) :
    loopMmKeys blockSize features (count + 1) s (-1) =
      (([last].filter (·.reaches s (s + blockSize))).map (·.identifier)) ::
        touchedKeys blockSize [last] count (s + blockSize) := by
  have bounded : ∀ feat ∈ [last], feat.stop ≤ last.stop := by
    intro feat mem
    exact Nat.le_of_eq (congrArg stop (mem_singleton.mp mem))
  by_cases past : last.stop < s
  · have reach : last.reaches s (s + blockSize) = false := by
      rw [Bool.eq_false_iff, ne_eq, reaches_iff]
      omega
    rw [loopMmKeys_past final bounded past, touchedKeys,
      filter_cons_of_neg (by simp [not_touches_of_past _ past]),
      filter_cons_of_neg (by simp [reach])]
    rfl
  · obtain ⟨front, rfl⟩ := getLast?_eq_some_iff.mp final
    have tail : (front ++ [last]).drop front.length = [last] := drop_left
    have single : SortedFeatures [last] := pairwise_singleton _ _
    have first : genMmExtraHashKeys (front ++ [last]) s (s + blockSize) (-1) =
        (([last].filter (·.reaches s (s + blockSize))).map (·.identifier),
          ((front.length + [last].countP (·.passed (s + blockSize)) : Nat) : Int)) := by
      have start : (if (-1 : Int) < 0 then (front ++ [last]).length + (-1 : Int) else -1).toNat =
          front.length := by
        rw [if_pos (by decide), length_append, length_singleton]
        omega
      have sorted : SortedFeatures ((front ++ [last]).drop front.length) := by
        rw [tail]
        exact single
      rw [genMmExtraHashKeys_at final (Nat.le_add_right s blockSize) (by omega) start sorted, tail]
    have next : (front ++ [last]).drop
        (front.length + [last].countP (·.passed (s + blockSize))) =
          [last].filter (fun f => !f.passed (s + blockSize)) := by
      rw [← drop_drop, tail, drop_passed single]
    rw [loopMmKeys, first, loopMmKeys_carried final bounded single next count]

theorem touchedKeys_last_iff (front : List MultiModalFeatureSpec) (s count : Nat) :
    touchedKeys blockSize (front ++ [last]) count s = touchedKeys blockSize [last] count s ↔
      ∀ m < count, ∀ feat ∈ front,
        feat.touches (s + m * blockSize) (s + m * blockSize + blockSize) = false := by
  induction count generalizing s with
  | zero => simp [touchedKeys]
  | succ count ih =>
    have head : ((front ++ [last]).filter (·.touches s (s + blockSize))).map (·.identifier) =
        ([last].filter (·.touches s (s + blockSize))).map (·.identifier) ↔
          ∀ feat ∈ front, feat.touches s (s + blockSize) = false := by
      rw [filter_append, map_append, append_left_eq_self, map_eq_nil_iff, filter_eq_nil_iff]
      simp only [Bool.not_eq_true]
    rw [touchedKeys, touchedKeys, cons.injEq, ih, head]
    simp only [next_block, Nat.forall_lt_succ_left, Nat.zero_mul, Nat.add_zero]

/-- A restart at block start `s` folds the same identifiers as hashing at once
exactly when no feature but the last touches its blocks and the last one has not
just ended. -/
theorem loopMmKeys_restart_iff (pos : 0 < blockSize) (sorted : SortedFeatures features)
    (final : features.getLast? = some last) (s count : Nat) :
    loopMmKeys blockSize features (count + 1) s (-1) =
        touchedKeys blockSize features (count + 1) s ↔
      (∀ m < count + 1, ∀ feat ∈ features.dropLast,
        feat.touches (s + m * blockSize) (s + m * blockSize + blockSize) = false) ∧
      ¬ (last.offset < s ∧ last.stop = s) := by
  obtain ⟨front, rfl⟩ := getLast?_eq_some_iff.mp final
  have span := last.offset_le_stop
  have prior : ∀ feat ∈ front, feat.stop ≤ last.offset := by
    intro feat mem
    exact (pairwise_append.mp sorted).2.2 feat mem last (by simp)
  rw [loopMmKeys_restart final, dropLast_concat]
  by_cases ended : last.offset < s ∧ last.stop = s
  · have reach : last.reaches s (s + blockSize) = true := by
      rw [reaches_iff]
      omega
    have touch : last.touches s (s + blockSize) = false := by
      rw [Bool.eq_false_iff, ne_eq, touches_iff]
      omega
    have past : ∀ feat ∈ front, feat.stop < s := fun feat mem =>
      Nat.lt_of_le_of_lt (prior feat mem) ended.1
    constructor
    · intro same
      rw [touchedKeys, cons.injEq, filter_append, filter_touches_past past,
        filter_cons_of_pos reach, filter_cons_of_neg (by simp [touch])] at same
      cases same.1
    · intro clean
      exact absurd ended clean.2
  · have agree : last.reaches s (s + blockSize) = last.touches s (s + blockSize) := by
      rw [Bool.eq_iff_iff, reaches_iff, touches_iff]
      omega
    have restarted : (([last].filter (·.reaches s (s + blockSize))).map (·.identifier)) ::
        touchedKeys blockSize [last] count (s + blockSize) =
          touchedKeys blockSize [last] (count + 1) s := by
      rw [touchedKeys, filter_cons, filter_cons, agree]
      rfl
    rw [restarted, eq_comm, touchedKeys_last_iff]
    exact (and_iff_left ended).symm

end Carried

section
variable (blockSize : Nat) (features : List MultiModalFeatureSpec)

/-- The tokens appended after `numTokens` complete only blocks that no feature but
the last one touches, the first of them not right after the end of the last one.
Without a hashed block there is no restart. -/
def RestartClean (numTokens appended : Nat) : Prop :=
  let restart := numTokens / blockSize
  1 ≤ restart → restart < (numTokens + appended) / blockSize →
    (∀ m, restart ≤ m → m < (numTokens + appended) / blockSize →
      ∀ feat ∈ features.dropLast,
        feat.touches (m * blockSize) (m * blockSize + blockSize) = false) ∧
    ∀ last ∈ features.getLast?,
      ¬ (last.offset < restart * blockSize ∧ last.stop = restart * blockSize)

def RestartsClean (blockSize : Nat) (features : List MultiModalFeatureSpec) :
    (numTokens : Nat) → List (List TokenId) → Prop
  | _, [] => True
  | numTokens, chunk :: rest =>
    RestartClean blockSize features numTokens chunk.length ∧
      RestartsClean blockSize features (numTokens + chunk.length) rest

def appendChunks (hasher : BlockHasher H)
    (req : Request H) (chunks : List (List TokenId)) : Request H :=
  chunks.foldl (fun r chunk => r.appendOutputTokenIds (some hasher) chunk) req

def restartMmKeys (numTokens hashed : Nat) : List (List String) :=
  loopMmKeys blockSize features ((numTokens - hashed * blockSize) / blockSize)
    (hashed * blockSize) (if hashed * blockSize > 0 then -1 else 0)

end

def incrementalMmKeys (blockSize : Nat) (features : List MultiModalFeatureSpec) :
    (numTokens : Nat) → (keys : List (List String)) → List (List TokenId) → List (List String)
  | _, keys, [] => keys
  | numTokens, keys, chunk :: rest =>
    incrementalMmKeys blockSize features (numTokens + chunk.length)
      (keys ++ restartMmKeys blockSize features (numTokens + chunk.length) keys.length) rest

section Incremental
variable {blockSize : Nat} {features : List MultiModalFeatureSpec}

@[simp] theorem length_restartMmKeys (numTokens hashed : Nat) :
    (restartMmKeys blockSize features numTokens hashed).length = numTokens / blockSize - hashed := by
  rw [restartMmKeys, length_loopMmKeys, Nat.mul_comm, Nat.sub_mul_div]

theorem restartMmKeys_iff (pos : 0 < blockSize) (sorted : SortedFeatures features)
    (numTokens appended : Nat) :
    restartMmKeys blockSize features (numTokens + appended) (numTokens / blockSize) =
        touchedKeys blockSize features ((numTokens + appended) / blockSize - numTokens / blockSize)
          (numTokens / blockSize * blockSize) ↔
      RestartClean blockSize features numTokens appended := by
  have count : (numTokens + appended - numTokens / blockSize * blockSize) / blockSize =
      (numTokens + appended) / blockSize - numTokens / blockSize := by
    rw [Nat.mul_comm, Nat.sub_mul_div]
  rw [restartMmKeys, count, RestartClean]
  generalize numTokens / blockSize = restart
  generalize (numTokens + appended) / blockSize = blocks
  rcases Nat.eq_zero_or_pos restart with rfl | hashed
  · simp [loopMmKeys_oneShot sorted]
  · have place : restart * blockSize > 0 := Nat.mul_pos hashed pos
    rw [if_pos place]
    rcases Nat.lt_or_ge restart blocks with new | none
    · obtain ⟨count, rfl⟩ : ∃ count, blocks = restart + (count + 1) :=
        ⟨blocks - restart - 1, by omega⟩
      rw [Nat.add_sub_cancel_left]
      cases final : features.getLast? with
      | none =>
        rw [getLast?_eq_none_iff.mp final, loopMmKeys_empty]
        simp
      | some last =>
        rw [loopMmKeys_restart_iff pos sorted final]
        simp only [← Nat.add_mul, Option.mem_some_iff, forall_eq']
        constructor
        · rintro ⟨untouched, notEnded⟩ _ _
          refine ⟨?_, notEnded⟩
          intro m from_ below feat mem
          have := untouched (m - restart) (by omega) feat mem
          rwa [Nat.add_sub_cancel' from_] at this
        · intro clean
          obtain ⟨untouched, notEnded⟩ := clean hashed new
          refine ⟨?_, notEnded⟩
          intro m below feat mem
          exact untouched (restart + m) (by omega) (by omega) feat mem
    · rw [Nat.sub_eq_zero_of_le none]
      refine iff_of_true rfl ?_
      intro _ new
      omega

/-- The calls fold the right identifiers in exactly when every restart is clean. -/
theorem incrementalMmKeys_iff (pos : 0 < blockSize) (sorted : SortedFeatures features)
    (chunks : List (List TokenId)) (numTokens : Nat) (keys : List (List String))
    (hashed : keys.length = numTokens / blockSize) :
    incrementalMmKeys blockSize features numTokens keys chunks =
        touchedKeys blockSize features ((numTokens + chunks.flatten.length) / blockSize) 0 ↔
      keys = touchedKeys blockSize features (numTokens / blockSize) 0 ∧
        RestartsClean blockSize features numTokens chunks := by
  induction chunks generalizing numTokens keys with
  | nil => simp [incrementalMmKeys, RestartsClean]
  | cons chunk rest ih =>
    have grows : numTokens / blockSize ≤ (numTokens + chunk.length) / blockSize :=
      Nat.div_le_div_right (Nat.le_add_right _ _)
    have length : (keys ++ restartMmKeys blockSize features (numTokens + chunk.length)
        keys.length).length = (numTokens + chunk.length) / blockSize := by
      rw [length_append, length_restartMmKeys, hashed]
      omega
    have total : numTokens + (chunk :: rest).flatten.length =
        numTokens + chunk.length + rest.flatten.length := by
      rw [flatten_cons, length_append, Nat.add_assoc]
    have pieces : keys ++ restartMmKeys blockSize features (numTokens + chunk.length) keys.length =
        touchedKeys blockSize features ((numTokens + chunk.length) / blockSize) 0 ↔
        keys = touchedKeys blockSize features (numTokens / blockSize) 0 ∧
          RestartClean blockSize features numTokens chunk.length := by
      rw [← restartMmKeys_iff pos sorted, ← Nat.add_sub_of_le grows, touchedKeys_add,
        Nat.zero_add, Nat.add_sub_cancel_left, ← hashed]
      constructor
      · intro same
        exact append_inj same (by rw [length_touchedKeys])
      · rintro ⟨before, after⟩
        rw [← before, after]
    rw [incrementalMmKeys, total, ih _ _ length, RestartsClean, pieces, and_assoc]

theorem appendChunks_chain (chunks : List (List TokenId)) {keys : List (List String)}
    (hashed : keys.length = req.numTokens / hasher.blockSize)
    (chained : req.blockHashes = HashChain.chain hasher.link hasher.noneHash (blockItems
      hasher req 0 keys)) : (appendChunks hasher req chunks).blockHashes =
      HashChain.chain hasher.link hasher.noneHash
        (blockItems hasher (appendChunks hasher req chunks) 0
          (incrementalMmKeys hasher.blockSize req.mmFeatures req.numTokens keys chunks)) := by
  induction chunks generalizing req keys with
  | nil => exact chained
  | cons chunk rest ih =>
    have within : keys.length * hasher.blockSize ≤ req.numTokens := by
      rw [hashed]
      exact Nat.div_mul_le_self _ _
    have grows : req.numTokens / hasher.blockSize ≤
        (req.numTokens + chunk.length) / hasher.blockSize :=
      Nat.div_le_div_right (Nat.le_add_right _ _)
    have size := appendOutputTokenIds_numTokens (some hasher) req chunk
    have length : (keys ++ restartMmKeys hasher.blockSize req.mmFeatures
        (req.numTokens + chunk.length) keys.length).length =
          (req.appendOutputTokenIds (some hasher) chunk).numTokens / hasher.blockSize := by
      rw [length_append, length_restartMmKeys, hashed, size]
      omega
    have next := ih length (appendOutputTokenIds_chain chunk within chained)
    rw [size] at next
    exact next

section
variable (hasher : BlockHasher H) (req : Request H) (chunks : List (List TokenId))

theorem appendChunks_numTokens : (appendChunks hasher req chunks).numTokens =
      req.numTokens + chunks.flatten.length := by
  induction chunks generalizing req with
  | nil => rfl
  | cons chunk rest ih =>
    rw [flatten_cons, length_append, ← Nat.add_assoc,
      ← appendOutputTokenIds_numTokens (some hasher)]
    exact ih _

theorem appendChunks_mmFeatures :
    (appendChunks hasher req chunks).mmFeatures = req.mmFeatures := by
  induction chunks generalizing req with
  | nil => rfl
  | cons chunk rest ih => exact ih _

end

theorem init_chain (h : Request.init (some hasher) args = .ok req) :
    req.mmFeatures = args.mmFeatures ∧ req.blockHashes = oneShotHashes hasher req := by
  obtain ⟨_, _, h⟩ := Py.bind_ok h
  obtain ⟨_, _, h⟩ := Py.bind_ok h
  cases h
  exact ⟨rfl, nil_append _⟩

end Incremental

/-- Hashing while tokens are appended gives the hashes of one call for all tokens
when every restart is clean, and without hash collisions only then. -/
theorem incremental_hashes_iff (hasher : BlockHasher H) (args : RequestArgs)
    (sorted : SortedFeatures args.mmFeatures) (req : Request H)
    (created : Request.init (some hasher) args = .ok req) (chunks : List (List TokenId)) :
    (RestartsClean hasher.blockSize args.mmFeatures req.numTokens chunks →
      (appendChunks hasher req chunks).blockHashes =
        oneShotHashes hasher (appendChunks hasher req chunks)) ∧ (hasher.CollisionFree →
      (appendChunks hasher req chunks).blockHashes =
        oneShotHashes hasher (appendChunks hasher req chunks) →
      RestartsClean hasher.blockSize args.mmFeatures req.numTokens chunks) := by
  obtain ⟨features, initial⟩ := init_chain created
  rw [oneShotHashes_chain, features, loopMmKeys_oneShot sorted] at initial
  have incremental := appendChunks_chain chunks (length_touchedKeys _ _ _ _) initial
  have clean := incrementalMmKeys_iff hasher.blockSize_pos sorted chunks req.numTokens
    (touchedKeys hasher.blockSize args.mmFeatures (req.numTokens / hasher.blockSize) 0)
    (length_touchedKeys _ _ _ _)
  rw [incremental, oneShotHashes_chain, appendChunks_mmFeatures, features,
    loopMmKeys_oneShot sorted, appendChunks_numTokens]
  constructor
  · intro restarts
    rw [clean.mpr ⟨rfl, restarts⟩]
  · intro free same
    have items := HashChain.chain_injective free.link_injective same
    exact (clean.mp (blockItems_injective items)).2

def imagePrompt (identifiers : List String) : RequestArgs where
  requestId := "images"
  promptTokenIds := some [1, 2, 3, 4, 5, 6, 7]
  samplingParams := some { maxTokens := some 1 }
  poolingParams := none
  mmFeatures := identifiers.mapIdx (fun i identifier =>
    { identifier := identifier, mmPosition := { offset := 4 + i, length := 1 } })

/-- One image in the block that the next token completes: the restart is clean. -/
theorem incremental_hashes_iff_one_image : ∃ req : Request Digest,
    Request.init (some (termHasher 4 (by decide))) (imagePrompt ["cat"]) = .ok req ∧
    (appendChunks (termHasher 4 (by decide)) req [[8]]).blockHashes.length = 2 ∧
    (appendChunks (termHasher 4 (by decide)) req [[8]]).blockHashes =
      oneShotHashes (termHasher 4 (by decide))
        (appendChunks (termHasher 4 (by decide)) req [[8]]) := by
  refine ⟨_, rfl, rfl, ?_⟩
  refine (incremental_hashes_iff (termHasher 4 (by decide)) (imagePrompt ["cat"])
    (pairwise_singleton _ _) _ rfl [[8]]).1 ⟨?_, trivial⟩
  intro _ _
  refine ⟨fun m _ _ feat mem => absurd mem (not_mem_nil), ?_⟩
  rintro last ⟨⟩
  decide

/-- Two images in that block: hashing at once folds both identifiers in, the restart
only the last one. -/
theorem restart_misses_image : ∃ req : Request Digest,
    Request.init (some (termHasher 4 (by decide))) (imagePrompt ["cat", "dog"]) = .ok req ∧
    SortedFeatures (imagePrompt ["cat", "dog"]).mmFeatures ∧
    (appendChunks (termHasher 4 (by decide)) req [[8]]).blockHashes =
      [.block .noneHash [1, 2, 3, 4] none,
        .block (.block .noneHash [1, 2, 3, 4] none) [5, 6, 7, 8] (some [.str "dog"])] ∧
    oneShotHashes (termHasher 4 (by decide))
        (appendChunks (termHasher 4 (by decide)) req [[8]]) =
      [.block .noneHash [1, 2, 3, 4] none, .block (.block .noneHash [1, 2, 3, 4] none) [5, 6, 7, 8]
          (some [.str "cat", .str "dog"])] ∧
    (appendChunks (termHasher 4 (by decide)) req [[8]]).blockHashes ≠
      oneShotHashes (termHasher 4 (by decide))
        (appendChunks (termHasher 4 (by decide)) req [[8]]) := by
  have sorted : SortedFeatures (imagePrompt ["cat", "dog"]).mmFeatures := by
    unfold SortedFeatures
    decide
  refine ⟨_, rfl, sorted, rfl, rfl, ?_⟩
  intro same
  have second := (cons.inj (cons.inj same).2).1
  have keys := congrArg (·.map length) (Digest.block.inj second).2.2
  exact absurd keys (by decide)

end Vllm
