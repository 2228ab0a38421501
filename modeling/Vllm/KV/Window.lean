import Vllm.KV.Lookup

/-! What a prefix-cache hit covers. Each lookup returns rows that are cached from some
place on, the rows before it being null, and that place is never inside the window
of the next token. All groups of a lookup get the same number of blocks, which cover at
most the tokens asked for and end at a multiple of the alignment. -/
namespace Vllm
open List hiding next
open Py Option
variable {H : Type} {rows : List Row}

section
variable (args : LookupArgs H) (blockSize alignmentTokens count : Nat)

/-- A number of blocks that covers at most `maxLength` tokens, up to an aligned one. -/
structure LookupArgs.Fits : Prop where
  bounded : count * args.kvCacheSpec.blockSize ≤ args.maxLength
  aligned : args.alignmentTokens ∣ count * args.kvCacheSpec.blockSize

theorem alignedCount_le : alignedCount blockSize alignmentTokens count ≤ count := by
  induction count with
  | zero => exact Nat.le_refl 0
  | succ count ih =>
    unfold alignedCount
    split
    · exact Nat.le_succ_of_le ih
    · exact Nat.le_refl _

theorem alignedCount_aligned :
    alignmentTokens ∣ alignedCount blockSize alignmentTokens count * blockSize := by
  induction count with
  | zero => simp [alignedCount]
  | succ count ih =>
    unfold alignedCount
    split
    · exact ih
    · rename_i stop
      by_cases same : blockSize = alignmentTokens
      · rw [same]
        exact Nat.dvd_mul_left _ _
      · exact Nat.dvd_of_mod_eq_zero (not_not.mp fun odd => stop ⟨same, odd⟩)

end

namespace LookupArgs

section
variable (args : LookupArgs H)

def RowCached (j : Nat) (row : Row) : Prop :=
  ∃ hash, args.blockHashes.getValueAt j = .ok hash ∧
    args.blockPool.getCachedBlock hash args.kvCacheGroupIds = some row

/-- The rows from place `p` on are cached, and one before it may be null. -/
def CoveredFrom (rows : List Row) (p : Nat) : Prop :=
  ∀ j row, rows[j]? = some row → args.RowCached j row ∨ j < p ∧ row = nullRow args.groups

/-- Hits of `n` blocks, of which the last ones are cached. -/
structure Admissible (contiguous n : Nat) : Prop where
  bounded : n ≤ args.maxLength / args.kvCacheSpec.blockSize
  aligned : args.alignmentTokens ∣ n * args.kvCacheSpec.blockSize
  cached : ∀ j, n - contiguous ≤ j → j < n → ∃ row, args.RowCached j row

end

variable {args : LookupArgs H}

theorem cachedRow_some (h : args.cachedRow i = .ok (some row)) : args.RowCached i row := by
  obtain ⟨hash, value, cached⟩ := bind_ok h
  exact ⟨hash, value, Except.ok.inj cached⟩

theorem cachedRow_none (h : args.cachedRow i = .ok none) : ¬ ∃ row, args.RowCached i row := by
  obtain ⟨hash, value, missed⟩ := bind_ok h
  rintro ⟨row, other, same, found⟩
  rw [value] at same
  cases same
  cases (Except.ok.inj missed).symm.trans found

theorem CoveredFrom.take (covered : args.CoveredFrom rows p) (n : Nat) :
    args.CoveredFrom (rows.take n) p := by
  intro j row found
  rw [getElem?_take] at found
  split at found
  · exact covered j row found
  · cases found

theorem CoveredFrom.dropLast (covered : args.CoveredFrom rows p) :
    args.CoveredFrom rows.dropLast p := by
  rw [dropLast_eq_take]
  exact covered.take _

theorem fits_of_le_div {count : Nat} (bound : count ≤ args.maxLength / args.kvCacheSpec.blockSize)
    (aligned : args.alignmentTokens ∣ count * args.kvCacheSpec.blockSize) : args.Fits count :=
  ⟨le_trans (Nat.mul_le_mul_right _ bound) (Nat.div_mul_le_self _ _), aligned⟩

theorem fits_take (bound : rows.length ≤ args.maxLength / args.kvCacheSpec.blockSize) :
    args.Fits (rows.take
      (alignedCount args.kvCacheSpec.blockSize args.alignmentTokens rows.length)).length := by
  have short := alignedCount_le args.kvCacheSpec.blockSize args.alignmentTokens rows.length
  rw [length_take, min_eq_left short]
  exact fits_of_le_div (le_trans short bound) (alignedCount_aligned _ _ _)

end LookupArgs

open LookupArgs

variable {args : LookupArgs H}

theorem hitRows_ok {count : Nat} (h : hitRows args count i = .ok rows) :
    rows.length ≤ count ∧ ∀ j row, rows[j]? = some row → args.RowCached (i + j) row := by
  induction count generalizing i rows with
  | zero =>
    cases h
    exact ⟨Nat.le_refl 0, fun j row h => absurd h (by simp)⟩
  | succ count ih =>
    obtain ⟨cached, looked, next⟩ := bind_ok h
    cases cached with
    | none =>
      cases next
      exact ⟨Nat.zero_le _, fun j row h => absurd h (by simp)⟩
    | some row =>
      obtain ⟨_, more, final⟩ := bind_ok next
      cases final
      obtain ⟨short, covered⟩ := ih more
      refine ⟨Nat.succ_le_succ short, ?_⟩
      intro j other h
      cases j with
      | zero =>
        cases h
        exact cachedRow_some looked
      | succ j =>
        have later := covered j other h
        rwa [show i + 1 + j = i + (j + 1) by omega] at later

theorem replicate_covered (covered : ∀ j row, rows[j]? = some row → args.RowCached (p + j) row) :
    args.CoveredFrom (replicate p (nullRow args.groups) ++ rows) p := by
  intro j row found
  rcases Nat.lt_or_ge j p with before | place
  · rw [getElem?_append_left (by simpa using before), getElem?_replicate, if_pos before] at found
    exact .inr ⟨before, (some.inj found).symm⟩
  · rw [getElem?_append_right (by simpa using place), length_replicate] at found
    have later := covered _ row found
    rw [Nat.add_sub_cancel' place] at later
    exact .inl later

/-- The scans go on at a block that ends at a length that is not aligned. -/
theorem dvd_blocks {count : Nat} (stop : args.kvCacheSpec.blockSize ≠ args.alignmentTokens →
      ¬ count * args.kvCacheSpec.blockSize % args.alignmentTokens ≠ 0) :
    args.alignmentTokens ∣ count * args.kvCacheSpec.blockSize := by
  by_cases same : args.kvCacheSpec.blockSize = args.alignmentTokens
  · rw [same]
    exact Nat.dvd_mul_left _ _
  · exact Nat.dvd_of_mod_eq_zero (not_not.mp (stop same))

/-- The sliding-window scan finds the longest hit, which ends with enough cached rows or is cached
from the start. The `k` rows after row `i` are matched so far, and no longer hit is possible. -/
theorem SlidingWindowManager.scan_ok {tail : List Row} (bound : k ≤ tail.length)
    (short : k < max 1 contiguous) (inside : i + k ≤ args.maxLength / args.kvCacheSpec.blockSize)
    (ends : k = 0 ∨ args.alignmentTokens ∣ (i + k) * args.kvCacheSpec.blockSize)
    (hits : ∀ j row, j < k → tail[j]? = some row → args.RowCached (i + j) row)
    (above : ∀ n, args.Admissible (max 1 contiguous) n → n ≤ i + k)
    (h : scan args contiguous i k tail = .ok (rows, matched)) :
    IsGreatest {n | args.Admissible (max 1 contiguous) n} rows.length ∧
      if matched then ∃ p, p + contiguous ≤ rows.length ∧ args.CoveredFrom rows p
      else args.CoveredFrom rows 0 := by
  induction i generalizing k tail with
  | zero =>
    cases h
    rw [length_take, min_eq_left bound]
    refine ⟨⟨⟨by omega, ?_, fun j _ before => ?_⟩, fun n found => by simpa using above n found⟩, ?_⟩
    · rcases ends with rfl | aligned
      · simp
      · rwa [Nat.zero_add] at aligned
    · have here := hits j tail[j] before (getElem?_eq_getElem _)
      rw [Nat.zero_add] at here
      exact ⟨_, here⟩
    · intro j row found
      rw [getElem?_take] at found
      split at found
      · rename_i below
        have here := hits j row below found
        rw [Nat.zero_add] at here
        exact .inl here
      · cases found
  | succ i ih =>
    obtain ⟨cached, looked, next⟩ := bind_ok h
    -- A hit that ends after block `i` contains it; if there is none, the scan starts over.
    have skip {pad : Row} (below : ∀ n, args.Admissible (max 1 contiguous) n →
        (∃ row, args.RowCached i row) → n ≤ i)
        (next : scan args contiguous i 0 (pad :: tail) = .ok (rows, matched)) := by
      refine ih (Nat.zero_le _) (by omega) (by omega) (.inl rfl)
        (fun j row before => absurd before (Nat.not_lt_zero j)) ?_ next
      intro n admissible
      have least := above n admissible
      by_contra more
      exact more (below n admissible (admissible.cached i (by omega) (by omega)))
    cases cached with
    | none => exact skip (fun n _ here => absurd here (cachedRow_none looked)) next
    | some row =>
      have current : ∀ j other, j < k + 1 → (row :: tail)[j]? = some other →
          args.RowCached (i + j) other := by
        intro j other below found
        cases j with
        | zero =>
          cases found
          exact cachedRow_some looked
        | succ j =>
          have := hits j other (by omega) found
          rwa [show i + 1 + j = i + (j + 1) by omega] at this
      dsimp only at next
      split at next
      · rename_i odd
        refine skip (fun n admissible _ => ?_) next
        have least := above n admissible
        by_contra more
        obtain rfl : n = i + 1 := by omega
        exact odd.2.2 (Nat.mod_eq_zero_of_dvd admissible.aligned)
      · rename_i stop
        have whole : args.alignmentTokens ∣ (i + (k + 1)) * args.kvCacheSpec.blockSize := by
          rw [show i + (k + 1) = i + 1 + k by omega]
          rcases ends with first | aligned
          · rw [first]
            exact dvd_blocks (fun same odd => stop ⟨first, same, odd⟩)
          · exact aligned
        have least : ∀ n, args.Admissible (max 1 contiguous) n → n ≤ i + (k + 1) := by
          intro n admissible
          have := above n admissible
          omega
        split at next
        · cases next
          have length : (replicate i (nullRow args.groups) ++
              (row :: tail).take (k + 1)).length = i + (k + 1) := by
            simp only [length_append, length_replicate, length_take, length_cons]
            omega
          rw [length]
          refine ⟨⟨⟨by omega, whole, fun j after before => ?_⟩, least⟩, i, by omega,
            replicate_covered ?_⟩
          · have present : j - i < (row :: tail).length := by
              rw [length_cons]
              omega
            have here := current (j - i) _ (by omega) (getElem?_eq_getElem present)
            rw [Nat.add_sub_cancel' (by omega)] at here
            exact ⟨_, here⟩
          · intro j other found
            rw [getElem?_take] at found
            split at found
            · exact current j other (by assumption) found
            · cases found
        · exact ih (Nat.succ_le_succ bound) (by omega) (by omega) (.inr whole) current least next

theorem MambaManager.scan_ok (h : scan args i = .ok rows) :
    rows.length ≤ i ∧ args.alignmentTokens ∣ rows.length * args.kvCacheSpec.blockSize ∧
      args.CoveredFrom rows (rows.length - 1) := by
  induction i with
  | zero =>
    cases h
    exact ⟨Nat.le_refl 0, by simp, fun j row found => by cases found⟩
  | succ i ih =>
    have skip (next : scan args i = .ok rows) : rows.length ≤ i + 1 ∧ _ :=
      ⟨Nat.le_succ_of_le (ih next).1, (ih next).2⟩
    obtain ⟨cached, looked, next⟩ := bind_ok h
    cases cached with
    | none => exact skip next
    | some row =>
      dsimp only at next
      split at next
      · exact skip next
      · rename_i stop
        cases next
        have length : (replicate i (nullRow args.groups) ++ [row]).length = i + 1 := by simp
        rw [length]
        refine ⟨Nat.le_refl _, dvd_blocks (fun same odd => stop ⟨same, odd⟩), replicate_covered ?_⟩
        intro j _ found
        cases j with
        | zero =>
          cases found
          exact cachedRow_some looked
        | succ j => cases found

/-- Every chunk holds whole blocks, as the attention backend asserts. -/
def KVCacheSpec.WholeChunks : KVCacheSpec → Prop
  | .chunkedLocalAttention fields attentionChunkSize _ => fields.blockSize ∣ attentionChunkSize
  | _ => True

/-- The rows are cached from `p` on, and the blocks before `p` are skipped. -/
structure Covers (args : LookupArgs H) (rows : List Row) (p : Nat) : Prop where
  cached : args.CoveredFrom rows p
  skipped : args.kvCacheSpec.WholeChunks → (p : Int) * args.kvCacheSpec.blockSize ≤
    max 0 (args.kvCacheSpec.getNumSkippedTokens (rows.length * args.kvCacheSpec.blockSize))

theorem covers_zero (cached : args.CoveredFrom rows 0) : Covers args rows 0 := by
  refine ⟨cached, fun _ => ?_⟩
  rw [Int.natCast_zero, Int.zero_mul]
  exact le_max_left _ _

/-- What a lookup may return: rows that cover the tokens from some place on. Without context
parallelism they also fit the length asked for. -/
def HitOk (args : LookupArgs H) (hits : List (List BlockId)) : Prop :=
  ∃ rows p, hits = columns args.groups rows ∧ Covers args rows p ∧
    (args.dcpWorldSize = 1 → args.pcpWorldSize = 1 → args.Fits rows.length)

section Hits
variable {hits : List (List BlockId)}

theorem FullAttentionManager.hit_ok (h : findLongestCacheHit args = .ok hits) :
    HitOk args hits := by
  obtain ⟨_, h⟩ := assert_bind_ok h
  obtain ⟨computed, looked, final⟩ := bind_ok h
  obtain ⟨short, cached⟩ := hitRows_ok looked
  have covered : args.CoveredFrom computed 0 := by
    intro j row place
    have here := cached j row place
    rw [zero_add] at here
    exact .inl here
  cases final
  refine ⟨_, 0, rfl, covers_zero (CoveredFrom.take ?_ _), fun dcp pcp => ?_⟩
  · split
    · exact covered.dropLast
    · exact covered
  · rw [dcp, pcp, if_neg (by decide)] at short ⊢
    refine fits_take ?_
    split
    · rw [length_dropLast]
      omega
    · omega

theorem SlidingWindowManager.hit_ok (h : findLongestCacheHit args = .ok hits) :
    HitOk args hits := by
  unfold findLongestCacheHit at h
  cases spec : args.kvCacheSpec with
  | slidingWindow fields window pos =>
    have size : args.kvCacheSpec.blockSize = fields.blockSize := by rw [spec]; rfl
    rw [spec] at h
    obtain ⟨_, h⟩ := assert_bind_ok h
    obtain ⟨_, h⟩ := assert_bind_ok h
    obtain ⟨⟨rows, matched⟩, scanned, h⟩ := bind_ok h
    obtain ⟨⟨longest, -⟩, covered⟩ := scan_ok (Nat.zero_le _) (by omega) (by rw [size, Nat.add_zero])
      (.inl rfl) (fun j row below => absurd below (Nat.not_lt_zero j))
      (fun n found => size ▸ found.bounded) scanned
    have short := longest.bounded
    have skip : ∀ (p n : Nat), p + (cdiv ((window : Int) - 1) fields.blockSize).toNat ≤ n →
        (p : Int) * args.kvCacheSpec.blockSize ≤ max 0
          (args.kvCacheSpec.getNumSkippedTokens (n * args.kvCacheSpec.blockSize)) := by
      intro p n enough
      have needed := le_cdiv_mul (Int.natCast_pos.mpr fields.blockSize_pos) ((window : Int) - 1)
      have ordered : (p : Int) + cdiv ((window : Int) - 1) fields.blockSize ≤ n := by omega
      have grown := mul_le_mul_of_nonneg_right ordered (Int.natCast_nonneg fields.blockSize)
      rw [add_mul] at grown
      rw [spec]
      simp only [KVCacheSpec.getNumSkippedTokens, KVCacheSpec.blockSize]
      omega
    obtain ⟨_, dropped, final⟩ := bind_ok h
    cases final
    rw [← size] at dropped
    -- The rows before a last one is dropped for EAGLE, which keeps them aligned.
    have shorter {kept : List Row} (fits : args.Fits kept.length)
        (same : args.kvCacheSpec.blockSize = args.alignmentTokens) :
        args.Fits kept.dropLast.length := by
      rw [length_dropLast]
      refine ⟨le_trans (Nat.mul_le_mul_right _ (Nat.sub_le _ _)) fits.bounded, ?_⟩
      rw [same]
      exact Nat.dvd_mul_left _ _
    cases matched with
    | false =>
      have aligned := CoveredFrom.take covered
        (alignedCount args.kvCacheSpec.blockSize args.alignmentTokens rows.length)
      have fits := fits_take short
      rcases dropEagle_ok dropped with rfl | ⟨_, same, rfl⟩
      · exact ⟨_, 0, rfl, covers_zero aligned, fun _ _ => fits⟩
      · exact ⟨_, 0, rfl, covers_zero aligned.dropLast, fun _ _ => shorter fits same⟩
    | true =>
      obtain ⟨p, enough, cached⟩ := covered
      have fits := fits_of_le_div short longest.aligned
      rw [if_pos rfl] at dropped
      rcases dropEagle_ok dropped with rfl | ⟨eagle, same, rfl⟩
      · exact ⟨_, p, rfl, ⟨cached, fun _ => skip p _ (by split at enough <;> omega)⟩,
          fun _ _ => fits⟩
      · rw [if_pos eagle] at enough
        refine ⟨_, p, rfl, ⟨cached.dropLast, fun _ => skip p _ ?_⟩, fun _ _ => shorter fits same⟩
        rw [length_dropLast]
        omega
  | _ =>
    rw [spec] at h
    cases h

/-- The chunk of the returned length is the chunk of the length asked for. -/
theorem chunk_start_le (chunk : 0 < blockSize * blocks) (maxLength found : Nat) :
    maxLength / (blockSize * blocks) * (blockSize * blocks) / blockSize * blockSize ≤
      (maxLength / (blockSize * blocks) * (blockSize * blocks) / blockSize + found) * blockSize /
        (blockSize * blocks) * (blockSize * blocks) := by
  have whole : maxLength / (blockSize * blocks) * (blockSize * blocks) / blockSize * blockSize =
      maxLength / (blockSize * blocks) * (blockSize * blocks) := by
    refine Nat.div_mul_cancel ?_
    exact Dvd.dvd.mul_left (Nat.dvd_mul_right _ _) _
  rw [whole]
  refine Nat.mul_le_mul_right _ ?_
  rw [Nat.le_div_iff_mul_le chunk, Nat.add_mul, whole]
  exact Nat.le_add_right _ _

variable (h : findLongestCacheHit args = .ok hits)
include h

theorem ChunkedLocalAttentionManager.hit_ok : HitOk args hits := by
  unfold findLongestCacheHit at h
  cases spec : args.kvCacheSpec with
  | chunkedLocalAttention fields chunk pos =>
    have size : args.kvCacheSpec.blockSize = fields.blockSize := by rw [spec]; rfl
    rw [spec] at h
    obtain ⟨_, h⟩ := assert_bind_ok h
    obtain ⟨_, h⟩ := assert_bind_ok h
    obtain ⟨_, h⟩ := assert_bind_ok h
    obtain ⟨same, h⟩ := assert_bind_ok h
    obtain ⟨rows, looked, final⟩ := bind_ok h
    obtain ⟨short, cached⟩ := hitRows_ok looked
    cases final
    refine ⟨_, _, rfl, ⟨replicate_covered cached, fun chunks => ?_⟩, fun _ _ => fits_of_le_div ?_ ?_⟩
    · rw [spec] at chunks
      obtain ⟨blocks, rfl⟩ := chunks
      rw [spec, length_append, length_replicate]
      simp only [KVCacheSpec.getNumSkippedTokens, KVCacheSpec.blockSize]
      refine le_max_of_le_right ?_
      exact_mod_cast chunk_start_le pos args.maxLength rows.length
    · have start := Nat.div_le_div_right (c := fields.blockSize)
        (Nat.div_mul_le_self args.maxLength chunk)
      rw [size, length_append, length_replicate]
      omega
    · rw [size, of_decide_eq_true same]
      exact Nat.dvd_mul_left _ _
  | _ =>
    rw [spec] at h
    cases h

theorem MambaManager.hit_ok : HitOk args hits := by
  unfold findLongestCacheHit at h
  cases spec : args.kvCacheSpec with
  | mamba mamba =>
    have size : args.kvCacheSpec.blockSize = mamba.blockSize := by rw [spec]; rfl
    rw [spec] at h
    obtain ⟨_, h⟩ := assert_bind_ok h
    obtain ⟨_, h⟩ := assert_bind_ok h
    obtain ⟨rows, scanned, final⟩ := bind_ok h
    cases final
    obtain ⟨short, aligned, covered⟩ := scan_ok scanned
    rw [← size] at short
    refine ⟨rows, rows.length - 1, rfl, ⟨covered, fun _ => ?_⟩,
      fun _ _ => fits_of_le_div short aligned⟩
    rw [spec]
    simp only [KVCacheSpec.getNumSkippedTokens, KVCacheSpec.blockSize]
    have pos := mamba.blockSize_pos
    rcases eq_zero_or_pos rows.length with empty | _
    · simp [empty]
    · have ordered : ((rows.length - 1 : Nat) : Int) = rows.length - 1 := by omega
      rw [ordered, sub_mul]
      omega
  | _ =>
    rw [spec] at h
    cases h

theorem hit_ok : HitOk args hits := by
  unfold findLongestCacheHit at h
  split at h
  · exact SlidingWindowManager.hit_ok h
  · exact ChunkedLocalAttentionManager.hit_ok h
  · exact MambaManager.hit_ok h
  · cases h
  · cases h
  · exact FullAttentionManager.hit_ok h

end Hits

def BlockPool.NullUncached (pool : BlockPool H) : Prop :=
  ∀ key, nullBlock ∉ pool.cachedBlockHashToBlock key

/-- A cached row has for each group a block stored under that group's key. -/
theorem BlockPool.getCachedBlock_get {pool : BlockPool H} {hash : BlockHash H} {groupIds : List Nat}
    {row : Row} (cached : pool.getCachedBlock hash groupIds = some row) {group groupId : Nat}
    (place : groupIds[group]? = some groupId) :
    row.getD group nullBlock ∈ pool.cachedBlockHashToBlock ⟨hash, groupId⟩ := by
  induction groupIds generalizing row group with
  | nil => cases place
  | cons first rest ih =>
    unfold getCachedBlock at cached
    rw [mapM_cons] at cached
    obtain ⟨block, one, cached⟩ := bind_eq_some_iff.mp cached
    obtain ⟨_, more, final⟩ := bind_eq_some_iff.mp cached
    cases final
    cases group with
    | zero =>
      cases place
      rw [getOneBlock, BlockHashToBlockMap.getOneBlock_eq] at one
      exact mem_of_mem_head? one
    | succ group => exact ih more place

theorem columns_get {groups : Nat} (place : (columns groups rows)[g]? = some blocks) :
    blocks = rows.map (fun row => row.getD g nullBlock) := by
  unfold columns at place
  rw [getElem?_map] at place
  obtain ⟨_, ranged, rfl⟩ := map_eq_some_iff.mp place
  have := List.getElem?_eq_some_iff.mp ranged
  obtain ⟨_, rfl⟩ := this
  rw [getElem_range]

/-- In each returned column, a block that is not wholly in the skipped prefix is
cached under its own hash, and is not the null block. -/
theorem hit_covers_window {args : LookupArgs H} {hits : List (List BlockId)}
    (chunks : args.kvCacheSpec.WholeChunks) (pool : args.blockPool.NullUncached)
    (found : findLongestCacheHit args = .ok hits) (g : Nat) {groupId : Nat} {blocks : List BlockId}
    (column : hits[g]? = some blocks) (group : args.kvCacheGroupIds[g]? = some groupId)
    (j : Nat) {block : BlockId} (place : blocks[j]? = some block)
    (needed : args.kvCacheSpec.getNumSkippedTokens (blocks.length * args.kvCacheSpec.blockSize) <
      (j + 1) * args.kvCacheSpec.blockSize) :
    block ≠ nullBlock ∧ ∃ hash, args.blockHashes.getValueAt j = .ok hash ∧
      block ∈ args.blockPool.cachedBlockHashToBlock ⟨hash, groupId⟩ := by
  obtain ⟨rows, p, rfl, covers, -⟩ := hit_ok found
  have shape := columns_get column
  subst shape
  rw [length_map] at needed
  rw [getElem?_map] at place
  obtain ⟨row, rowPlace, rfl⟩ := map_eq_some_iff.mp place
  have inside : p ≤ j := by
    by_contra before
    have pos : (0 : Int) < args.kvCacheSpec.blockSize :=
      Int.natCast_pos.mpr args.kvCacheSpec.blockSize_pos
    have order : ((j : Int) + 1) * args.kvCacheSpec.blockSize ≤ p * args.kvCacheSpec.blockSize :=
      mul_le_mul_of_nonneg_right (by omega) (le_of_lt pos)
    have some : (0 : Int) < (j + 1) * args.kvCacheSpec.blockSize := mul_pos (by omega) pos
    have skipped := covers.skipped chunks
    omega
  obtain ⟨hash, value, cached⟩ := (covers.cached j row rowPlace).resolve_right
    (fun before => absurd before.1 (Nat.not_lt.mpr inside))
  have stored := BlockPool.getCachedBlock_get cached group
  refine ⟨?_, hash, value, stored⟩
  intro null
  rw [null] at stored
  exact pool _ stored

/-- A window of 4 tokens over blocks of 4, where only the second block is cached. -/
def windowHitArgs : LookupArgs Nat where
  blockHashes := ⟨[1, 2], 1, Nat.one_pos⟩
  maxLength := 8
  kvCacheGroupIds := [0]
  blockPool := {
    numGpuBlocks := 4, enableCaching := true, hashBlockSize := 4, enableKvCacheEvents := false
    hasher := decimalHasher 4 four_pos
    refCnt := fun _ => 0
    blockHash := fun block => if block = 3 then some ⟨[2], 0⟩ else none
    freeBlockQueue := [1, 2, 3]
    numFreeBlocks := 3
    cachedBlockHashToBlock := ⟨fun key => if key = ⟨[2], 0⟩ then some (.single 3) else none⟩
    kvEventQueue := [] }
  kvCacheSpec := .slidingWindow
    { blockSize := 4, blockSize_pos := four_pos, numKvHeads := 1, headSize := 1
      dtype := ⟨"bfloat16", 2⟩ } 4 four_pos
  useEagle := false
  alignmentTokens := 4

theorem windowHitArgs_nullUncached : windowHitArgs.blockPool.NullUncached := by
  intro key
  show nullBlock ∉ (if key = ⟨[2], 0⟩ then some (.single 3) else none : Option CachedBlocks).elim []
    CachedBlocks.blocks
  split <;> decide

theorem hit_covers_window_second_block :
    findLongestCacheHit windowHitArgs = .ok [[0, 3]] ∧ 3 ≠ nullBlock ∧
      ∃ hash, windowHitArgs.blockHashes.getValueAt 1 = .ok hash ∧
        3 ∈ windowHitArgs.blockPool.cachedBlockHashToBlock ⟨hash, 0⟩ := by
  refine ⟨rfl, ?_⟩
  have chunks : windowHitArgs.kvCacheSpec.WholeChunks := trivial
  have found : findLongestCacheHit windowHitArgs = .ok [[0, 3]] := rfl
  exact hit_covers_window chunks windowHitArgs_nullUncached found 0 rfl rfl 1 rfl (by decide)

/-- Chunks of 6 tokens over blocks of 4: the block of tokens 0 to 3 is returned as
computed without a lookup, because token 7 does not see it, but the hit ends at token
4, which does. -/
theorem chunk_hit_inside_window :
    ∃ pool : BlockPool Nat, BlockPool.init 4 true 4 false (decimalHasher 4 (by decide)) = .ok pool ∧
      ∃ spec : KVCacheSpec, findLongestCacheHit {
          blockHashes := ⟨[1], 1, Nat.one_pos⟩, maxLength := 7, kvCacheGroupIds := [0]
          blockPool := pool, kvCacheSpec := spec, useEagle := false, alignmentTokens := 4 } =
            .ok [[nullBlock]] ∧
        spec.getNumSkippedTokens (1 * spec.blockSize) < (0 + 1) * spec.blockSize := by
  refine ⟨_, rfl, ?_⟩
  refine ⟨.chunkedLocalAttention ⟨4, by decide, 1, 1, ⟨"bfloat16", 2⟩, none⟩ 6 (by decide), ?_⟩
  exact ⟨by rfl, by decide⟩

end Vllm
