import Vllm.KV.Window

/-! The lookup of a sliding window finds the longest hit. -/
namespace Vllm
open LookupArgs Py
variable {H : Type}

theorem LookupArgs.cachedRow_returns (args : LookupArgs H) (known : i < args.blockHashes.length) :
    ∃ row, args.cachedRow i = .ok row := by
  have inside : i * args.blockHashes.scaleFactor + args.blockHashes.scaleFactor ≤
      args.blockHashes.blockHashes.length := by
    have := (Nat.le_div_iff_mul_le args.blockHashes.scaleFactor_pos).mp known
    rwa [Nat.succ_mul] at this
  unfold cachedRow BlockHashList.getValueAt
  rw [if_pos inside]
  exact ⟨_, rfl⟩

theorem SlidingWindowManager.scan_returns (known : i ≤ args.blockHashes.length)
    (contiguous k : Nat) (tail : List Row) :
    ∃ result, scan args contiguous i k tail = .ok result := by
  induction i generalizing k tail with
  | zero => exact ⟨_, rfl⟩
  | succ i ih =>
    obtain ⟨cached, looked⟩ := args.cachedRow_returns known
    have next : ∀ k tail, ∃ result, scan args contiguous i k tail = .ok result :=
      fun k tail => ih (Nat.le_of_succ_le known) k tail
    unfold scan
    rw [looked, ok_bind]
    cases cached with
    | none => exact next 0 _
    | some row =>
      dsimp only
      split
      · exact next 0 _
      · split
        · exact ⟨_, rfl⟩
        · exact next _ _

theorem SlidingWindowManager.dropEagle_length (eagle : args.useEagle = true →
      args.kvCacheSpec.blockSize = args.alignmentTokens) (rows : List Row) :
    ∃ computed, dropEagle args rows = .ok computed ∧
      computed.length = if args.useEagle then rows.length - 1 else rows.length := by
  unfold dropEagle
  cases dropped : args.useEagle with
  | false => exact ⟨rows, by simp, by simp⟩
  | true =>
    cases rows with
    | nil => exact ⟨[], by simp, by simp⟩
    | cons row rows => exact ⟨(row :: rows).dropLast, by simp [eagle dropped], by simp⟩

theorem alignedCount_of_dvd {count size : Nat} (aligned : size ∣ count * blockSize) :
    alignedCount blockSize size count = count := by
  cases count with
  | zero => rfl
  | succ count => simp [alignedCount, Nat.mod_eq_zero_of_dvd aligned]

namespace SlidingWindowManager

/-- The hit of a sliding window has the largest admissible length. With EAGLE one more block
has to be cached and the last one is dropped. -/
theorem window_hit_longest (args : LookupArgs H) (fields : AttentionFields) (window : Nat)
    (pos : 0 < window) (spec : args.kvCacheSpec = .slidingWindow fields window pos)
    (dcp : args.dcpWorldSize = 1) (pcp : args.pcpWorldSize = 1)
    (eagle : args.useEagle = true → fields.blockSize = args.alignmentTokens)
    (known : args.maxLength / fields.blockSize ≤ args.blockHashes.length) :
    ∃ hits n, findLongestCacheHit args = .ok hits ∧ IsGreatest {n | args.Admissible
        (max 1 ((cdiv ((window : Int) - 1) fields.blockSize).toNat +
          if args.useEagle then 1 else 0)) n} n ∧ hits.length = args.groups ∧
      ∀ blocks ∈ hits, blocks.length = if args.useEagle then n - 1 else n := by
  have size : args.kvCacheSpec.blockSize = fields.blockSize := by rw [spec]; rfl
  rw [← size] at eagle known
  obtain ⟨⟨rows, matched⟩, scanned⟩ := scan_returns known
    ((cdiv ((window : Int) - 1) fields.blockSize).toNat + (if args.useEagle then 1 else 0)) 0 []
  obtain ⟨greatest, -⟩ := scan_ok (Nat.zero_le _) (by omega) (Nat.le_refl _) (.inl rfl)
    (fun j row below => absurd below (Nat.not_lt_zero j)) (fun n found => found.bounded) scanned
  obtain ⟨computed, dropped, length⟩ := dropEagle_length eagle rows
  refine ⟨columns args.groups computed, rows.length, ?_, greatest, by simp [columns], ?_⟩
  · unfold findLongestCacheHit
    rw [size] at scanned
    simp only [spec, dcp, pcp, Py.assert, decide_true, if_true, ok_bind, scanned]
    have same : rows.take (alignedCount fields.blockSize args.alignmentTokens rows.length) = rows := by
      rw [alignedCount_of_dvd (size ▸ greatest.1.aligned), List.take_length]
    cases matched <;> simp [same, dropped]
  · simp [columns, length]

theorem window_hit_longest_second_block : ∃ hits n,
    findLongestCacheHit windowHitArgs = .ok hits ∧
    IsGreatest {n | windowHitArgs.Admissible 1 n} n ∧ hits.length = 1 ∧
    ∀ blocks ∈ hits, blocks.length = n := by
  exact window_hit_longest windowHitArgs _ 4 four_pos rfl rfl rfl (by decide) (by decide)

/-- With a window of one token and EAGLE the last block alone is enough, since it is dropped. -/
def oneTokenArgs : LookupArgs Nat :=
  { windowHitArgs with
    kvCacheSpec := .slidingWindow
      { blockSize := 4, blockSize_pos := four_pos, numKvHeads := 1, headSize := 1
        dtype := ⟨"bfloat16", 2⟩ } 1 Nat.one_pos
    useEagle := true }

theorem one_token_window_hit : findLongestCacheHit oneTokenArgs = .ok [[nullBlock]] ∧
    IsGreatest {n | oneTokenArgs.Admissible 2 n} 0 := by
  refine ⟨rfl, ⟨Nat.zero_le _, by simp, fun j _ before => by omega⟩, ?_⟩
  rintro (_ | n) admissible
  · exact Nat.le_refl 0
  · exfalso
    have few : n + 1 ≤ 2 := admissible.bounded
    obtain ⟨row, hash, value, cached⟩ := admissible.cached 0 (by omega) (Nat.succ_pos n)
    cases value
    cases cached

end SlidingWindowManager
end Vllm
