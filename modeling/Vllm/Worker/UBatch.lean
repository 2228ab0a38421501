import Vllm.Numpy

/-! Micro-batches: the decision of the data-parallel ranks, the slices of a batch, and the
attention metadata of each slice. The device and host copies of a tensor are one list. -/
namespace Vllm.UBatch
open List hiding next
open Segments Py Bool

structure Slice where
  start : Nat
  stop : Nat
  deriving DecidableEq, Repr

def Slice.of (slice : Slice) (items : List α) : List α :=
  (items.drop slice.start).take (slice.stop - slice.start)

structure UBatchSlice where
  requestSlice : Slice
  tokenSlice : Slice
  deriving DecidableEq, Repr

section
variable (sorted : List Nat) (value : Nat) (slice : UBatchSlice)
  (metadata : CommonAttentionMetadata)

def UBatchSlice.isEmpty : Bool :=
  slice.requestSlice.start == slice.requestSlice.stop ||
    slice.tokenSlice.start == slice.tokenSlice.stop

def UBatchSlice.numTokens : Int :=
  slice.tokenSlice.stop - slice.tokenSlice.start

def isLastUbatchEmpty (origNumTokens paddedNumTokens numUbatches : Nat) : Bool :=
  paddedNumTokens / numUbatches * (numUbatches - 1) ≥ origNumTokens

/-- What one rank contributes to the tensor of `_run_ar`. -/
structure DpColumn where
  origNumTokens : Nat
  paddedNumTokens : Nat
  shouldUbatch : Bool

variable (tensor : List DpColumn) (shouldUbatch : Bool) (numScheduledTokens : List Nat)
  (numTokensPadded numReqsPadded numUbatches : Nat)

def maxNumTokens : Nat := (tensor.map DpColumn.paddedNumTokens).max?.getD 0

def postProcessUbatch : Bool :=
  tensor.all DpColumn.shouldUbatch &&
    !isLastUbatchEmpty ((tensor.map DpColumn.origNumTokens).min?.getD 0) (maxNumTokens tensor)
      numUbatches

def searchsortedLeft : Nat := sorted.countP (· < value)

def searchsortedRight : Nat := sorted.countP (· ≤ value)

/-- Where the tokens of each request start, and where the last ones end. -/
def cuNumTokens : List Nat := 0 :: cumsum numScheduledTokens

def sliceBetween (cuNumTokens : List Nat) (startToken endToken : Nat) : UBatchSlice where
  requestSlice.start := searchsortedRight cuNumTokens startToken - 1
  requestSlice.stop := searchsortedLeft cuNumTokens endToken
  tokenSlice := ⟨startToken, endToken⟩

def slicesFrom (cuNumTokens : List Nat) : Nat → List Nat → List UBatchSlice
  | _, [] => []
  | startToken, endToken :: rest =>
    sliceBetween cuNumTokens startToken endToken :: slicesFrom cuNumTokens endToken rest

/-- The slice goes on to the last padded request and token. -/
def UBatchSlice.padOut (numTotalTokens numReqsPadded : Nat) : UBatchSlice where
  requestSlice := ⟨slice.requestSlice.start, numReqsPadded⟩
  tokenSlice := ⟨slice.tokenSlice.start, numTotalTokens⟩

def padOutUbatchSlices (slices : List UBatchSlice) (numTotalTokens numReqsPadded : Nat) :
    Py (List UBatchSlice) :=
  match slices.getLast? with
  | none => .error (.indexError "list index out of range")
  | some last => .ok (slices.dropLast ++ [last.padOut numTotalTokens numReqsPadded])

def maybeCreateUbatchSlices : Py (Option (List UBatchSlice × List UBatchSlice)) :=
  if !shouldUbatch then .ok none
  else do
    let splitPoint := numTokensPadded / numUbatches
    let tokenSplitPoints := (range' 1 (numUbatches - 1)).map (splitPoint * ·)
    let slices := slicesFrom (cuNumTokens numScheduledTokens) 0
      (tokenSplitPoints ++ [numScheduledTokens.sum])
    let padded ← padOutUbatchSlices slices numTokensPadded numReqsPadded
    Py.assert ((padded.map UBatchSlice.numTokens).sum == numTokensPadded) ""
    return some (slices, padded)

structure CommonAttentionMetadata where
  queryStartLoc : List Int
  seqLens : List Int
  numReqs : Nat
  numActualTokens : Nat
  maxQueryLen : Int
  maxSeqLen : Int
  blockTableTensor : List (List Nat)
  slotMapping : List Int
  numComputedTokensCpu : List Int
  deriving DecidableEq, Repr

def sliceQueryStartLocs (queryStartLoc : List Int) (requestSlice : Slice) (startLoc : Int) :
    List Int :=
  (Slice.of ⟨requestSlice.start, requestSlice.stop + 1⟩ queryStartLoc).map (· - startLoc)

/-- The metadata of a slice whose first request starts at `startLoc` and whose last one ends at
`endLoc`: tokens of the first request may be skipped, and tokens of the last one cut. -/
def slicedMetadata (startLoc endLoc : Int) : CommonAttentionMetadata :=
  let requestSlice := slice.requestSlice
  let firstTok : Int := slice.tokenSlice.start
  let lastTok : Int := slice.tokenSlice.stop - 1
  let skipped := if firstTok > startLoc then firstTok - startLoc else 0
  let cut := if lastTok < endLoc - 1 then endLoc - slice.tokenSlice.stop else 0
  let sliced := sliceQueryStartLocs metadata.queryStartLoc requestSlice startLoc
  let queryStartLoc := (sliced.mapIdx (fun i loc => if 0 < i then loc - skipped else loc)).modify
    (sliced.length - 1) (· - cut)
  let seqLens := requestSlice.of metadata.seqLens
  let seqLens := seqLens.modify (seqLens.length - 1) (· - cut)
  let maxQueryLen := (zipWith (fun next loc => ((next - loc).natAbs : Int)) queryStartLoc.tail
    queryStartLoc).max?.getD 0
  { queryStartLoc := queryStartLoc
    seqLens := seqLens
    numReqs := requestSlice.stop - requestSlice.start
    numActualTokens := slice.tokenSlice.stop - slice.tokenSlice.start
    maxQueryLen := if maxQueryLen = 0 then metadata.maxQueryLen else maxQueryLen
    maxSeqLen := seqLens.max?.getD 0
    blockTableTensor := requestSlice.of metadata.blockTableTensor
    slotMapping := slice.tokenSlice.of metadata.slotMapping
    numComputedTokensCpu := requestSlice.of metadata.numComputedTokensCpu }

def makeMetadataWithSlice : Py CommonAttentionMetadata := do
  Py.assert (!slice.isEmpty) "Ubatch slice is empty"
  let startLocs := metadata.queryStartLoc
  let firstReq := slice.requestSlice.start
  let firstTok : Int := slice.tokenSlice.start
  let startLoc ← Np.item startLocs firstReq
  let nextLoc ← Np.item startLocs (firstReq + 1)
  Py.assert (startLoc ≤ firstTok && firstTok < nextLoc) "Token slice start outside of first request"
  let endLoc ← Np.item startLocs slice.requestSlice.stop
  Py.assert (2 ≤ (sliceQueryStartLocs startLocs slice.requestSlice startLoc).length)
    "query_start_loc must have at least 2 elements"
  return slicedMetadata slice metadata startLoc endLoc

def splitAttnMetadata (slices : List UBatchSlice) (metadata : CommonAttentionMetadata) :
    Py (List CommonAttentionMetadata) :=
  slices.mapM (makeMetadataWithSlice · metadata)

structure Describes (numScheduledTokens numComputedTokens : List Nat)
    (numReqs : Nat) : Prop where
  reqs : numScheduledTokens.length ≤ numReqs
  counts : numComputedTokens.length = numScheduledTokens.length
  locs : metadata.queryStartLoc =
    (range (numReqs + 1)).map (fun r => (offset numScheduledTokens r : Int))
  seqLens : metadata.seqLens.length = numReqs
  seqLen : ∀ (r q c : Nat), numScheduledTokens[r]? = some q → numComputedTokens[r]? = some c →
    metadata.seqLens[r]? = some (c + q : Int)
  computed : ∀ (r q c : Nat), numScheduledTokens[r]? = some q → numComputedTokens[r]? = some c →
    metadata.numComputedTokensCpu[r]? = some (c : Int)

end

section Slices
variable {counts computed : List Nat} {start stop r q numReqs : Nat} {slice : UBatchSlice}
  {metadata : CommonAttentionMetadata}

theorem slice_get {slice : Slice} (inside : slice.start + j < slice.stop) :
    (slice.of items)[j]? = items[slice.start + j]? := by
  rw [Slice.of, getElem?_take, if_pos (by omega), getElem?_drop]

/-- The search finds the request that a token belongs to. -/
theorem searchsorted_token (found : counts[r]? = some q) (low : offset counts r ≤ t)
    (high : t < offset counts r + q) : searchsortedRight (cuNumTokens counts) t = r + 1 ∧
      searchsortedLeft (cuNumTokens counts) (t + 1) = r + 1 := by
  have right : (cuNumTokens counts).countP (fun loc => decide (loc ≤ t)) = r + 1 := by
    induction counts generalizing r t with
    | nil => cases found
    | cons n rest ih =>
      have shift : cuNumTokens (n :: rest) = 0 :: (cuNumTokens rest).map (n + ·) := by
        simp [cuNumTokens, cumsum]
      rw [shift, countP_cons_of_pos (by simp), countP_map]
      cases r with
      | zero =>
        cases found
        rw [offset_zero] at high
        congr 1
        rw [countP_eq_zero]
        intro loc _
        simp only [Function.comp_apply, decide_eq_true_eq]
        omega
      | succ r =>
        rw [offset_cons_succ] at low high
        congr 1
        rw [← ih (r := r) (t := t - n) found (by omega) (by omega)]
        congr 1
        funext loc
        simp only [Function.comp_apply, decide_eq_decide]
        omega
  refine ⟨right, ?_⟩
  rw [searchsortedLeft, ← right]
  congr 1
  simp

theorem mem_cuNumTokens : t ∈ cuNumTokens counts ↔ ∃ i ≤ counts.length, offset counts i = t := by
  constructor
  · intro mem
    obtain ⟨i, found⟩ := mem_iff_getElem?.mp mem
    cases i with
    | zero => exact ⟨0, Nat.zero_le _, by simpa [cuNumTokens] using found⟩
    | succ i =>
      rw [cuNumTokens, getElem?_cons_succ] at found
      have inside : i < counts.length := by
        simpa using (List.getElem?_eq_some_iff.mp found).1
      rw [getElem?_cumsum inside] at found
      exact ⟨i + 1, inside, Option.some.inj found⟩
  · rintro ⟨i, le, rfl⟩
    cases i with
    | zero => simp [cuNumTokens]
    | succ i => exact mem_cons_of_mem _ (mem_of_getElem? (getElem?_cumsum le))

/-- The requests of a slice are those that its tokens belong to. -/
structure Covers (counts : List Nat) (numReqs : Nat) (slice : UBatchSlice) : Prop where
  first : ∃ q, counts[slice.requestSlice.start]? = some q ∧
    offset counts slice.requestSlice.start ≤ slice.tokenSlice.start ∧
    slice.tokenSlice.start < offset counts slice.requestSlice.start + q
  tokens : slice.tokenSlice.start < slice.tokenSlice.stop
  requests : slice.requestSlice.start < slice.requestSlice.stop
  bound : slice.requestSlice.stop ≤ numReqs
  ends : ∀ r, r < slice.requestSlice.stop → offset counts r ≤ slice.tokenSlice.stop
  all : ∀ r q, counts[r]? = some q → offset counts r < slice.tokenSlice.stop →
    r < slice.requestSlice.stop

theorem covers_between (tokens : start < stop) (within : stop ≤ counts.sum) :
    Covers counts counts.length (sliceBetween (cuNumTokens counts) start stop) := by
  obtain ⟨r, q, j, found, inside, rfl⟩ := exists_segment (show start < counts.sum by omega)
  obtain ⟨r', _, _, found', _, last⟩ := exists_segment (show stop - 1 < counts.sum by omega)
  obtain ⟨t, rfl⟩ : ∃ t, stop = t + 1 := ⟨stop - 1, by omega⟩
  rw [sliceBetween, (searchsorted_token found (Nat.le_add_right _ _) (by omega)).1,
    (searchsorted_token found' (by omega) (by omega : t < _)).2]
  obtain ⟨below, -⟩ := List.getElem?_eq_some_iff.mp found'
  constructor
  · exact ⟨q, found, by simp, by simpa using inside⟩
  · exact tokens
  · -- a request after the last one would start behind the last token
    by_contra behind
    have later : offset counts (r' + 1) ≤ offset counts r := offset_mono (by simpa using behind)
    rw [offset_succ found'] at later
    omega
  · exact below
  · intro i le
    have before : offset counts i ≤ offset counts r' := offset_mono (Nat.lt_succ_iff.mp le)
    simp only
    omega
  · intro i n _ before
    by_contra behind
    have later : offset counts (r' + 1) ≤ offset counts i := offset_mono (by simpa using behind)
    rw [offset_succ found'] at later
    simp only at before
    omega

/-- The last slice still covers its requests when it is padded. -/
theorem Covers.pad (covers : Covers counts counts.length slice)
    (last : slice.tokenSlice.stop = counts.sum) (tokens : counts.sum ≤ paddedTo)
    (reqs : counts.length ≤ numReqs) :
    Covers counts numReqs (slice.padOut paddedTo numReqs) := by
  have nonempty := covers.tokens
  have requests := covers.requests
  have bound := covers.bound
  constructor
  · exact covers.first
  · simp only [UBatchSlice.padOut]
    omega
  · simp only [UBatchSlice.padOut]
    omega
  · exact Nat.le_refl _
  · intro r _
    refine Nat.le_trans ?_ tokens
    by_cases inside : r ≤ counts.length
    · rw [← offset_length]
      exact offset_mono inside
    · exact Nat.le_of_eq (congrArg sum (take_of_length_le (by omega)))
  · intro r q found _
    obtain ⟨below, -⟩ := List.getElem?_eq_some_iff.mp found
    exact Nat.lt_of_lt_of_le below reqs

section
variable (counts computed : List Nat) (metadata : CommonAttentionMetadata) (slice : UBatchSlice)

structure SliceMetadata (m : CommonAttentionMetadata) : Prop where
  locs : ∀ j, slice.requestSlice.start + j ≤ slice.requestSlice.stop → m.queryStartLoc[j]? =
    some (if j = 0 then 0 else
      min (offset counts (slice.requestSlice.start + j) : Int) slice.tokenSlice.stop -
        slice.tokenSlice.start)
  seqLens : ∀ j q c, slice.requestSlice.start + j < slice.requestSlice.stop →
    counts[slice.requestSlice.start + j]? = some q → computed[slice.requestSlice.start + j]? = some c →
    m.seqLens[j]? = some (c + min (q : Int)
      (slice.tokenSlice.stop - offset counts (slice.requestSlice.start + j)))
  computed : ∀ j, slice.requestSlice.start + j < slice.requestSlice.stop →
    m.numComputedTokensCpu[j]? = metadata.numComputedTokensCpu[slice.requestSlice.start + j]?
  blocks : ∀ j, slice.requestSlice.start + j < slice.requestSlice.stop →
    m.blockTableTensor[j]? = metadata.blockTableTensor[slice.requestSlice.start + j]?

def slicedFor : CommonAttentionMetadata :=
  slicedMetadata slice metadata (offset counts slice.requestSlice.start)
    (offset counts slice.requestSlice.stop)

end

theorem makeMetadataWithSlice_covers (covers : Covers counts numReqs slice)
    (describes : Describes metadata counts computed numReqs) :
    makeMetadataWithSlice slice metadata = .ok (slicedFor counts metadata slice) ∧
      SliceMetadata counts computed metadata slice (slicedFor counts metadata slice) := by
  obtain ⟨⟨first, stop⟩, ⟨start, last⟩⟩ := slice
  obtain ⟨⟨q, found, low, high⟩, tokens, requests, bound, ends, -⟩ := covers
  simp only at found low high tokens requests bound ends
  have loc : ∀ r ≤ numReqs, metadata.queryStartLoc[r]? = some (offset counts r : Int) := by
    intro r le
    rw [describes.locs, getElem?_map, getElem?_range (by omega)]
    rfl
  have item : ∀ r ≤ numReqs, Np.item metadata.queryStartLoc r = .ok (offset counts r : Int) :=
    fun r le => Np.item_ok (Int.natCast_nonneg r) (loc r le)
  have next := item (first + 1) (by omega)
  rw [offset_succ found] at next
  push_cast at next
  have length : (sliceQueryStartLocs metadata.queryStartLoc ⟨first, stop⟩
      (offset counts first)).length = stop - first + 1 := by
    simp only [sliceQueryStartLocs, Slice.of, length_map, length_take, length_drop,
      describes.locs, length_range]
    omega
  have cut : (if (last - 1 : Int) < offset counts stop - 1 then (offset counts stop - last : Int)
      else 0) = offset counts stop - min (offset counts stop : Int) last := by
    split <;> omega
  have skipped : (if (start : Int) > offset counts first then (start - offset counts first : Int)
      else 0) = start - offset counts first := by
    split <;> omega
  constructor
  · simp only [makeMetadataWithSlice, item _ (show first ≤ numReqs by omega), next, item _ bound,
      ok_bind]
    rw [assert_bind (by simp [UBatchSlice.isEmpty]; omega), assert_bind (by simp; omega),
      assert_bind (by simp [length]; omega)]
    rfl
  constructor
  · intro j le
    simp only at le
    have atLoc : (sliceQueryStartLocs metadata.queryStartLoc ⟨first, stop⟩
        (offset counts first))[j]? = some (offset counts (first + j) - offset counts first : Int) := by
      rw [sliceQueryStartLocs, getElem?_map, slice_get (by simp only; omega),
        loc (first + j) (by omega)]
      rfl
    simp only [slicedFor, slicedMetadata, getElem?_modify, getElem?_mapIdx, atLoc, length,
      Option.map_eq_map, Option.map_some, Option.some.injEq]
    by_cases final : first + j = stop
    · rw [if_pos (by omega : _ = j), final]
      omega
    · rw [if_neg (by omega : ¬ _ = j)]
      have before := ends (first + j) (by omega)
      cases j with
      | zero => simp
      | succ j =>
        omega
  · intro j n c inside here before
    have atLen := describes.seqLen _ _ _ here before
    have width : (Slice.of ⟨first, stop⟩ metadata.seqLens).length = stop - first := by
      simp only [Slice.of, length_take, length_drop, describes.seqLens]
      omega
    have after := offset_succ here
    simp only [slicedFor, slicedMetadata, getElem?_modify, slice_get inside, atLen, width,
      Option.map_eq_map, Option.map_some, Option.some.injEq]
    simp only at inside after
    by_cases final : first + j + 1 = stop
    · rw [← final, after]
      omega
    · have before := ends (first + j + 1) (by omega)
      omega
  · exact fun j inside => slice_get inside
  · exact fun j inside => slice_get inside

/-- The micro-batch of `slice` has a row for the request `r` with `q` query tokens of which it
covers those from `a` to `b`; the row says that `before` tokens were computed earlier. -/
def HasRow (counts : List Nat) (metadata : CommonAttentionMetadata) (slice : UBatchSlice)
    (m : CommonAttentionMetadata) (r c a b before : Nat) : Prop :=
  ∃ j, r = slice.requestSlice.start + j ∧ r < slice.requestSlice.stop ∧
    m.queryStartLoc[j]? = some (offset counts r + a - slice.tokenSlice.start : Int) ∧
    m.queryStartLoc[j + 1]? = some (offset counts r + a - slice.tokenSlice.start + (b - a) : Int) ∧
    m.seqLens[j]? = some (c + b : Int) ∧ m.numComputedTokensCpu[j]? = some (before : Int) ∧
    m.blockTableTensor[j]? = metadata.blockTableTensor[r]?

theorem HasRow.unique (row : HasRow counts metadata slice m r c a b x)
    (row' : HasRow counts metadata slice m r c a b y) : x = y := by
  obtain ⟨j, _, -, -, -, -, isX, -⟩ := row
  obtain ⟨j', _, -, -, -, -, isY, -⟩ := row'
  obtain rfl : j = j' := by omega
  exact Int.natCast_inj.mp (Option.some.inj (isX.symm.trans isY))

def covered (counts : List Nat) (slice : UBatchSlice) (r q : Nat) : Nat × Nat :=
  (slice.tokenSlice.start - offset counts r, min q (slice.tokenSlice.stop - offset counts r))

/-- Every token is in one micro-batch, and every micro-batch has the right rows. -/
structure Faithful (counts computed : List Nat) (metadata : CommonAttentionMetadata)
    (slices : List UBatchSlice) (metas : List CommonAttentionMetadata) : Prop where
  once : ∀ token < counts.sum, ∃! k : Nat, ∃ slice, slices[k]? = some slice ∧
    slice.tokenSlice.start ≤ token ∧ token < slice.tokenSlice.stop
  length : metas.length = slices.length
  rows : ∀ (k : Nat) slice m, slices[k]? = some slice → metas[k]? = some m → ∀ r q c a b : Nat,
    counts[r]? = some q → computed[r]? = some c → covered counts slice r q = (a, b) → a < b →
    HasRow counts metadata slice m r c a b (c + a)
  slots : ∀ (k : Nat) slice m, slices[k]? = some slice → metas[k]? = some m →
    m.slotMapping = slice.tokenSlice.of metadata.slotMapping

/-- The row is there, but the computed tokens are those before the whole batch. -/
theorem Covers.hasRow (covers : Covers counts numReqs slice)
    (describes : Describes metadata counts computed numReqs) (found : counts[r]? = some q)
    (before : computed[r]? = some c) (part : covered counts slice r q = (a, b)) (some : a < b) :
    HasRow counts metadata slice (slicedFor counts metadata slice) r c a b c := by
  obtain ⟨rfl, rfl⟩ := Prod.mk.inj part
  have fields := (makeMetadataWithSlice_covers covers describes).2
  obtain ⟨_, found', _, _⟩ := covers.first
  have below := covers.all r q found (by omega)
  have after := offset_succ found
  have first : slice.requestSlice.start ≤ r := by
    by_contra behind
    have later : offset counts (r + 1) ≤ offset counts slice.requestSlice.start :=
      offset_mono (by omega)
    omega
  obtain ⟨j, rfl⟩ := Nat.exists_eq_add_of_le first
  refine ⟨j, rfl, below, ?_, ?_, ?_, ?_, fields.blocks j below⟩
  · rw [fields.locs j (by omega)]
    cases j with
    | zero =>
      simp only [Nat.add_zero, if_true, Option.some.injEq]
      omega
    | succ j =>
      have prior : offset counts (slice.requestSlice.start + 1) ≤
          offset counts (slice.requestSlice.start + (j + 1)) := offset_mono (by omega)
      rw [offset_succ found'] at prior
      rw [Option.some.injEq]
      omega
  · rw [fields.locs (j + 1) (by omega), Option.some.injEq, ← Nat.add_assoc]
    omega
  · rw [fields.seqLens j q c below found before, Option.some.injEq]
    omega
  · rw [fields.computed j below, describes.computed _ _ _ found before]

end Slices

section Batch
variable {counts computed : List Nat} {paddedTo numReqsPadded numReqs last k : Nat}
  {padAttn : Bool} {metadata : CommonAttentionMetadata} {slice : UBatchSlice}

theorem slicesFrom_map (cu : List Nat) (points : Nat → Nat) (first count : Nat) :
    slicesFrom cu (points first) ((range' (first + 1) count).map points) =
      (range' first count).map (fun k => sliceBetween cu (points k) (points (k + 1))) := by
  induction count generalizing first with
  | zero => rfl
  | succ count ih => simp only [range'_succ, map_cons, slicesFrom, ih]

section
variable (counts : List Nat) (numTokensPadded numUbatches k : Nat)

/-- Where the micro-batch at place `k` starts, and the one before ends. -/
def cutAt : Nat :=
  if k < numUbatches then numTokensPadded / numUbatches * k else counts.sum

def sliceAt : UBatchSlice :=
  sliceBetween (cuNumTokens counts) (cutAt counts numTokensPadded numUbatches k)
    (cutAt counts numTokensPadded numUbatches (k + 1))

def attnSlices (numReqsPadded last : Nat) (padAttn : Bool) : List UBatchSlice :=
  (range last).map (sliceAt counts numTokensPadded (last + 1)) ++
    [if padAttn then (sliceAt counts numTokensPadded (last + 1) last).padOut numTokensPadded
      numReqsPadded else sliceAt counts numTokensPadded (last + 1) last]

end

theorem sum_differences (points : Nat → Nat) (count : Nat) :
    ((range count).map (fun k => (points (k + 1) - points k : Int))).sum =
      points count - points 0 := by
  induction count with
  | zero => simp
  | succ count ih =>
    rw [range_succ, map_append, sum_append, ih]
    simp

/-- Slices are made for every batch, and their sizes add up. -/
theorem maybeCreateUbatchSlices_eq :
    maybeCreateUbatchSlices true counts paddedTo numReqsPadded (last + 1) =
      .ok (some (attnSlices counts paddedTo numReqsPadded last false,
        attnSlices counts paddedTo numReqsPadded last true)) := by
  have points : (range' 1 last).map (paddedTo / (last + 1) * ·) ++ [counts.sum] =
      (range' (0 + 1) (last + 1)).map (cutAt counts paddedTo (last + 1)) := by
    rw [range'_1_concat, map_append]
    congr 1
    · refine map_congr_left (fun k listed => ?_)
      rw [mem_range'_1] at listed
      rw [cutAt, if_pos (by omega)]
    · simp [cutAt, Nat.add_comm]
  have start : cutAt counts paddedTo (last + 1) 0 = 0 := by simp [cutAt]
  have slices := slicesFrom_map (cuNumTokens counts) (cutAt counts paddedTo (last + 1)) 0
    (last + 1)
  rw [start, ← points, ← range_eq_range', range_succ, map_append] at slices
  have sizes := sum_differences (cutAt counts paddedTo (last + 1)) last
  simp only [maybeCreateUbatchSlices, Bool.not_true, Bool.false_eq_true, Nat.add_sub_cancel,
    slices, padOutUbatchSlices, map_cons, map_nil, getLast?_concat,
    dropLast_concat, ok_bind]
  rw [assert_bind]
  · rfl
  · rw [map_append, map_map, sum_append]
    have each : UBatchSlice.numTokens ∘ (fun k => sliceBetween (cuNumTokens counts)
        (cutAt counts paddedTo (last + 1) k) (cutAt counts paddedTo (last + 1) (k + 1))) =
        fun k => (cutAt counts paddedTo (last + 1) (k + 1) -
          cutAt counts paddedTo (last + 1) k : Int) := rfl
    rw [each, sizes, start]
    simp [UBatchSlice.padOut, UBatchSlice.numTokens, sliceBetween]

/-- Slices of `width` tokens, each of which goes on where the one before ends; the last one has
all that remain. -/
structure Cut (counts : List Nat) (numReqs width last : Nat) (slices : List UBatchSlice) : Prop where
  length : slices.length = last + 1
  covers : ∀ (k : Nat) slice, slices[k]? = some slice → Covers counts numReqs slice
  start : ∀ (k : Nat) slice, slices[k]? = some slice → slice.tokenSlice.start = width * k
  stop : ∀ (k : Nat) slice, slices[k]? = some slice →
    if k < last then slice.tokenSlice.stop = width * (k + 1) else counts.sum ≤ slice.tokenSlice.stop

/-- No slice is empty when the last one is not. -/
theorem attnSlices_cut (pos : 0 < paddedTo / (last + 1))
    (less : paddedTo / (last + 1) * last < counts.sum) (padded : counts.sum ≤ paddedTo)
    (reqs : counts.length ≤ numReqs) (same : padAttn = true → numReqsPadded = numReqs) :
    Cut counts numReqs (paddedTo / (last + 1)) last
      (attnSlices counts paddedTo numReqsPadded last padAttn) := by
  suffices each : ∀ (k : Nat) slice,
      (attnSlices counts paddedTo numReqsPadded last padAttn)[k]? = some slice →
      Covers counts numReqs slice ∧ slice.tokenSlice.start = paddedTo / (last + 1) * k ∧
        if k < last then slice.tokenSlice.stop = paddedTo / (last + 1) * (k + 1)
        else counts.sum ≤ slice.tokenSlice.stop from
    ⟨by simp [attnSlices], fun k slice found => (each k slice found).1,
      fun k slice found => (each k slice found).2.1, fun k slice found => (each k slice found).2.2⟩
  intro k slice found
  have le : k < last + 1 := by simpa [attnSlices] using (List.getElem?_eq_some_iff.mp found).1
  have start : cutAt counts paddedTo (last + 1) k = paddedTo / (last + 1) * k :=
    if_pos le
  rcases Nat.lt_or_eq_of_le (Nat.le_of_lt_succ le) with inside | rfl
  · have stop : cutAt counts paddedTo (last + 1) (k + 1) =
        paddedTo / (last + 1) * (k + 1) := if_pos (by omega)
    have most := Nat.mul_le_mul_left (paddedTo / (last + 1)) (Nat.succ_le_of_lt inside)
    have covers := covers_between (Nat.mul_lt_mul_of_pos_left (Nat.lt_succ_self k) pos)
      (Nat.le_of_lt (Nat.lt_of_le_of_lt most less))
    rw [attnSlices, getElem?_append_left (by simpa using inside), getElem?_map,
      getElem?_range inside] at found
    cases found
    rw [if_pos inside, sliceAt, start, stop]
    exact ⟨{ covers with bound := Nat.le_trans covers.bound reqs }, rfl, rfl⟩
  · have stop : cutAt counts paddedTo (k + 1) (k + 1) = counts.sum := by simp [cutAt]
    have covers := covers_between less (Nat.le_refl _)
    rw [← stop, ← start] at covers
    rw [attnSlices, getElem?_append_right (by simp), length_map, length_range, Nat.sub_self] at found
    cases found
    rw [if_neg (Nat.lt_irrefl k)]
    cases padAttn with
    | false =>
      exact ⟨{ covers with bound := Nat.le_trans covers.bound reqs }, start, Nat.le_of_eq stop.symm⟩
    | true =>
      rw [same rfl]
      exact ⟨covers.pad stop padded reqs, start, padded⟩

section Slices
variable {slices : List UBatchSlice} {width : Nat} (cut : Cut counts numReqs width last slices)
include cut

theorem Cut.get (le : k ≤ last) : ∃ slice, slices[k]? = some slice :=
  ⟨_, getElem?_eq_getElem (by rw [cut.length]; omega)⟩

/-- Every token of the batch is in one slice. -/
theorem Cut.once (pos : 0 < width) (real : token < counts.sum) : ∃! k : Nat, ∃ slice,
    slices[k]? = some slice ∧ slice.tokenSlice.start ≤ token ∧ token < slice.tokenSlice.stop := by
  apply existsUnique_of_exists_of_unique
  · by_cases inLast : width * last ≤ token
    · obtain ⟨slice, found⟩ := cut.get (Nat.le_refl last)
      have stop := cut.stop last slice found
      rw [if_neg (Nat.lt_irrefl last)] at stop
      exact ⟨last, slice, found, cut.start last slice found ▸ inLast, Nat.lt_of_lt_of_le real stop⟩
    · have before : token / width < last := Nat.div_lt_of_lt_mul (Nat.lt_of_not_le inLast)
      obtain ⟨slice, found⟩ := cut.get (Nat.le_of_lt before)
      have stop := cut.stop _ slice found
      rw [if_pos before] at stop
      exact ⟨_, slice, found, cut.start _ slice found ▸ Nat.mul_div_le _ _,
        stop ▸ Nat.lt_mul_div_succ _ pos⟩
  · -- an earlier slice ends before the later one starts
    have ordered : ∀ (i j : Nat) (slice slice' : UBatchSlice), i < j → slices[i]? = some slice →
        slices[j]? = some slice' → slice.tokenSlice.stop ≤ slice'.tokenSlice.start := by
      intro i j slice slice' lt found found'
      have inside := (List.getElem?_eq_some_iff.mp found').1
      have stop := cut.stop i slice found
      rw [cut.length] at inside
      rw [if_pos (by omega)] at stop
      rw [cut.start j slice' found', stop]
      exact Nat.mul_le_mul_left _ lt
    rintro i j ⟨slice, found, _, _⟩ ⟨slice', found', _, _⟩
    rcases Nat.lt_trichotomy i j with lt | eq | gt
    · have := ordered i j slice slice' lt found found'
      omega
    · exact eq
    · have := ordered j i slice' slice gt found' found
      omega

variable (describes : Describes metadata counts computed numReqs)
include describes

theorem Cut.split : splitAttnMetadata slices metadata =
    .ok (slices.map (slicedFor counts metadata)) := by
  refine mapM_ok (fun slice listed => ?_)
  obtain ⟨k, found⟩ := mem_iff_getElem?.mp listed
  exact (makeMetadataWithSlice_covers (cut.covers k slice found) describes).1

/-- The computed tokens are right if and only if no request is cut. -/
theorem Cut.faithful_iff (pos : 0 < width) :
    Faithful counts computed metadata slices (slices.map (slicedFor counts metadata)) ↔
      ∀ i, 0 < i → i < last + 1 → width * i ∈ cuNumTokens counts := by
  constructor
  · intro faithful i _ lt
    obtain ⟨slice, found⟩ := cut.get (Nat.le_of_lt_succ lt)
    have covers := cut.covers i slice found
    have start := cut.start i slice found
    obtain ⟨q, atFirst, _, _⟩ := covers.first
    obtain ⟨below, -⟩ := List.getElem?_eq_some_iff.mp atFirst
    have before := getElem?_eq_getElem (describes.counts ▸ below)
    have nonempty := covers.tokens
    have part : slice.tokenSlice.start - offset counts slice.requestSlice.start <
        min q (slice.tokenSlice.stop - offset counts slice.requestSlice.start) := by
      omega
    have wanted := faithful.rows i slice _ found (by rw [getElem?_map, found]; rfl) _ q _ _ _
      atFirst before rfl part
    have moved := wanted.unique (covers.hasRow describes atFirst before rfl part)
    exact mem_cuNumTokens.mpr ⟨slice.requestSlice.start, Nat.le_of_lt below, by omega⟩
  · intro uncut
    constructor
    · exact fun token real => cut.once pos real
    · exact length_map _
    · intro k slice m found isM r q c a b here before part nonempty
      rw [getElem?_map, found] at isM
      cases isM
      have row := (cut.covers k slice found).hasRow describes here before part nonempty
      obtain ⟨rfl, rfl⟩ := Prod.mk.inj part
      obtain ⟨i, -, whole⟩ : ∃ i ≤ counts.length, offset counts i = slice.tokenSlice.start := by
        rw [← mem_cuNumTokens, cut.start k slice found]
        cases k with
        | zero => simp [cuNumTokens]
        | succ k =>
          exact uncut (k + 1) (Nat.succ_pos k) (cut.length ▸ (List.getElem?_eq_some_iff.mp found).1)
      -- the slice starts with a request, so this request is not cut at its start
      have whole : slice.tokenSlice.start - offset counts r = 0 := by
        rcases Nat.lt_or_ge r i with after | notAfter
        · have later : offset counts (r + 1) ≤ offset counts i := offset_mono after
          rw [offset_succ here] at later
          omega
        · have prior : offset counts i ≤ offset counts r := offset_mono notAfter
          omega
      rw [whole] at row ⊢
      exact row
    · intro k slice m found isM
      rw [getElem?_map, found] at isM
      cases isM
      rfl
end Slices

structure Agreed (tensor : List DpColumn) (counts : List Nat) (numUbatches : Nat) : Prop where
  several : 2 ≤ numUbatches
  rank : ∃ column ∈ tensor, column.origNumTokens = counts.sum
  padded : ∀ column ∈ tensor, column.origNumTokens ≤ column.paddedNumTokens
  decided : postProcessUbatch tensor numUbatches = true

theorem Agreed.bounds (agreed : Agreed tensor counts numUbatches) :
    counts.sum ≤ maxNumTokens tensor ∧
      maxNumTokens tensor / numUbatches * (numUbatches - 1) < counts.sum := by
  obtain ⟨column, mem, _⟩ := agreed.rank
  have decided := agreed.decided
  rw [postProcessUbatch, and_eq_true, not_eq_true', isLastUbatchEmpty,
    decide_eq_false_iff_not] at decided
  have least : (tensor.map DpColumn.origNumTokens).min?.getD 0 ≤ column.origNumTokens :=
    min?_getD_le_of_mem (mem_map_of_mem mem)
  have most : column.paddedNumTokens ≤ maxNumTokens tensor :=
    le_max?_getD_of_mem (mem_map_of_mem mem)
  have padded := agreed.padded column mem
  omega

/-- The first of several slices is empty when there are more slices than tokens. -/
theorem splitAttnMetadata_empty (several : 0 < last) (zero : paddedTo / (last + 1) = 0) :
    splitAttnMetadata (attnSlices counts paddedTo numReqsPadded last padAttn) metadata ≠
      .ok metas := by
  intro split
  have listed : sliceAt counts paddedTo (last + 1) 0 ∈
      attnSlices counts paddedTo numReqsPadded last padAttn :=
    mem_append_left _ (mem_map_of_mem (mem_range.mpr several))
  obtain ⟨m, made⟩ := of_mapM_ok split listed
  have nonempty := (assert_bind_ok made).1
  simp [UBatchSlice.isEmpty, sliceAt, sliceBetween, cutAt, zero] at nonempty
  omega

end Batch

def ubatchMetadata (tensor : List DpColumn) (counts : List Nat) (numReqsPadded numUbatches : Nat)
    (padAttn : Bool) (metadata : CommonAttentionMetadata) :
    Py (Option (List UBatchSlice × List CommonAttentionMetadata)) := do
  match ← maybeCreateUbatchSlices (postProcessUbatch tensor numUbatches) counts
    (maxNumTokens tensor) numReqsPadded numUbatches with
  | none => return none
  | some (slices, padded) =>
    let attn := if padAttn then padded else slices
    let metas ← splitAttnMetadata attn metadata
    return some (attn, metas)

/-- Micro-batching is faithful if and only if no slice is empty and no request is cut. -/
theorem ubatches_faithful_iff (tensor : List DpColumn) (counts computed : List Nat)
    (numReqsPadded numUbatches : Nat) (padAttn : Bool) (metadata : CommonAttentionMetadata)
    (agreed : Agreed tensor counts numUbatches) (describes : Describes metadata counts computed
      (if padAttn then numReqsPadded else counts.length)) :
    (∃ slices metas, ubatchMetadata tensor counts numReqsPadded numUbatches padAttn metadata =
        .ok (some (slices, metas)) ∧ Faithful counts computed metadata slices metas) ↔
      numUbatches ≤ maxNumTokens tensor ∧ ∀ i, 0 < i → i < numUbatches →
        maxNumTokens tensor / numUbatches * i ∈ cuNumTokens counts := by
  obtain ⟨padded, less⟩ := agreed.bounds
  have several := agreed.several
  obtain ⟨last, rfl⟩ : ∃ last, numUbatches = last + 1 := ⟨numUbatches - 1, by omega⟩
  have made : ubatchMetadata tensor counts numReqsPadded (last + 1) padAttn metadata =
      (splitAttnMetadata (attnSlices counts (maxNumTokens tensor) numReqsPadded last padAttn)
        metadata >>= fun metas =>
          .ok (some (attnSlices counts (maxNumTokens tensor) numReqsPadded last padAttn, metas))) := by
    rw [ubatchMetadata, agreed.decided, maybeCreateUbatchSlices_eq]
    cases padAttn <;> rfl
  rw [made]
  by_cases pos : 0 < maxNumTokens tensor / (last + 1)
  · have same : padAttn = true → numReqsPadded = if padAttn then numReqsPadded else counts.length :=
      fun padded => (if_pos padded).symm
    have cut := attnSlices_cut pos less padded describes.reqs same
    rw [cut.split describes, ← cut.faithful_iff describes pos]
    constructor
    · rintro ⟨slices, metas, same, faithful⟩
      cases same
      exact ⟨(Nat.div_pos_iff.mp pos).2, faithful⟩
    · exact fun both => ⟨_, _, rfl, both.2⟩
  · constructor
    · rintro ⟨slices, metas, ran, -⟩
      obtain ⟨metas, split, -⟩ := bind_ok ran
      exact absurd split (splitAttnMetadata_empty (by omega) (Nat.eq_zero_of_not_pos pos))
    · exact fun both => absurd (Nat.div_pos both.1 (Nat.succ_pos last)) pos

def batchMetadata (counts computed : List Nat) : CommonAttentionMetadata where
  queryStartLoc := (range (counts.length + 1)).map (fun r => (offset counts r : Int))
  seqLens := Np.add (Np.ofNats computed) (Np.ofNats counts)
  numReqs := counts.length
  numActualTokens := counts.sum
  maxQueryLen := counts.max?.getD 0
  maxSeqLen := (Np.add (Np.ofNats computed) (Np.ofNats counts)).max?.getD 0
  blockTableTensor := (range counts.length).map (fun r => [r])
  slotMapping := Np.ofNats (range counts.sum)
  numComputedTokensCpu := Np.ofNats computed

theorem batchMetadata_describes (lengths : computed.length = counts.length) :
    Describes (batchMetadata counts computed) counts computed counts.length where
  reqs := Nat.le_refl _
  counts := lengths
  locs := rfl
  seqLens := by
    rw [batchMetadata, Np.length_add (by simpa using lengths), Np.length_ofNats]
  seqLen := fun _ _ _ found before =>
    Np.getElem?_add (Np.getElem?_ofNats before) (Np.getElem?_ofNats found)
  computed := fun _ _ _ _ before => Np.getElem?_ofNats before

/-- Two requests of two tokens are split between them; the other rank has as many tokens. -/
theorem ubatches_faithful_two_requests :
    ∃ slices metas, ubatchMetadata (replicate 2 ⟨4, 4, true⟩) [2, 2] 2 2 false
        (batchMetadata [2, 2] [0, 5]) = .ok (some (slices, metas)) ∧
      Faithful [2, 2] [0, 5] (batchMetadata [2, 2] [0, 5]) slices metas :=
  (ubatches_faithful_iff (replicate 2 ⟨4, 4, true⟩) [2, 2] [0, 5] 2 2 false _
    ⟨by decide, ⟨_, mem_cons_self .., rfl⟩, by simp, by decide⟩
    (batchMetadata_describes rfl)).mpr
    ⟨by decide, fun i low high => by
      obtain rfl : i = 1 := by omega
      decide⟩

/-- On two equal ranks, one request of four tokens, ten of its tokens computed before: both
micro-batches say ten. Two requests of one token each and three micro-batches: the first one is empty. -/
theorem ubatch_of_cut_request_not_faithful :
    postProcessUbatch (replicate 2 ⟨4, 4, true⟩) 2 = true ∧
    (¬ ∃ slices metas, ubatchMetadata (replicate 2 ⟨4, 4, true⟩) [4] 1 2 false
        (batchMetadata [4] [10]) = .ok (some (slices, metas)) ∧
      Faithful [4] [10] (batchMetadata [4] [10]) slices metas) ∧
    postProcessUbatch (replicate 2 ⟨2, 2, true⟩) 3 = true ∧
    Py.raised? (ubatchMetadata (replicate 2 ⟨2, 2, true⟩) [1, 1] 2 3 false
      (batchMetadata [1, 1] [0, 5])) = some (.assertionError "Ubatch slice is empty") := by
  refine ⟨by decide, ?_, by decide, by decide +kernel⟩
  rintro ⟨slices, metas, ran, faithful⟩
  have value : ubatchMetadata (replicate 2 ⟨4, 4, true⟩) [4] 1 2 false (batchMetadata [4] [10]) =
      .ok (some (attnSlices [4] 4 1 1 false,
        (attnSlices [4] 4 1 1 false).map (slicedFor [4] (batchMetadata [4] [10])))) := by
    rfl
  cases ran
  obtain ⟨j, _, -, -, -, -, row, -⟩ :=
    faithful.rows 1 _ _ rfl rfl 0 4 10 2 4 rfl rfl rfl (by decide)
  obtain rfl : j = 0 := by omega
  revert row
  decide

end Vllm.UBatch
