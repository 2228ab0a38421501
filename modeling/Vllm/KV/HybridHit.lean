import Vllm.KV.Coordinator
import Vllm.KV.HitLength
import Vllm.Lib.Descent

/-! Prefix-cache hits of hybrid models. The attention groups lower a common length in
passes until all accept it. Full attention is looked up once, and the hits it found
then are longer than the length agreed on later; only those of the first attention
group are cut to it. -/
namespace Vllm
open List hiding next
open Py Option Descent
variable {H : Type}

abbrev AttentionGroup := KVCacheSpec × List Nat

namespace KVCacheCoordinator
variable {i start : Nat} {group : AttentionGroup} {ids : List Nat}
  {hits : GroupHits} {kept : AttentionGroup → Bool}
  {groups : List AttentionGroup} {specs : List KVCacheSpec}

/-- Attention groups over the groups of the given formats, with a common multiple of
their block sizes. -/
structure Arranged (specs : List KVCacheSpec) (lcmBlockSize : Nat) (groups : List AttentionGroup) :
    Prop where
  ids : ∀ group ∈ groups, ∀ i ∈ group.2, specs[i]? = some group.1
  nonempty : ∀ group ∈ groups, group.2 ≠ []
  distinct : (groups.map Prod.fst).Nodup
  divides : ∀ group ∈ groups, group.1.blockSize ∣ lcmBlockSize

namespace Arranged
variable {unit : Nat}

theorem tail (arranged : Arranged specs unit (group :: groups)) : Arranged specs unit groups where
  ids := fun other mem => arranged.ids other (mem_cons_of_mem _ mem)
  nonempty := fun other mem => arranged.nonempty other (mem_cons_of_mem _ mem)
  distinct := (nodup_cons.mp arranged.distinct).2
  divides := fun other mem => arranged.divides other (mem_cons_of_mem _ mem)

theorem bound (arranged : Arranged specs unit groups) (mem : group ∈ groups)
    (id : i ∈ group.2) : i < specs.length :=
  (List.getElem?_eq_some_iff.mp (arranged.ids group mem i id)).1

/-- A group belongs to one attention group. -/
theorem same_format (arranged : Arranged specs unit groups) (mem : group ∈ groups)
    (otherMem : other ∈ groups) (id : i ∈ group.2) (otherId : i ∈ other.2) : group.1 = other.1 :=
  some.inj ((arranged.ids group mem i id).symm.trans (arranged.ids other otherMem i otherId))

theorem head_apart (arranged : Arranged specs unit (group :: groups))
    (mem : other ∈ groups) (id : i ∈ group.2) : i ∉ other.2 := by
  intro otherId
  have same := arranged.same_format (mem_cons_self ..) (mem_cons_of_mem _ mem) id otherId
  have fresh := (nodup_cons.mp arranged.distinct).1
  rw [same] at fresh
  exact fresh (mem_map_of_mem mem)

end Arranged

/-- All groups of an attention group get the same number of blocks. -/
theorem lookupGroup_ok {coord : KVCacheCoordinator H} {hits : List (List BlockId)}
    (h : coord.lookupGroup unit blockHashes group maxLength = .ok hits) :
    ∃ count, hits.length = group.2.length ∧ (∀ blocks ∈ hits, blocks.length = count) ∧
      count * group.1.blockSize ≤ maxLength ∧ unit ∣ count * group.1.blockSize := by
  obtain ⟨hashes, _, h⟩ := bind_ok h
  obtain ⟨rows, -, rfl, -, fitting⟩ := hit_ok h
  have fits := fitting rfl rfl
  refine ⟨rows.length, ?_, ?_, fits.bounded, fits.aligned⟩
  · simp [columns, LookupArgs.groups]
  · intro blocks mem
    obtain ⟨place, _, rfl⟩ := mem_map.mp mem
    exact length_map ..

variable (coord : KVCacheCoordinator H)

/-- What a pass makes of the length: a group that is kept only rounds it down. -/
def accepted (look : AttentionGroup → Nat → Nat) (kept : AttentionGroup → Bool)
    (group : AttentionGroup) (length : Nat) : Nat :=
  if kept group then length / group.1.blockSize * group.1.blockSize else look group length

section
variable (lcmBlockSize : Nat) (blockHashes : List H)

def lookupLength (group : AttentionGroup)
    (maxLength : Nat) : Py Nat := do
  let hitBlocks ← coord.lookupGroup lcmBlockSize blockHashes group maxLength
  return (hitBlocks.headD []).length * group.1.blockSize

/-- The length that a lookup finds, if it returns. -/
def look (group : AttentionGroup) (maxLength : Nat) : Nat :=
  (coord.lookupLength lcmBlockSize blockHashes group maxLength).toOption.getD 0

/-- The lookups of a pass return, each at the length that the groups before it leave. -/
def PassReturns (kept : AttentionGroup → Bool) : List AttentionGroup → (length : Nat) → Prop
  | [], _ => True
  | group :: rest, length =>
    (kept group = false →
      ∃ hits, coord.lookupGroup lcmBlockSize blockHashes group length = .ok hits) ∧
    PassReturns kept rest
      (accepted (coord.look lcmBlockSize blockHashes) kept group length)

end

variable {coord} {unit : Nat} {blockHashes : List H}
  {look : AttentionGroup → Nat → Nat} {length : Nat}

theorem lookupLength_eq {hits : List (List BlockId)}
    (looked : coord.lookupGroup unit blockHashes group n = .ok hits) :
    coord.lookupLength unit blockHashes group n =
      .ok (coord.look unit blockHashes group n) := by
  rw [KVCacheCoordinator.look, lookupLength, looked]
  rfl

theorem look_eq {hits : List (List BlockId)}
    (looked : coord.lookupGroup unit blockHashes group n = .ok hits) :
    hits.length = group.2.length ∧
      (hits.headD []).length * group.1.blockSize = coord.look unit blockHashes group n ∧
      ∀ blocks ∈ hits, blocks.length * group.1.blockSize =
        coord.look unit blockHashes group n := by
  obtain ⟨count, lengths, all, -⟩ := lookupGroup_ok looked
  rw [KVCacheCoordinator.look, lookupLength, looked]
  refine ⟨lengths, rfl, ?_⟩
  intro blocks mem
  cases hits with
  | nil => cases mem
  | cons first rest =>
    rw [all blocks mem, ← all first (mem_cons_self ..)]
    rfl

theorem look_fits (group : AttentionGroup) (n : Nat) :
    coord.look unit blockHashes group n ≤ n ∧
      unit ∣ coord.look unit blockHashes group n := by
  rw [KVCacheCoordinator.look, lookupLength]
  cases looked : coord.lookupGroup unit blockHashes group n with
  | error e => exact ⟨Nat.zero_le _, dvd_zero _⟩
  | ok hits =>
    obtain ⟨count, _, all, bounded, aligned⟩ := lookupGroup_ok looked
    change (hits.headD []).length * _ ≤ n ∧ unit ∣ (hits.headD []).length * _
    cases hits with
    | nil => simp
    | cons blocks rest =>
      rw [headD_cons, all blocks (mem_cons_self ..)]
      exact ⟨bounded, aligned⟩

theorem look_le (group : AttentionGroup) (n : Nat) :
    coord.look unit blockHashes group n ≤ n := (look_fits group n).1

theorem accepted_le (lowers : ∀ group n, look group n ≤ n) :
    accepted look kept group length ≤ length := by
  unfold accepted
  split
  · exact Nat.div_mul_le_self _ _
  · exact lowers _ _

theorem accepted_kept (keep : kept group = true) (divides : group.1.blockSize ∣ unit)
    (aligned : unit ∣ length) : accepted look kept group length = length := by
  rw [accepted, if_pos keep, Nat.div_mul_cancel (dvd_trans divides aligned)]

/-- If all groups accept the length, they are looked up at it. -/
theorem passReturns_iff (accepts : ∀ group ∈ groups,
      accepted (coord.look unit blockHashes) kept group length = length) :
    PassReturns coord unit blockHashes kept groups length ↔ ∀ group ∈ groups,
      kept group = false →
        ∃ hits, coord.lookupGroup unit blockHashes group length = .ok hits := by
  induction groups with
  | nil => simp [PassReturns]
  | cons group rest ih =>
    rw [PassReturns, accepts group (mem_cons_self ..),
      ih (fun other mem => accepts other (mem_cons_of_mem _ mem)), forall_mem_cons]

def Stored (hits : GroupHits) (group : AttentionGroup) (length : Nat) : Prop :=
  ∀ i ∈ group.2, ∃ blocks, hits[i]? = some (some blocks) ∧
    blocks.length * group.1.blockSize = length

theorem headD_mem (nonempty : ids ≠ []) : ids.headD 0 ∈ ids := by
  cases ids with
  | nil => exact absurd rfl nonempty
  | cons id rest => exact mem_cons_self ..

theorem length_storeHits (ids : List Nat) (found : List (List BlockId)) :
    (storeHits ids found hits).length = hits.length := by
  induction ids generalizing found hits with
  | nil => rfl
  | cons id ids ih =>
    cases found with
    | nil => rfl
    | cons blocks rest =>
      unfold storeHits
      rw [ih, length_set]

theorem storeHits_other (found : List (List BlockId)) (other : i ∉ ids) :
    (storeHits ids found hits)[i]? = hits[i]? := by
  induction ids generalizing found hits with
  | nil => rfl
  | cons id ids ih =>
    cases found with
    | nil => rfl
    | cons blocks rest =>
      unfold storeHits
      rw [ih rest (fun mem => other (mem_cons_of_mem _ mem))]
      refine getElem?_set_ne ?_
      rintro rfl
      exact other (mem_cons_self ..)

theorem storeHits_mem (lengths : found.length = ids.length) (bound : i < hits.length)
    (mem : i ∈ ids) : ∃ blocks ∈ found, (storeHits ids found hits)[i]? = some (some blocks) := by
  induction ids generalizing found hits with
  | nil => cases mem
  | cons id ids ih =>
    cases found with
    | nil => cases lengths
    | cons blocks rest =>
      unfold storeHits
      by_cases later : i ∈ ids
      · obtain ⟨stored, one, place⟩ := ih (Nat.succ.inj lengths)
          (show i < (hits.set id (some blocks)).length by rwa [length_set]) later
        exact ⟨stored, mem_cons_of_mem _ one, place⟩
      · rcases mem_cons.mp mem with rfl | impossible
        · refine ⟨blocks, mem_cons_self .., ?_⟩
          rw [storeHits_other rest later]
          exact getElem?_set_self bound
        · exact absurd impossible later

theorem Stored.congr {length : Nat} {after : GroupHits}
    (stored : Stored hits group length) (same : ∀ i ∈ group.2, after[i]? = hits[i]?) :
    Stored after group length := by
  intro i mem
  rw [same i mem]
  exact stored i mem

theorem Stored.unique (nonempty : group.2 ≠ []) (first : Stored hits group a)
    (second : Stored hits group b) : a = b := by
  obtain ⟨i, mem⟩ := exists_mem_of_ne_nil _ nonempty
  obtain ⟨_, place, length⟩ := first i mem
  obtain ⟨_, otherPlace, otherLength⟩ := second i mem
  rw [place] at otherPlace
  cases otherPlace
  exact length.symm.trans otherLength

theorem Stored.present {length : Nat} (nonempty : group.2 ≠ [])
    (stored : Stored hits group length) : (hits.getD (group.2.headD 0) none).isSome = true := by
  obtain ⟨_, place, _⟩ := stored _ (headD_mem nonempty)
  rw [getD_eq_getElem?_getD, place]
  rfl

/-- What a pass leaves behind: hits of each group that was looked up for the length it
was left with. -/
structure PassOutcome (accept : AttentionGroup → Nat → Nat) (kept : AttentionGroup → Bool)
    (groups : List AttentionGroup) (start : Nat) (hits after : GroupHits) :
    Prop where
  length : after.length = hits.length
  others : ∀ i, (∀ group ∈ groups, kept group = false → i ∉ group.2) → after[i]? = hits[i]?
  stored : ∀ before group rest, groups = before ++ group :: rest → kept group = false →
    Stored after group (pass accept (before ++ [group]) start)

/-- A group that is looked up stores its hits, one that is kept changes nothing. -/
theorem hybridPass_step
    (returns : kept group = false →
      ∃ hits, coord.lookupGroup unit blockHashes group start = .ok hits)
    (bound : ∀ i ∈ group.2, i < hits.length)
    (keeps : kept group = true ↔ group.1.isFullAttention = true ∧
      (hits.getD (group.2.headD 0) none).isSome = true) :
    ∃ next, hybridPass coord unit blockHashes (group :: rest) start hits =
        hybridPass coord unit blockHashes rest (accepted (coord.look unit blockHashes)
          kept group start) next ∧
      next.length = hits.length ∧ (∀ i ∉ group.2, next[i]? = hits[i]?) ∧
      (kept group = true → next = hits) ∧
      (kept group = false →
        Stored next group (accepted (coord.look unit blockHashes) kept group start)) := by
  simp only [hybridPass, accepted, ← keeps]
  cases keep : kept group with
  | true => exact ⟨hits, rfl, rfl, fun _ _ => rfl, fun _ => rfl, nofun⟩
  | false =>
    obtain ⟨found, looked⟩ := returns keep
    obtain ⟨lengths, value, all⟩ := look_eq looked
    refine ⟨storeHits group.2 found hits, ?_, length_storeHits .., fun i => storeHits_other found,
      nofun, fun _ i id => ?_⟩
    · rw [looked, ← value]
      rfl
    · obtain ⟨blocks, mem, place⟩ := storeHits_mem lengths (bound i id) id
      exact ⟨blocks, place, all blocks mem⟩

/-- A pass returns exactly if its lookups do. -/
theorem hybridPass_ok (coord : KVCacheCoordinator H) (blockHashes : List H) (start : Nat)
    (kept : AttentionGroup → Bool) (arranged : Arranged specs unit groups)
    (sized : hits.length = specs.length)
    (keeps : ∀ group ∈ groups, kept group = true ↔ group.1.isFullAttention = true ∧ (hits.getD
      (group.2.headD 0) none).isSome = true) :
    let accept := accepted (coord.look unit blockHashes) kept
    ReturnsIff (PassReturns coord unit blockHashes kept groups start)
      (hybridPass coord unit blockHashes groups start hits) fun result =>
        result.1 = pass accept groups start ∧ PassOutcome accept kept groups start hits result.2 := by
  induction groups generalizing start hits with
  | nil =>
    refine .inl ⟨trivial, (start, hits), rfl, rfl, rfl, fun _ _ => rfl, ?_⟩
    intro before group rest same
    cases before <;> cases same
  | cons group rest ih =>
    by_cases returns : kept group = false →
      ∃ hits, coord.lookupGroup unit blockHashes group start = .ok hits
    swap
    · obtain ⟨looked, none⟩ := Classical.not_imp.mp returns
      refine .inr ⟨fun all => returns all.1, ?_⟩
      rw [hybridPass, if_neg (fun both => Bool.false_ne_true
        (looked.symm.trans ((keeps group (mem_cons_self ..)).mpr both)))]
      cases raised : coord.lookupGroup unit blockHashes group start with
      | error e => exact ⟨e, rfl⟩
      | ok hits => exact absurd ⟨hits, raised⟩ none
    obtain ⟨next, step, size, same, keep, stores⟩ := hybridPass_step returns
      (fun i id => sized ▸ arranged.bound (mem_cons_self ..) id) (keeps group (mem_cons_self ..))
    have laterKeeps : ∀ other ∈ rest, kept other = true ↔ other.1.isFullAttention = true ∧
        (next.getD (other.2.headD 0) none).isSome = true := by
      intro other mem
      have id := headD_mem (arranged.tail.nonempty other mem)
      rw [getD_eq_getElem?_getD, same _ (fun own => arranged.head_apart mem own id),
        ← getD_eq_getElem?_getD]
      exact keeps other (mem_cons_of_mem _ mem)
    rw [step]
    obtain ⟨later, ⟨_, after⟩, ran, rfl, outcome⟩ | ⟨fails, raised⟩ :=
      ih _ arranged.tail (size.trans sized) laterKeeps
    swap
    · exact .inr ⟨fun all => fails all.2, raised⟩
    refine .inl ⟨⟨returns, later⟩, (_, after), ran, rfl, outcome.length.trans size, ?_, ?_⟩
    · intro i apart
      rw [outcome.others i (fun other mem => apart other (mem_cons_of_mem _ mem))]
      cases kind : kept group with
      | true => rw [keep kind]
      | false => exact same i (apart group (mem_cons_self ..) kind)
    · intro before other more split looked
      cases before with
      | nil =>
        cases split
        exact (stores looked).congr
          (fun i id => outcome.others i (fun other mem _ => arranged.head_apart mem id))
      | cons first before =>
        cases split
        exact outcome.stored before other more rfl looked

def keptFull (group : AttentionGroup) : Bool := group.1.isFullAttention

/-- The groups from some point on accept the length that those before it leave. -/
theorem PassOutcome.accepted_stored {after : GroupHits}
    {accept : AttentionGroup → Nat → Nat} (lowers : ∀ group n, accept group n ≤ n)
    (outcome : PassOutcome accept kept groups start hits after) (before : List AttentionGroup)
    (split : groups = before ++ rest) (mem : group ∈ rest) (looked : kept group = false)
    (accepts : ∀ other ∈ rest, accept other (pass accept before start) =
      pass accept before start) :
    Stored after group (pass accept before start) := by
  obtain ⟨front, back, rfl⟩ := append_of_mem mem
  have stored := outcome.stored (before ++ front) group back (by simp [split]) looked
  have same : pass accept (before ++ front ++ [group]) start =
      pass accept before start := by
    rw [append_assoc]
    unfold Descent.pass at accepts ⊢
    rw [foldl_append]
    refine (pass_eq_iff (fun _ _ => lowers _)).mpr ?_
    intro other otherMem
    refine accepts other ?_
    rcases mem_append.mp otherMem with front | last
    · exact mem_append_left _ front
    · rw [mem_singleton.mp last]
      exact mem
  rw [same] at stored
  exact stored

/-- Where the passes after the first end: the groups other than full attention have hits
for the length agreed on, and those of full attention are the ones of the first pass. -/
structure Settled (lcmBlockSize : Nat) (groups : List AttentionGroup)
    (look : AttentionGroup → Nat → Nat) (start : Nat) (hits : GroupHits)
    (hitLength : Nat) (after : GroupHits) : Prop where
  bounded : hitLength ≤ start
  aligned : lcmBlockSize ∣ hitLength
  others : ∀ i, (∀ group ∈ groups, keptFull group = false → i ∉ group.2) → after[i]? = hits[i]?
  looked : ∀ group ∈ groups, keptFull group = false → Stored after group hitLength
  agreed : (∀ group ∈ groups, keptFull group = false → look group start = start) → hitLength = start

theorem Arranged.full_apart (arranged : Arranged specs unit groups) (mem : group ∈ groups)
    (full : keptFull group = true) (id : i ∈ group.2) :
    ∀ other ∈ groups, keptFull other = false → i ∉ other.2 := by
  intro other otherMem looked otherId
  unfold keptFull at full looked
  rw [arranged.same_format mem otherMem id otherId, looked] at full
  cases full

theorem pass_dvd (kept : AttentionGroup → Bool) (arranged : Arranged specs unit groups)
    (looks : ∀ group n, unit ∣ look group n) (aligned : unit ∣ start) :
    unit ∣ pass (accepted look kept) groups start := by
  induction groups generalizing start with
  | nil => exact aligned
  | cons group rest ih =>
    rw [pass_cons]
    refine ih arranged.tail ?_
    cases keep : kept group with
    | true =>
      rw [accepted_kept keep (arranged.divides group (mem_cons_self ..)) aligned]
      exact aligned
    | false =>
      rw [accepted, keep]
      exact looks _ _

theorem hybridLoop_later (arranged : Arranged specs unit groups)
    (sized : hits.length = specs.length)
    (present : ∀ group ∈ groups, keptFull group = true → (hits.getD (group.2.headD 0)
      none).isSome = true) (aligned : unit ∣ start) (enough : start < passes) :
    let look := coord.look unit blockHashes
    ReturnsIff (∀ k, PassReturns coord unit blockHashes keptFull groups
        ((pass (accepted look keptFull) groups)^[k] start))
      (hybridLoop coord groups unit blockHashes false passes start hits) fun result =>
        Settled unit groups look start hits result.1 result.2 := by
  intro look
  induction passes generalizing start hits with
  | zero => exact absurd enough (Nat.not_lt_zero _)
  | succ passes ih =>
    rw [hybridLoop]
    obtain ⟨returns, ⟨_, after⟩, ran, rfl, outcome⟩ | ⟨fails, e, raised⟩ := hybridPass_ok
      coord blockHashes start keptFull arranged sized
      (fun group mem => ⟨fun keep => ⟨keep, present group mem keep⟩, fun both => both.1⟩)
    swap
    · exact .inr ⟨fun all => fails (all 0), e, by rw [raised]; rfl⟩
    have lowers (group n) : accepted look keptFull group n ≤ n := accepted_le look_le
    have lower : pass (accepted look keptFull) groups start ≤ start :=
      pass_le (fun _ _ => lowers _)
    rw [ran, ok_bind]
    dsimp only
    split
    · rename_i agreed
      have same := le_antisymm lower agreed
      have accepts := (pass_eq_iff (fun _ _ => lowers _)).mp same
      refine .inl ⟨fun k => ?_, (start, after), rfl, le_refl _, aligned, outcome.others,
        fun group mem looked => outcome.accepted_stored lowers [] rfl mem looked accepts,
        fun _ => rfl⟩
      rw [Function.iterate_fixed same]
      exact returns
    · rename_i lowered
      have smaller := Nat.lt_of_not_le lowered
      have stillPresent : ∀ group ∈ groups, keptFull group = true →
          (after.getD (group.2.headD 0) none).isSome = true := by
        intro group mem keep
        have id := headD_mem (arranged.nonempty group mem)
        rw [getD_eq_getElem?_getD, outcome.others _ (arranged.full_apart mem keep id),
          ← getD_eq_getElem?_getD]
        exact present group mem keep
      obtain ⟨all, ⟨hitLength, final⟩, loop, settled⟩ | ⟨fails, raised⟩ :=
        ih (outcome.length.trans sized) stillPresent
          (pass_dvd _ arranged (fun group n => (look_fits group n).2) aligned)
          (smaller.trans_le (Nat.le_of_lt_succ enough))
      swap
      · exact .inr ⟨fun all => fails (fun k => all (k + 1)), raised⟩
      refine .inl ⟨fun k => ?_, (hitLength, final), loop, le_trans settled.bounded lower,
        settled.aligned, fun i apart => (settled.others i apart).trans (outcome.others i apart),
        settled.looked, ?_⟩
      · cases k with
        | zero => exact returns
        | succ k => exact all k
      intro accepts
      refine absurd ((pass_eq_iff (fun _ _ => lowers _)).mpr ?_) (ne_of_lt smaller)
      intro group mem
      cases keep : keptFull group with
      | true => exact accepted_kept keep (arranged.divides group mem) aligned
      | false =>
        rw [accepted, keep]
        exact accepts group mem keep

variable {first second : AttentionGroup} {rest : List AttentionGroup} {maxLength : Nat}

/-- If the second group is full attention, all groups after it accept the length it
leaves. -/
def RestAccepts (look : AttentionGroup → Nat → Nat) (first second : AttentionGroup)
    (rest : List AttentionGroup) (maxLength : Nat) : Prop :=
  second.1.isFullAttention = true → ∀ group ∈ rest,
    look group (look second (look first maxLength)) = look second (look first maxLength)

/-- The lookups that are made return. After the first pass, which looks up every group, the passes
go on from the length that the last one left, unless there are only two groups, the first of full
attention. -/
def LoopReturns (coord : KVCacheCoordinator H) (lcmBlockSize : Nat) (blockHashes : List H)
    (first second : AttentionGroup) (rest : List AttentionGroup) (maxLength : Nat) : Prop :=
  let look := coord.look lcmBlockSize blockHashes
  let groups := first :: second :: rest
  PassReturns coord lcmBlockSize blockHashes (fun _ => false) groups maxLength ∧
    (¬ (rest = [] ∧ first.1.isFullAttention = true) → ∀ k,
      PassReturns coord lcmBlockSize blockHashes keptFull groups
        ((pass (accepted look keptFull) groups)^[k] (pass look groups maxLength)))

/-- The loop ends with the first pass if all groups accept the length asked for. -/
theorem hybridLoop_ok (coord : KVCacheCoordinator H) (blockHashes : List H) (maxLength : Nat)
    (arranged : Arranged specs unit (first :: second :: rest)) :
    let look := coord.look unit blockHashes
    ReturnsIff (LoopReturns coord unit blockHashes first second rest maxLength)
      (hybridLoop coord (first :: second :: rest) unit blockHashes
        (decide ((first :: second :: rest).length = 2) && first.1.isFullAttention) (maxLength + 1)
        maxLength (replicate specs.length none)) fun result => ∃ after,
      PassOutcome look (fun _ => false) (first :: second :: rest) maxLength
        (replicate specs.length none) after ∧ Settled unit (first :: second :: rest) look
        (pass look (first :: second :: rest) maxLength) after result.1 result.2 := by
  intro look
  have fresh (i : Nat) : (replicate specs.length (none : Option (List BlockId))).getD i none =
      none := by
    rw [getD_eq_getElem?_getD, getElem?_replicate]
    split <;> rfl
  rw [hybridLoop]
  obtain ⟨returns, ⟨_, after⟩, ran, rfl, outcome⟩ | ⟨fails, e, raised⟩ := hybridPass_ok
    coord blockHashes maxLength (fun _ => false) arranged
    (length_replicate ..) (fun group _ => by rw [fresh]; simp)
  swap
  · exact .inr ⟨fun all => fails all.1, e, by rw [raised]; rfl⟩
  have outcome : PassOutcome look (fun _ => false) _ _ _ after := outcome
  have lower : pass look (first :: second :: rest) maxLength ≤ maxLength :=
    pass_le (fun _ _ => look_le _)
  have aligned : unit ∣ pass look (second :: rest) (look first maxLength) :=
    pass_dvd (fun _ => false) arranged.tail (fun group n => (look_fits group n).2)
      (look_fits first maxLength).2
  rw [ran, ok_bind]
  dsimp only
  split
  · rename_i agreed
    have same := le_antisymm lower agreed
    have accepts := (pass_eq_iff (fun _ _ => look_le _)).mp same
    have kept (group) (mem : group ∈ first :: second :: rest) :
        accepted look keptFull group maxLength = maxLength := by
      cases keep : keptFull group with
      | true => exact accepted_kept keep (arranged.divides group mem) (same ▸ aligned)
      | false =>
        rw [accepted, keep]
        exact accepts group mem
    refine .inl ⟨⟨returns, fun _ k => ?_⟩, (maxLength, after), rfl, after, outcome, same.ge,
      same ▸ aligned, fun _ _ => rfl,
      fun group mem _ => outcome.accepted_stored look_le [] rfl mem rfl accepts,
      fun _ => same.symm⟩
    rw [same, Function.iterate_fixed ((pass_eq_iff (fun _ _ _ => accepted_le look_le)).mpr kept)]
    exact (passReturns_iff kept).mpr
      (fun group mem _ => (passReturns_iff accepts).mp returns group mem rfl)
  · rename_i lowered
    split
    · rename_i simple
      obtain ⟨two, full⟩ := Bool.and_eq_true_iff.mp simple
      obtain rfl : rest = [] := by simpa using two
      refine .inl ⟨⟨returns, fun complex => absurd ⟨rfl, full⟩ complex⟩, (_, after), rfl, after,
        outcome, le_refl _, aligned, fun _ _ => rfl, ?_, fun _ => rfl⟩
      intro group mem looked
      rcases mem_cons.mp mem with rfl | mem
      · exact absurd (looked.symm.trans full) Bool.false_ne_true
      · rw [mem_singleton.mp mem]
        exact outcome.stored [first] second [] rfl rfl
    · rename_i complex
      have several : ¬ (rest = [] ∧ first.1.isFullAttention = true) := by simpa using complex
      rw [Bool.not_eq_true] at complex
      rw [complex]
      have present : ∀ group ∈ first :: second :: rest, keptFull group = true →
          (after.getD (group.2.headD 0) none).isSome = true := by
        intro group mem _
        obtain ⟨front, back, split⟩ := append_of_mem mem
        exact (outcome.stored front group back split rfl).present (arranged.nonempty group mem)
      obtain ⟨all, result, loop, settled⟩ | ⟨fails, raised⟩ := hybridLoop_later arranged
        (outcome.length.trans (length_replicate ..)) present aligned (Nat.lt_of_not_le lowered)
      · exact .inl ⟨⟨returns, fun _ => all⟩, result, loop, after, outcome, settled⟩
      · exact .inr ⟨fun all => fails (all.2 several), raised⟩

theorem truncateHits_other (other : i ∉ ids) :
    (truncateHits numBlocks ids hits)[i]? = hits[i]? := by
  induction ids generalizing hits with
  | nil => rfl
  | cons id rest ih =>
    unfold truncateHits
    rw [ih (fun mem => other (mem_cons_of_mem _ mem))]
    refine getElem?_set_ne ?_
    rintro rfl
    exact other (mem_cons_self ..)

theorem truncateHits_mem (mem : i ∈ ids) (place : hits[i]? = some (some blocks)) :
    (truncateHits numBlocks ids hits)[i]? = some (some (blocks.take numBlocks)) := by
  induction ids generalizing hits blocks with
  | nil => cases mem
  | cons id rest ih =>
    unfold truncateHits
    have bound := (List.getElem?_eq_some_iff.mp place).1
    by_cases same : id = i
    · subst same
      have cut : (hits.set id ((hits.getD id none).map (·.take numBlocks)))[id]? =
          some (some (blocks.take numBlocks)) := by
        rw [getElem?_set_self bound, getD_eq_getElem?_getD, place]
        rfl
      by_cases later : id ∈ rest
      · rw [ih later cut, take_take, min_self]
      · rw [truncateHits_other later, cut]
    · have later : i ∈ rest := by
        rcases mem_cons.mp mem with rfl | later
        · exact absurd rfl same
        · exact later
      exact ih later (by rw [getElem?_set_ne same, place])

theorem Stored.truncate {length hitLength : Nat} (stored : Stored hits group length)
    (enough : hitLength ≤ length) (aligned : group.1.blockSize ∣ hitLength) :
    Stored (truncateHits (hitLength / group.1.blockSize) group.2 hits) group hitLength := by
  intro i mem
  obtain ⟨blocks, place, count⟩ := stored i mem
  refine ⟨_, truncateHits_mem mem place, ?_⟩
  have short : hitLength / group.1.blockSize ≤ blocks.length := by
    refine Nat.div_le_of_le_mul ?_
    rw [Nat.mul_comm, count]
    exact enough
  rw [length_take, Nat.min_eq_left short, Nat.div_mul_cancel aligned]

/-- The hits after the last step: those of a first group of full attention are cut. -/
def finalHits (first : AttentionGroup) (hitLength : Nat) (hits : GroupHits) :
    GroupHits :=
  if first.1.isFullAttention then truncateHits (hitLength / first.1.blockSize) first.2 hits else hits

section Settled
variable {after final : GroupHits}
  (lowers : ∀ group n, look group n ≤ n)
  (arranged : Arranged specs unit (first :: second :: rest))
  (outcome : PassOutcome look (fun _ => false) (first :: second :: rest) maxLength hits after)
  (settled : Settled unit (first :: second :: rest) look
    (pass look (first :: second :: rest) maxLength) after hitLength final)
include arranged outcome settled

/-- Full attention keeps the hits of the first pass. -/
theorem settled_kept (before : List AttentionGroup)
    (split : first :: second :: rest = before ++ group :: later)
    (full : group.1.isFullAttention = true) :
    Stored final group (pass look (before ++ [group]) maxLength) := by
  have mem : group ∈ first :: second :: rest := by simp [split]
  exact (outcome.stored before group later split rfl).congr
    (fun i id => settled.others i (arranged.full_apart mem full id))

theorem settled_stored (mem : group ∈ first :: second :: rest) :
    ∃ length, Stored final group length := by
  cases full : group.1.isFullAttention with
  | true =>
    obtain ⟨front, _, split⟩ := append_of_mem mem
    exact ⟨_, settled_kept arranged outcome settled front split full⟩
  | false => exact ⟨hitLength, settled.looked group mem full⟩

include lowers

/-- The later groups have hits for the length agreed on exactly if the condition holds. -/
theorem settled_stored_iff
    (fullFirst : second.1.isFullAttention = true → first.1.isFullAttention = true)
    (fullSecond : ∀ group ∈ rest, group.1.isFullAttention = true → second.1.isFullAttention = true) :
    (∀ group ∈ second :: rest, Stored final group hitLength) ↔
      RestAccepts look first second rest maxLength := by
  have lower : pass look rest (look second (look first maxLength)) ≤
      look second (look first maxLength) := pass_le (fun _ _ => lowers _)
  constructor
  · intro all full
    have same := (all second (mem_cons_self ..)).unique
      (arranged.nonempty second (mem_cons_of_mem _ (mem_cons_self ..)))
      (settled_kept arranged outcome settled [first] rfl full)
    refine (pass_eq_iff (fun _ _ => lowers _)).mp ?_
    exact le_antisymm lower (le_of_eq_of_le same.symm settled.bounded)
  · intro accepts group mem
    cases full : group.1.isFullAttention with
    | false => exact settled.looked group (mem_cons_of_mem _ mem) full
    | true =>
      have secondFull : second.1.isFullAttention = true := by
        rcases mem_cons.mp mem with rfl | mem
        · exact full
        · exact fullSecond group mem full
      have agreed : pass look (first :: second :: rest) maxLength =
          look second (look first maxLength) :=
        (pass_eq_iff (fun _ _ => lowers _)).mpr (accepts secondFull)
      have same : hitLength = look second (look first maxLength) := by
        rw [← agreed]
        refine settled.agreed (fun other otherMem looked => ?_)
        rw [agreed]
        rcases mem_cons.mp otherMem with rfl | otherMem
        · exact absurd (looked.symm.trans (fullFirst secondFull)) Bool.false_ne_true
        rcases mem_cons.mp otherMem with rfl | otherMem
        · exact absurd (looked.symm.trans secondFull) Bool.false_ne_true
        · exact accepts secondFull other otherMem
      rw [same]
      rcases mem_cons.mp mem with rfl | mem
      · exact settled_kept arranged outcome settled [first] rfl full
      · exact (outcome.accepted_stored lowers [first, second] rfl mem rfl (accepts secondFull)).congr
          (fun i id => settled.others i (arranged.full_apart
            (mem_cons_of_mem _ (mem_cons_of_mem _ mem)) full id))

include lowers in
theorem finalHits_first : Stored (finalHits first hitLength final) first hitLength := by
  unfold finalHits
  cases full : first.1.isFullAttention with
  | true =>
    refine (settled_kept arranged outcome settled [] rfl full).truncate ?_
      (dvd_trans (arranged.divides first (mem_cons_self ..)) settled.aligned)
    have later : pass look (second :: rest) (look first maxLength) ≤ look first maxLength :=
      pass_le (fun _ _ => lowers _)
    exact le_trans settled.bounded later
  | false => exact settled.looked first (mem_cons_self ..) full

end Settled

structure SplitOf (specs : List KVCacheSpec) (groups : List AttentionGroup) : Prop where
  ids : ∀ group ∈ groups, ∀ i ∈ group.2, specs[i]? = some group.1
  covered : ∀ i < specs.length, ∃ group ∈ groups, i ∈ group.2
  nonempty : ∀ group ∈ groups, group.2 ≠ []
  distinct : (groups.map Prod.fst).Nodup

theorem map_joinAttentionGroup (spec : KVCacheSpec) (i : Nat) (groups : List AttentionGroup) :
    (joinAttentionGroup spec i groups).map Prod.fst =
      if spec ∈ groups.map Prod.fst then groups.map Prod.fst else groups.map Prod.fst ++ [spec] := by
  induction groups with
  | nil => rfl
  | cons group rest ih =>
    obtain ⟨existing, ids⟩ := group
    unfold joinAttentionGroup
    by_cases same : existing = spec
    · simp [same]
    · have other : spec ≠ existing := fun h => same h.symm
      rw [if_neg same, map_cons, ih]
      simp only [map_cons, mem_cons, other, false_or]
      split <;> rfl

theorem mem_joinAttentionGroup (mem : group ∈ joinAttentionGroup spec i groups) :
    group ∈ groups ∨ group.1 = spec ∧ group.2 ≠ [] ∧
      ∀ j ∈ group.2, j = i ∨ ∃ old ∈ groups, old.1 = spec ∧ j ∈ old.2 := by
  induction groups with
  | nil =>
    rw [mem_singleton.mp mem]
    exact .inr ⟨rfl, by simp, fun j id => .inl (mem_singleton.mp id)⟩
  | cons first rest ih =>
    obtain ⟨existing, ids⟩ := first
    unfold joinAttentionGroup at mem
    split at mem
    · rename_i same
      rcases mem_cons.mp mem with rfl | mem
      · refine .inr ⟨same, by simp, fun j id => ?_⟩
        rcases mem_append.mp id with old | new
        · exact .inr ⟨_, mem_cons_self .., same, old⟩
        · exact .inl (mem_singleton.mp new)
      · exact .inl (mem_cons_of_mem _ mem)
    · rcases mem_cons.mp mem with rfl | mem
      · exact .inl (mem_cons_self ..)
      · rcases ih mem with old | ⟨same, nonempty, ids⟩
        · exact .inl (mem_cons_of_mem _ old)
        · refine .inr ⟨same, nonempty, fun j id => ?_⟩
          rcases ids j id with here | ⟨old, oldMem, format, oldId⟩
          · exact .inl here
          · exact .inr ⟨old, mem_cons_of_mem _ oldMem, format, oldId⟩

theorem joinAttentionGroup_covers (spec : KVCacheSpec) (i : Nat) (groups : List AttentionGroup) :
    (∃ group ∈ joinAttentionGroup spec i groups, i ∈ group.2) ∧
      ∀ old ∈ groups, ∃ group ∈ joinAttentionGroup spec i groups, ∀ j ∈ old.2, j ∈ group.2 := by
  induction groups with
  | nil =>
    refine ⟨⟨(spec, [i]), mem_cons_self .., mem_cons_self ..⟩, ?_⟩
    intro old mem
    cases mem
  | cons first rest ih =>
    obtain ⟨existing, ids⟩ := first
    unfold joinAttentionGroup
    split
    · refine ⟨⟨_, mem_cons_self .., mem_append_right _ (mem_cons_self ..)⟩, ?_⟩
      intro old mem
      rcases mem_cons.mp mem with rfl | mem
      · exact ⟨_, mem_cons_self .., fun j id => mem_append_left _ id⟩
      · exact ⟨old, mem_cons_of_mem _ mem, fun j id => id⟩
    · obtain ⟨⟨group, groupMem, id⟩, olds⟩ := ih
      refine ⟨⟨group, mem_cons_of_mem _ groupMem, id⟩, ?_⟩
      intro old mem
      rcases mem_cons.mp mem with rfl | mem
      · exact ⟨_, mem_cons_self .., fun j id => id⟩
      · obtain ⟨group, groupMem, ids⟩ := olds old mem
        exact ⟨group, mem_cons_of_mem _ groupMem, ids⟩

theorem SplitOf.join (split : SplitOf specs groups) (spec : KVCacheSpec) :
    SplitOf (specs ++ [spec]) (joinAttentionGroup spec specs.length groups) where
  ids := by
    intro group mem i id
    have old : ∀ other ∈ groups, i ∈ other.2 → (specs ++ [spec])[i]? = some other.1 := by
      intro other otherMem otherId
      have place := split.ids other otherMem i otherId
      rw [getElem?_append_left (List.getElem?_eq_some_iff.mp place).1, place]
    rcases mem_joinAttentionGroup mem with before | ⟨same, _, ids⟩
    · exact old group before id
    · rcases ids i id with rfl | ⟨other, otherMem, format, otherId⟩
      · simp [same]
      · rw [same]
        exact format ▸ old other otherMem otherId
  covered := by
    intro i bound
    obtain ⟨new, olds⟩ := joinAttentionGroup_covers spec specs.length groups
    rw [length_append, length_singleton] at bound
    rcases Nat.lt_succ_iff_lt_or_eq.mp bound with before | rfl
    · obtain ⟨old, mem, id⟩ := split.covered i before
      obtain ⟨group, groupMem, ids⟩ := olds old mem
      exact ⟨group, groupMem, ids i id⟩
    · exact new
  nonempty := by
    intro group mem
    rcases mem_joinAttentionGroup mem with before | ⟨_, nonempty, _⟩
    · exact split.nonempty group before
    · exact nonempty
  distinct := by
    rw [map_joinAttentionGroup]
    split
    · exact split.distinct
    · rename_i fresh
      exact nodup_append.mpr ⟨split.distinct, nodup_singleton _, by
        intro a mem b other same
        rw [mem_singleton.mp other] at same
        exact fresh (same ▸ mem)⟩

theorem splitAttentionGroups_split (split : SplitOf done groups) :
    SplitOf (done ++ specs) (splitAttentionGroups done.length specs groups) := by
  induction specs generalizing done groups with
  | nil =>
    rw [append_nil]
    exact split
  | cons spec rest ih =>
    have next := ih (split.join spec)
    rw [append_assoc, length_append] at next
    exact next

theorem SplitOf.perm (split : SplitOf specs groups) (order : sorted.Perm groups) :
    SplitOf specs sorted where
  ids := fun group mem => split.ids group (order.subset mem)
  covered := by
    intro i bound
    obtain ⟨group, mem, id⟩ := split.covered i bound
    exact ⟨group, order.symm.subset mem, id⟩
  nonempty := fun group mem => split.nonempty group (order.subset mem)
  distinct := (order.map Prod.fst).nodup_iff.mpr split.distinct

theorem dvd_foldl_lcm (groups : List AttentionGroup) (n : Nat) :
    n ∣ groups.foldl (fun n group => n.lcm group.1.blockSize) n ∧
      ∀ group ∈ groups, group.1.blockSize ∣ groups.foldl (fun n group => n.lcm group.1.blockSize) n := by
  induction groups generalizing n with
  | nil => exact ⟨dvd_refl n, fun group mem => absurd mem not_mem_nil⟩
  | cons first rest ih =>
    obtain ⟨start, others⟩ := ih (n.lcm first.1.blockSize)
    refine ⟨dvd_trans (Nat.dvd_lcm_left _ _) start, ?_⟩
    intro group mem
    rcases mem_cons.mp mem with rfl | mem
    · exact dvd_trans (Nat.dvd_lcm_right _ _) start
    · exact others group mem

/-- What the coordinator makes of its groups: at least two attention groups, full
attention first. -/
theorem verifyAndSplit_ok {kind : CoordinatorKind}
    (h : verifyAndSplitKvCacheGroups specs = .ok kind) :
    ∃ first second rest unit, kind = .hybrid (first :: second :: rest) unit ∧
      Arranged specs unit (first :: second :: rest) ∧
      (∀ i < specs.length, ∃ group ∈ first :: second :: rest, i ∈ group.2) ∧
      (second.1.isFullAttention = true → first.1.isFullAttention = true) ∧
      ∀ group ∈ rest, group.1.isFullAttention = true → second.1.isFullAttention = true := by
  obtain ⟨several, final⟩ := assert_bind_ok h
  cases final
  have empty : SplitOf [] [] :=
    ⟨fun _ mem => absurd mem not_mem_nil, fun _ bound => absurd bound (Nat.not_lt_zero _),
      fun _ mem => absurd mem not_mem_nil, nodup_nil⟩
  have split : SplitOf specs (splitAttentionGroups 0 specs []) := splitAttentionGroups_split empty
  generalize splitAttentionGroups 0 specs [] = groups at several split
  have order := filter_append_perm (fun group : AttentionGroup => group.1.isFullAttention) groups
  have sortedSplit := split.perm order
  have ordered : (groups.filter (·.1.isFullAttention) ++
      groups.filter (fun group => !group.1.isFullAttention)).Pairwise
        (fun a b => b.1.isFullAttention = true → a.1.isFullAttention = true) := by
    refine pairwise_append.mpr ⟨?_, ?_, ?_⟩
    · exact pairwise_of_forall_mem_list (fun a mem b _ _ => (mem_filter.mp mem).2)
    · refine pairwise_of_forall_mem_list (fun a _ b mem full => ?_)
      have other := (mem_filter.mp mem).2
      rw [full] at other
      cases other
    · intro a mem b _ _
      exact (mem_filter.mp mem).2
  have divides := (dvd_foldl_lcm groups 1).2
  generalize groups.filter (·.1.isFullAttention) ++
    groups.filter (fun group => !group.1.isFullAttention) = sorted at order sortedSplit ordered ⊢
  have long : 1 < sorted.length := order.length_eq ▸ of_decide_eq_true several
  match sorted, long with
  | first :: second :: rest, _ =>
    have arranged : Arranged specs _ (first :: second :: rest) :=
      { sortedSplit with divides := fun group mem => divides group (order.subset mem) }
    obtain ⟨firstOrder, laterOrder⟩ := pairwise_cons.mp ordered
    refine ⟨first, second, rest, _, rfl, arranged, sortedSplit.covered, ?_, ?_⟩
    · exact firstOrder second (mem_cons_self ..)
    · exact (pairwise_cons.mp laterOrder).1

def Hybrid : Prop :=
  verifyAndSplitKvCacheGroups (coord.singleTypeManagers.map (·.kvCacheSpec)) =
    .ok coord.kind

/-- The lookups of the attention groups that are made return. -/
def LookupsReturn (blockHashes : List H) (maxCacheHitLength : Nat) : Prop :=
  match coord.kind with
  | .hybrid (first :: second :: rest) unit =>
    LoopReturns coord unit blockHashes first second rest maxCacheHitLength
  | _ => True

structure Consistent (coord : KVCacheCoordinator H) (maxCacheHitLength : Nat)
    (blocks : List (List BlockId)) (hitLength : Nat) : Prop where
  bounded : hitLength ≤ maxCacheHitLength
  multiple : ∀ mgr ∈ coord.singleTypeManagers, mgr.kvCacheSpec.blockSize ∣ hitLength
  lengths : ∀ (i : Nat) (mgr : SingleTypeKVCacheManager H),
    coord.singleTypeManagers[i]? = some mgr → ∃ column : List BlockId,
      blocks[i]? = some column ∧ column.length * mgr.kvCacheSpec.blockSize = hitLength

/-- If the second attention group is full attention too, every attention group after
it accepts the length that the first two leave. -/
def LaterGroupsAccept (blockHashes : List H) (maxCacheHitLength : Nat) : Prop :=
  match coord.kind with
  | .hybrid (first :: second :: rest) unit =>
    second.1.isFullAttention = true → ∀ n length,
      coord.lookupLength unit blockHashes first maxCacheHitLength = .ok n →
      coord.lookupLength unit blockHashes second n = .ok length →
      ∀ group ∈ rest, coord.lookupLength unit blockHashes group length = .ok length
  | _ => True

theorem restAccepts_iff (returns : PassReturns coord unit blockHashes (fun _ => false)
      (first :: second :: rest) maxLength) :
    RestAccepts (coord.look unit blockHashes) first second rest maxLength ↔
      (second.1.isFullAttention = true → ∀ n length,
        coord.lookupLength unit blockHashes first maxLength = .ok n →
        coord.lookupLength unit blockHashes second n = .ok length → ∀ group ∈ rest,
          coord.lookupLength unit blockHashes group length = .ok length) := by
  obtain ⟨firstReturns, secondReturns, later⟩ := returns
  obtain ⟨_, firstLooked⟩ := firstReturns rfl
  obtain ⟨_, secondLooked⟩ := secondReturns rfl
  have one := lookupLength_eq firstLooked
  have two := lookupLength_eq secondLooked
  constructor
  · intro accepts full n length firstFound secondFound group mem
    cases one.symm.trans firstFound
    cases two.symm.trans secondFound
    obtain ⟨_, looked⟩ := (passReturns_iff (accepts full)).mp later group mem rfl
    exact (lookupLength_eq looked).trans (congrArg Except.ok (accepts full group mem))
  · intro accepts full group mem
    have found := accepts full _ _ one two group mem
    obtain ⟨_, looked, -⟩ := bind_ok found
    exact Except.ok.inj ((lookupLength_eq looked).symm.trans found)

theorem finalHits_other (arranged : Arranged specs unit (first :: later))
    (mem : group ∈ later) (id : i ∈ group.2) : (finalHits first hitLength hits)[i]? = hits[i]? := by
  unfold finalHits
  split
  · exact truncateHits_other (fun own => arranged.head_apart mem own id)
  · rfl

/-- The loop returns if its lookups do, and then the hits are consistent exactly if the condition
holds. -/
theorem findHybridCacheHit_ok (blockHashes : List H) (maxLength : Nat)
    (formats : coord.singleTypeManagers.map (·.kvCacheSpec) = specs)
    (arranged : Arranged specs unit (first :: second :: rest))
    (covered : ∀ i < specs.length, ∃ group ∈ first :: second :: rest, i ∈ group.2)
    (fullFirst : second.1.isFullAttention = true → first.1.isFullAttention = true)
    (fullSecond : ∀ group ∈ rest, group.1.isFullAttention = true → second.1.isFullAttention = true) :
    ReturnsIff (LoopReturns coord unit blockHashes first second rest maxLength)
      (coord.findHybridCacheHit (first :: second :: rest) unit blockHashes maxLength)
      fun result => (Consistent coord maxLength result.1 result.2 ↔
        RestAccepts (coord.look unit blockHashes) first second rest maxLength) := by
  have managers : coord.singleTypeManagers.length = specs.length := by
    rw [← formats, length_map]
  have format (i : Nat) (mgr : SingleTypeKVCacheManager H)
      (place : coord.singleTypeManagers[i]? = some mgr) :
      ∃ group ∈ first :: second :: rest, i ∈ group.2 ∧ mgr.kvCacheSpec = group.1 := by
    obtain ⟨group, mem, id⟩ := covered i (managers ▸ (List.getElem?_eq_some_iff.mp place).1)
    have spec := arranged.ids group mem i id
    rw [← formats, getElem?_map, place] at spec
    exact ⟨group, mem, id, some.inj spec⟩
  unfold findHybridCacheHit
  dsimp only
  rw [managers]
  obtain ⟨returns, ⟨hitLength, hits⟩, ran, after, outcome, settled⟩ | ⟨fails, e, raised⟩ :=
    hybridLoop_ok coord blockHashes maxLength arranged
  swap
  · exact .inr ⟨fails, e, by rw [raised]; rfl⟩
  refine .inl ⟨returns, ((finalHits first hitLength hits).map (·.getD []), hitLength), ?_, ?_⟩
  · rw [ran]
    rfl
  · dsimp only
    rw [← settled_stored_iff look_le arranged outcome settled fullFirst fullSecond]
    constructor
    · intro consistent group mem
      have groupMem := mem_cons_of_mem first mem
      obtain ⟨length, stored⟩ := settled_stored arranged outcome settled groupMem
      suffices length = hitLength from this ▸ stored
      obtain ⟨i, id⟩ := exists_mem_of_ne_nil _ (arranged.nonempty group groupMem)
      obtain ⟨blocks, place, count⟩ := stored i id
      have spec := arranged.ids group groupMem i id
      rw [← formats, getElem?_map] at spec
      obtain ⟨mgr, managerPlace, format⟩ := map_eq_some_iff.mp spec
      obtain ⟨column, columnPlace, columnCount⟩ := consistent.lengths i mgr managerPlace
      rw [getElem?_map, finalHits_other arranged mem id, place] at columnPlace
      cases columnPlace
      rw [← count, ← columnCount, format]
      rfl
    · intro all
      have stored : ∀ group ∈ first :: second :: rest,
          Stored (finalHits first hitLength hits) group hitLength := by
        intro group mem
        rcases mem_cons.mp mem with rfl | mem
        · exact finalHits_first look_le arranged outcome settled
        · exact (all group mem).congr (fun i id => finalHits_other arranged mem id)
      refine ⟨le_trans settled.bounded (pass_le (fun _ _ => look_le _)), ?_, ?_⟩
      · intro mgr mem
        obtain ⟨i, place⟩ := getElem?_of_mem mem
        obtain ⟨group, groupMem, _, spec⟩ := format i mgr place
        rw [spec]
        exact dvd_trans (arranged.divides group groupMem) settled.aligned
      · intro i mgr place
        obtain ⟨group, groupMem, id, spec⟩ := format i mgr place
        obtain ⟨blocks, hit, count⟩ := stored group groupMem i id
        refine ⟨blocks, ?_, spec ▸ count⟩
        rw [getElem?_map, hit]
        rfl

/-- `find_longest_cache_hit` of a hybrid coordinator returns consistent hits exactly if the lookups
that it makes return and no attention group lowers the length after a second group of full
attention. -/
theorem hybrid_hits_consistent_iff {coord : KVCacheCoordinator H} {blockHashes : List H}
    {maxCacheHitLength : Nat} (hybrid : coord.Hybrid) :
    (∃ blocks hitLength, coord.findLongestCacheHit blockHashes maxCacheHitLength =
        .ok (blocks, hitLength) ∧ coord.Consistent maxCacheHitLength blocks hitLength) ↔
      coord.LookupsReturn blockHashes maxCacheHitLength ∧
        coord.LaterGroupsAccept blockHashes maxCacheHitLength := by
  obtain ⟨first, second, rest, lcmBlockSize, kind, arranged, covered, fullFirst, fullSecond⟩ :=
    verifyAndSplit_ok hybrid
  unfold LookupsReturn LaterGroupsAccept findLongestCacheHit
  rw [kind]
  dsimp only
  obtain ⟨returns, ⟨blocks, hitLength⟩, ran, consistent⟩ | ⟨fails, e, raised⟩ :=
    findHybridCacheHit_ok blockHashes maxCacheHitLength rfl arranged covered fullFirst fullSecond
  · rw [ran, ← restAccepts_iff returns.1, ← consistent]
    constructor
    · rintro ⟨_, _, same, holds⟩
      cases same
      exact ⟨returns, holds⟩
    · rintro ⟨-, holds⟩
      exact ⟨blocks, hitLength, rfl, holds⟩
  · rw [raised]
    constructor
    · rintro ⟨_, _, same, -⟩
      cases same
    · exact fun both => absurd both.1 fails

end KVCacheCoordinator

open KVCacheCoordinator

/-- Full attention with one and with two heads, and a sliding window of 4 tokens, all
with blocks of 4 tokens. -/
def threeFormats : List KVCacheSpec :=
  let fields (numKvHeads : Nat) : AttentionFields :=
    { blockSize := 4, blockSize_pos := four_pos, numKvHeads, headSize := 1, dtype := ⟨"bfloat16", 2⟩ }
  [.fullAttention { fields 1 with headSizeV := 1 }, .fullAttention { fields 2 with headSizeV := 1 },
    .slidingWindow (fields 1) 4 four_pos]

def threeGroups : Py (KVCacheCoordinator Nat) :=
  KVCacheCoordinator.init 10 threeFormats 100 false true false 1 1 4 (decimalHasher 4 four_pos)

def withCached (coord : KVCacheCoordinator Nat) (blocks : List (Nat × Nat × BlockId)) :
    KVCacheCoordinator Nat :=
  let insert := fun (pool : BlockPool Nat) (block : Nat × Nat × BlockId) =>
    pool.insertCached ⟨[block.1], block.2.1⟩ block.2.2
  { coord with blockPool := blocks.foldl insert coord.blockPool }

theorem hybrid_hits_consistent_iff_two_blocks :
    ∃ coord, threeGroups = .ok coord ∧ ∃ blocks hitLength,
      (withCached coord [(7, 0, 1), (8, 0, 2), (7, 1, 3), (8, 1, 4), (7, 2, 5),
        (8, 2, 6)]).findLongestCacheHit [7, 8] 8 = .ok (blocks, hitLength) ∧
      Consistent (withCached coord [(7, 0, 1), (8, 0, 2), (7, 1, 3), (8, 1, 4), (7, 2, 5),
        (8, 2, 6)]) 8 blocks hitLength := by
  refine ⟨_, rfl, ?_⟩
  refine (hybrid_hits_consistent_iff ?_).mpr ⟨⟨?_, fun _ k => ?_⟩, ?_⟩
  · exact rfl
  · exact ⟨fun _ => ok_of_isOk (by decide +kernel), fun _ => ok_of_isOk (by decide +kernel),
      fun _ => ok_of_isOk (by decide +kernel), trivial⟩
  · rw [Function.iterate_fixed (by decide +kernel)]
    exact ⟨nofun, nofun, fun _ => ok_of_isOk (by decide +kernel), trivial⟩
  · intro _ n length first second group mem
    cases first
    cases second
    rcases mem_cons.mp mem with rfl | mem
    · rfl
    · cases mem

/-- The window group misses its second block: the second group of full attention
still returns two blocks for a hit of 4 tokens. -/
theorem second_full_group_not_truncated : ∃ coord, threeGroups = .ok coord ∧
      (withCached coord [(7, 0, 1), (8, 0, 2), (7, 1, 3), (8, 1, 4), (7, 2, 5)]).findLongestCacheHit
        [7, 8] 8 = .ok ([[1], [3, 4], [5]], 4) ∧
      ¬ Consistent (withCached coord [(7, 0, 1), (8, 0, 2), (7, 1, 3), (8, 1, 4), (7, 2, 5)])
        8 [[1], [3, 4], [5]] 4 := by
  refine ⟨_, rfl, rfl, ?_⟩
  intro consistent
  obtain ⟨column, place, count⟩ := consistent.lengths 1 _ rfl
  cases place
  exact absurd count (by decide)

end Vllm
