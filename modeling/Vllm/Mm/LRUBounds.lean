import Vllm.Mm.LRUCache
import Vllm.Lib.Run

/-! Eviction removes the oldest key that is not pinned. A key that was touched without
being stored is removed by nothing, so the loops of `put` and `clear` repeat forever once
it is the oldest. -/
namespace Vllm.LRUCache
open Loop List Dict Bool LRUCache
variable {K V : Type} [DecidableEq K] {cache after : LRUCache K V} {key : K} {size : Nat}
  {value : V}

theorem takeWhile_congr {α : Type} {p q : α → Bool} {l : List α} (same : ∀ x ∈ l, p x = q x) :
    l.takeWhile p = l.takeWhile q := by
  induction l with
  | nil => rfl
  | cons x rest ih =>
    rw [takeWhile_cons, takeWhile_cons, same x (mem_cons_self ..),
      ih (fun y mem => same y (mem_cons_of_mem _ mem))]

theorem dropWhile_congr {α : Type} {p q : α → Bool} {l : List α} (same : ∀ x ∈ l, p x = q x) :
    l.dropWhile p = l.dropWhile q := by
  induction l with
  | nil => rfl
  | cons x rest ih =>
    rw [dropWhile_cons, dropWhile_cons, same x (mem_cons_self ..),
      ih (fun y mem => same y (mem_cons_of_mem _ mem))]

structure Sound (cache : LRUCache K V) : Prop where
  nodup : cache.order.Nodup
  listed : ∀ key, cache.contains key = true → key ∈ cache.order
  pinned : ∀ key ∈ cache.pinnedItems, cache.contains key = true
  counted : cache.currsize = cache.entries.total (·.2)
  bounded : cache.currsize ≤ cache.capacity

/-- The keys of the recency order are exactly the stored keys. -/
def OrderExact (cache : LRUCache K V) : Prop := ∀ key, key ∈ cache.order ↔ cache.contains key = true

def without (cache : LRUCache K V) (key : K) (size : Nat) : LRUCache K V :=
  { cache with
    entries := cache.entries.erase key
    currsize := cache.currsize - size
    order := cache.order.erase key
    pinnedItems := cache.pinnedItems.filter (· ≠ key) }

theorem mem_touch : other ∈ (cache.touch key).order ↔ other = key ∨ other ∈ cache.order := by
  unfold touch
  split
  · rename_i listed
    by_cases same : other = key
    · subst same
      simp [listed]
    · simp [same, mem_erase_of_ne same]
  · simp only [mem_append, mem_singleton]
    tauto

theorem nodup_touch (key : K) (nodup : cache.order.Nodup) : (cache.touch key).order.Nodup := by
  unfold touch
  split
  · apply List.Nodup.append (nodup.erase key) (nodup_singleton key)
    intro other mem same
    cases mem_singleton.mp same
    exact nodup.not_mem_erase mem
  · rename_i absent
    apply List.Nodup.append nodup (nodup_singleton key)
    intro other mem same
    cases mem_singleton.mp same
    exact absent mem

theorem erase_touch (key : K) (nodup : cache.order.Nodup) :
    (cache.touch key).order.erase key = cache.order.erase key := by
  unfold touch
  split
  · rw [erase_append_right _ nodup.not_mem_erase, erase_cons_head, append_nil]
  · rename_i absent
    rw [erase_append_right _ absent, erase_cons_head, append_nil, erase_of_not_mem absent]

theorem touch_entries : (cache.touch key).entries = cache.entries := by
  unfold touch
  split <;> rfl

theorem touch_eq : cache.touch key = { cache with order := (cache.touch key).order } := by
  unfold touch
  split <;> rfl

theorem contains_touch (other : K) : (cache.touch key).contains other = cache.contains other := by
  simp [contains, touch_entries]

theorem contains_of_none (missing : cache.entries.get? key = none) : cache.contains key = false := by
  simp [contains, Dict.contains, missing]

theorem Sound.touch (sound : cache.Sound) (key : K) : (cache.touch key).Sound := by
  rw [touch_eq]
  refine { sound with nodup := nodup_touch key sound.nodup, listed := ?_ }
  intro other stored
  exact mem_touch.mpr (.inr (sound.listed other stored))

theorem without_pinned (size : Nat) (unpinned : key ∉ cache.pinnedItems) :
    (cache.without key size).pinnedItems = cache.pinnedItems := by
  apply filter_eq_self.mpr
  intro other mem
  have ne : other ≠ key := fun same => unpinned (same ▸ mem)
  simpa using ne

theorem contains_without (other : K) :
    (cache.without key size).contains other = (decide (other ≠ key) && cache.contains other) := by
  simp only [contains, without, Dict.contains]
  by_cases same : other = key <;> simp [same]

section Keys
variable [ToString K]

theorem pop_eq (stored : cache.entries.get? key = some (value, size)) :
    cache.pop key = .ok (some value, { cache.without key size with
      order := ((cache.touch key).touch key).order.erase key }) := by
  have inside : cache.contains key = true := contains_iff.mpr ⟨_, stored⟩
  have twice : (cache.touch key).touch key =
      { cache with order := ((cache.touch key).touch key).order } := by
    rw [touch_eq, touch_eq]
  simp only [pop, inside, if_true, getItem, baseGetItem, stored, false_eq_true, if_false, Py.ok_bind,
    delItem, baseDelItem, touch_entries]
  rw [twice]
  split
  · rfl
  · rename_i unpinned
    have same := without_pinned size unpinned
    simp only [without] at same ⊢
    rw [same]
    rfl

theorem pop_stored (sound : cache.Sound) (stored : cache.entries.get? key = some (value, size)) :
    cache.pop key = .ok (some value, cache.without key size) := by
  rw [pop_eq stored, erase_touch key (nodup_touch key sound.nodup), erase_touch key sound.nodup]
  rfl

theorem pop_absent (absent : cache.contains key = false) : cache.pop key = .ok (none, cache) := by
  simp [pop, absent]

/-- A key that is not stored is removed by nothing. -/
theorem pop_cases (sound : cache.Sound) (key : K) :
    cache.contains key = false ∧ cache.pop key = .ok (none, cache) ∨
      ∃ value size, cache.entries.get? key = some (value, size) ∧
        cache.pop key = .ok (some value, cache.without key size) := by
  cases stored : cache.entries.get? key with
  | none =>
    have absent := contains_of_none stored
    exact .inl ⟨absent, pop_absent absent⟩
  | some entry => exact .inr ⟨entry.1, entry.2, rfl, pop_stored sound stored⟩

end Keys

theorem Sound.without (sound : cache.Sound) (stored : cache.entries.get? key = some (value, size)) :
    (cache.without key size).Sound := by
  have split := cache.entries.total_erase key (·.2)
  rw [stored, Option.elim_some] at split
  have counted := sound.counted
  have bounded := sound.bounded
  refine ⟨sound.nodup.erase key, ?_, ?_, ?_, ?_⟩
  · intro other inside
    rw [contains_without, Bool.and_eq_true, decide_eq_true_eq] at inside
    exact (mem_erase_of_ne inside.1).mpr (sound.listed other inside.2)
  · intro other mem
    obtain ⟨mem, ne⟩ := mem_filter.mp mem
    rw [contains_without, sound.pinned other mem, Bool.and_true]
    exact ne
  · simp only [LRUCache.without]
    omega
  · simp only [LRUCache.without]
    omega

/-- The oldest key that is not pinned, with what is before and after it. -/
structure Oldest (cache : LRUCache K V) (key : K) (prior later : List K) : Prop where
  order : cache.order = prior ++ key :: later
  unpinned : key ∉ cache.pinnedItems
  earlierPinned : ∀ other ∈ prior, other ∈ cache.pinnedItems

theorem lruKey_cases (cache : LRUCache K V) :
    (∃ e, cache.lruKey false = .error e ∧ ∀ key ∈ cache.order, key ∈ cache.pinnedItems) ∨
      ∃ key prior later, cache.lruKey false = .ok key ∧ cache.Oldest key prior later := by
  simp only [lruKey, false_eq_true, if_false]
  cases found : cache.order.find? (fun key => decide (key ∉ cache.pinnedItems)) with
  | none =>
    refine .inl ⟨_, rfl, ?_⟩
    intro key mem
    have := find?_eq_none.mp found key mem
    simpa using this
  | some key =>
    obtain ⟨unpinned, prior, later, order, all⟩ := find?_eq_some_iff_append.mp found
    refine .inr ⟨key, prior, later, rfl, order, by simpa using unpinned, ?_⟩
    intro other mem
    simpa using all other mem

/-- One turn of the loop of `put`. -/
theorem popitem_cases [ToString K] (sound : cache.Sound) : (∃ e, cache.evictOldest = .error e ∧
        ∀ key ∈ cache.order, key ∈ cache.pinnedItems) ∨
      ∃ key prior later, cache.Oldest key prior later ∧
        (cache.contains key = false ∧ cache.evictOldest = .ok cache ∨
          ∃ value size, cache.entries.get? key = some (value, size) ∧
            cache.evictOldest = .ok (cache.without key size)) := by
  rcases cache.lruKey_cases with ⟨e, raised, pinned⟩ | ⟨key, prior, later, found, oldest⟩
  · refine .inl ⟨e, ?_, pinned⟩
    simp only [evictOldest, popitem, raised]
    rfl
  · refine .inr ⟨key, prior, later, oldest, ?_⟩
    simp only [evictOldest, popitem, found, Py.ok_bind]
    rcases pop_cases sound key with ⟨absent, popped⟩ | ⟨value, size, stored, popped⟩
    · exact .inl ⟨absent, by rw [popped]; rfl⟩
    · exact .inr ⟨value, size, stored, by rw [popped]; rfl⟩

theorem evictOldest_ok [ToString K] (sound : cache.Sound) (ran : cache.evictOldest = .ok after) :
    after = cache ∨ ∃ key value size, cache.entries.get? key = some (value, size) ∧
      key ∉ cache.pinnedItems ∧ after = cache.without key size := by
  rcases popitem_cases sound with ⟨e, raised, _⟩ | ⟨key, _, _, oldest, ⟨_, same⟩ | turn⟩
  · rw [raised] at ran
    cases ran
  · rw [same] at ran
    cases ran
    exact .inl rfl
  · obtain ⟨value, size, stored, gone⟩ := turn
    rw [gone] at ran
    cases ran
    exact .inr ⟨key, value, size, stored, oldest.unpinned, rfl⟩

theorem evictOldest_error [ToString K] {e : PyError} (sound : cache.Sound)
    (raised : cache.evictOldest = .error e) : ∀ key ∈ cache.order, key ∈ cache.pinnedItems := by
  rcases popitem_cases sound with ⟨_, _, pinned⟩ | ⟨key, _, _, _, ⟨_, same⟩ | ⟨_, _, _, gone⟩⟩
  · exact pinned
  · rw [same] at raised
    cases raised
  · rw [gone] at raised
    cases raised

def sizeOf (cache : LRUCache K V) (key : K) : Nat := (cache.entries.get? key).elim 0 (·.2)

/-- What eviction can free before it meets a key that is not stored. -/
def reclaimable (cache : LRUCache K V) : Nat :=
  (((cache.order.takeWhile cache.contains).filter
    (fun key => decide (key ∉ cache.pinnedItems))).map cache.sizeOf).sum

def pinnedSize (cache : LRUCache K V) : Nat :=
  (cache.entries.entries.map
    (fun entry => if entry.1 ∈ cache.pinnedItems then entry.2.2 else 0)).sum

theorem takeWhile_oldest (sound : cache.Sound) (oldest : cache.Oldest key prior later) :
    cache.order.takeWhile cache.contains = prior ++ (key :: later).takeWhile cache.contains := by
  have inside : ∀ other ∈ prior, cache.contains other = true :=
    fun other mem => sound.pinned other (oldest.earlierPinned other mem)
  rw [oldest.order, takeWhile_append_of_pos inside]

theorem filter_earlier (oldest : cache.Oldest key prior later) :
    prior.filter (fun other => decide (other ∉ cache.pinnedItems)) = [] := by
  apply filter_eq_nil_iff.mpr
  intro other mem
  simpa using oldest.earlierPinned other mem

theorem reclaimable_absent (sound : cache.Sound) (oldest : cache.Oldest key prior later)
    (absent : cache.contains key = false) : cache.reclaimable = 0 := by
  rw [reclaimable, takeWhile_oldest sound oldest, takeWhile_cons_of_neg (by simp [absent]),
    append_nil, filter_earlier oldest]
  rfl

theorem reclaimable_allPinned (pinned : ∀ key ∈ cache.order, key ∈ cache.pinnedItems) :
    cache.reclaimable = 0 := by
  have none : (cache.order.takeWhile cache.contains).filter
      (fun key => decide (key ∉ cache.pinnedItems)) = [] := by
    apply filter_eq_nil_iff.mpr
    intro other mem
    simpa using pinned other ((takeWhile_sublist _).subset mem)
  rw [reclaimable, none]
  rfl

theorem reclaimable_without (sound : cache.Sound) (oldest : cache.Oldest key prior later)
    (stored : cache.entries.get? key = some (value, size)) :
    cache.reclaimable = size + (cache.without key size).reclaimable := by
  have nodup := sound.nodup
  rw [oldest.order, nodup_append, nodup_cons] at nodup
  have notEarlier : key ∉ prior := fun mem => nodup.2.2 key mem key (mem_cons_self ..) rfl
  have order : (cache.without key size).order = prior ++ later := by
    simp only [without, oldest.order, erase_append_right _ notEarlier, erase_cons_head]
  have inside : cache.contains key = true := contains_iff.mpr ⟨_, stored⟩
  have pins := without_pinned size oldest.unpinned
  have sameContains : ∀ other, other ≠ key →
      (cache.without key size).contains other = cache.contains other := by
    intro other ne
    simp [contains_without, ne]
  have earlierInside : ∀ other ∈ prior, (cache.without key size).contains other = true := by
    intro other mem
    rw [sameContains other (fun same => notEarlier (same ▸ mem))]
    exact sound.pinned other (oldest.earlierPinned other mem)
  have sameLater : later.takeWhile (cache.without key size).contains =
      later.takeWhile cache.contains :=
    takeWhile_congr fun other mem => sameContains other (fun same => nodup.2.1.1 (same ▸ mem))
  have sameSizes : ∀ other ∈ (later.takeWhile cache.contains).filter
      (fun other => decide (other ∉ cache.pinnedItems)),
      cache.sizeOf other = (cache.without key size).sizeOf other := by
    intro other mem
    have ne : other ≠ key := by
      rintro rfl
      exact nodup.2.1.1 ((takeWhile_sublist _).subset (mem_filter.mp mem).1)
    simp [sizeOf, without, ne]
  have own : cache.sizeOf key = size := by simp [sizeOf, stored]
  simp only [reclaimable, takeWhile_oldest sound oldest, takeWhile_cons_of_pos inside, order,
    takeWhile_append_of_pos earlierInside, pins, sameLater, filter_append,
    filter_earlier oldest, nil_append]
  rw [filter_cons_of_pos (by simpa using oldest.unpinned), map_cons, sum_cons, own,
    map_congr_left sameSizes]

theorem pinnedSize_without (unpinned : key ∉ cache.pinnedItems) :
    (cache.without key size).pinnedSize = cache.pinnedSize := by
  rw [pinnedSize, without_pinned _ unpinned, pinnedSize]
  simp only [without, erase]
  induction cache.entries.entries with
  | nil => rfl
  | cons entry rest ih =>
    by_cases same : entry.1 = key
    · rw [filter_cons_of_neg (by simpa using same), ih, map_cons, sum_cons, same,
        if_neg unpinned, zero_add]
    · rw [filter_cons_of_pos (by simpa using same), map_cons, map_cons, sum_cons, sum_cons, ih]

theorem pinnedSize_le (sound : cache.Sound) : (cache.pinnedSize : Int) ≤ cache.currsize := by
  rw [sound.counted, Int.ofNat_le]
  apply sum_le_sum
  intro _ _
  split
  · exact le_refl _
  · exact Nat.zero_le _

theorem pinnedSize_allPinned (sound : cache.Sound)
    (pinned : ∀ key ∈ cache.order, key ∈ cache.pinnedItems) :
    (cache.pinnedSize : Int) = cache.currsize := by
  rw [sound.counted]
  simp only [pinnedSize]
  congr 2
  apply map_congr_left
  intro entry mem
  have stored : cache.entries.get? entry.1 = some entry.2 := get?_eq_some.mpr mem
  exact if_pos (pinned _ (sound.listed _ (contains_iff.mpr ⟨_, stored⟩)))

section Room
variable [ToString K]

/-- What eviction leaves as it was. -/
structure Evicted (cache after : LRUCache K V) : Prop where
  sound : after.Sound
  capacity : after.capacity = cache.capacity
  getsizeof : after.getsizeof = cache.getsizeof
  pinnedItems : after.pinnedItems = cache.pinnedItems
  pinnedSize : after.pinnedSize = cache.pinnedSize
  unstored : ∀ key, key ∈ after.order ∧ after.contains key = false ↔
    key ∈ cache.order ∧ cache.contains key = false

omit [ToString K] in
theorem Evicted.refl (sound : cache.Sound) : Evicted cache cache :=
  ⟨sound, rfl, rfl, rfl, rfl, fun _ => Iff.rfl⟩

omit [ToString K] in
theorem Evicted.without (evicted : Evicted cache middle)
    (stored : middle.entries.get? key = some (value, size)) (unpinned : key ∉ middle.pinnedItems) :
    Evicted cache (middle.without key size) := by
  have inside : middle.contains key = true := contains_iff.mpr ⟨_, stored⟩
  refine ⟨evicted.sound.without stored, evicted.capacity, evicted.getsizeof, ?_,
    (pinnedSize_without unpinned).trans evicted.pinnedSize, ?_⟩
  · rw [without_pinned _ unpinned, evicted.pinnedItems]
  · intro other
    rw [← evicted.unstored other, contains_without]
    by_cases same : other = key
    · subst same
      simp [without, evicted.sound.nodup.not_mem_erase, inside]
    · simp [LRUCache.without, mem_erase_of_ne same, same]

/-- The loop of `put` ends with this result. -/
def RoomEnds (cache : LRUCache K V) (size : Nat) (result : LRUCache K V × Option PyError) : Prop :=
  Ends (overfull size) evictOldest cache result

theorem RoomEnds.evicted (sound : cache.Sound) (ends : cache.RoomEnds size result) :
    Evicted cache result.1 ∧ (result.2 = none ∧ result.1.currsize + size ≤ result.1.capacity ∨
        result.2 ≠ none ∧ result.1.currsize + size > result.1.capacity ∧
          ∀ key ∈ result.1.order, key ∈ result.1.pinnedItems) := by
  have kept := ends.invariant (Evicted cache) (by
    intro now later evicted _ stepped
    rcases evictOldest_ok evicted.sound stepped with rfl | ⟨_, _, _, stored, unpinned, rfl⟩
    · exact evicted
    · exact evicted.without stored unpinned) (Evicted.refl sound)
  refine ⟨kept.1, ?_⟩
  rcases kept.2 with ⟨none, done⟩ | ⟨e, some, more, raised⟩
  · refine .inl ⟨none, ?_⟩
    simpa [overfull] using done
  · exact .inr ⟨by simp [some], by simpa [overfull] using more,
      evictOldest_error kept.1.sound raised⟩

/-- The loop of `put` makes room iff what eviction can free suffices. -/
theorem roomEnds_iff (sound : cache.Sound) : (∃ after, cache.RoomEnds size (after, none)) ↔
      cache.currsize + size ≤ cache.capacity + cache.reclaimable := by
  -- Each turn that removes a key takes its size from both sides.
  induction number : cache.entries.size using Nat.strongRecOn generalizing cache with
  | _ count ih =>
    by_cases more : cache.currsize + size > cache.capacity
    · have cond : cache.overfull size = true := decide_eq_true more
      rcases popitem_cases sound with ⟨e, raised, pinned⟩ | ⟨key, _, _, oldest, turn⟩
      · rw [reclaimable_allPinned pinned]
        constructor
        · rintro ⟨after, ends⟩
          cases (ends_of_error cond raised).mp ends
        · intro room
          omega
      · rcases turn with ⟨absent, same⟩ | ⟨_, gone, stored, popped⟩
        · rw [reclaimable_absent sound oldest absent]
          constructor
          · rintro ⟨after, ends⟩
            exact absurd ends (not_ends_of_stuck cond same)
          · intro room
            omega
        · have fewer : (cache.without key gone).entries.size < count := by
            rw [← number]
            exact cache.entries.size_erase_lt stored
          have later := ih _ fewer (sound.without stored) rfl
          rw [reclaimable_without sound oldest stored]
          have step : (∃ after, cache.RoomEnds size (after, none)) ↔
              ∃ after, (cache.without key gone).RoomEnds size (after, none) :=
            exists_congr fun after => ends_of_next cond popped
          rw [step, later]
          simp only [without]
          omega
    · have done : cache.overfull size = false := decide_eq_false more
      constructor
      · intro _
        omega
      · intro _
        exact ⟨cache, (ends_of_done done).mpr rfl⟩

end Room

variable [ToString K]

omit [ToString K] in
/-- A cache with entries has a stored key in its order. -/
theorem Sound.exists_listed (sound : cache.Sound) (filled : cache.nonempty = true) :
    ∃ key ∈ cache.order, cache.contains key = true := by
  obtain ⟨_, mem⟩ := exists_mem_of_length_pos (of_decide_eq_true filled)
  have stored := contains_iff.mpr ⟨_, get?_eq_some.mpr mem⟩
  exact ⟨_, sound.listed _ stored, stored⟩

/-- One turn of the loop of `clear`. -/
theorem removeOldest_cases (sound : cache.Sound) (filled : cache.nonempty = true) :
    ∃ key rest, cache.order = key :: rest ∧
      (cache.contains key = false ∧ cache.removeOldest true = .ok cache ∨
        ∃ value size, cache.entries.get? key = some (value, size) ∧
          cache.removeOldest true = .ok (cache.without key size)) := by
  have nonzero : cache.entries.size ≠ 0 := by
    have := of_decide_eq_true filled
    omega
  cases order : cache.order with
  | nil =>
    obtain ⟨_, listed, _⟩ := sound.exists_listed filled
    rw [order] at listed
    cases listed
  | cons key rest =>
    refine ⟨key, rest, rfl, ?_⟩
    have oldest : cache.lruKey true = .ok key := by simp [lruKey, order]
    simp only [removeOldest, nonzero, popitem, oldest, Py.ok_bind]
    rcases pop_cases sound key with ⟨absent, popped⟩ | ⟨value, size, stored, popped⟩
    · exact .inl ⟨absent, by rw [popped]; rfl⟩
    · exact .inr ⟨value, size, stored, by rw [popped]; rfl⟩

def ClearEnds (cache : LRUCache K V) (result : LRUCache K V × Option PyError) : Prop :=
  Ends nonempty (removeOldest · true) cache result

theorem ClearEnds.sound (sound : cache.Sound) (ends : cache.ClearEnds result) :
    result.1.Sound ∧ result.2 = none := by
  have kept := ends.invariant Sound (by
    intro now later sound filled stepped
    obtain ⟨key, rest, _, turn⟩ := removeOldest_cases sound filled
    rcases turn with ⟨_, same⟩ | ⟨value, size, stored, gone⟩
    · rw [same] at stepped
      cases stepped
      exact sound
    · rw [gone] at stepped
      cases stepped
      exact sound.without stored) sound
  refine ⟨kept.1, ?_⟩
  rcases kept.2 with ⟨none, _⟩ | ⟨e, _, filled, raised⟩
  · exact none
  · obtain ⟨key, rest, _, turn⟩ := removeOldest_cases kept.1 filled
    rcases turn with ⟨_, same⟩ | ⟨value, size, stored, gone⟩
    · rw [same] at raised
      cases raised
    · rw [gone] at raised
      cases raised

/-- The loop of `clear` ends iff no key that is not stored is older than a stored one. -/
theorem clearEnds_iff (sound : cache.Sound) : (∃ result, cache.ClearEnds result) ↔
      ∀ key ∈ cache.order.dropWhile cache.contains, cache.contains key = false := by
  induction number : cache.entries.size using Nat.strongRecOn generalizing cache with
  | _ count ih =>
    cases filled : cache.nonempty with
    | false =>
      have empty : cache.entries.entries = [] := by
        have zero : ¬0 < cache.entries.size := of_decide_eq_false filled
        exact length_eq_zero_iff.mp (by unfold Dict.size at zero; omega)
      have none : ∀ key, cache.contains key = false := by
        intro key
        simp [contains, Dict.contains, Dict.get?, empty, Dict.getIn]
      exact ⟨fun _ key _ => none key, fun _ => ⟨_, (ends_of_done filled).mpr rfl⟩⟩
    | true =>
      obtain ⟨key, rest, order, turn⟩ := removeOldest_cases sound filled
      have nodup := sound.nodup
      rw [order, nodup_cons] at nodup
      rcases turn with ⟨absent, same⟩ | ⟨value, size, stored, gone⟩
      · constructor
        · rintro ⟨result, ends⟩
          exact absurd ends (not_ends_of_stuck filled same)
        · intro all
          obtain ⟨entry, listed, inside⟩ := sound.exists_listed filled
          rw [order, dropWhile_cons_of_neg (by simp [absent]), ← order] at all
          rw [all _ listed] at inside
          cases inside
      · have fewer : (cache.without key size).entries.size < count := by
          rw [← number]
          exact cache.entries.size_erase_lt stored
        have inside : cache.contains key = true := Dict.contains_iff.mpr ⟨_, stored⟩
        have step : (∃ result, cache.ClearEnds result) ↔
            ∃ result, (cache.without key size).ClearEnds result :=
          exists_congr fun result => ends_of_next filled gone
        have later : (cache.without key size).order = rest := by
          simp only [without, order, erase_cons_head]
        have same : ∀ other ∈ rest,
            (cache.without key size).contains other = cache.contains other := by
          intro other mem
          have ne : other ≠ key := fun same => nodup.1 (same ▸ mem)
          simp [contains_without, ne]
        rw [step, ih _ fewer (sound.without stored) rfl, order, dropWhile_cons_of_pos inside,
          later, dropWhile_congr same]
        apply forall₂_congr
        intro other mem
        rw [same other ((dropWhile_sublist _).subset mem)]

end Vllm.LRUCache
