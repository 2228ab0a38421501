import Vllm.Mm.ProcessorCache
import Vllm.Mm.LRUCalls

/-! Whether the items of a request survive the insertions of the request itself. Its hashes
are touched first, so eviction meets every other key before them. The missing ones among
them stand in the order without being stored, so eviction cannot get past them, and a key
of the request that it does remove is one that the request still counts on. -/
namespace Vllm.LRUCache
open List hiding next
open Loop Dict LRUCache
variable {V A B : Type} {cache next after : LRUCache String V} {key : String} {value : V}
  {bytes : Nat} {keys older tail : List String} {item : Option A} {given : A}
  {rest : List (String × Option A)} {store : A → V} {hit : V → B} {pass : A → B} {size : A → Nat}

/-- What eviction frees of these keys before it meets one that is not stored. -/
def freeable (cache : LRUCache String V) (older : List String) : Nat :=
  ((older.takeWhile cache.contains).map cache.sizeOf).sum

/-- What eviction frees before it meets a key of the request or one that is not stored. -/
def spare (keys : List String) (cache : LRUCache String V) : Nat :=
  cache.freeable (cache.order.filter (· ∉ keys))

theorem freeable_congr (same : ∀ other ∈ older, next.entries.get? other = cache.entries.get? other) :
    next.freeable older = cache.freeable older := by
  have contains : ∀ other ∈ older, next.contains other = cache.contains other := by
    intro other mem
    simp only [contains, Dict.contains, same other mem]
  rw [freeable, takeWhile_congr contains]
  congr 1
  apply map_congr_left
  intro other mem
  simp [sizeOf, same other ((takeWhile_sublist _).subset mem)]

theorem spare_without (sound : cache.Sound) (order : cache.order = key :: tail) (foreign : key ∉ keys)
    (stored : cache.entries.get? key = some (value, bytes)) :
    cache.spare keys = bytes + (cache.without key bytes).spare keys := by
  have nodup := sound.nodup
  rw [order, nodup_cons] at nodup
  have inside : cache.contains key = true := contains_iff.mpr ⟨_, stored⟩
  have later : (cache.without key bytes).order = tail := by simp [without, order]
  have others : (cache.without key bytes).freeable (tail.filter (· ∉ keys)) =
      cache.freeable (tail.filter (· ∉ keys)) := by
    refine freeable_congr fun other mem => ?_
    have ne : other ≠ key := fun same => nodup.1 (same ▸ mem_of_mem_filter mem)
    simp [without, ne]
  rw [spare, spare, later, others, order, filter_cons_of_pos (by simpa using foreign), freeable,
    takeWhile_cons_of_pos inside, map_cons, sum_cons]
  simp [sizeOf, stored, freeable]

theorem touch_order : (cache.touch key).order = cache.order.erase key ++ [key] := by
  unfold touch
  split
  · rfl
  · rename_i absent
    rw [erase_of_not_mem absent]

/-- Storing or touching a key of the request leaves what is older. -/
theorem spare_touch (mine : key ∈ keys) (order : next.order = (cache.touch key).order)
    (same : ∀ other, other ≠ key → next.entries.get? other = cache.entries.get? other) :
    next.spare keys = cache.spare keys := by
  have filtered : next.order.filter (· ∉ keys) = cache.order.filter (· ∉ keys) := by
    rw [order, touch_order, filter_append, ← erase_filter, erase_of_not_mem] <;> simp [mine]
  rw [spare, filtered]
  refine freeable_congr fun other mem => same other ?_
  rintro rfl
  simp [mine] at mem

section
variable (keys : List String) (rest : List (String × Option A)) (cache : LRUCache String V)

/-- How a key stands before another one in the order: keys of the request are younger than
all others, and before one of them that is still to be stored the stored ones are those
that the request still counts on. -/
def Before (key later : String) : Prop :=
  (key ∈ keys → later ∈ keys) ∧ ∀ given, (later, some given) ∈ rest → cache.contains later = false →
    key ∈ keys → cache.contains key = true → (key, none) ∈ rest

/-- The cache while a request with these keys is merged. -/
structure Midway : Prop where
  sound : cache.Sound
  unpinned : cache.pinnedItems = []
  mine : ∀ entry ∈ rest, entry.1 ∈ keys
  picked : ∀ key given, (key, some given) ∈ rest → (key, none) ∉ rest
  before : cache.order.Pairwise (Before keys rest cache)
  listed : ∀ key given, (key, some given) ∈ rest → cache.contains key = false → key ∈ cache.order

/-- What serving an entry with this key leaves. -/
structure Served (key : String)
    (cache next : LRUCache String V) : Prop where
  sound : next.Sound
  unpinned : next.pinnedItems = []
  getsizeof : next.getsizeof = cache.getsizeof
  order : ∃ list, next.order = list ++ [key] ∧ list <+ cache.order ∧ key ∉ list
  inside : next.contains key = true
  fresh : ∀ other ≠ key, next.contains other = true → cache.contains other = true
  lost : ∀ other ∈ keys, cache.contains other = true →
    next.contains other = true ∨ (other, none) ∈ rest
  unstored : ∀ other ≠ key, other ∈ next.order ∧ next.contains other = false ↔
    other ∈ cache.order ∧ cache.contains other = false

end

theorem Midway.later (midway : Midway keys ((key, item) :: rest) cache)
    (served : Served keys rest key cache next) : Midway keys rest next := by
  have picked : ∀ other given, (other, some given) ∈ rest → (other, none) ∉ rest :=
    fun other given mem none => midway.picked other given (mem_cons_of_mem _ mem)
      (mem_cons_of_mem _ none)
  have mine := fun entry mem => midway.mine entry (mem_cons_of_mem (key, item) mem)
  obtain ⟨list, order, sublist, left⟩ := served.order
  have unstored : ∀ other given, (other, some given) ∈ rest → next.contains other = false →
      other ≠ key ∧ cache.contains other = false := by
    intro other given mem absent
    refine ⟨fun same => by simp [same, served.inside] at absent, ?_⟩
    by_contra inside
    rcases served.lost other (mine _ mem) (by simpa using inside) with kept | none
    · rw [kept] at absent
      cases absent
    · exact picked other given mem none
  refine ⟨served.sound, served.unpinned, mine, picked, ?_, ?_⟩
  · rw [order, pairwise_append]
    refine ⟨(midway.before.sublist sublist).imp_of_mem ?_, pairwise_singleton .., ?_⟩
    · rintro one two mem - ⟨younger, counted⟩
      have ne : one ≠ key := fun same => left (same ▸ mem)
      refine ⟨younger, fun given passed absent used inside => ?_⟩
      have still := counted given (mem_cons_of_mem _ passed) (unstored two given passed absent).2 used
        (served.fresh one ne inside)
      exact (mem_cons.mp still).resolve_left fun same => ne (congrArg Prod.fst same)
    · intro one mem two last
      rw [mem_singleton.mp last]
      refine ⟨fun _ => midway.mine _ (mem_cons_self ..), fun given passed absent => ?_⟩
      rw [served.inside] at absent
      cases absent
  · intro other given mem absent
    obtain ⟨ne, before⟩ := unstored other given mem absent
    have listed := midway.listed other given (mem_cons_of_mem _ mem) before
    exact ((served.unstored other ne).mpr ⟨listed, before⟩).1

/-- What the loop of `put` does before it stores a key of the request. -/
structure Evicts (keys : List String) (rest : List (String × Option A)) (bytes : Nat)
    (cache after : LRUCache String V) : Prop where
  evicted : Evicted cache after
  sublist : after.order <+ cache.order
  fresh : ∀ key, cache.contains key = false → after.contains key = false
  lost : ∀ key ∈ keys, cache.contains key = true → after.contains key = true ∨ (key, none) ∈ rest
  outcome : after.currsize + cache.spare keys = cache.currsize + after.spare keys ∧
      (∀ key ∈ keys, cache.contains key = true → after.contains key = true) ∨
    cache.currsize + bytes > cache.capacity + cache.spare keys ∧
      ∃ key, (key, none) ∈ rest ∧ after.contains key = false

section
variable (midway : Midway keys ((key, some given) :: rest) cache)
  (absent : cache.contains key = false)
include midway absent

theorem Evicts.step (evicts : Evicts keys rest bytes cache after)
    (more : after.overfull bytes = true) (stepped : after.evictOldest = .ok next) :
    Evicts keys rest bytes cache next := by
  have exceeds : after.currsize + bytes > after.capacity := of_decide_eq_true more
  have unpinned := evicts.evicted.pinnedItems.trans midway.unpinned
  rcases popitem_cases evicts.evicted.sound with
    ⟨e, raised, -⟩ | ⟨head, prior, tail, oldest, ⟨-, stuck⟩ | ⟨value, freed, stored, popped⟩⟩
  · rw [raised] at stepped
    cases stepped
  · rw [stuck] at stepped
    cases stepped
    exact evicts
  rw [popped] at stepped
  cases stepped
  have first : prior = [] := by
    refine eq_nil_iff_forall_not_mem.mpr fun other mem => ?_
    have pinned := oldest.earlierPinned other mem
    rw [unpinned] at pinned
    cases pinned
  have order : after.order = head :: tail := by rw [oldest.order, first, nil_append]
  have inside : after.contains head = true := contains_iff.mpr ⟨_, stored⟩
  have was : cache.contains head = true := by
    by_contra before
    rw [evicts.fresh head (by simpa using before)] at inside
    cases inside
  -- The key to be stored is behind the head, which the request therefore counts on.
  have ghost : key ∈ tail := by
    have listed := ((evicts.evicted.unstored key).mpr
      ⟨midway.listed key given (mem_cons_self ..) absent, absent⟩).1
    rw [order] at listed
    refine (mem_cons.mp listed).resolve_left fun same => ?_
    rw [same, was] at absent
    cases absent
  have before := midway.before.sublist evicts.sublist
  rw [order, pairwise_cons] at before
  have counted : head ∈ keys → (head, none) ∈ rest := fun mine =>
    (mem_cons.mp ((before.1 key ghost).2 given (mem_cons_self ..) absent mine was)).resolve_left
      (by simp)
  have others : ∀ other ≠ head, (after.without head freed).contains other = after.contains other := by
    intro other ne
    simp [contains_without, ne]
  have gone : (after.without head freed).contains head = false := by simp [contains_without]
  refine ⟨evicts.evicted.without stored oldest.unpinned, ?_, ?_, ?_, ?_⟩
  · refine List.Sublist.trans ?_ evicts.sublist
    simp [without, order]
  · intro other missing
    simp [contains_without, evicts.fresh other missing]
  · intro other mine inside
    by_cases same : other = head
    · exact .inr (same ▸ counted (same ▸ mine))
    · rw [others other same]
      exact evicts.lost other mine inside
  · rcases evicts.outcome with ⟨size, kept⟩ | ⟨tight, other, needed, missing⟩
    · by_cases mine : head ∈ keys
      · have used : after.spare keys = 0 := by
          have all : (head :: tail).filter (· ∉ keys) = [] := by
            simpa [filter_eq_nil_iff, mine] using fun other mem => (before.1 other mem).1 mine
          rw [spare, order, all]
          rfl
        have capacity := evicts.evicted.capacity
        exact .inr ⟨by omega, head, counted mine, gone⟩
      · have freeing := spare_without evicts.evicted.sound order mine stored
        have smaller : (after.without head freed).currsize = after.currsize - freed := rfl
        refine .inl ⟨by omega, fun other used inside => ?_⟩
        rw [others other (fun same => mine (same ▸ used))]
        exact kept other used inside
    · exact .inr ⟨tight, other, needed, by simp [contains_without, missing]⟩

theorem Midway.makeRoom (ends : cache.RoomEnds bytes (after, none)) :
    Evicts keys rest bytes cache after ∧ after.currsize + bytes ≤ after.capacity := by
  have start : Evicts keys rest bytes cache cache := ⟨.refl midway.sound, .refl _,
    fun _ missing => missing, fun _ _ inside => .inl inside, .inl ⟨rfl, fun _ _ inside => inside⟩⟩
  obtain ⟨evicts, ⟨-, done⟩ | ⟨e, raised, -⟩⟩ :=
    ends.invariant (Evicts keys rest bytes cache) (fun _ _ => Evicts.step midway absent) start
  · exact ⟨evicts, by simpa [overfull] using done⟩
  · cases raised

end

theorem Evicts.stored (value : V) (midway : Midway keys ((key, some given) :: rest) cache)
    (evicts : Evicts keys rest bytes cache after) (room : after.currsize + bytes ≤ after.capacity) :
    Served keys rest key cache (after.store key value bytes) := by
  refine ⟨evicts.evicted.sound.store (.inl room), ?_, ?_, ⟨_, touch_order,
    (erase_sublist ..).trans evicts.sublist, evicts.evicted.sound.nodup.not_mem_erase⟩,
    by simp [contains_store], ?_, ?_, ?_⟩
  · rw [store, touch_eq]
    exact evicts.evicted.pinnedItems.trans midway.unpinned
  · rw [store, touch_eq]
    exact evicts.evicted.getsizeof
  · intro other ne inside
    rw [contains_store, decide_eq_false ne, Bool.false_or] at inside
    by_contra missing
    rw [evicts.fresh other (by simpa using missing)] at inside
    cases inside
  · intro other mine inside
    rw [contains_store, Bool.or_eq_true]
    exact (evicts.lost other mine inside).imp_left .inr
  · intro other ne
    rw [mem_store, contains_store, ← evicts.evicted.unstored other]
    simp [ne]

/-- The sizes of what is inserted: the first item passed for each key that is not stored. -/
def inserted (size : A → Nat) : (String → Bool) → List (String × Option A) → Nat
  | _, [] => 0
  | stored, (_, none) :: rest => inserted size stored rest
  | stored, (key, some given) :: rest =>
    if stored key then inserted size stored rest
    else size given + inserted size (Function.update stored key true) rest

theorem inserted_congr (same : ∀ entry ∈ rest, one entry.1 = two entry.1) :
    inserted size one rest = inserted size two rest := by
  induction rest generalizing one two with
  | nil => rfl
  | cons entry rest ih =>
    have later := fun other mem => same other (mem_cons_of_mem entry mem)
    obtain ⟨key, item⟩ := entry
    cases item with
    | none => exact ih later
    | some given =>
      simp only [inserted, same _ (mem_cons_self ..), ih later]
      congr 2
      apply ih
      intro other mem
      by_cases own : other.1 = key <;> simp [own, later other mem]

/-- The first item passed for a key that is not stored decides what is inserted for it. -/
theorem inserted_eq
    (first : ∀ key given, stored key = false → rest.find? (fun entry => entry.1 = key) = some
      (key, some given) → size given = sizes key)
    (counted : ∀ key, (key, none) ∈ rest → stored key = true) : ∃ fresh : List String,
    fresh.Nodup ∧ (∀ key ∈ fresh, stored key = false ∧ key ∈ rest.map Prod.fst) ∧
      inserted size stored rest = (fresh.map sizes).sum := by
  induction rest generalizing stored with
  | nil => exact ⟨[], nodup_nil, by simp, rfl⟩
  | cons entry rest ih =>
    obtain ⟨key, item⟩ := entry
    have skip : ∀ other given, other ≠ key → stored other = false →
        rest.find? (fun entry => entry.1 = other) = some (other, some given) →
        size given = sizes other := by
      intro other given ne absent found
      exact first other given absent (by rw [find?_cons_of_neg (by simp [ne.symm]), found])
    have later := fun other mem => counted other (mem_cons_of_mem (key, item) mem)
    by_cases inside : stored key = true
    · obtain ⟨fresh, nodup, missing, total⟩ := @ih stored
        (fun other given absent => skip other given (fun same => by simp [same, inside] at absent) absent)
        later
      refine ⟨fresh, nodup, fun other mem => ⟨(missing other mem).1,
        mem_cons_of_mem _ (missing other mem).2⟩, ?_⟩
      cases item <;> simp [inserted, inside, total]
    · cases item with
      | none => exact absurd (counted key (mem_cons_self ..)) inside
      | some given =>
        obtain ⟨fresh, nodup, missing, total⟩ := @ih (Function.update stored key true)
          (fun other given absent => by
            have ne : other ≠ key := by
              rintro rfl
              simp at absent
            exact skip other given ne (by simpa [ne] using absent))
          (fun other mem => by
            by_cases same : other = key <;> simp [same, later other mem])
        have new : ∀ other ∈ fresh, other ≠ key := by
          rintro other mem rfl
          simpa using (missing other mem).1
        refine ⟨key :: fresh, nodup_cons.mpr ⟨fun mem => new key mem rfl, nodup⟩, ?_, ?_⟩
        · refine forall_mem_cons.mpr ⟨⟨by simpa using inside, by simp⟩, fun other mem => ?_⟩
          obtain ⟨absent, used⟩ := missing other mem
          exact ⟨by simpa [new other mem] using absent, mem_cons_of_mem _ used⟩
        · rw [inserted, if_neg inside, total, map_cons, sum_cons,
            first key given (by simpa using inside) (by simp)]

/-- Keys that fit together leave room for those of them that are missing. -/
theorem inserted_fits (sound : cache.Sound) (exact : cache.OrderExact)
    (sized : ∀ key, cache.contains key = true → cache.sizeOf key = sizes key)
    (first : ∀ key given, cache.contains key = false → rest.find? (fun entry => entry.1 = key) =
      some (key, some given) → size given = sizes key)
    (counted : ∀ key, (key, none) ∈ rest → cache.contains key = true)
    (fits : ((rest.map Prod.fst).dedup.map sizes).sum ≤ cache.capacity) :
    cache.currsize + inserted size cache.contains rest ≤
      cache.capacity + cache.spare (rest.map Prod.fst) := by
  obtain ⟨fresh, nodup, missing, total⟩ := inserted_eq first counted
  have stored : ∀ key ∈ cache.order, cache.contains key = true := fun key => (exact key).mp
  have used : cache.currsize = (cache.order.map sizes).sum := by
    have perm : cache.entries.keys ~ cache.order := by
      refine (perm_ext_iff_of_nodup cache.entries.nodup sound.nodup).mpr fun key => ?_
      exact Dict.mem_keys.trans (Dict.contains_iff.symm.trans (exact key).symm)
    have total : cache.entries.total (·.2) = (cache.entries.keys.map sizes).sum := by
      simp only [Dict.total, Dict.keys, map_map]
      congr 1
      apply map_congr_left
      intro entry mem
      have found : cache.entries.get? entry.1 = some entry.2 := Dict.get?_eq_some.mpr mem
      have own := sized _ (Dict.contains_iff.mpr ⟨_, found⟩)
      simpa [sizeOf, found] using own
    rw [sound.counted, total, (perm.map sizes).sum_eq]
  have others : cache.spare (rest.map Prod.fst) =
      ((cache.order.filter (· ∉ rest.map Prod.fst)).map sizes).sum := by
    rw [spare, freeable, takeWhile_eq_self_iff.mpr fun key mem => stored key (mem_of_mem_filter mem)]
    congr 1
    exact map_congr_left fun key mem => sized key (stored key (mem_of_mem_filter mem))
  have parts := ((filter_append_perm (· ∈ rest.map Prod.fst) cache.order).map sizes).sum_eq
  rw [map_append, sum_append] at parts
  have subperm : fresh ++ cache.order.filter (· ∈ rest.map Prod.fst) <+~ (rest.map Prod.fst).dedup := by
    refine subperm_of_subset (nodup.append (sound.nodup.filter _) ?_) ?_
    · intro key new mem
      have absent := (missing key new).1
      rw [stored key (mem_of_mem_filter mem)] at absent
      cases absent
    · intro key mem
      rcases mem_append.mp mem with mem | mem
      · exact mem_dedup.mpr (missing key mem).2
      · exact mem_dedup.mpr (by simpa using (mem_filter.mp mem).2)
  obtain ⟨part, perm, sublist⟩ := subperm
  have bound := (sublist.map sizes).sum_le_sum fun _ _ => Nat.zero_le _
  rw [(perm.map sizes).sum_eq, map_append, sum_append] at bound
  simp only [decide_not] at others
  omega

/-- What the request counts on is there, and its insertions fit into what is free or can
be freed among the other keys. -/
def Merges (keys : List String) (size : A → Nat) (rest : List (String × Option A))
    (cache : LRUCache String V) : Prop :=
  (∀ key, (key, none) ∈ rest → cache.contains key = true) ∧
    cache.currsize + inserted size cache.contains rest ≤ cache.capacity + cache.spare keys

theorem merges_hit (mine : key ∈ keys) (inside : cache.contains key = true)
    (order : next.order = (cache.touch key).order) (entries : next.entries = cache.entries)
    (currsize : next.currsize = cache.currsize) (capacity : next.capacity = cache.capacity) :
    Merges keys size ((key, item) :: rest) cache ↔ Merges keys size rest next := by
  have contains : next.contains = cache.contains := by
    funext other
    simp only [contains, entries]
  have inserteds : inserted size cache.contains ((key, item) :: rest) =
      inserted size cache.contains rest := by
    cases item with
    | none => rfl
    | some given => simp [inserted, inside]
  rw [Merges, Merges, inserteds, contains, currsize, capacity,
    spare_touch mine order (fun other _ => by rw [entries])]
  refine and_congr_left fun _ => ⟨fun present other mem => present other (mem_cons_of_mem _ mem),
    fun present other mem => ?_⟩
  rcases mem_cons.mp mem with same | mem
  · cases same
    exact inside
  · exact present other mem

theorem merges_miss (value : V) (midway : Midway keys ((key, some given) :: rest) cache)
    (absent : cache.contains key = false) (evicts : Evicts keys rest (size given) cache after)
    (sized : after.currsize + cache.spare keys = cache.currsize + after.spare keys)
    (kept : ∀ other ∈ keys, cache.contains other = true → after.contains other = true) :
    Merges keys size ((key, some given) :: rest) cache ↔
      Merges keys size rest (after.store key value (size given)) := by
  have mine := fun entry mem => midway.mine entry (mem_cons_of_mem (key, some given) mem)
  have stored : ∀ other ∈ keys, (after.store key value (size given)).contains other =
      Function.update cache.contains key true other := by
    intro other used
    rw [contains_store, Function.update_apply]
    by_cases same : other = key
    · simp [same]
    · cases before : cache.contains other with
      | true => simp [same, kept other used before]
      | false => simp [same, evicts.fresh other before]
  have inserteds : inserted size cache.contains ((key, some given) :: rest) =
      size given + inserted size (after.store key value (size given)).contains rest := by
    rw [inserted, if_neg (by simp [absent])]
    exact congrArg _ (inserted_congr fun entry mem => (stored entry.1 (mine entry mem)).symm)
  have gone : after.entries.get? key = none := by
    simpa [contains, Dict.contains] using evicts.fresh key absent
  have grown : (after.store key value (size given)).currsize = after.currsize + size given := by
    rw [store, touch_eq]
    simp only [gone]
  have capacity : (after.store key value (size given)).capacity = cache.capacity := by
    rw [store, touch_eq]
    exact evicts.evicted.capacity
  have spares : (after.store key value (size given)).spare keys = after.spare keys := by
    have order : (after.store key value (size given)).order = (after.touch key).order := by
      rw [touch_order]
      exact touch_order
    refine spare_touch (midway.mine _ (mem_cons_self ..)) order fun other ne => ?_
    rw [store, touch_entries]
    simp [ne]
  rw [Merges, Merges, inserteds, grown, capacity, spares]
  refine and_congr ⟨fun present other mem => ?_, fun present other mem => ?_⟩ (by omega)
  · rw [stored other (mine _ mem), Function.update_apply]
    split
    · rfl
    · exact present other (mem_cons_of_mem _ mem)
  · have later := (mem_cons.mp mem).resolve_left (by simp)
    have ne : other ≠ key := by
      rintro rfl
      exact midway.picked other given (mem_cons_self ..) mem
    have still := present other later
    rwa [stored other (mine _ later), Function.update_of_ne ne] at still

section Calls
variable {fuel : Nat} {out : B} {outs : List B} {last : LRUCache String V}

theorem get_hit (inside : cache.contains key = true) : ∃ value hits total, cache.get key =
    .ok (some value, { cache with order := (cache.touch key).order, hits := hits, total := total }) := by
  obtain ⟨_, stored⟩ := contains_iff.mp inside
  simp only [get, inside, getItem, baseGetItem, stored, Bool.false_eq_true]
  rw [touch_eq]
  exact ⟨_, _, _, rfl⟩

theorem get_miss (absent : cache.contains key = false) :
    cache.get key = .ok (none, { cache with total := cache.total + 1 }) := by
  simp [get, absent]

theorem Midway.looked (midway : Midway keys rest cache) (hits total : Nat) :
    Midway keys rest { cache with hits := hits, total := total } :=
  have sound := midway.sound
  ⟨{ sound with }, midway.unpinned,
    midway.mine, midway.picked, midway.before, midway.listed⟩

/-- A key that is found is touched, whatever is passed for it. -/
theorem Midway.found (store : A → V) (hit : V → B) (pass : A → B) (size : A → Nat)
    (midway : Midway keys ((key, item) :: rest) cache)
    (inside : cache.contains key = true) : ∃ next out,
      (∀ fuel, cache.getAndUpdateItem store hit pass fuel item key = some (next, .ok out)) ∧
      Served keys rest key cache next ∧
      (Merges keys size ((key, item) :: rest) cache ↔ Merges keys size rest next) := by
  obtain ⟨value, hits, total, got⟩ := get_hit inside
  have sound := midway.sound.touch key
  rw [touch_eq] at sound
  refine ⟨{ cache with order := (cache.touch key).order, hits := hits, total := total }, hit value,
    fun fuel => by simp only [getAndUpdateItem, got],
    ⟨{ sound with }, midway.unpinned,
      rfl, ⟨_, touch_order, erase_sublist .., midway.sound.nodup.not_mem_erase⟩, inside,
      fun _ _ still => still, fun _ _ was => .inl was, fun other ne => ?_⟩,
    merges_hit (midway.mine _ (mem_cons_self ..)) inside rfl rfl rfl rfl⟩
  exact and_congr_left fun _ => mem_touch.trans (or_iff_right ne)

/-- A key that is missing is stored when the loop of `put` ends. -/
theorem Midway.missed (value : V) (midway : Midway keys ((key, some given) :: rest) cache)
    (absent : cache.contains key = false)
    (ends : RoomEnds { cache with total := cache.total + 1 } (size given) (after, none)) :
    Served keys rest key cache (after.store key value (size given)) ∧
      (Merges keys size ((key, some given) :: rest) cache ↔
        Merges keys size rest (after.store key value (size given))) := by
  have looked := midway.looked cache.hits (cache.total + 1)
  obtain ⟨evicts, room⟩ := looked.makeRoom absent ends
  obtain ⟨sound, unpinned, getsizeof, order, inside, fresh, lost, unstored⟩ :=
    evicts.stored value looked room
  refine ⟨⟨sound, unpinned, getsizeof, order, inside, fresh, lost, unstored⟩, ?_⟩
  rcases evicts.outcome with ⟨sized, kept⟩ | ⟨tight, other, needed, missing⟩
  · have iff := merges_miss value looked absent evicts sized kept
    exact iff
  · -- The numbers do not allow it, and a key that is counted on is gone.
    constructor
    · rintro ⟨-, fits⟩
      rw [inserted, if_neg (by simp [absent])] at fits
      have exceeds : cache.currsize + size given > cache.capacity + cache.spare keys := tight
      omega
    · rintro ⟨present, -⟩
      have still := present other needed
      rw [contains_store, missing, Bool.or_false, decide_eq_true_eq] at still
      exact absurd (mem_cons_of_mem _ (still ▸ needed)) (midway.picked key given (mem_cons_self ..))

theorem update_miss (sized : cache.getsizeof (store given) = size given)
    (absent : cache.contains key = false) :
    cache.getAndUpdateItem store hit pass fuel (some given) key =
      if size given > cache.capacity then
        some ({ cache with total := cache.total + 1 }, .error (.valueError "value too large"))
      else match makeRoom fuel { cache with total := cache.total + 1 } (size given) with
      | none => none
      | some (after, some e) => some (after, .error e)
      | some (after, none) => some (after.store key (store given) (size given), .ok (pass given)) := by
  have missing : cache.entries.get? key = none := by
    simpa [contains, Dict.contains] using absent
  simp only [getAndUpdateItem, get_miss absent, put, baseSetItem, sized, needsRoom, missing, if_true]
  by_cases large : size given > cache.capacity
  · simp only [large, if_true]
  · simp only [large, if_false]
    rcases makeRoom fuel { cache with total := cache.total + 1 } (size given) with
      _ | ⟨after, _ | e⟩ <;> rfl

theorem Midway.served (midway : Midway keys ((key, item) :: rest) cache)
    (sized : ∀ given, cache.getsizeof (store given) = size given)
    (ran : cache.getAndUpdateItem store hit pass fuel item key = some (next, .ok out)) :
    Served keys rest key cache next ∧
      (Merges keys size ((key, item) :: rest) cache ↔ Merges keys size rest next) := by
  cases inside : cache.contains key with
  | true =>
    obtain ⟨touched, _, hits, served⟩ := midway.found store hit pass size inside
    rw [hits] at ran
    cases ran
    exact served
  | false =>
    cases item with
    | none => simp [getAndUpdateItem, get_miss inside] at ran
    | some given =>
      rw [update_miss (sized given) inside] at ran
      split at ran
      · cases ran
      split at ran
      · cases ran
      · cases ran
      · rename_i after ended
        cases ran
        exact midway.missed (store given) inside ⟨fuel, ended⟩

theorem takeWhile_foreign {list : List String}
    (ahead : list.Pairwise (fun one two => one ∈ keys → two ∈ keys)) :
    (list.filter (· ∉ keys)).takeWhile p <+ list.takeWhile p := by
  induction list with
  | nil => exact .refl _
  | cons one list ih =>
    rw [pairwise_cons] at ahead
    by_cases mine : one ∈ keys
    · have all : (one :: list).filter (· ∉ keys) = [] := by
        simpa [filter_eq_nil_iff, mine] using fun two mem => ahead.1 two mem mine
      rw [all]
      exact nil_sublist _
    · rw [filter_cons_of_pos (by simpa using mine), takeWhile_cons, takeWhile_cons]
      split
      · exact (ih ahead.2).cons_cons one
      · exact .refl _

theorem Midway.spare_le (midway : Midway keys rest cache) : cache.spare keys ≤ cache.reclaimable := by
  have evictable : cache.reclaimable = cache.freeable cache.order := by
    simp [reclaimable, freeable, midway.unpinned]
  rw [evictable]
  exact ((takeWhile_foreign (midway.before.imp And.left)).map _).sum_le_sum fun _ _ => Nat.zero_le _

theorem Midway.serves (hit : V → B) (pass : A → B) (midway : Midway keys ((key, item) :: rest) cache)
    (sized : ∀ given, cache.getsizeof (store given) = size given)
    (merges : Merges keys size ((key, item) :: rest) cache) : ∃ next out least, ∀ fuel,
      cache.getAndUpdateItem store hit pass fuel item key = some (next, .ok out) ∨
      fuel < least ∧ cache.getAndUpdateItem store hit pass fuel item key = none := by
  cases inside : cache.contains key with
  | true =>
    obtain ⟨next, out, hits, -⟩ := midway.found store hit pass size inside
    exact ⟨next, out, 0, fun fuel => .inl (hits fuel)⟩
  | false =>
    cases item with
    | none =>
      rw [merges.1 key (mem_cons_self ..)] at inside
      cases inside
    | some given =>
      have fits := merges.2
      rw [inserted, if_neg (by simp [inside])] at fits
      have spare := midway.spare_le
      have looked := midway.looked cache.hits (cache.total + 1)
      obtain ⟨after, least, ended⟩ := (roomEnds_iff looked.sound).mpr
        (show cache.currsize + size given ≤ cache.capacity + cache.reclaimable by omega)
      have small : size given ≤ cache.capacity := by
        obtain ⟨evicts, room⟩ := looked.makeRoom inside ⟨least, ended⟩
        have counted := evicts.evicted.sound.counted
        have capacity : after.capacity = cache.capacity := evicts.evicted.capacity
        omega
      refine ⟨after.store key (store given) (size given), pass given, least, fun fuel => ?_⟩
      rw [update_miss (sized given) inside, if_neg (Nat.not_lt.mpr small)]
      by_cases enough : least ≤ fuel
      · rw [LRUCache.makeRoom, loop_mono enough ended]
        exact .inl rfl
      · cases ran : LRUCache.makeRoom fuel { cache with total := cache.total + 1 } (size given) with
        | none => exact .inr ⟨by omega, rfl⟩
        | some result =>
          cases Ends.unique ⟨fuel, ran⟩ ⟨least, ended⟩
          exact .inl rfl

/-- Given what it counts on and the room, a request is merged by every fuel that suffices. -/
theorem Midway.returns (hit : V → B) (pass : A → B) (midway : Midway keys rest cache)
    (sized : ∀ given, cache.getsizeof (store given) = size given)
    (merges : Merges keys size rest cache) : ∃ last outs least, (∀ fuel,
      callAll (fun now entry => getAndUpdateItem store hit pass fuel now entry.2 entry.1) cache rest =
          some (last, .ok outs) ∨ fuel < least ∧ callAll (fun now entry =>
          getAndUpdateItem store hit pass fuel now entry.2 entry.1) cache rest = none) ∧
      last.Sound ∧ last.pinnedItems = [] ∧ ∀ key ∈ last.order, last.contains key = false →
        key ∈ cache.order ∧ cache.contains key = false ∧ key ∉ rest.map Prod.fst := by
  induction rest generalizing cache with
  | nil =>
    exact ⟨cache, [], 0, fun _ => .inl rfl, midway.sound, midway.unpinned,
      fun key listed absent => ⟨listed, absent, not_mem_nil⟩⟩
  | cons entry rest ih =>
    obtain ⟨key, item⟩ := entry
    obtain ⟨next, out, least, serves⟩ := midway.serves hit pass sized merges
    have ran := (serves least).resolve_right fun starved => lt_irrefl _ starved.1
    obtain ⟨served, iff⟩ := midway.served sized ran
    obtain ⟨last, outs, more, returns, sound, unpinned, kept⟩ :=
      ih (midway.later served) (served.getsizeof ▸ sized) (iff.mp merges)
    refine ⟨last, out :: outs, max least more, fun fuel => ?_, sound, unpinned, fun other mem gone => ?_⟩
    · simp only [callAll]
      rcases serves fuel with call | ⟨less, call⟩
      · rw [call]
        rcases returns fuel with later | ⟨less, later⟩ <;> simp only [later]
        · exact .inl trivial
        · exact .inr ⟨by omega, trivial⟩
      · rw [call]
        exact .inr ⟨by omega, rfl⟩
    · obtain ⟨listed, absent, unused⟩ := kept other mem gone
      have ne : other ≠ key := by
        rintro rfl
        rw [served.inside] at absent
        cases absent
      obtain ⟨was, before⟩ := (served.unstored other ne).mp ⟨listed, absent⟩
      exact ⟨was, before, by simpa [ne] using unused⟩

theorem Midway.merges (midway : Midway keys rest cache)
    (sized : ∀ given, cache.getsizeof (store given) = size given)
    (ran : callAll (fun now entry => getAndUpdateItem store hit pass fuel now entry.2 entry.1) cache
      rest = some (last, .ok outs)) : Merges keys size rest cache := by
  induction rest generalizing cache outs with
  | nil =>
    have bounded := midway.sound.bounded
    exact ⟨by simp, by simp only [inserted]; omega⟩
  | cons entry rest ih =>
    obtain ⟨next, out, later, call, returned, rfl⟩ := callAll_cons ran
    obtain ⟨served, iff⟩ := midway.served sized call
    exact iff.mpr (ih (midway.later served) (served.getsizeof ▸ sized) returned)

end Calls

variable {picked : List (String × Option A)}

/-- Touching keys of the request moves them behind all others. -/
theorem touches {list : List String} (sound : cache.Sound) (within : list ⊆ keys) : ∃ order,
    list.foldl touch cache = { cache with order := order } ∧ Sound { cache with order := order } ∧
      order.Pairwise (fun one two => one ∈ list → two ∈ list) ∧
      (∀ key, key ∈ order ↔ key ∈ cache.order ∨ key ∈ list) ∧
      order.filter (· ∉ keys) = cache.order.filter (· ∉ keys) := by
  induction list using List.reverseRecOn with
  | nil => exact ⟨cache.order, rfl, sound, pairwise_of_forall fun _ _ used => (by cases used), by simp, rfl⟩
  | append_singleton list key ih =>
    obtain ⟨order, same, sound, ahead, listed, others⟩ :=
      ih fun other mem => within (mem_append_left _ mem)
    have mine : key ∈ keys := within (mem_append_right _ (mem_singleton_self key))
    have later := sound.touch key
    rw [touch_eq, touch_order] at later
    refine ⟨order.erase key ++ [key], ?_, later, ?_, fun other => ?_, ?_⟩
    · rw [foldl_append, foldl_cons, foldl_nil, same, touch_eq, touch_order]
    · refine pairwise_append.mpr ⟨(ahead.sublist (erase_sublist ..)).imp_of_mem ?_,
        pairwise_singleton .., fun _ _ two last => by simp [mem_singleton.mp last]⟩
      intro one two mem _ together used
      have ne : one ≠ key := fun same => sound.nodup.not_mem_erase (same ▸ mem)
      exact mem_append_left _ (together (by simpa [ne] using used))
    · by_cases same : other = key
      · simp [same]
      · simp [mem_erase_of_ne same, same, listed]
    · rw [filter_append, ← erase_filter, erase_of_not_mem (by simp [mine]), others]
      simp [mine]

/-- The request starts when its keys are touched: `None` stands for those that are found. -/
theorem Midway.start (sound : cache.Sound) (unpinned : cache.pinnedItems = [])
    (consistent : ∀ entry ∈ picked, entry.2 = none ↔ cache.contains entry.1 = true) : ∃ order,
    picked.foldl (fun now entry => now.touch entry.1) cache = { cache with order := order } ∧
      Midway (picked.map Prod.fst) picked { cache with order := order } ∧
      (∀ key, key ∈ order ↔ key ∈ cache.order ∨ key ∈ picked.map Prod.fst) ∧
      order.filter (· ∉ picked.map Prod.fst) = cache.order.filter (· ∉ picked.map Prod.fst) := by
  obtain ⟨order, same, touched, ahead, listed, others⟩ :=
    touches sound (List.Subset.refl (picked.map Prod.fst))
  rw [foldl_map] at same
  refine ⟨order, same, ⟨touched, unpinned, fun entry mem => mem_map_of_mem mem, ?_, ?_, ?_⟩,
    listed, others⟩
  · intro key given passed counted
    cases (consistent _ passed).mpr ((consistent _ counted).mp rfl)
  · refine ahead.imp fun together => ⟨together, fun _ _ _ used inside => ?_⟩
    obtain ⟨entry, mem, rfl⟩ := mem_map.mp used
    have counted := (consistent entry mem).mpr inside
    exact counted ▸ mem
  · intro key given passed _
    exact (listed key).mpr (.inr (mem_map_of_mem (f := Prod.fst) passed))

variable (store : A → V) (hit : V → B) (pass : A → B) (sound : cache.Sound)
  (unpinned : cache.pinnedItems = [])
  (consistent : ∀ entry ∈ picked, entry.2 = none ↔ cache.contains entry.1 = true)
  (sized : ∀ given, cache.getsizeof (store given) = size given)
include sound unpinned consistent sized

/-- A request whose insertions fit is merged. -/
theorem merge_returns (fits : cache.currsize + inserted size cache.contains picked ≤
      cache.capacity + cache.spare (picked.map Prod.fst)) : ∃ last outs least,
    (∀ fuel, callAll (fun now entry => getAndUpdateItem store hit pass fuel now entry.2 entry.1)
        (picked.foldl (fun now entry => now.touch entry.1) cache) picked = some (last, .ok outs) ∨
      fuel < least ∧
        callAll (fun now entry => getAndUpdateItem store hit pass fuel now entry.2 entry.1)
          (picked.foldl (fun now entry => now.touch entry.1) cache) picked = none) ∧
      last.Sound ∧ last.pinnedItems = [] ∧ (cache.OrderExact → last.OrderExact) := by
  obtain ⟨order, same, midway, listed, others⟩ := Midway.start sound unpinned consistent
  have merges : Merges (picked.map Prod.fst) size picked { cache with order := order } := by
    refine ⟨fun key counted => (consistent _ counted).mp rfl, ?_⟩
    rw [spare, others]
    exact fits
  obtain ⟨last, outs, least, returns, lastSound, lastUnpinned, kept⟩ :=
    midway.returns hit pass sized merges
  rw [same]
  refine ⟨last, outs, least, returns, lastSound, lastUnpinned, fun exact => ?_⟩
  refine (orderExact_iff lastSound).mpr fun key mem => ?_
  by_contra absent
  obtain ⟨was, before, unused⟩ := kept key mem (by simpa using absent)
  rcases (listed key).mp was with was | used
  · have inside : cache.contains key = false := before
    rw [(exact key).mp was] at inside
    cases inside
  · exact unused used

/-- A request is merged iff its insertions fit into what is free or can be freed among the
other keys. -/
theorem merge_iff : (∃ fuel last outs,
      callAll (fun now entry => getAndUpdateItem store hit pass fuel now entry.2 entry.1)
        (picked.foldl (fun now entry => now.touch entry.1) cache) picked = some (last, .ok outs)) ↔
      cache.currsize + inserted size cache.contains picked ≤
        cache.capacity + cache.spare (picked.map Prod.fst) := by
  constructor
  · rintro ⟨fuel, last, outs, ran⟩
    obtain ⟨order, same, midway, -, others⟩ := Midway.start sound unpinned consistent
    rw [same] at ran
    have fits := (midway.merges sized ran).2
    rw [spare, others] at fits
    exact fits
  · intro fits
    obtain ⟨last, outs, least, returns, -⟩ :=
      merge_returns store hit pass sound unpinned consistent sized fits
    exact ⟨least, last, outs, (returns least).resolve_right fun less => lt_irrefl _ less.1⟩

end LRUCache

theorem SenderCache.mergeMmKwargs_eq {D I P : Type} (proc : MmProcessor D I P) (fuel : Nat)
    (cache : SenderCache P) (picked : List (String × Option (I × P))) :
    SenderCache.mergeMmKwargs proc fuel cache picked =
      callAll (fun now entry => LRUCache.getAndUpdateItem
        (fun item => ⟨proc.getItemSize item.1, item.2⟩) (fun found => (none, found.promptUpdates))
        (fun item => (some item.1, item.2)) fuel now entry.2 entry.1)
        (picked.foldl (fun now entry => now.touch entry.1) cache) picked := by
  have same : ∀ (now : SenderCache P) mmItem mmHash,
      getAndUpdateItem proc fuel now mmItem mmHash =
        LRUCache.getAndUpdateItem (fun item => ⟨proc.getItemSize item.1, item.2⟩)
          (fun found => (none, found.promptUpdates)) (fun item => (some item.1, item.2)) fuel now
          mmItem mmHash := by
    intro now mmItem mmHash
    simp only [getAndUpdateItem, LRUCache.getAndUpdateItem]
    rcases now.get mmHash with _ | ⟨_ | _, read⟩ <;> rcases mmItem with _ | ⟨item, updates⟩ <;> try rfl
    dsimp only
    rcases read.put fuel mmHash ⟨proc.getItemSize item, updates⟩ with _ | ⟨_, _ | _⟩ <;> rfl
  simp [mergeMmKwargs, same]

/-- A request is merged iff what it inserts fits into what is free or can be freed before
one of its own keys is met. Nothing pins the keys of these caches. -/
theorem merge_completes_iff {D I P : Type} (proc : MmProcessor D I P) :
    (∀ (cache : ProcessorOnlyCache I P) (picked : List (String × Option (I × P))), cache.Sound →
      cache.pinnedItems = [] → (∀ entry ∈ picked, entry.2 = none ↔ cache.contains entry.1 = true) →
      ((∃ fuel last kwargs,
        ProcessorOnlyCache.mergeMmKwargs fuel cache picked = some (last, .ok kwargs)) ↔
        cache.currsize + LRUCache.inserted cache.getsizeof cache.contains picked ≤
          cache.capacity + cache.spare (picked.map Prod.fst))) ∧
    ∀ (cache : SenderCache P) (picked : List (String × Option (I × P))), cache.Sound →
      cache.pinnedItems = [] → cache.getsizeof = (·.itemSize) →
      (∀ entry ∈ picked, entry.2 = none ↔ cache.isCachedItem entry.1 = true) → ((∃ fuel last kwargs,
        SenderCache.mergeMmKwargs proc fuel cache picked = some (last, .ok kwargs)) ↔
        cache.currsize + LRUCache.inserted (fun item => proc.getItemSize item.1) cache.contains
            picked ≤ cache.capacity + cache.spare (picked.map Prod.fst)) := by
  constructor
  · intro cache picked sound unpinned consistent
    exact LRUCache.merge_iff id id id sound unpinned consistent fun _ => rfl
  · intro cache picked sound unpinned measure consistent
    simp only [SenderCache.mergeMmKwargs_eq]
    exact LRUCache.merge_iff _ _ _ sound unpinned consistent fun item => by rw [measure]

def holdsSix : ProcessorOnlyCache Nat Unit :=
  (LRUCache.init 10 Prod.fst).store "A" (6, ()) 6

theorem holdsSix_sound : holdsSix.Sound := (LRUCache.init_sound 10 Prod.fst).store (.inl (by decide))

/-- Items of two and one fit beside it, and the one of six is found. -/
theorem merge_completes_small : ∃ fuel last kwargs, ProcessorOnlyCache.mergeMmKwargs fuel holdsSix
      [("B", some (2, ())), ("A", none), ("C", some (1, ())), ("B", some (2, ()))] =
      some (last, .ok kwargs) :=
  ((merge_completes_iff (D := Unit) ⟨fun _ => (0, ()), id⟩).1 holdsSix _ holdsSix_sound rfl
    (by decide +kernel)).mpr (by decide +kernel)

/-- Another item of six evicts the one that was found, whose turn then finds nothing. -/
theorem merge_evicts_hit : ∃ last,
    ProcessorOnlyCache.mergeMmKwargs 3 holdsSix [("B", some (6, ())), ("A", none), ("B", some (6, ()))] =
      some (last, .error (.assertionError "Expected a cached item for mm_hash='A'")) ∧
    holdsSix.Sound ∧ holdsSix.pinnedItems = [] ∧
    ∀ entry ∈ [("B", some (6, ())), ("A", none), ("B", some (6, ()))],
      entry.2 = none ↔ holdsSix.contains entry.1 = true :=
  ⟨_, rfl, holdsSix_sound, rfl, by decide +kernel⟩

end Vllm
