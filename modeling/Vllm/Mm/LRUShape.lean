import Vllm.Mm.LRUBounds

/-! What a cache evicts depends on the keys and the sizes only. The shape of a cache is
the cache whose values are their own sizes, and every call keeps two caches of the same
shape alike. -/
namespace Vllm.LRUCache
open Loop Py Dict Option
variable {K V W : Type} [DecidableEq K] {cache : LRUCache K V} {key : K}

def shape (cache : LRUCache K V) : LRUCache K Nat where
  capacity := cache.capacity
  getsizeof := id
  entries := cache.entries.mapValues (fun entry => (entry.2, entry.2))
  currsize := cache.currsize
  order := cache.order
  pinnedItems := cache.pinnedItems

theorem shape_contains (cache : LRUCache K V) (key : K) :
    cache.shape.contains key = cache.contains key := by
  simp only [contains, Dict.contains, shape, get?_mapValues, isSome_map]

theorem shape_touch : (cache.touch key).shape = cache.shape.touch key := by
  unfold touch
  by_cases listed : key ∈ cache.order
  · rw [if_pos listed, if_pos (show key ∈ cache.shape.order from listed)]
    rfl
  · rw [if_neg listed, if_neg (show key ∉ cache.shape.order from listed)]
    rfl

theorem shape_store {value : V} {size : Nat} :
    (cache.store key value size).shape = cache.shape.store key size size := by
  have found : cache.shape.entries.get? key = (cache.entries.get? key).map (fun e => (e.2, e.2)) :=
    get?_mapValues ..
  simp only [store, shape_touch]
  congr 1
  simp only [shape, mapValues_set, LRUCache.mk.injEq, true_and, and_true] at found ⊢
  rw [found]
  cases cache.entries.get? key <;> rfl

theorem shape_needsRoom {size : Nat} : cache.shape.needsRoom key size = cache.needsRoom key size := by
  simp only [needsRoom, shape, get?_mapValues]
  cases cache.entries.get? key <;> rfl

variable [ToString K]

theorem shape_pop : cache.shape.pop key = (cache.pop key).map (fun result =>
    (result.1.map (fun _ => cache.sizeOf key), result.2.shape)) := by
  cases stored : cache.entries.get? key with
  | none =>
    have absent := contains_of_none stored
    rw [pop_absent absent, pop_absent ((shape_contains cache key).trans absent)]
    rfl
  | some entry =>
    obtain ⟨value, size⟩ := entry
    have shaped : cache.shape.entries.get? key = some (size, size) := by
      simp only [shape, get?_mapValues, stored, map_some]
    have own : cache.sizeOf key = size := by simp [sizeOf, stored]
    rw [pop_eq stored, pop_eq shaped, ← shape_touch, ← shape_touch]
    simp only [Except.map, map_some, own, shape, without, mapValues_erase]

theorem shape_evictOldest : cache.shape.evictOldest = cache.evictOldest.map shape := by
  have same : cache.shape.lruKey false = cache.lruKey false := rfl
  simp only [evictOldest, popitem, same]
  cases cache.lruKey false with
  | error e => rfl
  | ok key =>
    simp only [ok_bind, shape_pop]
    cases cache.pop key <;> rfl

theorem shape_put (fuel : Nat) (value : V) : cache.shape.put fuel key (cache.getsizeof value) =
      (cache.put fuel key value).map (fun result => (result.1.shape, result.2)) := by
  have room : cache.shape.makeRoom fuel (cache.getsizeof value) =
      (cache.makeRoom fuel (cache.getsizeof value)).map
        (fun result => (result.1.shape, result.2)) :=
    loop_map shape (fun _ => rfl) (fun _ => shape_evictOldest) fuel cache
  have size : cache.shape.getsizeof (cache.getsizeof value) = cache.getsizeof value := rfl
  have capacity : cache.shape.capacity = cache.capacity := rfl
  simp only [put, baseSetItem, size, capacity, shape_needsRoom, room]
  split
  · rfl
  · split
    · cases cache.makeRoom fuel (cache.getsizeof value) with
      | none => rfl
      | some result =>
        obtain ⟨evicted, error⟩ := result
        cases error with
        | none => simp only [map_some, shape_store]
        | some e => rfl
    · simp only [map_some, shape_store]

theorem get_eq (cache : LRUCache K V) (key : K) : ∃ found next, cache.get key = .ok (found, next) ∧
    found.isSome = cache.contains key ∧ next.getsizeof = cache.getsizeof ∧
    next.shape = if cache.contains key then cache.shape.touch key else cache.shape := by
  unfold get
  cases stored : cache.entries.get? key with
  | none =>
    simp only [contains_of_none stored, Bool.false_eq_true, if_false]
    exact ⟨none, _, rfl, rfl, rfl, rfl⟩
  | some entry =>
    have inside : cache.contains key = true := contains_iff.mpr ⟨_, stored⟩
    simp only [inside, if_true, getItem, baseGetItem, stored, Bool.false_eq_true, if_false, ok_bind]
    refine ⟨some entry.1, _, rfl, rfl, ?_, ?_⟩
    · rw [touch_eq]
    · rw [← shape_touch]
      rfl

theorem evictOldest_getsizeof {next : LRUCache K V} (ran : cache.evictOldest = .ok next) :
    next.getsizeof = cache.getsizeof := by
  obtain ⟨⟨_, popped⟩, step, final⟩ := bind_ok ran
  cases final
  obtain ⟨key, _, step⟩ := bind_ok step
  obtain ⟨⟨value, after⟩, gone, final⟩ := bind_ok step
  cases final
  cases stored : cache.entries.get? key with
  | none =>
    rw [pop_absent (contains_of_none stored)] at gone
    cases gone
    rfl
  | some entry =>
    rw [pop_eq stored] at gone
    cases gone
    rfl

theorem put_getsizeof {value : V} {next : LRUCache K V} {error : Option PyError}
    (ran : cache.put fuel key value = some (next, error)) : next.getsizeof = cache.getsizeof := by
  have stored : ∀ now : LRUCache K V, now.getsizeof = cache.getsizeof →
      (now.store key value (cache.getsizeof value)).getsizeof = cache.getsizeof := by
    intro now same
    rw [store, touch_eq]
    exact same
  simp only [put, baseSetItem] at ran
  split at ran
  · cases ran
    rfl
  · split at ran
    · cases ended : cache.makeRoom fuel (cache.getsizeof value) with
      | none =>
        rw [ended] at ran
        cases ran
      | some result =>
        have ends : Ends (overfull (cache.getsizeof value)) evictOldest cache result :=
          ⟨fuel, ended⟩
        have kept := (ends.invariant (fun now => now.getsizeof = cache.getsizeof)
          (fun now later same _ stepped => (evictOldest_getsizeof stepped).trans same) rfl).1
        obtain ⟨evicted, failed⟩ := result
        rw [ended] at ran
        cases failed with
        | none =>
          cases ran
          exact stored evicted kept
        | some e =>
          cases ran
          exact kept
    · cases ran
      exact stored cache rfl

/-- Two caches that hold the same keys with the same sizes in the same order. -/
def Alike (one : LRUCache K V) (two : LRUCache K W) : Prop := one.shape = two.shape

end Vllm.LRUCache
