import Vllm.Mm.LRUBounds

/-! Every sequence of calls of the cache. A call ends, and leaves exactly the stored keys
in the recency order, under a condition on the keys that were touched but not stored. -/
namespace Vllm
open Option

inductive CacheOp (K V : Type) where
  | touch (key : K)
  | get (key : K)
  | put (key : K) (value : V)
  | pop (key : K)
  | pin (key : K)
  | clear
  deriving DecidableEq

namespace LRUCache
open Loop
variable {K V : Type} [DecidableEq K] {cache : LRUCache K V} {key : K}

theorem orderExact_iff (sound : cache.Sound) :
    cache.OrderExact ↔ ∀ key ∈ cache.order, cache.contains key = true :=
  ⟨fun exact key mem => (exact key).mp mem, fun all key => ⟨all key, sound.listed key⟩⟩

section Store
variable {value : V} {size : Nat}

theorem mem_store :
    other ∈ (cache.store key value size).order ↔ other = key ∨ other ∈ cache.order :=
  mem_touch

theorem contains_store (other : K) :
    (cache.store key value size).contains other = (decide (other = key) || cache.contains other) := by
  simp only [store, contains_touch]
  exact Dict.contains_set ..

theorem store_orderExact (sound : cache.Sound) : (cache.store key value size).OrderExact ↔
      ∀ other ∈ cache.order, cache.contains other = true ∨ other = key := by
  simp only [OrderExact, mem_store, contains_store, Bool.or_eq_true, decide_eq_true_eq]
  constructor
  · intro same other mem
    exact ((same other).mp (.inr mem)).symm
  · intro all other
    constructor
    · rintro (same | mem)
      · exact .inl same
      · exact (all other mem).symm
    · rintro (same | stored)
      · exact .inl same
      · exact .inr (sound.listed other stored)

theorem Sound.store (sound : cache.Sound)
    (room : cache.currsize + size ≤ cache.capacity ∨ size ≤ cache.sizeOf key) :
    (cache.store key value size).Sound := by
  have split := cache.entries.total_set key (value, size) (·.2)
  have counted := sound.counted
  have bounded := sound.bounded
  have stored : ∀ other, (cache.entries.set key (value, size)).contains other = true ↔
      other = key ∨ cache.contains other = true := by
    intro other
    rw [Dict.contains_set, Bool.or_eq_true, decide_eq_true_eq]
    rfl
  rw [LRUCache.store, touch_eq]
  refine ⟨nodup_touch key sound.nodup, ?_, ?_, ?_, ?_⟩
  · intro other inside
    rcases (stored other).mp inside with same | inside
    · exact mem_touch.mpr (.inl same)
    · exact mem_touch.mpr (.inr (sound.listed other inside))
  · intro other mem
    exact (stored other).mpr (.inr (sound.pinned other mem))
  · dsimp only
    cases found : cache.entries.get? key with
    | none =>
      rw [found, elim_none] at split
      dsimp only
      omega
    | some entry =>
      rw [found, elim_some] at split
      dsimp only
      omega
  · dsimp only
    unfold sizeOf at room
    cases found : cache.entries.get? key with
    | none =>
      rw [found, elim_none] at room
      dsimp only
      omega
    | some entry =>
      rw [found, elim_some] at room
      dsimp only
      omega

end Store

variable [ToString K] {fuel : Nat} {next : LRUCache K V}

/-- The state after a call. A call that raises is caught by the caller; without enough
fuel there is no state. -/
def exec (fuel : Nat) (cache : LRUCache K V) : CacheOp K V → Except Unit (LRUCache K V)
  | .touch key => .ok (cache.touch key)
  | .get key =>
    match cache.get key with
    | .ok (_, next) => .ok next
    | .error _ => .ok cache
  | .put key value =>
    match cache.put fuel key value with
    | some (next, _) => .ok next
    | none => .error ()
  | .pop key =>
    match cache.pop key with
    | .ok (_, next) => .ok next
    | .error _ => .ok cache
  | .pin key =>
    match cache.pin key with
    | .ok next => .ok next
    | .error _ => .ok cache
  | .clear =>
    match cache.clear fuel with
    | some (next, _) => .ok next
    | none => .error ()

section
variable (cache : LRUCache K V)

def Evictable (size : Nat) : Prop :=
  size ≤ cache.capacity ∧ cache.pinnedSize + size ≤ cache.capacity

def Expected : CacheOp K V → Prop
  | .put _ value => cache.Evictable (cache.getsizeof value)
  | _ => True

def IsAccess : CacheOp K V → Prop
  | .get _ | .put _ _ | .pop _ => True
  | _ => False

/-- What the cache promises about one call. -/
structure Behaves (op : CacheOp K V) : Prop where
  ends : cache.Expected op → ∃ fuel next, exec fuel cache op = .ok next
  exact : IsAccess op → ∀ fuel next, exec fuel cache op = .ok next → next.OrderExact
  bounded : ∀ fuel next, exec fuel cache op = .ok next → next.currsize ≤ next.capacity

/-- Keys that are touched but not stored do no harm to the call: there are none where
the order is read, an insertion may name only its own key, and reaches that key in the
order only after it has evicted enough. -/
def Fits : CacheOp K V → Prop
  | .get _ | .pop _ => ∀ key ∈ cache.order, cache.contains key = true
  | .put key value =>
    if cache.getsizeof value ≤ cache.capacity ∧
        cache.needsRoom key (cache.getsizeof value) = true then
      cache.Evictable (cache.getsizeof value) →
        (∀ other ∈ cache.order, cache.contains other = true ∨ other = key) ∧
        cache.currsize + cache.getsizeof value ≤ cache.capacity + cache.reclaimable
    else ∀ other ∈ cache.order, cache.contains other = true
  | .clear => ∀ key ∈ cache.order.dropWhile cache.contains, cache.contains key = false
  | .touch _ | .pin _ => True

end

section Put
variable {value : V}

section
variable (small : cache.getsizeof value ≤ cache.capacity)
  (room : cache.needsRoom key (cache.getsizeof value) = true)
include small room

theorem put_ok (ran : exec fuel cache (.put key value) = .ok next) :
    ∃ result : LRUCache K V × Option PyError, cache.RoomEnds (cache.getsizeof value) result ∧
      (result.2 = none ∧ next = result.1.store key value (cache.getsizeof value) ∨
        result.2 ≠ none ∧ next = result.1) := by
  simp only [exec, put, baseSetItem, Nat.not_lt.mpr small, room] at ran
  cases ended : cache.makeRoom fuel (cache.getsizeof value) with
  | none =>
    rw [ended] at ran
    cases ran
  | some result =>
    obtain ⟨evicted, error⟩ := result
    refine ⟨(evicted, error), ⟨fuel, ended⟩, ?_⟩
    rw [ended] at ran
    cases error with
    | none =>
      cases ran
      exact .inl ⟨rfl, rfl⟩
    | some e =>
      cases ran
      exact .inr ⟨by simp, rfl⟩

theorem put_returns (ends : cache.RoomEnds (cache.getsizeof value) (evicted, none)) :
    ∃ fuel, exec fuel cache (.put key value) =
      .ok (evicted.store key value (cache.getsizeof value)) := by
  obtain ⟨fuel, ran⟩ := ends
  refine ⟨fuel, ?_⟩
  simp only [exec, put, baseSetItem, Nat.not_lt.mpr small, if_false, room, if_true, makeRoom, ran]

end

theorem put_large (large : cache.capacity < cache.getsizeof value)
    (ran : exec fuel cache (.put key value) = .ok next) : next = cache := by
  simp only [exec, put, baseSetItem, large] at ran
  cases ran
  rfl

theorem put_kept (small : cache.getsizeof value ≤ cache.capacity)
    (kept : cache.needsRoom key (cache.getsizeof value) = false) :
    exec fuel cache (.put key value) = .ok (cache.store key value (cache.getsizeof value)) := by
  simp only [exec, put, baseSetItem, Nat.not_lt.mpr small, if_false, kept, Bool.false_eq_true]

omit [ToString K] in
theorem stored_of_kept (kept : cache.needsRoom key size = false) :
    cache.contains key = true ∧ size ≤ cache.sizeOf key := by
  unfold needsRoom at kept
  cases found : cache.entries.get? key with
  | none =>
    rw [found] at kept
    cases kept
  | some entry =>
    rw [found] at kept
    refine ⟨Dict.contains_iff.mpr ⟨_, found⟩, ?_⟩
    simp only [sizeOf, found, elim_some]
    simpa using kept

theorem put_sound (sound : cache.Sound) (ran : exec fuel cache (.put key value) = .ok next) :
    next.Sound := by
  by_cases small : cache.getsizeof value ≤ cache.capacity
  · cases room : cache.needsRoom key (cache.getsizeof value) with
    | false =>
      rw [put_kept small room] at ran
      cases ran
      exact sound.store (.inr (stored_of_kept room).2)
    | true =>
      obtain ⟨_, ends, final⟩ := put_ok small room ran
      obtain ⟨evicted, last⟩ := ends.evicted sound
      rcases final with ⟨none, rfl⟩ | ⟨some, rfl⟩
      · rcases last with ⟨_, fits⟩ | ⟨some, _⟩
        · exact evicted.sound.store (.inl fits)
        · exact absurd none some
      · exact evicted.sound
  · rw [put_large (Nat.lt_of_not_le small) ran]
    exact sound

/-- An insertion that is expected to end does iff what eviction can free suffices. -/
theorem put_ends_iff (sound : cache.Sound) (evictable : cache.Evictable (cache.getsizeof value))
    (room : cache.needsRoom key (cache.getsizeof value) = true) :
    (∃ fuel next, exec fuel cache (.put key value) = .ok next) ↔
      cache.currsize + cache.getsizeof value ≤ cache.capacity + cache.reclaimable := by
  rw [← roomEnds_iff sound]
  constructor
  · rintro ⟨fuel, next, ran⟩
    obtain ⟨⟨after, _⟩, ends, _⟩ := put_ok evictable.1 room ran
    obtain ⟨evicted, last⟩ := ends.evicted sound
    rcases last with ⟨none, _⟩ | ⟨_, exceeds, pinned⟩
    · dsimp only at none
      subst none
      exact ⟨after, ends⟩
    · have full := pinnedSize_allPinned evicted.sound pinned
      rw [evicted.pinnedSize] at full
      have limit := evictable.2
      rw [evicted.capacity] at exceeds
      omega
  · rintro ⟨after, ends⟩
    obtain ⟨fuel, ran⟩ := put_returns evictable.1 room ends
    exact ⟨fuel, _, ran⟩

/-- An insertion behaves iff it fits. -/
theorem put_behaves_iff (sound : cache.Sound) :
    cache.Behaves (.put key value) ↔ cache.Fits (.put key value) := by
  by_cases small : cache.getsizeof value ≤ cache.capacity
  · cases room : cache.needsRoom key (cache.getsizeof value) with
    | false =>
      have stored := (stored_of_kept room).1
      simp only [Fits, room, Bool.false_eq_true, and_false]
      have same : (cache.store key value (cache.getsizeof value)).OrderExact ↔
          ∀ other ∈ cache.order, cache.contains other = true := by
        rw [store_orderExact sound]
        apply forall₂_congr
        intro other _
        constructor
        · rintro (inside | rfl)
          · exact inside
          · exact stored
        · exact .inl
      constructor
      · intro behaves
        exact same.mp (behaves.exact trivial 0 _ (put_kept small room))
      · intro all
        refine ⟨fun _ => ⟨0, _, put_kept small room⟩, fun _ fuel next ran => ?_,
          fun fuel next ran => (put_sound sound ran).bounded⟩
        rw [put_kept small room] at ran
        cases ran
        exact same.mpr all
    | true =>
      simp only [Fits, small, room, and_self, if_true]
      have unstored : ∀ {result : LRUCache K V × Option PyError},
          Evicted cache result.1 →
          ((∀ other ∈ result.1.order, result.1.contains other = true ∨ other = key) ↔
            ∀ other ∈ cache.order, cache.contains other = true ∨ other = key) := by
        intro result evicted
        apply forall_congr'
        intro other
        have same := evicted.unstored other
        by_cases own : other = key
        · simp [own]
        · simp only [own]
          grind
      constructor
      · intro behaves evictable
        have fits := (put_ends_iff sound evictable room).mp (behaves.ends evictable)
        refine ⟨?_, fits⟩
        obtain ⟨after, ends⟩ := (roomEnds_iff sound).mpr fits
        obtain ⟨fuel, ran⟩ := put_returns small room ends
        obtain ⟨evicted, _⟩ := ends.evicted sound
        have exact := behaves.exact trivial fuel _ ran
        exact (unstored evicted).mp ((store_orderExact evicted.sound).mp exact)
      · intro fits
        refine ⟨?_, ?_, fun fuel next ran => (put_sound sound ran).bounded⟩
        · exact fun evictable => (put_ends_iff sound evictable room).mpr (fits evictable).2
        · intro _ fuel next ran
          obtain ⟨result, ends, final⟩ := put_ok small room ran
          obtain ⟨evicted, last⟩ := ends.evicted sound
          rcases last with ⟨none, under⟩ | ⟨some, _, pinned⟩
          · rcases final with ⟨_, rfl⟩ | ⟨some, _⟩
            · have least := pinnedSize_le evicted.sound
              rw [evicted.pinnedSize] at least
              rw [evicted.capacity] at under
              have evictable : cache.Evictable (cache.getsizeof value) := ⟨small, by omega⟩
              exact (store_orderExact evicted.sound).mpr
                ((unstored evicted).mpr (fits evictable).1)
            · exact absurd none some
          · rcases final with ⟨none, _⟩ | ⟨_, rfl⟩
            · exact absurd none some
            · exact (orderExact_iff evicted.sound).mpr
                (fun other mem => evicted.sound.pinned other (pinned other mem))
  · simp only [Fits, small, false_and]
    rw [← orderExact_iff sound]
    have large := Nat.lt_of_not_le small
    constructor
    · intro behaves
      have ran : exec 0 cache (.put key value) = .ok cache := by
        simp only [exec, put, baseSetItem, large, if_true]
      exact behaves.exact trivial 0 _ ran
    · intro exact
      refine ⟨fun expected => absurd expected.1 small, fun _ fuel next ran => ?_,
        fun fuel next ran => (put_sound sound ran).bounded⟩
      rw [put_large large ran]
      exact exact

end Put

section Calls

variable (sound : cache.Sound)
include sound

theorem get_ok (key : K) : ∃ value next, cache.get key = .ok (value, next) ∧
    next.Sound ∧ (next.OrderExact ↔ cache.OrderExact) := by
  unfold get
  cases stored : cache.entries.get? key with
  | none =>
    simp only [contains_of_none stored, Bool.false_eq_true, if_false]
    exact ⟨_, _, rfl, { sound with },
      Iff.rfl⟩
  | some entry =>
    have inside : cache.contains key = true := Dict.contains_iff.mpr ⟨_, stored⟩
    simp only [inside, if_true, getItem, baseGetItem, stored, Bool.false_eq_true, if_false, Py.ok_bind]
    have touched := sound.touch key
    refine ⟨_, _, rfl, { touched with }, ?_⟩
    apply forall_congr'
    intro other
    have same : other ∈ (cache.touch key).order ↔ other ∈ cache.order := by
      rw [mem_touch]
      constructor
      · rintro (rfl | mem)
        · exact sound.listed _ inside
        · exact mem
      · exact .inr
    have inside : (cache.touch key).contains other = true ↔ cache.contains other = true := by
      rw [contains_touch]
    exact iff_congr same inside

theorem pop_ok (key : K) : ∃ value next, cache.pop key = .ok (value, next) ∧
    next.Sound ∧ (next.OrderExact ↔ cache.OrderExact) := by
  rcases pop_cases sound key with ⟨_, popped⟩ | ⟨value, _, stored, popped⟩
  · exact ⟨_, _, popped, sound, Iff.rfl⟩
  · have inside : cache.contains key = true := Dict.contains_iff.mpr ⟨_, stored⟩
    refine ⟨_, _, popped, sound.without stored, ?_⟩
    rw [orderExact_iff (sound.without stored), orderExact_iff sound]
    constructor
    · intro all other mem
      by_cases same : other = key
      · rw [same]
        exact inside
      · have := all other ((List.mem_erase_of_ne same).mpr mem)
        rw [contains_without, Bool.and_eq_true] at this
        exact this.2
    · intro all other mem
      have ne : other ≠ key := by
        rintro rfl
        exact sound.nodup.not_mem_erase mem
      rw [contains_without, all other (List.mem_of_mem_erase mem), Bool.and_true]
      exact decide_eq_true ne

theorem pin_sound (pinned : cache.pin key = .ok next) : next.Sound := by
  unfold pin at pinned
  split at pinned
  · rename_i inside
    cases pinned
    refine { sound with pinned := ?_ }
    intro other mem
    rcases List.mem_insert_iff.mp mem with rfl | mem
    · exact inside
    · exact sound.pinned other mem
  · cases pinned

theorem clear_ok (ran : exec fuel cache .clear = .ok next) :
    next.Sound ∧ ∃ result, cache.ClearEnds result := by
  simp only [exec, clear] at ran
  cases ended : loop nonempty (removeOldest · true) fuel cache with
  | none =>
    rw [ended] at ran
    cases ran
  | some result =>
    have ends : cache.ClearEnds result := ⟨fuel, ended⟩
    obtain ⟨emptied, error⟩ := result
    obtain ⟨kept, none⟩ := ends.sound sound
    subst none
    rw [ended] at ran
    cases ran
    exact ⟨{ kept with }, _, ends⟩

theorem clear_returns (ends : cache.ClearEnds result) :
    ∃ fuel next, exec fuel cache .clear = .ok next := by
  obtain ⟨emptied, _⟩ := result
  obtain ⟨_, none⟩ := ends.sound sound
  subst none
  obtain ⟨fuel, ran⟩ := ends
  refine ⟨fuel, { emptied with hits := 0, total := 0, lastInfo := ⟨0, 0⟩ }, ?_⟩
  simp only [exec, clear, ran]

/-- Every call that returns keeps the cache sound. -/
theorem exec_sound (ran : exec fuel cache op = .ok next) : next.Sound := by
  cases op with
  | touch key =>
    cases ran
    exact sound.touch key
  | get key =>
    obtain ⟨value, after, got, kept, _⟩ := get_ok sound key
    simp only [exec, got] at ran
    cases ran
    exact kept
  | put key value => exact put_sound sound ran
  | pop key =>
    obtain ⟨value, after, popped, kept, _⟩ := pop_ok sound key
    simp only [exec, popped] at ran
    cases ran
    exact kept
  | pin key =>
    simp only [exec] at ran
    cases pinned : cache.pin key with
    | error e =>
      rw [pinned] at ran
      cases ran
      exact sound
    | ok after =>
      rw [pinned] at ran
      cases ran
      exact pin_sound sound pinned
  | clear => exact (clear_ok sound ran).1

theorem behaves_iff (op : CacheOp K V) : cache.Behaves op ↔ cache.Fits op := by
  have bounded : ∀ {op : CacheOp K V} (fuel : Nat) (next : LRUCache K V),
      exec fuel cache op = .ok next → next.currsize ≤ next.capacity :=
    fun fuel next ran => (exec_sound sound ran).bounded
  have ordered {op : CacheOp K V} {after : LRUCache K V} (access : IsAccess op)
      (returns : ∀ fuel, exec fuel cache op = .ok after) : cache.Behaves op ↔ after.OrderExact := by
    constructor
    · intro behaves
      exact behaves.exact access 0 after (returns 0)
    · intro exact
      refine ⟨fun _ => ⟨0, after, returns 0⟩, fun _ fuel next ran => ?_, bounded⟩
      rw [returns] at ran
      cases ran
      exact exact
  cases op with
  | touch key => exact ⟨fun _ => trivial, fun _ => ⟨fun _ => ⟨0, _, rfl⟩, False.elim, bounded⟩⟩
  | get key =>
    obtain ⟨value, after, got, kept, same⟩ := get_ok sound key
    simp only [Fits, ← orderExact_iff sound, ← same]
    exact ordered trivial (fun fuel => by simp [exec, got])
  | put key value => exact put_behaves_iff sound
  | pop key =>
    obtain ⟨value, after, popped, kept, same⟩ := pop_ok sound key
    simp only [Fits, ← orderExact_iff sound, ← same]
    exact ordered trivial (fun fuel => by simp [exec, popped])
  | pin key =>
    refine ⟨fun _ => trivial, fun _ => ⟨fun _ => ?_, False.elim, bounded⟩⟩
    cases pinned : cache.pin key with
    | error e => exact ⟨0, cache, by simp [exec, pinned]⟩
    | ok after => exact ⟨0, after, by simp [exec, pinned]⟩
  | clear =>
    simp only [Fits, ← clearEnds_iff sound]
    constructor
    · intro behaves
      obtain ⟨fuel, next, ran⟩ := behaves.ends trivial
      exact (clear_ok sound ran).2
    · rintro ⟨_, ends⟩
      exact ⟨fun _ => clear_returns sound ends, False.elim, bounded⟩

end Calls

def init (capacity : Nat) (getsizeof : V → Nat) : LRUCache K V :=
  { capacity := capacity, getsizeof := getsizeof }

omit [ToString K] in
theorem init_sound (capacity : Nat) (getsizeof : V → Nat) :
    (init capacity getsizeof : LRUCache K V).Sound := by
  refine ⟨List.nodup_nil, ?_, ?_, rfl, Int.natCast_nonneg _⟩
  · intro key stored
    cases stored
  · intro key mem
    cases mem

theorem reached_sound {capacity : Nat} {getsizeof : V → Nat} {ops : List (CacheOp K V)}
    {reached : LRUCache K V} (ran : Run.run (exec fuel)
    (init capacity getsizeof) ops = .ok reached) : reached.Sound := by
  have allowed : Run.AllSteps (exec fuel) (fun _ _ => True) (init capacity getsizeof) ops :=
    Run.allSteps_of_forall _ (fun _ _ _ => trivial)
  exact Run.run_invariant Sound (fun sound _ stepped => exec_sound sound stepped)
    (init_sound capacity getsizeof) allowed ran

theorem lru_behaves_iff (capacity : Nat) (getsizeof : V → Nat) (fuel : Nat)
    (ops : List (CacheOp K V)) (reached : LRUCache K V)
    (ran : Run.run (exec fuel) (init capacity getsizeof) ops = .ok reached) (op : CacheOp K V) :
    reached.Behaves op ↔ reached.Fits op :=
  behaves_iff (reached_sound ran) op

instance (size : Nat) : Decidable (cache.Evictable size) := inferInstanceAs (Decidable (_ ∧ _))

instance (op : CacheOp K V) : Decidable (cache.Fits op) := by
  cases op <;> unfold Fits <;> infer_instance

def twoItems : List (CacheOp String Nat) :=
  [.touch "first", .touch "second", .get "first", .put "first" 2, .get "second"]

theorem lru_behaves_two_items : ∃ reached, Run.run (exec 2) (init 4 id) twoItems = .ok reached ∧
      reached.Behaves (.put "second" 2) := by
  have returns : (Run.run (exec 2) (init 4 id) twoItems).isOk = true := by decide +kernel
  obtain ⟨reached, ran⟩ := Py.ok_of_isOk returns
  have fits : (Run.run (exec 2) (init 4 id) twoItems).toOption.map
      (fun reached => decide (reached.Fits (.put "second" 2))) = some true := by decide +kernel
  rw [ran] at fits
  exact ⟨reached, ran, (lru_behaves_iff 4 id 2 twoItems reached ran (.put "second" 2)).mpr
    (of_decide_eq_true (some.inj fits))⟩

/-- With room for three the second insertion has to evict. It finds its own key, which is
not stored, as the oldest one. -/
theorem put_never_ends : ∃ reached, Run.run (exec 2) (init 3 id) twoItems = .ok reached ∧
      reached.Expected (.put "second" 2) ∧
      ¬∃ fuel next, exec fuel reached (.put "second" 2) = .ok next := by
  have returns : (Run.run (exec 2) (init 3 id) twoItems).isOk = true := by decide +kernel
  obtain ⟨reached, ran⟩ := Py.ok_of_isOk returns
  have state : (Run.run (exec 2) (init 3 id) twoItems).toOption.map
      (fun reached : LRUCache String Nat => decide (reached.Evictable (reached.getsizeof 2) ∧
        reached.needsRoom "second" (reached.getsizeof 2) = true ∧
        ¬reached.currsize + reached.getsizeof 2 ≤ reached.capacity + reached.reclaimable)) =
      some true := by decide +kernel
  rw [ran] at state
  obtain ⟨evictable, room, short⟩ := of_decide_eq_true (some.inj state)
  refine ⟨reached, ran, evictable, ?_⟩
  rw [put_ends_iff (reached_sound ran) evictable room]
  exact short

end LRUCache
end Vllm
