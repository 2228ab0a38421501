import Vllm.Shm.Index
import Vllm.Lib.ReaderCount
import Vllm.Lib.Run

/-! One writer and `n` readers of the object storage. The writer touches every hash of a
request and then updates every item; only then the readers get the request, and each
of them touches all address items of it and gets them, at its own speed. -/
namespace Vllm
open List hiding next
open ReaderCount Py Bool ObjectStorage RingBuffer
variable {V P : Type} {n : Nat}

structure AddressItem where
  mmHash : String
  address : Nat
  monotonicId : Nat
  deriving DecidableEq

structure ReaderOp where
  use : Use
  item : AddressItem
  deriving DecidableEq

/-- `touching` and `updating` are what the writer has still to do for its request, and
`sent` holds the address items it has so far. `objects` records the object that was last
put under a hash; the code has no such record. -/
structure ShmSystem (V P : Type) (n : Nat) where
  cache : ShmObjectStoreSenderCache V P
  touching : List String := []
  updating : List (String × Option (V × P)) := []
  sent : List AddressItem := []
  pending : Fin n → List ReaderOp := fun _ => []
  objects : Dict String V := .empty

inductive ShmOp (V P : Type) (n : Nat) where
  | request (mmItems : List (String × Option (V × P)))
  | write
  | read (reader : Fin n)

/-- `get_and_update_features`: first all touches, then all gets. -/
def requestOps (sent : List AddressItem) : List ReaderOp :=
  sent.map (fun item => ⟨.touch, item⟩) ++ sent.map (fun item => ⟨.get, item⟩)

def ReaderOp.perform (op : ReaderOp) (store : ObjectStorage V) : Py (ObjectStorage V) :=
  match op.use with
  | .touch => store.readerTouch op.item.address
  | .get => do
    let (_, read) ← store.get op.item.address op.item.monotonicId
    return read

namespace ShmSystem

variable (state : ShmSystem V P n)

/-- A request whose items are all updated goes to the readers. -/
def finish : ShmSystem V P n :=
  if state.updating.isEmpty then
    { state with pending := fun r => state.pending r ++ requestOps state.sent, sent := [] }
  else state

/-- The writer updates the next item. A request that fails is given up. -/
def update (mmHash : String) (mmItem : Option (V × P)) (rest : List (String × Option (V × P))) :
    Py (ShmSystem V P n) := do
  let (cache, result) ← state.cache.getAndUpdateItem mmItem mmHash
  match result with
  | .error _ => return { state with cache := cache, touching := [], updating := [], sent := [] }
  | .ok (.item _, _) => return finish { state with cache := cache, updating := rest }
  | .ok (.address address monotonicId, _) => return finish { state with
      cache := cache
      updating := rest
      sent := state.sent ++ [⟨mmHash, address, monotonicId⟩]
      objects := match state.cache.shmCache.isCached mmHash, mmItem with
        | false, some (item, _) => state.objects.set mmHash item
        | _, _ => state.objects }

def exec : ShmOp V P n → Py (ShmSystem V P n)
  | .request mmItems =>
    if state.updating.isEmpty then
      .ok { state with touching := mmItems.map Prod.fst, updating := mmItems }
    else .ok state
  | .write =>
    match state.touching, state.updating with
    | mmHash :: rest, _ => .ok { state with
        cache := state.cache.touchSenderCacheItem mmHash, touching := rest }
    | [], (mmHash, mmItem) :: rest => state.update mmHash mmItem rest
    | [], [] => .ok state
  | .read reader =>
    match state.pending reader with
    | [] => .ok state
    | op :: rest => do
      let store ← op.perform state.cache.shmCache
      return { state with
        cache := { state.cache with shmCache := store }
        pending := Function.update state.pending reader rest }

def init (store : ObjectStorage V) : ShmSystem V P n := { cache := { shmCache := store } }

/-- With several readers no new item occurs twice in a request. The counters do not
overflow: there are fewer chunks than ids, and a reader count is small enough to be
increased. -/
def Allowed : ShmOp V P n → Prop
  | .request mmItems => n = 1 ∨
      ((mmItems.map Prod.fst).filter (fun mmHash => !state.cache.shmCache.isCached mmHash)).Nodup
  | .write => state.cache.shmCache.ringBuffer.metadata.size + 1 < idMax
  | .read reader => ∀ op ∈ (state.pending reader).head?, ∀ cell,
      state.cache.shmCache.ringBuffer.accessBuf op.item.address = .ok cell →
        ∀ contents ∈ cell.contents, contents.1 + 1 < idMax

section Invariant
variable {state : ShmSystem V P n} {chunks gone kept : List (Chunk V)} {chunk : Chunk V}

section
variable (state : ShmSystem V P n) (chunks : List (Chunk V))

def Known (item : AddressItem) : Prop :=
  ∃ chunk ∈ chunks, chunk.id = item.monotonicId ∧ chunk.address = item.address ∧
    chunk.key = item.mmHash

def sentOf (sent : List AddressItem) (id : Nat) : Nat := sent.countP (fun item => item.monotonicId = id)

def usesOf (ops : List ReaderOp) (id : Nat) : List Use :=
  (ops.filter (fun op => op.item.monotonicId = id)).map (·.use)

def account (chunk : Chunk V) : Account n where
  written := state.cache.shmCache.written chunk.id
  read := chunk.count
  uses := fun r => usesOf (state.pending r) chunk.id
  touched := (state.updating.map Prod.fst).count chunk.key + sentOf state.sent chunk.id -
    state.touching.count chunk.key
  sent := sentOf state.sent chunk.id

structure Working : Prop where
  indexed : state.cache.shmCache.Indexed chunks
  readers : state.cache.shmCache.nReaders = n
  order : state.touching <:+ state.updating.map Prod.fst
  fresh : n = 1 ∨ ((state.updating.map Prod.fst).filter
    (fun mmHash => !state.cache.shmCache.isCached mmHash)).Nodup
  pending : ∀ r, ∀ op ∈ state.pending r, Known chunks op.item
  sent : ∀ item ∈ state.sent, Known chunks item
  covered : ∀ chunk ∈ chunks, (state.account chunk).Covered
  objects : ∀ chunk ∈ chunks, state.objects.get? chunk.key = some chunk.value

structure Serves : Prop extends
    Working state chunks where
  idle : state.updating = [] → state.sent = []

end

theorem Working.touching_le (working : Working state chunks) (key : String) :
    state.touching.count key ≤ (state.updating.map Prod.fst).count key :=
  working.order.sublist.count_le key

theorem usesOf_requestOps (sent : List AddressItem) (id : Nat) :
    usesOf (requestOps sent) id = batch (sentOf sent id) := by
  unfold usesOf requestOps batch sentOf
  rw [filter_append, map_append, filter_map, filter_map, map_map, map_map, countP_eq_length_filter]
  congr 1 <;> exact map_const' ..

theorem usesOf_append (ops more : List ReaderOp) (id : Nat) :
    usesOf (ops ++ more) id = usesOf ops id ++ usesOf more id := by
  unfold usesOf
  rw [filter_append, map_append]

theorem Working.finish (working : Working state chunks) : Serves state.finish chunks := by
  unfold ShmSystem.finish
  split
  · rename_i done
    have none : state.updating = [] := List.isEmpty_iff.mp done
    have order := working.order
    rw [none, map_nil, suffix_nil] at order
    refine ⟨{ working with pending := ?_, sent := nofun, covered := ?_ }, fun _ => rfl⟩
    · intro r op mem
      rcases mem_append.mp mem with old | new
      · exact working.pending r op old
      · rcases mem_append.mp new with new | new
        all_goals
          obtain ⟨item, isSent, rfl⟩ := mem_map.mp new
          exact working.sent item isSent
    · intro chunk mem
      have same : (state.account chunk).touched = (state.account chunk).sent := by
        simp only [account, none, order, map_nil, count_nil, Nat.zero_add, Nat.sub_zero]
      have delivered := (working.covered chunk mem).deliver same
      convert delivered using 1
      ext1
      · rfl
      · rfl
      · funext r
        simp only [account, usesOf_append, usesOf_requestOps]
      · simp only [account, none, order]
        rfl
      · rfl
  · rename_i more
    refine ⟨working, ?_⟩
    intro none
    exact absurd (List.isEmpty_iff.mpr none) more

theorem Known.mono (known : Known chunks item) (more : ∀ chunk ∈ chunks, chunk ∈ kept) :
    Known kept item := by
  obtain ⟨chunk, mem, same⟩ := known
  exact ⟨chunk, more chunk mem, same⟩

theorem Working.drop (working : Working state chunks) :
    Serves { state with touching := [], updating := [], sent := [] } chunks := by
  refine ⟨⟨working.indexed, working.readers, suffix_refl _, .inr nodup_nil,
    working.pending, nofun, ?_, working.objects⟩, fun _ => rfl⟩
  intro chunk mem
  exact (working.covered chunk mem).drop

theorem Serves.touch (serves : Serves state chunks) (head : state.touching = mmHash :: rest) :
    Serves { state with
      cache := state.cache.touchSenderCacheItem mmHash, touching := rest } chunks := by
  have bound := serves.touching_le
  rw [head] at bound
  have order : rest <:+ state.updating.map Prod.fst := by
    have := serves.order
    rw [head] at this
    exact (suffix_cons ..).trans this
  -- The account of a chunk under another hash stays as it is.
  have other : ∀ chunk : Chunk V, chunk.key ≠ mmHash →
      rest.count chunk.key = state.touching.count chunk.key := by
    intro chunk ne
    rw [head, count_cons_of_ne (symm ne)]
  unfold ShmObjectStoreSenderCache.touchSenderCacheItem ObjectStorage.touch
  cases found : state.cache.shmCache.keyIndex.get? mmHash with
  | none =>
    refine ⟨{ serves with order := order, covered := ?_ }, serves.idle⟩
    intro chunk mem
    have ne : chunk.key ≠ mmHash := by
      rintro rfl
      rw [serves.indexed.key_found mem] at found
      cases found
    have covered := serves.covered chunk mem
    unfold account at covered ⊢
    rw [other chunk ne]
    exact covered
  | some entry =>
    obtain ⟨_, id⟩ := entry
    obtain ⟨touched, inside, rfl, rfl, rfl⟩ := (serves.indexed.keys _ _ _).mp found
    refine ⟨{ serves with indexed := serves.indexed.increment inside, order := order, covered := ?_ }, serves.idle⟩
    intro chunk mem
    have covered := serves.covered chunk mem
    by_cases same : chunk = touched
    · subst same
      have more := covered.touch
      convert more using 1
      have := bound chunk.key
      rw [count_cons_self] at this
      unfold account
      ext1
      · dsimp only
        rw [written_increment, if_pos rfl]
      · rfl
      · rfl
      · dsimp only
        rw [head, count_cons_self]
        omega
      · rfl
    · have differentId : chunk.id ≠ touched.id := fun ids => same (serves.indexed.unique mem inside ids)
      have differentKey : chunk.key ≠ touched.key :=
        fun keys => same (serves.indexed.key_inj mem inside keys)
      convert covered using 1
      unfold account
      dsimp only
      rw [written_increment, if_neg differentId, other chunk differentKey]

section Update
variable {mmHash : String} {mmItem : Option (V × P)} {rest : List (String × Option (V × P))}
  {cache : ShmObjectStoreSenderCache V P}

/-- The hashes that are left do not repeat a new item. -/
theorem Serves.fresh_rest (serves : Serves state chunks)
    (head : state.updating = (mmHash, mmItem) :: rest) {after : String → Bool}
    (more : ∀ other ∈ rest.map Prod.fst, state.cache.shmCache.isCached other = true →
      after other = true) :
    n = 1 ∨ ((rest.map Prod.fst).filter (fun mmHash => !after mmHash)).Nodup := by
  refine serves.fresh.imp_right fun nodup => ?_
  rw [head] at nodup
  have again : (rest.map Prod.fst).filter (fun mmHash => !after mmHash) =
      ((rest.map Prod.fst).filter (fun mmHash => !state.cache.shmCache.isCached mmHash)).filter
        (fun mmHash => !after mmHash) := by
    rw [filter_filter]
    apply filter_congr
    intro other mem
    cases was : state.cache.shmCache.isCached other with
    | false => simp
    | true => simp [more other mem was]
  rw [again]
  exact (nodup.sublist ((sublist_cons_self ..).filter _)).filter _

/-- The hash of a missing item is not cached. -/
theorem Serves.uncached (serves : Serves state chunks)
    (missing : ∀ chunk ∈ chunks, chunk.key ≠ mmHash) :
    state.cache.shmCache.isCached mmHash = false := by
  rw [← not_eq_true, serves.indexed.isCached_iff]
  rintro ⟨chunk, mem, same⟩
  exact missing chunk mem same

theorem sentOf_append (sent : List AddressItem) (item : AddressItem) (id : Nat) :
    sentOf (sent ++ [item]) id = sentOf sent id + if item.monotonicId = id then 1 else 0 := by
  unfold sentOf
  rw [countP_append, countP_singleton]
  simp

theorem Serves.named (serves : Serves state chunks) (touched : state.touching = [])
    (head : state.updating = (mmHash, mmItem) :: rest) (mem : chunk ∈ chunks)
    (key : chunk.key = mmHash)
    (stored : cache.shmCache = state.cache.shmCache.incrementWriterFlag chunk.id) :
    Working { state with
      cache := cache
      updating := rest
      sent := state.sent ++ [⟨mmHash, chunk.address, chunk.id⟩] } chunks := by
  have order : state.touching <:+ rest.map Prod.fst := touched ▸ nil_suffix
  refine ⟨stored ▸ serves.indexed.increment mem, ?_, order, ?_, serves.pending, ?_, ?_,
    serves.objects⟩
  · show cache.shmCache.nReaders = n
    rw [stored]
    exact serves.readers
  · refine serves.fresh_rest head fun other _ was => ?_
    rw [stored]
    exact was
  · intro item inside
    rcases mem_append.mp inside with old | new
    · exact serves.sent item old
    · rw [mem_singleton.mp new]
      exact ⟨chunk, mem, rfl, rfl, key⟩
  · intro other inside
    have covered := serves.covered other inside
    by_cases same : other = chunk
    · subst same
      have more := covered.name
      convert more using 1
      unfold account
      rw [stored, written_increment, if_pos rfl, sentOf_append, if_pos rfl, touched,
        head, map_cons, key, count_cons_self]
      ext1
      · rfl
      · rfl
      · rfl
      · simp only [count_nil]
        omega
      · rfl
    · have differentId : other.id ≠ chunk.id := fun ids => same (serves.indexed.unique inside mem ids)
      have differentKey : other.key ≠ mmHash :=
        fun keys => same (serves.indexed.key_inj inside mem (keys.trans key.symm))
      convert covered using 1
      unfold account
      rw [stored, written_increment, if_neg differentId, sentOf_append,
        if_neg (Ne.symm differentId), head, map_cons,
        count_cons_of_ne (Ne.symm differentKey), add_zero]

/-- No reader waits for a chunk that is freed, and the request does not use it. -/
theorem Serves.unused (serves : Serves state chunks) (positive : 0 < n) (mem : chunk ∈ chunks)
    (free : state.cache.shmCache.written chunk.id * state.cache.shmCache.nReaders ≤ chunk.count) :
    (∀ r, ∀ op ∈ state.pending r, op.item.monotonicId ≠ chunk.id) ∧
      (∀ item ∈ state.sent, item.monotonicId ≠ chunk.id) ∧
      (state.touching = [] → chunk.key ∉ state.updating.map Prod.fst) := by
  rw [serves.readers, Nat.mul_comm] at free
  obtain ⟨uses, touched, sent⟩ := (serves.covered chunk mem).free positive free
  refine ⟨?_, ?_, ?_⟩
  · intro r op mem same
    have nothing : usesOf (state.pending r) chunk.id = [] := uses r
    rw [usesOf, map_eq_nil_iff, filter_eq_nil_iff] at nothing
    exact nothing op mem (decide_eq_true same)
  · intro item mem same
    have zero : sentOf state.sent chunk.id = 0 := sent
    rw [sentOf, countP_eq_zero] at zero
    exact zero item mem (decide_eq_true same)
  · intro done
    have zero : (state.updating.map Prod.fst).count chunk.key + sentOf state.sent chunk.id -
        state.touching.count chunk.key = 0 := touched
    rw [done, count_nil] at zero
    exact count_eq_zero.mp (by omega)

structure Survives (state : ShmSystem V P n) (gone kept : List (Chunk V)) : Prop where
  pending : ∀ r, ∀ op ∈ state.pending r, Known kept op.item
  sent : ∀ item ∈ state.sent, Known kept item
  used : ∀ chunk ∈ gone, chunk.key ∉ state.updating.map Prod.fst

theorem Serves.survives (serves : Serves state (gone ++ kept)) (positive : 0 < n)
    (touched : state.touching = []) (free : ∀ chunk ∈ gone,
      state.cache.shmCache.written chunk.id * state.cache.shmCache.nReaders ≤ chunk.count) :
    Survives state gone kept := by
  have unused := fun chunk mem =>
    serves.unused positive (mem_append_left kept mem) (free chunk mem)
  refine ⟨?_, ?_, fun chunk mem => (unused chunk mem).2.2 touched⟩
  · intro r op mem
    obtain ⟨chunk, inside, same⟩ := serves.pending r op mem
    rcases mem_append.mp inside with inside | inside
    · exact absurd same.1.symm ((unused chunk inside).1 r op mem)
    · exact ⟨chunk, inside, same⟩
  · intro item mem
    obtain ⟨chunk, inside, same⟩ := serves.sent item mem
    rcases mem_append.mp inside with inside | inside
    · exact absurd same.1.symm ((unused chunk inside).2.1 item mem)
    · exact ⟨chunk, inside, same⟩

/-- A chunk that is not the one of the hash is as before. -/
theorem account_rest (head : state.updating = (mmHash, mmItem) :: rest)
    (ne : chunk.key ≠ mmHash)
    (flag : cache.shmCache.written chunk.id = state.cache.shmCache.written chunk.id)
    (sent : List AddressItem) (same : sentOf sent chunk.id = sentOf state.sent chunk.id)
    (objects : Dict String V) : account { state with
      cache := cache, updating := rest, sent := sent, objects := objects } chunk =
        state.account chunk := by
  unfold account
  rw [flag, head, map_cons, count_cons_of_ne (symm ne), same]

section
variable (serves : Serves state (gone ++ kept))
include serves

theorem cached_rest (survives : Survives state gone kept)
    (head : state.updating = (mmHash, mmItem) :: rest) {store : ObjectStorage V}
    (indices : store.Indices chunks) (more : ∀ chunk ∈ kept, chunk ∈ chunks) :
    ∀ other ∈ rest.map Prod.fst, state.cache.shmCache.isCached other = true →
      store.isCached other = true := by
  intro other mem was
  obtain ⟨chunk, inside, rfl⟩ := (serves.indexed.isCached_iff other).mp was
  rcases mem_append.mp inside with inside | inside
  · have used := survives.used chunk inside
    rw [head] at used
    exact absurd (mem_cons_of_mem _ mem) used
  · exact (indices.isCached_iff _).mpr ⟨chunk, more chunk inside, rfl⟩

theorem Serves.unstored (touched : state.touching = [])
    (head : state.updating = (mmHash, mmItem) :: rest) (survives : Survives state gone kept)
    (missing : ∀ chunk ∈ gone ++ kept, chunk.key ≠ mmHash) (indexed : cache.shmCache.Indexed kept)
    (readers : cache.shmCache.nReaders = n) (flags : ∀ chunk ∈ kept,
      cache.shmCache.written chunk.id = state.cache.shmCache.written chunk.id) :
    Working { state with cache := cache, updating := rest } kept := by
  have order : state.touching <:+ rest.map Prod.fst := touched ▸ nil_suffix
  refine ⟨indexed, readers, order, ?_, survives.pending, survives.sent,
    ?_, fun chunk mem => serves.objects chunk (mem_append_right _ mem)⟩
  · exact serves.fresh_rest head
      (cached_rest serves survives head indexed.toIndices (fun _ mem => mem))
  · intro chunk mem
    rw [account_rest head (missing chunk (mem_append_right _ mem)) (flags chunk mem) state.sent
      rfl state.objects]
    exact serves.covered chunk (mem_append_right _ mem)

theorem Serves.stored (positive : 0 < n)
    (touched : state.touching = []) (head : state.updating = (mmHash, mmItem) :: rest)
    (survives : Survives state gone kept) (missing : ∀ chunk ∈ gone ++ kept, chunk.key ≠ mmHash)
    {id : Nat}
    (indexed : cache.shmCache.Indexed (kept ++ [⟨id, address, pos, size, mmHash, value, 0⟩]))
    (readers : cache.shmCache.nReaders = n) (named : cache.shmCache.written id = 1)
    (flags : ∀ chunk ∈ kept, cache.shmCache.written chunk.id = state.cache.shmCache.written
      chunk.id) : Working { state with
        cache := cache
        updating := rest
        sent := state.sent ++ [⟨mmHash, address, id⟩]
        objects := state.objects.set mmHash value }
      (kept ++ [⟨id, address, pos, size, mmHash, value, 0⟩]) := by
  have order : state.touching <:+ rest.map Prod.fst := touched ▸ nil_suffix
  have newId : ∀ chunk ∈ kept, chunk.id ≠ id := by
    have nodup := indexed.nodup
    rw [map_append, nodup_append] at nodup
    intro chunk mem same
    exact nodup.2.2 chunk.id (mem_map_of_mem mem) id (mem_singleton_self _) same
  have unknown : ∀ item, Known kept item → item.monotonicId ≠ id := by
    rintro item ⟨chunk, mem, same, _⟩ new
    exact newId chunk mem (same.trans new)
  refine ⟨indexed, readers, order, ?_, ?_, ?_, ?_, ?_⟩
  · exact serves.fresh_rest head (cached_rest serves survives head indexed.toIndices
      (fun _ mem => mem_append_left _ mem))
  · exact fun r op mem => (survives.pending r op mem).mono (fun _ => mem_append_left _)
  · intro item mem
    rcases mem_append.mp mem with old | new
    · exact (survives.sent item old).mono (fun _ => mem_append_left _)
    · rw [mem_singleton.mp new]
      exact ⟨_, mem_append_right _ (mem_singleton_self _), rfl, rfl, rfl⟩
  · intro chunk mem
    rcases mem_append.mp mem with old | new
    · have same : sentOf (state.sent ++ [⟨mmHash, address, id⟩]) chunk.id =
          sentOf state.sent chunk.id := by
        rw [sentOf_append, if_neg (Ne.symm (newId chunk old)), add_zero]
      rw [account_rest head (missing chunk (mem_append_right _ old)) (flags chunk old) _ same]
      exact serves.covered chunk (mem_append_right _ old)
    · -- The new chunk: nobody has used it, and the request names it once.
      rw [mem_singleton.mp new]
      have unsent : sentOf state.sent id = 0 := by
        rw [sentOf, countP_eq_zero]
        intro item mem same
        exact unknown item (survives.sent item mem) (of_decide_eq_true same)
      have unasked : ∀ r, usesOf (state.pending r) id = [] := by
        intro r
        rw [usesOf, map_eq_nil_iff, filter_eq_nil_iff]
        intro op mem same
        exact unknown op.item (survives.pending r op mem) (of_decide_eq_true same)
      have once : sentOf (state.sent ++ [⟨mmHash, address, id⟩]) id = 1 := by
        rw [sentOf_append, unsent, if_pos rfl]
      refine .new positive unasked rfl named once (serves.fresh.imp_right fun nodup => ?_)
      have uncached := serves.uncached missing
      rw [head, map_cons, filter_cons_of_pos (by simp [uncached]), nodup_cons, mem_filter] at nodup
      have onlyOnce : (rest.map Prod.fst).count mmHash = 0 :=
        count_eq_zero.mpr (fun mem => nodup.1 ⟨mem, by simp [uncached]⟩)
      simp only [account, once, onlyOnce, touched, count_nil]
  · intro chunk mem
    show (state.objects.set mmHash value).get? chunk.key = some chunk.value
    rw [Dict.get?_set]
    rcases mem_append.mp mem with old | new
    · rw [if_neg (missing chunk (mem_append_right _ old))]
      exact serves.objects chunk (mem_append_right _ old)
    · rw [mem_singleton.mp new, if_pos rfl]

end

theorem remember_shmCache (cache : ShmObjectStoreSenderCache V P) (mmHash : String)
    (promptUpdates : P) : (cache.remember mmHash promptUpdates).shmCache = cache.shmCache := by
  unfold ShmObjectStoreSenderCache.remember
  split <;> rfl

theorem Serves.updateCached (serves : Serves state chunks) (touched : state.touching = [])
    (head : state.updating = (mmHash, mmItem) :: rest) (mem : chunk ∈ chunks)
    (key : chunk.key = mmHash) :
    ∃ next, state.update mmHash mmItem rest = .ok next ∧ Serves next chunks := by
  have cached : state.cache.shmCache.isCached mmHash = true :=
    (serves.indexed.isCached_iff mmHash).mpr ⟨chunk, mem, key⟩
  have found := serves.indexed.key_found mem
  rw [key] at found
  unfold update ShmObjectStoreSenderCache.getAndUpdateItem
  rw [if_pos cached]
  dsimp only [getCached]
  rw [found]
  cases state.cache.p0Cache.get? mmHash with
  | none => exact ⟨_, rfl, (serves.named touched head mem key rfl).drop⟩
  | some promptUpdates =>
    refine ⟨_, rfl, ?_⟩
    rw [cached]
    exact (serves.named touched head mem key rfl).finish

theorem Serves.updateMissing (serves : Serves state chunks) (positive : 0 < n)
    (few : chunks.length + 1 < idMax) (touched : state.touching = [])
    (head : state.updating = (mmHash, mmItem) :: rest)
    (missing : ∀ chunk ∈ chunks, chunk.key ≠ mmHash) :
    ∃ next chunks, state.update mmHash mmItem rest = .ok next ∧ Serves next chunks := by
  have uncached := serves.uncached missing
  unfold update ShmObjectStoreSenderCache.getAndUpdateItem
  rw [if_neg (by simp [uncached])]
  cases mmItem with
  | none => exact ⟨_, _, rfl, serves.drop⟩
  | some entry =>
    obtain ⟨item, _⟩ := entry
    obtain ⟨_, gone, kept, ran, rfl, free, outcome⟩ := serves.indexed.put few item missing
    have survives := serves.survives positive touched free
    dsimp only
    rw [ran, ok_bind]
    cases outcome with
    | failed indexed readers flags =>
      rename_i store _
      have working : ∀ cache : ShmObjectStoreSenderCache V P, cache.shmCache = store →
          Working { state with cache := cache, updating := rest } kept := by
        intro cache stored
        refine serves.unstored touched head survives missing (stored ▸ indexed)
          (stored ▸ readers.trans serves.readers) ?_
        rw [stored]
        exact flags
      split
      · rename_i impossible
        cases impossible
      · exact ⟨_, kept, rfl, (working _ rfl).finish⟩
      · exact ⟨_, kept, rfl, (working _ rfl).finish⟩
      · exact ⟨_, kept, rfl, (working _ rfl).drop⟩
    | stored indexed readers named flags =>
      rename_i store address id pos size
      refine ⟨_, kept ++ [⟨id, address, pos, size, mmHash, item, 0⟩], rfl, ?_⟩
      rw [uncached]
      refine (serves.stored positive touched head survives missing ?_ ?_ ?_ ?_).finish
      all_goals rw [remember_shmCache]
      · exact indexed
      · exact readers.trans serves.readers
      · exact named
      · exact flags

end Update

section Read
variable {r : Fin n} {op : ReaderOp} {rest : List ReaderOp}

theorem usesOf_cons (op : ReaderOp) (rest : List ReaderOp) (id : Nat) : usesOf (op :: rest) id =
      if op.item.monotonicId = id then op.use :: usesOf rest id else usesOf rest id := by
  unfold usesOf
  by_cases same : op.item.monotonicId = id
  · rw [filter_cons_of_pos (by simpa using same), map_cons, if_pos same]
  · rw [filter_cons_of_neg (by simpa using same), if_neg same]

/-- The account of a chunk after a reader has done something. -/
theorem account_read (state : ShmSystem V P n) {cache : ShmObjectStoreSenderCache V P}
    (id : chunk.id = old.id) (key : chunk.key = old.key)
    (flag : cache.shmCache.written old.id = state.cache.shmCache.written old.id) :
    account { state with cache := cache, pending := Function.update state.pending r rest } chunk =
      { state.account old with
        uses := Function.update (state.account old).uses r (usesOf rest old.id)
        read := chunk.count } := by
  unfold account
  rw [id, key, flag]
  ext1
  · rfl
  · rfl
  · funext other
    dsimp only
    by_cases same : other = r
    · subst same
      rw [Function.update_self, Function.update_self]
    · rw [Function.update_of_ne same, Function.update_of_ne same]
  · rfl
  · rfl

theorem account_other (head : state.pending r = op :: rest)
    (ne : op.item.monotonicId ≠ chunk.id) : { state.account chunk with
      uses := Function.update (state.account chunk).uses r (usesOf rest chunk.id) } =
        state.account chunk := by
  have same : usesOf rest chunk.id = (state.account chunk).uses r := by
    show _ = usesOf (state.pending r) chunk.id
    rw [head, usesOf_cons, if_neg ne]
  rw [same, Function.update_eq_self]

theorem map_bump_self (unique : ∀ one ∈ chunks, ∀ two ∈ chunks, one.id = two.id → one = two)
    (mem : chunk ∈ chunks) : chunks.map (bump chunk.id chunk.count) = chunks := by
  conv_rhs => rw [← map_id chunks]
  apply map_congr_left
  intro other inside
  unfold bump
  split
  · rename_i same
    rw [unique other inside chunk mem same]
    rfl
  · rfl

/-- A reader has used a chunk, and the reader count of the chunk is now `count`. -/
theorem Serves.used (serves : Serves state chunks) (head : state.pending r = op :: rest)
    (mem : chunk ∈ chunks) (id : chunk.id = op.item.monotonicId) {store : ObjectStorage V}
    {count : Nat} (indexed : store.Indexed (chunks.map (bump chunk.id count)))
    (readers : store.nReaders = state.cache.shmCache.nReaders)
    (keys : store.keyIndex = state.cache.shmCache.keyIndex)
    (flags : store.writerFlag = state.cache.shmCache.writerFlag)
    (covered : Account.Covered { state.account chunk with
      uses := Function.update (state.account chunk).uses r (usesOf rest chunk.id), read := count }) :
    Serves { state with
      cache := { state.cache with shmCache := store }
      pending := Function.update state.pending r rest }
      (chunks.map (bump chunk.id count)) := by
  have known : ∀ item, Known chunks item →
      Known (chunks.map (bump chunk.id count)) item := by
    rintro item ⟨old, inside, same⟩
    obtain ⟨sameId, address, _, _, key, _⟩ := bump_same chunk.id count old
    refine ⟨_, mem_map_of_mem inside, ?_⟩
    rw [sameId, address, key]
    exact same
  have written : ∀ id, store.written id = state.cache.shmCache.written id := by
    intro id
    simp [written, flags]
  refine ⟨⟨indexed, readers.trans serves.readers, serves.order, ?_, ?_,
    fun item sent => known item (serves.sent item sent), ?_, ?_⟩, serves.idle⟩
  · have same : ∀ other, store.isCached other = state.cache.shmCache.isCached other := by
      intro other
      simp [isCached, keys]
    simp only [same]
    exact serves.fresh
  · intro other next inside
    apply known
    dsimp only at inside
    by_cases same : other = r
    · subst same
      rw [Function.update_self] at inside
      exact serves.pending other next (head ▸ mem_cons_of_mem _ inside)
    · rw [Function.update_of_ne same] at inside
      exact serves.pending other next inside
  · intro bumped isBumped
    obtain ⟨old, inside, rfl⟩ := mem_map.mp isBumped
    obtain ⟨sameId, _, _, _, key, _⟩ := bump_same chunk.id count old
    rw [account_read state sameId key (written old.id)]
    by_cases same : old = chunk
    · subst same
      rw [bump, if_pos rfl]
      exact covered
    · have ne : old.id ≠ chunk.id := fun ids => same (serves.indexed.unique inside mem ids)
      have kept : (bump chunk.id count old).count = (state.account old).read := by
        rw [bump, if_neg ne]
        rfl
      have unchanged := account_other head (id ▸ symm ne)
      rw [kept, unchanged]
      exact serves.covered old inside
  · intro bumped isBumped
    obtain ⟨old, inside, rfl⟩ := mem_map.mp isBumped
    obtain ⟨_, _, _, _, key, value⟩ := bump_same chunk.id count old
    rw [key, value]
    exact serves.objects old inside

theorem Serves.read (serves : Serves state chunks) (allowed : state.Allowed (.read r)) :
    ∃ next chunks, state.exec (.read r) = .ok next ∧ Serves next chunks := by
  simp only [exec]
  cases head : state.pending r with
  | nil => exact ⟨_, _, rfl, serves⟩
  | cons op rest =>
    obtain ⟨chunk, mem, id, address, _⟩ := serves.pending r op (head ▸ mem_cons_self ..)
    have cell := serves.indexed.accessBuf mem
    rw [address] at cell
    have small : chunk.count + 1 < idMax := by
      have bound := allowed op (by rw [head]; rfl) _ cell
      exact bound _ rfl
    have fits : int2byte (chunk.count + 1) = .ok (chunk.count + 1) := if_pos small
    have counted : ∀ covered, _ := fun covered => serves.used head mem id
      (serves.indexed.bump mem (chunk.count + 1)) rfl rfl rfl covered
    rw [address] at counted
    have uses : (state.account chunk).uses r = op.use :: usesOf rest chunk.id := by
      show usesOf (state.pending r) chunk.id = _
      rw [head, usesOf_cons, if_pos id.symm]
    have covered := serves.covered chunk mem
    dsimp only [ReaderOp.perform]
    cases use : op.use with
    | touch =>
      rw [use] at uses
      have after := covered.readerTouch uses
      rw [readerTouch, cell]
      dsimp only [readerCount, cellOf, ok_bind]
      by_cases late : chunk.count ≥ state.cache.shmCache.nReaders
      · have late' : n ≤ (state.account chunk).read := serves.readers.symm.trans_le late
        rw [if_pos late'] at after
        rw [if_pos late, setReaderCount, fits]
        exact ⟨_, _, rfl, counted after⟩
      · have early : ¬n ≤ (state.account chunk).read :=
          fun high => late (serves.readers.trans_le high)
        rw [if_neg early] at after
        rw [if_neg late]
        have same := map_bump_self (fun one first two second => serves.indexed.unique first second) mem
        have unchanged : state.cache.shmCache.Indexed
            (chunks.map (bump chunk.id chunk.count)) := same.symm ▸ serves.indexed
        exact ⟨_, _, rfl, serves.used head mem id unchanged rfl rfl rfl after⟩
    | get =>
      rw [use] at uses
      have after := covered.readerGet uses
      rw [ObjectStorage.get, cell, ok_bind, if_neg (by rw [← id]; simp [cellOf])]
      dsimp only [readerCount, cellOf, ok_bind]
      rw [setReaderCount, fits]
      exact ⟨_, _, rfl, counted after⟩

end Read

theorem Serves.exec (serves : Serves state chunks) (positive : 0 < n) (allowed : state.Allowed op) :
    ∃ next chunks, state.exec op = .ok next ∧ Serves next chunks := by
  cases op with
  | request mmItems =>
    simp only [ShmSystem.exec]
    split
    · rename_i idle
      have none : state.updating = [] := List.isEmpty_iff.mp idle
      have order := serves.order
      rw [none, map_nil, suffix_nil] at order
      have unsent := serves.idle none
      refine ⟨_, chunks, rfl, { serves with order := suffix_refl _, fresh := allowed, covered := ?_ }, fun _ => unsent⟩
      intro chunk mem
      convert serves.covered chunk mem using 1
      unfold account
      rw [none, order]
      simp [sentOf]
    · exact ⟨_, _, rfl, serves⟩
  | write =>
    have few : chunks.length + 1 < idMax := by
      rw [← serves.indexed.layout.size]
      exact allowed
    simp only [ShmSystem.exec]
    split
    · rename_i head
      exact ⟨_, _, rfl, serves.touch head⟩
    · rename_i mmHash mmItem rest touched head
      by_cases cached : ∃ chunk ∈ chunks, chunk.key = mmHash
      · obtain ⟨chunk, mem, key⟩ := cached
        obtain ⟨next, ran, after⟩ := serves.updateCached touched head mem key
        exact ⟨next, chunks, ran, after⟩
      · refine serves.updateMissing positive few touched head ?_
        intro chunk mem same
        exact cached ⟨chunk, mem, same⟩
    · exact ⟨_, _, rfl, serves⟩
  | read reader => exact serves.read allowed

end Invariant

variable (maxObjectSize nReaders dataBufferSize : Nat) (positive : 0 < dataBufferSize)
  (serialize : V → Nat × Nat)

def newStorage : ObjectStorage V where
  maxObjectSize := maxObjectSize
  nReaders := nReaders
  serialize := serialize
  ringBuffer := { dataBufferSize := dataBufferSize, dataBufferSize_pos := positive }

theorem init_serves : Serves (init (newStorage maxObjectSize n dataBufferSize positive serialize) :
      ShmSystem V P n) [] := by
  have nothing : ∀ {α : Type} (p : α → Prop), ¬∃ x ∈ ([] : List α), p x := by simp
  refine ⟨⟨⟨⟨nodup_nil, ?_, ?_, ?_⟩, ?_⟩, rfl, suffix_refl _, .inr nodup_nil,
    nofun, nofun, nofun, nofun⟩, fun _ => rfl⟩
  · exact fun _ _ _ => iff_of_false nofun (nothing _)
  · exact fun _ _ => iff_of_false nofun (nothing _)
  · exact fun _ => iff_of_false nofun (nothing _)
  · have some : 0 < idMax := by decide
    exact ⟨some, rfl, rfl, some, fun _ _ => iff_of_false nofun (nothing _),
      ⟨0, Nat.le_refl _, nofun⟩, Nat.zero_le _, fun _ => ⟨rfl, rfl⟩, nofun, nofun⟩

/-- Whatever a reader still has to touch or get is not freed, and holds the object that the
writer has stored under its hash; no operation of a reader raises. -/
theorem objects_outlive_readers (maxObjectSize dataBufferSize : Nat) (positive : 0 < dataBufferSize)
    (serialize : V → Nat × Nat) (readers : 0 < n) (ops : List (ShmOp V P n))
    (allowed : Run.AllSteps exec Allowed
      (init (newStorage maxObjectSize n dataBufferSize positive serialize)) ops) :
    ∃ reached, Run.run exec (init (newStorage maxObjectSize n dataBufferSize positive serialize)) ops =
        .ok reached ∧ ∀ r, ∀ op ∈ reached.pending r,
        reached.cache.shmCache.ringBuffer.metadata.get? op.item.monotonicId = some op.item.address ∧
        ∃ object cell, reached.objects.get? op.item.mmHash = some object ∧
          reached.cache.shmCache.ringBuffer.accessBuf op.item.address = .ok cell ∧
          cell.id = op.item.monotonicId ∧ cell.contents.map Prod.snd = some object := by
  have step : ∀ {state : ShmSystem V P n} {op next}, (∃ chunks, Serves state chunks) →
      Allowed state op → exec state op = .ok next → ∃ chunks, Serves next chunks := by
    rintro state op next ⟨chunks, serves⟩ allowed ran
    obtain ⟨after, chunks, executed, kept⟩ := serves.exec readers allowed
    rw [executed] at ran
    cases ran
    exact ⟨chunks, kept⟩
  have start := init_serves (P := P) (n := n) maxObjectSize dataBufferSize positive serialize
  cases ran : Run.run exec (init (newStorage maxObjectSize n dataBufferSize positive serialize)) ops with
  | error e =>
    obtain ⟨state, op, ⟨chunks, serves⟩, now, raised⟩ :=
      Run.run_error (fun state => ∃ chunks, Serves state chunks) step ⟨[], start⟩ allowed ran
    obtain ⟨after, _, executed, _⟩ := serves.exec readers now
    rw [executed] at raised
    cases raised
  | ok reached =>
    obtain ⟨chunks, serves⟩ := Run.run_invariant (fun state => ∃ chunks, Serves state chunks) step
      ⟨[], start⟩ allowed ran
    refine ⟨reached, rfl, ?_⟩
    intro r op mem
    obtain ⟨chunk, inside, id, address, key⟩ := serves.pending r op mem
    refine ⟨?_, chunk.value, reached.cache.shmCache.ringBuffer.cellOf chunk, ?_, ?_, id, rfl⟩
    · exact (serves.indexed.layout.metadata _ _).mpr ⟨chunk, inside, id, address⟩
    · rw [← key]
      exact serves.objects chunk inside
    · rw [← address]
      exact serves.indexed.accessBuf inside

def textStorage : ObjectStorage String :=
  newStorage 20 nReaders 30 (by decide) (fun text => (text.length, 1))

instance {α : Type} (result : Py α) (Q : α → Prop) [DecidablePred Q] :
    Decidable (∀ value, result = .ok value → Q value) :=
  match result with
  | .error _ => .isTrue nofun
  | .ok value => decidable_of_iff (Q value) (by simp)

instance (state : ShmSystem V P n) (op : ShmOp V P n) : Decidable (state.Allowed op) := by
  cases op <;> unfold Allowed <;> infer_instance

def oneAfterTheOther : List (ShmOp String Unit 2) :=
  [.request [("x", some ("image", ()))], .write, .write, .read 0, .read 1, .read 0, .read 1,
    .request [("y", some ("other", ()))], .write, .write, .read 1]

theorem objects_outlive_two_readers :
    Run.AllSteps exec Allowed (init (textStorage 2)) oneAfterTheOther ∧
    ∃ reached, Run.run exec (init (textStorage 2)) oneAfterTheOther = .ok reached ∧
      ∀ r, ∀ op ∈ reached.pending r,
        reached.cache.shmCache.ringBuffer.metadata.get? op.item.monotonicId =
          some op.item.address := by
  have allowed : Run.AllSteps exec Allowed (init (textStorage 2)) oneAfterTheOther := by
    decide +kernel
  refine ⟨allowed, ?_⟩
  obtain ⟨reached, ran, safe⟩ := objects_outlive_readers 20 30 (by decide)
    (fun text : String => (text.length, 1)) (by decide) oneAfterTheOther allowed
  exact ⟨reached, ran, fun r op mem => (safe r op mem).1⟩

/-- A new item occurs twice. The first reader is done when the second one has touched the
item twice, and both of these touches count although the writer has not counted them. -/
def newItemTwice : List (ShmOp String Unit 2) :=
  [.request [("x", some ("image", ())), ("x", some ("image", ()))], .write, .write, .write, .write,
    .read 0, .read 0, .read 0, .read 0, .read 1, .read 1,
    .request [("y", some ("other", ()))], .write, .write]

theorem object_freed_under_reader :
    (Run.run exec (init (textStorage 2)) newItemTwice).toOption.map (fun reached =>
      (reached.pending 1, reached.cache.shmCache.ringBuffer.metadata.get? 0)) =
      some ([⟨.get, ⟨"x", 0, 0⟩⟩, ⟨.get, ⟨"x", 0, 0⟩⟩, ⟨.touch, ⟨"y", 0, 1⟩⟩,
        ⟨.get, ⟨"y", 0, 1⟩⟩], none) ∧
    Run.run exec (init (textStorage 2)) (newItemTwice ++ [.read 1]) =
      .error (.valueError "Data for address:id '0:0' has been modified or is invalid.") :=
  ⟨by decide +kernel, error_of_raised (by decide +kernel)⟩

end ShmSystem
end Vllm
