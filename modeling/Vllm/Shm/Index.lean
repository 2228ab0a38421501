import Vllm.Shm.Layout
import Vllm.Shm.ObjectStorage

/-! The index of the writer leads to the chunks that are not freed, and to no other. -/
namespace Vllm.ObjectStorage
open List hiding next
open Dict RingBuffer
variable {V : Type} {store next : ObjectStorage V} {chunks gone kept : List (Chunk V)}
  {chunk : Chunk V}

section
variable (store : ObjectStorage V) (chunks : List (Chunk V))

/-- How often the writer has named the object. -/
def written (id : Nat) : Nat := (store.writerFlag.get? id).getD 0

structure Indices : Prop where
  nodup : (chunks.map (·.id)).Nodup
  keys : ∀ key address id, store.keyIndex.get? key = some (address, id) ↔
    ∃ chunk ∈ chunks, chunk.key = key ∧ chunk.address = address ∧ chunk.id = id
  ids : ∀ id key, store.idIndex.get? id = some key ↔
    ∃ chunk ∈ chunks, chunk.id = id ∧ chunk.key = key
  flags : ∀ id, store.writerFlag.contains id = true ↔ ∃ chunk ∈ chunks, chunk.id = id

structure Indexed : Prop extends
    Indices store chunks where
  layout : store.ringBuffer.Layout chunks

end

section Lookup

variable (indices : Indices store chunks)
include indices

theorem Indices.unique (first : one ∈ chunks)
    (second : two ∈ chunks) (same : one.id = two.id) : one = two :=
  inj_on_of_nodup_map indices.nodup first second same

theorem Indices.key_inj (first : one ∈ chunks)
    (second : two ∈ chunks) (same : one.key = two.key) : one = two := by
  have one' := (indices.keys one.key _ _).mpr ⟨one, first, rfl, rfl, rfl⟩
  have two' := (indices.keys one.key _ _).mpr ⟨two, second, same.symm, rfl, rfl⟩
  rw [one'] at two'
  exact indices.unique first second (congrArg Prod.snd (Option.some.inj two'))

theorem Indices.isCached_iff (key : String) :
    store.isCached key = true ↔ ∃ chunk ∈ chunks, chunk.key = key := by
  rw [isCached, Dict.contains_iff]
  constructor
  · rintro ⟨⟨address, id⟩, found⟩
    obtain ⟨chunk, mem, same, _⟩ := (indices.keys _ _ _).mp found
    exact ⟨chunk, mem, same⟩
  · rintro ⟨chunk, mem, same⟩
    exact ⟨_, (indices.keys key _ _).mpr ⟨chunk, mem, same, rfl, rfl⟩⟩

theorem Indices.key_found (mem : chunk ∈ chunks) :
    store.keyIndex.get? chunk.key = some (chunk.address, chunk.id) :=
  (indices.keys _ _ _).mpr ⟨chunk, mem, rfl, rfl, rfl⟩

theorem Indices.flag_found (mem : chunk ∈ chunks) :
    store.writerFlag.get? chunk.id = some (store.written chunk.id) := by
  obtain ⟨count, found⟩ := contains_iff.mp ((indices.flags _).mpr ⟨chunk, mem, rfl⟩)
  rw [written, found, Option.getD_some]

end Lookup

theorem written_increment (store : ObjectStorage V) (id other : Nat) :
    (store.incrementWriterFlag id).written other =
      if other = id then store.written id + 1 else store.written other := by
  unfold written incrementWriterFlag
  dsimp only
  rw [get?_set]
  split <;> rfl

theorem Indexed.increment (indexed : Indexed store chunks) (mem : chunk ∈ chunks) :
    Indexed (store.incrementWriterFlag chunk.id) chunks := by
  refine ⟨{ indexed with flags := ?_ }, indexed.layout⟩
  intro id
  refine Iff.trans ?_ (indexed.flags id)
  simp only [incrementWriterFlag, contains_set, Bool.or_eq_true, decide_eq_true_eq]
  constructor
  · rintro (same | found)
    · exact (indexed.flags id).mpr ⟨chunk, mem, same.symm⟩
    · exact found
  · exact Or.inr

theorem Indices.forget (indices : Indices store (chunk :: rest)) : Indices { store with
      keyIndex := store.keyIndex.erase chunk.key
      idIndex := store.idIndex.erase chunk.id
      writerFlag := store.writerFlag.erase chunk.id } rest := by
  have nodup := indices.nodup
  rw [map_cons, nodup_cons] at nodup
  have first : chunk ∈ chunk :: rest := mem_cons_self ..
  have otherId : ∀ other ∈ rest, other.id ≠ chunk.id :=
    fun other mem same => nodup.1 (mem_map.mpr ⟨other, mem, same⟩)
  have otherKey : ∀ other ∈ rest, other.key ≠ chunk.key := fun other mem same =>
    otherId other mem (congrArg Chunk.id
      (indices.key_inj (mem_cons_of_mem _ mem) first same))
  refine ⟨nodup.2, ?_, ?_, ?_⟩
  · intro key address id
    rw [Dict.get?_erase]
    by_cases same : key = chunk.key
    · subst same
      rw [if_pos rfl]
      refine iff_of_false (by simp) ?_
      rintro ⟨other, mem, same, _⟩
      exact otherKey other mem same
    · rw [if_neg same, indices.keys, exists_mem_cons_iff]
      exact or_iff_right fun own => same own.1.symm
  · intro id key
    rw [Dict.get?_erase]
    by_cases same : id = chunk.id
    · subst same
      rw [if_pos rfl]
      refine iff_of_false (by simp) ?_
      rintro ⟨other, mem, same, _⟩
      exact otherId other mem same
    · rw [if_neg same, indices.ids, exists_mem_cons_iff]
      exact or_iff_right fun own => same own.1.symm
  · intro id
    simp only [Dict.contains, Dict.get?_erase]
    by_cases same : id = chunk.id
    · subst same
      rw [if_pos rfl]
      refine iff_of_false (by simp) ?_
      rintro ⟨other, mem, same⟩
      exact otherId other mem same
    · rw [if_neg same]
      refine (indices.flags id).trans ?_
      rw [exists_mem_cons_iff]
      exact or_iff_right fun own => same own.symm

theorem forget_ok (indices : Indices store (gone ++ kept)) :
    ∃ next, store.forget (gone.map (·.id)) = .ok next ∧ Indices next kept ∧
      next.ringBuffer = store.ringBuffer ∧ next.nReaders = store.nReaders ∧
      ∀ chunk ∈ kept, next.written chunk.id = store.written chunk.id := by
  induction gone generalizing store with
  | nil => exact ⟨store, rfl, indices, rfl, rfl, fun _ _ => rfl⟩
  | cons chunk rest ih =>
    have mem : chunk ∈ chunk :: rest ++ kept := mem_cons_self ..
    obtain ⟨next, ran, after, ring, readers, flags⟩ := ih (Indices.forget indices)
    have listed := (indices.ids _ _).mpr ⟨chunk, mem, rfl, rfl⟩
    have cached : store.keyIndex.contains chunk.key = true :=
      contains_iff.mpr ⟨_, indices.key_found mem⟩
    have flagged : store.writerFlag.contains chunk.id = true :=
      (indices.flags _).mpr ⟨chunk, mem, rfl⟩
    refine ⟨next, ?_, after, ring, readers, ?_⟩
    · rw [map_cons, ObjectStorage.forget, listed]
      dsimp only
      rw [if_pos cached, if_pos flagged]
      exact ran
    · intro other keptToo
      rw [flags other keptToo]
      have ne : other.id ≠ chunk.id := by
        intro same
        have nodup := indices.nodup
        rw [cons_append, map_cons, nodup_cons] at nodup
        exact nodup.1 (mem_map.mpr ⟨other, mem_append_right _ keptToo, same⟩)
      simp only [written, get?_erase, if_neg ne]

/-- `free_unused` frees chunks whose reader count has reached the bound. -/
theorem Indexed.freeUnused (indexed : Indexed store chunks) :
    ∃ next gone kept, store.freeUnused = .ok next ∧ chunks = gone ++ kept ∧ Indexed next kept ∧
      next.nReaders = store.nReaders ∧
      (∀ chunk ∈ gone, store.written chunk.id * store.nReaders ≤ chunk.count) ∧
      ∀ chunk ∈ kept, next.written chunk.id = store.written chunk.id := by
  have answer : ∀ chunk ∈ chunks,
      store.defaultIsFreeCheck chunk.id (store.ringBuffer.cellOf chunk) =
        .ok (decide (chunk.count ≥ store.written chunk.id * store.nReaders)) := by
    intro chunk mem
    simp only [defaultIsFreeCheck, readerCount, cellOf, Py.ok_bind,
      indexed.flag_found mem]
    rfl
  obtain ⟨ring, gone, kept, freed, rfl, layout, reasons⟩ := indexed.layout.freeBuf
    (fun chunk mem => ⟨_, answer chunk mem⟩) (2 * store.maxObjectSize)
  have indices : Indices { store with ringBuffer := ring } (gone ++ kept) :=
    { indexed with }
  obtain ⟨next, forgot, after, sameRing, readers, flags⟩ := forget_ok indices
  refine ⟨next, gone, kept, ?_, rfl, ⟨after, sameRing ▸ layout⟩, readers, ?_, flags⟩
  · rw [ObjectStorage.freeUnused, freed, Py.ok_bind]
    exact forgot
  · intro chunk mem
    have reason := reasons chunk mem
    rw [answer chunk (mem_append_left _ mem)] at reason
    exact of_decide_eq_true (Except.ok.inj reason)

section Put
variable {key : String}

theorem Indexed.stored (indexed : Indexed store chunks) {address id pos size : Nat}
    (missing : ∀ chunk ∈ chunks, chunk.key ≠ key)
    (layout : (ring.writeBuf address 0 value).Layout (chunks ++ [⟨id, address, pos, size, key,
      value, 0⟩])) : Indexed (store.stored ring key value address id)
        (chunks ++ [⟨id, address, pos, size, key, value, 0⟩]) ∧
      (store.stored ring key value address id).written id = 1 ∧
      ∀ chunk ∈ chunks, (store.stored ring key value address id).written chunk.id =
        store.written chunk.id := by
  have fresh : ∀ chunk ∈ chunks, chunk.id ≠ id := by
    have nodup := layout.nodup
    rw [map_append, nodup_append] at nodup
    intro chunk mem same
    exact nodup.2.2 chunk.id (mem_map_of_mem mem) id (mem_singleton_self _) same
  have unflagged : store.writerFlag.get? id = none := by
    cases found : store.writerFlag.get? id with
    | none => rfl
    | some count =>
      obtain ⟨chunk, mem, same⟩ := (indexed.flags id).mp (Dict.contains_iff.mpr ⟨count, found⟩)
      exact absurd same (fresh chunk mem)
  have flags : ∀ other, (store.stored ring key value address id).writerFlag.get? other =
      if other = id then some 1 else store.writerFlag.get? other := by
    intro other
    show (store.writerFlag.set id ((store.writerFlag.get? id).getD 0 + 1)).get? other = _
    rw [unflagged, Dict.get?_set]
    rfl
  refine ⟨⟨⟨layout.nodup, ?_, ?_, ?_⟩, layout⟩, ?_, ?_⟩
  · intro other address' id'
    symm
    exact get?_set_concat (P := fun (chunk : Chunk V) v => chunk.address = v.1 ∧ chunk.id = v.2)
      (n := (address, id)) (fun key v => indexed.keys key v.1 v.2) missing
      (fun v => by simp [Prod.ext_iff]) other (address', id')
  · intro other key'
    symm
    exact get?_set_concat indexed.ids fresh (fun _ => .rfl) other key'
  · intro other
    rw [Dict.contains, flags]
    simp only [mem_append, mem_singleton, or_and_right, exists_or, exists_eq_left]
    by_cases same : other = id
    · simp [same]
    · rw [if_neg same]
      refine (indexed.flags other).trans ?_
      exact (or_iff_left fun own => same own.symm).symm
  · rw [written, flags, if_pos rfl]
    rfl
  · intro chunk mem
    rw [written, flags, if_neg (fresh chunk mem)]
    rfl

inductive PutOutcome (store : ObjectStorage V) (key : String) (value : V)
    (kept : List (Chunk V)) : ObjectStorage V × Py (Nat × Nat) → Prop where
  | failed {next : ObjectStorage V} {e : PyError} (indexed : Indexed next kept)
      (readers : next.nReaders = store.nReaders)
      (flags : ∀ chunk ∈ kept, next.written chunk.id = store.written chunk.id) :
      PutOutcome store key value kept (next, .error e)
  | stored {next : ObjectStorage V} {address id pos size : Nat}
      (indexed : Indexed next (kept ++ [⟨id, address, pos, size, key, value, 0⟩]))
      (readers : next.nReaders = store.nReaders) (named : next.written id = 1)
      (flags : ∀ chunk ∈ kept, next.written chunk.id = store.written chunk.id) :
      PutOutcome store key value kept (next, .ok (address, id))

theorem PutOutcome.after {freed : ObjectStorage V} {value : V}
    (outcome : PutOutcome freed key value kept result) (readers : freed.nReaders = store.nReaders)
    (flags : ∀ chunk ∈ kept, freed.written chunk.id = store.written chunk.id) :
    PutOutcome store key value kept result := by
  cases outcome with
  | failed indexed readers' flags' =>
    exact .failed indexed (readers'.trans readers)
      (fun chunk mem => (flags' chunk mem).trans (flags chunk mem))
  | stored indexed readers' named flags' =>
    exact .stored indexed (readers'.trans readers) named
      (fun chunk mem => (flags' chunk mem).trans (flags chunk mem))

variable (indexed : Indexed store chunks) (few : chunks.length + 1 < idMax) (value : V)
  (missing : ∀ chunk ∈ chunks, chunk.key ≠ key)
include indexed few missing

theorem Indexed.allocate (bufferSize : Nat) :
    PutOutcome store key value chunks (store.allocate bufferSize key value) := by
  unfold ObjectStorage.allocate
  rcases indexed.layout.allocate few key value with
    ⟨after, e, ran, layout⟩ | ⟨after, address, pos, ran, layout⟩
  · rw [ran]
    exact .failed ⟨{ indexed with }, layout⟩ rfl (fun _ _ => rfl)
  · rw [ran]
    obtain ⟨kept, named, flags⟩ := indexed.stored missing layout
    exact .stored kept rfl named flags

theorem Indexed.put :
    ∃ result gone kept, store.put key value = .ok result ∧ chunks = gone ++ kept ∧
      (∀ chunk ∈ gone, store.written chunk.id * store.nReaders ≤ chunk.count) ∧
      PutOutcome store key value kept result := by
  have uncached : store.isCached key ≠ true := by
    rw [ne_eq, indexed.isCached_iff]
    rintro ⟨chunk, mem, same⟩
    exact missing chunk mem same
  unfold ObjectStorage.put
  rw [if_neg uncached]
  dsimp only
  split
  · exact ⟨_, [], chunks, rfl, rfl, nofun, .failed indexed rfl (fun _ _ => rfl)⟩
  · have first := indexed.allocate few value missing
      (flagBytes + (store.serialize value).1 + (store.serialize value).2)
    split
    · -- The buffer is full.
      rename_i failed message full
      rw [full] at first
      cases first with
      | failed after readers flags =>
        obtain ⟨freed, gone, kept, ran, rfl, left, readers', reasons, flags'⟩ := after.freeUnused
        rw [length_append] at few
        have again := left.allocate (by omega) value
          (fun chunk mem => missing chunk (mem_append_right _ mem))
          (flagBytes + (store.serialize value).1 + (store.serialize value).2)
        rw [ran, Py.ok_bind]
        refine ⟨_, gone, kept, rfl, rfl, ?_, again.after (readers'.trans readers)
          (fun chunk mem => (flags' chunk mem).trans (flags chunk (mem_append_right _ mem)))⟩
        intro chunk mem
        have := reasons chunk mem
        rwa [flags chunk (mem_append_left _ mem), readers] at this
    · exact ⟨_, [], chunks, rfl, rfl, nofun, first⟩

end Put

theorem Indexed.accessBuf (indexed : Indexed store chunks) (mem : chunk ∈ chunks) :
    store.ringBuffer.accessBuf chunk.address = .ok (store.ringBuffer.cellOf chunk) :=
  indexed.layout.cells chunk mem

theorem Indexed.bump (indexed : Indexed store chunks) (mem : chunk ∈ chunks) (count : Nat) :
    Indexed
      { store with ringBuffer := store.ringBuffer.writeBuf chunk.address count chunk.value }
      (chunks.map (bump chunk.id count)) := by
  have layout := indexed.layout.writeCount mem count
  refine ⟨⟨layout.nodup, ?_, ?_, ?_⟩, layout⟩
  · intro key address id
    refine (indexed.keys key address id).trans ?_
    simp only [mem_map, exists_exists_and_eq_and, (bump_same ..).1,
      (bump_same ..).2.1, (bump_same ..).2.2.2.2.1]
  · intro id key
    refine (indexed.ids id key).trans ?_
    simp only [mem_map, exists_exists_and_eq_and, (bump_same ..).1,
      (bump_same ..).2.2.2.2.1]
  · intro id
    refine (indexed.flags id).trans ?_
    simp only [mem_map, exists_exists_and_eq_and, (bump_same ..).1]

end Vllm.ObjectStorage
