import Vllm.Shm.RingBuffer

/-! Where the chunks of the ring buffer lie. Their positions grow along the ring, measured
on a line that does not wrap around; they fill less than one round, so that no two of
them overlap in the memory. -/
namespace Vllm
open List hiding next

structure Chunk (V : Type) where
  id : Nat
  address : Nat
  pos : Nat
  size : Nat
  key : String
  value : V
  count : Nat

namespace RingBuffer
variable {V : Type} {ring next : RingBuffer V} {chunks : List (Chunk V)} {chunk : Chunk V}

/-- The chunks follow one another between two positions. -/
def Placed : Nat → List (Chunk V) → Nat → Prop
  | low, [], high => low ≤ high
  | low, chunk :: rest, high => low ≤ chunk.pos ∧ Placed (chunk.pos + chunk.size) rest high

def idsFrom (start number : Nat) : List Nat := (range number).map (fun i => (start + i) % idMax)

def cellOf (ring : RingBuffer V) (chunk : Chunk V) : Cell V where
  idx := chunk.pos % ring.dataBufferSize
  size := chunk.size
  id := chunk.id
  contents := some (chunk.count, chunk.value)

/-- `rounds` times the buffer has been wrapped around since it was last empty. -/
structure Layout (ring : RingBuffer V) (chunks : List (Chunk V)) : Prop where
  startId : ring.monotonicIdStart < idMax
  ids : chunks.map (·.id) = idsFrom ring.monotonicIdStart chunks.length
  endId : ring.monotonicIdEnd = (ring.monotonicIdStart + chunks.length) % idMax
  few : chunks.length < idMax
  metadata : ∀ id address, ring.metadata.get? id = some address ↔
    ∃ chunk ∈ chunks, chunk.id = id ∧ chunk.address = address
  placed : ∃ rounds,
    Placed (ring.dataBufferStart + rounds * ring.dataBufferSize) chunks
      (ring.dataBufferEnd + rounds * ring.dataBufferSize) ∧
    ∀ chunk ∈ chunks.head?, chunk.pos = ring.dataBufferStart + rounds * ring.dataBufferSize
  room : ring.dataBufferEnd ≤ ring.dataBufferStart + ring.dataBufferSize
  idle : chunks = [] → ring.dataBufferStart = 0 ∧ ring.dataBufferEnd = 0
  inside : ∀ chunk ∈ chunks, chunk.pos % ring.dataBufferSize + chunk.size ≤ ring.dataBufferSize ∧
    0 < chunk.size ∧ chunk.address % ring.dataBufferSize = chunk.pos % ring.dataBufferSize
  cells : ∀ chunk ∈ chunks, ring.accessBuf chunk.address = .ok (ring.cellOf chunk)

section Line
variable {low high : Nat}

section
variable (placed : Placed low chunks high)
include placed

theorem Placed.le : low ≤ high := by
  induction chunks generalizing low with
  | nil => exact placed
  | cons chunk rest ih =>
    have := ih placed.2
    have := placed.1
    omega

theorem Placed.between (mem : chunk ∈ chunks) :
    low ≤ chunk.pos ∧ chunk.pos + chunk.size ≤ high := by
  induction chunks generalizing low with
  | nil => cases mem
  | cons first rest ih =>
    rcases mem_cons.mp mem with rfl | mem
    · exact ⟨placed.1, placed.2.le⟩
    · obtain ⟨_, below⟩ := ih placed.2 mem
      have := placed.1
      exact ⟨by omega, below⟩

theorem Placed.append (after : high ≤ chunk.pos) (before : chunk.pos + chunk.size ≤ higher) :
    Placed low (chunks ++ [chunk]) higher := by
  induction chunks generalizing low with
  | nil => exact ⟨le_trans placed after, before⟩
  | cons first rest ih => exact ⟨placed.1, ih placed.2⟩

theorem Placed.extend (grown : high ≤ higher) : Placed low chunks higher := by
  induction chunks generalizing low with
  | nil => exact le_trans placed grown
  | cons first rest ih => exact ⟨placed.1, ih placed.2⟩

end

/-- Two intervals of one round do not meet in the memory. -/
theorem disjoint_mod (positive : 0 < n) (order : p + s ≤ q) (round : q + z ≤ p + n)
    (nonempty : 0 < z) : p % n + s ≤ q % n ∨ q % n + z ≤ p % n := by
  have splitP := Nat.div_add_mod p n
  have splitQ := Nat.div_add_mod q n
  have upper : q / n ≤ p / n + 1 := by
    rw [← Nat.add_div_right p positive]
    exact Nat.div_le_div_right (by omega)
  have lower : p / n ≤ q / n := Nat.div_le_div_right (by omega)
  rcases Nat.lt_or_ge (p / n) (q / n) with _ | _
  · have next : q / n = p / n + 1 := by omega
    rw [next, Nat.mul_add] at splitQ
    omega
  · have equal : q / n = p / n := by omega
    rw [equal] at splitQ
    omega

end Line

section Ids

theorem idsFrom_succ (start number : Nat) (small : start < idMax) :
    idsFrom start (number + 1) = start :: idsFrom ((start + 1) % idMax) number := by
  unfold idsFrom
  rw [range_succ_eq_map, map_cons, map_map, Nat.add_zero, Nat.mod_eq_of_lt small]
  congr 1
  apply map_congr_left
  intro i _
  simp only [Function.comp, Nat.mod_add_mod]
  congr 1
  omega

theorem idsFrom_append (start number : Nat) :
    idsFrom start (number + 1) = idsFrom start number ++ [(start + number) % idMax] := by
  unfold idsFrom
  rw [range_succ, map_append]
  rfl

theorem idsFrom_nodup (start : Nat) (few : number ≤ idMax) : (idsFrom start number).Nodup := by
  refine List.Nodup.map_on ?_ nodup_range
  intro i first j second same
  rw [mem_range] at first second
  have congruent : i ≡ j [MOD idMax] := Nat.ModEq.add_left_cancel' start same
  rw [Nat.ModEq, Nat.mod_eq_of_lt (by omega), Nat.mod_eq_of_lt (by omega)] at congruent
  exact congruent

variable (layout : Layout ring chunks)
include layout

theorem Layout.nodup : (chunks.map (·.id)).Nodup := by
  rw [layout.ids]
  exact idsFrom_nodup _ (le_of_lt layout.few)

theorem Layout.unique (first : one ∈ chunks)
    (second : two ∈ chunks) (same : one.id = two.id) : one = two :=
  inj_on_of_nodup_map layout.nodup first second same

theorem Layout.size : ring.metadata.size = chunks.length := by
  have perm : ring.metadata.keys.Perm (chunks.map (·.id)) := by
    apply (perm_ext_iff_of_nodup ring.metadata.nodup layout.nodup).mpr
    intro id
    refine Dict.mem_keys.trans ?_
    rw [mem_map]
    constructor
    · rintro ⟨address, found⟩
      obtain ⟨chunk, mem, same, _⟩ := (layout.metadata id address).mp found
      exact ⟨chunk, mem, same⟩
    · rintro ⟨chunk, mem, same⟩
      exact ⟨chunk.address, (layout.metadata id _).mpr ⟨chunk, mem, same, rfl⟩⟩
  have := perm.length_eq
  rwa [Dict.keys, length_map, length_map] at this

theorem Layout.fresh : ring.monotonicIdEnd ∉ chunks.map (·.id) := by
  have longer := idsFrom_nodup ring.monotonicIdStart (Nat.succ_le_of_lt layout.few)
  rw [idsFrom_append, ← layout.ids, ← layout.endId, nodup_append] at longer
  intro mem
  exact longer.2.2 _ mem _ (mem_singleton_self _) rfl

end Ids

theorem find_clobber {memory : List (Cell V)}
    (found : memory.find? (fun cell => cell.idx = place) = some cell)
    (apart : cell.idx + cell.size ≤ idx ∨ idx + size ≤ cell.idx) :
    (clobber memory idx size).find? (fun cell => cell.idx = place) = some cell := by
  obtain ⟨there, before, after, order, none⟩ := find?_eq_some_iff_append.mp found
  rw [clobber, find?_filter]
  refine find?_eq_some_iff_append.mpr ⟨?_, before, after, order, ?_⟩
  · exact decide_eq_true ⟨decide_eq_true apart, there⟩
  · intro other mem
    have ne : other.idx ≠ place := by simpa using none other mem
    simp [ne]

theorem accessBuf_writeBuf (ring : RingBuffer V) (address count : Nat) (value : V) (place : Nat) :
    (ring.writeBuf address count value).accessBuf place =
      if place % ring.dataBufferSize = address % ring.dataBufferSize then
        (ring.accessBuf place).map (fun cell => { cell with contents := some (count, value) })
      else ring.accessBuf place := by
  unfold accessBuf writeBuf
  rw [find?_map]
  have same : ((fun cell : Cell V => decide (cell.idx = place % ring.dataBufferSize)) ∘ fun cell =>
      if cell.idx = address % ring.dataBufferSize then { cell with contents := some (count, value) }
      else cell) = fun cell => decide (cell.idx = place % ring.dataBufferSize) := by
    funext cell
    simp only [Function.comp]
    split <;> rfl
  rw [same]
  cases found : ring.memory.find? (fun cell => cell.idx = place % ring.dataBufferSize) with
  | none =>
    by_cases here : place % ring.dataBufferSize = address % ring.dataBufferSize
    · rw [if_pos here]
      rfl
    · rw [if_neg here]
      rfl
  | some cell =>
    have there : cell.idx = place % ring.dataBufferSize := by simpa using find?_some found
    by_cases here : place % ring.dataBufferSize = address % ring.dataBufferSize
    · rw [if_pos here, Option.map_some, if_pos (there.trans here)]
      rfl
    · rw [if_neg here, Option.map_some, if_neg (fun at_ => here (there.symm.trans at_))]

def bump (id count : Nat) (chunk : Chunk V) : Chunk V :=
  if chunk.id = id then { chunk with count := count } else chunk

theorem bump_same (id count : Nat) (chunk : Chunk V) : (bump id count chunk).id = chunk.id ∧
    (bump id count chunk).address = chunk.address ∧ (bump id count chunk).pos = chunk.pos ∧
    (bump id count chunk).size = chunk.size ∧ (bump id count chunk).key = chunk.key ∧
    (bump id count chunk).value = chunk.value := by
  unfold bump
  split <;> exact ⟨rfl, rfl, rfl, rfl, rfl, rfl⟩

theorem placed_bump {id count : Nat} (placed : Placed low chunks high) :
    Placed low (chunks.map (bump id count)) high := by
  induction chunks generalizing low with
  | nil => exact placed
  | cons chunk rest ih =>
    obtain ⟨_, _, pos, size, _⟩ := bump_same id count chunk
    constructor
    · rw [pos]
      exact placed.1
    · rw [pos, size]
      exact ih placed.2

/-- Two chunks at one place of the memory are the same. -/
theorem Layout.place_inj (layout : Layout ring chunks) (first : one ∈ chunks)
    (second : two ∈ chunks)
    (same : one.address % ring.dataBufferSize = two.address % ring.dataBufferSize) : one = two := by
  have cells := layout.cells one first
  have found : ring.accessBuf one.address = ring.accessBuf two.address := by
    unfold accessBuf
    rw [same]
  rw [found, layout.cells two second] at cells
  exact layout.unique first second (congrArg Cell.id (Except.ok.inj cells)).symm

theorem Layout.writeCount (layout : Layout ring chunks) (mem : chunk ∈ chunks) (count : Nat) :
    Layout (ring.writeBuf chunk.address count chunk.value) (chunks.map (bump chunk.id count)) := by
  obtain ⟨rounds, placed, head⟩ := layout.placed
  have ids : (chunks.map (bump chunk.id count)).map (·.id) = chunks.map (·.id) := by
    rw [map_map]
    exact map_congr_left fun other _ => (bump_same ..).1
  refine ⟨layout.startId, ?_, ?_, ?_, ?_, ⟨rounds, placed_bump placed, ?_⟩, layout.room, ?_, ?_, ?_⟩
  · rw [ids, length_map]
    exact layout.ids
  · rw [length_map]
    exact layout.endId
  · rw [length_map]
    exact layout.few
  · intro id address
    refine (layout.metadata id address).trans ?_
    simp [(bump_same ..).1, (bump_same ..).2.1]
  · intro other first
    rw [head?_map] at first
    obtain ⟨old, isHead, rfl⟩ := Option.map_eq_some_iff.mp first
    rw [(bump_same ..).2.2.1]
    exact head old isHead
  · intro none
    exact layout.idle (map_eq_nil_iff.mp none)
  · intro other mem'
    obtain ⟨old, inside, rfl⟩ := mem_map.mp mem'
    obtain ⟨_, address, pos, size, _⟩ := bump_same chunk.id count old
    rw [address, pos, size]
    exact layout.inside old inside
  · intro other mem'
    obtain ⟨old, inside, rfl⟩ := mem_map.mp mem'
    rw [(bump_same ..).2.1, accessBuf_writeBuf, layout.cells old inside]
    by_cases same : old = chunk
    · subst same
      rw [if_pos rfl, bump, if_pos rfl]
      rfl
    · have ne : old.id ≠ chunk.id := fun ids => same (layout.unique inside mem ids)
      rw [if_neg fun place => same (layout.place_inj inside mem place), bump, if_neg ne]
      rfl

theorem reset_spec (ring : RingBuffer V) (size : Nat)
    (h : ring.bufferEndReset size + size ≤ ring.dataBufferStart + ring.dataBufferSize)
    (order : ring.dataBufferStart ≤ ring.dataBufferEnd) :
    ring.dataBufferEnd ≤ ring.bufferEndReset size ∧
      ring.bufferEndReset size % ring.dataBufferSize + size ≤ ring.dataBufferSize := by
  unfold bufferEndReset at h ⊢
  split at h
  · rename_i short
    rw [if_pos short, Nat.mul_mod_left]
    have above : ring.dataBufferEnd < (ring.dataBufferEnd / ring.dataBufferSize + 1) *
        ring.dataBufferSize := Nat.lt_mul_of_div_lt (Nat.lt_succ_self _) ring.dataBufferSize_pos
    exact ⟨le_of_lt above, by omega⟩
  · rename_i fits
    rw [if_neg fits]
    exact ⟨le_refl _, by omega⟩

theorem reset_idle (ring : RingBuffer V) (idle : ring.dataBufferStart = 0 ∧ ring.dataBufferEnd = 0)
    (h : ring.bufferEndReset size + size ≤ ring.dataBufferStart + ring.dataBufferSize) :
    ring.bufferEndReset size = 0 := by
  unfold bufferEndReset at h ⊢
  simp only [idle.2, Nat.zero_mod] at h ⊢
  split at h
  · omega
  · rename_i fits
    rw [if_neg fits]

/-- What is written where the next chunk would go destroys no chunk. -/
theorem Layout.apart (layout : Layout ring chunks) {size : Nat} (positive : 0 < size)
    (room : ring.bufferEndReset size + size ≤ ring.dataBufferStart + ring.dataBufferSize)
    (mem : chunk ∈ chunks) :
    chunk.pos % ring.dataBufferSize + chunk.size ≤ ring.bufferEndReset size % ring.dataBufferSize ∨
      ring.bufferEndReset size % ring.dataBufferSize + size ≤ chunk.pos % ring.dataBufferSize := by
  obtain ⟨rounds, placed, _⟩ := layout.placed
  obtain ⟨_, below⟩ := placed.between mem
  obtain ⟨_, _⟩ := reset_spec ring size room (by omega)
  have apart := disjoint_mod (q := ring.bufferEndReset size + rounds * ring.dataBufferSize)
    (z := size) ring.dataBufferSize_pos (p := chunk.pos) (s := chunk.size) (by omega) (by omega)
    positive
  rwa [Nat.add_mul_mod_self_right] at apart

theorem Layout.clobbered (layout : Layout ring chunks) {size : Nat} (part : Nat)
    (positive : 0 < size) (smaller : part ≤ size)
    (room : ring.bufferEndReset size + size ≤ ring.dataBufferStart + ring.dataBufferSize)
    (mem : chunk ∈ chunks) :
    (clobber ring.memory (ring.bufferEndReset size % ring.dataBufferSize) part).find?
        (fun cell => cell.idx = chunk.address % ring.dataBufferSize) = some (ring.cellOf chunk) := by
  have cell := layout.cells chunk mem
  unfold accessBuf at cell
  split at cell
  · rename_i other found
    cases cell
    refine find_clobber found ?_
    have := layout.apart positive room mem
    simp only [cellOf]
    omega
  · cases cell

theorem Layout.allocate (layout : Layout ring chunks) (few : chunks.length + 1 < idMax) {size : Nat}
    (key : String) (value : V) :
    (∃ after e, ring.allocateBuf size = (after, .error e) ∧ Layout after chunks) ∨
    ∃ after address pos, ring.allocateBuf size = (after, .ok (address, ring.monotonicIdEnd)) ∧
      Layout (after.writeBuf address 0 value)
        (chunks ++ [⟨ring.monotonicIdEnd, address, pos, size + mdSize, key, value, 0⟩]) := by
  obtain ⟨rounds, placed, head⟩ := layout.placed
  unfold allocateBuf
  split
  · exact .inl ⟨_, _, rfl, layout⟩
  dsimp only
  split
  · exact .inl ⟨_, _, rfl, layout⟩
  rename_i room
  rw [Nat.not_lt] at room
  have positive : 0 < size + mdSize := by
    omega
  have order := placed.le
  obtain ⟨after, fits⟩ := reset_spec ring _ room (by omega)
  split
  · -- The size does not fit into four bytes.
    refine .inl ⟨_, _, rfl, ?_⟩
    refine { layout with
      placed := ⟨rounds, placed.extend (by dsimp only; omega), head⟩
      room := by dsimp only; omega
      idle := ?_
      cells := ?_ }
    · intro none
      exact ⟨(layout.idle none).1, reset_idle ring (layout.idle none) room⟩
    · intro chunk mem
      have found := layout.clobbered 4 positive (by unfold mdSize; omega) room mem
      simp only [accessBuf, found]
      rfl
  · rename_i stored small
    have same : stored = size + mdSize := by
      unfold int2byte at small
      split at small
      · exact (Except.ok.inj small).symm
      · cases small
    subst same
    refine .inr ⟨_, _, ring.bufferEndReset (size + mdSize) + rounds * ring.dataBufferSize, rfl, ?_⟩
    have valid : ring.monotonicIdEnd % idMax = ring.monotonicIdEnd := by
      rw [layout.endId, Nat.mod_mod]
    have place : (ring.bufferEndReset (size + mdSize) + rounds * ring.dataBufferSize) %
        ring.dataBufferSize = ring.bufferEndReset (size + mdSize) % ring.dataBufferSize :=
      Nat.add_mul_mod_self_right ..
    refine ⟨layout.startId, ?_, ?_, ?_, ?_, ⟨rounds, placed.append ?_ ?_, ?_⟩, ?_, ?_, ?_, ?_⟩
    · rw [map_append, layout.ids, length_append]
      exact (congrArg (_ ++ [·]) layout.endId).trans (idsFrom_append ..).symm
    · show (ring.monotonicIdEnd + 1) % idMax = (ring.monotonicIdStart + _) % idMax
      rw [layout.endId, Nat.mod_add_mod, length_append, length_singleton, Nat.add_assoc]
    · rw [length_append]
      exact few
    · intro id address
      rw [valid]
      symm
      refine Dict.get?_set_concat layout.metadata ?_ (fun _ => .rfl) id address
      exact fun chunk mem same => layout.fresh (mem_map.mpr ⟨chunk, mem, same⟩)
    · dsimp only
      omega
    · show ring.bufferEndReset (size + mdSize) + rounds * ring.dataBufferSize + (size + mdSize) ≤
        ring.bufferEndReset (size + mdSize) + (size + mdSize) + rounds * ring.dataBufferSize
      omega
    · intro chunk first
      cases chunks with
      | nil =>
        cases first
        have start := reset_idle ring (layout.idle rfl) room
        rw [start, (layout.idle rfl).1]
        rfl
      | cons old rest => exact head chunk first
    · show ring.bufferEndReset (size + mdSize) + (size + mdSize) ≤ _
      exact room
    · intro none
      simp at none
    · intro chunk mem
      rcases mem_append.mp mem with old | new
      · exact layout.inside chunk old
      · rw [mem_singleton.mp new]
        show _ % ring.dataBufferSize + _ ≤ _ ∧ _ ∧ _ % ring.dataBufferSize = _
        rw [place]
        exact ⟨fits, positive, place.symm⟩
    · intro chunk mem
      rw [accessBuf_writeBuf]
      rcases mem_append.mp mem with old | new
      · have apart := layout.apart positive room old
        obtain ⟨_, _, _⟩ := layout.inside chunk old
        have elsewhere : chunk.address % ring.dataBufferSize ≠
            ring.bufferEndReset (size + mdSize) % ring.dataBufferSize := by
          omega
        have found := layout.clobbered _ positive (le_refl _) room old
        rw [if_neg elsewhere]
        unfold accessBuf
        rw [find?_cons_of_neg (by simpa using symm elsewhere), found]
        rfl
      · rw [mem_singleton.mp new, if_pos rfl]
        unfold accessBuf
        rw [find?_cons_of_pos (by simp)]
        simp only [Except.map, cellOf, writeBuf, place]

variable {rest : List (Chunk V)}

theorem Layout.head_id (layout : Layout ring (chunk :: rest)) : chunk.id = ring.monotonicIdStart ∧
      rest.map (·.id) = idsFrom ((ring.monotonicIdStart + 1) % idMax) rest.length := by
  have ids := layout.ids
  rw [map_cons, length_cons, idsFrom_succ _ _ layout.startId, cons.injEq] at ids
  exact ids

theorem Layout.metadata_rest (layout : Layout ring (chunk :: rest)) (id address : Nat) :
    (ring.metadata.erase ring.monotonicIdStart).get? id = some address ↔
      ∃ other ∈ rest, other.id = id ∧ other.address = address := by
  have nodup := layout.nodup
  rw [map_cons, nodup_cons] at nodup
  have own := layout.head_id.1
  rw [Dict.get?_erase]
  split
  · rename_i same
    subst same
    constructor
    · intro impossible
      cases impossible
    · rintro ⟨other, mem, same, _⟩
      exact absurd (mem_map.mpr ⟨other, mem, same.trans own.symm⟩) nodup.1
  · rename_i ne
    rw [layout.metadata]
    constructor
    · rintro ⟨other, mem, same, found⟩
      rcases mem_cons.mp mem with rfl | mem
      · exact absurd (same.symm.trans own) ne
      · exact ⟨other, mem, same, found⟩
    · rintro ⟨other, mem, same⟩
      exact ⟨other, mem_cons_of_mem _ mem, same⟩

/-- The distance to the next chunk, computed from its address. -/
theorem advance_eq (start rounds : Nat) (near : pos < start + rounds * n + n)
    (after : start + rounds * n ≤ pos) (congruent : address % n = pos % n) :
    start + (((address : Int) - start) % n).toNat + rounds * n = pos := by
  have shift : (pos : Int) - start = ((pos : Int) - (start + rounds * n)) + rounds * n := by omega
  have cast : (address : Int) % n = (pos : Int) % n := by exact_mod_cast congruent
  have distance : ((address : Int) - start) % n = (pos : Int) - (start + rounds * n) := by
    rw [Int.sub_emod, cast, ← Int.sub_emod, shift, Int.add_mul_emod_self_right]
    apply Int.emod_eq_of_lt
    · have := Int.ofNat_le.mpr after
      push_cast at this
      omega
    · have := Int.ofNat_lt.mpr near
      push_cast at this
      omega
  have := Int.ofNat_le.mpr after
  push_cast at this
  rw [distance]
  omega

theorem release_same (ring : RingBuffer V) : ring.release.dataBufferSize = ring.dataBufferSize ∧
    ring.release.monotonicIdStart = (ring.monotonicIdStart + 1) % idMax := by
  unfold release
  dsimp only
  split <;> exact ⟨rfl, rfl⟩

theorem Layout.release (layout : Layout ring (chunk :: rest)) : Layout ring.release rest := by
  obtain ⟨rounds, placed, head⟩ := layout.placed
  have few := layout.few
  rw [length_cons] at few
  have endId := layout.endId
  rw [length_cons, Nat.add_comm rest.length, ← Nat.add_assoc, ← Nat.mod_add_mod] at endId
  have start : chunk.pos = ring.dataBufferStart + rounds * ring.dataBufferSize := head chunk rfl
  have positive := (layout.inside chunk (mem_cons_self ..)).2.1
  have inside := fun other mem => layout.inside other (mem_cons_of_mem chunk mem)
  have cells := fun other mem => layout.cells other (mem_cons_of_mem chunk mem)
  have small : (ring.monotonicIdStart + 1) % idMax < idMax := Nat.mod_lt _ (by unfold idMax; omega)
  unfold RingBuffer.release
  dsimp only
  cases rest with
  | nil =>
    split
    · rename_i address found
      obtain ⟨other, mem, _⟩ := (layout.metadata_rest _ _).mp found
      cases mem
    · exact ⟨small, rfl, endId, by omega, layout.metadata_rest, ⟨0, Nat.le_refl _, nofun⟩,
        Nat.zero_le _, fun _ => ⟨rfl, rfl⟩, nofun, nofun⟩
  | cons following rest =>
    have nextId := layout.head_id.2
    rw [map_cons, length_cons, idsFrom_succ _ _ small, cons.injEq] at nextId
    split
    · rename_i address found
      obtain ⟨other, mem, same, rfl⟩ := (layout.metadata_rest _ _).mp found
      have isFollowing : other = following := layout.unique (mem_cons_of_mem _ mem)
        (mem_cons_of_mem _ (mem_cons_self ..)) (same.trans nextId.1.symm)
      subst isFollowing
      obtain ⟨_, _, congruent⟩ := inside other (mem_cons_self ..)
      obtain ⟨_, _⟩ := placed.2.between (mem_cons_self ..)
      have room := layout.room
      have advance := advance_eq ring.dataBufferStart rounds (by omega) (by omega) congruent
      refine ⟨small, ?_, endId, by omega, layout.metadata_rest, ⟨rounds, ?_, ?_⟩, ?_, nofun, inside,
        cells⟩
      · rw [map_cons, length_cons, idsFrom_succ _ _ small, cons.injEq]
        exact nextId
      · dsimp only
        rw [advance]
        exact ⟨le_refl _, placed.2.2⟩
      · intro _ isFirst
        cases isFirst
        exact advance.symm
      · dsimp only
        omega
    · rename_i missing
      rw [(layout.metadata_rest _ _).mpr ⟨following, mem_cons_self .., nextId.1, rfl⟩] at missing
      cases missing

/-- The loop frees the first chunks, each of them for a reason. -/
theorem Layout.freeLoop (layout : Layout ring chunks) {isFree : Nat → Cell V → Py Bool}
    (answers : ∀ chunk ∈ chunks, ∃ free, isFree chunk.id (ring.cellOf chunk) = .ok free)
    (nbytes turns freedBytes : Nat) :
    ∃ next gone kept, freeLoop isFree nbytes turns ring freedBytes = .ok next ∧
      chunks = gone ++ kept ∧ Layout next kept ∧
      next.monotonicIdStart = (ring.monotonicIdStart + gone.length) % idMax ∧
      ∀ chunk ∈ gone, isFree chunk.id (ring.cellOf chunk) = .ok true := by
  have stay {ring : RingBuffer V} {chunks : List (Chunk V)} (layout : Layout ring chunks) :
      ∃ next gone kept, (.ok ring : Py (RingBuffer V)) = .ok next ∧ chunks = gone ++ kept ∧
        Layout next kept ∧ next.monotonicIdStart = (ring.monotonicIdStart + gone.length) % idMax ∧
        ∀ chunk ∈ gone, isFree chunk.id (ring.cellOf chunk) = .ok true :=
    ⟨ring, [], chunks, rfl, rfl, layout, (Nat.mod_eq_of_lt layout.startId).symm, nofun⟩
  induction turns generalizing ring chunks freedBytes with
  | zero => exact stay layout
  | succ turns ih =>
    rw [freeLoop]
    cases found : ring.metadata.get? ring.monotonicIdStart with
    | none => exact stay layout
    | some address =>
      dsimp only
      split
      · cases chunks with
        | nil =>
          obtain ⟨chunk, mem, _⟩ := (layout.metadata _ _).mp found
          cases mem
        | cons chunk rest =>
          have own := layout.head_id.1
          obtain ⟨other, mem, same, rfl⟩ := (layout.metadata _ _).mp found
          cases layout.unique mem (mem_cons_self ..) (same.trans own.symm)
          obtain ⟨free, answer⟩ := answers chunk (mem_cons_self ..)
          have asked : isFree ring.monotonicIdStart (ring.cellOf chunk) = .ok free := by
            rw [← own]
            exact answer
          rw [layout.cells chunk (mem_cons_self ..), Py.ok_bind, asked]
          cases free with
          | false => exact stay layout
          | true =>
            obtain ⟨size, nextId⟩ := release_same ring
            have sameCells : ∀ other, ring.release.cellOf other = ring.cellOf other := by
              intro other
              simp [cellOf, size]
            obtain ⟨next, gone, kept, ran, parts, kept', ids, reasons⟩ := ih layout.release
              (fun other mem => by
                rw [sameCells]
                exact answers other (mem_cons_of_mem _ mem))
              (freedBytes + (ring.cellOf chunk).size)
            refine ⟨next, chunk :: gone, kept, ran, ?_, kept', ?_, ?_⟩
            · rw [parts, cons_append]
            · rw [ids, nextId, Nat.mod_add_mod, length_cons]
              congr 1
              omega
            · intro other mem
              rcases mem_cons.mp mem with rfl | mem
              · exact answer
              · rw [← sameCells]
                exact reasons other mem
      · exact stay layout

/-- Counting modulo `m`, once around at most. -/
theorem range_mod (valid : start < m) (few : number < m) :
    (if (start + number) % m ≥ start then range' start ((start + number) % m - start)
      else range' start (m - start) ++ range ((start + number) % m)) =
      (range number).map (fun i => (start + i) % m) := by
  have straight : ∀ k, start + k ≤ m →
      range' start k = (range k).map (fun i => (start + i) % m) := by
    intro k inside
    rw [range'_eq_map_range]
    apply map_congr_left
    intro i mem
    rw [mem_range] at mem
    rw [Nat.mod_eq_of_lt (by omega)]
  rcases Nat.lt_or_ge (start + number) m with below | wrapped
  · rw [Nat.mod_eq_of_lt below, if_pos (Nat.le_add_right ..), Nat.add_sub_cancel_left,
      straight number (le_of_lt below)]
  · have after : (start + number) % m = start + number - m := by
      rw [Nat.mod_eq_sub_mod wrapped, Nat.mod_eq_of_lt (by omega)]
    have split : range number =
        range (m - start) ++ (range (start + number - m)).map (m - start + ·) := by
      rw [← range_add]
      congr 1
      omega
    have second : ((range (start + number - m)).map (m - start + ·)).map
        (fun i => (start + i) % m) = range (start + number - m) := by
      rw [map_map]
      conv_rhs => rw [← map_id (range _)]
      apply map_congr_left
      intro i mem
      rw [mem_range] at mem
      simp only [Function.comp, id]
      rw [show start + (m - start + i) = i + m by omega, Nat.add_mod_right,
        Nat.mod_eq_of_lt (by omega)]
    rw [after, if_neg (by omega), split, map_append, second, straight _ (by omega)]

theorem idRange_eq (valid : start < idMax) (few : number < idMax) :
    idRange start ((start + number) % idMax) = idsFrom start number := range_mod valid few

theorem Layout.wrapAround (layout : Layout ring chunks) : Layout ring.wrapAround chunks := by
  unfold RingBuffer.wrapAround
  split
  · rename_i beyond
    obtain ⟨rounds, placed, head⟩ := layout.placed
    have order := placed.le
    have start : ring.dataBufferStart - ring.dataBufferSize + (rounds + 1) * ring.dataBufferSize =
        ring.dataBufferStart + rounds * ring.dataBufferSize := by
      rw [add_mul]
      omega
    have last : ring.dataBufferEnd - ring.dataBufferSize + (rounds + 1) * ring.dataBufferSize =
        ring.dataBufferEnd + rounds * ring.dataBufferSize := by
      omega
    have room := layout.room
    refine { layout with placed := ⟨rounds + 1, ?_, ?_⟩, room := by dsimp only; omega, idle := ?_ }
    · dsimp only
      rw [start, last]
      exact placed
    · dsimp only
      rw [start]
      exact head
    · intro none
      have := (layout.idle none).1
      have := ring.dataBufferSize_pos
      omega
  · exact layout

/-- `free_buf` returns the ids of the chunks it has freed. -/
theorem Layout.freeBuf (layout : Layout ring chunks) {isFree : Nat → Cell V → Py Bool}
    (answers : ∀ chunk ∈ chunks, ∃ free, isFree chunk.id (ring.cellOf chunk) = .ok free)
    (nbytes : Nat) : ∃ next gone kept, ring.freeBuf isFree nbytes = .ok (gone.map (·.id), next) ∧
      chunks = gone ++ kept ∧ Layout next kept ∧
      ∀ chunk ∈ gone, isFree chunk.id (ring.cellOf chunk) = .ok true := by
  obtain ⟨next, gone, kept, ran, rfl, kept', ids, reasons⟩ :=
    layout.freeLoop answers nbytes ring.metadata.size 0
  have few := layout.few
  rw [length_append] at few
  have goneIds : gone.map (·.id) = idsFrom ring.monotonicIdStart gone.length := by
    have all := layout.ids
    rw [map_append, length_append, idsFrom, range_add, map_append] at all
    exact (append_inj all (by simp)).1
  refine ⟨next.wrapAround, gone, kept, ?_, rfl, kept'.wrapAround, reasons⟩
  rw [RingBuffer.freeBuf, ran, Py.ok_bind, ids, idRange_eq layout.startId (by omega), goneIds]
  rfl

end RingBuffer
end Vllm
