import Vllm.Lib.Dict

/-! Sorted lists of keyed values: first occurrences, runs of equal keys, and the dictionary
that the runs make. -/
namespace Vllm.Runs
open List hiding next
open Dict
variable {α κ β : Type} {key : κ} {rest l : List (κ × β)} {runs : List (κ × List β)} {value : β}
  {values : List β}

section Firsts
variable [DecidableEq α]

/-- The values without repetition, each at the place of its first occurrence. -/
def firsts : List α → List α
  | [] => []
  | a :: l => a :: (firsts l).filter (· ≠ a)

@[simp] theorem mem_firsts {l : List α} : a ∈ firsts l ↔ a ∈ l := by
  induction l with
  | nil => simp [firsts]
  | cons b l ih =>
    simp only [firsts, mem_cons, mem_filter, decide_eq_true_eq]
    tauto

theorem nodup_firsts (l : List α) : (firsts l).Nodup := by
  induction l with
  | nil => exact nodup_nil
  | cons b l ih =>
    apply nodup_cons.mpr
    constructor
    · simp
    · exact ih.filter _

end Firsts

/-- The keys in increasing order, each with the position of its first occurrence. -/
def unique [LinearOrder κ] (keys : List κ) : List (κ × Nat) :=
  ((firsts keys).insertionSort (· ≤ ·)).map (fun key => (key, keys.idxOf key))

theorem strict_of_nodup [LinearOrder κ] {l : List κ} (sorted : l.Pairwise (· ≤ ·))
    (nodup : l.Nodup) : l.Pairwise (· < ·) :=
  (sorted.and nodup).imp (fun both => lt_of_le_of_ne both.1 both.2)

/-- Two strictly increasing lists with the same members are equal. -/
theorem eq_of_mem_iff [LinearOrder κ] {l l' : List κ} (sorted : l.Pairwise (· < ·))
    (sorted' : l'.Pairwise (· < ·)) (same : ∀ key, key ∈ l ↔ key ∈ l') : l = l' := by
  apply Perm.eq_of_pairwise' (sorted.imp le_of_lt) (sorted'.imp le_of_lt)
  exact (perm_ext_iff_of_nodup (sorted.imp ne_of_lt) (sorted'.imp ne_of_lt)).mpr same

theorem map_fst_unique [LinearOrder κ] (keys : List κ) :
    (unique keys).map Prod.fst = (firsts keys).insertionSort (· ≤ ·) := by
  simp only [unique, map_map]
  exact map_id _

theorem strict_unique [LinearOrder κ] (keys : List κ) :
    ((unique keys).map Prod.fst).Pairwise (· < ·) := by
  rw [map_fst_unique]
  apply strict_of_nodup (pairwise_insertionSort _ _)
  exact (perm_insertionSort _ _).nodup_iff.mpr (nodup_firsts keys)

theorem mem_unique [LinearOrder κ] {keys : List κ} :
    (key, i) ∈ unique keys ↔ key ∈ keys ∧ i = keys.idxOf key := by
  simp only [unique, mem_map, mem_insertionSort, mem_firsts, Prod.mk.injEq]
  constructor
  · rintro ⟨_, mem, rfl, rfl⟩
    exact ⟨mem, rfl⟩
  · rintro ⟨mem, rfl⟩
    exact ⟨key, mem, rfl, rfl⟩

section FirstRows
variable [LinearOrder κ] [Inhabited β] (rows : List (κ × β))

def firstRows : List (κ × β) :=
  (unique (rows.map Prod.fst)).map (fun entry =>
    (entry.1, (rows.map Prod.snd).getD entry.2 default))

theorem mem_of_mem_firstRows {rows : List (κ × β)} {entry : κ × β}
    (mem : entry ∈ firstRows rows) : entry ∈ rows := by
  obtain ⟨⟨key, i⟩, listed, rfl⟩ := mem_map.mp mem
  obtain ⟨occurs, rfl⟩ := mem_unique.mp listed
  have inside : (rows.map Prod.fst).idxOf key < rows.length := by
    simpa using idxOf_lt_length_of_mem occurs
  have found : (rows.map Prod.fst)[(rows.map Prod.fst).idxOf key]? = some key :=
    getElem?_idxOf occurs
  rw [getElem?_map, getElem?_eq_getElem inside] at found
  simp only [getD_eq_getElem?_getD, getElem?_map, getElem?_eq_getElem inside]
  have first : rows[(rows.map Prod.fst).idxOf key].1 = key := by simpa using found
  have whole : rows[(rows.map Prod.fst).idxOf key] =
      (key, rows[(rows.map Prod.fst).idxOf key].2) := Prod.ext first rfl
  exact whole ▸ getElem_mem inside

theorem map_fst_firstRows :
    (firstRows rows).map Prod.fst = (unique (rows.map Prod.fst)).map Prod.fst := by
  simp only [firstRows, map_map]
  rfl

theorem strict_firstRows : ((firstRows rows).map Prod.fst).Pairwise (· < ·) := by
  rw [map_fst_firstRows]
  exact strict_unique _

theorem mem_keys_firstRows {rows : List (κ × β)} :
    key ∈ (firstRows rows).map Prod.fst ↔ key ∈ rows.map Prod.fst := by
  rw [map_fst_firstRows, map_fst_unique, mem_insertionSort, mem_firsts]

end FirstRows

section Groups
variable [DecidableEq κ]

def groupRuns : List (κ × β) → List (κ × List β)
  | [] => []
  | (key, value) :: rest =>
    match groupRuns rest with
    | [] => [(key, [value])]
    | (next, values) :: runs =>
      if key = next then (key, value :: values) :: runs
      else (key, [value]) :: (next, values) :: runs

theorem groupRuns_cons_eq (later : groupRuns rest = (key, values) :: runs) :
    groupRuns ((key, value) :: rest) = (key, value :: values) :: runs := by
  simp [groupRuns, later]

theorem groupRuns_cons_ne (later : groupRuns rest = (next, values) :: runs) (differ : key ≠ next) :
    groupRuns ((key, value) :: rest) = (key, [value]) :: groupRuns rest := by
  simp only [groupRuns, later, if_neg differ]

theorem mem_keys_groupRuns : key ∈ (groupRuns l).map Prod.fst ↔ key ∈ l.map Prod.fst := by
  induction l with
  | nil => simp [groupRuns]
  | cons entry rest ih =>
    obtain ⟨a, value⟩ := entry
    cases later : groupRuns rest with
    | nil =>
      rw [later] at ih
      simp only [groupRuns, later, map_cons, mem_cons, ← ih]
    | cons run runs =>
      obtain ⟨next, values⟩ := run
      rw [later] at ih
      by_cases same : a = next
      · subst same
        rw [groupRuns_cons_eq later]
        simp only [map_cons, mem_cons] at ih ⊢
        rw [← ih]
        tauto
      · rw [groupRuns_cons_ne later same, later]
        simp only [map_cons, mem_cons] at ih ⊢
        rw [← ih]

end Groups

section Sorted
variable [LinearOrder κ]

/-- In a list that is sorted by key a key that is not that of the next run is not met again. -/
theorem key_not_later (sorted : ((key, value) :: rest).Pairwise (·.1 ≤ ·.1))
    (keys : ((groupRuns rest).map Prod.fst).Pairwise (· < ·))
    (later : groupRuns rest = (next, values) :: runs) (differ : key ≠ next) :
    ∀ k ∈ (groupRuns rest).map Prod.fst, key < k := by
  have least : key < next := by
    have mem : next ∈ rest.map Prod.fst := by
      rw [← mem_keys_groupRuns, later]
      simp
    obtain ⟨entry, listed, rfl⟩ := mem_map.mp mem
    exact lt_of_le_of_ne (rel_of_pairwise_cons sorted listed) differ
  rw [later, map_cons] at keys ⊢
  intro k mem
  rcases mem_cons.mp mem with rfl | mem
  · exact least
  · exact least.trans (rel_of_pairwise_cons keys mem)

theorem strict_groupRuns (sorted : l.Pairwise (·.1 ≤ ·.1)) :
    ((groupRuns l).map Prod.fst).Pairwise (· < ·) := by
  induction l with
  | nil => simp [groupRuns]
  | cons entry rest ih =>
    obtain ⟨key, value⟩ := entry
    have keys := ih sorted.of_cons
    cases later : groupRuns rest with
    | nil => simp [groupRuns, later]
    | cons run runs =>
      obtain ⟨next, _⟩ := run
      by_cases same : key = next
      · subst same
        rw [groupRuns_cons_eq later]
        rw [later] at keys
        exact keys
      · rw [groupRuns_cons_ne later same]
        exact pairwise_cons.mpr ⟨key_not_later sorted keys later same, keys⟩

/-- The run of a key holds all of its values, in order. -/
theorem getIn_groupRuns (sorted : l.Pairwise (·.1 ≤ ·.1)) (k : κ) :
    (getIn k (groupRuns l)).getD [] = (l.filter (·.1 = k)).map Prod.snd := by
  induction l with
  | nil => rfl
  | cons entry rest ih =>
    obtain ⟨key, value⟩ := entry
    have known := ih sorted.of_cons
    cases later : groupRuns rest with
    | nil =>
      have none_left : rest.filter (·.1 = k) = [] := by
        rw [later] at known
        exact map_eq_nil_iff.mp known.symm
      by_cases mine : key = k <;> simp [groupRuns, later, getIn, mine, none_left]
    | cons run runs =>
      obtain ⟨next, values⟩ := run
      by_cases same : key = next
      · subst same
        rw [groupRuns_cons_eq later]
        rw [later] at known
        by_cases mine : key = k
        · subst mine
          simp [getIn] at known ⊢
          exact known
        · simpa [getIn, mine] using known
      · rw [groupRuns_cons_ne later same]
        by_cases mine : key = k
        · subst mine
          have none_left : rest.filter (·.1 = key) = [] := by
            apply filter_eq_nil_iff.mpr
            intro entry listed
            have mem : entry.1 ∈ (groupRuns rest).map Prod.fst :=
              mem_keys_groupRuns.mpr (mem_map_of_mem listed)
            have above := key_not_later sorted (strict_groupRuns sorted.of_cons) later same _ mem
            simpa using above.ne'
          simp [getIn, none_left]
        · simpa [getIn, mine] using known

end Sorted

variable [DecidableEq κ]

theorem getIn_map {γ : Type} (f : κ → β → γ) (entries : List (κ × β)) (k : κ) :
    getIn k (entries.map (fun entry => (entry.1, f entry.1 entry.2))) =
      (getIn k entries).map (f k) := by
  induction entries with
  | nil => rfl
  | cons entry entries ih =>
    by_cases mine : entry.1 = k
    · subst mine
      simp [getIn]
    · simpa [getIn, mine] using ih

variable (d : Dict κ β) (keys : List κ) (value : β)

def setAll (entries : List (κ × β)) : Dict κ β :=
  entries.foldl (fun d entry => d.set entry.1 entry.2) d

theorem get?_setAll {entries : List (κ × β)} (nodup : (entries.map Prod.fst).Nodup) (d : Dict κ β)
    (k : κ) : (setAll d entries).get? k = (getIn k entries).or (d.get? k) := by
  induction entries generalizing d with
  | nil => simp [setAll, getIn]
  | cons entry entries ih =>
    obtain ⟨key, value⟩ := entry
    rw [map_cons, nodup_cons] at nodup
    have rest := ih nodup.2 (d.set key value)
    simp only [setAll, foldl_cons] at rest ⊢
    rw [rest, get?_set]
    by_cases mine : key = k
    · subst mine
      have absent : getIn key entries = none := by
        cases found : getIn key entries with
        | none => rfl
        | some v =>
          exact absurd (mem_map_of_mem ((getIn_eq_some nodup.2).mp found)) nodup.1
      simp [getIn, absent]
    · simp [getIn, mine, Ne.symm mine]

/-- The default is given to the keys that have no value. -/
def setDefaults : Dict κ β :=
  keys.foldl (fun d key => if d.contains key then d else d.set key value) d

theorem get?_setDefault (key k : κ) (value : β) :
    (if d.contains key then d else d.set key value).get? k =
      (d.get? k).or (if k = key then some value else none) := by
  by_cases known : d.contains key = true
  · rw [if_pos known]
    by_cases mine : k = key
    · obtain ⟨v, found⟩ := contains_iff.mp known
      rw [mine, found]
      rfl
    · simp [mine]
  · rw [if_neg known, get?_set]
    by_cases mine : k = key
    · have absent : d.get? key = none := by
        cases found : d.get? key with
        | none => rfl
        | some v => exact absurd (contains_iff.mpr ⟨v, found⟩) known
      simp [mine, absent]
    · simp [mine]

theorem get?_setDefaults (k : κ) :
    (setDefaults d keys value).get? k = (d.get? k).or (if k ∈ keys then some value else none) := by
  induction keys generalizing d with
  | nil => simp [setDefaults]
  | cons key keys ih =>
    have rest := ih (if d.contains key then d else d.set key value)
    simp only [setDefaults, foldl_cons] at rest ⊢
    rw [rest, get?_setDefault]
    by_cases mine : k = key <;> cases d.get? k <;> simp [mine]

end Vllm.Runs
