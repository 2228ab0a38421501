import Mathlib

/-! Receivers shared out among senders. Every sender gets the same number of consecutive
receivers and the remainder goes to the first senders, one each. A receiver can work out its
sender from its own position, without looking at what the senders do. -/
namespace Vllm.Share
open List Option
variable {α : Type} {numSenders : Nat} {receivers : List α}

/-- The receivers of the sender at position `i`. -/
def share (numSenders : Nat) (receivers : List α) (i : Nat) : List α :=
  let perSender := receivers.length / numSenders
  (receivers.drop (i * perSender)).take perSender ++ (receivers[numSenders * perSender + i]?).toList

/-- The position of the sender for the receiver at position `j`. -/
def owner (numSenders numReceivers j : Nat) : Nat :=
  let perSender := numReceivers / numSenders
  if j < numSenders * perSender then j / perSender else j - numSenders * perSender

theorem owner_lt (some : 0 < numSenders) (inside : j < numReceivers) :
    owner numSenders numReceivers j < numSenders := by
  have division := Nat.div_add_mod numReceivers numSenders
  have remainder := Nat.mod_lt numReceivers some
  simp only [owner]
  split
  · rename_i early
    have pos : 0 < numReceivers / numSenders := by
      rcases Nat.eq_zero_or_pos (numReceivers / numSenders) with zero | pos
      · rw [zero] at early
        omega
      · exact pos
    exact (Nat.div_lt_iff_lt_mul pos).mpr early
  · omega

/-- Position `j` is in the consecutive part of sender `i`, or it is its part of the
remainder. -/
theorem owner_eq_iff (sender : i < numSenders) : owner numSenders numReceivers j = i ↔
      i * (numReceivers / numSenders) ≤ j ∧
          j < i * (numReceivers / numSenders) + numReceivers / numSenders ∨
        j = numSenders * (numReceivers / numSenders) + i := by
  generalize each : numReceivers / numSenders = perSender
  simp only [owner, each]
  have before : i * perSender + perSender ≤ numSenders * perSender := by
    calc i * perSender + perSender = (i + 1) * perSender := by rw [Nat.add_mul, Nat.one_mul]
      _ ≤ numSenders * perSender := Nat.mul_le_mul_right _ sender
  split
  · rename_i early
    have pos : 0 < perSender := Nat.pos_of_mul_pos_left (Nat.zero_lt_of_lt early)
    rw [Nat.div_eq_iff pos]
    omega
  · omega

theorem mem_consecutive_iff {start count j : Nat} {x : α} (unique : receivers.Nodup)
    (found : receivers[j]? = some x) :
    x ∈ (receivers.drop start).take count ↔ start ≤ j ∧ j < start + count := by
  constructor
  · intro mem
    obtain ⟨k, same⟩ := getElem?_of_mem mem
    rw [getElem?_take] at same
    split at same
    · rename_i early
      rw [getElem?_drop] at same
      have place := (getElem?_inj (List.getElem?_eq_some_iff.mp same).1 unique).mp
        (same.trans found.symm)
      omega
    · cases same
  · rintro ⟨low, _⟩
    apply mem_of_getElem? (i := j - start)
    rw [getElem?_take, if_pos (by omega), getElem?_drop, Nat.add_sub_cancel' low, found]

/-- A sender has a receiver in its share exactly if the receiver names it. -/
theorem mem_share_iff {i j : Nat} {x : α} (sender : i < numSenders) (unique : receivers.Nodup)
    (found : receivers[j]? = some x) :
    x ∈ share numSenders receivers i ↔ owner numSenders receivers.length j = i := by
  rw [owner_eq_iff sender]
  simp only [share, mem_append, mem_consecutive_iff unique found, mem_toList]
  constructor
  · rintro (early | last)
    · exact .inl early
    · exact .inr ((getElem?_inj (List.getElem?_eq_some_iff.mp found).1 unique).mp
        (found.trans last.symm))
  · rintro (early | rfl)
    · exact .inl early
    · exact .inr found

theorem mem_of_mem_share (mem : x ∈ share numSenders receivers i) : x ∈ receivers := by
  simp only [share, mem_append, mem_toList] at mem
  rcases mem with early | last
  · exact mem_of_mem_drop (mem_of_mem_take early)
  · exact mem_of_getElem? last

theorem nodup_share {i : Nat} (sender : i < numSenders) (unique : receivers.Nodup) :
    (share numSenders receivers i).Nodup := by
  have before : (i + 1) * (receivers.length / numSenders) ≤
      numSenders * (receivers.length / numSenders) := Nat.mul_le_mul_right _ sender
  rw [Nat.add_mul] at before
  apply List.Nodup.append
  · exact (unique.sublist (drop_sublist _ _)).sublist (take_sublist _ _)
  · cases receivers[numSenders * (receivers.length / numSenders) + i]? <;> simp
  · intro x early last
    rw [mem_toList] at last
    have inside := (mem_consecutive_iff unique last).mp early
    omega

end Vllm.Share
