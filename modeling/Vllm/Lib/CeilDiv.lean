import Mathlib

/-! Division rounded up, over the integers. Like floor division it is one half of
a Galois connection, and every bound below is read off that connection. -/
namespace Vllm

def cdiv (a b : Int) : Int := -(-a / b)

theorem cdiv_le_iff (pos : 0 < b) : cdiv a b ≤ k ↔ a ≤ k * b := by
  rw [cdiv, neg_le, Int.le_ediv_iff_mul_le pos, neg_mul, neg_le_neg_iff]

theorem lt_cdiv_iff (pos : 0 < b) : k < cdiv a b ↔ k * b < a := by
  rw [← not_le, cdiv_le_iff pos, not_le]

theorem le_cdiv_mul (pos : 0 < b) (a : Int) : a ≤ cdiv a b * b :=
  (cdiv_le_iff pos).mp (le_refl _)

theorem ediv_le_cdiv (pos : 0 < b) (a : Int) : a / b ≤ cdiv a b := by
  refine Int.le_of_lt_add_one ((Int.ediv_lt_iff_lt_mul pos).mpr ?_)
  have above := le_cdiv_mul pos a
  rw [add_mul]
  omega

theorem cdiv_nonneg (pos : 0 < b) (nonneg : 0 ≤ a) : 0 ≤ cdiv a b := by
  have below : -1 < cdiv a b := (lt_cdiv_iff pos).mpr (by omega)
  omega

end Vllm
