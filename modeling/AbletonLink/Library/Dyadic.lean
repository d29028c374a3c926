import AbletonLink.Library.Binary64
import AbletonLink.Library.HalfAway

/-! Rounding natural numbers scaled by a power of two. -/

namespace AbletonLink.Library

open Binary64

theorem roundHalfAway_nat_div_eq (a : ℕ) {b : ℕ} (positive : 0 < b) :
    roundHalfAway ((a : ℚ) / b) = ((2 * a + b) / (2 * b) : ℕ) := by
  have hb : (0 : ℚ) < b := by exact_mod_cast positive
  have sum : (a : ℚ) / b + 1 / 2 = ((2 * a + b : ℕ) : ℚ) / (2 * b : ℕ) := by
    push_cast
    rw [div_add_div _ _ hb.ne' two_ne_zero]
    ring
  rw [roundHalfAway_of_nonneg (by positivity), sum]
  exact Rat.floor_natCast_div_natCast _ _

theorem roundHalfAway_nat_div_even (a : ℕ) {c : ℕ} (positive : 0 < c) :
    roundHalfAway ((a : ℚ) / (2 * c : ℕ)) = ((a + c) / (2 * c) : ℕ) := by
  rw [roundHalfAway_nat_div_eq a (by omega), ← Nat.mul_add, Nat.mul_div_mul_left _ _ two_pos]

theorem pow_pred {k : ℕ} (positive : 0 < k) : 2 ^ k = 2 * 2 ^ (k - 1) := by
  rw [← pow_succ', Nat.sub_add_cancel positive]

theorem roundScaled_of_neg (n : ℕ) {k : ℕ} (positive : 0 < k) :
    roundScaled n (-(k : ℤ)) = (n + 2 ^ (k - 1)) / 2 ^ k := by
  unfold roundScaled
  rw [if_neg (by omega), Int.natAbs_neg, Int.natAbs_natCast]

theorem roundScaled_of_nonneg (n k : ℕ) : roundScaled n k = n * 2 ^ k := by
  unfold roundScaled
  rw [if_pos (by omega), Int.toNat_natCast, Nat.shiftLeft_eq]

theorem roundHalfAway_div_scaled (n : ℕ) {d k : ℕ} (divisor : 0 < d) (positive : 0 < k) :
    roundHalfAway ((n : ℚ) / d * 2 ^ (-(k : ℤ))) = roundScaled (n / d) (-(k : ℤ)) := by
  have half : 0 < d * 2 ^ (k - 1) := by positivity
  have power : 2 * (d * 2 ^ (k - 1)) = d * 2 ^ k := by
    rw [pow_pred positive]
    ring
  have quotient : (n : ℚ) / d * 2 ^ (-(k : ℤ)) = n / (2 * (d * 2 ^ (k - 1)) : ℕ) := by
    rw [power, zpow_neg, zpow_natCast, ← div_eq_mul_inv, div_div]
    push_cast
    rfl
  rw [quotient, roundHalfAway_nat_div_even n half, power, roundScaled_of_neg _ positive,
    ← Nat.div_div_eq_div_mul, Nat.add_mul_div_left _ _ divisor]

theorem roundHalfAway_scaled (n : ℕ) (e : ℤ) :
    roundHalfAway ((n : ℚ) * 2 ^ e) = roundScaled n e := by
  rcases lt_or_ge e 0 with neg | nonneg
  · obtain ⟨k, rfl⟩ : ∃ k : ℕ, e = -(k : ℤ) := ⟨e.natAbs, by omega⟩
    have scaled := roundHalfAway_div_scaled n one_pos (show 0 < k by omega)
    rwa [Nat.cast_one, div_one, Nat.div_one] at scaled
  · obtain ⟨k, rfl⟩ := Int.eq_ofNat_of_zero_le nonneg
    rw [roundScaled_of_nonneg, zpow_natCast]
    exact_mod_cast roundHalfAway_intCast (n * 2 ^ k : ℕ)

theorem roundScaled_bits (n : ℕ) {k : ℕ} (positive : 0 < k) :
    roundScaled n (-(k : ℤ)) = n >>> k + (n >>> (k - 1)) % 2 := by
  have unit : 0 < 2 ^ (k - 1) := by positivity
  rw [roundScaled_of_neg n positive, Nat.shiftRight_eq_div_pow, Nat.shiftRight_eq_div_pow,
    pow_pred positive, mul_comm 2, ← Nat.div_div_eq_div_mul, ← Nat.div_div_eq_div_mul,
    Nat.add_div_right _ unit]
  omega

theorem roundScaled_half (n : ℕ) {k : ℕ} (positive : 0 < k) :
    roundScaled n (-(k : ℤ)) = n >>> k + if 2 ^ (k - 1) ≤ n % 2 ^ k then 1 else 0 := by
  have half : 0 < 2 ^ (k - 1) := by positivity
  have split := Nat.div_add_mod n (2 ^ k)
  have rest := Nat.mod_lt n (show 0 < 2 ^ k by positivity)
  have unit := pow_pred positive
  rw [roundScaled_of_neg n positive, Nat.shiftRight_eq_div_pow]
  generalize n / 2 ^ k = quotient at split
  generalize n % 2 ^ k = remainder at split rest
  subst split
  rw [Nat.add_assoc, Nat.mul_add_div (by positivity)]
  congr 1
  split
  · exact Nat.div_eq_of_lt_le (by omega) (by omega)
  · exact Nat.div_eq_of_lt (by omega)

end AbletonLink.Library
