import Mathlib.Tactic

/-! The extended Euclidean algorithm as a loop that keeps the coefficient of one number. -/

namespace AbletonLink.Library

/-- The last two remainders, and of each the coefficient of the first number. -/
@[ext] structure Euclid where
  divisor : ℤ
  remainder : ℤ
  inverse : ℤ
  coefficient : ℤ
  deriving DecidableEq

namespace Euclid

def start (a b : ℤ) : Euclid := ⟨a, b, 1, 0⟩

def next (s : Euclid) : Euclid :=
  let quotient := s.divisor.tdiv s.remainder
  ⟨s.remainder, s.divisor - quotient * s.remainder,
    s.coefficient, s.inverse - quotient * s.coefficient⟩

theorem remainder_next (s : Euclid) : s.next.remainder = s.divisor.tmod s.remainder := by
  have parts := Int.mul_tdiv_add_tmod s.divisor s.remainder
  rw [mul_comm] at parts
  show s.divisor - s.divisor.tdiv s.remainder * s.remainder = _
  omega

theorem next_lt {s : Euclid} (more : s.remainder ≠ 0) :
    s.next.remainder.natAbs < s.remainder.natAbs := by
  rw [remainder_next, Int.natAbs_tmod]
  exact Nat.mod_lt _ (by omega)

def loop (s : Euclid) : Euclid := if s.remainder = 0 then s else s.next.loop
termination_by s.remainder.natAbs
decreasing_by exact next_lt ‹_›

theorem loop_passes (s : Euclid) : ∃ n ≤ s.remainder.natAbs, s.loop = next^[n] s ∧
    (next^[n] s).remainder = 0 ∧ ∀ k < n, (next^[k] s).remainder ≠ 0 := by
  fun_induction loop s with
  | case1 s zero => exact ⟨0, Nat.zero_le _, rfl, zero, fun k before => by omega⟩
  | case2 s more ih =>
    obtain ⟨n, few, same, zero, earlier⟩ := ih
    have less := next_lt more
    refine ⟨n + 1, by omega, same, zero, ?_⟩
    rintro (- | k) before
    · exact more
    · exact earlier k (by omega)

/-- What a pass keeps: the remainders have one greatest common divisor, each is its coefficient
times `a` modulo `b`, and the coefficients alternate in sign. -/
structure Inv (a b : ℤ) (s : Euclid) : Prop where
  divisor : 0 ≤ s.divisor
  remainder : 0 ≤ s.remainder
  gcd : Int.gcd s.divisor s.remainder = Int.gcd a b
  inverse : s.divisor ≡ s.inverse * a [ZMOD b]
  coefficient : s.remainder ≡ s.coefficient * a [ZMOD b]
  alternate : s.inverse * s.coefficient ≤ 0
  area : |s.coefficient| * s.divisor + |s.inverse| * s.remainder = b

variable {a b : ℤ} {s : Euclid}

theorem inv_start (ha : 0 ≤ a) (hb : 0 ≤ b) : Inv a b (start a b) where
  divisor := ha
  remainder := hb
  gcd := rfl
  inverse := by simp [start]
  coefficient := by simp [start]
  alternate := by simp [start]
  area := by simp [start]

theorem abs_inverse_sub (alternate : s.inverse * s.coefficient ≤ 0) {quotient : ℤ}
    (nonneg : 0 ≤ quotient) :
    |s.inverse - quotient * s.coefficient| = |s.inverse| + quotient * |s.coefficient| := by
  have opposite : 0 ≤ s.inverse * -(quotient * s.coefficient) := by
    rw [mul_neg, mul_left_comm, ← mul_neg]
    exact mul_nonneg nonneg (neg_nonneg.mpr alternate)
  rw [sub_eq_add_neg, abs_add_eq_add_abs_iff _ _ |>.mpr (mul_nonneg_iff.mp opposite), abs_neg,
    abs_mul, abs_of_nonneg nonneg]

theorem Inv.quotient_nonneg (inv : Inv a b s) : 0 ≤ s.divisor.tdiv s.remainder :=
  Int.tdiv_nonneg inv.divisor inv.remainder

theorem Inv.next (inv : Inv a b s) : Inv a b s.next where
  divisor := inv.remainder
  remainder := by
    rw [remainder_next]
    exact Int.tmod_nonneg _ inv.divisor
  gcd := by
    rw [← inv.gcd, Int.gcd_comm s.divisor]
    exact Int.gcd_sub_mul_right_right ..
  inverse := inv.coefficient
  coefficient := by
    have difference := inv.inverse.sub (inv.coefficient.mul_left (s.divisor.tdiv s.remainder))
    rwa [← mul_assoc, ← sub_mul] at difference
  alternate := by
    show s.coefficient * (s.inverse - s.divisor.tdiv s.remainder * s.coefficient) ≤ 0
    have square := mul_nonneg inv.quotient_nonneg (mul_self_nonneg s.coefficient)
    have alternate := inv.alternate
    linarith [mul_comm s.coefficient s.inverse, mul_left_comm s.coefficient
      (s.divisor.tdiv s.remainder) s.coefficient]
  area := by
    show |s.inverse - _| * s.remainder + |s.coefficient| * (s.divisor - _) = b
    rw [abs_inverse_sub inv.alternate inv.quotient_nonneg, ← inv.area]
    ring

theorem Inv.iterate (inv : Inv a b s) (n : ℕ) : Inv a b (Euclid.next^[n] s) := by
  induction n generalizing s with
  | zero => exact inv
  | succ n ih => exact ih inv.next

theorem Inv.loop (inv : Inv a b s) : Inv a b s.loop ∧ s.loop.remainder = 0 := by
  obtain ⟨n, -, same, zero, -⟩ := s.loop_passes
  rw [same]
  exact ⟨inv.iterate n, zero⟩

theorem Inv.coefficients_le (inv : Inv a b s) (more : s.remainder ≠ 0) :
    |s.next.coefficient| ≤ b ∧ |s.inverse| ≤ b := by
  have positive : 1 ≤ s.remainder := by
    have := inv.remainder
    omega
  have least := abs_nonneg s.next.coefficient
  have size := mul_le_mul_of_nonneg_left positive least
  have rest := mul_nonneg (abs_nonneg s.coefficient) inv.next.remainder
  have area := inv.next.area
  have size' := mul_le_mul_of_nonneg_left positive (abs_nonneg s.inverse)
  have rest' := mul_nonneg (abs_nonneg s.coefficient) inv.divisor
  have area' := inv.area
  refine ⟨?_, by linarith⟩
  change |s.next.coefficient| * s.remainder + |s.coefficient| * s.next.remainder = b at area
  linarith

section Result

variable (ha : 0 < a) (hb : 0 < b)

include ha hb

theorem loop_start :
    (start a b).loop.divisor = Int.gcd a b ∧
      a / (start a b).loop.divisor * (start a b).loop.inverse ≡ 1
        [ZMOD b / (start a b).loop.divisor] := by
  obtain ⟨inv, zero⟩ := (inv_start ha.le hb.le).loop
  have divisor : (start a b).loop.divisor = Int.gcd a b := by
    have gcd := inv.gcd
    rw [zero, Int.gcd_zero_right] at gcd
    have nonneg := inv.divisor
    omega
  refine ⟨divisor, ?_⟩
  have scaled := inv.inverse
  rw [divisor] at scaled ⊢
  have positive : (0 : ℤ) < Int.gcd a b := by
    exact_mod_cast Int.gcd_pos_of_ne_zero_left b ha.ne'
  obtain ⟨x, hx⟩ := Int.gcd_dvd_left a b
  obtain ⟨y, hy⟩ := Int.gcd_dvd_right a b
  generalize (Int.gcd a b : ℤ) = d at *
  subst hx hy
  rw [Int.mul_ediv_cancel_left _ positive.ne', Int.mul_ediv_cancel_left _ positive.ne']
  obtain ⟨k, hk⟩ := scaled.dvd
  refine (Int.modEq_iff_dvd.mpr ⟨k, ?_⟩).symm
  have cancel : d * (x * (start (d * x) (d * y)).loop.inverse - 1) = d * (y * k) := by
    linear_combination hk
  exact mul_left_cancel₀ positive.ne' cancel

theorem solve {rhs c : ℤ} (congruent : a * c ≡ rhs [ZMOD b]) :
    (start a b).loop.divisor ∣ rhs ∧
      c ≡ rhs / (start a b).loop.divisor * (start a b).loop.inverse
        [ZMOD b / (start a b).loop.divisor] := by
  obtain ⟨divisor, inverse⟩ := loop_start ha hb
  rw [divisor] at inverse ⊢
  have positive : (0 : ℤ) < Int.gcd a b := by
    exact_mod_cast Int.gcd_pos_of_ne_zero_left b ha.ne'
  obtain ⟨x, hx⟩ := Int.gcd_dvd_left a b
  obtain ⟨y, hy⟩ := Int.gcd_dvd_right a b
  generalize (Int.gcd a b : ℤ) = d at *
  generalize (start a b).loop.inverse = u at *
  subst hx hy
  obtain ⟨k, hk⟩ := congruent.dvd
  have parts : rhs = d * (x * c + y * k) := by linear_combination hk
  subst parts
  rw [Int.mul_ediv_cancel_left _ positive.ne'] at inverse ⊢
  rw [Int.mul_ediv_cancel_left _ positive.ne'] at inverse ⊢
  refine ⟨dvd_mul_right .., ?_⟩
  calc c = 1 * c := (one_mul c).symm
    _ ≡ x * u * c [ZMOD y] := (inverse.mul_right c).symm
    _ = x * c * u := by ring
    _ ≡ (x * c + y * k) * u [ZMOD y] := by
      refine Int.ModEq.mul_right u ?_
      exact (Int.modEq_iff_dvd.mpr ⟨k, by ring⟩)

end Result

theorem least_solution {modulus lower first c : ℤ} (positive : 0 < modulus)
    (solution : c ≡ first [ZMOD modulus]) (above : lower ≤ c) :
    lower ≤ lower + (first - lower) % modulus ∧ lower + (first - lower) % modulus ≤ c ∧
      lower + (first - lower) % modulus ≡ c [ZMOD modulus] := by
  have nonneg := Int.emod_nonneg (first - lower) positive.ne'
  have same : (first - lower) % modulus = (c - lower) % modulus := (solution.sub rfl).symm
  refine ⟨by omega, ?_, ?_⟩
  · rw [same]
    have split := Int.mul_ediv_add_emod (c - lower) modulus
    have whole := mul_nonneg positive.le (Int.ediv_nonneg (sub_nonneg.mpr above) positive.le)
    omega
  · rw [same]
    calc lower + (c - lower) % modulus ≡ lower + (c - lower) [ZMOD modulus] :=
          Int.ModEq.add_left lower (Int.mod_modEq _ _)
      _ = c := by ring

end Euclid

end AbletonLink.Library
