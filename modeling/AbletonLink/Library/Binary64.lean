import Mathlib

/-! IEEE equality, clamping and integer rounding of `Float`.  On nonzero operands `==` decides
equality. -/

namespace AbletonLink.Library.Binary64

theorem beq_self {x : Float} (h : x.isNaN = false) : (x == x) = true := by
  rw [Float.isNaN_eq_decide_eq_nan, decide_eq_false_iff_not] at h
  exact Float.beq_self_iff.mpr h

theorem beq_symm {x y : Float} (h : (x == y) = true) : (y == x) = true := by
  obtain ⟨hx, hy, same⟩ := Float.beq_iff_ne_nan_and_eq.mp h
  refine Float.beq_iff_ne_nan_and_eq.mpr ⟨hy, hx, ?_⟩
  rcases same with same | zeros | zeros
  · exact .inl same.symm
  · exact .inr (.inr zeros.symm)
  · exact .inr (.inl zeros.symm)

theorem eq_of_beq {x y : Float} (h : (x == y) = true) (hy : y ≠ 0) (hy' : y ≠ -0) : x = y := by
  obtain ⟨-, -, same | zeros | zeros⟩ := Float.beq_iff_ne_nan_and_eq.mp h
  · exact same
  · exact absurd zeros.2 hy'
  · exact absurd zeros.2 hy

theorem isNaN_of_isFinite {x : Float} (h : x.isFinite = true) : x.isNaN = false := by
  simp only [Float.isFinite, Float.Model.isFinite] at h
  simp only [Float.isNaN, Float.Model.isNaN]
  cases hu : x.toModel.unpack <;>
    simp_all [Float.Model.UnpackedFloat.isFinite, Float.Model.UnpackedFloat.isNaN]

/-! Conversions to integers. -/

/-- Mantissa, exponent and sign with `x = sign * mantissa * 2 ^ exponent` for a finite `x`. -/
def integerDecode (x : Float) : Nat × Int × Int :=
  let bits := x.toBits.toNat
  let sign := if bits >>> 63 = 0 then 1 else -1
  let exponent := bits >>> 52 &&& 0x7ff
  let mantissa :=
    if exponent = 0 then (bits &&& 0xfffffffffffff) <<< 1
    else (bits &&& 0xfffffffffffff) ||| 0x10000000000000
  (mantissa, exponent - 1075, sign)

theorem integerDecode_bounds {x : Float} {mantissa : Nat} {exponent sign : Int}
    (h : integerDecode x = (mantissa, exponent, sign)) :
    mantissa < 2 ^ 53 ∧ -1075 ≤ exponent ∧ exponent ≤ 972 ∧ (sign = 1 ∨ sign = -1) ∧
      (exponent = -1075 ∨ 2 ^ 52 ≤ mantissa) := by
  have fraction : x.toBits.toNat &&& 0xfffffffffffff < 2 ^ 52 := by
    rw [show 0xfffffffffffff = 2 ^ 52 - 1 from rfl, Nat.and_two_pow_sub_one_eq_mod]
    exact Nat.mod_lt _ (by decide)
  have field : x.toBits.toNat >>> 52 &&& 0x7ff < 2 ^ 11 := by
    rw [show 0x7ff = 2 ^ 11 - 1 from rfl, Nat.and_two_pow_sub_one_eq_mod]
    exact Nat.mod_lt _ (by decide)
  have hidden : (x.toBits.toNat &&& 0xfffffffffffff) ||| 0x10000000000000 =
      2 ^ 52 + (x.toBits.toNat &&& 0xfffffffffffff) := by
    rw [Nat.or_comm, show (0x10000000000000 : Nat) = 2 ^ 52 * 1 from rfl,
      ← Nat.two_pow_add_eq_or_of_lt fraction, Nat.mul_one]
  simp only [integerDecode, Prod.mk.injEq] at h
  obtain ⟨hm, he, hs⟩ := h
  generalize x.toBits.toNat &&& 0xfffffffffffff = low at fraction hidden hm
  generalize x.toBits.toNat >>> 52 &&& 0x7ff = high at field hm he
  rw [hidden, Nat.shiftLeft_eq] at hm
  refine ⟨?_, by omega, by omega, ?_, ?_⟩
  · split at hm <;> omega
  · split at hs <;> omega
  · split at hm <;> omega

theorem ext_bits {x y : Float} (same : x.toBits.toNat = y.toBits.toNat) : x = y := by
  obtain ⟨⟨bits, valid⟩⟩ := x
  obtain ⟨⟨bits', valid'⟩⟩ := y
  obtain rfl : bits = bits' := UInt64.toNat_inj.mp same
  rfl

theorem mantissa_eq_zero_iff {x : Float} {mantissa : Nat} {exponent sign : Int}
    (h : integerDecode x = (mantissa, exponent, sign)) : mantissa = 0 ↔ (x == 0.0) = true := by
  constructor
  · rintro rfl
    simp only [integerDecode, Prod.mk.injEq] at h
    have zero := h.1
    have bound := x.toBits.toNat_lt
    rw [show 0x7ff = 2 ^ 11 - 1 from rfl, show 0xfffffffffffff = 2 ^ 52 - 1 from rfl,
      Nat.and_two_pow_sub_one_eq_mod, Nat.and_two_pow_sub_one_eq_mod, Nat.shiftRight_eq_div_pow,
      Nat.shiftLeft_eq] at zero
    obtain plus | minus : x.toBits.toNat = 0 ∨ x.toBits.toNat = 2 ^ 63 := by
      split at zero
      · omega
      · have := Nat.right_le_or (n := x.toBits.toNat % 2 ^ 52) (m := 0x10000000000000)
        omega
    · rw [ext_bits (y := 0.0) (plus.trans (by decide))]
      decide
    · rw [ext_bits (y := -0.0) (minus.trans (by decide))]
      decide
  · intro zero
    obtain ⟨-, -, rfl | ⟨rfl, -⟩ | ⟨rfl, -⟩⟩ := Float.beq_iff_ne_nan_and_eq.mp zero
    · rw [show integerDecode 0.0 = (0, -1075, 1) by decide] at h
      exact (Prod.mk.inj h).1.symm
    · rw [show integerDecode 0 = (0, -1075, 1) by decide] at h
      exact (Prod.mk.inj h).1.symm
    · rw [show integerDecode (-0) = (0, -1075, -1) by decide] at h
      exact (Prod.mk.inj h).1.symm

def value (x : Float) : ℚ :=
  let (mantissa, exponent, sign) := integerDecode x
  sign * mantissa * 2 ^ exponent

theorem value_eq {x : Float} {mantissa : Nat} {exponent sign : Int}
    (h : integerDecode x = (mantissa, exponent, sign)) :
    value x = sign * mantissa * 2 ^ exponent := by
  unfold value
  rw [h]

theorem value_eq_zero_iff {x : Float} : value x = 0 ↔ (x == 0.0) = true := by
  obtain ⟨⟨mantissa, exponent, sign⟩, decoded⟩ : ∃ d, integerDecode x = d := ⟨_, rfl⟩
  obtain ⟨-, -, -, one, -⟩ := integerDecode_bounds decoded
  have signed : (sign : ℚ) ≠ 0 := by
    obtain rfl | rfl := one <;> norm_num
  rw [value_eq decoded, ← mantissa_eq_zero_iff decoded,
    mul_eq_zero_iff_right (zpow_ne_zero _ two_ne_zero), mul_eq_zero_iff_left signed]
  exact Nat.cast_eq_zero

theorem value_ne_zero_iff {x : Float} : value x ≠ 0 ↔ (x == 0.0) = false := by
  rw [Ne, value_eq_zero_iff, Bool.not_eq_true]

def roundScaled (mantissa : Nat) (exponent : Int) : Nat :=
  if 0 ≤ exponent then mantissa <<< exponent.toNat
  else (mantissa + 2 ^ (exponent.natAbs - 1)) / 2 ^ exponent.natAbs

/-- `x.round()` followed by a saturating cast into `[lo, hi]`; NaN goes to zero. -/
def roundAs (lo hi : Int) (x : Float) : Int :=
  if x.isNaN then 0
  else if x.isInf then (if x < 0.0 then lo else hi)
  else
    let (mantissa, exponent, sign) := integerDecode x
    max lo (min hi (sign * roundScaled mantissa exponent))

def clamp (x lo hi : Float) : Float :=
  let x := if x < lo then lo else x
  if hi < x then hi else x

end AbletonLink.Library.Binary64
