import Mathlib.Data.UInt
import Mathlib.Tactic

/-! Saturating, checked and narrowing operations of the fixed-width integers.  128-bit values are
kept as `Int` and `Nat` beside their limits; 64-bit values are `Int64`. -/

namespace AbletonLink.Library.MachineInt

def i128Min : Int := -2 ^ 127
def i128Max : Int := 2 ^ 127 - 1
def u128Max : Nat := 2 ^ 128 - 1

/-- The result of a saturating `i128` operation whose exact value is `x`. -/
def saturate (x : Int) : Int := max i128Min (min x i128Max)

/-- The result of a saturating `u128` operation whose exact value is `x`. -/
def saturateU (x : Nat) : Nat := min x u128Max

def checked (x : Int) : Option Int := if i128Min ≤ x ∧ x ≤ i128Max then some x else none

def i64Min : Int := -2 ^ 63
def i64Max : Int := 2 ^ 63 - 1

def narrow (x : Int) : Int64 := Int64.ofInt (max i64Min (min x i64Max))

def tryI64 (x : Int) : Option Int64 :=
  if i64Min ≤ x ∧ x ≤ i64Max then some (Int64.ofInt x) else none

def checkedAddI64 (x y : Int64) : Option Int64 := tryI64 (x.toInt + y.toInt)

theorem toInt_ofInt {x : Int} (lo : i64Min ≤ x) (hi : x ≤ i64Max) :
    (Int64.ofInt x).toInt = x := by
  apply Int64.toInt_ofInt_of_le
  · exact lo
  · unfold i64Max at hi
    omega

theorem i64_bounds (x : Int64) : i64Min ≤ x.toInt ∧ x.toInt ≤ i64Max := by
  have lo := x.le_toInt
  have hi := x.toInt_lt
  unfold i64Min i64Max
  omega

theorem le_max_right_i64 (x y : Int64) : y ≤ max x y := by
  show y ≤ if x ≤ y then y else x
  split
  · exact Int64.le_refl y
  · exact Int64.le_of_lt (Int64.not_le.mp ‹_›)

theorem tryI64_eq_some {x : Int} {y : Int64} (h : tryI64 x = some y) : y.toInt = x := by
  unfold tryI64 at h
  split at h
  · rename_i bounds
    cases h
    exact toInt_ofInt bounds.1 bounds.2
  · cases h

theorem tryI64_eq_none {x : Int} (h : tryI64 x = none) : x < i64Min ∨ i64Max < x := by
  unfold tryI64 at h
  split at h
  · cases h
  · omega

/-- The result of a plain `u128` operation whose exact value is `x`, `none` where it overflows. -/
def checkedU (x : Int) : Option Nat := if 0 ≤ x ∧ x ≤ u128Max then some x.toNat else none

/-- A left shift of a `u128` that loses no bit, `none` where its amount is out of range or it
does. -/
def checkedShl (x shift : Nat) : Option Nat :=
  if shift < 128 ∧ x <<< shift ≤ u128Max then some (x <<< shift) else none

def wrappingShl (x shift : Nat) : Option Nat :=
  if shift < 128 then some (x <<< shift % 2 ^ 128) else none

def checkedShr (x shift : Nat) : Option Nat := if shift < 128 then some (x >>> shift) else none

def FitsI128 (x : Int) : Prop := i128Min ≤ x ∧ x ≤ i128Max

instance (x : Int) : Decidable (FitsI128 x) := inferInstanceAs (Decidable (_ ∧ _))

theorem FitsI128.of_natAbs_lt {x : Int} (small : x.natAbs < 2 ^ 127) : FitsI128 x := by
  unfold FitsI128 i128Min i128Max
  omega

theorem fits_saturate (x : Int) : FitsI128 (saturate x) := by
  unfold FitsI128 saturate i128Min i128Max
  omega

theorem saturate_of_fits {x : Int} (h : FitsI128 x) : saturate x = x := by
  unfold FitsI128 at h
  unfold saturate
  omega

@[simp] theorem saturate_saturate (x : Int) : saturate (saturate x) = saturate x :=
  saturate_of_fits (fits_saturate x)

theorem saturate_add_left {x y : Int} (same : 0 ≤ x ∧ 0 ≤ y ∨ x ≤ 0 ∧ y ≤ 0) :
    saturate (saturate x + y) = saturate (x + y) := by
  unfold saturate i128Min i128Max
  omega

theorem saturate_add {x y : Int} (same : 0 ≤ x ∧ 0 ≤ y ∨ x ≤ 0 ∧ y ≤ 0) :
    saturate (saturate x + saturate y) = saturate (x + y) := by
  unfold saturate i128Min i128Max
  omega

theorem checked_of_fits {x : Int} (h : FitsI128 x) : checked x = some x := if_pos h

theorem checked_eq_some {x y : Int} (h : checked x = some y) : FitsI128 x ∧ y = x := by
  unfold checked at h
  split at h
  · rename_i fits
    exact ⟨fits, (Option.some.inj h).symm⟩
  · cases h

theorem toInt_max_i64 (x y : Int64) : (max x y).toInt = max x.toInt y.toInt := by
  show (if x ≤ y then y else x).toInt = _
  split
  next le => rw [max_eq_right (Int64.le_iff_toInt_le.mp le)]
  next gt => rw [max_eq_left (Int64.lt_iff_toInt_lt.mp (Int64.not_le.mp gt)).le]

theorem checkedAddI64_one (x : Int64) :
    checkedAddI64 x 1 = none ∧ x.toInt = i64Max ∨
      ∃ y, checkedAddI64 x 1 = some y ∧ y.toInt = x.toInt + 1 := by
  have bounds := i64_bounds x
  have one : (1 : Int64).toInt = 1 := by decide
  cases sum : checkedAddI64 x 1 with
  | none =>
    have out := tryI64_eq_none sum
    rw [one] at out
    exact .inl ⟨rfl, by omega⟩
  | some y => exact .inr ⟨y, rfl, one ▸ tryI64_eq_some sum⟩

def FitsI64 (x : Int) : Prop := i64Min ≤ x ∧ x ≤ i64Max

instance (x : Int) : Decidable (FitsI64 x) := inferInstanceAs (Decidable (_ ∧ _))

theorem FitsI64.i128 {x : Int} (h : FitsI64 x) : FitsI128 x := by
  unfold FitsI64 i64Min i64Max at h
  unfold FitsI128 i128Min i128Max
  omega

theorem checked_bind_tryI64 (x : Int) :
    ¬FitsI64 x ∧ (checked x).bind tryI64 = none ∨
      FitsI64 x ∧ ∃ y, (checked x).bind tryI64 = some y ∧ y.toInt = x := by
  by_cases fits : FitsI64 x
  · rw [checked_of_fits fits.i128]
    exact .inr ⟨fits, _, if_pos fits, toInt_ofInt fits.1 fits.2⟩
  · refine .inl ⟨fits, ?_⟩
    unfold checked
    split
    · exact if_neg fits
    · rfl

theorem checkedU_of_le {n : Nat} (h : n ≤ u128Max) : checkedU n = some n :=
  if_pos ⟨Int.natCast_nonneg n, by exact_mod_cast h⟩

theorem checkedShr_of_lt {x shift : Nat} (h : shift < 128) :
    checkedShr x shift = some (x >>> shift) := if_pos h

theorem checkedShl_of_le {x shift : Nat} (h : shift < 128) (fits : x <<< shift ≤ u128Max) :
    checkedShl x shift = some (x <<< shift) := if_pos ⟨h, fits⟩

theorem checkedShl_one {shift : Nat} (h : shift < 128) : checkedShl 1 shift = some (2 ^ shift) := by
  have power : 2 ^ shift ≤ 2 ^ 127 := Nat.pow_le_pow_right two_pos (by omega)
  rw [checkedShl_of_le h (by rw [Nat.one_shiftLeft]; unfold u128Max; omega), Nat.one_shiftLeft]

theorem sum_u32 {α : Type} (values : List α) {size : α → UInt32} {wire : α → Nat}
    (each : ∀ value, size value = UInt32.ofNat (wire value)) :
    (values.map size).sum = UInt32.ofNat (values.map wire).sum := by
  induction values with
  | nil => rfl
  | cons value values ih =>
    rw [List.map_cons, List.sum_cons, List.map_cons, List.sum_cons, ih, each, UInt32.ofNat_add]

theorem toNat_sum_u32 {α : Type} {values : List α} {size : α → UInt32} {wire : α → Nat}
    (each : ∀ value, size value = UInt32.ofNat (wire value))
    (small : (values.map wire).sum < 2 ^ 32) :
    (values.map size).sum.toNat = (values.map wire).sum := by
  rw [sum_u32 values each, UInt32.toNat_ofNat_of_lt' small]

end AbletonLink.Library.MachineInt
