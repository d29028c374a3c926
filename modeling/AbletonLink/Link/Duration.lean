import AbletonLink.Library.Binary64
import AbletonLink.Library.MachineInt

namespace AbletonLink.Link

open Library.MachineInt

/-- A `chrono::Duration`: nanoseconds between `-i64::MAX` and `i64::MAX` milliseconds. -/
structure Duration where
  nanos : Int
  lower : -9223372036854775807000000 ≤ nanos
  upper : nanos ≤ 9223372036854775807000000
  deriving DecidableEq

namespace Duration

def minNanos : Int := -9223372036854775807000000
def maxNanos : Int := 9223372036854775807000000

@[ext] theorem ext {a b : Duration} (h : a.nanos = b.nanos) : a = b := by
  cases a
  cases b
  cases h
  rfl

def zero : Duration := ⟨0, by decide, by decide⟩
def MIN : Duration := ⟨minNanos, by decide, by decide⟩
def MAX : Duration := ⟨maxNanos, by decide, by decide⟩

instance : Inhabited Duration := ⟨zero⟩
instance : LT Duration := ⟨fun a b => a.nanos < b.nanos⟩
instance : LE Duration := ⟨fun a b => a.nanos ≤ b.nanos⟩
instance (a b : Duration) : Decidable (a < b) := inferInstanceAs (Decidable (a.nanos < b.nanos))
instance (a b : Duration) : Decidable (a ≤ b) := inferInstanceAs (Decidable (a.nanos ≤ b.nanos))

theorem lt_iff {a b : Duration} : a < b ↔ a.nanos < b.nanos := Iff.rfl

def max (a b : Duration) : Duration := if b < a then a else b

theorem le_max_right (a b : Duration) : b ≤ a.max b := by
  unfold max
  split
  · rename_i h
    exact Int.le_of_lt h
  · exact Int.le_refl _

def neg (d : Duration) : Duration :=
  ⟨-d.nanos, by have := d.upper; omega, by have := d.lower; omega⟩

def microseconds (n : Int64) : Duration :=
  ⟨n.toInt * 1000,
    by have := (i64_bounds n).1; unfold i64Min at this; omega,
    by have := (i64_bounds n).2; unfold i64Max at this; omega⟩

@[simp] theorem nanos_microseconds (n : Int64) : (microseconds n).nanos = n.toInt * 1000 := rfl

def numMicroseconds (d : Duration) : Option Int64 := tryI64 (d.nanos.tdiv 1000)

def micros (d : Duration) : Int64 :=
  d.numMicroseconds.getD (if d < zero then Int64.minValue else Int64.maxValue)

end Duration

/-- `duration_from_nanos`; `Duration.nanos` is its inverse `duration_nanos`. -/
def durationFromNanos (nanos : Int) : Duration :=
  ⟨max Duration.minNanos (min nanos Duration.maxNanos),
    by unfold Duration.minNanos; omega,
    by unfold Duration.minNanos Duration.maxNanos; omega⟩

def FitsDuration (nanos : Int) : Prop := Duration.minNanos ≤ nanos ∧ nanos ≤ Duration.maxNanos

instance (nanos : Int) : Decidable (FitsDuration nanos) := inferInstanceAs (Decidable (_ ∧ _))

theorem Duration.fits (d : Duration) : FitsDuration d.nanos := ⟨d.lower, d.upper⟩

theorem nanos_durationFromNanos {nanos : Int} (h : FitsDuration nanos) :
    (durationFromNanos nanos).nanos = nanos := by
  unfold FitsDuration at h
  show max Duration.minNanos (min nanos Duration.maxNanos) = nanos
  omega

theorem nanos_durationFromNanos_iff {nanos : Int} :
    (durationFromNanos nanos).nanos = nanos ↔ FitsDuration nanos := by
  constructor
  · intro same
    rw [← same]
    exact Duration.fits _
  · exact nanos_durationFromNanos

@[simp] theorem durationFromNanos_nanos (d : Duration) : durationFromNanos d.nanos = d :=
  Duration.ext (nanos_durationFromNanos d.fits)

theorem FitsDuration.i128 {nanos : Int} (h : FitsDuration nanos) : FitsI128 nanos := by
  unfold FitsDuration Duration.minNanos Duration.maxNanos at h
  unfold FitsI128 i128Min i128Max
  omega

def roundRatio (numerator denominator : Int) : Int :=
  if denominator = 0 then
    if numerator < 0 then i128Min else if numerator = 0 then 0 else i128Max
  else
    let quotient := numerator.tdiv denominator
    let remainder := numerator.tmod denominator
    if remainder.natAbs ≥ (denominator.natAbs + 1) / 2 then
      quotient + (if (decide (numerator < 0)) = (decide (denominator < 0)) then 1 else -1)
    else quotient

namespace Duration

theorem tdiv_micros (n : Int) :
    n < (n.tdiv 1000 + 1) * 1000 ∧ (n.tdiv 1000 - 1) * 1000 < n := by
  have split := Int.mul_tdiv_add_tmod n 1000
  have upper := Int.tmod_lt_of_pos n (show (0 : Int) < 1000 by decide)
  have lower := Int.lt_tmod_of_pos n (show (0 : Int) < 1000 by decide)
  omega

/-- The successor of a timestamp's whole microseconds lies strictly after the timestamp, on
either side of zero and where `micros` saturates below. -/
theorem lt_successor {d : Duration} {next n : Int64}
    (h : checkedAddI64 d.micros 1 = some next) (hn : next ≤ n) : d < microseconds n := by
  have hnext : next.toInt = d.micros.toInt + 1 := tryI64_eq_some h
  have hle : next.toInt ≤ n.toInt := Int64.le_iff_toInt_le.mp hn
  have bounds := tdiv_micros d.nanos
  rw [lt_iff, nanos_microseconds]
  unfold micros at hnext
  cases hm : d.numMicroseconds with
  | some m =>
    have hm' := tryI64_eq_some hm
    simp only [hm, Option.getD_some] at hnext
    omega
  | none =>
    have out := tryI64_eq_none hm
    have minValue : Int64.minValue.toInt = i64Min := by decide
    have maxValue : Int64.maxValue.toInt = i64Max := by decide
    simp only [hm, Option.getD_none] at hnext
    split at hnext
    · rename_i negative
      have sign : d.nanos < 0 := negative
      unfold i64Max at out
      omega
    · have := (i64_bounds next).2
      omega

end Duration

end AbletonLink.Link
