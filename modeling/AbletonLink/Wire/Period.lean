import AbletonLink.Library.Rounding
import AbletonLink.Wire.Payload

/-! The period of a beat, which the wire carries in place of the tempo. -/

namespace AbletonLink.Link.Tempo

open Library Library.MachineInt Library.Rounding Float.Model.UnpackedFloat

theorem normal_nanos : Normal (60.0 * 1e9) .positive 60000000000 := by
  refine ⟨7864320000000000, -17, by decide, by rfl, by decide, by decide, by decide, by decide, ?_⟩
  norm_num

theorem normal_micros : Normal (60.0 * 1e6) .positive 60000000 := by
  refine ⟨8053063680000000, -27, by decide, by rfl, by decide, by decide, by decide, by decide, ?_⟩
  norm_num

def signOf (n : Int) : Sign := if n < 0 then .negative else .positive

theorem positive_div (sign : Sign) : Sign.positive / sign = sign := by
  cases sign <;> rfl

def Near (q v : ℚ) : Prop := |q - v| ≤ v / 2 ^ 53

theorem Near.bounds {q v : ℚ} (h : Near q v) :
    v * (1 - 1 / 2 ^ 53) ≤ q ∧ q ≤ v * (1 + 1 / 2 ^ 53) := by
  obtain ⟨below, above⟩ := abs_le.mp h
  constructor <;> linarith

theorem Near.half {q v : ℚ} (h : Near q v) (positive : 0 < v) : v / 2 ≤ q ∧ q ≤ 2 * v := by
  obtain ⟨below, above⟩ := h.bounds
  constructor <;> nlinarith

theorem fromPeriod_normal {p : Int64} (nonzero : p.toInt ≠ 0) :
    ∃ q v : ℚ, Normal (fromPeriod (.microseconds p)).value (signOf p.toInt) v ∧
      Near q (1000 * p.toInt.natAbs) ∧ Near v (60000000000 / q) := by
  have range := i64_bounds p
  unfold i64Min i64Max at range
  have nanos : (p.toInt * 1000).natAbs = 1000 * p.toInt.natAbs := by omega
  have least : (1 : ℚ) ≤ p.toInt.natAbs := by
    have : 1 ≤ p.toInt.natAbs := by omega
    exact_mod_cast this
  have most : (p.toInt.natAbs : ℚ) ≤ 2 ^ 63 := by
    have : p.toInt.natAbs ≤ 2 ^ 63 := by omega
    exact_mod_cast this
  obtain ⟨q, normal, near⟩ := Normal.ofInt (n := p.toInt * 1000) (by omega) (by
    rw [nanos, Nat.cast_mul]
    calc (1000 : ℚ) * p.toInt.natAbs ≤ 1000 * 2 ^ 63 := by gcongr
      _ ≤ 2 ^ (200 : Int) := by norm_num)
  have sign : (if p.toInt * 1000 < 0 then Sign.negative else .positive) = signOf p.toInt := by
    simp only [signOf, show p.toInt * 1000 < 0 ↔ p.toInt < 0 by omega]
  rw [sign] at normal
  have near : Near q (1000 * p.toInt.natAbs) := by
    rw [nanos] at near
    exact_mod_cast near
  have half := near.half (by linarith)
  have positive : 0 < q := by linarith
  obtain ⟨v, tempo, close⟩ := normal_nanos.div normal
    (by
      rw [le_div_iff₀ positive]
      norm_num
      linarith)
    (by
      rw [div_le_iff₀ positive]
      norm_num
      linarith)
  rw [positive_div] at tempo
  exact ⟨q, v, tempo, near, close⟩

theorem three_roundings {n q v u : ℚ} (first : Near q (1000 * n))
    (second : Near v (60000000000 / q)) (third : Near u (60000000 / v)) (hq : 0 < q) (hv : 0 < v)
    (hu : 0 < u) (small : n ≤ 2 ^ 50) : |u - n| < 1 / 2 := by
  obtain ⟨qlow, qhigh⟩ := first.bounds
  obtain ⟨vlow, vhigh⟩ := second.bounds
  obtain ⟨ulow, uhigh⟩ := third.bounds
  rw [div_mul_eq_mul_div, div_le_iff₀ hq] at vlow
  rw [div_mul_eq_mul_div, le_div_iff₀ hq] at vhigh
  rw [div_mul_eq_mul_div, div_le_iff₀ hv] at ulow
  rw [div_mul_eq_mul_div, le_div_iff₀ hv] at uhigh
  have above : u * (60000000000 * (1 - 1 / 2 ^ 53)) ≤ 60000000 * (1 + 1 / 2 ^ 53) * q := by
    calc u * (60000000000 * (1 - 1 / 2 ^ 53)) ≤ u * (v * q) := by gcongr
      _ = u * v * q := by ring
      _ ≤ 60000000 * (1 + 1 / 2 ^ 53) * q := by gcongr
  have below : 60000000 * (1 - 1 / 2 ^ 53) * q ≤ u * (60000000000 * (1 + 1 / 2 ^ 53)) := by
    calc 60000000 * (1 - 1 / 2 ^ 53) * q ≤ u * v * q := by gcongr
      _ = u * (v * q) := by ring
      _ ≤ u * (60000000000 * (1 + 1 / 2 ^ 53)) := by gcongr
  rw [abs_lt]
  norm_num at *
  constructor <;> linarith

theorem periodMicros_fromPeriod {p : Int64} (small : p.toInt.natAbs ≤ 2 ^ 50) :
    (fromPeriod (.microseconds p)).periodMicros = p.toInt := by
  by_cases zero : p.toInt = 0
  · obtain rfl : p = 0 := Int64.toInt_inj.mp zero
    decide +kernel
  obtain ⟨q, v, tempo, near, close⟩ := fromPeriod_normal zero
  generalize magnitude : p.toInt.natAbs = n at *
  have least : (1 : ℚ) ≤ n := by
    have : 1 ≤ n := by omega
    exact_mod_cast this
  have most : (n : ℚ) ≤ 2 ^ 50 := by exact_mod_cast small
  have half := near.half (by linarith)
  have positive : 0 < q := by linarith
  have exact_positive : 0 < 60000000000 / q := by positivity
  have vhalf := close.half exact_positive
  have vpositive : 0 < v := by linarith
  have vlow : (60000000000 : ℚ) / (2 * (2 * (1000 * 2 ^ 50))) ≤ v := by
    calc (60000000000 : ℚ) / (2 * (2 * (1000 * 2 ^ 50))) ≤ 60000000000 / (2 * q) := by
          gcongr
          linarith
      _ = 60000000000 / q / 2 := by field_simp
      _ ≤ v := vhalf.1
  have vhigh : v ≤ 60000000000 := by
    have : 60000000000 / q ≤ 60000000000 / 500 := by
      gcongr
      linarith
    linarith
  obtain ⟨u, period, closer⟩ := normal_micros.div tempo
    (by
      rw [le_div_iff₀ vpositive]
      norm_num
      linarith)
    (by
      rw [div_le_iff₀ vpositive]
      norm_num at vlow ⊢
      linarith)
  rw [positive_div] at period
  have round : |u - n| < 1 / 2 :=
    three_roundings near close closer positive vpositive period.pos most
  have sign : (signOf p.toInt).apply n = p.toInt := by
    unfold signOf
    split <;> simp only [Sign.apply] <;> omega
  rw [periodMicros, bpm, period.roundAs round, sign]
  have range := i64_bounds p
  unfold i64Min i64Max at range
  unfold i128Min i128Max
  omega

end AbletonLink.Link.Tempo

namespace AbletonLink.Link

open Library.MachineInt

theorem tryI64_toInt (n : Int64) : tryI64 n.toInt = some n := by
  have range := i64_bounds n
  rw [tryI64, if_pos range, Int64.ofInt_toInt]

@[simp] theorem Duration.numMicroseconds_microseconds (n : Int64) :
    (microseconds n).numMicroseconds = some n := by
  rw [numMicroseconds, nanos_microseconds, Int.mul_tdiv_cancel _ (by decide), tryI64_toInt]

@[simp] theorem Duration.micros_microseconds (n : Int64) : (microseconds n).micros = n := by
  simp [micros]

theorem Tempo.microsPerBeat_fromPeriod {p : Int64} (small : p.toInt.natAbs ≤ 2 ^ 50) :
    (fromPeriod (.microseconds p)).microsPerBeat = .microseconds p := by
  have range := i64_bounds p
  unfold i64Min i64Max at range
  apply Duration.ext
  rw [microsPerBeat, periodMicros_fromPeriod small]
  simp only [durationFromNanos, saturate, Duration.minNanos, Duration.maxNanos, i128Min, i128Max,
    Duration.nanos_microseconds]
  omega

end AbletonLink.Link
