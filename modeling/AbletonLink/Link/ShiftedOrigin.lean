import AbletonLink.Link.PhaseLaws

/-! The time origin of a shifted timeline, with and without its whole periods. -/

namespace AbletonLink.Link

open Library Library.MachineInt

namespace Tempo

def exactMicros (t : Tempo) (beats : Int) : Int :=
  roundHalfAway ((beats : ℚ) * t.periodMicros / 1000000)

variable (t : Tempo) (beats : ℤ)

theorem microsFromMicrobeats_of_fits {beats : ℤ} (fits : FitsI128 (t.exactMicros beats)) :
    t.microsFromMicrobeats beats = t.exactMicros beats :=
  (t.microsFromMicrobeats_eq beats).trans (saturate_of_fits fits)

theorem period_parts :
    0 ≤ t.periodMicros.tdiv 1000000 ∧ 0 ≤ t.periodMicros.tmod 1000000 ∨
      t.periodMicros.tdiv 1000000 ≤ 0 ∧ t.periodMicros.tmod 1000000 ≤ 0 := by
  generalize t.periodMicros = period
  rcases le_total 0 period with nonneg | nonpos
  · exact .inl ⟨Int.tdiv_nonneg nonneg (by decide), Int.tmod_nonneg _ nonneg⟩
  · have whole := Int.tdiv_nonneg (neg_nonneg.mpr nonpos) (show (0 : ℤ) ≤ 1000000 by decide)
    have rest := Int.tmod_nonneg 1000000 (neg_nonneg.mpr nonpos)
    rw [Int.neg_tdiv] at whole
    rw [Int.neg_tmod] at rest
    exact .inr ⟨neg_nonneg.mp whole, neg_nonneg.mp rest⟩

theorem exactMicros_eq :
    t.exactMicros beats = beats * t.periodMicros.tdiv 1000000 +
      roundRatio (beats * t.periodMicros.tmod 1000000) 1000000 := by
  have parts := t.period_parts
  have split : (t.periodMicros : ℚ) =
      1000000 * t.periodMicros.tdiv 1000000 + t.periodMicros.tmod 1000000 := by
    exact_mod_cast (Int.mul_tdiv_add_tmod t.periodMicros 1000000).symm
  have product : (beats : ℚ) * t.periodMicros / 1000000 =
      ((beats * t.periodMicros.tdiv 1000000 : ℤ) : ℚ) +
        ((beats * t.periodMicros.tmod 1000000 : ℤ) : ℚ) / (1000000 : ℤ) := by
    push_cast
    rw [split]
    ring
  have oneSide : 0 ≤ beats * t.periodMicros.tdiv 1000000 ∧
        0 ≤ ((beats * t.periodMicros.tmod 1000000 : ℤ) : ℚ) / (1000000 : ℤ) ∨
      beats * t.periodMicros.tdiv 1000000 ≤ 0 ∧
        ((beats * t.periodMicros.tmod 1000000 : ℤ) : ℚ) / (1000000 : ℤ) ≤ 0 := by
    have scaled {x : ℤ} : (0 ≤ x → 0 ≤ (x : ℚ) / (1000000 : ℤ)) ∧
        (x ≤ 0 → (x : ℚ) / (1000000 : ℤ) ≤ 0) :=
      ⟨fun h => div_nonneg (by exact_mod_cast h) (by norm_num),
        fun h => div_nonpos_of_nonpos_of_nonneg (by exact_mod_cast h) (by norm_num)⟩
    rcases le_total 0 beats with hb | hb
    · obtain ⟨whole, rest⟩ | ⟨whole, rest⟩ := parts
      · exact .inl ⟨mul_nonneg hb whole, scaled.1 (mul_nonneg hb rest)⟩
      · exact .inr ⟨mul_nonpos_of_nonneg_of_nonpos hb whole,
          scaled.2 (mul_nonpos_of_nonneg_of_nonpos hb rest)⟩
    · obtain ⟨whole, rest⟩ | ⟨whole, rest⟩ := parts
      · exact .inr ⟨mul_nonpos_of_nonpos_of_nonneg hb whole,
          scaled.2 (mul_nonpos_of_nonpos_of_nonneg hb rest)⟩
      · exact .inl ⟨mul_nonneg_of_nonpos_of_nonpos hb whole,
          scaled.1 (mul_nonneg_of_nonpos_of_nonpos hb rest)⟩
  unfold exactMicros
  rw [product, roundHalfAway_int_add oneSide, roundRatio_eq _ (by decide)]

theorem exactMicros_le (bound : ℕ) (short : t.periodMicros.natAbs ≤ bound * 1000000) :
    (t.exactMicros beats).natAbs ≤ beats.natAbs * bound := by
  have most : |(beats : ℚ) * t.periodMicros / 1000000| ≤ ((beats.natAbs * bound : ℤ) : ℚ) := by
    have short : |(t.periodMicros : ℚ)| ≤ bound * 1000000 := by
      rw [← Int.cast_abs, ← Int.natCast_natAbs]
      exact_mod_cast short
    rw [abs_div, abs_mul, show |(1000000 : ℚ)| = 1000000 by norm_num, div_le_iff₀ (by norm_num)]
    push_cast
    rw [mul_assoc]
    gcongr
  obtain ⟨low, high⟩ := abs_le.mp (abs_roundHalfAway_le most)
  show (roundHalfAway _).natAbs ≤ _
  omega

end Tempo

section Shift

variable (tl : Timeline) (shift : Int)

def plainShiftMicros : Int :=
  tl.tempo.exactMicros (shift - tl.beatOrigin.value.toInt) -
    tl.tempo.exactMicros (-tl.beatOrigin.value.toInt)

structure Unsaturated : Prop where
  whole : FitsI128 (shift * tl.tempo.periodMicros.tdiv 1000000)
  delta : FitsI128 (plainShiftMicros tl shift)
  nanos : FitsI128 (plainShiftMicros tl shift * 1000)
  origin : FitsI128 (tl.timeOrigin.nanos - plainShiftMicros tl shift * 1000)
  before : FitsI128 (tl.tempo.exactMicros (-tl.beatOrigin.value.toInt))
  after : FitsI128 (tl.tempo.exactMicros (shift - tl.beatOrigin.value.toInt))

def AskedShift : Prop :=
  FitsI64 shift ∨ ∃ (time : Duration) (beat quantum : Beats), shift =
    closestPhaseMatchWide (toPhaseEncodedMicrobeats tl time quantum) beat.value.toInt
      quantum.value.toInt - toPhaseEncodedMicrobeats tl time quantum

theorem closestPhaseMatchWide_sub_le {x : ℤ} (fits : FitsI128 x) (target : ℤ) (quantum : Beats) :
    (closestPhaseMatchWide x target quantum.value.toInt - x).natAbs ≤ 2 ^ 63 := by
  have size := quantum_le quantum
  by_cases zero : quantum.value.toInt = 0
  · rw [zero, closestPhaseMatchWide_zero]
    omega
  · have half := bmod_half zero (target - x)
    rw [closestPhaseMatchWide_eq zero]
    unfold FitsI128 i128Min i128Max at fits
    unfold saturate i128Min i128Max
    omega

variable {tl shift}

theorem AskedShift.natAbs_le (asked : AskedShift tl shift) : shift.natAbs ≤ 2 ^ 63 := by
  obtain fits | ⟨time, beat, quantum, rfl⟩ := asked
  · unfold FitsI64 i64Min i64Max at fits
    omega
  · refine closestPhaseMatchWide_sub_le ?_ _ _
    rw [toPhaseEncodedMicrobeats_eq]
    exact fits_saturate _

theorem AskedShift.unsaturated (asked : AskedShift tl shift)
    (short : tl.tempo.periodMicros.natAbs < 2 ^ 64) : Unsaturated tl shift := by
  have near := asked.natAbs_le
  have origin := i64_bounds tl.beatOrigin.value
  unfold i64Min i64Max at origin
  have before := tl.tempo.exactMicros_le (-tl.beatOrigin.value.toInt) (2 ^ 45) (by omega)
  have after := tl.tempo.exactMicros_le (shift - tl.beatOrigin.value.toInt) (2 ^ 45) (by omega)
  have periods : (tl.tempo.periodMicros.tdiv 1000000).natAbs ≤ 2 ^ 45 := by
    rw [Int.natAbs_tdiv]
    show tl.tempo.periodMicros.natAbs / 1000000 ≤ 2 ^ 45
    omega
  have whole : (shift * tl.tempo.periodMicros.tdiv 1000000).natAbs ≤ 2 ^ 63 * 2 ^ 45 := by
    rw [Int.natAbs_mul]
    exact Nat.mul_le_mul near periods
  replace before : (tl.tempo.exactMicros (-tl.beatOrigin.value.toInt)).natAbs ≤ 2 ^ 109 :=
    before.trans (by omega)
  replace after : (tl.tempo.exactMicros (shift - tl.beatOrigin.value.toInt)).natAbs ≤ 2 ^ 109 :=
    after.trans (by omega)
  have delta : (plainShiftMicros tl shift).natAbs ≤ 2 ^ 110 := by
    unfold plainShiftMicros
    omega
  have time := tl.timeOrigin.fits
  unfold FitsDuration Duration.minNanos Duration.maxNanos at time
  exact {
    whole := .of_natAbs_lt (by omega)
    delta := .of_natAbs_lt (by omega)
    nanos := .of_natAbs_lt (by omega)
    origin := .of_natAbs_lt (by omega)
    before := .of_natAbs_lt (by omega)
    after := .of_natAbs_lt (by omega) }

/-- Cancelling the whole periods of a shift changes neither rounding. -/
theorem shiftedTimeOriginNanos_plain
    (bounded : AskedShift tl shift ∧ tl.tempo.periodMicros.natAbs < 2 ^ 64 ∨
      Unsaturated tl shift) :
    shiftedTimeOriginNanos tl shift = tl.timeOrigin.nanos -
      1000 * (tl.tempo.microsFromMicrobeats (shift - tl.beatOrigin.value.toInt) -
        tl.tempo.microsFromMicrobeats (-tl.beatOrigin.value.toInt)) := by
  have exact : Unsaturated tl shift := by
    obtain ⟨asked, short⟩ | exact := bounded
    · exact asked.unsaturated short
    · exact exact
  have cancelled : shift * tl.tempo.periodMicros.tdiv 1000000 +
      (roundRatio ((shift - tl.beatOrigin.value.toInt) * tl.tempo.periodMicros.tmod 1000000)
          1000000 -
        roundRatio (-tl.beatOrigin.value.toInt * tl.tempo.periodMicros.tmod 1000000) 1000000) =
      plainShiftMicros tl shift := by
    unfold plainShiftMicros
    rw [Tempo.exactMicros_eq, Tempo.exactMicros_eq]
    ring
  rw [tl.tempo.microsFromMicrobeats_of_fits exact.before,
    tl.tempo.microsFromMicrobeats_of_fits exact.after]
  unfold shiftedTimeOriginNanos
  dsimp only
  rw [saturate_of_fits exact.whole, cancelled, saturate_of_fits exact.delta,
    saturate_of_fits exact.nanos, saturate_of_fits exact.origin, mul_comm]
  rfl

theorem shiftedTimeOriginNanos_plain_negative :
    let tl : Timeline := ⟨⟨-97.0⟩, ⟨1500001⟩, .microseconds 12345⟩
    shiftedTimeOriginNanos tl (-7000003) = tl.timeOrigin.nanos -
      1000 * (tl.tempo.microsFromMicrobeats (-7000003 - 1500001) -
        tl.tempo.microsFromMicrobeats (-1500001)) :=
  shiftedTimeOriginNanos_plain (.inl ⟨.inl (by decide), by decide +kernel⟩)

end Shift

end AbletonLink.Link
