import AbletonLink.Library.Dyadic
import AbletonLink.Link.TimelineLaws
import AbletonLink.Wire.Period

/-! The periods of clamped tempos. -/

namespace AbletonLink.Link

open Library Library.MachineInt Library.Rounding

def Tempo.InRange (t : Tempo) : Prop := 60060 ≤ t.periodMicros ∧ t.periodMicros ≤ 3000000

instance (t : Tempo) : Decidable t.InRange := inferInstanceAs (Decidable (_ ∧ _))

namespace Tempo.InRange

variable {t : Tempo} (range : t.InRange)

include range

theorem roundHalfAway_le (x : ℤ) :
    (roundHalfAway ((x : ℚ) * t.periodMicros / 1000)).natAbs ≤ 3000 * x.natAbs := by
  obtain ⟨least, most⟩ := range
  have product : |x * t.periodMicros| ≤ 3000 * x.natAbs * 1000 := by
    rw [abs_mul, Int.abs_eq_natAbs, Int.abs_eq_natAbs]
    have := mul_le_mul_of_nonneg_left (show (t.periodMicros.natAbs : ℤ) ≤ 3000000 by omega)
      (Int.natCast_nonneg x.natAbs)
    linarith
  obtain ⟨low, high⟩ := abs_le.mp product
  have low' : ((-(3000 * x.natAbs) : ℤ) : ℚ) ≤ x * t.periodMicros / 1000 := by
    rw [le_div_iff₀ (by norm_num)]
    exact_mod_cast le_trans (by omega) low
  have high' : (x : ℚ) * t.periodMicros / 1000 ≤ ((3000 * x.natAbs : ℤ) : ℚ) := by
    rw [div_le_iff₀ (by norm_num)]
    exact_mod_cast high
  have low := roundHalfAway_mono low'
  have high := roundHalfAway_mono high'
  rw [roundHalfAway_intCast] at low high
  omega

theorem nanosFromMicrobeats_of_le {x : ℤ} (small : x.natAbs ≤ 2 ^ 100) :
    t.nanosFromMicrobeats x = roundHalfAway ((x : ℚ) * t.periodMicros / 1000) ∧
      FitsI128 (roundHalfAway ((x : ℚ) * t.periodMicros / 1000)) := by
  have bound := range.roundHalfAway_le x
  have fits : FitsI128 (roundHalfAway ((x : ℚ) * t.periodMicros / 1000)) := by
    unfold FitsI128 i128Min i128Max
    omega
  rw [t.nanosFromMicrobeats_eq, saturate_of_fits fits]
  exact ⟨rfl, fits⟩

theorem nanosFromMicrobeats {x : ℤ} (small : x.natAbs ≤ 2 ^ 63) :
    t.nanosFromMicrobeats x = roundHalfAway ((x : ℚ) * t.periodMicros / 1000) ∧
      FitsI128 (roundHalfAway ((x : ℚ) * t.periodMicros / 1000)) :=
  range.nanosFromMicrobeats_of_le (by omega)

theorem nanosFromMicrobeats_neg {x : ℤ} (small : x.natAbs ≤ 2 ^ 63) :
    t.nanosFromMicrobeats (-x) = -t.nanosFromMicrobeats x := by
  rw [(range.nanosFromMicrobeats small).1, (range.nanosFromMicrobeats (by omega)).1, Int.cast_neg,
    neg_mul, neg_div, roundHalfAway_neg]

theorem beq_iff {s : Tempo} : (t == s) = true ↔ t = s := by
  have differs {x : Float} (outside : ¬Tempo.InRange ⟨x⟩) : t.value ≠ x := by
    intro same
    cases t
    exact outside (same ▸ range)
  constructor
  · intro same
    exact (Tempo.ext (Binary64.eq_of_beq (Binary64.beq_symm same) (differs (by decide +kernel))
      (differs (by decide +kernel)))).symm
  · rintro rfl
    refine Binary64.beq_self ?_
    rw [Float.isNaN_eq_decide_eq_nan, decide_eq_false_iff_not]
    exact differs (by decide +kernel)

end Tempo.InRange

theorem Timeline.nanosAtMicrobeats_wide (t : Timeline) (range : t.tempo.InRange) {x : ℤ}
    (fits : FitsI64 x) :
    t.nanosAtMicrobeats x = t.timeOrigin.nanos + roundHalfAway
        (((x - t.beatOrigin.value.toInt : ℤ) : ℚ) * t.tempo.periodMicros / 1000) ∧
      (t.nanosAtMicrobeats x).natAbs ≤ 2 ^ 85 := by
  have bounds := i64_bounds t.beatOrigin.value
  unfold FitsI64 at fits
  unfold i64Min i64Max at bounds fits
  have origin := t.timeOrigin.fits
  unfold FitsDuration Duration.minNanos Duration.maxNanos at origin
  have elapsed := range.roundHalfAway_le (x - t.beatOrigin.value.toInt)
  have wide : t.nanosAtMicrobeats x = t.timeOrigin.nanos + roundHalfAway
      (((x - t.beatOrigin.value.toInt : ℤ) : ℚ) * t.tempo.periodMicros / 1000) := by
    show saturate (t.timeOrigin.nanos +
      t.tempo.nanosFromMicrobeats (x - t.beatOrigin.value.toInt)) = _
    rw [(range.nanosFromMicrobeats_of_le (by omega)).1]
    exact saturate_of_fits (by unfold FitsI128 i128Min i128Max; omega)
  refine ⟨wide, ?_⟩
  rw [wide]
  omega

theorem roundAs_positive {x : Float} {v : ℚ} (h : Normal x .positive v) (lo hi : ℤ) :
    Binary64.roundAs lo hi x = max lo (min hi (roundHalfAway v)) := by
  obtain ⟨m, e, decoded, rfl⟩ := h.integerDecode
  rw [Binary64.roundAs, h.isNaN, h.isInf, roundHalfAway_scaled]
  simp only [decoded]
  simp [Float.Model.UnpackedFloat.Sign.apply]

theorem normal_twenty : Normal 20.0 .positive 20 := by
  refine ⟨5629499534213120, -48, by decide, by rfl, by decide, by decide, by decide, by decide, ?_⟩
  norm_num

theorem normal_nine : Normal 999.0 .positive 999 := by
  refine ⟨8787296929185792, -43, by decide, by rfl, by decide, by decide, by decide, by decide, ?_⟩
  norm_num

theorem Timeline.Clamped.between {t : Timeline} (h : t.Clamped) :
    ∃ v, Normal t.tempo.value .positive v ∧ 20 ≤ v ∧ v ≤ 999 := by
  obtain ⟨number, fix, low⟩ := tempo_clampTempo t
  rw [h] at number fix low
  have high : ¬999.0 < t.tempo.value := by
    rcases clamp_cases t.tempo.value with least | most | ⟨-, -, above⟩
    · rw [← fix, least]
      decide
    · rw [← fix, most]
      decide
    · exact above
  exact normal_twenty.between normal_nine number low high

theorem Timeline.Clamped.inRange {t : Timeline} (h : t.Clamped) : t.tempo.InRange := by
  obtain ⟨v, normal, low, high⟩ := h.between
  have positive : 0 < v := by linarith
  obtain ⟨u, period, near⟩ := Tempo.normal_micros.div normal
    (by
      rw [le_div_iff₀ positive]
      norm_num
      linarith)
    (by
      rw [div_le_iff₀ positive]
      norm_num
      linarith)
  have least : (60000000 : ℚ) / 999 ≤ 60000000 / v := by gcongr
  have most : (60000000 : ℚ) / v ≤ 60000000 / 20 := by gcongr
  obtain ⟨below, above⟩ := abs_le.mp near
  have lower := roundHalfAway_mono (show ((60060 : ℤ) : ℚ) ≤ u by push_cast; linarith)
  rw [roundHalfAway_intCast] at lower
  have upper := (roundHalfAway_near u).2
  have upper : (roundHalfAway u : ℚ) < (3000001 : ℤ) := by
    push_cast
    linarith
  have upper := Int.cast_lt.mp upper
  rw [Tempo.positive_div] at period
  have rounded : t.tempo.periodMicros = roundHalfAway u := by
    unfold Tempo.periodMicros Tempo.bpm
    rw [roundAs_positive period]
    unfold i128Min i128Max
    omega
  unfold Tempo.InRange
  omega

end AbletonLink.Link
