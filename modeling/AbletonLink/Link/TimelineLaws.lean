import AbletonLink.Link.Conversions
import AbletonLink.Link.Timeline

/-! Beats and times of one timeline. -/

namespace AbletonLink.Link

open Library Library.MachineInt

namespace Tempo

theorem microbeatsFromNanos_nanosFromMicrobeats (t : Tempo) (slow : 1000 ≤ t.periodMicros.natAbs)
    {x : ℤ} (fits : FitsI128 (roundHalfAway ((x : ℚ) * t.periodMicros / 1000))) :
    t.microbeatsFromNanos (t.nanosFromMicrobeats x) = saturate x := by
  have grows : 1 ≤ |(t.periodMicros : ℚ) / 1000| := by
    rw [abs_div, le_div_iff₀ (by norm_num)]
    have : (1000 : ℚ) ≤ (t.periodMicros.natAbs : ℚ) := by exact_mod_cast slow
    rw [Nat.cast_natAbs] at this
    push_cast at this
    norm_num
    exact this
  have trip := roundHalfAway_round_trip x grows
  rw [mul_div_assoc'] at trip
  rw [t.microbeatsFromNanos_exact (by omega), t.nanosFromMicrobeats_eq, saturate_of_fits fits,
    ← div_div_eq_mul_div, trip]

theorem microbeatsFromNanos_le (t : Tempo) (nonzero : t.periodMicros ≠ 0) (nanos : ℤ) :
    (t.microbeatsFromNanos nanos).natAbs ≤ 1000 * nanos.natAbs := by
  have bound : |(nanos : ℚ) * 1000 / t.periodMicros| ≤ ((1000 * nanos.natAbs : ℤ) : ℚ) := by
    have least : (1 : ℚ) ≤ |(t.periodMicros : ℚ)| := by
      exact_mod_cast Int.one_le_abs nonzero
    rw [abs_div, abs_mul]
    push_cast
    rw [mul_comm, show |(1000 : ℚ)| = 1000 by norm_num]
    exact div_le_self (by positivity) least
  obtain ⟨low, high⟩ := abs_le.mp (abs_roundHalfAway_le bound)
  rw [t.microbeatsFromNanos_exact nonzero]
  unfold saturate i128Min i128Max
  omega

theorem microbeatsFromNanos_neg (t : Tempo) (nonzero : t.periodMicros ≠ 0) {nanos : ℤ}
    (small : nanos.natAbs ≤ 2 ^ 90) :
    t.microbeatsFromNanos (-nanos) = -t.microbeatsFromNanos nanos := by
  have bound := t.microbeatsFromNanos_le nonzero nanos
  have mirrored := t.microbeatsFromNanos_le nonzero (-nanos)
  rw [t.microbeatsFromNanos_exact nonzero] at *
  rw [t.microbeatsFromNanos_exact nonzero, Int.cast_neg, neg_mul, neg_div,
    roundHalfAway_neg] at *
  generalize roundHalfAway _ = exact at *
  unfold saturate i128Min i128Max at *
  omega

end Tempo

namespace Timeline

variable (t : Timeline)

theorem fits_microbeatsAt (time : Duration) : FitsI128 (t.microbeatsAt time) := fits_saturate _

theorem saturate_elapsed (a b : Duration) : saturate (a.nanos - b.nanos) = a.nanos - b.nanos := by
  have ha := a.fits
  have hb := b.fits
  unfold FitsDuration Duration.minNanos Duration.maxNanos at ha hb
  exact saturate_of_fits (by unfold FitsI128 i128Min i128Max; omega)

theorem microbeatsAt_exact (nonzero : t.tempo.periodMicros ≠ 0) (time : Duration) :
    t.microbeatsAt time =
        t.tempo.microbeatsFromNanos (time.nanos - t.timeOrigin.nanos) + t.beatOrigin.value.toInt ∧
      (t.microbeatsAt time).natAbs ≤ 2 ^ 100 := by
  have small := t.tempo.microbeatsFromNanos_le nonzero (time.nanos - t.timeOrigin.nanos)
  have ht := time.fits
  have ho := t.timeOrigin.fits
  unfold FitsDuration Duration.minNanos Duration.maxNanos at ht ho
  have origin := i64_bounds t.beatOrigin.value
  unfold i64Min i64Max at origin
  have exact : t.microbeatsAt time =
      t.tempo.microbeatsFromNanos (time.nanos - t.timeOrigin.nanos) +
        t.beatOrigin.value.toInt := by
    show saturate (t.tempo.microbeatsFromNanos (saturate _) + _) = _
    rw [saturate_elapsed]
    exact saturate_of_fits (by unfold FitsI128 i128Min i128Max; omega)
  refine ⟨exact, ?_⟩
  rw [exact]
  omega

theorem nanosAtMicrobeats_exact {x : ℤ} (inside : FitsDuration (t.nanosAtMicrobeats x)) :
    FitsI128 (roundHalfAway
        ((x - t.beatOrigin.value.toInt : ℤ) * (t.tempo.periodMicros : ℚ) / 1000)) ∧
      t.nanosAtMicrobeats x = t.timeOrigin.nanos +
        t.tempo.nanosFromMicrobeats (x - t.beatOrigin.value.toInt) := by
  have unfolded : t.nanosAtMicrobeats x = saturate (t.timeOrigin.nanos +
    t.tempo.nanosFromMicrobeats (x - t.beatOrigin.value.toInt)) := rfl
  have elapsed := t.tempo.nanosFromMicrobeats_eq (x - t.beatOrigin.value.toInt)
  have origin := t.timeOrigin.fits
  rw [unfolded] at inside ⊢
  rw [elapsed] at inside ⊢
  generalize roundHalfAway _ = exact at inside ⊢
  unfold FitsDuration Duration.minNanos Duration.maxNanos at inside origin
  unfold FitsI128
  unfold saturate i128Min i128Max at *
  omega

theorem microbeatsAt_timeAtMicrobeats (slow : 1000 ≤ t.tempo.periodMicros.natAbs) {x : ℤ}
    (small : x.natAbs ≤ 2 ^ 100) (inside : FitsDuration (t.nanosAtMicrobeats x)) :
    t.microbeatsAt (t.timeAtMicrobeats x) = x := by
  obtain ⟨fits, exact⟩ := t.nanosAtMicrobeats_exact inside
  have origin := i64_bounds t.beatOrigin.value
  unfold i64Min i64Max at origin
  have time : (t.timeAtMicrobeats x).nanos = t.nanosAtMicrobeats x :=
    nanos_durationFromNanos inside
  rw [(t.microbeatsAt_exact (by omega) _).1, time, exact, add_sub_cancel_left,
    t.tempo.microbeatsFromNanos_nanosFromMicrobeats slow fits, saturate_of_fits, sub_add_cancel]
  unfold FitsI128 i128Min i128Max
  omega

theorem microbeatsAt_continued (nonzero : t.tempo.periodMicros ≠ 0)
    {now : Duration} {beat : ℤ}
    (origin : t.beatOrigin.value.toInt =
      beat + t.tempo.microbeatsFromNanos (t.timeOrigin.nanos - now.nanos)) :
    t.microbeatsAt now = beat := by
  have small : (now.nanos - t.timeOrigin.nanos).natAbs ≤ 2 ^ 90 := by
    have ht := t.timeOrigin.fits
    have hn := now.fits
    unfold FitsDuration Duration.minNanos Duration.maxNanos at ht hn
    omega
  have odd := t.tempo.microbeatsFromNanos_neg nonzero small
  rw [neg_sub] at odd
  rw [(t.microbeatsAt_exact nonzero now).1, origin, odd]
  ring

end Timeline

end AbletonLink.Link
