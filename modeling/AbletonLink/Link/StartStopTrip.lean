import AbletonLink.Link.ClientComposition
import AbletonLink.Link.GhostForward
import AbletonLink.Link.PhaseLaws
import AbletonLink.Link.State
import AbletonLink.Link.TempoRange

/-! A start/stop position mapped to the client and back. -/

namespace AbletonLink.Link

open Library Library.MachineInt

theorem Timeline.microbeatsAt_near (t : Timeline) (range : t.tempo.InRange) {x : ℤ}
    (fits : FitsI64 x) {time : Duration}
    (near : |(time.nanos : ℚ) - t.nanosAtMicrobeats x| ≤ 29) : t.microbeatsAt time = x := by
  have positive : (60060 : ℚ) ≤ t.tempo.periodMicros := by exact_mod_cast range.1
  have nonzero : t.tempo.periodMicros ≠ 0 := by
    obtain ⟨least, -⟩ := range
    omega
  have elapsed := t.tempo.microbeatsFromNanos_exact nonzero (time.nanos - t.timeOrigin.nanos)
  rw [(t.microbeatsAt_exact nonzero time).1, elapsed]
  obtain ⟨wide, -⟩ := t.nanosAtMicrobeats_wide range fits
  rw [wide] at near
  have bounds := i64_bounds t.beatOrigin.value
  unfold FitsI64 at fits
  unfold i64Min i64Max at bounds fits
  have rounded : roundHalfAway (((time.nanos - t.timeOrigin.nanos : ℤ) : ℚ) * 1000 /
      t.tempo.periodMicros) = x - t.beatOrigin.value.toInt := by
    obtain ⟨low, high⟩ := roundHalfAway_near
      (((x - t.beatOrigin.value.toInt : ℤ) : ℚ) * t.tempo.periodMicros / 1000)
    obtain ⟨below, above⟩ := abs_le.mp near
    push_cast at below above low high ⊢
    have pos : (0 : ℚ) < t.tempo.periodMicros := by linarith
    apply roundHalfAway_eq_of_near
    · rw [lt_div_iff₀ pos]
      push_cast
      linarith
    · rw [div_lt_iff₀ pos]
      push_cast
      linarith
  rw [rounded, saturate_of_fits, sub_add_cancel]
  unfold FitsI128 i128Min i128Max
  omega

section Trip

variable {f : GhostXForm} (finite : f.slope.isFinite = true)
  (nonzero : Binary64.value f.slope ≠ 0) {ghost : ℤ} (small : ghost.natAbs ≤ 2 ^ 85)
  (hostFits : FitsDuration (f.hostImage (ghost - f.intercept.nanos)))

include finite nonzero small hostFits

theorem nanos_ghostNanosToHost :
    (f.ghostNanosToHost ghost).nanos = f.hostImage (ghost - f.intercept.nanos) := by
  have intercept := f.intercept.fits
  unfold FitsDuration Duration.minNanos Duration.maxNanos at intercept
  rw [GhostXForm.ghostNanosToHost_eq finite (Binary64.value_ne_zero_iff.mp nonzero),
    saturate_of_fits (by unfold FitsI128 i128Min i128Max; omega)]
  exact nanos_durationFromNanos hostFits

theorem ghost_round_trip_near
    (ghostFits : FitsDuration (roundHalfAway
      (f.hostImage (ghost - f.intercept.nanos) * Binary64.value f.slope) + f.intercept.nanos)) :
    |((f.hostToGhostNanos (f.ghostNanosToHost ghost)).nanos : ℚ) - ghost| ≤
      |Binary64.value f.slope| / 2 + 1 / 2 := by
  have moved := roundHalfAway_div_mul (ghost - f.intercept.nanos) nonzero
  have back : (f.hostToGhostNanos (f.ghostNanosToHost ghost)).nanos =
      roundHalfAway (f.hostImage (ghost - f.intercept.nanos) * Binary64.value f.slope) +
        f.intercept.nanos := by
    unfold GhostXForm.hostToGhostNanos
    rw [f.hostToGhostWideNanos_exact finite, nanos_ghostNanosToHost finite nonzero small hostFits,
      saturate_of_fits ghostFits.i128]
    exact nanos_durationFromNanos ghostFits
  rw [back]
  unfold GhostXForm.hostImage
  push_cast at moved ⊢
  rwa [add_sub_assoc, ← neg_sub (ghost : ℚ), ← sub_eq_add_neg]

end Trip

/-- A session's start/stop position comes back from the client as it was, while the slope is at
most fifty and the times stay in range. -/
theorem startStop_round_trip (s : StartStopState) (timeline : Timeline)
    (clamped : timeline.Clamped) (f : GhostXForm) (finite : f.slope.isFinite = true)
    (positive : 0 < |Binary64.value f.slope|) (most : |Binary64.value f.slope| ≤ 50)
    (hostFits : FitsDuration
      (f.hostImage (timeline.nanosAtMicrobeats s.beats.value.toInt - f.intercept.nanos)))
    (ghostFits : FitsDuration (roundHalfAway
      (f.hostImage (timeline.nanosAtMicrobeats s.beats.value.toInt - f.intercept.nanos) *
        Binary64.value f.slope) + f.intercept.nanos)) :
    let back := mapStartStopStateFromClientToSession
      (mapStartStopStateFromSessionToClient s timeline f) timeline f
    back.beats = s.beats ∧ back.isPlaying = s.isPlaying := by
  intro back
  refine ⟨?_, rfl⟩
  have fits : FitsI64 s.beats.value.toInt := i64_bounds s.beats.value
  have small := (timeline.nanosAtMicrobeats_wide clamped.inRange fits).2
  have near := ghost_round_trip_near finite (abs_pos.mp positive) small hostFits ghostFits
  have same := timeline.microbeatsAt_near clamped.inRange fits (near.trans (by linarith))
  calc
    back.beats = narrowBeats s.beats.value.toInt := congrArg narrowBeats same
    _ = s.beats := narrowBeats_value s.beats

theorem value_fifty : Binary64.value 50.0 = 50 := by
  rw [Binary64.value_eq (show Binary64.integerDecode 50.0 = (25 * 2 ^ 48, -47, 1) by decide)]
  norm_num

theorem startStop_round_trip_steep :
    let s : StartStopState := ⟨true, ⟨10⟩, .zero⟩
    let timeline : Timeline := ⟨⟨999.0⟩, ⟨3⟩, ⟨1000, by decide, by decide⟩⟩
    let f : GhostXForm := ⟨50.0, .zero⟩
    let back := mapStartStopStateFromClientToSession
      (mapStartStopStateFromSessionToClient s timeline f) timeline f
    timeline.nanosAtMicrobeats s.beats.value.toInt = 1420 ∧
      back.beats = s.beats ∧ back.isPlaying = s.isPlaying := by
  intro s timeline f back
  have ghost : timeline.nanosAtMicrobeats s.beats.value.toInt = 1420 := by decide +kernel
  have slope : Binary64.value f.slope = 50 := value_fifty
  have host : f.hostImage (timeline.nanosAtMicrobeats s.beats.value.toInt - f.intercept.nanos) =
      28 := by
    unfold GhostXForm.hostImage
    rw [ghost, slope]
    decide +kernel
  refine ⟨ghost, startStop_round_trip s timeline (show clampTempo _ = _ by decide +kernel) f
    (by decide) ?_ ?_ ?_ ?_⟩
  · rw [slope]
    norm_num
  · rw [slope]
    norm_num
  · rw [host]
    decide
  · rw [host, slope]
    decide +kernel

end AbletonLink.Link
