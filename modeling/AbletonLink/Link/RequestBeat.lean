import AbletonLink.Link.PhaseMatch

/-! A beat requested with its quantum is launched on the phase grid as it stands. -/

namespace AbletonLink.Link

open Library Library.MachineInt

section Request

variable (tl : Timeline) (beat : Beats) (time : Duration) (quantum : Beats)

def requestedMatch : Beats := nextPhaseMatch (toPhaseEncodedBeats tl time quantum) beat quantum

def requestedTime : Duration :=
  fromPhaseEncodedBeats tl (requestedMatch tl beat time quantum) quantum

def forceBeatAtTime : Timeline :=
  let forced := forceBeatAtTimeImpl tl beat time quantum
  -- The beat at the time may be past the one forced, which would miss it.
  if toPhaseEncodedBeats forced time quantum > beat then
    forceBeatAtTimeImpl forced beat (durationFromNanos (time.nanos + 1000)) quantum
  else forced

def requestBeatAtTime (respectQuantum : Bool) : Timeline :=
  forceBeatAtTime tl beat (if respectQuantum then requestedTime tl beat time quantum else time)
    quantum

def requestedShift : Int := beat.value.toInt - (requestedMatch tl beat time quantum).value.toInt

def beatsMoved (shift : Int) : Timeline :=
  { tl with beatOrigin := narrowBeats (tl.beatOrigin.value.toInt + shift) }

/-- Neither the beat at the time, nor the match, nor its time, nor the new origin leaves its
range. -/
structure RequestInRange : Prop where
  current : FitsI64 (toPhaseEncodedMicrobeats tl time quantum)
  requested : FitsI64 (nextPhaseMatchWide (toPhaseEncodedBeats tl time quantum).value.toInt
    beat.value.toInt quantum.value.toInt)
  launch : FitsDuration (tl.nanosAtMicrobeats ((requestedMatch tl beat time quantum).value.toInt -
    quantumShift (-tl.beatOrigin.value.toInt) quantum))
  origin : FitsI64 (tl.beatOrigin.value.toInt + requestedShift tl beat time quantum)

end Request

section Moved

variable {tl : Timeline} {quantum : Beats} {shift : Int}

theorem phaseWide_add {x : Int} (whole : quantum.value.toInt ≠ 0 →
    (quantum.value.toInt.natAbs : Int) ∣ shift) :
    phaseWide (x + shift) quantum.value.toInt = phaseWide x quantum.value.toInt := by
  unfold phaseWide
  split
  · rfl
  · rename_i nonzero
    exact Int.emod_eq_emod_iff_emod_sub_eq_zero.mpr
      (Int.emod_eq_zero_of_dvd (by simpa using whole nonzero))

theorem encoded_beatsMoved (nonzero : tl.tempo.periodMicros ≠ 0)
    (fits : FitsI64 (tl.beatOrigin.value.toInt + shift))
    (whole : quantum.value.toInt ≠ 0 → (quantum.value.toInt.natAbs : Int) ∣ shift)
    (time : Duration) :
    toPhaseEncodedMicrobeats (beatsMoved tl shift) time quantum =
      toPhaseEncodedMicrobeats tl time quantum + shift := by
  have origin : (beatsMoved tl shift).beatOrigin.value.toInt = tl.beatOrigin.value.toInt + shift :=
    narrow_of_fits fits.1 fits.2
  have same : quantumShift (-(tl.beatOrigin.value.toInt + shift)) quantum =
      quantumShift (-tl.beatOrigin.value.toInt) quantum := by
    unfold quantumShift
    split
    · rfl
    · rename_i period
      obtain ⟨turns, rfl⟩ := whole period
      rw [neg_add, ← mul_neg]
      exact Int.add_mul_bmod_self_left ..
  have tempo : (beatsMoved tl shift).tempo.periodMicros ≠ 0 := nonzero
  rw [toPhaseEncodedMicrobeats_exact _ _ tempo, toPhaseEncodedMicrobeats_exact _ _ nonzero,
    (Timeline.microbeatsAt_exact _ tempo time).1, (Timeline.microbeatsAt_exact _ nonzero time).1,
    origin, same]
  show tl.tempo.microbeatsFromNanos (time.nanos - tl.timeOrigin.nanos) + _ + _ = _
  ring

theorem shiftedTimeOriginNanos_zero (tl : Timeline) :
    shiftedTimeOriginNanos tl 0 = tl.timeOrigin.nanos := by
  unfold shiftedTimeOriginNanos
  have fits := tl.timeOrigin.fits
  simp only [zero_mul, zero_sub, sub_self, saturate_of_fits (show FitsI128 0 by decide), add_zero,
    sub_zero, saturate_of_fits fits.i128]

theorem forceBeatAtTimeImpl_inPhase {beat : Beats} {time : Duration}
    (nonzero : tl.tempo.periodMicros ≠ 0)
    (current : toPhaseEncodedMicrobeats tl time quantum + shift = beat.value.toInt)
    (small : FitsI64 (toPhaseEncodedMicrobeats tl time quantum))
    (fits : FitsI64 (tl.beatOrigin.value.toInt + shift))
    (whole : quantum.value.toInt ≠ 0 → (quantum.value.toInt.natAbs : Int) ∣ shift) :
    forceBeatAtTimeImpl tl beat time quantum = beatsMoved tl shift := by
  have closest : closestPhaseMatchWide (toPhaseEncodedMicrobeats tl time quantum)
      beat.value.toInt quantum.value.toInt = toPhaseEncodedMicrobeats tl time quantum := by
    by_cases zero : quantum.value.toInt = 0
    · rw [zero, closestPhaseMatchWide_zero]
    · rw [closestPhaseMatchWide_eq zero, ← current, add_sub_cancel_left,
        Int.bmod_eq_zero_of_dvd (whole zero), add_zero, saturate_of_fits small.i128]
  have origin : saturate (tl.beatOrigin.value.toInt + beat.value.toInt -
      toPhaseEncodedMicrobeats tl time quantum) = tl.beatOrigin.value.toInt + shift := by
    rw [← current, show tl.beatOrigin.value.toInt + (toPhaseEncodedMicrobeats tl time quantum +
      shift) - toPhaseEncodedMicrobeats tl time quantum = tl.beatOrigin.value.toInt + shift by ring]
    exact saturate_of_fits fits.i128
  have moved : ({ tl with
      beatOrigin := narrowBeats (tl.beatOrigin.value.toInt + shift)
      timeOrigin := durationFromNanos tl.timeOrigin.nanos } : Timeline) = beatsMoved tl shift := by
    rw [durationFromNanos_nanos]
    rfl
  have check : toPhaseEncodedMicrobeats (beatsMoved tl shift) time quantum = beat.value.toInt := by
    rw [encoded_beatsMoved nonzero fits whole, current]
  have inside : ¬(¬(i64Min ≤ tl.beatOrigin.value.toInt + shift ∧
      tl.beatOrigin.value.toInt + shift ≤ i64Max) ∨ ¬FitsDuration tl.timeOrigin.nanos) := by
    simp only [not_or, not_not]
    exact ⟨fits, tl.timeOrigin.fits⟩
  unfold forceBeatAtTimeImpl
  simp only [closest, sub_self, shiftedTimeOriginNanos_zero, origin, moved, check, ne_eq,
    not_true_eq_false, or_false, if_neg inside]

end Moved

section InRange

variable {tl : Timeline} {beat : Beats} {time : Duration} {quantum : Beats}

theorem RequestInRange.whole (h : RequestInRange tl beat time quantum)
    (nonzero : quantum.value.toInt ≠ 0) :
    (quantum.value.toInt.natAbs : Int) ∣ requestedShift tl beat time quantum := by
  have value : (requestedMatch tl beat time quantum).value.toInt = nextPhaseMatchWide
      (toPhaseEncodedBeats tl time quantum).value.toInt beat.value.toInt quantum.value.toInt :=
    narrow_of_fits h.requested.1 h.requested.2
  have least := isLeast_congruent (show (0 : Int) < quantum.value.toInt.natAbs by omega)
    (toPhaseEncodedBeats tl time quantum).value.toInt beat.value.toInt
  have fits := h.requested
  rw [nextPhaseMatchWide_eq nonzero] at value fits
  have exact : saturate ((toPhaseEncodedBeats tl time quantum).value.toInt +
      (beat.value.toInt - (toPhaseEncodedBeats tl time quantum).value.toInt) %
        (quantum.value.toInt.natAbs : Int)) = _ := saturate_of_fits (by
    unfold FitsI64 saturate i64Min i64Max at fits
    unfold FitsI128
    unfold i128Min i128Max at *
    omega)
  unfold requestedShift
  rw [value, exact]
  exact least.1.2.dvd

theorem nonzero_of_slow (slow : 1000 ≤ |tl.tempo.periodMicros|) : tl.tempo.periodMicros ≠ 0 :=
  abs_pos.mp (by omega)

variable (slow : 1000 ≤ |tl.tempo.periodMicros|) (h : RequestInRange tl beat time quantum)

include slow h

theorem RequestInRange.encoded :
    toPhaseEncodedMicrobeats tl (requestedTime tl beat time quantum) quantum =
      (requestedMatch tl beat time quantum).value.toInt := by
  have := Int.natCast_natAbs tl.tempo.periodMicros
  exact toPhaseEncodedMicrobeats_fromPhaseEncodedBeats tl quantum (by omega) h.launch

theorem RequestInRange.forced :
    forceBeatAtTimeImpl tl beat (requestedTime tl beat time quantum) quantum =
      beatsMoved tl (requestedShift tl beat time quantum) := by
  have encoded := h.encoded slow
  refine forceBeatAtTimeImpl_inPhase (nonzero_of_slow slow) ?_ ?_ h.origin h.whole
  · rw [encoded]
    exact add_sub_cancel _ _
  · rw [encoded]
    exact i64_bounds _

end InRange

/-- A requested beat moves the beats by whole quanta and keeps tempo, time origin and the phase at
every time; at the time of the match the beat is the one asked for. -/
theorem request_keeps_grid {tl : Timeline} {beat : Beats} {time : Duration} {quantum : Beats}
    (slow : 1000 ≤ |tl.tempo.periodMicros|) (h : RequestInRange tl beat time quantum) :
    let shift := requestedShift tl beat time quantum
    let launch := requestedTime tl beat time quantum
    let forced := forceBeatAtTimeImpl tl beat launch quantum
    forced.tempo = tl.tempo ∧ forced.timeOrigin = tl.timeOrigin ∧
    forced.beatOrigin.value.toInt = tl.beatOrigin.value.toInt + shift ∧
    (quantum.value.toInt ≠ 0 → |quantum.value.toInt| ∣ shift) ∧
    (∀ u, toPhaseEncodedMicrobeats forced u quantum =
      toPhaseEncodedMicrobeats tl u quantum + shift) ∧
    (∀ u, phaseWide (toPhaseEncodedMicrobeats forced u quantum) quantum.value.toInt =
      phaseWide (toPhaseEncodedMicrobeats tl u quantum) quantum.value.toInt) ∧
    (∀ u, FitsI64 (toPhaseEncodedMicrobeats forced u quantum) →
      FitsI64 (toPhaseEncodedMicrobeats tl u quantum) →
      (toPhaseEncodedBeats forced u quantum).value.toInt =
          (toPhaseEncodedBeats tl u quantum).value.toInt + shift ∧
        phase (toPhaseEncodedBeats forced u quantum) quantum =
          phase (toPhaseEncodedBeats tl u quantum) quantum) ∧
    toPhaseEncodedBeats forced launch quantum = beat ∧
    requestBeatAtTime tl beat time quantum true = forced := by
  intro shift launch forced
  have moved : forced = beatsMoved tl shift := h.forced slow
  have encoded (u : Duration) : toPhaseEncodedMicrobeats forced u quantum =
      toPhaseEncodedMicrobeats tl u quantum + shift := by
    rw [moved]
    exact encoded_beatsMoved (nonzero_of_slow slow) h.origin h.whole u
  have phases (u : Duration) :
      phaseWide (toPhaseEncodedMicrobeats forced u quantum) quantum.value.toInt =
        phaseWide (toPhaseEncodedMicrobeats tl u quantum) quantum.value.toInt := by
    rw [encoded]
    exact phaseWide_add h.whole
  have launched : toPhaseEncodedBeats forced launch quantum = beat := by
    unfold toPhaseEncodedBeats
    rw [encoded, h.encoded slow, show (requestedMatch tl beat time quantum).value.toInt + shift =
      beat.value.toInt from add_sub_cancel _ _, narrowBeats_value]
  refine ⟨by rw [moved]; rfl, by rw [moved]; rfl, ?_, ?_, encoded, phases, ?_, launched, ?_⟩
  · rw [moved]
    exact narrow_of_fits h.origin.1 h.origin.2
  · rw [← Int.natCast_natAbs]
    exact h.whole
  · intro u new old
    have value {x : Int} (fits : FitsI64 x) : (narrowBeats x).value.toInt = x :=
      narrow_of_fits fits.1 fits.2
    unfold phase toPhaseEncodedBeats
    rw [value new, value old, phases]
    exact ⟨encoded u, rfl⟩
  · unfold requestBeatAtTime forceBeatAtTime
    rw [if_pos rfl]
    have past : ¬toPhaseEncodedBeats forced launch quantum > beat := by
      rw [launched]
      exact fun later => lt_irrefl _ (Beats.lt_iff.mp later)
    exact if_neg past

theorem request_keeps_grid_fourBeats :
    let tl : Timeline := ⟨⟨120.0⟩, ⟨1500000⟩, .microseconds 250000⟩
    let launch := requestedTime tl ⟨-7000000⟩ (.microseconds 12345) ⟨4000000⟩
    let forced := forceBeatAtTimeImpl tl ⟨-7000000⟩ launch ⟨4000000⟩
    toPhaseEncodedBeats forced launch ⟨4000000⟩ = ⟨-7000000⟩ ∧
      requestBeatAtTime tl ⟨-7000000⟩ (.microseconds 12345) ⟨4000000⟩ true = forced := by
  have inRange : RequestInRange ⟨⟨120.0⟩, ⟨1500000⟩, .microseconds 250000⟩ ⟨-7000000⟩
      (.microseconds 12345) ⟨4000000⟩ :=
    ⟨by decide +kernel, by decide +kernel, by decide +kernel, by decide +kernel⟩
  exact (request_keeps_grid (by decide +kernel) inRange).2.2.2.2.2.2.2

theorem request_not_whole :
    let tl : Timeline := ⟨⟨120.0⟩, ⟨0⟩, .zero⟩
    1000 ≤ |tl.tempo.periodMicros| ∧ RequestInRange tl ⟨1⟩ .zero ⟨0⟩ ∧
      ¬|(⟨0⟩ : Beats).value.toInt| ∣ requestedShift tl ⟨1⟩ .zero ⟨0⟩ := by
  refine ⟨by decide +kernel, ⟨?_, ?_, ?_, ?_⟩, ?_⟩ <;> decide +kernel

end AbletonLink.Link
