import AbletonLink.Link.PhaseLaws

/-! A beat that is forced at a time is the beat at that time. -/

namespace AbletonLink.Link

open Library Library.MachineInt

section Boundary

variable (quantum : Beats)

def Boundary (b : ℤ) : Prop :=
  quantum.value.toInt ≠ 0 → (quantum.value.toInt.natAbs : ℤ) ∣ b

theorem Boundary.isOrigin {b : ℤ} (h : Boundary quantum b) (low : i64Min ≤ b) (high : b ≤ i64Max) :
    closestPhaseMatchWide (narrowBeats b).value.toInt 0 quantum.value.toInt = b := by
  rw [narrow_of_fits low high]
  by_cases zero : quantum.value.toInt = 0
  · rw [zero, closestPhaseMatchWide_zero]
  · have multiple : (0 - b).bmod quantum.value.toInt.natAbs = 0 := by
      rw [zero_sub]
      exact Int.bmod_eq_zero_of_dvd ((dvd_neg).mpr (h zero))
    rw [closestPhaseMatchWide_eq zero, multiple, add_zero, saturate_of_fits]
    unfold i64Min at low
    unfold i64Max at high
    unfold FitsI128 i128Min i128Max
    omega

theorem shift_of_isOrigin {origin : Beats} {b : ℤ}
    (isOrigin : closestPhaseMatchWide origin.value.toInt 0 quantum.value.toInt = b) :
    quantumShift (-origin.value.toInt) quantum = b - origin.value.toInt := by
  have shift := quantumShift_le quantum (-origin.value.toInt)
  have bounds := i64_bounds origin.value
  unfold i64Min i64Max at bounds
  by_cases zero : quantum.value.toInt = 0
  · rw [zero, closestPhaseMatchWide_zero] at isOrigin
    unfold quantumShift
    rw [if_pos zero]
    omega
  · have exact : quantumShift (-origin.value.toInt) quantum =
        (-origin.value.toInt).bmod quantum.value.toInt.natAbs := if_neg zero
    rw [closestPhaseMatchWide_eq zero, zero_sub, ← exact, saturate_of_fits
      (by unfold FitsI128 i128Min i128Max; omega)] at isOrigin
    omega

theorem boundary_inRange (beat : Beats) :
    ∃ b ∈ [beat.value.toInt - phaseWide beat.value.toInt quantum.value.toInt,
        beat.value.toInt - phaseWide beat.value.toInt quantum.value.toInt +
          quantum.value.toInt.natAbs],
      Boundary quantum b ∧ i64Min ≤ b ∧ b ≤ i64Max ∧
        (beat.value.toInt - b).natAbs ≤ 2 ^ 63 := by
  have size := quantum_le quantum
  have bounds := i64_bounds beat.value
  unfold Boundary
  unfold i64Min i64Max at *
  generalize quantum.value.toInt = q at size
  generalize beat.value.toInt = beat at bounds
  by_cases zero : q = 0
  · subst zero
    have same : beat - phaseWide beat 0 = beat := by
      rw [phaseWide, if_pos rfl, sub_zero]
    exact ⟨_, List.mem_cons_self, fun h => absurd rfl h, by omega, by omega, by omega⟩
  · rw [phaseWide_of_nonzero zero]
    have rest := Int.emod_nonneg beat (show (q.natAbs : ℤ) ≠ 0 by omega)
    have proper := Int.emod_lt_of_pos beat (show 0 < (q.natAbs : ℤ) by omega)
    have multiple : (q.natAbs : ℤ) ∣ beat - beat % q.natAbs := Int.dvd_self_sub_emod
    by_cases low : -2 ^ 63 ≤ beat - beat % (q.natAbs : ℤ)
    · exact ⟨_, List.mem_cons_self, fun _ => multiple, low, by omega, by omega⟩
    · exact ⟨_, List.mem_cons_of_mem _ List.mem_cons_self,
        fun _ => dvd_add multiple (dvd_refl _), by omega, by omega, by omega⟩

end Boundary

section Forced

variable {timeline : Timeline} {beat : Beats} {time : Duration} {quantum : Beats}

def farthest (timeline : Timeline) : ℤ := ⌈(2 ^ 63 * |timeline.tempo.periodMicros| : ℚ) / 1000⌉

theorem nanosFromMicrobeats_le_farthest {offset : ℤ} (near : offset.natAbs ≤ 2 ^ 63) :
    |roundHalfAway ((offset : ℚ) * timeline.tempo.periodMicros / 1000)| ≤ farthest timeline := by
  have bound : |(offset : ℚ) * timeline.tempo.periodMicros / 1000| ≤ (farthest timeline : ℤ) := by
    refine le_trans ?_ (Int.le_ceil _)
    rw [abs_div, abs_mul, show |(1000 : ℚ)| = 1000 by norm_num]
    push_cast
    gcongr
    rw [← Int.cast_abs, ← Int.natCast_natAbs]
    exact_mod_cast near
  exact abs_roundHalfAway_le bound

def preciseAnchor (timeline : Timeline) (beat : Beats) (time : Duration) (boundary : ℤ) :
    Timeline :=
  { timeline with
    beatOrigin := narrowBeats boundary
    timeOrigin := durationFromNanos
      (saturate (time.nanos - timeline.tempo.nanosFromMicrobeats (beat.value.toInt - boundary))) }

theorem anchoredAt_true (boundary : ℤ) :
    anchoredAt timeline beat time quantum true boundary =
      if closestPhaseMatchWide (narrowBeats boundary).value.toInt 0 quantum.value.toInt ≠ boundary
      then none
      else if toPhaseEncodedMicrobeats (preciseAnchor timeline beat time boundary) time quantum =
        beat.value.toInt then some (preciseAnchor timeline beat time boundary)
      else none := by
  simp only [anchoredAt, preciseAnchor, if_true, true_or, Bool.true_eq_false, false_or]
  rfl

theorem anchoredAt_precise {boundary : ℤ} {anchored : Timeline}
    (h : anchoredAt timeline beat time quantum true boundary = some anchored) :
    toPhaseEncodedMicrobeats anchored time quantum = beat.value.toInt ∧
      anchored.tempo = timeline.tempo := by
  rw [anchoredAt_true] at h
  split at h
  · cases h
  · split at h
    next verified =>
      cases h
      exact ⟨verified, rfl⟩
    next => cases h

theorem preciseAnchor_exact (slow : 1000 ≤ timeline.tempo.periodMicros.natAbs)
    (after : FitsDuration (time.nanos + farthest timeline))
    (before : FitsDuration (time.nanos - farthest timeline)) {boundary : ℤ}
    (isOrigin : closestPhaseMatchWide (narrowBeats boundary).value.toInt 0 quantum.value.toInt =
      boundary)
    (near : (beat.value.toInt - boundary).natAbs ≤ 2 ^ 63) :
    toPhaseEncodedMicrobeats (preciseAnchor timeline beat time boundary) time quantum =
      beat.value.toInt := by
  obtain ⟨above, below⟩ := abs_le.mp
    (@nanosFromMicrobeats_le_farthest timeline _ near)
  have elapsed := timeline.tempo.nanosFromMicrobeats_eq (beat.value.toInt - boundary)
  have back := timeline.tempo.microbeatsFromNanos_nanosFromMicrobeats slow
    (x := beat.value.toInt - boundary)
  generalize roundHalfAway _ = exact at above below elapsed back
  unfold FitsDuration Duration.minNanos Duration.maxNanos at after before
  have fits : FitsI128 exact := by
    unfold FitsI128 i128Min i128Max
    omega
  rw [saturate_of_fits fits] at elapsed
  have origin : (preciseAnchor timeline beat time boundary).timeOrigin.nanos =
      time.nanos - exact := by
    have inside : FitsDuration (time.nanos - exact) := by
      unfold FitsDuration Duration.minNanos Duration.maxNanos
      omega
    show (durationFromNanos (saturate
      (time.nanos - timeline.tempo.nanosFromMicrobeats _))).nanos = _
    rw [elapsed, saturate_of_fits inside.i128, nanos_durationFromNanos inside]
  have shift : quantumShift (-(preciseAnchor timeline beat time boundary).beatOrigin.value.toInt)
      quantum = boundary - (narrowBeats boundary).value.toInt := shift_of_isOrigin quantum isOrigin
  have nonzero : (preciseAnchor timeline beat time boundary).tempo.periodMicros ≠ 0 := by
    show timeline.tempo.periodMicros ≠ 0
    omega
  rw [toPhaseEncodedMicrobeats_exact _ _ nonzero, (Timeline.microbeatsAt_exact _ nonzero _).1,
    shift, origin, sub_sub_cancel]
  show timeline.tempo.microbeatsFromNanos exact + (narrowBeats boundary).value.toInt +
    (boundary - (narrowBeats boundary).value.toInt) = _
  rw [← elapsed, back fits, saturate_of_fits (by unfold FitsI128 i128Min i128Max; omega)]
  ring

/-- A forced beat is the beat at its time, at a tempo of at least a nanosecond to the
microbeat. -/
theorem forceBeatAtTimeImpl_exact (slow : 1000 ≤ |timeline.tempo.periodMicros|)
    (after : FitsDuration (time.nanos + farthest timeline))
    (before : FitsDuration (time.nanos - farthest timeline)) :
    let forced := forceBeatAtTimeImpl timeline beat time quantum
    toPhaseEncodedMicrobeats forced time quantum = beat.value.toInt ∧
      forced.tempo = timeline.tempo := by
  have slow : 1000 ≤ timeline.tempo.periodMicros.natAbs := by
    have := Int.natCast_natAbs timeline.tempo.periodMicros
    omega
  obtain ⟨b, member, isBoundary, low, high, near⟩ := boundary_inRange quantum beat
  have isOrigin := isBoundary.isOrigin quantum low high
  have anchors : (anchoredAt timeline beat time quantum true b).isSome = true := by
    rw [anchoredAt_true, if_neg (not_not.mpr isOrigin),
      if_pos (preciseAnchor_exact slow after before isOrigin near)]
    rfl
  intro forced
  unfold forced forceBeatAtTimeImpl
  dsimp only
  split
  next =>
    cases found : List.findSome? (anchoredAt timeline beat time quantum true)
        [beat.value.toInt - phaseWide beat.value.toInt quantum.value.toInt,
          beat.value.toInt - phaseWide beat.value.toInt quantum.value.toInt +
            quantum.value.toInt.natAbs] with
    | none =>
      rw [List.findSome?_eq_none_iff.mp found b member] at anchors
      cases anchors
    | some anchored =>
      obtain ⟨at_, -, anchor⟩ := List.exists_of_findSome?_eq_some found
      exact anchoredAt_precise anchor
  next accepted =>
    simp only [not_or, not_not] at accepted
    exact ⟨accepted.2, rfl⟩

theorem forceBeatAtTimeImpl_exact_fourBeats :
    let timeline : Timeline := ⟨⟨120.0⟩, ⟨1500000⟩, Duration.zero⟩
    let forced := forceBeatAtTimeImpl timeline ⟨-7000000⟩ (.microseconds 12345) ⟨4000000⟩
    toPhaseEncodedMicrobeats forced (.microseconds 12345) ⟨4000000⟩ = -7000000 ∧
      forced.tempo = timeline.tempo := by
  have period : Tempo.periodMicros ⟨120.0⟩ = 500000 := by decide +kernel
  have distance : farthest ⟨⟨120.0⟩, ⟨1500000⟩, Duration.zero⟩ = 4611686018427387904000 := by
    unfold farthest
    rw [period]
    norm_num
  refine forceBeatAtTimeImpl_exact ?_ ?_ ?_
  · rw [period]
    decide
  · rw [distance]
    decide
  · rw [distance]
    decide

end Forced

end AbletonLink.Link
