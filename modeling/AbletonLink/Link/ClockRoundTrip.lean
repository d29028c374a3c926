import AbletonLink.Link.GhostInverse

/-! A host time mapped to ghost time and back. -/

namespace AbletonLink.Link

open Library Library.MachineInt

theorem durationFromNanos_near (k : ℤ) (h : Duration) :
    ((durationFromNanos k).nanos - h.nanos).natAbs ≤ (k - h.nanos).natAbs := by
  have fits := h.fits
  show (max Duration.minNanos (min k Duration.maxNanos) - h.nanos).natAbs ≤ _
  unfold FitsDuration at fits
  omega

theorem durationFromNanos_between {k : ℤ} (h : Duration)
    (between : 0 ≤ k ∧ k ≤ h.nanos ∨ h.nanos ≤ k ∧ k ≤ 0) :
    durationFromNanos k = h ↔ k = h.nanos := by
  have fits := h.fits
  have inside : FitsDuration k := by
    unfold FitsDuration Duration.minNanos Duration.maxNanos at *
    omega
  rw [Duration.ext_iff, nanos_durationFromNanos inside]

theorem cut_round_trip (h : Duration) {c : ℤ} {s : ℚ} (nonzero : s ≠ 0)
    (cut : 0 ≤ (c : ℚ) ∧ c ≤ h.nanos * s ∨ h.nanos * s ≤ c ∧ (c : ℚ) ≤ 0) :
    durationFromNanos (roundHalfAway (c / s)) = h ↔ |h.nanos * s - c| ≤ |s| / 2 := by
  have between : 0 ≤ c / s ∧ c / s ≤ h.nanos ∨ (h.nanos : ℚ) ≤ c / s ∧ c / s ≤ 0 := by
    rcases lt_or_gt_of_ne nonzero with neg | pos
    · simp only [div_le_iff_of_neg neg, le_div_iff_of_neg neg, zero_mul]
      obtain ⟨nonneg, most⟩ | ⟨least, nonpos⟩ := cut
      · exact .inr ⟨most, nonneg⟩
      · exact .inl ⟨nonpos, least⟩
    · simp only [div_le_iff₀ pos, le_div_iff₀ pos, zero_mul]
      exact cut
  have whole : 0 ≤ roundHalfAway (c / s) ∧ roundHalfAway (c / s) ≤ h.nanos ∨
      h.nanos ≤ roundHalfAway (c / s) ∧ roundHalfAway (c / s) ≤ 0 := by
    obtain ⟨nonneg, most⟩ | ⟨least, nonpos⟩ := between
    · have most := roundHalfAway_mono most
      rw [roundHalfAway_intCast] at most
      exact .inl ⟨roundHalfAway_nonneg nonneg, most⟩
    · have least := roundHalfAway_mono least
      rw [roundHalfAway_intCast] at least
      exact .inr ⟨least, roundHalfAway_nonpos nonpos⟩
  have moved : (h.nanos : ℚ) - c / s = (h.nanos * s - c) / s := by
    rw [sub_div, mul_div_cancel_right₀ _ nonzero]
  rw [durationFromNanos_between h whole, roundHalfAway_eq_iff_between between, moved, abs_div,
    div_le_iff₀ (abs_pos.mpr nonzero), one_div_mul_eq_div]

namespace GhostXForm

section RoundTrip

variable {f : GhostXForm} (finite : f.slope.isFinite = true) (h : Duration)
  (unclamped : FitsI128 (roundHalfAway (h.nanos * Binary64.value f.slope) + f.intercept.nanos))

include finite unclamped

theorem ghostNanosToHost_wide (nonzero : Binary64.value f.slope ≠ 0) :
    f.ghostNanosToHost (f.hostToGhostWideNanos h) = durationFromNanos
      (roundHalfAway (saturate (roundHalfAway (h.nanos * Binary64.value f.slope)) /
        Binary64.value f.slope)) := by
  rw [ghostNanosToHost_eq finite (Binary64.value_ne_zero_iff.mp nonzero),
    hostToGhostWideNanos_exact f finite, saturate_of_fits unclamped, add_sub_cancel_right]

theorem round_trip_near (half : 1 / 2 ≤ |Binary64.value f.slope|)
    (shrinks : |Binary64.value f.slope| < 1) :
    ((f.ghostNanosToHost (f.hostToGhostWideNanos h)).nanos - h.nanos).natAbs ≤ 1 := by
  have nonzero : Binary64.value f.slope ≠ 0 := abs_pos.mp (by linarith)
  rw [ghostNanosToHost_wide finite h unclamped nonzero]
  generalize Binary64.value f.slope = s at half shrinks nonzero
  have size := h.natAbs_le
  have less : |(h.nanos : ℚ) * s| ≤ ((h.nanos.natAbs : ℤ) : ℚ) := by
    rw [abs_mul, Int.natCast_natAbs, Int.cast_abs]
    exact mul_le_of_le_one_right (abs_nonneg _) shrinks.le
  obtain ⟨low, high⟩ := abs_le.mp (abs_roundHalfAway_le less)
  rw [saturate_of_fits (by unfold FitsI128 i128Min i128Max; omega)]
  have near := (roundHalfAway_mul_div h.nanos nonzero).trans
    ((div_le_one (by linarith)).mpr half)
  generalize roundHalfAway _ / s = y at near
  obtain ⟨low, high⟩ := abs_le.mp near
  have low := roundHalfAway_mono (show ((h.nanos - 1 : ℤ) : ℚ) ≤ y by push_cast; linarith)
  have high := roundHalfAway_mono (show y ≤ ((h.nanos + 1 : ℤ) : ℚ) by push_cast; linarith)
  rw [roundHalfAway_intCast] at low high
  have cut := durationFromNanos_near (roundHalfAway y) h
  omega

theorem round_trip_iff (grows : 1 ≤ |Binary64.value f.slope|) :
    f.ghostNanosToHost (f.hostToGhostWideNanos h) = h ↔
      i128Min - |Binary64.value f.slope| / 2 ≤ h.nanos * Binary64.value f.slope ∧
      h.nanos * Binary64.value f.slope ≤ i128Max + |Binary64.value f.slope| / 2 := by
  have nonzero : Binary64.value f.slope ≠ 0 := abs_pos.mp (by linarith)
  rw [ghostNanosToHost_wide finite h unclamped nonzero]
  generalize Binary64.value f.slope = s at grows nonzero
  obtain ⟨low, high⟩ := roundHalfAway_near (h.nanos * s)
  have trip := roundHalfAway_round_trip h.nanos grows
  have order : (i128Min : ℚ) ≤ 0 ∧ (0 : ℚ) ≤ i128Max := by
    unfold i128Min i128Max
    norm_num
  generalize roundHalfAway (h.nanos * s) = product at low high trip
  by_cases fits : FitsI128 product
  · have least : (i128Min : ℚ) ≤ product := by exact_mod_cast fits.1
    have most : (product : ℚ) ≤ i128Max := by exact_mod_cast fits.2
    rw [saturate_of_fits fits, trip, durationFromNanos_nanos]
    constructor
    · intro _
      constructor <;> linarith
    · intro _
      rfl
  · obtain below | above : product + 1 ≤ i128Min ∨ i128Max + 1 ≤ product := by
      unfold FitsI128 at fits
      omega
    · have bound : (product : ℚ) + 1 ≤ i128Min := by exact_mod_cast below
      rw [show saturate product = i128Min by unfold saturate i128Min i128Max at *; omega,
        cut_round_trip h nonzero (.inr ⟨by linarith, order.1⟩), abs_of_nonpos (by linarith)]
      constructor
      · intro near
        constructor <;> linarith
      · intro ⟨near, _⟩
        linarith
    · have bound : (i128Max : ℚ) + 1 ≤ product := by exact_mod_cast above
      rw [show saturate product = i128Max by unfold saturate i128Min i128Max at *; omega,
        cut_round_trip h nonzero (.inl ⟨order.2, by linarith⟩), abs_of_nonneg (by linarith)]
      constructor
      · intro near
        constructor <;> linarith
      · intro ⟨_, near⟩
        linarith

end RoundTrip

/-- A host time comes back from the ghost time it maps to: exactly with a slope of at least one,
while the product stays within half a slope of the limits, and up to a nanosecond with a slope of
at least a half. -/
theorem clock_round_trip (f : GhostXForm) (finite : f.slope.isFinite = true) (h : Duration)
    (unclamped : FitsI128
      (roundHalfAway (h.nanos * Binary64.value f.slope) + f.intercept.nanos)) :
    (1 ≤ |Binary64.value f.slope| →
      (f.ghostNanosToHost (f.hostToGhostWideNanos h) = h ↔
        i128Min - |Binary64.value f.slope| / 2 ≤ h.nanos * Binary64.value f.slope ∧
        h.nanos * Binary64.value f.slope ≤ i128Max + |Binary64.value f.slope| / 2) ∧
      (FitsI128 (roundHalfAway (h.nanos * Binary64.value f.slope)) →
        f.ghostNanosToHost (f.hostToGhostWideNanos h) = h)) ∧
    (1 / 2 ≤ |Binary64.value f.slope| → |Binary64.value f.slope| < 1 →
      ((f.ghostNanosToHost (f.hostToGhostWideNanos h)).nanos - h.nanos).natAbs ≤ 1) := by
  refine ⟨?_, round_trip_near finite h unclamped⟩
  intro grows
  refine ⟨round_trip_iff finite h unclamped grows, ?_⟩
  intro fits
  rw [ghostNanosToHost_wide finite h unclamped (abs_pos.mp (by linarith)), saturate_of_fits fits,
    roundHalfAway_round_trip _ grows, durationFromNanos_nanos]

theorem value_double : Binary64.value 2.0 = 2 := by
  rw [Binary64.value_eq (show Binary64.integerDecode 2.0 = (2 ^ 52, -51, 1) by decide)]
  norm_num

theorem clock_round_trip_double :
    let f : GhostXForm := ⟨2.0, .MIN⟩
    (1 ≤ |Binary64.value f.slope| →
      (f.ghostNanosToHost (f.hostToGhostWideNanos .MAX) = .MAX ↔
        i128Min - |Binary64.value f.slope| / 2 ≤ Duration.MAX.nanos * Binary64.value f.slope ∧
        Duration.MAX.nanos * Binary64.value f.slope ≤
          i128Max + |Binary64.value f.slope| / 2) ∧
      (FitsI128 (roundHalfAway (Duration.MAX.nanos * Binary64.value f.slope)) →
        f.ghostNanosToHost (f.hostToGhostWideNanos .MAX) = .MAX)) ∧
    (1 / 2 ≤ |Binary64.value f.slope| → |Binary64.value f.slope| < 1 →
      ((f.ghostNanosToHost (f.hostToGhostWideNanos .MAX)).nanos -
        Duration.MAX.nanos).natAbs ≤ 1) := by
  refine clock_round_trip ⟨2.0, .MIN⟩ (by decide) .MAX ?_
  have product : (Duration.MAX.nanos : ℚ) * 2 = (Duration.MAX.nanos * 2 : ℤ) := by push_cast; rfl
  rw [value_double, product, roundHalfAway_intCast]
  decide

theorem clock_round_trip_saturated :
    let f : GhostXForm := ⟨Float.ofBits 0x42C0000000000000, ⟨-2 ^ 71, by decide, by decide⟩⟩
    let h : Duration := ⟨2 ^ 82 + 2 ^ 25, by decide, by decide⟩
    f.slope.isFinite = true ∧ 1 ≤ |Binary64.value f.slope| ∧
      FitsI128 (roundHalfAway (h.nanos * Binary64.value f.slope) + f.intercept.nanos) ∧
      f.ghostNanosToHost (f.hostToGhostWideNanos h) = ⟨2 ^ 82, by decide, by decide⟩ ∧
      f.ghostNanosToHost (f.hostToGhostWideNanos h) ≠ h := by
  intro f h
  have value : Binary64.value f.slope = (2 ^ 45 : ℤ) := by
    rw [Binary64.value_eq
      (show Binary64.integerDecode f.slope = (2 ^ 52, -7, 1) by decide +kernel)]
    norm_num
  have product : (h.nanos : ℚ) * (2 ^ 45 : ℤ) = (h.nanos * 2 ^ 45 : ℤ) := by push_cast; rfl
  have back : f.ghostNanosToHost (f.hostToGhostWideNanos h) = ⟨2 ^ 82, by decide, by decide⟩ := by
    decide +kernel
  refine ⟨by decide, ?_, ?_, back, ?_⟩
  · rw [value]
    norm_num
  · rw [value, product, roundHalfAway_intCast]
    decide +kernel
  · rw [back]
    decide

end GhostXForm

end AbletonLink.Link
