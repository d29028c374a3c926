import AbletonLink.Link.PhaseLaws

/-! The phase matches are the least and the closest of the values that share a phase. -/

namespace AbletonLink.Link

open Library Library.MachineInt

theorem isLeast_congruent {modulus : ℤ} (positive : 0 < modulus) (x target : ℤ) :
    IsLeast {y | x ≤ y ∧ y ≡ target [ZMOD modulus]} (x + (target - x) % modulus) := by
  have rest := Int.emod_nonneg (target - x) positive.ne'
  constructor
  · refine ⟨by omega, ?_⟩
    have shifted := (Int.mod_modEq (target - x) modulus).add_left x
    rwa [add_sub_cancel] at shifted
  · rintro y ⟨above, congruent⟩
    have same : (y - x) % modulus = (target - x) % modulus := congruent.sub_right x
    have whole := Int.emod_def (y - x) modulus
    have turns := mul_nonneg positive.le (Int.ediv_nonneg (show 0 ≤ y - x by omega) positive.le)
    omega

theorem closest_congruent {modulus : ℕ} (positive : 0 < modulus) (x target y : ℤ) :
    (y ≡ target [ZMOD modulus] ∧ -(modulus : ℤ) ≤ 2 * (y - x) ∧ 2 * (y - x) < modulus) ↔
      y = x + (target - x).bmod modulus := by
  have low := Int.le_bmod (x := target - x) positive
  have high := Int.bmod_lt (x := target - x) positive
  constructor
  · rintro ⟨congruent, least, most⟩
    have same : (y - x) % modulus = (target - x) % modulus := congruent.sub_right x
    have kept : (y - x).bmod modulus = y - x :=
      Int.bmod_eq_of_le_mul_two (by omega) (by omega)
    rw [← Int.emod_bmod, ← same, Int.emod_bmod, kept]
    ring
  · rintro rfl
    refine ⟨?_, by omega, by omega⟩
    have shifted : (target - x).bmod modulus ≡ target - x [ZMOD modulus] := Int.bmod_emod ..
    have whole := shifted.add_left x
    rwa [add_sub_cancel] at whole

theorem nextPhaseMatchWide_eq {quantum : ℤ} (nonzero : quantum ≠ 0) (x target : ℤ) :
    nextPhaseMatchWide x target quantum = saturate (x + (target - x) % (quantum.natAbs : ℤ)) := by
  simp only [nextPhaseMatchWide, phaseWide_of_nonzero nonzero, ← Int.sub_emod]

theorem phase_congr {a b quantum : Beats}
    (congruent : a.value.toInt ≡ b.value.toInt [ZMOD quantum.value.toInt.natAbs]) :
    phase a quantum = phase b quantum := by
  unfold phase phaseWide
  rw [show a.value.toInt % (quantum.value.toInt.natAbs : ℤ) = _ from congruent]

theorem phase_zero {quantum : Beats} (zero : quantum.value.toInt = 0) (a b : Beats) :
    phase a quantum = phase b quantum := by
  unfold phase phaseWide
  rw [if_pos zero, if_pos zero]

theorem toInt_narrowBeats (x : ℤ) :
    (narrowBeats x).value.toInt = max i64Min (min x i64Max) := by
  apply toInt_ofInt <;> unfold i64Min i64Max <;> omega

section Match

variable (x target : Beats) {quantum : Beats}

theorem nextPhaseMatch_zero (zero : quantum.value.toInt = 0) :
    nextPhaseMatch x target quantum = x := by
  unfold nextPhaseMatch nextPhaseMatchWide phaseWide
  have fits : FitsI64 x.value.toInt := i64_bounds x.value
  simp only [if_pos zero, add_zero, saturate_of_fits fits.i128, narrowBeats_value]

theorem closestPhaseMatch_zero (zero : quantum.value.toInt = 0) :
    closestPhaseMatch x target quantum = x := by
  unfold closestPhaseMatch
  rw [zero, closestPhaseMatchWide_zero, narrowBeats_value]

variable (nonzero : quantum.value.toInt ≠ 0)

include nonzero

theorem toInt_nextPhaseMatch :
    (nextPhaseMatch x target quantum).value.toInt =
      min i64Max (x.value.toInt +
        (target.value.toInt - x.value.toInt) % (quantum.value.toInt.natAbs : ℤ)) := by
  have size := quantum_le quantum
  have bounds := i64_bounds x.value
  have low := Int.emod_nonneg (target.value.toInt - x.value.toInt)
    (show (quantum.value.toInt.natAbs : ℤ) ≠ 0 by omega)
  have high := Int.emod_lt_of_pos (target.value.toInt - x.value.toInt)
    (show 0 < (quantum.value.toInt.natAbs : ℤ) by omega)
  unfold nextPhaseMatch
  rw [nextPhaseMatchWide_eq nonzero, toInt_narrowBeats]
  unfold saturate i64Min i64Max i128Min i128Max at *
  omega

theorem toInt_closestPhaseMatch :
    (closestPhaseMatch x target quantum).value.toInt =
      max i64Min (min (x.value.toInt +
        (target.value.toInt - x.value.toInt).bmod quantum.value.toInt.natAbs) i64Max) := by
  have size := quantum_le quantum
  have bounds := i64_bounds x.value
  have half := bmod_half nonzero (target.value.toInt - x.value.toInt)
  unfold closestPhaseMatch
  rw [closestPhaseMatchWide_eq nonzero, toInt_narrowBeats]
  unfold saturate i64Min i64Max i128Min i128Max at *
  omega

end Match

/-- The next match is the least value at or above `x` in the phase of the target, the closest one
the only value of that phase within half a quantum; both are cut off at the limits of `i64`. -/
theorem phase_matches_optimal (x target quantum : Beats) :
    (quantum.value.toInt ≠ 0 → ∃ next closest : ℤ,
      IsLeast {y | x.value.toInt ≤ y ∧ y ≡ target.value.toInt [ZMOD |quantum.value.toInt|]} next ∧
      (nextPhaseMatch x target quantum).value.toInt = min i64Max next ∧
      (∀ y, (y ≡ target.value.toInt [ZMOD |quantum.value.toInt|] ∧
        -|quantum.value.toInt| ≤ 2 * (y - x.value.toInt) ∧
        2 * (y - x.value.toInt) < |quantum.value.toInt|) ↔ y = closest) ∧
      (closestPhaseMatch x target quantum).value.toInt = max i64Min (min closest i64Max) ∧
      (next ≤ i64Max →
        phase (nextPhaseMatch x target quantum) quantum = phase target quantum) ∧
      (FitsI64 closest →
        phase (closestPhaseMatch x target quantum) quantum = phase target quantum)) ∧
    (quantum.value.toInt = 0 → nextPhaseMatch x target quantum = x ∧
      closestPhaseMatch x target quantum = x ∧ phase x quantum = phase target quantum) := by
  refine ⟨fun nonzero => ?_, fun zero => ⟨nextPhaseMatch_zero x target zero,
    closestPhaseMatch_zero x target zero, phase_zero zero x target⟩⟩
  have positive : 0 < quantum.value.toInt.natAbs := by omega
  have least := isLeast_congruent (Int.natCast_pos.mpr positive) x.value.toInt target.value.toInt
  have closest := closest_congruent positive x.value.toInt target.value.toInt
  have next := toInt_nextPhaseMatch x target nonzero
  have near := toInt_closestPhaseMatch x target nonzero
  rw [← Int.natCast_natAbs]
  refine ⟨_, _, least, next, closest, near, fun fits => ?_, fun fits => ?_⟩
  · apply phase_congr
    rw [next, min_eq_right fits]
    exact least.1.2
  · apply phase_congr
    rw [near, min_eq_left fits.2, max_eq_right fits.1]
    exact ((closest _).mpr rfl).1

end AbletonLink.Link
