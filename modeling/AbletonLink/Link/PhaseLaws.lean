import AbletonLink.Link.Phase
import AbletonLink.Link.TimelineLaws

/-! The phase encoding translates the beats of a timeline, and a forced beat is exact. -/

namespace AbletonLink.Link

open Library Library.MachineInt

/-- The least translation, in either direction, by `x` modulo the quantum: zero for a zero
quantum, downward at a tie. -/
def quantumShift (x : Int) (quantum : Beats) : Int :=
  if quantum.value.toInt = 0 then 0 else x.bmod quantum.value.toInt.natAbs

section Closest

variable {quantum : ℤ} (nonzero : quantum ≠ 0)

include nonzero

theorem phaseWide_of_nonzero (x : ℤ) : phaseWide x quantum = x % (quantum.natAbs : ℤ) :=
  if_neg nonzero

theorem phaseWide_natAbs (x : ℤ) : phaseWide x quantum.natAbs = x % (quantum.natAbs : ℤ) := by
  unfold phaseWide
  rw [if_neg (by omega), Int.natAbs_natCast]

theorem closestPhaseMatchWide_eq (x target : ℤ) :
    closestPhaseMatchWide x target quantum =
      saturate (x + (target - x).bmod quantum.natAbs) := by
  have offset : (target % (quantum.natAbs : ℤ) - x % (quantum.natAbs : ℤ)) % (quantum.natAbs : ℤ) =
      (target - x) % (quantum.natAbs : ℤ) := (Int.sub_emod _ _ _).symm
  simp only [closestPhaseMatchWide, if_neg (show (quantum.natAbs : ℤ) ≠ 0 by omega),
    phaseWide_natAbs nonzero, offset]
  congr 2
  unfold Int.bmod
  dsimp only
  split <;> split <;> omega

theorem bmod_half (x : ℤ) :
    -(quantum.natAbs : ℤ) ≤ 2 * x.bmod quantum.natAbs ∧
      2 * x.bmod quantum.natAbs < quantum.natAbs := by
  have positive : 0 < quantum.natAbs := by omega
  have low := Int.le_bmod (x := x) positive
  have high := Int.bmod_lt (x := x) positive
  omega

end Closest

theorem closestPhaseMatchWide_zero (x target : ℤ) : closestPhaseMatchWide x target 0 = x := rfl

theorem closestPhaseMatchWide_natAbs (x target quantum : ℤ) :
    closestPhaseMatchWide x target quantum.natAbs = closestPhaseMatchWide x target quantum := by
  unfold closestPhaseMatchWide
  rw [Int.natAbs_natCast]

theorem quantum_le (quantum : Beats) : quantum.value.toInt.natAbs ≤ 2 ^ 63 := by
  have bounds := i64_bounds quantum.value
  unfold i64Min i64Max at bounds
  omega

section Encoding

variable (tl : Timeline) (quantum : Beats)

theorem toPhaseEncodedMicrobeats_eq (time : Duration) :
    toPhaseEncodedMicrobeats tl time quantum =
      saturate (tl.microbeatsAt time + quantumShift (-tl.beatOrigin.value.toInt) quantum) := by
  unfold toPhaseEncodedMicrobeats quantumShift
  dsimp only
  by_cases zero : quantum.value.toInt = 0
  · rw [zero, closestPhaseMatchWide_zero, if_pos rfl, add_zero,
      saturate_of_fits (tl.fits_microbeatsAt time)]
  · rw [closestPhaseMatchWide_eq zero, if_neg zero, phaseWide_of_nonzero zero,
      phaseWide_of_nonzero zero]
    congr 2
    generalize tl.microbeatsAt time = beat
    generalize tl.beatOrigin.value.toInt = origin
    rw [sub_sub, Int.emod_sub_bmod, show beat - (origin % _ + beat) = 0 - origin % _ by ring,
      Int.sub_emod_bmod, zero_sub]

theorem fromPhaseEncodedBeats_eq (beat : Beats) :
    fromPhaseEncodedBeats tl beat quantum = tl.timeAtMicrobeats
      (beat.value.toInt - quantumShift (-tl.beatOrigin.value.toInt) quantum) := by
  unfold fromPhaseEncodedBeats quantumShift
  dsimp only
  congr 1
  by_cases zero : quantum.value.toInt = 0
  · rw [zero, if_pos rfl]
    simp [phaseWide, closestPhaseMatchWide_zero]
  · have size := quantum_le quantum
    generalize quantum.value.toInt = q at zero size
    generalize beat.value.toInt = beat
    generalize tl.beatOrigin.value.toInt = origin
    rw [if_neg zero, closestPhaseMatchWide_natAbs, closestPhaseMatchWide_eq zero,
      phaseWide_natAbs zero, phaseWide_natAbs zero]
    have shift : (q.natAbs - beat % (q.natAbs : ℤ) -
        (q.natAbs - (beat - origin) % (q.natAbs : ℤ))).bmod q.natAbs = (-origin).bmod q.natAbs := by
      rw [sub_sub_sub_cancel_left, Int.emod_sub_bmod, Int.sub_emod_bmod,
        show beat - origin - beat = -origin by ring]
    have half := bmod_half zero (-origin)
    have rest := Int.emod_nonneg (beat - origin) (show (q.natAbs : ℤ) ≠ 0 by omega)
    have proper := Int.emod_lt_of_pos (beat - origin) (show 0 < (q.natAbs : ℤ) by omega)
    rw [shift, saturate_of_fits (by unfold FitsI128 i128Min i128Max; omega)]
    ring

theorem quantumShift_le (x : ℤ) : (quantumShift x quantum).natAbs ≤ 2 ^ 63 := by
  have size := quantum_le quantum
  unfold quantumShift
  split
  · omega
  · rename_i nonzero
    have half := bmod_half nonzero x
    omega

theorem narrow_of_fits {x : ℤ} (low : i64Min ≤ x) (high : x ≤ i64Max) :
    (narrowBeats x).value.toInt = x := by
  have same : max i64Min (min x i64Max) = x := by omega
  unfold narrowBeats narrow
  rw [same]
  exact toInt_ofInt low high

@[simp] theorem narrowBeats_value (b : Beats) : narrowBeats b.value.toInt = b :=
  Beats.ext (narrow_of_fits (i64_bounds b.value).1 (i64_bounds b.value).2)

theorem toPhaseEncodedMicrobeats_exact (nonzero : tl.tempo.periodMicros ≠ 0) (time : Duration) :
    toPhaseEncodedMicrobeats tl time quantum =
      tl.microbeatsAt time + quantumShift (-tl.beatOrigin.value.toInt) quantum := by
  have small := (tl.microbeatsAt_exact nonzero time).2
  have shift := quantumShift_le quantum (-tl.beatOrigin.value.toInt)
  rw [toPhaseEncodedMicrobeats_eq, saturate_of_fits]
  unfold FitsI128 i128Min i128Max
  omega

theorem toPhaseEncodedMicrobeats_fromPhaseEncodedBeats
    (slow : 1000 ≤ tl.tempo.periodMicros.natAbs) {beat : Beats}
    (inside : FitsDuration (tl.nanosAtMicrobeats
      (beat.value.toInt - quantumShift (-tl.beatOrigin.value.toInt) quantum))) :
    toPhaseEncodedMicrobeats tl (fromPhaseEncodedBeats tl beat quantum) quantum =
      beat.value.toInt := by
  have shift := quantumShift_le quantum (-tl.beatOrigin.value.toInt)
  have bounds := i64_bounds beat.value
  unfold i64Min i64Max at bounds
  rw [toPhaseEncodedMicrobeats_exact tl quantum (by omega), fromPhaseEncodedBeats_eq,
    tl.microbeatsAt_timeAtMicrobeats slow (by omega) inside, sub_add_cancel]

theorem toPhaseEncodedBeats_fromPhaseEncodedBeats (slow : 1000 ≤ tl.tempo.periodMicros.natAbs)
    {beat : Beats} (inside : FitsDuration (tl.nanosAtMicrobeats
      (beat.value.toInt - quantumShift (-tl.beatOrigin.value.toInt) quantum))) :
    toPhaseEncodedBeats tl (fromPhaseEncodedBeats tl beat quantum) quantum = beat := by
  unfold toPhaseEncodedBeats
  rw [toPhaseEncodedMicrobeats_fromPhaseEncodedBeats tl quantum slow inside, narrowBeats_value]

/-- One translation, by less than a quantum, takes beats to their encoding; its inverse takes
encoded beats to their times. -/
theorem phase_encoding_translates : ∃ d : ℤ,
    (quantum.value.toInt = 0 → d = 0) ∧
    (quantum.value.toInt ≠ 0 → -|quantum.value.toInt| ≤ 2 * d ∧ 2 * d < |quantum.value.toInt| ∧
      d ≡ -tl.beatOrigin.value.toInt [ZMOD |quantum.value.toInt|]) ∧
    (∀ time, toPhaseEncodedMicrobeats tl time quantum = saturate (tl.microbeatsAt time + d)) ∧
    (tl.tempo.periodMicros ≠ 0 →
      ∀ time, toPhaseEncodedMicrobeats tl time quantum = tl.microbeatsAt time + d) ∧
    (∀ beat, fromPhaseEncodedBeats tl beat quantum =
      tl.timeAtMicrobeats (beat.value.toInt - d)) ∧
    (1000 ≤ |tl.tempo.periodMicros| → ∀ beat : Beats,
      FitsDuration (tl.nanosAtMicrobeats (beat.value.toInt - d)) →
        toPhaseEncodedBeats tl (fromPhaseEncodedBeats tl beat quantum) quantum = beat) := by
  refine ⟨quantumShift (-tl.beatOrigin.value.toInt) quantum, fun zero => if_pos zero, ?_,
    toPhaseEncodedMicrobeats_eq tl quantum, toPhaseEncodedMicrobeats_exact tl quantum,
    fromPhaseEncodedBeats_eq tl quantum, ?_⟩
  · intro nonzero
    unfold quantumShift
    rw [if_neg nonzero, ← Int.natCast_natAbs]
    obtain ⟨low, high⟩ := bmod_half nonzero (-tl.beatOrigin.value.toInt)
    exact ⟨low, high, Int.bmod_emod⟩
  · intro slow beat inside
    have magnitude := Int.natCast_natAbs tl.tempo.periodMicros
    exact toPhaseEncodedBeats_fromPhaseEncodedBeats tl quantum (by omega) inside

end Encoding

def instantTempo : Timeline := ⟨⟨1000000000.0⟩, ⟨2⟩, Duration.zero⟩

theorem instantTempo_not_translated : ¬∃ d : ℤ, ∀ time,
    toPhaseEncodedMicrobeats instantTempo time ⟨3⟩ = instantTempo.microbeatsAt time + d := by
  rintro ⟨d, translated⟩
  have after := translated ⟨1, by decide, by decide⟩
  have before := translated ⟨-1, by decide, by decide⟩
  have apart :
      toPhaseEncodedMicrobeats instantTempo ⟨1, by decide, by decide⟩ ⟨3⟩ -
          instantTempo.microbeatsAt ⟨1, by decide, by decide⟩ ≠
        toPhaseEncodedMicrobeats instantTempo ⟨-1, by decide, by decide⟩ ⟨3⟩ -
          instantTempo.microbeatsAt ⟨-1, by decide, by decide⟩ := by decide +kernel
  omega

end AbletonLink.Link
