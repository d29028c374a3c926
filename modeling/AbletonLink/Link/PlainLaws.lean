import AbletonLink.Link.PlainTimeline
import AbletonLink.Link.ShiftedOrigin

/-! No operation on timelines and phases overflows or divides by zero. -/

namespace AbletonLink.Link

open Library Library.MachineInt

theorem phaseWide_bounds (x quantum : ℤ) :
    0 ≤ phaseWide x quantum ∧ phaseWide x quantum ≤ quantum.natAbs := by
  unfold phaseWide
  split
  · omega
  · have rest := Int.emod_nonneg x (show (quantum.natAbs : ℤ) ≠ 0 by omega)
    have proper := Int.emod_lt_of_pos x (show 0 < (quantum.natAbs : ℤ) by omega)
    omega

namespace Plain

theorem ends_durationNanos (d : Duration) : Ends (· = d.nanos) (durationNanos d) := by
  have fits := d.fits
  have parts := Int.mul_tdiv_add_tmod d.nanos 1000000000
  have rest := Int.natAbs_tmod d.nanos 1000000000
  have proper := Nat.mod_lt d.nanos.natAbs (show 0 < Int.natAbs 1000000000 by decide)
  unfold FitsDuration Duration.minNanos Duration.maxNanos at fits
  refine Ends.step (ends_small (by omega)) ?_
  refine (ends_small (by omega)).mono ?_
  rintro _ rfl
  omega

theorem ends_durationFromNanos (nanos : ℤ) :
    Ends (· = Link.durationFromNanos nanos) (durationFromNanos nanos) := by
  refine Ends.step (ends_durationNanos _) ?_
  refine Ends.step (ends_durationNanos _) ?_
  have fits := (Link.durationFromNanos nanos).fits
  change FitsDuration (max Duration.MIN.nanos (min nanos Duration.MAX.nanos)) at fits
  have parts := Int.mul_tdiv_add_tmod (max Duration.MIN.nanos (min nanos Duration.MAX.nanos))
    1000000000
  refine Ends.step (ends_checkedDiv fits.i128 (by decide)) ?_
  refine Ends.step (ends_checkedRem (by decide)) ?_
  rw [mul_comm] at parts
  rw [dif_pos (by rw [parts]; exact fits)]
  exact Ends.pure (Duration.ext parts)

section Period

variable {period : ℤ} (fits : FitsI128 period)

include fits

theorem ends_microbeatsFromNanos (nanos : ℤ) :
    Ends FitsI128 (microbeatsFromNanos period nanos) := by
  unfold microbeatsFromNanos
  by_cases zero : period = 0
  · rw [if_pos zero]
    unfold checkedRoundRatio roundRatio
    rw [if_pos zero, if_pos zero]
    refine Ends.pure ?_
    split
    · decide
    · split <;> decide
  · rw [if_neg zero]
    cases product : checked (nanos * 1000) with
    | some scaled =>
      obtain ⟨small, rfl⟩ := checked_eq_some product
      have notLeast := Tempo.scaled_notLeast nanos
      dsimp only
      rw [checkedRoundRatio_eq small notLeast]
      exact Ends.pure (fits_roundRatio zero small notLeast)
    | none =>
      dsimp only
      rw [checkedLongDivision_eq zero fits, longDivision_eq zero fits]
      exact Ends.pure (fits_saturate _)

theorem ends_scaledFromMicrobeats {scale beats : ℤ} (positive : 0 < scale)
    (small : scale ≤ 1000000) (inside : FitsI128 beats) :
    Ends FitsI128 (scaledFromMicrobeats scale period beats) := by
  obtain ⟨product, notLeast⟩ := remainders_product beats period positive small
  refine Ends.step (ends_checkedDiv inside positive) ?_
  refine Ends.step (ends_checkedRem positive) ?_
  refine Ends.step (ends_checkedDiv fits positive) ?_
  refine Ends.step (ends_checkedRem positive) ?_
  refine Ends.step (ends_checked product) ?_
  rw [checkedRoundRatio_eq product notLeast]
  exact Ends.pure (fits_saturate _)

theorem ends_microsFromMicrobeats {beats : ℤ} (inside : FitsI128 beats) :
    Ends FitsI128 (microsFromMicrobeats period beats) :=
  ends_scaledFromMicrobeats fits (by decide) (by decide) inside

theorem ends_nanosFromMicrobeats {beats : ℤ} (inside : FitsI128 beats) :
    Ends FitsI128 (nanosFromMicrobeats period beats) :=
  ends_scaledFromMicrobeats fits (by decide) (by decide) inside

end Period

section Timeline

variable (tl : PeriodTimeline)

theorem ends_microbeatsAtNanos (nanos : ℤ) : Ends FitsI128 (microbeatsAtNanos tl nanos) := by
  refine Ends.step (ends_durationNanos _) ?_
  refine Ends.bind (ends_microbeatsFromNanos tl.fits _) ?_
  intro beats _
  exact Ends.pure (fits_saturate _)

theorem ends_microbeatsAt (time : Duration) : Ends FitsI128 (microbeatsAt tl time) := by
  refine Ends.step (ends_durationNanos _) ?_
  exact ends_microbeatsAtNanos tl _

theorem ends_nanosAtMicrobeats {beats : ℤ} (small : beats.natAbs ≤ 2 ^ 100) :
    Ends FitsI128 (nanosAtMicrobeats tl beats) := by
  have origin := i64_bounds tl.beatOrigin.value
  unfold i64Min i64Max at origin
  have difference : FitsI128 (beats - tl.beatOrigin.value.toInt) := .of_natAbs_lt (by omega)
  refine Ends.step (ends_checked difference) ?_
  refine Ends.bind (ends_nanosFromMicrobeats tl.fits difference) ?_
  intro elapsed _
  refine Ends.step (ends_durationNanos _) ?_
  exact Ends.pure (fits_saturate _)

theorem ends_timeAtMicrobeats {beats : ℤ} (small : beats.natAbs ≤ 2 ^ 100) :
    Ends (fun _ => True) (timeAtMicrobeats tl beats) := by
  refine Ends.bind (ends_nanosAtMicrobeats tl small) ?_
  intro nanos _
  exact (ends_durationFromNanos nanos).mono fun _ _ => trivial

end Timeline

section Phase

variable {quantum : ℤ} (size : quantum.natAbs ≤ 2 ^ 63)

include size

theorem ends_quantum : Ends (· = (quantum.natAbs : ℤ)) (checkedAbs quantum) := by
  refine ends_checkedAbs (.of_natAbs_lt (by omega)) ?_
  unfold i128Min
  omega

theorem ends_phaseWide (beats : ℤ) :
    Ends (· = Link.phaseWide beats quantum) (phaseWide beats quantum) := by
  unfold phaseWide Link.phaseWide
  by_cases zero : quantum = 0
  · rw [if_pos zero, if_pos zero]
    exact Ends.pure rfl
  · rw [if_neg zero, if_neg zero]
    refine Ends.step (ends_quantum size) ?_
    exact ends_checkedRemEuclid (by omega)

theorem ends_matchOffset (x target : ℤ) :
    Ends (· = Link.phaseWide (Link.phaseWide target quantum - Link.phaseWide x quantum) quantum)
      (matchOffset x target quantum) := by
  have boundsX := phaseWide_bounds x quantum
  have boundsTarget := phaseWide_bounds target quantum
  refine Ends.step (ends_phaseWide size target) ?_
  refine Ends.step (ends_phaseWide size x) ?_
  refine Ends.step (ends_small (by omega)) ?_
  exact ends_phaseWide size _

theorem ends_nextPhaseMatchWide (x target : ℤ) :
    Ends (· = Link.nextPhaseMatchWide x target quantum) (nextPhaseMatchWide x target quantum) := by
  refine Ends.step (ends_matchOffset size x target) ?_
  exact Ends.pure rfl

theorem ends_closestPhaseMatchWide (x target : ℤ) :
    Ends (· = Link.closestPhaseMatchWide x target quantum)
      (closestPhaseMatchWide x target quantum) := by
  refine Ends.step (ends_quantum size) ?_
  unfold Link.closestPhaseMatchWide
  dsimp only
  by_cases zero : (quantum.natAbs : ℤ) = 0
  · rw [if_pos zero, if_pos zero]
    exact Ends.pure rfl
  · rw [if_neg zero, if_neg zero]
    refine Ends.step (ends_matchOffset (by rwa [Int.natAbs_natCast]) x target) ?_
    have bounds := phaseWide_bounds (Link.phaseWide target quantum.natAbs -
      Link.phaseWide x quantum.natAbs) quantum.natAbs
    rw [Int.natAbs_natCast] at bounds
    generalize Link.phaseWide (Link.phaseWide target quantum.natAbs -
      Link.phaseWide x quantum.natAbs) quantum.natAbs = offset at bounds
    refine Ends.step (ends_small (by omega)) ?_
    split
    · refine Ends.step (ends_small (by omega)) ?_
      exact Ends.pure rfl
    · exact Ends.pure rfl

end Phase

section Encoding

variable (tl : PeriodTimeline) (quantum : Beats)

theorem ends_toPhaseEncodedMicrobeats (time : Duration) :
    Ends FitsI128 (toPhaseEncodedMicrobeats tl time quantum) := by
  have size := quantum_le quantum
  refine Ends.bind (ends_microbeatsAt tl time) ?_
  intro beat fits
  refine Ends.step (ends_phaseWide size beat) ?_
  refine Ends.step (ends_phaseWide size _) ?_
  have boundsBeat := phaseWide_bounds beat quantum.value.toInt
  have boundsOrigin := phaseWide_bounds tl.beatOrigin.value.toInt quantum.value.toInt
  refine Ends.step (ends_small (by omega)) ?_
  refine (ends_closestPhaseMatchWide size beat _).mono ?_
  rintro _ rfl
  by_cases zero : quantum.value.toInt = 0
  · rw [zero, closestPhaseMatchWide_zero]
    exact fits
  · rw [closestPhaseMatchWide_eq zero]
    exact fits_saturate _

theorem ends_fromPhaseEncodedBeats (beat : Beats) :
    Ends (fun _ => True) (fromPhaseEncodedBeats tl beat quantum) := by
  have size := quantum_le quantum
  have bounds := i64_bounds beat.value
  have origin := i64_bounds tl.beatOrigin.value
  unfold i64Min i64Max at bounds origin
  have magnitude : (quantum.value.toInt.natAbs : ℤ).natAbs ≤ 2 ^ 63 := by
    rwa [Int.natAbs_natCast]
  refine Ends.step (ends_quantum size) ?_
  refine Ends.step (ends_small (by omega)) ?_
  refine Ends.step (ends_phaseWide magnitude _) ?_
  have rest := phaseWide_bounds (beat.value.toInt - tl.beatOrigin.value.toInt)
    quantum.value.toInt.natAbs
  rw [Int.natAbs_natCast] at rest
  refine Ends.step (ends_small (by omega)) ?_
  refine Ends.step (ends_small (by omega)) ?_
  refine Ends.step (ends_phaseWide magnitude _) ?_
  have phase := phaseWide_bounds beat.value.toInt quantum.value.toInt.natAbs
  rw [Int.natAbs_natCast] at phase
  refine Ends.step (ends_small (by omega)) ?_
  refine Ends.step (ends_closestPhaseMatchWide magnitude _ _) ?_
  have near := closestPhaseMatchWide_sub_le (x := quantum.value.toInt.natAbs -
    Link.phaseWide (beat.value.toInt - tl.beatOrigin.value.toInt) quantum.value.toInt.natAbs)
    (.of_natAbs_lt (by omega)) (quantum.value.toInt.natAbs -
      Link.phaseWide beat.value.toInt quantum.value.toInt.natAbs) quantum
  rw [← closestPhaseMatchWide_natAbs] at near
  refine Ends.step (ends_small (by omega)) ?_
  refine Ends.step (ends_small (by omega)) ?_
  refine Ends.step (ends_small (by omega)) ?_
  exact ends_timeAtMicrobeats tl (by omega)

theorem ends_shiftedTimeOriginNanos {shift : ℤ} (near : shift.natAbs ≤ 2 ^ 63) :
    Ends FitsI128 (shiftedTimeOriginNanos tl shift) := by
  have origin := i64_bounds tl.beatOrigin.value
  unfold i64Min i64Max at origin
  have rest := Int.natAbs_tmod tl.period 1000000
  have proper := Nat.mod_lt tl.period.natAbs (show 0 < Int.natAbs 1000000 by decide)
  have product {x : ℤ} (small : x.natAbs ≤ 2 ^ 64) :
      (x * tl.period.tmod 1000000).natAbs ≤ 2 ^ 64 * 1000000 := by
    rw [Int.natAbs_mul]
    exact Nat.mul_le_mul small (by omega)
  have rounded {x : ℤ} (small : x.natAbs ≤ 2 ^ 64) :
      checkedRoundRatio (x * tl.period.tmod 1000000) 1000000 =
          some (roundRatio (x * tl.period.tmod 1000000) 1000000) ∧
        (roundRatio (x * tl.period.tmod 1000000) 1000000).natAbs ≤ 2 ^ 64 * 1000000 := by
    have size := product small
    exact ⟨checkedRoundRatio_eq (.of_natAbs_lt (by omega))
      (by unfold i128Min; omega), (natAbs_roundRatio_le _ (by decide)).trans size⟩
  have after := rounded (x := shift - tl.beatOrigin.value.toInt) (by omega)
  have before := rounded (x := -tl.beatOrigin.value.toInt) (by omega)
  have afterProduct := product (x := shift - tl.beatOrigin.value.toInt) (by omega)
  have beforeProduct := product (x := -tl.beatOrigin.value.toInt) (by omega)
  refine Ends.step (ends_checkedRem (by decide)) ?_
  refine Ends.step (ends_checkedDiv tl.fits (by decide)) ?_
  refine Ends.step (ends_small (by omega)) ?_
  refine Ends.step (ends_small (by omega)) ?_
  refine Ends.step ⟨_, after.1, rfl⟩ ?_
  refine Ends.step (ends_small (by omega)) ?_
  refine Ends.step (ends_small (by omega)) ?_
  refine Ends.step ⟨_, before.1, rfl⟩ ?_
  refine Ends.step (ends_small (by omega)) ?_
  refine Ends.step (ends_durationNanos _) ?_
  exact Ends.pure (fits_saturate _)

theorem ends_shiftClientTimeline (shift : Beats) :
    Ends (fun _ => True) (shiftClientTimeline tl shift) := by
  have bounds := i64_bounds shift.value
  unfold i64Min i64Max at bounds
  refine Ends.bind (ends_shiftedTimeOriginNanos tl (by omega)) ?_
  intro nanos _
  refine Ends.step (ends_durationFromNanos nanos) ?_
  exact Ends.pure trivial

end Encoding

section Loop

variable {a b : ℤ} {s : Euclid}

theorem ends_euclidNext (inv : Euclid.Inv a b s) (smallB : b ≤ 2 ^ 63)
    (divisor : s.divisor ≤ 2 ^ 63) (remainder : s.remainder ≤ 2 ^ 63) (more : s.remainder ≠ 0) :
    Ends (· = s.next) (euclidNext s) := by
  have nonneg := inv.remainder
  have positive := inv.divisor
  obtain ⟨next, inverse⟩ := inv.coefficients_le more
  have quotient := inv.quotient_nonneg
  have product : s.divisor.tdiv s.remainder * s.remainder ≤ s.divisor := by
    have rest := inv.next.remainder
    change 0 ≤ s.divisor - s.divisor.tdiv s.remainder * s.remainder at rest
    omega
  have productNonneg := mul_nonneg quotient nonneg
  rw [abs_le] at next inverse
  have coefficient : s.next.coefficient =
      s.inverse - s.divisor.tdiv s.remainder * s.coefficient := rfl
  refine Ends.step (ends_checkedDiv (.of_natAbs_lt (by omega)) (by omega)) ?_
  refine Ends.step (ends_small (by omega)) ?_
  refine Ends.step (ends_small (by omega)) ?_
  refine Ends.step (ends_small (by omega)) ?_
  refine Ends.step (ends_small (by omega)) ?_
  exact Ends.pure rfl

theorem ends_euclidLoop (smallB : b ≤ 2 ^ 63) {fuel : ℕ}
    (inv : Euclid.Inv a b s) (divisor : s.divisor ≤ 2 ^ 63) (remainder : s.remainder ≤ 2 ^ 63)
    (enough : s.remainder.natAbs < fuel) : Ends (· = s.loop) (euclidLoop fuel s) := by
  induction fuel generalizing s with
  | zero => omega
  | succ fuel ih =>
    unfold euclidLoop Euclid.loop
    by_cases zero : s.remainder = 0
    · rw [if_pos zero, if_pos zero]
      exact Ends.pure rfl
    · rw [if_neg zero, if_neg zero]
      refine Ends.step (ends_euclidNext inv smallB divisor remainder zero) ?_
      have less := Euclid.next_lt zero
      have positive := inv.remainder
      have nonneg := inv.next.remainder
      exact ih inv.next remainder (by omega) (by omega)

end Loop

section FastAnchor

variable (tl : PeriodTimeline) (beat : Beats) (time : Duration) (quantum : Beats)

/-- What bounds the arithmetic of one residue. -/
structure AnchorRange (magnitude divisor modulus inverse minimum maximum span direction sign : ℤ) :
    Prop where
  fast : 1 ≤ magnitude ∧ magnitude < 1000
  positive : 0 < divisor
  class_ : 0 < modulus ∧ modulus ≤ 2 ^ 63
  proper : 0 ≤ inverse ∧ inverse < modulus
  least : 0 ≤ minimum ∧ minimum ≤ 2 ^ 65
  most : maximum.natAbs ≤ 2 ^ 65
  reach : 0 ≤ span ∧ span ≤ 2 ^ 85
  unit : direction = 1 ∨ direction = -1
  signed : sign = 0 ∨ sign = 1 ∨ sign = -1

variable {magnitude divisor modulus inverse minimum maximum span direction sign : ℤ}

theorem ends_fastAnchorAt (range : AnchorRange magnitude divisor modulus inverse minimum maximum
      span direction sign) {residue : ℤ} (nonneg : 0 ≤ residue) (proper : residue < magnitude)
    (within : residue ≤ span) :
    Ends (fun _ => True) (fastAnchorAt tl beat time quantum magnitude divisor modulus inverse
      minimum maximum span direction sign residue) := by
  obtain ⟨fast, positive, class_, inverted, least, most, reach, unit, signed⟩ := range
  replace most : -2 ^ 65 ≤ maximum ∧ maximum ≤ 2 ^ 65 := by omega
  have target := i64_bounds beat.value
  have now := time.fits
  unfold i64Min i64Max at target
  unfold FitsDuration Duration.minNanos Duration.maxNanos at now
  have turned {s x n : ℤ} (unit : s = 0 ∨ s = 1 ∨ s = -1) (h : -n ≤ x ∧ x ≤ n) :
      -n ≤ s * x ∧ s * x ≤ n := by
    obtain rfl | rfl | rfl := unit <;> omega
  have residues (x : ℤ) : 0 ≤ x % modulus ∧ x % modulus < modulus :=
    ⟨Int.emod_nonneg x class_.1.ne', Int.emod_lt_of_pos x class_.1⟩
  refine Ends.step (ends_small (by omega)) ?_
  have small : -1000000 ≤ roundRatio (1000 * residue) magnitude ∧
      roundRatio (1000 * residue) magnitude ≤ 1000000 := by
    have less := natAbs_roundRatio_le (1000 * residue) (show magnitude ≠ 0 by omega)
    omega
  refine Ends.step ⟨_, checkedRoundRatio_eq (.of_natAbs_lt (by omega)) (by unfold i128Min; omega),
    rfl⟩ ?_
  generalize roundRatio (1000 * residue) magnitude = rounded at small
  have product := turned (x := beat.value.toInt) (n := 2 ^ 63) signed (by omega)
  refine Ends.step (ends_small (by omega)) ?_
  generalize sign * beat.value.toInt = signedTarget at product
  refine Ends.step (ends_small (by omega)) ?_
  refine Ends.step (ends_checkedRemEuclid positive) ?_
  split
  · exact Ends.pure trivial
  refine Ends.step (ends_checkedDiv (.of_natAbs_lt (by omega)) positive) ?_
  refine Ends.step (ends_checkedRemEuclid class_.1) ?_
  have factor := residues ((signedTarget - rounded).tdiv divisor)
  generalize (signedTarget - rounded).tdiv divisor % modulus = factor_ at factor
  have area : 0 ≤ factor_ * inverse ∧ factor_ * inverse ≤ 2 ^ 63 * 2 ^ 63 :=
    ⟨mul_nonneg factor.1 inverted.1, mul_le_mul (by omega) (by omega) inverted.1 (by decide)⟩
  refine Ends.step (ends_small (by omega)) ?_
  refine Ends.step (ends_checkedRemEuclid class_.1) ?_
  have first := residues (factor_ * inverse)
  generalize factor_ * inverse % modulus = first_ at first
  refine Ends.step (ends_small (by omega)) ?_
  refine Ends.step (ends_small (by omega)) ?_
  refine Ends.step (ends_checkedDivEuclid (.of_natAbs_lt (by omega)) (by decide)) ?_
  refine Ends.step (ends_small (by omega)) ?_
  refine Ends.step (ends_checkedDivEuclid (.of_natAbs_lt (by omega)) (by decide)) ?_
  refine Ends.step (ends_small (by omega)) ?_
  refine Ends.step (ends_checkedDiv (.of_natAbs_lt (by omega)) (by omega)) ?_
  have lower : 0 ≤ max ((minimum - rounded + 999) / 1000) 0 ∧
      max ((minimum - rounded + 999) / 1000) 0 ≤ 2 ^ 65 := by omega
  generalize max ((minimum - rounded + 999) / 1000) 0 = lower_ at lower
  refine Ends.step (ends_small (by omega)) ?_
  refine Ends.step (ends_checkedRemEuclid class_.1) ?_
  have gap := residues (first_ - lower_)
  generalize (first_ - lower_) % modulus = gap_ at gap
  refine Ends.step (ends_small (by omega)) ?_
  split
  · exact Ends.pure trivial
  have cycles : 0 ≤ lower_ + gap_ ∧ lower_ + gap_ ≤ 2 ^ 66 := by omega
  generalize lower_ + gap_ = cycles_ at cycles
  refine Ends.step (ends_small (by omega)) ?_
  refine Ends.step (ends_small (by omega)) ?_
  have offset := turned (x := 1000 * cycles_ + rounded) (n := 2 ^ 80) signed (by omega)
  refine Ends.step (ends_small (by omega)) ?_
  generalize sign * (1000 * cycles_ + rounded) = offset_ at offset
  refine Ends.step (ends_small (by omega)) ?_
  have size := quantum_le quantum
  refine Ends.step (ends_quantum size) ?_
  refine Ends.step (ends_closestPhaseMatchWide (by rwa [Int.natAbs_natCast]) _ _) ?_
  split
  · exact Ends.pure trivial
  have elapsed : 0 ≤ cycles_ * magnitude ∧ cycles_ * magnitude ≤ 2 ^ 66 * 1000 :=
    ⟨mul_nonneg cycles.1 (by omega), mul_le_mul cycles.2 (by omega) (by omega) (by decide)⟩
  refine Ends.step (ends_small (by omega)) ?_
  refine Ends.step (ends_small (by omega)) ?_
  have moved := turned (x := cycles_ * magnitude + residue) (n := 2 ^ 80) (.inr unit) (by omega)
  refine Ends.step (ends_small (by omega)) ?_
  generalize direction * (cycles_ * magnitude + residue) = elapsed_ at moved
  refine Ends.step (ends_durationNanos _) ?_
  refine Ends.step (ends_small (by omega)) ?_
  refine Ends.step (ends_durationFromNanos _) ?_
  refine Ends.bind (ends_toPhaseEncodedMicrobeats _ quantum time) ?_
  intro encoded _
  exact Ends.pure trivial

theorem ends_firstWithin {anchorAt : ℤ → Option (Option PeriodTimeline)} {residues : List ℕ}
    (each : ∀ residue ∈ residues, (residue : ℤ) ≤ span →
      Ends (fun _ => True) (anchorAt residue)) :
    Ends (fun _ => True) (firstWithin span anchorAt residues) := by
  induction residues with
  | nil => exact Ends.pure trivial
  | cons residue residues ih =>
    unfold firstWithin
    split
    · exact Ends.pure trivial
    · refine Ends.bind (each residue List.mem_cons_self (by omega)) ?_
      rintro (_ | anchored) -
      · exact ih fun later mem => each later (List.mem_cons_of_mem _ mem)
      · exact Ends.pure trivial

theorem ends_anchorTowards {firstBoundary lastBoundary : ℤ}
    (fast : 1 ≤ magnitude ∧ magnitude < 1000) (positive : 0 < divisor)
    (class_ : 0 < modulus ∧ modulus ≤ 2 ^ 63) (proper : 0 ≤ inverse ∧ inverse < modulus)
    (first : firstBoundary.natAbs ≤ 2 ^ 64) (last : lastBoundary.natAbs ≤ 2 ^ 64)
    (unit : direction = 1 ∨ direction = -1) :
    Ends (fun _ => True) (anchorTowards tl beat time quantum magnitude firstBoundary lastBoundary
      divisor modulus inverse direction) := by
  have target := i64_bounds beat.value
  have now := time.fits
  unfold i64Min i64Max at target
  have signed : direction * tl.period.sign = 0 ∨ direction * tl.period.sign = 1 ∨
      direction * tl.period.sign = -1 := by
    obtain sign | sign | sign := Int.sign_trichotomy tl.period <;> rw [sign] <;> omega
  refine Ends.step (ends_small (by omega)) ?_
  generalize direction * tl.period.sign = sign at signed
  have minimum : Ends (fun x : ℤ => x.natAbs ≤ 2 ^ 65)
      (if sign > 0 then checked (beat.value.toInt - lastBoundary)
        else checked (firstBoundary - beat.value.toInt)) := by
    split
    · exact (ends_small (by omega)).mono (by omega)
    · exact (ends_small (by omega)).mono (by omega)
  have maximum : Ends (fun x : ℤ => x.natAbs ≤ 2 ^ 65)
      (if sign > 0 then checked (beat.value.toInt - firstBoundary)
        else checked (lastBoundary - beat.value.toInt)) := by
    split
    · exact (ends_small (by omega)).mono (by omega)
    · exact (ends_small (by omega)).mono (by omega)
  refine Ends.bind minimum ?_
  intro minimum low
  refine Ends.bind maximum ?_
  intro maximum high
  split
  · exact Ends.pure trivial
  refine Ends.step (ends_durationNanos _) ?_
  refine Ends.step (ends_durationNanos _) ?_
  refine Ends.step (ends_durationNanos _) ?_
  have span : Ends (fun x : ℤ => 0 ≤ x ∧ x ≤ 2 ^ 85)
      (if direction > 0 then checked (time.nanos - Duration.MIN.nanos)
        else checked (Duration.MAX.nanos - time.nanos)) := by
    change FitsDuration time.nanos at now
    unfold FitsDuration at now
    have least : Duration.MIN.nanos = Duration.minNanos := rfl
    have most : Duration.MAX.nanos = Duration.maxNanos := rfl
    unfold Duration.minNanos at least now
    unfold Duration.maxNanos at most now
    split
    · exact (ends_small (by omega)).mono (by omega)
    · exact (ends_small (by omega)).mono (by omega)
  refine Ends.bind span ?_
  intro span reach
  refine ends_firstWithin ?_
  intro residue mem within
  refine ends_fastAnchorAt tl beat time quantum ⟨fast, positive, class_, proper, by omega, high,
    reach, unit, signed⟩ (Int.natCast_nonneg residue) ?_ within
  have before := List.mem_range.mp mem
  omega

theorem ends_exactFastAnchor :
    Ends (fun _ => True) (exactFastAnchor tl beat time quantum) := by
  have size := quantum_le quantum
  refine Ends.step (ends_quantum size) ?_
  split
  · exact Ends.pure trivial
  rename_i fast
  rw [not_or, not_not] at fast
  obtain ⟨fast, nonzero⟩ := fast
  have magnitude : (quantum.value.toInt.natAbs : ℤ).natAbs ≤ 2 ^ 63 := by
    rwa [Int.natAbs_natCast]
  refine Ends.step (ends_closestPhaseMatchWide magnitude _ _) ?_
  refine Ends.step (ends_closestPhaseMatchWide magnitude _ _) ?_
  have positive : (0 : ℤ) < quantum.value.toInt.natAbs := by omega
  refine Ends.step (ends_euclidLoop (by omega) (Euclid.inv_start (by decide) positive.le)
    (show (1000 : ℤ) ≤ 2 ^ 63 by decide) (show (quantum.value.toInt.natAbs : ℤ) ≤ 2 ^ 63 by omega)
    (show (quantum.value.toInt.natAbs : ℤ).natAbs < _ by omega)) ?_
  have divisor := (Euclid.loop_start (a := 1000) (by decide) positive).1
  have divides := Int.gcd_dvd_right 1000 (quantum.value.toInt.natAbs : ℤ)
  have gcd : (0 : ℤ) < Int.gcd 1000 quantum.value.toInt.natAbs := by
    exact_mod_cast Int.gcd_pos_of_ne_zero_left _ (show (1000 : ℤ) ≠ 0 by decide)
  rw [← divisor] at divides gcd
  generalize (Euclid.start 1000 quantum.value.toInt.natAbs).loop = left at divides gcd
  refine Ends.step (ends_checkedDiv (.of_natAbs_lt (by omega)) gcd) ?_
  have modulus : 0 < (quantum.value.toInt.natAbs : ℤ).tdiv left.divisor ∧
      (quantum.value.toInt.natAbs : ℤ).tdiv left.divisor ≤ 2 ^ 63 := by
    rw [Int.tdiv_eq_ediv_of_nonneg positive.le]
    have less := Int.ediv_le_self left.divisor positive.le
    exact ⟨Int.ediv_pos_of_pos_of_dvd positive gcd.le divides, by omega⟩
  refine Ends.step (ends_checkedRemEuclid modulus.1) ?_
  have proper : 0 ≤ left.inverse % (quantum.value.toInt.natAbs : ℤ).tdiv left.divisor ∧
      left.inverse % (quantum.value.toInt.natAbs : ℤ).tdiv left.divisor <
        (quantum.value.toInt.natAbs : ℤ).tdiv left.divisor :=
    ⟨Int.emod_nonneg _ modulus.1.ne', Int.emod_lt_of_pos _ modulus.1⟩
  have first := closestPhaseMatchWide_sub_le (x := i64Min) (by decide) 0 quantum
  have last := closestPhaseMatchWide_sub_le (x := i64Max) (by decide) 0 quantum
  rw [← closestPhaseMatchWide_natAbs] at first last
  unfold i64Min at first
  unfold i64Max at last
  refine Ends.bind (ends_anchorTowards tl beat time quantum fast gcd modulus proper
    (by unfold i64Min; omega) (by unfold i64Max; omega) (.inl rfl)) ?_
  rintro (_ | anchored) -
  · exact ends_anchorTowards tl beat time quantum fast gcd modulus proper
      (by unfold i64Min; omega) (by unfold i64Max; omega) (.inr rfl)
  · exact Ends.pure trivial

end FastAnchor

section ForceBeat

variable (tl : PeriodTimeline) (beat : Beats) (time : Duration) (quantum : Beats)

theorem ends_anchoredAt (precise : Bool) {boundary : ℤ} (small : boundary.natAbs ≤ 2 ^ 64) :
    Ends (fun _ => True) (anchoredAt tl beat time quantum precise boundary) := by
  have size := quantum_le quantum
  have target := i64_bounds beat.value
  unfold i64Min i64Max at target
  have offset : FitsI128 (beat.value.toInt - boundary) := .of_natAbs_lt (by omega)
  refine Ends.step (ends_closestPhaseMatchWide size _ _) ?_
  split
  · exact Ends.pure trivial
  refine Ends.step (ends_checked offset) ?_
  have elapsed : Ends FitsI128
      (if precise then nanosFromMicrobeats tl.period (beat.value.toInt - boundary)
        else do pure (saturate
          ((← microsFromMicrobeats tl.period (beat.value.toInt - boundary)) * 1000))) := by
    split
    · exact ends_nanosFromMicrobeats tl.fits offset
    · refine Ends.bind (ends_microsFromMicrobeats tl.fits offset) ?_
      intro micros _
      exact Ends.pure (fits_saturate _)
  refine Ends.bind elapsed ?_
  intro elapsed _
  refine Ends.step (ends_durationNanos _) ?_
  refine Ends.step (ends_durationNanos _) ?_
  refine Ends.step (ends_durationNanos _) ?_
  cases precise with
  | true =>
    dsimp only
    rw [if_pos (.inl rfl)]
    refine Ends.step (ends_durationFromNanos _) ?_
    refine Ends.bind (ends_toPhaseEncodedMicrobeats _ quantum time) ?_
    intro encoded _
    exact Ends.pure trivial
  | false =>
    dsimp only
    split
    · refine Ends.step (ends_durationFromNanos _) ?_
      exact Ends.pure trivial
    · exact Ends.pure trivial

theorem ends_anchoredAtEither (precise : Bool) {boundary next : ℤ}
    (small : boundary.natAbs ≤ 2 ^ 64) (smallNext : next.natAbs ≤ 2 ^ 64) :
    Ends (fun _ => True) (anchoredAtEither tl beat time quantum precise boundary next) := by
  refine Ends.bind (ends_anchoredAt tl beat time quantum precise small) ?_
  rintro (_ | anchored) -
  · exact ends_anchoredAt tl beat time quantum precise smallNext
  · exact Ends.pure trivial

theorem ends_forceBeatAtTimeImpl :
    Ends (fun _ => True) (forceBeatAtTimeImpl tl beat time quantum) := by
  have size := quantum_le quantum
  have target := i64_bounds beat.value
  have origin := i64_bounds tl.beatOrigin.value
  unfold i64Min i64Max at target origin
  refine Ends.bind (ends_toPhaseEncodedMicrobeats tl quantum time) ?_
  intro current fits
  refine Ends.step (ends_closestPhaseMatchWide size _ _) ?_
  have near := closestPhaseMatchWide_sub_le fits beat.value.toInt quantum
  refine Ends.step (ends_small (by omega)) ?_
  refine Ends.bind (ends_shiftedTimeOriginNanos tl near) ?_
  intro nanos _
  refine Ends.step (ends_small (by omega)) ?_
  refine Ends.step (ends_durationNanos _) ?_
  refine Ends.step (ends_durationNanos _) ?_
  refine Ends.step (ends_durationFromNanos _) ?_
  refine Ends.bind (P := fun _ => True) ?_ ?_
  · split
    · exact Ends.pure trivial
    · refine Ends.bind (ends_toPhaseEncodedMicrobeats _ quantum time) ?_
      intro encoded _
      exact Ends.pure trivial
  intro missed _
  split
  · have phase := phaseWide_bounds beat.value.toInt quantum.value.toInt
    refine Ends.step (ends_phaseWide size _) ?_
    refine Ends.step (ends_small (by omega)) ?_
    refine Ends.step (ends_quantum size) ?_
    refine Ends.step (ends_small (by omega)) ?_
    have below : (beat.value.toInt - Link.phaseWide beat.value.toInt quantum.value.toInt).natAbs ≤
      2 ^ 64 := by omega
    have above : (beat.value.toInt - Link.phaseWide beat.value.toInt quantum.value.toInt +
      quantum.value.toInt.natAbs).natAbs ≤ 2 ^ 64 := by omega
    refine Ends.bind (ends_anchoredAtEither tl beat time quantum true below above) ?_
    rintro (_ | anchored) -
    · refine Ends.bind (ends_exactFastAnchor tl beat time quantum) ?_
      rintro (_ | anchored) -
      · dsimp only
        split
        · refine Ends.bind (ends_anchoredAtEither tl beat time quantum false below above) ?_
          intro anchored _
          exact Ends.pure trivial
        · exact Ends.pure trivial
      · exact Ends.pure trivial
    · exact Ends.pure trivial
  · exact Ends.pure trivial

end ForceBeat

section Updates

variable (atTime : Duration) (xForm : GhostXForm)

theorem ends_updateClientTimelineFromSession (curClient session : PeriodTimeline) :
    Ends (fun _ => True) (updateClientTimelineFromSession atTime xForm curClient session) := by
  refine Ends.bind (ends_nanosAtMicrobeats session (by decide)) ?_
  intro zero _
  split
  · exact Ends.pure trivial
  rename_i hostBeatZero _
  have start := hostBeatZero.fits
  have now := atTime.fits
  unfold FitsDuration Duration.minNanos Duration.maxNanos at start now
  refine Ends.step (ends_durationNanos _) ?_
  refine Ends.step (ends_durationNanos _) ?_
  refine Ends.step (ends_small (by omega)) ?_
  refine Ends.bind (ends_microbeatsAt curClient atTime) ?_
  intro current _
  refine Ends.bind (ends_microbeatsFromNanos session.fits _) ?_
  intro beats _
  split
  · exact Ends.pure trivial
  refine Ends.bind (ends_microbeatsAt _ atTime) ?_
  intro encoded _
  split
  · exact Ends.pure trivial
  · exact Ends.pure trivial

theorem ends_updateSessionTimelineFromClient (curSession client : PeriodTimeline)
    (sameTempo : Bool) :
    Ends (fun _ => True)
      (updateSessionTimelineFromClient atTime xForm curSession client sameTempo) := by
  refine Ends.step ⟨_, xForm.checkedHostToGhostWideNanos_eq _, rfl⟩ ?_
  refine Ends.bind (ends_nanosAtMicrobeats curSession (by decide)) ?_
  intro zero _
  split
  · exact Ends.pure trivial
  split
  · exact Ends.pure trivial
  rename_i successor _
  refine Ends.step ⟨_, xForm.checkedHostToGhostWideNanos_eq _, rfl⟩ ?_
  refine Ends.bind (ends_microbeatsAtNanos curSession _) ?_
  intro beats _
  have origin := i64_bounds (max (narrow beats) successor)
  unfold i64Min i64Max at origin
  refine Ends.bind (ends_nanosFromMicrobeats client.fits
    (show FitsI128 (max (narrow beats) successor).toInt from .of_natAbs_lt (by omega))) ?_
  intro offset _
  split
  · exact Ends.pure trivial
  refine Ends.step (ends_durationFromNanos _) ?_
  refine Ends.step (ends_durationNanos _) ?_
  split
  · exact Ends.pure trivial
  · exact Ends.pure trivial

end Updates

end Plain

end AbletonLink.Link
