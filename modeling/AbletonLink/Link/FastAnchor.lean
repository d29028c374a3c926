import AbletonLink.Library.Euclid
import AbletonLink.Link.ForceBeat

/-! Anchors at tempos with less than a nanosecond to the microbeat: one is found whenever there is
one. -/

namespace AbletonLink.Link

open Library Library.MachineInt

theorem bezout_eq_loop (s : Euclid) :
    bezout s.divisor s.remainder s.inverse s.coefficient = (s.loop.divisor, s.loop.inverse) := by
  fun_induction Euclid.loop s with
  | case1 s zero => rw [bezout, if_pos zero]
  | case2 s more ih =>
    rw [bezout, if_neg more]
    exact ih

theorem le_of_multiples {m a b : ℤ} (ha : m ∣ a) (hb : m ∣ b) (near : a - b < m) : a ≤ b := by
  by_contra above
  have gap := Int.le_of_dvd (by omega) (dvd_sub ha hb)
  omega

section Boundaries

variable {quantum : Beats} (nonzero : quantum.value.toInt ≠ 0)

include nonzero

theorem closest_boundary {x : ℤ} (fits : FitsI64 x) :
    (quantum.value.toInt.natAbs : ℤ) ∣ closestPhaseMatchWide x 0 quantum.value.toInt ∧
      -(quantum.value.toInt.natAbs : ℤ) ≤
        2 * (closestPhaseMatchWide x 0 quantum.value.toInt - x) ∧
      2 * (closestPhaseMatchWide x 0 quantum.value.toInt - x) < quantum.value.toInt.natAbs := by
  have size := quantum_le quantum
  have half := bmod_half nonzero (0 - x)
  have multiple : (quantum.value.toInt.natAbs : ℤ) ∣
      x + (0 - x).bmod quantum.value.toInt.natAbs := by
    have negated := Int.dvd_self_sub_bmod (x := 0 - x) (m := quantum.value.toInt.natAbs)
    rwa [← dvd_neg, neg_sub, sub_sub_eq_add_sub, sub_zero, add_comm] at negated
  unfold FitsI64 i64Min i64Max at fits
  rw [closestPhaseMatchWide_eq nonzero,
    saturate_of_fits (.of_natAbs_lt (by omega))]
  exact ⟨multiple, by omega, by omega⟩

theorem closest_boundary_between {x : ℤ} (fits : FitsI64 x) :
    closestPhaseMatchWide i64Min 0 quantum.value.toInt ≤
        closestPhaseMatchWide x 0 quantum.value.toInt ∧
      closestPhaseMatchWide x 0 quantum.value.toInt ≤
        closestPhaseMatchWide i64Max 0 quantum.value.toInt := by
  obtain ⟨multiple, low, high⟩ := closest_boundary nonzero fits
  obtain ⟨first, -, firstHigh⟩ := closest_boundary nonzero (show FitsI64 i64Min by decide)
  obtain ⟨last, lastLow, -⟩ := closest_boundary nonzero (show FitsI64 i64Max by decide)
  have order : i64Min ≤ x ∧ x ≤ i64Max := fits
  exact ⟨le_of_multiples first multiple (by omega), le_of_multiples multiple last (by omega)⟩

theorem isOrigin_of_between {b : ℤ} (multiple : (quantum.value.toInt.natAbs : ℤ) ∣ b)
    (low : closestPhaseMatchWide i64Min 0 quantum.value.toInt ≤ b)
    (high : b ≤ closestPhaseMatchWide i64Max 0 quantum.value.toInt) :
    closestPhaseMatchWide (narrowBeats b).value.toInt 0 quantum.value.toInt = b := by
  obtain ⟨first, firstLow, firstHigh⟩ := closest_boundary nonzero (show FitsI64 i64Min by decide)
  obtain ⟨last, lastLow, lastHigh⟩ := closest_boundary nonzero (show FitsI64 i64Max by decide)
  have stored : (narrowBeats b).value.toInt = max i64Min (min b i64Max) := by
    refine toInt_ofInt ?_ ?_ <;> unfold i64Min i64Max <;> omega
  have bounds := i64_bounds (narrowBeats b).value
  by_cases below : b < i64Min
  · -- The one multiple below the range is the first boundary.
    have same : b = closestPhaseMatchWide i64Min 0 quantum.value.toInt :=
      le_antisymm (le_of_multiples multiple first (by omega)) low
    rw [stored, show max i64Min (min b i64Max) = i64Min by omega, same]
  · by_cases above : i64Max < b
    · have same : b = closestPhaseMatchWide i64Max 0 quantum.value.toInt :=
        le_antisymm high (le_of_multiples last multiple (by omega))
      rw [stored, show max i64Min (min b i64Max) = i64Max by unfold i64Min i64Max at *; omega, same]
    · exact Boundary.isOrigin quantum (fun _ => multiple) (by omega) (by omega)

end Boundaries

theorem roundRatio_nonneg {n d : ℤ} (hn : 0 ≤ n) (hd : 0 < d) : 0 ≤ roundRatio n d := by
  rw [roundRatio_eq _ hd.ne']
  exact roundHalfAway_nonneg (div_nonneg (by exact_mod_cast hn) (by exact_mod_cast hd.le))

theorem sign_unit {period direction : ℤ} (nonzero : period ≠ 0)
    (unit : direction = 1 ∨ direction = -1) :
    direction * period.sign = 1 ∨ direction * period.sign = -1 := by
  obtain sign | sign | sign := Int.sign_trichotomy period
  · rw [sign]
    omega
  · exact absurd (Int.sign_eq_zero_iff_zero.mp sign) nonzero
  · rw [sign]
    omega

theorem toPhaseEncodedMicrobeats_anchored (tl : Timeline) (nonzero : tl.tempo.periodMicros ≠ 0)
    (origin : Beats) (start time : Duration) (quantum : Beats) :
    toPhaseEncodedMicrobeats { tl with beatOrigin := origin, timeOrigin := start } time quantum =
      tl.tempo.microbeatsFromNanos (time.nanos - start.nanos) +
        closestPhaseMatchWide origin.value.toInt 0 quantum.value.toInt := by
  obtain ⟨beat, -⟩ := Timeline.microbeatsAt_exact
    { tl with beatOrigin := origin, timeOrigin := start } nonzero time
  rw [toPhaseEncodedMicrobeats_exact { tl with beatOrigin := origin, timeOrigin := start } quantum
    nonzero, beat, shift_of_isOrigin quantum rfl]
  ring

namespace Tempo

theorem microbeatsFromNanos_split (t : Tempo) (nonzero : t.periodMicros ≠ 0) {direction : ℤ}
    (unit : direction = 1 ∨ direction = -1) {cycles residue : ℤ} (hc : 0 ≤ cycles)
    (hr : 0 ≤ residue) (small : cycles * t.periodMicros.natAbs + residue ≤ 2 ^ 90) :
    t.microbeatsFromNanos (direction * (cycles * t.periodMicros.natAbs + residue)) =
      direction * t.periodMicros.sign *
        (1000 * cycles + roundRatio (1000 * residue) t.periodMicros.natAbs) := by
  have size : (direction * (cycles * t.periodMicros.natAbs + residue)).natAbs ≤ 2 ^ 90 := by
    have nonneg : 0 ≤ cycles * t.periodMicros.natAbs := mul_nonneg hc (Int.natCast_nonneg _)
    obtain rfl | rfl := unit <;> omega
  have bound := t.microbeatsFromNanos_le nonzero
    (direction * (cycles * t.periodMicros.natAbs + residue))
  have positive : (0 : ℚ) < (t.periodMicros.natAbs : ℤ) := by
    exact_mod_cast Int.natAbs_pos.mpr nonzero
  have rounded : roundHalfAway
      (((1000 * cycles : ℤ) : ℚ) + ((1000 * residue : ℤ) : ℚ) / (t.periodMicros.natAbs : ℤ)) =
        1000 * cycles + roundRatio (1000 * residue) t.periodMicros.natAbs := by
    rw [roundHalfAway_int_add (.inl ⟨by omega, div_nonneg (by exact_mod_cast by omega)
      positive.le⟩), roundRatio_eq _ (by exact_mod_cast positive.ne')]
  have signed : (t.periodMicros : ℚ) = t.periodMicros.sign * (t.periodMicros.natAbs : ℤ) := by
    exact_mod_cast (Int.sign_mul_natAbs t.periodMicros).symm
  have quotient : ((cycles * t.periodMicros.natAbs + residue : ℤ) : ℚ) * 1000 /
      (t.periodMicros.natAbs : ℤ) = ((1000 * cycles : ℤ) : ℚ) +
        ((1000 * residue : ℤ) : ℚ) / (t.periodMicros.natAbs : ℤ) := by
    rw [div_eq_iff positive.ne', add_mul, div_mul_cancel₀ _ positive.ne']
    push_cast
    ring
  have turned : roundHalfAway
      ((direction * (cycles * t.periodMicros.natAbs + residue) : ℤ) * 1000 / t.periodMicros) =
        direction * t.periodMicros.sign *
          (1000 * cycles + roundRatio (1000 * residue) t.periodMicros.natAbs) := by
    rw [signed, ← rounded, ← quotient, Int.cast_mul, mul_assoc, ← div_mul_div_comm]
    obtain sign | sign | sign := Int.sign_trichotomy t.periodMicros
    · obtain rfl | rfl := unit <;> simp [sign]
    · exact absurd (Int.sign_eq_zero_iff_zero.mp sign) nonzero
    · obtain rfl | rfl := unit <;> simp [sign]
  rw [t.microbeatsFromNanos_exact nonzero, turned] at bound ⊢
  unfold saturate i128Min i128Max at *
  omega

end Tempo

section Search

variable {span : ℤ} {anchorAt : ℤ → Option Timeline} {residues : List ℕ}

theorem firstWithin_sound {anchored : Timeline}
    (found : firstWithin span anchorAt residues = some anchored) :
    ∃ residue, anchorAt residue = some anchored := by
  induction residues with
  | nil => cases found
  | cons residue residues ih =>
    unfold firstWithin at found
    split at found
    · cases found
    · split at found
      next here =>
        cases found
        exact ⟨residue, here⟩
      next => exact ih found

theorem firstWithin_isSome (sorted : residues.Pairwise (· ≤ ·)) {residue : ℕ}
    (member : residue ∈ residues) (within : (residue : ℤ) ≤ span)
    (anchors : (anchorAt residue).isSome = true) :
    (firstWithin span anchorAt residues).isSome = true := by
  induction residues with
  | nil => cases member
  | cons first residues ih =>
    obtain ⟨least, sorted⟩ := List.pairwise_cons.mp sorted
    have before : (first : ℤ) ≤ residue := by
      obtain rfl | later := List.mem_cons.mp member
      · exact le_refl _
      · exact_mod_cast least residue later
    unfold firstWithin
    rw [if_neg (by omega)]
    split
    · rfl
    · rename_i missed
      obtain rfl | later := List.mem_cons.mp member
      · rw [missed] at anchors
        cases anchors
      · exact ih sorted later

end Search

section Anchors

variable (timeline : Timeline) (beat : Beats) (time : Duration) (quantum : Beats)

/-- How many microbeats can lie between the beat and a boundary. -/
def anchorBounds (sign : Int) : Int × Int :=
  let target := beat.value.toInt
  let firstBoundary := closestPhaseMatchWide i64Min 0 quantum.value.toInt.natAbs
  let lastBoundary := closestPhaseMatchWide i64Max 0 quantum.value.toInt.natAbs
  if sign > 0 then (target - lastBoundary, target - firstBoundary)
  else (firstBoundary - target, lastBoundary - target)

/-- How many nanoseconds can lie between the time and an origin. -/
def anchorSpan (direction : Int) : Int :=
  if direction > 0 then time.nanos - Duration.minNanos else Duration.maxNanos - time.nanos

def anchorLoop : Euclid := (Euclid.start 1000 quantum.value.toInt.natAbs).loop

def anchorModulus : Int := (quantum.value.toInt.natAbs : Int).tdiv (anchorLoop quantum).divisor

def anchorOf (direction residue : Int) : Option Timeline :=
  let sign := direction * timeline.tempo.periodMicros.sign
  fastAnchorAt timeline beat time quantum timeline.tempo.periodMicros.natAbs
    (anchorLoop quantum).divisor (anchorModulus quantum)
    ((anchorLoop quantum).inverse % anchorModulus quantum)
    (max (anchorBounds beat quantum sign).1 0) (anchorBounds beat quantum sign).2
    (anchorSpan time direction) direction sign residue

def anchorTowards (direction : Int) : Option Timeline :=
  let bounds := anchorBounds beat quantum (direction * timeline.tempo.periodMicros.sign)
  if bounds.2 < max bounds.1 0 then none
  else firstWithin (anchorSpan time direction) (anchorOf timeline beat time quantum direction)
    (List.range timeline.tempo.periodMicros.natAbs)

theorem exactFastAnchor_eq (least : 1 ≤ timeline.tempo.periodMicros.natAbs)
    (fast : timeline.tempo.periodMicros.natAbs < 1000) (nonzero : quantum.value.toInt ≠ 0) :
    exactFastAnchor timeline beat time quantum =
      [1, -1].findSome? (anchorTowards timeline beat time quantum) := by
  have loop := bezout_eq_loop (Euclid.start 1000 quantum.value.toInt.natAbs)
  change bezout 1000 quantum.value.toInt.natAbs 1 0 = _ at loop
  unfold exactFastAnchor
  rw [if_neg (by omega), loop]
  rfl

variable {timeline beat time quantum}

theorem fastAnchorAt_sound
    {magnitude divisor modulus inverse minimum maximum span direction sign residue : ℤ}
    {anchored : Timeline} (found : fastAnchorAt timeline beat time quantum magnitude divisor modulus
      inverse minimum maximum span direction sign residue = some anchored) :
    anchored.tempo = timeline.tempo ∧
      toPhaseEncodedMicrobeats anchored time quantum = beat.value.toInt := by
  unfold fastAnchorAt at found
  dsimp only at found
  split at found
  · cases found
  · split at found
    · cases found
    · split at found
      · cases found
      · split at found
        next verified =>
          cases found
          exact ⟨rfl, verified⟩
        next => cases found

theorem anchorTowards_sound {direction : ℤ} {anchored : Timeline}
    (found : anchorTowards timeline beat time quantum direction = some anchored) :
    anchored.tempo = timeline.tempo ∧
      toPhaseEncodedMicrobeats anchored time quantum = beat.value.toInt := by
  unfold anchorTowards at found
  dsimp only at found
  split at found
  · cases found
  · obtain ⟨residue, here⟩ := firstWithin_sound found
    exact fastAnchorAt_sound here

theorem anchorBounds_iff {sign : ℤ} (unit : sign = 1 ∨ sign = -1) (offset : ℤ) :
    (anchorBounds beat quantum sign).1 ≤ offset ∧ offset ≤ (anchorBounds beat quantum sign).2 ↔
      closestPhaseMatchWide i64Min 0 quantum.value.toInt ≤ beat.value.toInt - sign * offset ∧
        beat.value.toInt - sign * offset ≤
          closestPhaseMatchWide i64Max 0 quantum.value.toInt := by
  unfold anchorBounds
  simp only [closestPhaseMatchWide_natAbs]
  obtain rfl | rfl := unit
  · rw [if_pos (by decide)]
    dsimp only
    omega
  · rw [if_neg (by decide)]
    dsimp only
    omega

theorem anchorBounds_of_reached {sign : ℤ} (unit : sign = 1 ∨ sign = -1) {offset boundary : ℤ}
    (low : closestPhaseMatchWide i64Min 0 quantum.value.toInt ≤ boundary)
    (high : boundary ≤ closestPhaseMatchWide i64Max 0 quantum.value.toInt)
    (reached : beat.value.toInt = sign * offset + boundary) :
    (anchorBounds beat quantum sign).1 ≤ offset ∧ offset ≤ (anchorBounds beat quantum sign).2 := by
  rw [anchorBounds_iff unit, reached, add_sub_cancel_left]
  exact ⟨low, high⟩

theorem le_anchorSpan_iff {direction : ℤ} (unit : direction = 1 ∨ direction = -1) {elapsed : ℤ}
    (nonneg : 0 ≤ elapsed) :
    elapsed ≤ anchorSpan time direction ↔ FitsDuration (time.nanos - direction * elapsed) := by
  have fits := time.fits
  unfold FitsDuration at *
  unfold anchorSpan
  obtain rfl | rfl := unit
  · rw [if_pos (by decide)]
    omega
  · rw [if_neg (by decide)]
    omega

section Loop

variable (nonzero : quantum.value.toInt ≠ 0)

include nonzero

theorem anchorLoop_spec :
    0 < (anchorLoop quantum).divisor ∧ (anchorLoop quantum).divisor ∣ 1000 ∧
      0 < anchorModulus quantum ∧
      (anchorLoop quantum).divisor * anchorModulus quantum = quantum.value.toInt.natAbs ∧
      1000 / (anchorLoop quantum).divisor * (anchorLoop quantum).inverse ≡ 1
        [ZMOD anchorModulus quantum] := by
  have positive : (0 : ℤ) < quantum.value.toInt.natAbs := by omega
  obtain ⟨gcd, inverse⟩ := Euclid.loop_start (show (0 : ℤ) < 1000 by decide) positive
  have divisor : 0 < (anchorLoop quantum).divisor := by
    unfold anchorLoop
    rw [gcd]
    exact Int.natCast_pos.mpr (Int.gcd_pos_of_ne_zero_left _ (by decide))
  have left : (anchorLoop quantum).divisor ∣ 1000 := gcd ▸ Int.gcd_dvd_left ..
  have right : (anchorLoop quantum).divisor ∣ quantum.value.toInt.natAbs :=
    gcd ▸ Int.gcd_dvd_right ..
  have modulus : anchorModulus quantum =
      (quantum.value.toInt.natAbs : ℤ) / (anchorLoop quantum).divisor :=
    Int.tdiv_eq_ediv_of_nonneg positive.le
  have product : (anchorLoop quantum).divisor * anchorModulus quantum =
      quantum.value.toInt.natAbs := by
    rw [modulus, Int.mul_ediv_cancel' right]
  exact ⟨divisor, left, pos_of_mul_pos_right (product ▸ positive) divisor.le, product,
    modulus ▸ inverse⟩

theorem cycles_modEq {rhs cycles : ℤ}
    (congruent : 1000 * cycles ≡ rhs [ZMOD quantum.value.toInt.natAbs]) :
    rhs % (anchorLoop quantum).divisor = 0 ∧
      cycles ≡ rhs.tdiv (anchorLoop quantum).divisor % anchorModulus quantum *
        ((anchorLoop quantum).inverse % anchorModulus quantum) % anchorModulus quantum
          [ZMOD anchorModulus quantum] := by
  have positive : (0 : ℤ) < quantum.value.toInt.natAbs := by omega
  obtain ⟨divides, solution⟩ := Euclid.solve (show (0 : ℤ) < 1000 by decide) positive congruent
  change (anchorLoop quantum).divisor ∣ rhs at divides
  have modulus : anchorModulus quantum =
      (quantum.value.toInt.natAbs : ℤ) / (anchorLoop quantum).divisor :=
    Int.tdiv_eq_ediv_of_nonneg positive.le
  refine ⟨Int.emod_eq_zero_of_dvd divides, ?_⟩
  rw [Int.tdiv_eq_ediv_of_dvd divides, modulus, ← Int.mul_emod]
  exact solution.trans (Int.mod_modEq _ _).symm

theorem quantum_dvd_of_modEq {a b : ℤ} (same : a ≡ b [ZMOD anchorModulus quantum]) :
    (quantum.value.toInt.natAbs : ℤ) ∣ 1000 * (b - a) := by
  obtain ⟨-, divides, -, product, -⟩ := anchorLoop_spec nonzero
  rw [← product]
  exact mul_dvd_mul divides same.dvd

end Loop

theorem anchorOf_isSome (least : 1 ≤ timeline.tempo.periodMicros.natAbs)
    (nonzero : quantum.value.toInt ≠ 0) {direction : ℤ} (unit : direction = 1 ∨ direction = -1)
    {cycles residue boundary : ℤ} (hc : 0 ≤ cycles) (hr : 0 ≤ residue)
    (multiple : (quantum.value.toInt.natAbs : ℤ) ∣ boundary)
    (low : closestPhaseMatchWide i64Min 0 quantum.value.toInt ≤ boundary)
    (high : boundary ≤ closestPhaseMatchWide i64Max 0 quantum.value.toInt)
    (within : cycles * timeline.tempo.periodMicros.natAbs + residue ≤ anchorSpan time direction)
    (reached : beat.value.toInt = direction * timeline.tempo.periodMicros.sign *
      (1000 * cycles + roundRatio (1000 * residue) timeline.tempo.periodMicros.natAbs) +
        boundary) :
    (anchorOf timeline beat time quantum direction residue).isSome = true := by
  have period : timeline.tempo.periodMicros ≠ 0 := by omega
  have signUnit := sign_unit period unit
  have square : direction * timeline.tempo.periodMicros.sign *
      (direction * timeline.tempo.periodMicros.sign) = 1 := by
    obtain unit | unit := signUnit <;> rw [unit] <;> rfl
  have inBounds := anchorBounds_of_reached signUnit low high reached
  have rounding := roundRatio_nonneg (show 0 ≤ 1000 * residue by omega)
    (show (0 : ℤ) < timeline.tempo.periodMicros.natAbs by omega)
  have congruent : 1000 * cycles ≡ direction * timeline.tempo.periodMicros.sign * beat.value.toInt -
      roundRatio (1000 * residue) timeline.tempo.periodMicros.natAbs
        [ZMOD quantum.value.toInt.natAbs] := by
    refine Int.modEq_iff_dvd.mpr ?_
    have difference : direction * timeline.tempo.periodMicros.sign * beat.value.toInt -
        roundRatio (1000 * residue) timeline.tempo.periodMicros.natAbs - 1000 * cycles =
          boundary * (direction * timeline.tempo.periodMicros.sign) := by
      rw [reached]
      linear_combination (1000 * cycles +
        roundRatio (1000 * residue) timeline.tempo.periodMicros.natAbs) * square
    rw [difference]
    exact dvd_mul_of_dvd_left multiple _
  obtain ⟨divisible, solution⟩ := cycles_modEq nonzero congruent
  obtain ⟨-, -, positive, -, -⟩ := anchorLoop_spec nonzero
  have elapsed {c : ℤ} (hc : 0 ≤ c) :=
    timeline.tempo.microbeatsFromNanos_split period unit hc hr
  unfold anchorOf fastAnchorAt
  dsimp only
  generalize roundRatio (1000 * residue) timeline.tempo.periodMicros.natAbs = rounded at *
  generalize direction * timeline.tempo.periodMicros.sign = sign at *
  rw [if_neg (not_not.mpr divisible)]
  have lower : max ((max (anchorBounds beat quantum sign).1 0 - rounded + 999) / 1000) 0 ≤
      cycles := by omega
  obtain ⟨above, most, same⟩ := Euclid.least_solution positive solution lower
  generalize max ((max (anchorBounds beat quantum sign).1 0 - rounded + 999) / 1000) 0 +
    (_ - max ((max (anchorBounds beat quantum sign).1 0 - rounded + 999) / 1000) 0) %
      anchorModulus quantum = c at above most same ⊢
  have nearer : c * timeline.tempo.periodMicros.natAbs + residue ≤ anchorSpan time direction := by
    have := mul_le_mul_of_nonneg_right most (Int.natCast_nonneg timeline.tempo.periodMicros.natAbs)
    omega
  have nonneg : 0 ≤ c := by omega
  have product := mul_nonneg nonneg (Int.natCast_nonneg timeline.tempo.periodMicros.natAbs)
  have upper : c ≤ min (((anchorBounds beat quantum sign).2 - rounded) / 1000)
      ((anchorSpan time direction - residue).tdiv timeline.tempo.periodMicros.natAbs) := by
    rw [Int.tdiv_eq_ediv_of_nonneg (by omega), le_min_iff, Int.le_ediv_iff_mul_le (by omega),
      Int.le_ediv_iff_mul_le (by omega)]
    omega
  have inside : (anchorBounds beat quantum sign).1 ≤ 1000 * c + rounded ∧
      1000 * c + rounded ≤ (anchorBounds beat quantum sign).2 := by omega
  have between := (anchorBounds_iff signUnit _).mp inside
  have multiple' : (quantum.value.toInt.natAbs : ℤ) ∣
      beat.value.toInt - sign * (1000 * c + rounded) := by
    have moved : beat.value.toInt - sign * (1000 * c + rounded) =
        boundary + sign * (1000 * (cycles - c)) := by
      rw [reached]
      ring
    rw [moved]
    exact dvd_add multiple (dvd_mul_of_dvd_right (quantum_dvd_of_modEq nonzero same) _)
  have isOrigin := isOrigin_of_between nonzero multiple' between.1 between.2
  have later : 0 ≤ c * timeline.tempo.periodMicros.natAbs + residue := by omega
  have fits := (le_anchorSpan_iff unit later).mp nearer
  rw [if_neg (not_lt.mpr upper), closestPhaseMatchWide_natAbs, if_neg (not_not.mpr isOrigin),
    if_pos]
  · rfl
  · rw [toPhaseEncodedMicrobeats_anchored _ period, isOrigin, nanos_durationFromNanos fits,
      sub_sub_cancel, elapsed nonneg]
    · ring
    · unfold anchorSpan Duration.minNanos Duration.maxNanos at nearer
      have bounds := time.fits
      unfold FitsDuration Duration.minNanos Duration.maxNanos at bounds
      split at nearer <;> omega

theorem exactFastAnchor_isSome (least : 1 ≤ timeline.tempo.periodMicros.natAbs)
    (fast : timeline.tempo.periodMicros.natAbs < 1000) (nonzero : quantum.value.toInt ≠ 0)
    {origin : Beats} {start : Duration}
    (encodes : toPhaseEncodedMicrobeats
      { timeline with beatOrigin := origin, timeOrigin := start } time quantum =
        beat.value.toInt) :
    (exactFastAnchor timeline beat time quantum).isSome = true := by
  have period : timeline.tempo.periodMicros ≠ 0 := by omega
  rw [toPhaseEncodedMicrobeats_anchored _ period] at encodes
  obtain ⟨multiple, -, -⟩ := closest_boundary nonzero (i64_bounds origin.value)
  obtain ⟨low, high⟩ := closest_boundary_between nonzero (i64_bounds origin.value)
  -- The elapsed time in the direction in which it is not negative.
  obtain ⟨direction, unit, elapsed, nonneg, same⟩ : ∃ direction : ℤ,
      (direction = 1 ∨ direction = -1) ∧ ∃ elapsed, 0 ≤ elapsed ∧
        time.nanos - start.nanos = direction * elapsed := by
    rcases le_total start.nanos time.nanos with before | after
    · exact ⟨1, .inl rfl, time.nanos - start.nanos, by omega, by omega⟩
    · exact ⟨-1, .inr rfl, start.nanos - time.nanos, by omega, by omega⟩
  have within : elapsed ≤ anchorSpan time direction := by
    rw [le_anchorSpan_iff unit nonneg, ← same, sub_sub_cancel]
    exact start.fits
  have parts := Int.ediv_mul_add_emod elapsed timeline.tempo.periodMicros.natAbs
  have hc : 0 ≤ elapsed / timeline.tempo.periodMicros.natAbs :=
    Int.ediv_nonneg nonneg (Int.natCast_nonneg _)
  have hr := Int.emod_nonneg elapsed (show (timeline.tempo.periodMicros.natAbs : ℤ) ≠ 0 by omega)
  have proper := Int.emod_lt_of_pos elapsed
    (show (0 : ℤ) < timeline.tempo.periodMicros.natAbs by omega)
  generalize elapsed / (timeline.tempo.periodMicros.natAbs : ℤ) = cycles at parts hc
  generalize elapsed % (timeline.tempo.periodMicros.natAbs : ℤ) = residue at parts hr proper
  subst elapsed
  have small : cycles * timeline.tempo.periodMicros.natAbs + residue ≤ 2 ^ 90 := by
    have bounds := time.fits
    unfold FitsDuration Duration.minNanos Duration.maxNanos at bounds
    unfold anchorSpan Duration.minNanos Duration.maxNanos at within
    split at within <;> omega
  rw [same, timeline.tempo.microbeatsFromNanos_split period unit hc hr small] at encodes
  have anchors := anchorOf_isSome least nonzero unit hc hr multiple low high within encodes.symm
  have inBounds := anchorBounds_of_reached (sign_unit period unit) low high encodes.symm
  have rounding := roundRatio_nonneg (show 0 ≤ 1000 * residue by omega)
    (show (0 : ℤ) < timeline.tempo.periodMicros.natAbs by omega)
  rw [exactFastAnchor_eq timeline beat time quantum least fast nonzero, List.findSome?_isSome_iff]
  refine ⟨direction, by simpa using unit, ?_⟩
  unfold anchorTowards
  dsimp only
  rw [if_neg (by omega)]
  have natural : (residue.toNat : ℤ) = residue := Int.toNat_of_nonneg hr
  have proper' : residue.toNat < timeline.tempo.periodMicros.natAbs := by omega
  refine firstWithin_isSome List.pairwise_le_range (List.mem_range.mpr proper') ?_ ?_
  · have := mul_nonneg hc (Int.natCast_nonneg timeline.tempo.periodMicros.natAbs)
    omega
  · rw [natural]
    exact anchors

/-- The search for an anchor is sound and complete, and its loop ends with an inverse. -/
theorem exactFastAnchor_exact (least : 1 ≤ |timeline.tempo.periodMicros|)
    (fast : |timeline.tempo.periodMicros| < 1000) (nonzero : quantum.value.toInt ≠ 0) :
    (∀ anchored, exactFastAnchor timeline beat time quantum = some anchored →
      anchored.tempo = timeline.tempo ∧
        toPhaseEncodedMicrobeats anchored time quantum = beat.value.toInt) ∧
    ((∃ origin start, toPhaseEncodedMicrobeats
        { timeline with beatOrigin := origin, timeOrigin := start } time quantum =
          beat.value.toInt) →
      (exactFastAnchor timeline beat time quantum).isSome = true) ∧
    ∃ passes ≤ quantum.value.toInt.natAbs,
      let start := Euclid.start 1000 quantum.value.toInt.natAbs
      let left := Euclid.next^[passes] start
      left.remainder = 0 ∧ (∀ k < passes, (Euclid.next^[k] start).remainder ≠ 0) ∧
        bezout 1000 quantum.value.toInt.natAbs 1 0 = (left.divisor, left.inverse) ∧
        left.divisor = Int.gcd 1000 quantum.value.toInt ∧
        1000 / left.divisor * left.inverse ≡ 1 [ZMOD |quantum.value.toInt| / left.divisor] := by
  rw [← Int.natCast_natAbs] at least fast
  refine ⟨?_, ?_, ?_⟩
  · intro anchored found
    rw [exactFastAnchor_eq timeline beat time quantum (by omega) (by omega) nonzero] at found
    obtain ⟨direction, -, here⟩ := List.exists_of_findSome?_eq_some found
    exact anchorTowards_sound here
  · rintro ⟨origin, start, encodes⟩
    exact exactFastAnchor_isSome (by omega) (by omega) nonzero encodes
  · obtain ⟨passes, few, ends, zero, earlier⟩ :=
      (Euclid.start 1000 quantum.value.toInt.natAbs).loop_passes
    obtain ⟨gcd, inverse⟩ := Euclid.loop_start (show (0 : ℤ) < 1000 by decide)
      (show (0 : ℤ) < quantum.value.toInt.natAbs by omega)
    have loop := bezout_eq_loop (Euclid.start 1000 quantum.value.toInt.natAbs)
    rw [ends] at gcd inverse loop
    rw [← Int.natCast_natAbs]
    exact ⟨passes, few, zero, earlier, loop, gcd, inverse⟩

theorem exactFastAnchor_exact_fast :
    let timeline : Timeline := ⟨⟨20000000.0⟩, ⟨0⟩, .MAX⟩
    (exactFastAnchor timeline ⟨1⟩ .MAX ⟨2⟩).isSome = true := by
  intro timeline
  have period : Tempo.periodMicros ⟨20000000.0⟩ = 3 := by decide +kernel
  obtain ⟨-, complete, -⟩ := @exactFastAnchor_exact timeline ⟨1⟩ .MAX ⟨2⟩
    (by rw [period]; decide) (by rw [period]; decide) (by decide)
  refine complete ⟨⟨-332⟩, ⟨9223372036854775807000000 - 1, by decide, by decide⟩, ?_⟩
  decide +kernel

end Anchors

end AbletonLink.Link
