import AbletonLink.Link.Timeline

/-! Phases of beats in a quantum, and the request for a beat at a time. -/

namespace AbletonLink.Link

open Library Library.MachineInt

def narrowBeats (beats : Int) : Beats := ⟨narrow beats⟩

def phaseWide (beats quantum : Int) : Int :=
  if quantum = 0 then 0 else beats % (quantum.natAbs : Int)

def phase (beats quantum : Beats) : Beats :=
  narrowBeats (phaseWide beats.value.toInt quantum.value.toInt)

def nextPhaseMatchWide (x target quantum : Int) : Int :=
  let offset := phaseWide (phaseWide target quantum - phaseWide x quantum) quantum
  saturate (x + offset)

def closestPhaseMatchWide (x target quantum : Int) : Int :=
  let quantum : Int := quantum.natAbs
  if quantum = 0 then x
  else
    let offset := phaseWide (phaseWide target quantum - phaseWide x quantum) quantum
    saturate (x + if offset * 2 ≥ quantum then offset - quantum else offset)

def nextPhaseMatch (x target quantum : Beats) : Beats :=
  narrowBeats (nextPhaseMatchWide x.value.toInt target.value.toInt quantum.value.toInt)

def closestPhaseMatch (x target quantum : Beats) : Beats :=
  narrowBeats (closestPhaseMatchWide x.value.toInt target.value.toInt quantum.value.toInt)

def toPhaseEncodedMicrobeats (tl : Timeline) (time : Duration) (quantum : Beats) : Int :=
  let beat := tl.microbeatsAt time
  closestPhaseMatchWide beat
    (phaseWide beat quantum.value.toInt - phaseWide tl.beatOrigin.value.toInt quantum.value.toInt)
    quantum.value.toInt

def toPhaseEncodedBeats (tl : Timeline) (time : Duration) (quantum : Beats) : Beats :=
  narrowBeats (toPhaseEncodedMicrobeats tl time quantum)

def fromPhaseEncodedBeats (tl : Timeline) (beat quantum : Beats) : Duration :=
  let beat := beat.value.toInt
  let origin := tl.beatOrigin.value.toInt
  let quantum : Int := quantum.value.toInt.natAbs
  let fromOrigin := beat - origin
  let remainder := phaseWide fromOrigin quantum
  let originOffset := fromOrigin - remainder
  let inversePhaseOffset :=
    closestPhaseMatchWide (quantum - remainder) (quantum - phaseWide beat quantum) quantum
  tl.timeAtMicrobeats (origin + originOffset + quantum - inversePhaseOffset)

def shiftedTimeOriginNanos (timeline : Timeline) (shift : Int) : Int :=
  let origin := timeline.beatOrigin.value.toInt
  let period := timeline.tempo.periodMicros
  -- Whole periods cancel before the multiplication, each conversion keeps its rounding.
  let remainder := period.tmod 1000000
  let delta := saturate (saturate (shift * period.tdiv 1000000) +
    (roundRatio ((shift - origin) * remainder) 1000000 - roundRatio (-origin * remainder) 1000000))
  saturate (timeline.timeOrigin.nanos - saturate (delta * 1000))

def shiftClientTimelineWide (timeline : Timeline) (shift : Int) : Timeline :=
  { timeline with timeOrigin := durationFromNanos (shiftedTimeOriginNanos timeline shift) }

def shiftClientTimeline (timeline : Timeline) (shift : Beats) : Timeline :=
  shiftClientTimelineWide timeline shift.value.toInt

def bezout (divisor remainder inverse coefficient : Int) : Int × Int :=
  if remainder = 0 then (divisor, inverse)
  else
    let quotient := divisor.tdiv remainder
    bezout remainder (divisor - quotient * remainder) coefficient (inverse - quotient * coefficient)
termination_by remainder.natAbs
decreasing_by
  have rest : divisor - divisor.tdiv remainder * remainder = divisor.tmod remainder := by
    have := Int.mul_tdiv_add_tmod divisor remainder
    rw [mul_comm] at this
    omega
  rw [rest, Int.natAbs_tmod]
  exact Nat.mod_lt _ (by omega)

section ExactFastAnchor

variable (timeline : Timeline) (beat : Beats) (time : Duration) (quantum : Beats)

/-- The anchor whose elapsed nanoseconds leave `residue` over whole periods, in the first cycle
that solves the quantum congruence. -/
def fastAnchorAt (magnitude divisor modulus inverse minimum maximum span direction sign : Int)
    (residue : Int) : Option Timeline :=
  let target := beat.value.toInt
  let rounded := roundRatio (1000 * residue) magnitude
  let rhs := sign * target - rounded
  if rhs % divisor ≠ 0 then none
  else
    let first := rhs.tdiv divisor % modulus * inverse % modulus
    let lower := max ((minimum - rounded + 999) / 1000) 0
    let upper := min ((maximum - rounded) / 1000) ((span - residue).tdiv magnitude)
    let cycles := lower + (first - lower) % modulus
    if cycles > upper then none
    else
      let boundary := target - sign * (1000 * cycles + rounded)
      let origin := narrowBeats boundary
      if closestPhaseMatchWide origin.value.toInt 0 quantum.value.toInt.natAbs ≠ boundary then none
      else
        let anchored : Timeline :=
          { timeline with
            beatOrigin := origin
            timeOrigin := durationFromNanos
              (time.nanos - direction * (cycles * magnitude + residue)) }
        if toPhaseEncodedMicrobeats anchored time quantum = target then some anchored else none

def firstWithin (span : Int) (anchorAt : Int → Option Timeline) : List Nat → Option Timeline
  | [] => none
  | residue :: residues =>
    if (residue : Int) > span then none
    else
      match anchorAt residue with
      | some anchored => some anchored
      | none => firstWithin span anchorAt residues

def exactFastAnchor : Option Timeline :=
  let period := timeline.tempo.periodMicros
  let magnitude : Int := period.natAbs
  let quantumMagnitude : Int := quantum.value.toInt.natAbs
  if ¬(1 ≤ magnitude ∧ magnitude < 1000) ∨ quantumMagnitude = 0 then none
  else
    let target := beat.value.toInt
    let firstBoundary := closestPhaseMatchWide i64Min 0 quantumMagnitude
    let lastBoundary := closestPhaseMatchWide i64Max 0 quantumMagnitude
    let (divisor, inverse) := bezout 1000 quantumMagnitude 1 0
    let modulus := quantumMagnitude.tdiv divisor
    let inverse := inverse % modulus
    -- Nanosecond samples of a fast tempo skip microbeats: try their residues one by one and solve
    -- the congruence for each.
    [1, -1].findSome? fun direction : Int =>
      let sign := direction * period.sign
      let (minimum, maximum) :=
        if sign > 0 then (target - lastBoundary, target - firstBoundary)
        else (firstBoundary - target, lastBoundary - target)
      let minimum := max minimum 0
      if maximum < minimum then none
      else
        let span :=
          if direction > 0 then time.nanos - Duration.minNanos else Duration.maxNanos - time.nanos
        firstWithin span
          (fastAnchorAt timeline beat time quantum magnitude divisor modulus inverse minimum maximum
            span direction sign)
          (List.range magnitude.toNat)

end ExactFastAnchor

section ForceBeat

variable (timeline : Timeline) (beat : Beats) (time : Duration) (quantum : Beats)

/-- The timeline anchored at `boundary`, if its stored origin belongs to it.  A `precise` anchor
must also give the beat asked for. -/
def anchoredAt (precise : Bool) (boundary : Int) : Option Timeline :=
  let origin := narrowBeats boundary
  if closestPhaseMatchWide origin.value.toInt 0 quantum.value.toInt ≠ boundary then none
  else
    let offset := beat.value.toInt - boundary
    let elapsed :=
      if precise then timeline.tempo.nanosFromMicrobeats offset
      else saturate (timeline.tempo.microsFromMicrobeats offset * 1000)
    let anchoredTime := saturate (time.nanos - elapsed)
    if precise = true ∨ FitsDuration anchoredTime then
      let anchored : Timeline :=
        { timeline with beatOrigin := origin, timeOrigin := durationFromNanos anchoredTime }
      if precise = false ∨ toPhaseEncodedMicrobeats anchored time quantum = beat.value.toInt then
        some anchored
      else none
    else none

def forceBeatAtTimeImpl : Timeline :=
  let curBeatAtTime := toPhaseEncodedMicrobeats timeline time quantum
  let closestInPhase :=
    closestPhaseMatchWide curBeatAtTime beat.value.toInt quantum.value.toInt
  let timeOrigin := shiftedTimeOriginNanos timeline (closestInPhase - curBeatAtTime)
  -- Narrow only after both magnitude adjustments have cancelled.
  let beatOrigin := saturate (timeline.beatOrigin.value.toInt + beat.value.toInt - closestInPhase)
  let outOfRange := ¬(i64Min ≤ beatOrigin ∧ beatOrigin ≤ i64Max) ∨ ¬FitsDuration timeOrigin
  let adjusted : Timeline :=
    { timeline with
      beatOrigin := narrowBeats beatOrigin
      timeOrigin := durationFromNanos timeOrigin }
  if outOfRange ∨ toPhaseEncodedMicrobeats adjusted time quantum ≠ beat.value.toInt then
    -- The boundary can lie just outside the range of its stored origin.
    let boundary := beat.value.toInt - phaseWide beat.value.toInt quantum.value.toInt
    let boundaries := [boundary, boundary + quantum.value.toInt.natAbs]
    match boundaries.findSome? (anchoredAt timeline beat time quantum true) with
    | some anchored => anchored
    | none =>
      match exactFastAnchor timeline beat time quantum with
      | some anchored => anchored
      | none =>
        if outOfRange then
          (boundaries.findSome? (anchoredAt timeline beat time quantum false)).getD adjusted
        else adjusted
  else adjusted

end ForceBeat

end AbletonLink.Link
