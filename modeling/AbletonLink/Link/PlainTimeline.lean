import AbletonLink.Library.Euclid
import AbletonLink.Library.PlainOps
import AbletonLink.Link.Conversions
import AbletonLink.Link.GhostChecked
import AbletonLink.Link.Phase

/-! The arithmetic of timelines and phases with its plain operations checked, for a tempo of any
period. -/

namespace AbletonLink.Link

open Library Library.MachineInt

/-- A timeline with the period of its tempo, which may be any `i128`. -/
structure PeriodTimeline where
  period : Int
  fits : FitsI128 period
  beatOrigin : Beats
  timeOrigin : Duration

def Timeline.withPeriod (t : Timeline) : PeriodTimeline where
  period := t.tempo.periodMicros
  fits := t.tempo.fits_periodMicros
  beatOrigin := t.beatOrigin
  timeOrigin := t.timeOrigin

namespace Timeline

variable (t : Timeline)

@[simp] theorem period_withPeriod : t.withPeriod.period = t.tempo.periodMicros := rfl

@[simp] theorem beatOrigin_withPeriod : t.withPeriod.beatOrigin = t.beatOrigin := rfl

@[simp] theorem timeOrigin_withPeriod : t.withPeriod.timeOrigin = t.timeOrigin := rfl

end Timeline

namespace Plain

def durationNanos (d : Duration) : Option Int := do
  let seconds ← checked (d.nanos.tdiv 1000000000 * 1000000000)
  checked (seconds + d.nanos.tmod 1000000000)

def durationFromNanos (nanos : Int) : Option Duration := do
  let least ← durationNanos .MIN
  let most ← durationNanos .MAX
  let nanos := max least (min nanos most)
  let seconds ← checkedDiv nanos 1000000000
  let rest ← checkedRem nanos 1000000000
  -- The sum of the two durations has to be one.
  if fits : FitsDuration (seconds * 1000000000 + rest) then some ⟨_, fits.1, fits.2⟩ else none

def microbeatsFromNanos (period nanos : Int) : Option Int :=
  if period = 0 then checkedRoundRatio nanos period
  else
    match checked (nanos * 1000) with
    | some scaled => checkedRoundRatio scaled period
    | none => checkedLongDivision period nanos

/-- The conversion of beats to units of which a microbeat per microsecond has `scale`. -/
def scaledFromMicrobeats (scale period beats : Int) : Option Int := do
  let whole ← checkedDiv beats scale
  let rest ← checkedRem beats scale
  let periods ← checkedDiv period scale
  let fraction ← checkedRem period scale
  let product ← checked (rest * fraction)
  let rounded ← checkedRoundRatio product scale
  pure (saturate (saturate (saturate (whole * period) + saturate (rest * periods)) + rounded))

def microsFromMicrobeats (period beats : Int) : Option Int :=
  scaledFromMicrobeats 1000000 period beats

def nanosFromMicrobeats (period beats : Int) : Option Int := scaledFromMicrobeats 1000 period beats

section Timeline

variable (tl : PeriodTimeline)

def microbeatsAtNanos (nanos : Int) : Option Int := do
  let origin ← durationNanos tl.timeOrigin
  let beats ← microbeatsFromNanos tl.period (saturate (nanos - origin))
  pure (saturate (beats + tl.beatOrigin.value.toInt))

def microbeatsAt (time : Duration) : Option Int := do microbeatsAtNanos tl (← durationNanos time)

def nanosAtMicrobeats (beats : Int) : Option Int := do
  let difference ← checked (beats - tl.beatOrigin.value.toInt)
  let elapsed ← nanosFromMicrobeats tl.period difference
  let origin ← durationNanos tl.timeOrigin
  pure (saturate (origin + elapsed))

def timeAtMicrobeats (beats : Int) : Option Duration := do
  durationFromNanos (← nanosAtMicrobeats tl beats)

end Timeline

def phaseWide (beats quantum : Int) : Option Int :=
  if quantum = 0 then some 0 else do checkedRemEuclid beats (← checkedAbs quantum)

def matchOffset (x target quantum : Int) : Option Int := do
  let target ← phaseWide target quantum
  let phase ← phaseWide x quantum
  phaseWide (← checked (target - phase)) quantum

def nextPhaseMatchWide (x target quantum : Int) : Option Int := do
  let offset ← matchOffset x target quantum
  pure (saturate (x + offset))

def closestPhaseMatchWide (x target quantum : Int) : Option Int := do
  let quantum ← checkedAbs quantum
  if quantum = 0 then pure x
  else do
    let offset ← matchOffset x target quantum
    let twice ← checked (offset * 2)
    let offset ← (if twice ≥ quantum then checked (offset - quantum) else pure offset)
    pure (saturate (x + offset))

def nextPhaseMatch (x target quantum : Beats) : Option Beats := do
  pure (narrowBeats (← nextPhaseMatchWide x.value.toInt target.value.toInt quantum.value.toInt))

def closestPhaseMatch (x target quantum : Beats) : Option Beats := do
  pure (narrowBeats
    (← closestPhaseMatchWide x.value.toInt target.value.toInt quantum.value.toInt))

section Timeline

variable (tl : PeriodTimeline)

def toPhaseEncodedMicrobeats (time : Duration) (quantum : Beats) : Option Int := do
  let beat ← microbeatsAt tl time
  let phase ← phaseWide beat quantum.value.toInt
  let origin ← phaseWide tl.beatOrigin.value.toInt quantum.value.toInt
  let target ← checked (phase - origin)
  closestPhaseMatchWide beat target quantum.value.toInt

def toPhaseEncodedBeats (time : Duration) (quantum : Beats) : Option Beats := do
  pure (narrowBeats (← toPhaseEncodedMicrobeats tl time quantum))

def fromPhaseEncodedBeats (beat quantum : Beats) : Option Duration := do
  let beat := beat.value.toInt
  let origin := tl.beatOrigin.value.toInt
  let quantum ← checkedAbs quantum.value.toInt
  let fromOrigin ← checked (beat - origin)
  let remainder ← phaseWide fromOrigin quantum
  let originOffset ← checked (fromOrigin - remainder)
  let x ← checked (quantum - remainder)
  let phase ← phaseWide beat quantum
  let target ← checked (quantum - phase)
  let inversePhaseOffset ← closestPhaseMatchWide x target quantum
  let sum ← checked (origin + originOffset)
  let sum ← checked (sum + quantum)
  timeAtMicrobeats tl (← checked (sum - inversePhaseOffset))

def shiftedTimeOriginNanos (shift : Int) : Option Int := do
  let origin := tl.beatOrigin.value.toInt
  let remainder ← checkedRem tl.period 1000000
  let periods ← checkedDiv tl.period 1000000
  let difference ← checked (shift - origin)
  let product ← checked (difference * remainder)
  let after ← checkedRoundRatio product 1000000
  let negated ← checked (-origin)
  let product ← checked (negated * remainder)
  let before ← checkedRoundRatio product 1000000
  let rest ← checked (after - before)
  let delta := saturate (saturate (shift * periods) + rest)
  let start ← durationNanos tl.timeOrigin
  pure (saturate (start - saturate (delta * 1000)))

def shiftClientTimelineWide (shift : Int) : Option PeriodTimeline := do
  let nanos ← shiftedTimeOriginNanos tl shift
  let timeOrigin ← durationFromNanos nanos
  pure { tl with timeOrigin }

def shiftClientTimeline (shift : Beats) : Option PeriodTimeline :=
  shiftClientTimelineWide tl shift.value.toInt

end Timeline

def euclidNext (s : Euclid) : Option Euclid := do
  let quotient ← checkedDiv s.divisor s.remainder
  let product ← checked (quotient * s.remainder)
  let remainder ← checked (s.divisor - product)
  let product ← checked (quotient * s.coefficient)
  let coefficient ← checked (s.inverse - product)
  pure ⟨s.remainder, remainder, s.coefficient, coefficient⟩

/-- The loop, with no result after more passes than `fuel`. -/
def euclidLoop : Nat → Euclid → Option Euclid
  | 0, _ => none
  | fuel + 1, s =>
    if s.remainder = 0 then some s else do euclidLoop fuel (← euclidNext s)

section ExactFastAnchor

variable (tl : PeriodTimeline) (beat : Beats) (time : Duration) (quantum : Beats)

def fastAnchorAt (magnitude divisor modulus inverse minimum maximum span direction sign : Int)
    (residue : Int) : Option (Option PeriodTimeline) := do
  let target := beat.value.toInt
  let scaled ← checked (1000 * residue)
  let rounded ← checkedRoundRatio scaled magnitude
  let product ← checked (sign * target)
  let rhs ← checked (product - rounded)
  let remainder ← checkedRemEuclid rhs divisor
  if remainder ≠ 0 then pure none
  else do
    let quotient ← checkedDiv rhs divisor
    let factor ← checkedRemEuclid quotient modulus
    let product ← checked (factor * inverse)
    let first ← checkedRemEuclid product modulus
    let lower ← checked (minimum - rounded)
    let lower ← checked (lower + 999)
    let lower ← checkedDivEuclid lower 1000
    let upper ← checked (maximum - rounded)
    let upper ← checkedDivEuclid upper 1000
    let most ← checked (span - residue)
    let most ← checkedDiv most magnitude
    let gap ← checked (first - max lower 0)
    let gap ← checkedRemEuclid gap modulus
    let cycles ← checked (max lower 0 + gap)
    if cycles > min upper most then pure none
    else do
      let offset ← checked (1000 * cycles)
      let offset ← checked (offset + rounded)
      let offset ← checked (sign * offset)
      let boundary ← checked (target - offset)
      let origin := narrowBeats boundary
      let magnitude_ ← checkedAbs quantum.value.toInt
      let closest ← closestPhaseMatchWide origin.value.toInt 0 magnitude_
      if closest ≠ boundary then pure none
      else do
        let elapsed ← checked (cycles * magnitude)
        let elapsed ← checked (elapsed + residue)
        let elapsed ← checked (direction * elapsed)
        let start ← durationNanos time
        let start ← checked (start - elapsed)
        let timeOrigin ← durationFromNanos start
        let anchored := { tl with beatOrigin := origin, timeOrigin }
        let encoded ← toPhaseEncodedMicrobeats anchored time quantum
        pure (if encoded = target then some anchored else none)

def firstWithin (span : Int) (anchorAt : Int → Option (Option PeriodTimeline)) :
    List Nat → Option (Option PeriodTimeline)
  | [] => some none
  | residue :: residues =>
    if (residue : Int) > span then some none
    else do
      match ← anchorAt residue with
      | some anchored => pure (some anchored)
      | none => firstWithin span anchorAt residues

def anchorTowards (magnitude firstBoundary lastBoundary divisor modulus inverse : Int)
    (direction : Int) : Option (Option PeriodTimeline) := do
  let target := beat.value.toInt
  let sign ← checked (direction * tl.period.sign)
  let minimum ←
    (if sign > 0 then checked (target - lastBoundary) else checked (firstBoundary - target))
  let maximum ←
    (if sign > 0 then checked (target - firstBoundary) else checked (lastBoundary - target))
  if maximum < max minimum 0 then pure none
  else do
    let start ← durationNanos time
    let least ← durationNanos .MIN
    let most ← durationNanos .MAX
    let span ← (if direction > 0 then checked (start - least) else checked (most - start))
    firstWithin span (fastAnchorAt tl beat time quantum magnitude divisor modulus inverse
      (max minimum 0) maximum span direction sign) (List.range magnitude.toNat)

def exactFastAnchor : Option (Option PeriodTimeline) := do
  let magnitude : Int := tl.period.natAbs
  let quantumMagnitude ← checkedAbs quantum.value.toInt
  if ¬(1 ≤ magnitude ∧ magnitude < 1000) ∨ quantumMagnitude = 0 then pure none
  else do
    let firstBoundary ← closestPhaseMatchWide i64Min 0 quantumMagnitude
    let lastBoundary ← closestPhaseMatchWide i64Max 0 quantumMagnitude
    let left ← euclidLoop (quantum.value.toInt.natAbs + 1) (.start 1000 quantumMagnitude)
    let modulus ← checkedDiv quantumMagnitude left.divisor
    let inverse ← checkedRemEuclid left.inverse modulus
    match ← anchorTowards tl beat time quantum magnitude firstBoundary lastBoundary left.divisor
        modulus inverse 1 with
    | some anchored => pure (some anchored)
    | none =>
      anchorTowards tl beat time quantum magnitude firstBoundary lastBoundary left.divisor modulus
        inverse (-1)

end ExactFastAnchor

section ForceBeat

variable (tl : PeriodTimeline) (beat : Beats) (time : Duration) (quantum : Beats)

def anchoredAt (precise : Bool) (boundary : Int) : Option (Option PeriodTimeline) := do
  let origin := narrowBeats boundary
  let closest ← closestPhaseMatchWide origin.value.toInt 0 quantum.value.toInt
  if closest ≠ boundary then pure none
  else do
    let offset ← checked (beat.value.toInt - boundary)
    let elapsed ←
      (if precise then nanosFromMicrobeats tl.period offset
      else do pure (saturate ((← microsFromMicrobeats tl.period offset) * 1000)))
    let start ← durationNanos time
    let least ← durationNanos .MIN
    let most ← durationNanos .MAX
    let anchoredTime := saturate (start - elapsed)
    if precise = true ∨ least ≤ anchoredTime ∧ anchoredTime ≤ most then do
      let timeOrigin ← durationFromNanos anchoredTime
      let anchored := { tl with beatOrigin := origin, timeOrigin }
      if precise then do
        let encoded ← toPhaseEncodedMicrobeats anchored time quantum
        pure (if encoded = beat.value.toInt then some anchored else none)
      else pure (some anchored)
    else pure none

/-- The first anchor at the boundary below the beat and the one above. -/
def anchoredAtEither (precise : Bool) (boundary next : Int) : Option (Option PeriodTimeline) := do
  match ← anchoredAt tl beat time quantum precise boundary with
  | some anchored => pure (some anchored)
  | none => anchoredAt tl beat time quantum precise next

def forceBeatAtTimeImpl : Option PeriodTimeline := do
  let curBeatAtTime ← toPhaseEncodedMicrobeats tl time quantum
  let closestInPhase ←
    closestPhaseMatchWide curBeatAtTime beat.value.toInt quantum.value.toInt
  let shift ← checked (closestInPhase - curBeatAtTime)
  let nanos ← shiftedTimeOriginNanos tl shift
  let sum ← checked (tl.beatOrigin.value.toInt + beat.value.toInt)
  let beatOrigin := saturate (sum - closestInPhase)
  let least ← durationNanos .MIN
  let most ← durationNanos .MAX
  let outOfRange :=
    ¬(i64Min ≤ beatOrigin ∧ beatOrigin ≤ i64Max) ∨ ¬(least ≤ nanos ∧ nanos ≤ most)
  let timeOrigin ← durationFromNanos nanos
  let adjusted := { tl with beatOrigin := narrowBeats beatOrigin, timeOrigin }
  let missed ←
    (if outOfRange then pure true
    else do
      let encoded ← toPhaseEncodedMicrobeats adjusted time quantum
      pure (decide (encoded ≠ beat.value.toInt)))
  if missed then do
    let phase ← phaseWide beat.value.toInt quantum.value.toInt
    let boundary ← checked (beat.value.toInt - phase)
    let magnitude ← checkedAbs quantum.value.toInt
    let next ← checked (boundary + magnitude)
    match ← anchoredAtEither tl beat time quantum true boundary next with
    | some anchored => pure anchored
    | none =>
      match ← exactFastAnchor tl beat time quantum with
      | some anchored => pure anchored
      | none =>
        if outOfRange then do
          pure ((← anchoredAtEither tl beat time quantum false boundary next).getD adjusted)
        else pure adjusted
  else pure adjusted

end ForceBeat

section Updates

variable (atTime : Duration) (xForm : GhostXForm)

def updateClientTimelineFromSession (curClient session : PeriodTimeline) :
    Option (Except CommitError PeriodTimeline) := do
  let zero ← nanosAtMicrobeats session 0
  match xForm.checkedGhostNanosToHost zero with
  | none => pure (.error .timelineOriginExhausted)
  | some hostBeatZero =>
    let origin ← durationNanos hostBeatZero
    let now ← durationNanos atTime
    let elapsed ← checked (origin - now)
    let current ← microbeatsAt curClient atTime
    let beats ← microbeatsFromNanos session.period elapsed
    match (checked (current + beats)).bind tryI64 with
    | none => pure (.error .timelineOriginExhausted)
    | some beatOrigin =>
      let timeline := { session with beatOrigin := ⟨beatOrigin⟩, timeOrigin := hostBeatZero }
      let encoded ← microbeatsAt timeline atTime
      if encoded ≠ current then pure (.error .timelineOriginExhausted) else pure (.ok timeline)

def updateSessionTimelineFromClient (curSession client : PeriodTimeline) (sameTempo : Bool) :
    Option (Except CommitError PeriodTimeline) := do
  let ghostBeat0 ← xForm.checkedHostToGhostWideNanos client.timeOrigin
  let zero ← nanosAtMicrobeats curSession 0
  if zero = ghostBeat0 ∧ sameTempo = true then pure (.ok curSession)
  else
    match checkedAddI64 curSession.beatOrigin.value 1 with
    | none => pure (.error .timelineOriginExhausted)
    | some successor =>
      let ghostTime ← xForm.checkedHostToGhostWideNanos atTime
      let beats ← microbeatsAtNanos curSession ghostTime
      let newBeatOrigin : Beats := ⟨max (narrow beats) successor⟩
      let offset ← nanosFromMicrobeats client.period newBeatOrigin.value.toInt
      match checked (ghostBeat0 + offset) with
      | none => pure (.error .timelineOriginExhausted)
      | some nanos =>
        let timeOrigin ← durationFromNanos nanos
        let stored ← durationNanos timeOrigin
        if stored ≠ nanos then pure (.error .timelineOriginExhausted)
        else pure (.ok { client with beatOrigin := newBeatOrigin, timeOrigin })

end Updates

end Plain

end AbletonLink.Link
