import AbletonLink.Link.Duration

namespace AbletonLink.Link

open Library Library.MachineInt

structure GhostXForm where
  slope : Float
  intercept : Duration
  deriving DecidableEq

namespace GhostXForm

instance : BEq GhostXForm := ⟨fun a b => a.slope == b.slope && a.intercept == b.intercept⟩
instance : Inhabited GhostXForm := ⟨⟨0.0, Duration.zero⟩⟩

def hostToGhost (f : GhostXForm) (hostTime : Duration) : Duration :=
  let nanos := hostTime.nanos
  if nanos = 0 then f.intercept
  else
    let offset : Int :=
      if f.slope.isFinite then
        let (mantissa, exponent, sign) := Binary64.integerDecode f.slope
        let magnitude := nanos.natAbs
        let fraction := magnitude % 1000 * mantissa
        let whole := magnitude / 1000 * mantissa + fraction / 1000
        let magnitude :=
          if exponent < 0 then
            let shift := exponent.natAbs
            if shift ≥ 128 then 0
            else whole >>> shift + if whole % 2 ^ shift ≥ 2 ^ (shift - 1) then 1 else 0
          else
            let shift := exponent.toNat
            let limit := i128Max.toNat
            if shift ≥ 127 ∨ whole > limit >>> shift then limit
            else
              min limit (saturateU (whole <<< shift +
                saturateU (saturateU (fraction % 1000 * 2 ^ shift) + 500) / 1000))
        if decide (nanos < 0) != decide (sign < 0) then -magnitude else magnitude
      else Binary64.roundAs i128Min i128Max (f.slope * (Float.ofInt nanos / 1000.0))
    durationFromNanos (saturate (saturate (offset * 1000) + f.intercept.nanos))

/-- The rounded magnitude of `nanos * slope`, from the 256-bit product `upper * 2^128 + lower`. -/
def productMagnitude (lower upper : Nat) (exponent : Int) : Nat :=
  let limit := u128Max
  if exponent < 0 then
    let shift := exponent.natAbs
    let overflow := shift < 128 ∧ upper >>> shift ≠ 0
    let whole :=
      if 1 ≤ shift ∧ shift ≤ 127 then
        (lower >>> shift) ||| (upper <<< (128 - shift) % 2 ^ 128)
      else if shift = 128 then upper
      else if 129 ≤ shift ∧ shift ≤ 255 then upper >>> (shift - 128)
      else 0
    let roundUp :=
      if 1 ≤ shift ∧ shift ≤ 128 then decide (lower >>> (shift - 1) &&& 1 ≠ 0)
      else if 129 ≤ shift ∧ shift ≤ 256 then decide (upper >>> (shift - 129) &&& 1 ≠ 0)
      else false
    if overflow then limit else min (saturateU (whole + if roundUp then 1 else 0)) limit
  else
    let shift := exponent.toNat
    if upper ≠ 0 ∨ shift ≥ 128 ∨ lower > limit >>> shift then limit else lower <<< shift

def hostToGhostWideNanos (f : GhostXForm) (hostTime : Duration) : Int :=
  let nanos := hostTime.nanos
  if nanos = 0 ∨ ¬ f.slope.isFinite then (f.hostToGhost hostTime).nanos
  else
    let (mantissa, exponent, sign) := Binary64.integerDecode f.slope
    let magnitude := nanos.natAbs
    let low := magnitude % 2 ^ 64 * mantissa
    let high := magnitude >>> 64 * mantissa
    let sum := low + high <<< 64 % 2 ^ 128
    let lower := sum % 2 ^ 128
    let upper := high >>> 64 + sum / 2 ^ 128
    let negative := decide (nanos < 0) != decide (sign < 0)
    let magnitude := productMagnitude lower upper exponent
    let intercept := f.intercept.nanos
    let (magnitude, negative) :=
      if negative = decide (intercept < 0) then
        (saturateU (magnitude + intercept.natAbs), negative)
      else if magnitude ≥ intercept.natAbs then (magnitude - intercept.natAbs, negative)
      else (intercept.natAbs - magnitude, !negative)
    let magnitude := min magnitude (i128Max.toNat + if negative then 1 else 0)
    if negative then
      if (magnitude : Int) > i128Max then i128Min else -magnitude
    else magnitude

def hostToGhostNanos (f : GhostXForm) (hostTime : Duration) : Duration :=
  durationFromNanos (f.hostToGhostWideNanos hostTime)

/-- Doubles quotient and remainder `n` times; `none` once the quotient passes half the limit. -/
def doubleQuotient (denominator limit : Nat) : Nat → Nat → Nat → Option (Nat × Nat)
  | 0, quotient, remainder => some (quotient, remainder)
  | n + 1, quotient, remainder =>
    if quotient > limit / 2 then none
    else if remainder * 2 ≥ denominator then
      doubleQuotient denominator limit n (quotient * 2 + 1) (remainder * 2 - denominator)
    else doubleQuotient denominator limit n (quotient * 2) (remainder * 2)

def ghostNanosToHostUnits (f : GhostXForm) (ghostNanos : Int) (unit : Nat) :
    Except Duration Duration :=
  let difference := saturate (ghostNanos - f.intercept.nanos)
  if f.slope == 0.0 || !f.slope.isFinite then
    .ok (Duration.microseconds (Int64.ofInt (Binary64.roundAs i64Min i64Max
      (Float.ofInt difference / 1000.0 / f.slope))))
  else if difference = 0 then .ok Duration.zero
  else
    let (mantissa, exponent, sign) := Binary64.integerDecode f.slope
    let denominator := mantissa * unit
    let magnitude := difference.natAbs
    let negative := decide (difference < 0) != decide (sign < 0)
    let limit :=
      if negative then Duration.MIN.nanos.natAbs / unit else Duration.MAX.nanos.toNat / unit
    let finish (units : Nat) : Except Duration Duration :=
      let nanos : Int := min units limit * unit
      let duration := durationFromNanos (if negative then -nanos else nanos)
      if units > limit then .error duration else .ok duration
    if exponent ≥ 0 then
      let shift := exponent.toNat
      let quotient := magnitude / denominator
      finish (
        if shift ≥ 128 then 0
        else if shift = 0 then
          quotient + if magnitude % denominator ≥ (denominator + 1) / 2 then 1 else 0
        else quotient >>> shift + (quotient >>> (shift - 1) &&& 1))
    else
      match doubleQuotient denominator limit exponent.natAbs
        (magnitude / denominator) (magnitude % denominator) with
      | none => .error (if negative then Duration.MIN else Duration.MAX)
      | some (quotient, remainder) =>
        finish (quotient + if remainder ≥ (denominator + 1) / 2 then 1 else 0)

def ghostNanosToHost (f : GhostXForm) (ghostNanos : Int) : Duration :=
  match f.ghostNanosToHostUnits ghostNanos 1 with
  | .ok d => d
  | .error d => d

def ghostToHostNanos (f : GhostXForm) (ghostTime : Duration) : Duration :=
  f.ghostNanosToHost ghostTime.nanos

def checkedGhostNanosToHost (f : GhostXForm) (ghostNanos : Int) : Option Duration :=
  if f.slope == 0.0 || !f.slope.isFinite then none
  else (f.ghostNanosToHostUnits ghostNanos 1).toOption

theorem beq_iff {f g : GhostXForm} :
    (f == g) = true ↔ (f.slope == g.slope) = true ∧ f.intercept = g.intercept := by
  show (_ && _) = true ↔ _
  simp

theorem beq_symm {f g : GhostXForm} (h : (f == g) = true) : (g == f) = true := by
  obtain ⟨hs, hi⟩ := beq_iff.mp h
  exact beq_iff.mpr ⟨Binary64.beq_symm hs, hi.symm⟩

theorem beq_self_of_checked {f : GhostXForm} {n : Int} {d : Duration}
    (h : f.checkedGhostNanosToHost n = some d) : (f == f) = true := by
  unfold checkedGhostNanosToHost at h
  split at h
  · cases h
  · rename_i invertible
    simp only [Bool.or_eq_true, Bool.not_eq_true', not_or, Bool.not_eq_false] at invertible
    exact beq_iff.mpr ⟨Binary64.beq_self (Binary64.isNaN_of_isFinite invertible.2), rfl⟩

end GhostXForm

end AbletonLink.Link
