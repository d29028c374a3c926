import AbletonLink.Link.GhostForward

/-! No operation on the way from a host time to a ghost time overflows. -/

namespace AbletonLink.Link

open Library Library.MachineInt

namespace GhostXForm

def checkedMicrosMagnitude (magnitude mantissa : Nat) (exponent : Int) : Option Nat := do
  let fraction ← checkedU (magnitude % 1000 * mantissa : Nat)
  let product ← checkedU (magnitude / 1000 * mantissa : Nat)
  let whole ← checkedU (product + fraction / 1000 : Nat)
  if exponent < 0 then
    let shift := exponent.natAbs
    if shift ≥ 128 then pure 0
    else
      let power ← checkedShl 1 shift
      let mask ← checkedU (power - 1 : Int)
      let half ← checkedShl 1 (shift - 1)
      let quotient ← checkedShr whole shift
      checkedU (quotient + if whole &&& mask ≥ half then 1 else 0 : Nat)
  else
    let shift := exponent.toNat
    let limit := i128Max.toNat
    if shift ≥ 127 then pure limit
    else
      let most ← checkedShr limit shift
      if whole > most then pure limit
      else
        let scaled ← checkedShl whole shift
        let unit ← checkedShl 1 shift
        pure (min limit (saturateU (scaled +
          saturateU (saturateU (fraction % 1000 * unit) + 500) / 1000)))

theorem checkedMicrosMagnitude_eq {magnitude mantissa : ℕ} (size : magnitude ≤ 2 ^ 83)
    (short : mantissa < 2 ^ 53) (exponent : ℤ) :
    checkedMicrosMagnitude magnitude mantissa exponent =
      some (microsMagnitude magnitude mantissa exponent) := by
  have bound := product_lt size short
  have first : checkedU (magnitude % 1000 * mantissa : ℕ) = some (magnitude % 1000 * mantissa) := by
    refine checkedU_of_le (le_trans (Nat.mul_le_mul (Nat.mod_lt _ (by decide)).le short.le) ?_)
    decide
  have second : checkedU (magnitude / 1000 * mantissa : ℕ) =
      some (magnitude / 1000 * mantissa) := by
    refine checkedU_of_le (le_trans (Nat.mul_le_mul (Nat.div_le_div_right size) short.le) ?_)
    decide
  have third : checkedU (magnitude / 1000 * mantissa + magnitude % 1000 * mantissa / 1000 : ℕ) =
      some (magnitude / 1000 * mantissa + magnitude % 1000 * mantissa / 1000) := by
    refine checkedU_of_le ?_
    rw [whole_eq]
    unfold u128Max
    omega
  unfold checkedMicrosMagnitude microsMagnitude
  simp only [first, second, third, Option.bind_eq_bind, Option.bind_some, Option.pure_def]
  have small : magnitude / 1000 * mantissa + magnitude % 1000 * mantissa / 1000 < 2 ^ 127 := by
    rw [whole_eq]
    omega
  generalize magnitude / 1000 * mantissa + magnitude % 1000 * mantissa / 1000 = whole at small
  split
  next neg =>
    split
    next => rfl
    next near =>
      have near : exponent.natAbs < 128 := by omega
      have power : 0 < 2 ^ exponent.natAbs := by positivity
      have least : 2 ^ exponent.natAbs ≤ 2 ^ 128 := Nat.pow_le_pow_right two_pos near.le
      have mask : checkedU ((2 ^ exponent.natAbs : ℕ) - 1 : ℤ) =
          some (2 ^ exponent.natAbs - 1) := by
        rw [← Nat.cast_one, ← Nat.cast_sub power]
        exact checkedU_of_le (by unfold u128Max; omega)
      have half : whole >>> exponent.natAbs ≤ whole := Nat.shiftRight_le _ _
      rw [checkedShl_one near, checkedShl_one (by omega), checkedShr_of_lt near]
      simp only [Option.bind_some, mask, Nat.and_two_pow_sub_one_eq_mod]
      refine checkedU_of_le ?_
      unfold u128Max
      split <;> omega
  next nonneg =>
    have limit : i128Max.toNat = 2 ^ 127 - 1 := by decide
    split
    next far => rw [if_pos (.inl far)]
    next near =>
      rw [checkedShr_of_lt (by omega)]
      simp only [Option.bind_some]
      split
      next long => rw [if_pos (.inr long)]
      next short =>
        have within : ¬(exponent.toNat ≥ 127 ∨ whole > i128Max.toNat >>> exponent.toNat) :=
          not_or.mpr ⟨near, short⟩
        have fits : whole <<< exponent.toNat ≤ u128Max := by
          rw [limit, Nat.shiftRight_eq_div_pow, not_lt, Nat.le_div_iff_mul_le (by positivity)]
            at short
          rw [Nat.shiftLeft_eq]
          unfold u128Max
          omega
        rw [if_neg within, checkedShl_one (by omega), checkedShl_of_le (by omega) fits]
        rfl

/-- `productMagnitude` with its plain operations and shift amounts checked. -/
def checkedProductMagnitude (lower upper : Nat) (exponent : Int) : Option Nat :=
  let limit := u128Max
  if exponent < 0 then do
    let shift := exponent.natAbs
    let beyond ← if shift < 128 then checkedShr upper shift else pure 0
    let whole ←
      if 1 ≤ shift ∧ shift ≤ 127 then do
        pure ((← checkedShr lower shift) ||| (← wrappingShl upper (128 - shift)))
      else if shift = 128 then pure upper
      else if 129 ≤ shift ∧ shift ≤ 255 then checkedShr upper (shift - 128)
      else pure 0
    let bit ←
      if 1 ≤ shift ∧ shift ≤ 128 then checkedShr lower (shift - 1)
      else if 129 ≤ shift ∧ shift ≤ 256 then checkedShr upper (shift - 129)
      else pure 0
    let roundUp := decide (bit &&& 1 ≠ 0)
    if beyond ≠ 0 then pure limit
    else pure (min (saturateU (whole + if roundUp then 1 else 0)) limit)
  else
    let shift := exponent.toNat
    if upper ≠ 0 ∨ shift ≥ 128 then pure limit
    else do
      if lower > (← checkedShr limit shift) then pure limit
      else checkedShl lower shift

theorem checkedProductMagnitude_eq (lower upper : ℕ) (exponent : ℤ) :
    checkedProductMagnitude lower upper exponent =
      some (productMagnitude lower upper exponent) := by
  unfold checkedProductMagnitude productMagnitude
  dsimp only
  by_cases neg : exponent < 0
  · rw [if_pos neg, if_pos neg]
    have positive : 0 < exponent.natAbs := by omega
    generalize exponent.natAbs = shift at positive
    by_cases low : shift ≤ 127
    · simp only [show shift < 128 by omega, show 1 ≤ shift ∧ shift ≤ 127 from ⟨positive, low⟩,
        show 1 ≤ shift ∧ shift ≤ 128 from ⟨positive, by omega⟩, if_true, true_and,
        checkedShr_of_lt (show shift < 128 by omega),
        checkedShr_of_lt (show shift - 1 < 128 by omega), wrappingShl,
        show 128 - shift < 128 by omega, Option.bind_eq_bind, Option.bind_some,
        Option.pure_def]
      split <;> rfl
    · simp only [show ¬shift < 128 by omega, show ¬(1 ≤ shift ∧ shift ≤ 127) by omega, if_false,
        false_and, Option.bind_eq_bind, Option.bind_some, Option.pure_def]
      by_cases word : shift = 128
      · simp only [word, le_refl, and_true, show 1 ≤ 128 by decide, if_true,
          checkedShr_of_lt (show 128 - 1 < 128 by decide), Option.bind_some]
        rfl
      · simp only [word, show ¬(1 ≤ shift ∧ shift ≤ 128) by omega, if_false]
        by_cases high : shift ≤ 256
        · have first : 129 ≤ shift ∧ shift ≤ 256 := by omega
          simp only [first, and_self, if_true, checkedShr_of_lt (show shift - 129 < 128 by omega)]
          split
          next =>
            rw [checkedShr_of_lt (by omega)]
            rfl
          next => rfl
        · simp only [show ¬(129 ≤ shift ∧ shift ≤ 256) by omega,
            show ¬(129 ≤ shift ∧ shift ≤ 255) by omega, if_false]
          rfl
  · rw [if_neg neg, if_neg neg]
    by_cases far : upper ≠ 0 ∨ exponent.toNat ≥ 128
    · rw [if_pos far, if_pos (by tauto)]
      rfl
    · have near : exponent.toNat < 128 := by omega
      rw [if_neg far, checkedShr_of_lt near]
      simp only [Option.bind_eq_bind, Option.bind_some, Option.pure_def]
      by_cases long : lower > u128Max >>> exponent.toNat
      · rw [if_pos long, if_pos (.inr (.inr long))]
      · rw [if_neg long, if_neg (by tauto)]
        refine checkedShl_of_le near ?_
        rw [not_lt, Nat.shiftRight_eq_div_pow, Nat.le_div_iff_mul_le (Nat.two_pow_pos _)] at long
        rwa [Nat.shiftLeft_eq]

def checkedHostToGhost (f : GhostXForm) (hostTime : Duration) : Option Duration :=
  let nanos := hostTime.nanos
  if nanos = 0 then some f.intercept
  else do
    let offset ←
      if f.slope.isFinite then
        let (mantissa, exponent, sign) := Binary64.integerDecode f.slope
        (checkedMicrosMagnitude nanos.natAbs mantissa exponent).bind fun magnitude =>
          (checked magnitude).bind fun magnitude =>
            if decide (nanos < 0) != decide (sign < 0) then checked (-magnitude)
            else some magnitude
      else some (Binary64.roundAs i128Min i128Max (f.slope * (Float.ofInt nanos / 1000.0)))
    pure (durationFromNanos (saturate (saturate (offset * 1000) + f.intercept.nanos)))

def checkedWords (magnitude mantissa : Nat) : Option (Nat × Nat) := do
  let low ← checkedU (magnitude % 2 ^ 64 * mantissa : Nat)
  let top ← checkedShr magnitude 64
  let high ← checkedU (top * mantissa : Nat)
  let carried ← wrappingShl high 64
  let sum := low + carried
  let rest ← checkedShr high 64
  let upper ← checkedU (rest + sum / 2 ^ 128 : Nat)
  pure (sum % 2 ^ 128, upper)

def checkedSignedSum (magnitude : Nat) (negative : Bool) (intercept : Int) : Option Int := do
  let (magnitude, negative) ←
    if negative = decide (intercept < 0) then
      pure (saturateU (magnitude + intercept.natAbs), negative)
    else if magnitude ≥ intercept.natAbs then do
      pure (← checkedU (magnitude - intercept.natAbs : Int), negative)
    else do pure (← checkedU (intercept.natAbs - magnitude : Int), !negative)
  let most ← checkedU (i128Max.toNat + if negative then 1 else 0 : Nat)
  let magnitude := min magnitude most
  if negative then
    if (magnitude : Int) > i128Max then pure i128Min else checked (-magnitude)
  else checked magnitude

def checkedHostToGhostWideNanos (f : GhostXForm) (hostTime : Duration) : Option Int :=
  let nanos := hostTime.nanos
  if nanos = 0 ∨ ¬ f.slope.isFinite then (f.checkedHostToGhost hostTime).map Duration.nanos
  else do
    let (mantissa, exponent, sign) := Binary64.integerDecode f.slope
    let (lower, upper) ← checkedWords nanos.natAbs mantissa
    let magnitude ← checkedProductMagnitude lower upper exponent
    checkedSignedSum magnitude (decide (nanos < 0) != decide (sign < 0)) f.intercept.nanos

theorem checkedHostToGhost_eq (f : GhostXForm) (h : Duration) :
    f.checkedHostToGhost h = some (f.hostToGhost h) := by
  unfold checkedHostToGhost
  by_cases zero : h.nanos = 0
  · unfold hostToGhost
    rw [if_pos zero, if_pos zero]
  · by_cases finite : f.slope.isFinite = true
    · obtain ⟨⟨mantissa, exponent, sign⟩, decoded⟩ :
        ∃ d, Binary64.integerDecode f.slope = d := ⟨_, rfl⟩
      obtain ⟨short, -⟩ := Binary64.integerDecode_bounds decoded
      have most := microsMagnitude_le h.natAbs_le short exponent
      rw [hostToGhost_decoded zero finite decoded]
      dsimp only
      rw [if_neg zero, if_pos finite, decoded]
      dsimp only
      rw [checkedMicrosMagnitude_eq h.natAbs_le short]
      generalize microsMagnitude h.nanos.natAbs mantissa exponent = magnitude at most
      have fits : FitsI128 magnitude ∧ FitsI128 (-(magnitude : ℤ)) := by
        unfold i128Max at most
        unfold FitsI128 i128Min i128Max
        omega
      simp only [Option.bind_some, checked_of_fits fits.1, checked_of_fits fits.2,
        Option.bind_eq_bind, Option.pure_def]
      split <;> rfl
    · unfold hostToGhost
      simp only [if_neg zero, if_neg finite]
      rfl

theorem checkedWords_eq {magnitude mantissa : ℕ} (size : magnitude ≤ 2 ^ 83)
    (short : mantissa < 2 ^ 53) :
    checkedWords magnitude mantissa =
      some (lowerWord magnitude mantissa, upperWord magnitude mantissa) := by
  have low : checkedU (magnitude % 2 ^ 64 * mantissa : ℕ) =
      some (magnitude % 2 ^ 64 * mantissa) := by
    refine checkedU_of_le
      (le_trans (Nat.mul_le_mul (Nat.mod_lt _ (Nat.two_pow_pos 64)).le short.le) ?_)
    decide
  have top : magnitude >>> 64 ≤ 2 ^ 19 := by
    rw [Nat.shiftRight_eq_div_pow]
    omega
  have high : checkedU (magnitude >>> 64 * mantissa : ℕ) = some (magnitude >>> 64 * mantissa) := by
    refine checkedU_of_le (le_trans (Nat.mul_le_mul top short.le) ?_)
    decide
  have upper : checkedU ((magnitude >>> 64 * mantissa) >>> 64 +
      wordSum magnitude mantissa / 2 ^ 128 : ℕ) = some (upperWord magnitude mantissa) := by
    have small := upperWord_lt size short
    refine checkedU_of_le (le_trans (Nat.le_of_lt small) ?_)
    decide
  have shift {x : ℕ} : checkedShr x 64 = some (x >>> 64) := checkedShr_of_lt (by decide)
  have carried {x : ℕ} : wrappingShl x 64 = some (x <<< 64 % 2 ^ 128) := if_pos (by decide)
  unfold checkedWords
  simp only [low, shift, high, carried, Option.bind_eq_bind, Option.bind_some, Option.pure_def]
  unfold wordSum at upper
  rw [upper]
  rfl

theorem checked_cut (m : ℕ) (b : Bool) :
    (if b = true then
      if ((min m (i128Max.toNat + if b = true then 1 else 0) : ℕ) : ℤ) > i128Max then
        some i128Min
      else checked (-((min m (i128Max.toNat + if b = true then 1 else 0) : ℕ) : ℤ))
    else checked ((min m (i128Max.toNat + if b = true then 1 else 0) : ℕ) : ℤ)) =
    some (if b = true then
      if ((min m (i128Max.toNat + if b = true then 1 else 0) : ℕ) : ℤ) > i128Max then i128Min
      else -((min m (i128Max.toNat + if b = true then 1 else 0) : ℕ) : ℤ)
    else ((min m (i128Max.toNat + if b = true then 1 else 0) : ℕ) : ℤ)) := by
  have limits : i128Min = -2 ^ 127 ∧ i128Max = 2 ^ 127 - 1 ∧ i128Max.toNat = 2 ^ 127 - 1 :=
    ⟨rfl, rfl, rfl⟩
  cases b with
  | false =>
    simp only [Bool.false_eq_true, if_false]
    refine checked_of_fits ?_
    unfold FitsI128
    omega
  | true =>
    simp only [if_true]
    split
    next => rfl
    next near =>
      refine checked_of_fits ?_
      unfold FitsI128
      omega

theorem checkedSignedSum_eq (magnitude : ℕ) (fits : magnitude ≤ u128Max) (negative : Bool)
    (intercept : Duration) :
    checkedSignedSum magnitude negative intercept.nanos =
      some (signedSum magnitude negative intercept.nanos) := by
  have size := intercept.natAbs_le
  generalize intercept.nanos = offset at size
  have gap {x y : ℕ} (order : y ≤ x) (fits : x ≤ u128Max) :
      checkedU ((x : ℤ) - y) = some (x - y) := by
    rw [← Nat.cast_sub order]
    exact checkedU_of_le (by omega)
  have most (b : Bool) : checkedU (i128Max.toNat + (if b then 1 else 0) : ℕ) =
      some (i128Max.toNat + if b then 1 else 0) := by
    cases b <;> decide
  unfold checkedSignedSum signedSum
  simp only [Option.bind_eq_bind, Option.pure_def]
  split
  next =>
    simp only [Option.bind_some, most]
    exact checked_cut _ _
  next =>
    split
    next more =>
      rw [gap more fits]
      simp only [Option.bind_some, most]
      exact checked_cut _ _
    next less =>
      rw [gap (by omega) (by unfold u128Max; omega)]
      simp only [Option.bind_some, most]
      exact checked_cut _ _

theorem checkedHostToGhostWideNanos_eq (f : GhostXForm) (h : Duration) :
    f.checkedHostToGhostWideNanos h = some (f.hostToGhostWideNanos h) := by
  unfold checkedHostToGhostWideNanos
  dsimp only
  by_cases direct : h.nanos = 0 ∨ ¬f.slope.isFinite
  · unfold hostToGhostWideNanos
    rw [if_pos direct, if_pos direct, checkedHostToGhost_eq]
    rfl
  · obtain ⟨zero, finite⟩ := not_or.mp direct
    obtain ⟨⟨mantissa, exponent, sign⟩, decoded⟩ :
      ∃ d, Binary64.integerDecode f.slope = d := ⟨_, rfl⟩
    obtain ⟨short, -⟩ := Binary64.integerDecode_bounds decoded
    rw [if_neg direct, hostToGhostWideNanos_decoded zero (not_not.mp finite) decoded, decoded]
    dsimp only
    rw [checkedWords_eq h.natAbs_le short]
    simp only [Option.bind_eq_bind, Option.bind_some, checkedProductMagnitude_eq]
    exact checkedSignedSum_eq _ (productMagnitude_le _) _ _

/-- Both forward maps round the exact product once and cut the sum off at their limits, without
an overflow on the way. -/
theorem forward_exact (f : GhostXForm) (finite : f.slope.isFinite = true) (h : Duration) :
    (f.hostToGhostWideNanos h =
        saturate (roundHalfAway (h.nanos * Binary64.value f.slope) + f.intercept.nanos) ∧
      f.checkedHostToGhostWideNanos h = some (f.hostToGhostWideNanos h)) ∧
    (f.hostToGhost h = durationFromNanos
        (1000 * roundHalfAway (h.nanos * Binary64.value f.slope / 1000) + f.intercept.nanos) ∧
      f.checkedHostToGhost h = some (f.hostToGhost h)) :=
  ⟨⟨f.hostToGhostWideNanos_exact finite h, f.checkedHostToGhostWideNanos_eq h⟩,
    f.hostToGhost_exact finite h, f.checkedHostToGhost_eq h⟩

theorem forward_exact_smallest :
    let f : GhostXForm := ⟨Float.ofBits 1, .microseconds (-3)⟩
    (f.hostToGhostWideNanos .MAX =
        saturate (roundHalfAway (Duration.MAX.nanos * Binary64.value f.slope) +
          f.intercept.nanos) ∧
      f.checkedHostToGhostWideNanos .MAX = some (f.hostToGhostWideNanos .MAX)) ∧
    (f.hostToGhost .MAX = durationFromNanos
        (1000 * roundHalfAway (Duration.MAX.nanos * Binary64.value f.slope / 1000) +
          f.intercept.nanos) ∧
      f.checkedHostToGhost .MAX = some (f.hostToGhost .MAX)) :=
  forward_exact _ (by decide) _

end GhostXForm

end AbletonLink.Link
