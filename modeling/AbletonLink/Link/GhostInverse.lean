import AbletonLink.Link.GhostForward

/-! Ghost times are mapped back to host times by one exact rounding, where these exist. -/

namespace AbletonLink.Link

open Library Library.MachineInt

namespace GhostXForm

section Doubling

variable {denominator : ℕ} (positive : 0 < denominator) (limit : ℕ)

include positive

theorem double_div_mod (x : ℕ) :
    (2 * x / denominator, 2 * x % denominator) =
      if x % denominator * 2 ≥ denominator then
        (x / denominator * 2 + 1, x % denominator * 2 - denominator)
      else (x / denominator * 2, x % denominator * 2) := by
  have proper := Nat.mod_lt x positive
  have parts : 2 * x = x % denominator * 2 + denominator * (x / denominator * 2) := by
    calc 2 * x = 2 * (denominator * (x / denominator) + x % denominator) := by
          rw [Nat.div_add_mod]
      _ = _ := by ring
  split
  next carry =>
    have carried : 2 * x = (x % denominator * 2 - denominator) +
        denominator * (x / denominator * 2 + 1) := by
      rw [Nat.mul_add]
      omega
    rw [carried, Nat.add_mul_div_left _ _ positive, Nat.add_mul_mod_self_left,
      Nat.div_eq_of_lt (by omega), Nat.mod_eq_of_lt (by omega), Nat.zero_add]
  next =>
    rw [parts, Nat.add_mul_div_left _ _ positive, Nat.add_mul_mod_self_left,
      Nat.div_eq_of_lt (by omega), Nat.mod_eq_of_lt (by omega), Nat.zero_add]

theorem doubleQuotient_eq (n x : ℕ) :
    doubleQuotient denominator limit n (x / denominator) (x % denominator) =
        some (x * 2 ^ n / denominator, x * 2 ^ n % denominator) ∨
      doubleQuotient denominator limit n (x / denominator) (x % denominator) = none ∧
        limit < x * 2 ^ n / denominator := by
  induction n generalizing x with
  | zero =>
    rw [pow_zero, Nat.mul_one]
    exact .inl rfl
  | succ n ih =>
    have step := double_div_mod positive x
    have scaled : 2 * x * 2 ^ n = x * 2 ^ (n + 1) := by ring
    have next := ih (2 * x)
    rw [scaled] at next
    unfold doubleQuotient
    by_cases early : x / denominator > limit / 2
    · rw [if_pos early]
      refine .inr ⟨rfl, ?_⟩
      have least : x / denominator * 2 ≤ x * 2 ^ (n + 1) / denominator := by
        rw [Nat.le_div_iff_mul_le positive]
        calc x / denominator * 2 * denominator = x / denominator * denominator * 2 := by ring
          _ ≤ x * 2 := Nat.mul_le_mul_right _ (Nat.div_mul_le_self _ _)
          _ ≤ x * 2 ^ (n + 1) := Nat.mul_le_mul_left _ (Nat.le_self_pow (by omega) 2)
      omega
    · rw [if_neg early]
      split at step
      next carry =>
        obtain ⟨quotient, remainder⟩ := Prod.mk.inj step
        rw [if_pos carry, ← quotient, ← remainder]
        exact next
      next carry =>
        obtain ⟨quotient, remainder⟩ := Prod.mk.inj step
        rw [if_neg carry, ← quotient, ← remainder]
        exact next

end Doubling

/-- The rounded magnitude of a difference divided by the slope and the unit; `none` once it passes
the limit. -/
def hostUnits (denominator limit magnitude : Nat) (exponent : Int) : Option Nat :=
  if exponent ≥ 0 then
    let shift := exponent.toNat
    let quotient := magnitude / denominator
    some (
      if shift ≥ 128 then 0
      else if shift = 0 then
        quotient + if magnitude % denominator ≥ (denominator + 1) / 2 then 1 else 0
      else quotient >>> shift + (quotient >>> (shift - 1) &&& 1))
  else
    (doubleQuotient denominator limit exponent.natAbs (magnitude / denominator)
      (magnitude % denominator)).map fun (quotient, remainder) =>
        quotient + if remainder ≥ (denominator + 1) / 2 then 1 else 0

theorem hostUnits_exact {denominator : ℕ} (positive : 0 < denominator) (limit : ℕ) {magnitude : ℕ}
    (size : magnitude ≤ 2 ^ 127) {exponent : ℤ} (normal : exponent < 0 ∨ 2 ^ 52 ≤ denominator) :
    (∃ units, hostUnits denominator limit magnitude exponent = some units ∧
        roundHalfAway ((magnitude : ℚ) / denominator * 2 ^ (-exponent)) = units) ∨
      hostUnits denominator limit magnitude exponent = none ∧
        (limit : ℤ) < roundHalfAway ((magnitude : ℚ) / denominator * 2 ^ (-exponent)) := by
  unfold hostUnits
  rcases lt_or_ge exponent 0 with neg | nonneg
  · obtain ⟨k, rfl⟩ : ∃ k : ℕ, exponent = -(k : ℤ) := ⟨exponent.natAbs, by omega⟩
    have rounded := roundHalfAway_nat_div (magnitude * 2 ^ k) positive
    have scaled : (magnitude : ℚ) / denominator * 2 ^ (-(-(k : ℤ))) =
        (magnitude * 2 ^ k : ℕ) / denominator := by
      rw [neg_neg, zpow_natCast]
      push_cast
      ring
    rw [scaled, rounded, if_neg (by omega), Int.natAbs_neg, Int.natAbs_natCast]
    obtain done | ⟨early, beyond⟩ := doubleQuotient_eq positive limit k magnitude
    · rw [done]
      exact .inl ⟨_, rfl, rfl⟩
    · rw [early]
      exact .inr ⟨rfl, by omega⟩
  · obtain ⟨k, rfl⟩ := Int.eq_ofNat_of_zero_le nonneg
    rw [if_pos nonneg, Int.toNat_natCast]
    refine .inl ⟨_, rfl, ?_⟩
    rcases Nat.eq_zero_or_pos k with rfl | shifted
    · rw [if_neg (by decide), if_pos rfl, Nat.cast_zero, neg_zero, zpow_zero, mul_one]
      exact roundHalfAway_nat_div magnitude positive
    · rw [roundHalfAway_div_scaled magnitude positive shifted, roundScaled_bits _ shifted,
        if_neg (show k ≠ 0 by omega), Nat.and_one_is_mod]
      split
      next far =>
        have small : magnitude / denominator < 2 ^ 127 := by
          rw [Nat.div_lt_iff_lt_mul positive]
          omega
        have power : 2 ^ 127 ≤ 2 ^ (k - 1) := Nat.pow_le_pow_right two_pos (by omega)
        have above : 2 ^ (k - 1) ≤ 2 ^ k := Nat.pow_le_pow_right two_pos (by omega)
        rw [Nat.shiftRight_eq_div_pow, Nat.shiftRight_eq_div_pow,
          Nat.div_eq_of_lt (by omega), Nat.div_eq_of_lt (by omega)]
      next => rfl

def finishUnits (negative : Bool) (limit unit units : Nat) : Except Duration Duration :=
  let nanos : Int := min units limit * unit
  let duration := durationFromNanos (if negative then -nanos else nanos)
  if units > limit then .error duration else .ok duration

theorem ghostNanosToHostUnits_decoded {f : GhostXForm} {g : ℤ} {unit mantissa : ℕ}
    {exponent sign : ℤ} (finite : f.slope.isFinite = true) (nonzero : (f.slope == 0.0) = false)
    (fits : FitsI128 (g - f.intercept.nanos)) (different : g - f.intercept.nanos ≠ 0)
    (decoded : Binary64.integerDecode f.slope = (mantissa, exponent, sign)) :
    let negative := decide (g - f.intercept.nanos < 0) != decide (sign < 0)
    let limit := Duration.maxNanos.toNat / unit
    f.ghostNanosToHostUnits g unit =
      match hostUnits (mantissa * unit) limit (g - f.intercept.nanos).natAbs exponent with
      | none => .error (if negative then .MIN else .MAX)
      | some units => finishUnits negative limit unit units := by
  intro negative limit
  have bounds (b : Bool) : (if b = true then Duration.MIN.nanos.natAbs / unit
      else Duration.MAX.nanos.toNat / unit) = limit := by
    cases b <;> rfl
  unfold ghostNanosToHostUnits
  simp only [saturate_of_fits fits, nonzero, finite, decoded, if_neg different, Bool.not_true,
    Bool.or_false, Bool.false_eq_true, if_false, bounds]
  unfold hostUnits
  by_cases whole : exponent ≥ 0
  · rw [if_pos whole, if_pos whole]
    rfl
  · rw [if_neg whole, if_neg whole]
    cases doubleQuotient (mantissa * unit) limit exponent.natAbs _ _ with
    | none => rfl
    | some parts => rfl

theorem div_value_sign {difference sign : ℤ} {mantissa unit : ℕ} {exponent : ℤ}
    (one : sign = 1 ∨ sign = -1) :
    (difference : ℚ) / ((sign * mantissa * 2 ^ exponent : ℚ) * unit) =
      if decide (difference < 0) != decide (sign < 0) then
        -((difference.natAbs : ℚ) / (mantissa * unit : ℕ) * 2 ^ (-exponent))
      else (difference.natAbs : ℚ) / (mantissa * unit : ℕ) * 2 ^ (-exponent) := by
  have signed := @mul_value_sign difference sign 1 (-exponent) one
  have invert : (difference : ℚ) / ((sign * mantissa * 2 ^ exponent : ℚ) * unit) =
      difference * (sign * (1 : ℕ) * 2 ^ (-exponent)) / (mantissa * unit : ℕ) := by
    rw [zpow_neg]
    push_cast
    obtain rfl | rfl := one <;> push_cast <;> ring
  rw [invert, signed]
  split
  · rw [Nat.mul_one]
    ring
  · rw [Nat.mul_one]
    ring

theorem denominator_bounds {slope : Float} {mantissa : ℕ} {exponent sign : ℤ}
    (decoded : Binary64.integerDecode slope = (mantissa, exponent, sign))
    (nonzero : (slope == 0.0) = false) {unit : ℕ} (known : unit = 1 ∨ unit = 1000) :
    0 < mantissa * unit ∧ mantissa * unit * 2 ≤ 2 ^ 64 := by
  obtain ⟨short, -⟩ := Binary64.integerDecode_bounds decoded
  have value : 0 < mantissa := by
    rcases Nat.eq_zero_or_pos mantissa with zero | positive
    · rw [(Binary64.mantissa_eq_zero_iff decoded).mp zero] at nonzero
      cases nonzero
    · exact positive
  obtain rfl | rfl := known <;> omega

section Units

variable {unit : ℕ} (known : unit = 1 ∨ unit = 1000)

include known

theorem limit_units : (Duration.maxNanos.toNat / unit * unit : ℕ) = Duration.maxNanos := by
  obtain rfl | rfl := known <;> decide

theorem finishUnits_cases (negative : Bool) (units : ℕ) :
    let limit := Duration.maxNanos.toNat / unit
    (units ≤ limit ∧ ∃ d, finishUnits negative limit unit units = .ok d ∧
        d.nanos = (if negative then -(units : ℤ) else units) * unit) ∨
      limit < units ∧ ∃ d, finishUnits negative limit unit units = .error d ∧
        d.nanos = (if negative then -(limit : ℤ) else limit) * unit := by
  intro limit
  have whole : (limit * unit : ℕ) = Duration.maxNanos := limit_units known
  have inside {x : ℕ} (h : x ≤ limit) (b : Bool) :
      (durationFromNanos (if b then -((x * unit : ℕ) : ℤ) else (x * unit : ℕ))).nanos =
        (if b then -(x : ℤ) else x) * unit := by
    have product : x * unit ≤ limit * unit := Nat.mul_le_mul_right _ h
    have most : ((x * unit : ℕ) : ℤ) ≤ Duration.maxNanos := by omega
    have symmetric : Duration.minNanos = -Duration.maxNanos := rfl
    rw [nanos_durationFromNanos]
    · cases b <;> push_cast <;> simp
    · unfold FitsDuration
      cases b <;> simp <;> omega
  unfold finishUnits
  rcases lt_or_ge limit units with beyond | within
  · refine .inr ⟨beyond, _, if_pos beyond, ?_⟩
    have cut : ((min units limit : ℕ) : ℤ) * unit = (limit * unit : ℕ) := by
      rw [Nat.min_eq_right beyond.le, Nat.cast_mul]
    rw [cut]
    exact inside (le_refl limit) negative
  · refine .inl ⟨within, _, if_neg (by omega), ?_⟩
    have same : ((min units limit : ℕ) : ℤ) * unit = (units * unit : ℕ) := by
      rw [Nat.min_eq_left within, Nat.cast_mul]
    rw [same]
    exact inside within negative

/-- The inverse map gives the exact quotient rounded once, or the limit on its side where the
quotient is beyond it. -/
theorem ghostNanosToHostUnits_cases {f : GhostXForm} (finite : f.slope.isFinite = true)
    (nonzero : (f.slope == 0.0) = false) {g : ℤ} (fits : FitsI128 (g - f.intercept.nanos)) :
    let k := roundHalfAway
      ((g - f.intercept.nanos : ℤ) / (Binary64.value f.slope * unit))
    let limit := Duration.maxNanos.toNat / unit
    (k.natAbs ≤ limit ∧ ∃ d, f.ghostNanosToHostUnits g unit = .ok d ∧ d.nanos = k * unit) ∨
      limit < k.natAbs ∧ ∃ d, f.ghostNanosToHostUnits g unit = .error d ∧
        d.nanos = k.sign * (limit * unit) := by
  intro k limit
  by_cases same : g - f.intercept.nanos = 0
  · have origin : k = 0 := by
      unfold k
      rw [same, Int.cast_zero, zero_div, roundHalfAway_zero]
    rw [origin]
    refine .inl ⟨Nat.zero_le _, Duration.zero, ?_, (zero_mul _).symm⟩
    unfold ghostNanosToHostUnits
    simp only [saturate_of_fits fits, nonzero, finite, if_pos same, Bool.not_true, Bool.or_false,
      Bool.false_eq_true, if_false]
  · obtain ⟨⟨mantissa, exponent, sign⟩, decoded⟩ :
      ∃ d, Binary64.integerDecode f.slope = d := ⟨_, rfl⟩
    obtain ⟨-, -, -, one, normal⟩ := Binary64.integerDecode_bounds decoded
    obtain ⟨positive, -⟩ := denominator_bounds decoded nonzero known
    have unitPos : 0 < unit := Nat.pos_of_mul_pos_left positive
    have size : (g - f.intercept.nanos).natAbs ≤ 2 ^ 127 := by
      unfold FitsI128 i128Min i128Max at fits
      omega
    have normal : exponent < 0 ∨ 2 ^ 52 ≤ mantissa * unit := by
      rcases lt_or_ge exponent 0 with neg | nonneg
      · exact .inl neg
      · exact .inr (le_trans (by omega) (Nat.le_mul_of_pos_right mantissa unitPos))
    have computed : f.ghostNanosToHostUnits g unit = _ :=
      ghostNanosToHostUnits_decoded finite nonzero fits same decoded
    have quotient := @div_value_sign (g - f.intercept.nanos) sign mantissa unit exponent one
    have whole : ((limit * unit : ℕ) : ℤ) = Duration.maxNanos := limit_units known
    have rounded : k =
        if decide (g - f.intercept.nanos < 0) != decide (sign < 0) then
          -roundHalfAway (((g - f.intercept.nanos).natAbs : ℚ) / (mantissa * unit : ℕ) *
            2 ^ (-exponent))
        else roundHalfAway (((g - f.intercept.nanos).natAbs : ℚ) / (mantissa * unit : ℕ) *
            2 ^ (-exponent)) := by
      unfold k
      rw [Binary64.value_eq decoded, quotient, apply_ite roundHalfAway, roundHalfAway_neg]
    rw [computed, rounded]
    generalize (decide (g - f.intercept.nanos < 0) != decide (sign < 0)) = negative
    obtain ⟨units, done, exact⟩ | ⟨early, beyond⟩ := hostUnits_exact positive limit size normal
    · rw [done, exact]
      have magnitude : (if negative = true then -(units : ℤ) else units).natAbs = units := by
        split <;> simp
      rw [magnitude]
      obtain ⟨within, d, ok, nanos⟩ | ⟨beyond, d, error, nanos⟩ :=
        finishUnits_cases known negative units
      · exact .inl ⟨within, d, ok, nanos⟩
      · refine .inr ⟨beyond, d, error, nanos.trans ?_⟩
        have more : 0 < (units : ℤ) := by exact_mod_cast Nat.zero_lt_of_lt beyond
        split
        · rw [Int.sign_eq_neg_one_of_neg (by omega)]
          ring
        · rw [Int.sign_eq_one_of_pos more]
          ring
    · rw [early]
      generalize roundHalfAway _ = exact at beyond
      have more : 0 < exact := lt_of_le_of_lt (Int.natCast_nonneg _) beyond
      refine .inr ⟨?_, _, rfl, ?_⟩
      · split <;> omega
      · have symmetric : Duration.minNanos = -Duration.maxNanos := rfl
        push_cast at whole
        cases negative with
        | true =>
          simp only [if_true]
          rw [Int.sign_eq_neg_one_of_neg (by omega), whole, neg_one_mul]
          rfl
        | false =>
          simp only [Bool.false_eq_true, if_false]
          rw [Int.sign_eq_one_of_pos (by omega), whole, one_mul]
          rfl

end Units

theorem ghostNanosToHostUnits_saturate (f : GhostXForm) (g : ℤ) (unit : ℕ) :
    f.ghostNanosToHostUnits g unit = f.ghostNanosToHostUnits
      (saturate (g - f.intercept.nanos) + f.intercept.nanos) unit := by
  unfold ghostNanosToHostUnits
  rw [add_sub_cancel_right, saturate_saturate]

section Nanoseconds

variable {f : GhostXForm} (finite : f.slope.isFinite = true) (nonzero : (f.slope == 0.0) = false)
  (g : ℤ)

include finite nonzero

theorem ghostNanosToHostUnits_one :
    let k := roundHalfAway (saturate (g - f.intercept.nanos) / Binary64.value f.slope)
    (FitsDuration k ∧ ∃ d, f.ghostNanosToHostUnits g 1 = .ok d ∧ d.nanos = k) ∨
      ¬FitsDuration k ∧ f.ghostNanosToHostUnits g 1 = .error (durationFromNanos k) := by
  intro k
  have fits : FitsI128 (saturate (g - f.intercept.nanos) + f.intercept.nanos -
      f.intercept.nanos) := by
    rw [add_sub_cancel_right]
    exact fits_saturate _
  have cases := f.ghostNanosToHostUnits_cases (.inl rfl) finite nonzero fits
  rw [← ghostNanosToHostUnits_saturate, add_sub_cancel_right, Nat.cast_one, mul_one] at cases
  simp only [Nat.div_one, Nat.cast_one, mul_one] at cases
  have limit : Duration.maxNanos.toNat = 9223372036854775807000000 := by decide
  rw [limit] at cases
  unfold FitsDuration Duration.minNanos Duration.maxNanos
  obtain ⟨within, d, ok, nanos⟩ | ⟨beyond, d, error, nanos⟩ := cases
  · exact .inl ⟨by omega, d, ok, nanos⟩
  · refine .inr ⟨by omega, error.trans (congrArg _ (Duration.ext (nanos.trans ?_)))⟩
    show _ = max Duration.minNanos (min k Duration.maxNanos)
    unfold Duration.minNanos Duration.maxNanos
    rcases lt_trichotomy k 0 with neg | zero | pos
    · rw [Int.sign_eq_neg_one_of_neg neg]
      omega
    · omega
    · rw [Int.sign_eq_one_of_pos pos]
      omega

theorem ghostNanosToHost_eq :
    f.ghostNanosToHost g = durationFromNanos
      (roundHalfAway (saturate (g - f.intercept.nanos) / Binary64.value f.slope)) := by
  unfold ghostNanosToHost
  obtain ⟨fits, d, ok, nanos⟩ | ⟨-, error⟩ := ghostNanosToHostUnits_one finite nonzero g
  · rw [ok, ← nanos, durationFromNanos_nanos]
  · rw [error]

end Nanoseconds

theorem checkedGhostNanosToHost_iff (f : GhostXForm) (g : ℤ) (d : Duration) :
    f.checkedGhostNanosToHost g = some d ↔
      ((f.slope == 0.0) = false ∧ f.slope.isFinite = true) ∧
      d.nanos = roundHalfAway (saturate (g - f.intercept.nanos) / Binary64.value f.slope) := by
  unfold checkedGhostNanosToHost
  by_cases usable : (f.slope == 0.0) = false ∧ f.slope.isFinite = true
  · obtain ⟨nonzero, finite⟩ := usable
    simp only [nonzero, finite, Bool.not_true, Bool.or_false, Bool.false_eq_true, if_false,
      and_self, true_and]
    obtain ⟨-, e, ok, nanos⟩ | ⟨outside, error⟩ := ghostNanosToHostUnits_one finite nonzero g
    · rw [ok, ← nanos]
      constructor
      · rintro ⟨⟩
        rfl
      · intro same
        exact congrArg some (Duration.ext same.symm)
    · rw [error]
      constructor
      · rintro ⟨⟩
      · intro same
        exact absurd (same ▸ d.fits) outside
  · have unusable : (f.slope == 0.0 || !f.slope.isFinite) = true := by
      rw [Bool.or_eq_true, Bool.not_eq_true']
      rwa [not_and_or, Bool.not_eq_false, Bool.not_eq_true] at usable
    rw [if_pos unusable]
    constructor
    · rintro ⟨⟩
    · intro ⟨usable', _⟩
      exact absurd usable' usable

def checkedDoubleQuotient (denominator limit : Nat) :
    Nat → Nat → Nat → Option (Option (Nat × Nat))
  | 0, quotient, remainder => some (some (quotient, remainder))
  | n + 1, quotient, remainder =>
    if quotient > limit / 2 then some none
    else do
      let quotient ← checkedU (quotient * 2 : Nat)
      let remainder ← checkedU (remainder * 2 : Nat)
      if remainder ≥ denominator then do
        let remainder ← checkedU (remainder - denominator : Int)
        let quotient ← checkedU (quotient + 1 : Nat)
        checkedDoubleQuotient denominator limit n quotient remainder
      else checkedDoubleQuotient denominator limit n quotient remainder

theorem checkedDoubleQuotient_eq {denominator limit : ℕ} (most : limit + 1 ≤ u128Max)
    (short : denominator * 2 ≤ u128Max) (n quotient : ℕ) {remainder : ℕ}
    (proper : remainder < denominator) :
    checkedDoubleQuotient denominator limit n quotient remainder =
      some (doubleQuotient denominator limit n quotient remainder) := by
  induction n generalizing quotient remainder with
  | zero => rfl
  | succ n ih =>
    unfold checkedDoubleQuotient doubleQuotient
    by_cases early : quotient > limit / 2
    · rw [if_pos early, if_pos early]
    · rw [if_neg early, if_neg early, checkedU_of_le (by omega), checkedU_of_le (by omega)]
      simp only [Option.bind_eq_bind, Option.bind_some]
      by_cases carry : remainder * 2 ≥ denominator
      · rw [if_pos carry, if_pos carry, ← Nat.cast_sub carry, checkedU_of_le (by omega),
          Option.bind_some, checkedU_of_le (by omega), Option.bind_some]
        exact ih _ (by omega)
      · rw [if_neg carry, if_neg carry]
        exact ih _ (by omega)

theorem doubleQuotient_le {denominator limit n quotient remainder : ℕ} {last : ℕ × ℕ}
    (done : doubleQuotient denominator limit n quotient remainder = some last) :
    last.1 ≤ max quotient (limit + 1) := by
  induction n generalizing quotient remainder with
  | zero =>
    cases done
    exact le_max_left _ _
  | succ n ih =>
    unfold doubleQuotient at done
    split at done
    · cases done
    · split at done
      all_goals
        have bound := ih done
        omega

def checkedHostUnits (denominator limit magnitude : Nat) (exponent : Int) :
    Option (Option Nat) :=
  if denominator = 0 then none
  else
    let quotient := magnitude / denominator
    let remainder := magnitude % denominator
    if exponent ≥ 0 then
      let shift := exponent.toNat
      if shift ≥ 128 then some (some 0)
      else if shift = 0 then
        (checkedU (quotient + if remainder ≥ (denominator + 1) / 2 then 1 else 0 : Nat)).map some
      else do
        let whole ← checkedShr quotient shift
        let half ← checkedShr quotient (shift - 1)
        (checkedU (whole + (half &&& 1) : Nat)).map some
    else do
      match ← checkedDoubleQuotient denominator limit exponent.natAbs quotient remainder with
      | none => some none
      | some (quotient, remainder) =>
        (checkedU (quotient + if remainder ≥ (denominator + 1) / 2 then 1 else 0 : Nat)).map some

theorem checkedHostUnits_eq {denominator : ℕ} (positive : 0 < denominator)
    (short : denominator * 2 ≤ u128Max) {limit : ℕ} (most : limit + 2 ≤ u128Max) {magnitude : ℕ}
    (size : magnitude < u128Max) (exponent : ℤ) :
    checkedHostUnits denominator limit magnitude exponent =
      some (hostUnits denominator limit magnitude exponent) := by
  have less : magnitude / denominator ≤ magnitude := Nat.div_le_self _ _
  unfold checkedHostUnits hostUnits
  rw [if_neg (by omega)]
  by_cases whole : exponent ≥ 0
  · simp only [if_pos whole]
    split
    next => rfl
    next near =>
      split
      next =>
        rw [checkedU_of_le (by split <;> omega)]
        rfl
      next =>
        have cut : (magnitude / denominator) >>> exponent.toNat ≤ magnitude / denominator :=
          Nat.shiftRight_le _ _
        have bit : (magnitude / denominator) >>> (exponent.toNat - 1) &&& 1 ≤ 1 :=
          Nat.and_le_right
        rw [checkedShr_of_lt (by omega), checkedShr_of_lt (by omega)]
        simp only [Option.bind_eq_bind, Option.bind_some]
        rw [checkedU_of_le (by omega)]
        rfl
  · simp only [if_neg whole]
    rw [checkedDoubleQuotient_eq (by omega) short _ _ (Nat.mod_lt _ positive)]
    simp only [Option.bind_eq_bind, Option.bind_some]
    cases done : doubleQuotient denominator limit exponent.natAbs (magnitude / denominator)
      (magnitude % denominator) with
    | none => rfl
    | some last =>
      have bound := doubleQuotient_le done
      show (checkedU (last.1 + if last.2 ≥ (denominator + 1) / 2 then 1 else 0 : ℕ)).map some = _
      rw [checkedU_of_le (by split <;> omega)]
      rfl

def checkedFinishUnits (negative : Bool) (limit unit units : Nat) :
    Option (Except Duration Duration) := do
  let product ← checkedU (min units limit * unit : Nat)
  let nanos ← checked product
  let signed ← if negative then checked (-nanos) else pure nanos
  let duration := durationFromNanos signed
  pure (if units > limit then .error duration else .ok duration)

theorem checkedFinishUnits_eq (negative : Bool) {limit unit : ℕ}
    (most : (limit * unit : ℕ) ≤ i128Max) (units : ℕ) :
    checkedFinishUnits negative limit unit units =
      some (finishUnits negative limit unit units) := by
  have least : min units limit * unit ≤ limit * unit :=
    Nat.mul_le_mul_right _ (Nat.min_le_right _ _)
  have fits : FitsI128 (min units limit * unit : ℕ) ∧
      FitsI128 (-((min units limit * unit : ℕ) : ℤ)) := by
    unfold i128Max at most
    unfold FitsI128 i128Min i128Max
    omega
  unfold checkedFinishUnits finishUnits
  rw [checkedU_of_le (by unfold i128Max at most; unfold u128Max; omega)]
  simp only [Option.bind_eq_bind, Option.bind_some, Option.pure_def, checked_of_fits fits.1,
    checked_of_fits fits.2, ← Nat.cast_mul]
  cases negative <;> rfl

def checkedGhostNanosToHostUnits (f : GhostXForm) (ghostNanos : Int) (unit : Nat) :
    Option (Except Duration Duration) :=
  let difference := saturate (ghostNanos - f.intercept.nanos)
  if f.slope == 0.0 || !f.slope.isFinite then
    some (.ok (Duration.microseconds (Int64.ofInt (Binary64.roundAs i64Min i64Max
      (Float.ofInt difference / 1000.0 / f.slope)))))
  else if difference = 0 then some (.ok Duration.zero)
  else do
    let (mantissa, exponent, sign) := Binary64.integerDecode f.slope
    let denominator ← checkedU (mantissa * unit : Nat)
    let negative := decide (difference < 0) != decide (sign < 0)
    let limit :=
      if negative then Duration.MIN.nanos.natAbs / unit else Duration.MAX.nanos.toNat / unit
    match ← checkedHostUnits denominator limit difference.natAbs exponent with
    | none => pure (.error (if negative then .MIN else .MAX))
    | some units => checkedFinishUnits negative limit unit units

theorem checkedGhostNanosToHostUnits_eq {f : GhostXForm} (finite : f.slope.isFinite = true)
    (nonzero : (f.slope == 0.0) = false) {unit : ℕ} (known : unit = 1 ∨ unit = 1000) {g : ℤ}
    (fits : FitsI128 (g - f.intercept.nanos)) :
    f.checkedGhostNanosToHostUnits g unit = some (f.ghostNanosToHostUnits g unit) := by
  by_cases same : g - f.intercept.nanos = 0
  · unfold checkedGhostNanosToHostUnits ghostNanosToHostUnits
    simp only [saturate_of_fits fits, nonzero, finite, if_pos same, Bool.not_true, Bool.or_false,
      Bool.false_eq_true, if_false]
  · obtain ⟨⟨mantissa, exponent, sign⟩, decoded⟩ :
      ∃ d, Binary64.integerDecode f.slope = d := ⟨_, rfl⟩
    obtain ⟨positive, short⟩ := denominator_bounds decoded nonzero known
    have bounds (b : Bool) : (if b = true then Duration.MIN.nanos.natAbs / unit
        else Duration.MAX.nanos.toNat / unit) = Duration.maxNanos.toNat / unit := by
      cases b <;> rfl
    have whole : (Duration.maxNanos.toNat / unit * unit : ℕ) = Duration.maxNanos :=
      limit_units known
    have least : Duration.maxNanos.toNat / unit ≤ Duration.maxNanos.toNat := Nat.div_le_self _ _
    have size : (g - f.intercept.nanos).natAbs < u128Max := by
      unfold FitsI128 i128Min i128Max at fits
      unfold u128Max
      omega
    have most : Duration.maxNanos.toNat + 2 ≤ u128Max := by decide
    rw [ghostNanosToHostUnits_decoded finite nonzero fits same decoded]
    unfold checkedGhostNanosToHostUnits
    simp only [saturate_of_fits fits, nonzero, finite, decoded, if_neg same, Bool.not_true,
      Bool.or_false, Bool.false_eq_true, if_false, bounds]
    rw [checkedU_of_le (le_trans (by omega) (show 2 ^ 64 ≤ u128Max by decide))]
    simp only [Option.bind_eq_bind, Option.bind_some, Option.pure_def]
    rw [checkedHostUnits_eq positive (short.trans (by decide)) (by omega) size]
    cases hostUnits (mantissa * unit) (Duration.maxNanos.toNat / unit)
        (g - f.intercept.nanos).natAbs exponent with
    | none => rfl
    | some units => exact checkedFinishUnits_eq _ (by rw [whole]; decide) units

theorem except_iff {result : Except Duration Duration} {within : Prop} {value cut : ℤ}
    (cases : (within ∧ ∃ d, result = .ok d ∧ d.nanos = value) ∨
      ¬within ∧ ∃ d, result = .error d ∧ d.nanos = cut) :
    (∀ d, result = .ok d ↔ within ∧ d.nanos = value) ∧
      ∀ d, result = .error d ↔ ¬within ∧ d.nanos = cut := by
  have only {d e : Duration} {k : ℤ} (nanos : e.nanos = k) : e = d ↔ d.nanos = k := by
    rw [← nanos]
    exact ⟨fun same => same ▸ rfl, fun same => Duration.ext same.symm⟩
  obtain ⟨holds, e, rfl, nanos⟩ | ⟨fails, e, rfl, nanos⟩ := cases
  · constructor
    · intro d
      rw [Except.ok.injEq, only nanos, and_iff_right holds]
    · intro d
      exact iff_of_false nofun fun ⟨fails, _⟩ => fails holds
  · constructor
    · intro d
      exact iff_of_false nofun fun ⟨holds, _⟩ => fails holds
    · intro d
      rw [Except.error.injEq, only nanos, and_iff_right fails]

/-- The inverse map gives a duration exactly where the rounded quotient is one, in whole units,
and otherwise the last units on its side; the doubling leaves early only for the latter. -/
theorem inverse_exact (f : GhostXForm) (finite : f.slope.isFinite = true)
    (nonzero : (f.slope == 0.0) = false) (unit : ℕ) (known : unit = 1 ∨ unit = 1000) (g : ℤ)
    (fits : FitsI128 (g - f.intercept.nanos)) :
    let difference := g - f.intercept.nanos
    let k := roundHalfAway (difference / (Binary64.value f.slope * unit))
    let limit := (if k < 0 then Duration.MIN else Duration.MAX).nanos.natAbs / unit
    (∀ d, f.ghostNanosToHostUnits g unit = .ok d ↔ k.natAbs ≤ limit ∧ d.nanos = k * unit) ∧
    (∀ d, f.ghostNanosToHostUnits g unit = .error d ↔
      limit < k.natAbs ∧ d.nanos = k.sign * (limit * unit)) ∧
    f.checkedGhostNanosToHostUnits g unit = some (f.ghostNanosToHostUnits g unit) ∧
    ∀ mantissa exponent sign, Binary64.integerDecode f.slope = (mantissa, exponent, sign) →
      difference ≠ 0 → exponent < 0 →
      doubleQuotient (mantissa * unit) limit exponent.natAbs
        (difference.natAbs / (mantissa * unit)) (difference.natAbs % (mantissa * unit)) = none →
      limit < k.natAbs := by
  intro difference k limit
  have either : limit = Duration.maxNanos.toNat / unit := by
    unfold limit
    split <;> rfl
  have cases := f.ghostNanosToHostUnits_cases known finite nonzero fits
  dsimp only at cases
  rw [← either, ← Nat.not_le] at cases
  obtain ⟨ok, error⟩ := except_iff cases
  refine ⟨ok, ?_, checkedGhostNanosToHostUnits_eq finite nonzero known fits, ?_⟩
  · intro d
    rw [← Nat.not_le]
    exact error d
  · intro mantissa exponent sign decoded different neg early
    have left : hostUnits (mantissa * unit) limit difference.natAbs exponent = none := by
      unfold hostUnits
      rw [if_neg (by omega), early]
      rfl
    have computed : f.ghostNanosToHostUnits g unit = _ :=
      ghostNanosToHostUnits_decoded finite nonzero fits different decoded
    rw [← either, left] at computed
    exact Nat.not_le.mp ((error _).mp computed).1

theorem inverse_exact_smallest :
    let f : GhostXForm := ⟨Float.ofBits 1, .microseconds (-3)⟩
    let difference := 5 - f.intercept.nanos
    let k := roundHalfAway (difference / (Binary64.value f.slope * (1000 : ℕ)))
    let limit := (if k < 0 then Duration.MIN else Duration.MAX).nanos.natAbs / 1000
    (∀ d, f.ghostNanosToHostUnits 5 1000 = .ok d ↔ k.natAbs ≤ limit ∧ d.nanos = k * 1000) ∧
    (∀ d, f.ghostNanosToHostUnits 5 1000 = .error d ↔
      limit < k.natAbs ∧ d.nanos = k.sign * (limit * 1000)) ∧
    f.checkedGhostNanosToHostUnits 5 1000 = some (f.ghostNanosToHostUnits 5 1000) ∧
    ∀ mantissa exponent sign, Binary64.integerDecode f.slope = (mantissa, exponent, sign) →
      difference ≠ 0 → exponent < 0 →
      doubleQuotient (mantissa * 1000) limit exponent.natAbs
        (difference.natAbs / (mantissa * 1000)) (difference.natAbs % (mantissa * 1000)) = none →
      limit < k.natAbs :=
  inverse_exact _ (by decide) (by decide) 1000 (.inr rfl) 5 (by decide)

end GhostXForm

end AbletonLink.Link
