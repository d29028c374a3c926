import AbletonLink.Library.Dyadic
import AbletonLink.Link.GhostXForm

/-! Host times are mapped to ghost times by one exact rounding. -/

namespace AbletonLink.Link

open Library Library.MachineInt

theorem Duration.natAbs_le (d : Duration) : d.nanos.natAbs ≤ 2 ^ 83 := by
  have fits := d.fits
  unfold FitsDuration minNanos maxNanos at fits
  omega

namespace GhostXForm

/-- The rounded magnitude of whole microseconds in `magnitude * mantissa * 2^exponent`
nanoseconds. -/
def microsMagnitude (magnitude mantissa : Nat) (exponent : Int) : Nat :=
  let fraction := magnitude % 1000 * mantissa
  let whole := magnitude / 1000 * mantissa + fraction / 1000
  if exponent < 0 then
    let shift := exponent.natAbs
    if shift ≥ 128 then 0
    else whole >>> shift + if whole % 2 ^ shift ≥ 2 ^ (shift - 1) then 1 else 0
  else
    let shift := exponent.toNat
    let limit := i128Max.toNat
    if shift ≥ 127 ∨ whole > limit >>> shift then limit
    else
      min limit (saturateU (whole <<< shift +
        saturateU (saturateU (fraction % 1000 * 2 ^ shift) + 500) / 1000))

section Micros

variable {magnitude mantissa : ℕ} {exponent : ℤ}

theorem whole_eq : magnitude / 1000 * mantissa + magnitude % 1000 * mantissa / 1000 =
    magnitude * mantissa / 1000 := by
  have split : magnitude * mantissa =
      1000 * (magnitude / 1000 * mantissa) + magnitude % 1000 * mantissa := by
    calc magnitude * mantissa = (1000 * (magnitude / 1000) + magnitude % 1000) * mantissa := by
          rw [Nat.div_add_mod]
      _ = _ := by ring
  rw [split, Nat.mul_add_div (by decide)]

theorem fraction_eq : magnitude % 1000 * mantissa % 1000 = magnitude * mantissa % 1000 := by
  rw [Nat.mod_mul_mod]

variable (size : magnitude ≤ 2 ^ 83) (short : mantissa < 2 ^ 53)

include size short

theorem product_lt : magnitude * mantissa < 2 ^ 136 := by
  calc magnitude * mantissa ≤ 2 ^ 83 * mantissa := Nat.mul_le_mul_right _ size
    _ < 2 ^ 83 * 2 ^ 53 := Nat.mul_lt_mul_of_pos_left short (by positivity)
    _ = 2 ^ 136 := by norm_num

theorem microsMagnitude_of_neg {k : ℕ} (positive : 0 < k) :
    (microsMagnitude magnitude mantissa (-(k : ℤ)) : ℤ) =
      roundHalfAway (((magnitude * mantissa : ℕ) : ℚ) / 1000 * 2 ^ (-(k : ℤ))) := by
  have scaled := roundHalfAway_div_scaled (magnitude * mantissa) (show 0 < 1000 by decide) positive
  have bound := product_lt size short
  rw [Nat.cast_ofNat] at scaled
  rw [scaled, roundScaled_half _ positive]
  unfold microsMagnitude
  simp only [whole_eq, if_pos (show -(k : ℤ) < 0 by omega), Int.natAbs_neg, Int.natAbs_natCast]
  generalize magnitude * mantissa = product at bound
  split
  next far =>
    have quotient : (product / 1000) >>> k = 0 := by
      rw [Nat.shiftRight_eq_div_pow]
      refine Nat.div_eq_of_lt (lt_of_lt_of_le ?_ (Nat.pow_le_pow_right two_pos far))
      omega
    have half : ¬2 ^ (k - 1) ≤ product / 1000 % 2 ^ k := by
      have least : 2 ^ 127 ≤ 2 ^ (k - 1) := Nat.pow_le_pow_right two_pos (by omega)
      have := Nat.mod_le (product / 1000) (2 ^ k)
      omega
    rw [quotient, if_neg half]
  next => rfl

theorem microsMagnitude_of_nonneg (positive : 0 < magnitude) (normal : 2 ^ 52 ≤ mantissa) (k : ℕ) :
    (microsMagnitude magnitude mantissa k : ℤ) =
      min (roundHalfAway (((magnitude * mantissa : ℕ) : ℚ) / 1000 * 2 ^ (k : ℤ))) i128Max := by
  have bound := product_lt size short
  have least : 2 ^ 52 ≤ magnitude * mantissa := by nlinarith
  unfold microsMagnitude
  simp only [whole_eq, fraction_eq, if_neg (show ¬(k : ℤ) < 0 by omega), Int.toNat_natCast]
  generalize magnitude * mantissa = product at bound least
  have quotient : (product : ℚ) / 1000 * 2 ^ (k : ℤ) =
      ((product * 2 ^ k : ℕ) : ℚ) / (2 * 500 : ℕ) := by
    rw [zpow_natCast]
    push_cast
    ring
  have rounded : (product * 2 ^ k + 500) / 1000 =
      product / 1000 * 2 ^ k + (product % 1000 * 2 ^ k + 500) / 1000 := by
    calc (product * 2 ^ k + 500) / 1000
        = ((1000 * (product / 1000) + product % 1000) * 2 ^ k + 500) / 1000 := by
          rw [Nat.div_add_mod]
      _ = (1000 * (product / 1000 * 2 ^ k) + (product % 1000 * 2 ^ k + 500)) / 1000 := by ring_nf
      _ = _ := Nat.mul_add_div (by decide) _ _
  have limit : i128Max.toNat = 2 ^ 127 - 1 := by decide
  rw [quotient, roundHalfAway_nat_div_even _ (by decide), rounded, limit]
  unfold i128Max
  split
  next far =>
    have large : 2 ^ 127 ≤ product / 1000 * 2 ^ k := by
      obtain wide | long := far
      · calc 2 ^ 127 ≤ 1 * 2 ^ k := by
              rw [Nat.one_mul]
              exact Nat.pow_le_pow_right two_pos wide
          _ ≤ product / 1000 * 2 ^ k := Nat.mul_le_mul_right _ (by omega)
      · rw [Nat.shiftRight_eq_div_pow, gt_iff_lt, Nat.div_lt_iff_lt_mul (by positivity)] at long
        omega
    omega
  next near =>
    rw [not_or, not_le, not_lt, Nat.shiftRight_eq_div_pow, Nat.le_div_iff_mul_le (by positivity)]
      at near
    -- A normal mantissa leaves the shift no room for the fraction to saturate.
    have short : k < 86 := by
      by_contra long
      have power : 2 ^ 86 ≤ 2 ^ k := Nat.pow_le_pow_right two_pos (by omega)
      have : 2 ^ 42 * 2 ^ 86 ≤ product / 1000 * 2 ^ k := Nat.mul_le_mul (by omega) power
      omega
    have power : 2 ^ k < 2 ^ 86 := Nat.pow_lt_pow_right (by decide) short
    have small : product % 1000 * 2 ^ k ≤ 1000 * 2 ^ 86 :=
      Nat.mul_le_mul (by omega) power.le
    rw [Nat.shiftLeft_eq]
    generalize product / 1000 * 2 ^ k = whole at near
    generalize product % 1000 * 2 ^ k = fraction at small
    have fits {x : ℕ} (h : x ≤ 2 ^ 128 - 1) : saturateU x = x := Nat.min_eq_left h
    rw [fits (x := fraction) (by omega), fits (x := fraction + 500) (by omega),
      fits (by omega)]
    omega

theorem microsMagnitude_le (exponent : ℤ) :
    (microsMagnitude magnitude mantissa exponent : ℤ) ≤ i128Max := by
  have bound := product_lt size short
  unfold microsMagnitude
  dsimp only
  rw [whole_eq]
  generalize magnitude * mantissa = product at bound
  split
  next neg =>
    split
    next => decide
    next =>
      have half : (product / 1000) >>> exponent.natAbs ≤ product / 1000 := Nat.shiftRight_le _ _
      unfold i128Max
      split <;> omega
  next =>
    have limit : (i128Max.toNat : ℤ) = i128Max := by decide
    rw [← limit]
    split
    · exact le_refl _
    · exact_mod_cast Nat.min_le_left _ _

end Micros

theorem mul_value_sign {nanos sign : ℤ} {mantissa : ℕ} {exponent : ℤ}
    (unit : sign = 1 ∨ sign = -1) :
    (nanos : ℚ) * (sign * mantissa * 2 ^ exponent) =
      if decide (nanos < 0) != decide (sign < 0) then
        -(((nanos.natAbs * mantissa : ℕ) : ℚ) * 2 ^ exponent)
      else ((nanos.natAbs * mantissa : ℕ) : ℚ) * 2 ^ exponent := by
  have magnitude : (nanos : ℚ) = if nanos < 0 then -(nanos.natAbs : ℚ) else nanos.natAbs := by
    split
    next neg => rw [Nat.cast_natAbs, abs_of_neg neg, Int.cast_neg, neg_neg]
    next nonneg => rw [Nat.cast_natAbs, abs_of_nonneg (not_lt.mp nonneg)]
  rw [magnitude]
  push_cast
  obtain rfl | rfl := unit <;> by_cases neg : nanos < 0 <;> simp [neg] <;> ring

theorem durationFromNanos_offset {offset exact : ℤ} (d : Duration)
    (same : offset = exact ∨ i128Max ≤ offset ∧ i128Max ≤ exact ∨
      offset ≤ -i128Max ∧ exact ≤ -i128Max) :
    durationFromNanos (saturate (saturate (offset * 1000) + d.nanos)) =
      durationFromNanos (1000 * exact + d.nanos) := by
  have bound := d.fits
  unfold FitsDuration Duration.minNanos Duration.maxNanos at bound
  unfold i128Max at same
  apply Duration.ext
  show max Duration.minNanos (min _ Duration.maxNanos) =
    max Duration.minNanos (min _ Duration.maxNanos)
  unfold Duration.minNanos Duration.maxNanos saturate i128Min i128Max
  omega

theorem hostToGhost_decoded {f : GhostXForm} {h : Duration} {mantissa : ℕ} {exponent sign : ℤ}
    (nonzero : h.nanos ≠ 0) (finite : f.slope.isFinite = true)
    (decoded : Binary64.integerDecode f.slope = (mantissa, exponent, sign)) :
    f.hostToGhost h = durationFromNanos (saturate (saturate
      ((if decide (h.nanos < 0) != decide (sign < 0) then
          -(microsMagnitude h.nanos.natAbs mantissa exponent : ℤ)
        else microsMagnitude h.nanos.natAbs mantissa exponent) * 1000) + f.intercept.nanos)) := by
  unfold hostToGhost
  simp only [if_neg nonzero, if_pos finite, decoded]
  rfl

theorem hostToGhost_exact (f : GhostXForm) (finite : f.slope.isFinite = true) (h : Duration) :
    f.hostToGhost h = durationFromNanos
      (1000 * roundHalfAway (h.nanos * Binary64.value f.slope / 1000) + f.intercept.nanos) := by
  by_cases zero : h.nanos = 0
  · unfold hostToGhost
    rw [if_pos zero, zero]
    simp
  · obtain ⟨⟨mantissa, exponent, sign⟩, decoded⟩ :
      ∃ d, Binary64.integerDecode f.slope = d := ⟨_, rfl⟩
    obtain ⟨short, -, -, unit, normal⟩ := Binary64.integerDecode_bounds decoded
    have size := h.natAbs_le
    have magnitude : (microsMagnitude h.nanos.natAbs mantissa exponent : ℤ) =
          roundHalfAway (((h.nanos.natAbs * mantissa : ℕ) : ℚ) / 1000 * 2 ^ exponent) ∨
        (microsMagnitude h.nanos.natAbs mantissa exponent : ℤ) = i128Max ∧
          i128Max ≤
            roundHalfAway (((h.nanos.natAbs * mantissa : ℕ) : ℚ) / 1000 * 2 ^ exponent) := by
      rcases lt_or_ge exponent 0 with neg | nonneg
      · obtain ⟨k, rfl⟩ : ∃ k : ℕ, exponent = -(k : ℤ) := ⟨exponent.natAbs, by omega⟩
        exact .inl (microsMagnitude_of_neg size short (by omega))
      · obtain ⟨k, rfl⟩ := Int.eq_ofNat_of_zero_le nonneg
        have exact := microsMagnitude_of_nonneg size short (by omega) (by omega) k
        omega
    rw [hostToGhost_decoded zero finite decoded, Binary64.value_eq decoded, mul_value_sign unit]
    generalize microsMagnitude h.nanos.natAbs mantissa exponent = computed at magnitude
    have scale (x : ℚ) : x * 2 ^ exponent / 1000 = x / 1000 * 2 ^ exponent := by ring
    split
    · rw [neg_div, roundHalfAway_neg, scale]
      exact durationFromNanos_offset _ (by omega)
    · rw [scale]
      exact durationFromNanos_offset _ (by omega)

section Wide

variable {lower upper : ℕ}

theorem shift_low {k : ℕ} (low : k ≤ 128) :
    (upper * 2 ^ 128 + lower) >>> k = upper * 2 ^ (128 - k) + lower >>> k := by
  have power : 2 ^ 128 = 2 ^ (128 - k) * 2 ^ k := by rw [← pow_add, Nat.sub_add_cancel low]
  rw [Nat.shiftRight_eq_div_pow, Nat.shiftRight_eq_div_pow, power, ← Nat.mul_assoc, Nat.add_comm,
    Nat.add_mul_div_right _ _ (by positivity), Nat.add_comm]

theorem shift_high (proper : lower < 2 ^ 128) {k : ℕ} (high : 128 ≤ k) :
    (upper * 2 ^ 128 + lower) >>> k = upper >>> (k - 128) := by
  have word := @shift_low lower upper 128 (le_refl 128)
  rw [Nat.sub_self, pow_zero, Nat.mul_one, Nat.shiftRight_eq_div_pow lower,
    Nat.div_eq_of_lt proper, Nat.add_zero] at word
  rw [show k = 128 + (k - 128) by omega, Nat.shiftRight_add, word, Nat.add_sub_cancel_left]

theorem shift_joined (proper : lower < 2 ^ 128) {k : ℕ} (positive : 0 < k) (low : k < 128)
    (inside : upper >>> k = 0) :
    (lower >>> k) ||| (upper <<< (128 - k) % 2 ^ 128) = (upper * 2 ^ 128 + lower) >>> k := by
  have small : upper < 2 ^ k := by
    rw [Nat.shiftRight_eq_div_pow] at inside
    exact (Nat.div_eq_zero_iff_lt (by positivity)).mp inside
  have power : 2 ^ 128 = 2 ^ k * 2 ^ (128 - k) := by rw [← pow_add]; congr 1; omega
  have fits : upper * 2 ^ (128 - k) < 2 ^ 128 := by
    rw [power]
    exact Nat.mul_lt_mul_of_pos_right small (by positivity)
  have rest : lower >>> k < 2 ^ (128 - k) := by
    rw [Nat.shiftRight_eq_div_pow, Nat.div_lt_iff_lt_mul (by positivity), Nat.mul_comm, ← power]
    exact proper
  rw [shift_low low.le, Nat.shiftLeft_eq, Nat.mod_eq_of_lt fits, Nat.or_comm,
    Nat.mul_comm upper, ← Nat.two_pow_add_eq_or_of_lt rest]

theorem roundBit (proper : lower < 2 ^ 128) (small : upper < 2 ^ 8) {k : ℕ} (positive : 0 < k) :
    (if (if 1 ≤ k ∧ k ≤ 128 then decide (lower >>> (k - 1) &&& 1 ≠ 0)
        else if 129 ≤ k ∧ k ≤ 256 then decide (upper >>> (k - 129) &&& 1 ≠ 0)
        else false) = true then 1 else 0) = (upper * 2 ^ 128 + lower) >>> (k - 1) % 2 := by
  have bit (n : ℕ) : (if decide (n &&& 1 ≠ 0) = true then 1 else 0) = n % 2 := by
    rw [Nat.and_one_is_mod]
    simp only [decide_eq_true_eq]
    split <;> omega
  by_cases low : k ≤ 128
  · simp only [if_pos (show 1 ≤ k ∧ k ≤ 128 from ⟨positive, low⟩)]
    rw [bit, shift_low (by omega)]
    have even : 2 ^ (128 - (k - 1)) = 2 * 2 ^ (128 - k) := by
      rw [← pow_succ']
      congr 1
      omega
    rw [even, Nat.mul_left_comm, Nat.mul_add_mod]
  · simp only [if_neg (show ¬(1 ≤ k ∧ k ≤ 128) by omega)]
    rw [shift_high proper (by omega), show k - 1 - 128 = k - 129 by omega]
    by_cases high : 129 ≤ k ∧ k ≤ 256
    · simp only [if_pos high]
      exact bit _
    · simp only [if_neg high]
      have : upper >>> (k - 129) = 0 := by
        rw [Nat.shiftRight_eq_div_pow]
        exact Nat.div_eq_of_lt (small.trans_le (Nat.pow_le_pow_right two_pos (by omega)))
      rw [this]
      rfl

theorem productMagnitude_of_neg (proper : lower < 2 ^ 128) (small : upper < 2 ^ 8) {k : ℕ}
    (positive : 0 < k) :
    productMagnitude lower upper (-(k : ℤ)) =
      min (Binary64.roundScaled (upper * 2 ^ 128 + lower) (-(k : ℤ))) u128Max := by
  rw [roundScaled_bits _ positive, ← roundBit proper small positive]
  unfold productMagnitude
  simp only [if_pos (show -(k : ℤ) < 0 by omega), Int.natAbs_neg, Int.natAbs_natCast]
  generalize (if (if 1 ≤ k ∧ k ≤ 128 then _ else _) = true then 1 else 0 : ℕ) = up
  split
  next overflow =>
    have large : 2 ^ 128 ≤ (upper * 2 ^ 128 + lower) >>> k := by
      rw [shift_low overflow.1.le]
      have least : 2 ^ k ≤ upper := by
        by_contra less
        refine overflow.2 ?_
        rw [Nat.shiftRight_eq_div_pow]
        exact Nat.div_eq_of_lt (by omega)
      calc 2 ^ 128 = 2 ^ k * 2 ^ (128 - k) := by rw [← pow_add]; congr 1; omega
        _ ≤ upper * 2 ^ (128 - k) := Nat.mul_le_mul_right _ least
        _ ≤ _ := Nat.le_add_right _ _
    unfold u128Max
    omega
  next inside =>
    have whole : (if 1 ≤ k ∧ k ≤ 127 then (lower >>> k) ||| (upper <<< (128 - k) % 2 ^ 128)
        else if k = 128 then upper
        else if 129 ≤ k ∧ k ≤ 255 then upper >>> (k - 128) else 0) =
        (upper * 2 ^ 128 + lower) >>> k := by
      split
      next low => exact shift_joined proper positive (by omega) (by
        by_contra more
        exact inside ⟨by omega, more⟩)
      next =>
        split
        next word => rw [word, shift_high proper (le_refl _), Nat.sub_self, Nat.shiftRight_zero]
        next =>
          rw [shift_high proper (by omega)]
          split
          next => rfl
          next =>
            rw [Nat.shiftRight_eq_div_pow]
            exact (Nat.div_eq_of_lt
              (small.trans_le (Nat.pow_le_pow_right two_pos (by omega)))).symm
    rw [whole]
    unfold saturateU
    omega

theorem productMagnitude_of_nonneg (proper : lower < 2 ^ 128)
    (positive : 0 < upper * 2 ^ 128 + lower) (k : ℕ) :
    productMagnitude lower upper k =
      min (Binary64.roundScaled (upper * 2 ^ 128 + lower) k) u128Max := by
  have unit : 0 < 2 ^ k := by positivity
  rw [roundScaled_of_nonneg]
  unfold productMagnitude
  simp only [if_neg (show ¬(k : ℤ) < 0 by omega), Int.toNat_natCast]
  split
  next far =>
    have large : 2 ^ 128 ≤ (upper * 2 ^ 128 + lower) * 2 ^ k := by
      obtain high | wide | long := far
      · calc 2 ^ 128 = 2 ^ 128 * 1 := by norm_num
          _ ≤ (upper * 2 ^ 128 + lower) * 2 ^ k := Nat.mul_le_mul (by omega) unit
      · calc 2 ^ 128 ≤ 2 ^ k := Nat.pow_le_pow_right two_pos wide
          _ = 1 * 2 ^ k := (Nat.one_mul _).symm
          _ ≤ (upper * 2 ^ 128 + lower) * 2 ^ k := Nat.mul_le_mul_right _ positive
      · rw [Nat.shiftRight_eq_div_pow, gt_iff_lt, Nat.div_lt_iff_lt_mul unit] at long
        calc 2 ^ 128 ≤ lower * 2 ^ k := by unfold u128Max at long; omega
          _ ≤ (upper * 2 ^ 128 + lower) * 2 ^ k := Nat.mul_le_mul_right _ (by omega)
    unfold u128Max
    omega
  next near =>
    simp only [not_or, not_not] at near
    obtain ⟨rfl, -, short⟩ := near
    rw [Nat.shiftRight_eq_div_pow, not_lt, Nat.le_div_iff_mul_le unit] at short
    rw [Nat.zero_mul, Nat.zero_add, Nat.shiftLeft_eq]
    omega

theorem productMagnitude_exact (proper : lower < 2 ^ 128) (small : upper < 2 ^ 8) {exponent : ℤ}
    (normal : exponent < 0 ∨ 0 < upper * 2 ^ 128 + lower) :
    (productMagnitude lower upper exponent : ℤ) =
      min (roundHalfAway (((upper * 2 ^ 128 + lower : ℕ) : ℚ) * 2 ^ exponent)) u128Max := by
  rw [roundHalfAway_scaled]
  rcases lt_or_ge exponent 0 with neg | nonneg
  · obtain ⟨k, rfl⟩ : ∃ k : ℕ, exponent = -(k : ℤ) := ⟨exponent.natAbs, by omega⟩
    rw [productMagnitude_of_neg proper small (by omega)]
    push_cast
    rfl
  · obtain ⟨k, rfl⟩ := Int.eq_ofNat_of_zero_le nonneg
    rw [productMagnitude_of_nonneg proper (by omega)]
    push_cast
    rfl

theorem productMagnitude_le (exponent : ℤ) :
    productMagnitude lower upper exponent ≤ u128Max := by
  unfold productMagnitude
  dsimp only
  split
  next =>
    split
    next => exact le_refl _
    next => exact Nat.min_le_right _ _
  next =>
    split
    next => exact le_refl _
    next near =>
      simp only [not_or, not_lt] at near
      rw [Nat.shiftLeft_eq]
      exact (Nat.le_div_iff_mul_le (Nat.two_pow_pos _)).mp
        (Nat.shiftRight_eq_div_pow _ _ ▸ near.2.2)

end Wide

/-- The partial products that start in the lower word. -/
def wordSum (magnitude mantissa : Nat) : Nat :=
  magnitude % 2 ^ 64 * mantissa + (magnitude >>> 64 * mantissa) <<< 64 % 2 ^ 128

def lowerWord (magnitude mantissa : Nat) : Nat := wordSum magnitude mantissa % 2 ^ 128

def upperWord (magnitude mantissa : Nat) : Nat :=
  (magnitude >>> 64 * mantissa) >>> 64 + wordSum magnitude mantissa / 2 ^ 128

theorem lowerWord_lt (magnitude mantissa : ℕ) : lowerWord magnitude mantissa < 2 ^ 128 :=
  Nat.mod_lt _ (Nat.two_pow_pos 128)

theorem words_eq (magnitude mantissa : ℕ) :
    upperWord magnitude mantissa * 2 ^ 128 + lowerWord magnitude mantissa =
      magnitude * mantissa := by
  have product : magnitude % 2 ^ 64 * mantissa + magnitude >>> 64 * mantissa * 2 ^ 64 =
      magnitude * mantissa := by
    calc magnitude % 2 ^ 64 * mantissa + magnitude >>> 64 * mantissa * 2 ^ 64
        = (2 ^ 64 * (magnitude / 2 ^ 64) + magnitude % 2 ^ 64) * mantissa := by
          rw [Nat.shiftRight_eq_div_pow]
          ring
      _ = magnitude * mantissa := by rw [Nat.div_add_mod]
  have carried := Nat.div_add_mod (wordSum magnitude mantissa) (2 ^ 128)
  have sum : wordSum magnitude mantissa = magnitude % 2 ^ 64 * mantissa +
      magnitude >>> 64 * mantissa * 2 ^ 64 % 2 ^ 128 := by
    unfold wordSum
    rw [Nat.shiftLeft_eq]
  unfold upperWord lowerWord
  rw [Nat.shiftRight_eq_div_pow (magnitude >>> 64 * mantissa)]
  generalize wordSum magnitude mantissa = total at carried sum
  generalize magnitude >>> 64 * mantissa = high at product sum
  omega

theorem upperWord_lt {magnitude mantissa : ℕ} (size : magnitude ≤ 2 ^ 83)
    (short : mantissa < 2 ^ 53) : upperWord magnitude mantissa < 2 ^ 8 := by
  have words := words_eq magnitude mantissa
  have bound := product_lt size short
  omega

/-- A signed sum in sign and magnitude, cut off at the `i128` limits. -/
def signedSum (magnitude : Nat) (negative : Bool) (intercept : Int) : Int :=
  let (magnitude, negative) :=
    if negative = decide (intercept < 0) then
      (saturateU (magnitude + intercept.natAbs), negative)
    else if magnitude ≥ intercept.natAbs then (magnitude - intercept.natAbs, negative)
    else (intercept.natAbs - magnitude, !negative)
  let magnitude := min magnitude (i128Max.toNat + if negative then 1 else 0)
  if negative then
    if (magnitude : Int) > i128Max then i128Min else -magnitude
  else magnitude

theorem signedSum_eq {magnitude exact : ℕ} (cut : magnitude = min exact u128Max) (negative : Bool)
    (intercept : Duration) :
    signedSum magnitude negative intercept.nanos =
      saturate ((if negative then -(exact : ℤ) else exact) + intercept.nanos) := by
  have size := intercept.natAbs_le
  generalize intercept.nanos = offset at size
  have limit : i128Max.toNat = 2 ^ 127 - 1 := by decide
  have limits : i128Min = -2 ^ 127 ∧ i128Max = 2 ^ 127 - 1 ∧ u128Max = 2 ^ 128 - 1 :=
    ⟨rfl, rfl, rfl⟩
  unfold signedSum saturateU saturate
  rw [limit]
  by_cases below : offset < 0 <;> by_cases more : magnitude ≥ offset.natAbs <;> cases negative <;>
    simp only [below, more, decide_true, decide_false, Bool.false_eq_true, Bool.true_eq_false,
      Bool.not_true, Bool.not_false, if_true, if_false] <;>
    omega

theorem hostToGhostWideNanos_decoded {f : GhostXForm} {h : Duration} {mantissa : ℕ}
    {exponent sign : ℤ} (nonzero : h.nanos ≠ 0) (finite : f.slope.isFinite = true)
    (decoded : Binary64.integerDecode f.slope = (mantissa, exponent, sign)) :
    f.hostToGhostWideNanos h = signedSum
      (productMagnitude (lowerWord h.nanos.natAbs mantissa) (upperWord h.nanos.natAbs mantissa)
        exponent)
      (decide (h.nanos < 0) != decide (sign < 0)) f.intercept.nanos := by
  unfold hostToGhostWideNanos
  rw [if_neg (not_or.mpr ⟨nonzero, not_not.mpr finite⟩), decoded]
  rfl

theorem hostToGhostWideNanos_exact (f : GhostXForm) (finite : f.slope.isFinite = true)
    (h : Duration) :
    f.hostToGhostWideNanos h =
      saturate (roundHalfAway (h.nanos * Binary64.value f.slope) + f.intercept.nanos) := by
  by_cases zero : h.nanos = 0
  · have direct : f.hostToGhostWideNanos h = (f.hostToGhost h).nanos := by
      unfold hostToGhostWideNanos
      exact if_pos (.inl zero)
    have intercept : f.hostToGhost h = f.intercept := by
      unfold hostToGhost
      exact if_pos zero
    rw [direct, intercept, zero, Int.cast_zero, zero_mul, roundHalfAway_zero, zero_add,
      saturate_of_fits f.intercept.fits.i128]
  · obtain ⟨⟨mantissa, exponent, sign⟩, decoded⟩ :
      ∃ d, Binary64.integerDecode f.slope = d := ⟨_, rfl⟩
    obtain ⟨short, -, -, unit, normal⟩ := Binary64.integerDecode_bounds decoded
    have words := words_eq h.nanos.natAbs mantissa
    have positive : exponent < 0 ∨ 0 < h.nanos.natAbs * mantissa := by
      rcases lt_or_ge exponent 0 with neg | nonneg
      · exact .inl neg
      · exact .inr (Nat.mul_pos (by omega) (by omega))
    rw [hostToGhostWideNanos_decoded zero finite decoded, Binary64.value_eq decoded,
      mul_value_sign unit]
    rw [← words] at positive
    have magnitude := productMagnitude_exact (lowerWord_lt h.nanos.natAbs mantissa)
      (upperWord_lt h.natAbs_le short) positive
    rw [words] at magnitude
    have nonneg : 0 ≤ roundHalfAway (((h.nanos.natAbs * mantissa : ℕ) : ℚ) * 2 ^ exponent) :=
      roundHalfAway_nonneg (mul_nonneg (Nat.cast_nonneg _) (zpow_nonneg zero_le_two _))
    obtain ⟨exact, rounded⟩ := Int.eq_ofNat_of_zero_le nonneg
    rw [rounded] at magnitude
    have cut : productMagnitude (lowerWord h.nanos.natAbs mantissa)
        (upperWord h.nanos.natAbs mantissa) exponent = min exact u128Max := by
      exact_mod_cast magnitude
    rw [signedSum_eq cut, apply_ite roundHalfAway, roundHalfAway_neg, rounded]

end GhostXForm

end AbletonLink.Link
