import AbletonLink.Library.HalfAway
import AbletonLink.Link.Tempo

/-! Times and beats are converted into one another by one exact rounding. -/

namespace AbletonLink.Link

open Library Library.MachineInt

def checkedRoundRatio (numerator denominator : Int) : Option Int :=
  if denominator = 0 then some (roundRatio numerator denominator)
  else do
    let quotient ← checked (numerator.tdiv denominator)
    let remainder := numerator.tmod denominator
    if remainder.natAbs ≥ (denominator.natAbs + 1) / 2 then
      checked (quotient + (if (decide (numerator < 0)) = (decide (denominator < 0)) then 1 else -1))
    else some quotient

theorem roundRatio_natCast (a : ℕ) {b : ℕ} (positive : 0 < b) :
    roundRatio a b = roundHalfAway ((a : ℚ) / b) := by
  rw [roundHalfAway_nat_div a positive]
  unfold roundRatio
  rw [if_neg (by omega), ← Int.ofNat_tdiv, ← Int.ofNat_tmod]
  simp only [Int.natAbs_natCast, ge_iff_le, show ¬((a : ℤ) < 0) by omega,
    show ¬((b : ℤ) < 0) by omega, decide_false,
    if_true]
  split
  · push_cast
    rfl
  · push_cast
    omega

theorem roundRatio_neg_left (n : ℤ) {d : ℤ} (nonzero : d ≠ 0) :
    roundRatio (-n) d = -roundRatio n d := by
  unfold roundRatio
  rw [if_neg nonzero, if_neg nonzero, Int.neg_tdiv, Int.neg_tmod]
  simp only [Int.natAbs_neg]
  by_cases up : (n.tmod d).natAbs ≥ (d.natAbs + 1) / 2
  · -- A remainder is left, so the numerator has a sign.
    have sign : n ≠ 0 := by
      rintro rfl
      rw [Int.zero_tmod] at up
      omega
    have flip : decide (-n < 0) = !decide (n < 0) := by
      rw [← decide_not]
      congr 1
      exact propext (by omega)
    rw [if_pos up, if_pos up, flip]
    cases decide (n < 0) <;> cases decide (d < 0) <;> simp <;> omega
  · rw [if_neg up, if_neg up]

theorem roundRatio_neg_right (n : ℤ) {d : ℤ} (nonzero : d ≠ 0) :
    roundRatio n (-d) = -roundRatio n d := by
  unfold roundRatio
  rw [if_neg (neg_ne_zero.mpr nonzero), if_neg nonzero, Int.tdiv_neg, Int.tmod_neg]
  simp only [Int.natAbs_neg]
  have flip : decide (-d < 0) = !decide (d < 0) := by
    rw [← decide_not]
    congr 1
    exact propext (by omega)
  rw [flip]
  split
  · cases decide (n < 0) <;> cases decide (d < 0) <;> simp <;> omega
  · rfl

theorem roundRatio_eq (n : ℤ) {d : ℤ} (nonzero : d ≠ 0) :
    roundRatio n d = roundHalfAway ((n : ℚ) / d) := by
  obtain ⟨b, rfl | rfl⟩ := Int.eq_nat_or_neg d
  · have positive : 0 < b := by omega
    obtain ⟨a, rfl | rfl⟩ := Int.eq_nat_or_neg n
    · rw [roundRatio_natCast a positive, Int.cast_natCast, Int.cast_natCast]
    · rw [roundRatio_neg_left _ nonzero, roundRatio_natCast a positive, ← roundHalfAway_neg]
      push_cast
      rw [neg_div]
  · have positive : 0 < b := by omega
    have divisor : (b : ℤ) ≠ 0 := by omega
    obtain ⟨a, rfl | rfl⟩ := Int.eq_nat_or_neg n
    · rw [roundRatio_neg_right _ divisor, roundRatio_natCast a positive, ← roundHalfAway_neg]
      push_cast
      rw [div_neg]
    · rw [roundRatio_neg_right _ divisor, roundRatio_neg_left _ divisor,
        roundRatio_natCast a positive, neg_neg]
      push_cast
      rw [neg_div_neg_eq]

theorem checkedRoundRatio_eq {n d : ℤ} (fits : FitsI128 n) (notLeast : n ≠ i128Min) :
    checkedRoundRatio n d = some (roundRatio n d) := by
  unfold checkedRoundRatio
  by_cases zero : d = 0
  · rw [if_pos zero]
  have size : (n.tdiv d).natAbs = n.natAbs / d.natAbs := Int.natAbs_tdiv n d
  have small : (n.tdiv d).natAbs ≤ n.natAbs := size ▸ Nat.div_le_self _ _
  unfold FitsI128 i128Min i128Max at fits
  unfold i128Min at notLeast
  have quotient : FitsI128 (n.tdiv d) := by
    unfold FitsI128 i128Min i128Max
    omega
  unfold roundRatio
  simp only [if_neg zero, checked_of_fits quotient, Option.bind_eq_bind, Option.bind_some]
  split
  next up =>
    have rest : (n.tmod d).natAbs < d.natAbs := by
      rw [Int.natAbs_tmod]
      exact Nat.mod_lt _ (by omega)
    have halved : (n.tdiv d).natAbs ≤ n.natAbs / 2 := by
      rw [size]
      exact Nat.div_le_div_left (by omega) (by decide)
    refine checked_of_fits ?_
    unfold FitsI128 i128Min i128Max
    split <;> omega
  next => rfl

theorem natAbs_roundRatio_le (n : ℤ) {d : ℤ} (nonzero : d ≠ 0) :
    (roundRatio n d).natAbs ≤ n.natAbs := by
  have bound : |(n : ℚ) / d| ≤ (n.natAbs : ℤ) := by
    rw [Int.natCast_natAbs, abs_div, Int.cast_abs]
    exact div_le_self (abs_nonneg _) (by exact_mod_cast Int.one_le_abs nonzero)
  obtain ⟨low, high⟩ := abs_le.mp (abs_roundHalfAway_le bound)
  rw [roundRatio_eq n nonzero]
  omega

theorem fits_roundRatio {n d : ℤ} (nonzero : d ≠ 0) (fits : FitsI128 n) (notLeast : n ≠ i128Min) :
    FitsI128 (roundRatio n d) := by
  have less := natAbs_roundRatio_le n nonzero
  unfold FitsI128 i128Min i128Max at fits
  unfold i128Min at notLeast
  exact .of_natAbs_lt (by omega)

section Product

variable (b p : ℤ) {scale : ℤ}

theorem product_parts (positive : 0 < scale) :
    (0 ≤ b.tdiv scale * p ∧ 0 ≤ b.tmod scale * p.tdiv scale ∧ 0 ≤ b.tmod scale * p.tmod scale) ∨
      (b.tdiv scale * p ≤ 0 ∧ b.tmod scale * p.tdiv scale ≤ 0 ∧
        b.tmod scale * p.tmod scale ≤ 0) := by
  have below {x : ℤ} (h : 0 ≤ x) : 0 ≤ x.tdiv scale ∧ 0 ≤ x.tmod scale :=
    ⟨Int.tdiv_nonneg h positive.le, Int.tmod_nonneg _ h⟩
  have above {x : ℤ} (h : x ≤ 0) : x.tdiv scale ≤ 0 ∧ x.tmod scale ≤ 0 := by
    have mirrored := below (show 0 ≤ -x by omega)
    rw [Int.neg_tdiv, Int.neg_tmod] at mirrored
    omega
  rcases le_total 0 b with hb | hb <;> rcases le_total 0 p with hp | hp
  · exact .inl ⟨mul_nonneg (below hb).1 hp, mul_nonneg (below hb).2 (below hp).1,
      mul_nonneg (below hb).2 (below hp).2⟩
  · exact .inr ⟨mul_nonpos_of_nonneg_of_nonpos (below hb).1 hp,
      mul_nonpos_of_nonneg_of_nonpos (below hb).2 (above hp).1,
      mul_nonpos_of_nonneg_of_nonpos (below hb).2 (above hp).2⟩
  · exact .inr ⟨mul_nonpos_of_nonpos_of_nonneg (above hb).1 hp,
      mul_nonpos_of_nonpos_of_nonneg (above hb).2 (below hp).1,
      mul_nonpos_of_nonpos_of_nonneg (above hb).2 (below hp).2⟩
  · exact .inl ⟨mul_nonneg_of_nonpos_of_nonpos (above hb).1 hp,
      mul_nonneg_of_nonpos_of_nonpos (above hb).2 (above hp).1,
      mul_nonneg_of_nonpos_of_nonpos (above hb).2 (above hp).2⟩

/-- A product is divided by `scale` in three parts, saturated one by one and rounded in the
last. -/
theorem saturated_product (positive : 0 < scale) :
    saturate (saturate (saturate (b.tdiv scale * p) + saturate (b.tmod scale * p.tdiv scale)) +
        roundRatio (b.tmod scale * p.tmod scale) scale) =
      saturate (roundHalfAway ((b : ℚ) * p / scale)) := by
  have hscale : (0 : ℚ) < scale := by exact_mod_cast positive
  have whole : (b : ℚ) * p / scale = ((b.tdiv scale * p + b.tmod scale * p.tdiv scale : ℤ) : ℚ) +
      ((b.tmod scale * p.tmod scale : ℤ) : ℚ) / scale := by
    have hb : (b : ℚ) = scale * b.tdiv scale + b.tmod scale := by
      exact_mod_cast (Int.mul_tdiv_add_tmod b scale).symm
    have hp : (p : ℚ) = scale * p.tdiv scale + p.tmod scale := by
      exact_mod_cast (Int.mul_tdiv_add_tmod p scale).symm
    push_cast
    rw [div_eq_iff hscale.ne', add_mul, div_mul_cancel₀ _ hscale.ne']
    linear_combination (p : ℚ) * hb + (b.tmod scale : ℚ) * hp
  rw [whole, roundRatio_eq _ positive.ne']
  obtain ⟨first, second, third⟩ | ⟨first, second, third⟩ := product_parts b p positive
  · have last : (0 : ℚ) ≤ ((b.tmod scale * p.tmod scale : ℤ) : ℚ) / scale :=
      div_nonneg (by exact_mod_cast third) hscale.le
    have sum : 0 ≤ b.tdiv scale * p + b.tmod scale * p.tdiv scale := add_nonneg first second
    rw [saturate_add (.inl ⟨first, second⟩),
      saturate_add_left (.inl ⟨sum, roundHalfAway_nonneg last⟩),
      roundHalfAway_int_add (.inl ⟨sum, last⟩)]
  · have last : ((b.tmod scale * p.tmod scale : ℤ) : ℚ) / scale ≤ 0 :=
      div_nonpos_of_nonpos_of_nonneg (by exact_mod_cast third) hscale.le
    have sum : b.tdiv scale * p + b.tmod scale * p.tdiv scale ≤ 0 := add_nonpos first second
    rw [saturate_add (.inr ⟨first, second⟩),
      saturate_add_left (.inr ⟨sum, roundHalfAway_nonpos last⟩),
      roundHalfAway_int_add (.inr ⟨sum, last⟩)]

theorem remainders_product (positive : 0 < scale) (small : scale ≤ 1000000) :
    FitsI128 (b.tmod scale * p.tmod scale) ∧ b.tmod scale * p.tmod scale ≠ i128Min := by
  have rest (x : ℤ) : |x.tmod scale| ≤ 1000000 := by
    have := Int.natAbs_tmod x scale
    have := Nat.mod_lt x.natAbs (show 0 < scale.natAbs by omega)
    exact abs_le.mpr ⟨by omega, by omega⟩
  have size : |b.tmod scale * p.tmod scale| ≤ 1000000 * 1000000 := by
    rw [abs_mul]
    exact mul_le_mul (rest b) (rest p) (abs_nonneg _) (by decide)
  obtain ⟨low, high⟩ := abs_le.mp size
  unfold FitsI128 i128Min i128Max
  omega

end Product

namespace Tempo

def checkedMicrosFromMicrobeats (t : Tempo) (beats : Int) : Option Int := do
  let period := t.periodMicros
  let product ← checked (beats.tmod 1000000 * period.tmod 1000000)
  return saturate (saturate (saturate (beats.tdiv 1000000 * period) +
      saturate (beats.tmod 1000000 * period.tdiv 1000000)) +
    (← checkedRoundRatio product 1000000))

def checkedNanosFromMicrobeats (t : Tempo) (beats : Int) : Option Int := do
  let period := t.periodMicros
  let product ← checked (beats.tmod 1000 * period.tmod 1000)
  return saturate (saturate (saturate (beats.tdiv 1000 * period) +
      saturate (beats.tmod 1000 * period.tdiv 1000)) +
    (← checkedRoundRatio product 1000))

variable (t : Tempo)

theorem microsFromMicrobeats_eq (beats : ℤ) :
    t.microsFromMicrobeats beats =
      saturate (roundHalfAway ((beats : ℚ) * t.periodMicros / 1000000)) :=
  mod_cast saturated_product beats t.periodMicros (show (0 : ℤ) < 1000000 by decide)

theorem nanosFromMicrobeats_eq (beats : ℤ) :
    t.nanosFromMicrobeats beats = saturate (roundHalfAway ((beats : ℚ) * t.periodMicros / 1000)) :=
  mod_cast saturated_product beats t.periodMicros (show (0 : ℤ) < 1000 by decide)

theorem checkedMicrosFromMicrobeats_eq (beats : ℤ) :
    t.checkedMicrosFromMicrobeats beats = some (t.microsFromMicrobeats beats) := by
  obtain ⟨fits, notLeast⟩ := remainders_product beats t.periodMicros
    (show (0 : ℤ) < 1000000 by decide) (by decide)
  simp only [checkedMicrosFromMicrobeats, checked_of_fits fits,
    checkedRoundRatio_eq fits notLeast, Option.bind_eq_bind, Option.bind_some]
  rfl

theorem checkedNanosFromMicrobeats_eq (beats : ℤ) :
    t.checkedNanosFromMicrobeats beats = some (t.nanosFromMicrobeats beats) := by
  obtain ⟨fits, notLeast⟩ := remainders_product beats t.periodMicros
    (show (0 : ℤ) < 1000 by decide) (by decide)
  simp only [checkedNanosFromMicrobeats, checked_of_fits fits,
    checkedRoundRatio_eq fits notLeast, Option.bind_eq_bind, Option.bind_some]
  rfl

end Tempo

def checkedDivideBit (denominator remainder : Nat) (acc : Nat × Nat) (bit : Nat) :
    Option (Nat × Nat) := do
  let (fraction, residue) := acc
  let fraction ← checkedU (fraction * 2)
  let gap ← checkedU (denominator - residue)
  let (fraction, residue) ←
    if residue ≥ gap then do pure (← checkedU (fraction + 1), ← checkedU (residue - gap))
    else do pure (fraction, ← checkedU (residue * 2))
  if (1000 >>> bit) &&& 1 ≠ 0 then do
    let gap ← checkedU (denominator - remainder)
    if residue ≥ gap then do pure (← checkedU (fraction + 1), ← checkedU (residue - gap))
    else do pure (fraction, ← checkedU (residue + remainder))
  else pure (fraction, residue)

/-- The part of `microbeats_from_nanos` behind a product that does not fit, with its plain
operations checked. -/
def checkedLongDivision (period nanos : Int) : Option Int := do
  let negative := decide (nanos < 0) != decide (period < 0)
  let magnitude := nanos.natAbs
  let denominator := period.natAbs
  let remainder := magnitude % denominator
  let (fraction, residue) ←
    [9, 8, 7, 6, 5, 4, 3, 2, 1, 0].foldlM (checkedDivideBit denominator remainder) (0, 0)
  let rounded := saturateU (saturateU (saturateU (magnitude / denominator * 1000) + fraction) +
    if residue ≥ (denominator + 1) / 2 then 1 else 0)
  let bounded : Int := min rounded i128Max
  if negative then (if (rounded : Int) > i128Max then some i128Min else checked (-bounded))
  else some bounded

def Tempo.checkedMicrobeatsFromNanos (t : Tempo) (nanos : Int) : Option Int :=
  let period := t.periodMicros
  if period = 0 then checkedRoundRatio nanos period
  else
    match checked (nanos * 1000) with
    | some scaled => checkedRoundRatio scaled period
    | none => checkedLongDivision period nanos

section LongDivision

variable {denominator remainder : ℕ}

/-- `fraction` and `residue` are quotient and remainder of `v * remainder`. -/
structure Divided (denominator remainder v : ℕ) (acc : ℕ × ℕ) : Prop where
  proper : acc.2 < denominator
  parts : acc.1 * denominator + acc.2 = v * remainder

theorem Divided.fraction_le {v : ℕ} {acc : ℕ × ℕ} (h : Divided denominator remainder v acc)
    (rest : remainder < denominator) : acc.1 ≤ v := by
  have bound : acc.1 * denominator ≤ v * denominator :=
    calc acc.1 * denominator ≤ v * remainder := by have := h.parts; omega
      _ ≤ v * denominator := Nat.mul_le_mul_left v rest.le
  exact Nat.le_of_mul_le_mul_right bound (by omega)

theorem Divided.divideBit {v : ℕ} {acc : ℕ × ℕ} (h : Divided denominator remainder v acc)
    (rest : remainder < denominator) (bit : ℕ) :
    Divided denominator remainder (2 * v + ((1000 >>> bit) &&& 1))
      (Tempo.divideBit denominator remainder acc bit) := by
  obtain ⟨fraction, residue⟩ := acc
  have proper : residue < denominator := h.proper
  have parts : fraction * denominator + residue = v * remainder := h.parts
  have twice : (fraction * 2) * denominator = 2 * (fraction * denominator) := by ring
  have once : (fraction * 2 + 1) * denominator = 2 * (fraction * denominator) + denominator := by
    ring
  have both : (fraction * 2 + 1 + 1) * denominator =
      2 * (fraction * denominator) + 2 * denominator := by ring
  have clear : (2 * v + 0) * remainder = 2 * (v * remainder) := by ring
  have set : (2 * v + 1) * remainder = 2 * (v * remainder) + remainder := by ring
  obtain zero | one : (1000 >>> bit) &&& 1 = 0 ∨ (1000 >>> bit) &&& 1 = 1 := by
    rw [Nat.and_one_is_mod]
    omega
  · rw [zero]
    simp only [Tempo.divideBit, zero, ne_eq, not_true_eq_false, if_false]
    split <;> constructor <;> simp only [clear] <;> omega
  · rw [one]
    simp only [Tempo.divideBit, one, ne_eq, one_ne_zero, not_false_eq_true, if_true]
    split <;> split <;> constructor <;> simp only [set] <;> omega

theorem checkedDivideBit_eq {v : ℕ} {acc : ℕ × ℕ} (h : Divided denominator remainder v acc)
    (rest : remainder < denominator) (small : v ≤ 1000) (fits : denominator ≤ 2 ^ 127) (bit : ℕ) :
    checkedDivideBit denominator remainder acc bit =
      some (Tempo.divideBit denominator remainder acc bit) := by
  have bound := h.fraction_le rest
  obtain ⟨fraction, residue⟩ := acc
  have proper : residue < denominator := h.proper
  have gap {x y : ℕ} (order : y ≤ x) (small : x ≤ 2 ^ 127) :
      checkedU ((x : ℤ) - y) = some (x - y) := by
    rw [← Nat.cast_sub order]
    exact checkedU_of_le (by unfold u128Max; omega)
  have sum {x y : ℕ} (small : x + y ≤ 2 ^ 128 - 1) : checkedU ((x : ℤ) + y) = some (x + y) := by
    rw [← Nat.cast_add]
    exact checkedU_of_le small
  have double {x : ℕ} (small : x ≤ 2 ^ 127 - 1) : checkedU ((x : ℤ) * 2) = some (x * 2) := by
    exact_mod_cast checkedU_of_le (n := x * 2) (by unfold u128Max; omega)
  have increment {x : ℕ} (small : x ≤ 2 ^ 127) : checkedU ((x : ℤ) + 1) = some (x + 1) :=
    sum (y := 1) (by omega)
  unfold checkedDivideBit Tempo.divideBit
  simp only [double (show fraction ≤ 2 ^ 127 - 1 by omega), gap proper.le fits, gap rest.le fits,
    Option.bind_eq_bind, Option.bind_some, Option.pure_def]
  split
  next carry =>
    rw [increment (by omega), gap carry (by omega)]
    simp only [Option.bind_some]
    split
    next =>
      split
      next carry' =>
        rw [increment (by omega), gap carry' (by omega)]
        rfl
      next =>
        rw [sum (by omega)]
        rfl
    next => rfl
  next =>
    rw [double (by omega)]
    simp only [Option.bind_some]
    split
    next =>
      split
      next carry' =>
        rw [increment (by omega), gap carry' (by omega)]
        rfl
      next =>
        rw [sum (by omega)]
        rfl
    next => rfl

theorem longDivision_run {n : ℕ} {acc : ℕ × ℕ} (h : Divided denominator remainder (1000 >>> n) acc)
    (rest : remainder < denominator) (fits : denominator ≤ 2 ^ 127) :
    Divided denominator remainder 1000
        ((List.range n).reverse.foldl (Tempo.divideBit denominator remainder) acc) ∧
      (List.range n).reverse.foldlM (checkedDivideBit denominator remainder) acc =
        some ((List.range n).reverse.foldl (Tempo.divideBit denominator remainder) acc) := by
  induction n generalizing acc with
  | zero => exact ⟨h, rfl⟩
  | succ n ih =>
    have next : Divided denominator remainder (1000 >>> n)
        (Tempo.divideBit denominator remainder acc n) := by
      have step := h.divideBit rest n
      rwa [Nat.and_one_is_mod, Nat.shiftRight_succ, Nat.div_add_mod] at step
    have small : 1000 >>> (n + 1) ≤ 1000 := by
      rw [Nat.shiftRight_eq_div_pow]
      exact Nat.div_le_self _ _
    obtain ⟨divided, checked⟩ := ih next
    rw [List.range_succ, List.reverse_append]
    simp only [List.reverse_singleton, List.singleton_append, List.foldl_cons, List.foldlM_cons,
      checkedDivideBit_eq h rest small fits]
    exact ⟨divided, checked⟩

end LongDivision

def longDivision (period nanos : Int) : Int :=
  let negative := decide (nanos < 0) != decide (period < 0)
  let magnitude := nanos.natAbs
  let denominator := period.natAbs
  let remainder := magnitude % denominator
  let (fraction, residue) :=
    [9, 8, 7, 6, 5, 4, 3, 2, 1, 0].foldl (Tempo.divideBit denominator remainder) (0, 0)
  let rounded := saturateU (saturateU (saturateU (magnitude / denominator * 1000) + fraction) +
    if residue ≥ (denominator + 1) / 2 then 1 else 0)
  let bounded : Int := min rounded i128Max
  if negative then (if (rounded : Int) > i128Max then i128Min else -bounded) else bounded

theorem Tempo.microbeatsFromNanos_eq (t : Tempo) (nanos : ℤ) :
    t.microbeatsFromNanos nanos =
      if t.periodMicros = 0 then roundRatio nanos t.periodMicros
      else
        match checked (nanos * 1000) with
        | some scaled => roundRatio scaled t.periodMicros
        | none => longDivision t.periodMicros nanos := rfl

section Period

variable {period : ℤ} (nonzero : period ≠ 0) (fits : FitsI128 period)

include nonzero fits

theorem divided_thousand (magnitude : ℕ) :
    Divided period.natAbs (magnitude % period.natAbs) 1000
        ([9, 8, 7, 6, 5, 4, 3, 2, 1, 0].foldl
          (Tempo.divideBit period.natAbs (magnitude % period.natAbs)) (0, 0)) ∧
      [9, 8, 7, 6, 5, 4, 3, 2, 1, 0].foldlM
          (checkedDivideBit period.natAbs (magnitude % period.natAbs)) (0, 0) =
        some ([9, 8, 7, 6, 5, 4, 3, 2, 1, 0].foldl
          (Tempo.divideBit period.natAbs (magnitude % period.natAbs)) (0, 0)) := by
  have positive : 0 < period.natAbs := by omega
  have start : Divided period.natAbs (magnitude % period.natAbs) (1000 >>> 10) (0, 0) :=
    ⟨positive, by simp⟩
  have bound : period.natAbs ≤ 2 ^ 127 := by
    unfold FitsI128 i128Min i128Max at fits
    omega
  exact longDivision_run start (Nat.mod_lt _ positive) bound

theorem checkedLongDivision_eq (nanos : ℤ) :
    checkedLongDivision period nanos = some (longDivision period nanos) := by
  obtain ⟨-, run⟩ := divided_thousand nonzero fits nanos.natAbs
  unfold checkedLongDivision longDivision
  dsimp only
  rw [run]
  generalize List.foldl (Tempo.divideBit _ _) _ _ = acc
  obtain ⟨fraction, residue⟩ := acc
  simp only [Option.bind_eq_bind, Option.bind_some]
  generalize saturateU _ = rounded
  have bounded : checked (-min (rounded : ℤ) i128Max) = some (-min (rounded : ℤ) i128Max) := by
    refine checked_of_fits ?_
    unfold FitsI128 i128Min i128Max
    omega
  rw [bounded]
  split
  next => exact (apply_ite some _ _ _).symm
  next => rfl

theorem longDivision_eq (nanos : ℤ) :
    longDivision period nanos = saturate (roundHalfAway ((nanos : ℚ) * 1000 / period)) := by
  have divided := (divided_thousand nonzero fits nanos.natAbs).1
  unfold longDivision
  dsimp only
  generalize List.foldl (Tempo.divideBit _ _) _ _ = acc at divided
  obtain ⟨fraction, residue⟩ := acc
  have proper : residue < period.natAbs := divided.proper
  have parts : fraction * period.natAbs + residue = 1000 * (nanos.natAbs % period.natAbs) :=
    divided.parts
  have positive : 0 < period.natAbs := by omega
  have whole : nanos.natAbs * 1000 =
      residue + period.natAbs * (nanos.natAbs / period.natAbs * 1000 + fraction) := by
    calc nanos.natAbs * 1000
        = (period.natAbs * (nanos.natAbs / period.natAbs) +
            nanos.natAbs % period.natAbs) * 1000 := by
          rw [Nat.div_add_mod]
      _ = 1000 * (nanos.natAbs % period.natAbs) +
          period.natAbs * (nanos.natAbs / period.natAbs * 1000) := by ring
      _ = _ := by rw [← parts]; ring
  have quotient : nanos.natAbs * 1000 / period.natAbs =
      nanos.natAbs / period.natAbs * 1000 + fraction := by
    rw [whole, Nat.add_mul_div_left _ _ positive, Nat.div_eq_of_lt proper, Nat.zero_add]
  have rest : nanos.natAbs * 1000 % period.natAbs = residue := by
    rw [whole, Nat.add_mul_mod_self_left, Nat.mod_eq_of_lt proper]
  have rounded := roundHalfAway_nat_div (nanos.natAbs * 1000) positive
  rw [quotient, rest] at rounded
  have sign : decide (nanos * 1000 < 0) = decide (nanos < 0) := by
    congr 1
    exact propext (by omega)
  have signed := roundHalfAway_div_sign (nanos * 1000) period
  rw [sign, Int.natAbs_mul, show (1000 : ℤ).natAbs = 1000 from rfl, rounded] at signed
  have cast : (nanos : ℚ) * 1000 = (nanos * 1000 : ℤ) := by push_cast; rfl
  rw [cast, signed]
  dsimp only
  generalize nanos.natAbs / period.natAbs * 1000 = quotient
  generalize (if (period.natAbs + 1) / 2 ≤ residue then 1 else 0 : ℕ) = up
  unfold saturateU u128Max saturate i128Min i128Max
  split <;> omega

end Period

namespace Tempo

variable (t : Tempo)

theorem fits_periodMicros : FitsI128 t.periodMicros := by
  unfold periodMicros Binary64.roundAs FitsI128
  generalize 60.0 * 1e6 / t.bpm = x
  split
  · decide
  · split
    · split <;> decide
    · have order : i128Min ≤ i128Max := by decide
      generalize i128Min = lo at order
      generalize i128Max = hi at order
      dsimp only
      omega

theorem microbeatsFromNanos_zero (zero : t.periodMicros = 0) (nanos : ℤ) :
    t.microbeatsFromNanos nanos =
      if nanos < 0 then i128Min else if nanos = 0 then 0 else i128Max := by
  rw [microbeatsFromNanos_eq, if_pos zero, zero]
  rfl

theorem scaled_notLeast (nanos : ℤ) : nanos * 1000 ≠ i128Min := by
  unfold i128Min
  omega

theorem paths_agree (nonzero : t.periodMicros ≠ 0) {nanos scaled : ℤ}
    (product : checked (nanos * 1000) = some scaled) :
    roundRatio scaled t.periodMicros = longDivision t.periodMicros nanos := by
  obtain ⟨fits, rfl⟩ := checked_eq_some product
  have bounds := fits_roundRatio nonzero fits (scaled_notLeast nanos)
  rw [longDivision_eq nonzero t.fits_periodMicros, ← saturate_of_fits bounds,
    roundRatio_eq _ nonzero]
  push_cast
  rfl

theorem microbeatsFromNanos_exact (nonzero : t.periodMicros ≠ 0) (nanos : ℤ) :
    t.microbeatsFromNanos nanos =
      saturate (roundHalfAway ((nanos : ℚ) * 1000 / t.periodMicros)) := by
  rw [← longDivision_eq nonzero t.fits_periodMicros, microbeatsFromNanos_eq, if_neg nonzero]
  cases product : checked (nanos * 1000) with
  | some scaled => exact t.paths_agree nonzero product
  | none => rfl

theorem checkedMicrobeatsFromNanos_eq (nanos : ℤ) :
    t.checkedMicrobeatsFromNanos nanos = some (t.microbeatsFromNanos nanos) := by
  rw [microbeatsFromNanos_eq]
  unfold checkedMicrobeatsFromNanos
  dsimp only
  split
  next zero =>
    unfold checkedRoundRatio
    rw [if_pos zero]
  next nonzero =>
    cases product : checked (nanos * 1000) with
    | some scaled =>
      obtain ⟨fits, rfl⟩ := checked_eq_some product
      exact checkedRoundRatio_eq fits (scaled_notLeast nanos)
    | none => exact checkedLongDivision_eq nonzero t.fits_periodMicros nanos

/-- The conversions round the unbounded quotient once and saturate it once, no plain operation on
the way overflows, and the fast and the slow path agree. -/
theorem conversions_exact (beats nanos : ℤ) :
    (t.nanosFromMicrobeats beats =
        saturate (roundHalfAway ((beats : ℚ) * t.periodMicros / 1000)) ∧
      t.checkedNanosFromMicrobeats beats = some (t.nanosFromMicrobeats beats)) ∧
    (t.microsFromMicrobeats beats =
        saturate (roundHalfAway ((beats : ℚ) * t.periodMicros / 1000000)) ∧
      t.checkedMicrosFromMicrobeats beats = some (t.microsFromMicrobeats beats)) ∧
    (t.periodMicros ≠ 0 →
      t.microbeatsFromNanos nanos =
          saturate (roundHalfAway ((nanos : ℚ) * 1000 / t.periodMicros)) ∧
        longDivision t.periodMicros nanos =
          saturate (roundHalfAway ((nanos : ℚ) * 1000 / t.periodMicros)) ∧
        checkedLongDivision t.periodMicros nanos = some (longDivision t.periodMicros nanos) ∧
        ∀ scaled, checked (nanos * 1000) = some scaled →
          roundRatio scaled t.periodMicros = longDivision t.periodMicros nanos) ∧
    (t.periodMicros = 0 →
      t.microbeatsFromNanos nanos =
        if nanos < 0 then i128Min else if nanos = 0 then 0 else i128Max) ∧
    t.checkedMicrobeatsFromNanos nanos = some (t.microbeatsFromNanos nanos) := by
  refine ⟨⟨t.nanosFromMicrobeats_eq beats, t.checkedNanosFromMicrobeats_eq beats⟩,
    ⟨t.microsFromMicrobeats_eq beats, t.checkedMicrosFromMicrobeats_eq beats⟩,
    fun nonzero => ?_, fun zero => t.microbeatsFromNanos_zero zero nanos,
    t.checkedMicrobeatsFromNanos_eq nanos⟩
  exact ⟨t.microbeatsFromNanos_exact nonzero nanos,
    longDivision_eq nonzero t.fits_periodMicros nanos,
    checkedLongDivision_eq nonzero t.fits_periodMicros nanos,
    fun _ product => t.paths_agree nonzero product⟩

end Tempo

end AbletonLink.Link
