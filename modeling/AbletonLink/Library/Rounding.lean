import AbletonLink.Library.Binary64

/-! Rounding of `Float` in its normal range: integers and quotients are converted with a relative
error of at most `2 ^ -53`, and rounding back to an integer recovers it from nearby. -/

namespace AbletonLink.Library.Rounding

open Float.Model Float.Model.UnpackedFloat

/-- Where the exact mantissa `r` lies above its integer part `m`. -/
def Locates (m : Nat) : Accuracy → ℚ → Prop
  | .exact, r => r = m
  | .inexact .lt, r => m < r ∧ r < m + 1 / 2
  | .inexact .eq, r => r = m + 1 / 2
  | .inexact .gt, r => m + 1 / 2 < r ∧ r < m + 1

theorem Locates.bounds {m : Nat} {accuracy : Accuracy} {r : ℚ} (h : Locates m accuracy r) :
    (m : ℚ) ≤ r ∧ r < m + 1 := by
  cases accuracy with
  | exact =>
    have same : r = m := h
    constructor <;> linarith
  | inexact side =>
    cases side with
    | lt =>
      obtain ⟨above, below⟩ := h
      constructor <;> linarith
    | eq =>
      have half : r = m + 1 / 2 := h
      constructor <;> linarith
    | gt =>
      obtain ⟨above, below⟩ := h
      constructor <;> linarith

theorem Locates.rounded {m : Nat} {accuracy : Accuracy} {r : ℚ} (h : Locates m accuracy r) :
    |(accuracy.roundToNearestEven m : ℚ) - r| ≤ 1 / 2 ∧ m ≤ accuracy.roundToNearestEven m ∧
      accuracy.roundToNearestEven m ≤ m + 1 := by
  rw [abs_le]
  cases accuracy with
  | exact =>
    have same : r = m := h
    simp only [Accuracy.roundToNearestEven]
    refine ⟨⟨?_, ?_⟩, Nat.le_refl _, Nat.le_succ _⟩ <;> linarith
  | inexact side =>
    cases side with
    | lt =>
      obtain ⟨above, below⟩ := h
      simp only [Accuracy.roundToNearestEven]
      refine ⟨⟨?_, ?_⟩, Nat.le_refl _, Nat.le_succ _⟩ <;> linarith
    | eq =>
      have half : r = m + 1 / 2 := h
      have parity : m % 2 = 0 ∨ m % 2 = 1 := Nat.mod_two_eq_zero_or_one m
      simp only [Accuracy.roundToNearestEven]
      rcases parity with even | odd
      · rw [even]
        refine ⟨⟨?_, ?_⟩, Nat.le_refl _, Nat.le_succ _⟩ <;> push_cast <;> linarith
      · rw [odd]
        refine ⟨⟨?_, ?_⟩, Nat.le_succ _, Nat.le_refl _⟩ <;> push_cast <;> linarith
    | gt =>
      obtain ⟨above, below⟩ := h
      simp only [Accuracy.roundToNearestEven]
      refine ⟨⟨?_, ?_⟩, Nat.le_succ _, Nat.le_refl _⟩ <;> push_cast <;> linarith

theorem Locates.rounded_whole {m n : Nat} {accuracy : Accuracy} (h : Locates m accuracy n) :
    accuracy.roundToNearestEven m = n := by
  obtain ⟨near, -, -⟩ := h.rounded
  obtain ⟨low, high⟩ := h.bounds
  have least : m ≤ n := by exact_mod_cast low
  have most : n < m + 1 := by exact_mod_cast high
  obtain rfl : n = m := by omega
  cases accuracy with
  | exact => rfl
  | inexact side =>
    cases side with
    | lt => exact absurd h.1 (lt_irrefl _)
    | eq =>
      have half : (n : ℚ) = n + 1 / 2 := h
      linarith
    | gt =>
      have := h.1
      linarith

theorem Locates.halve {em : ExtendedMantissa} {r : ℚ} (h : Locates em.mantissa em.accuracy r) :
    Locates em.shiftRightOne.mantissa em.shiftRightOne.accuracy (r / 2) := by
  obtain ⟨m, roundBit, stickyBit⟩ := em
  obtain ⟨q, rfl | rfl⟩ := Nat.even_or_odd' m
  · have quotient : 2 * q / 2 = q := by omega
    have bit : 2 * q % 2 = 0 := by omega
    cases roundBit <;> cases stickyBit <;>
      simp only [ExtendedMantissa.shiftRightOne, ExtendedMantissa.accuracy, Locates, quotient, bit,
        Bool.or_false, Bool.or_true, bne_self_eq_false] at h ⊢ <;>
      push_cast at h ⊢
    · linarith
    · constructor <;> linarith [h.1, h.2]
    · constructor <;> linarith
    · constructor <;> linarith [h.1, h.2]
  · have quotient : (2 * q + 1) / 2 = q := by omega
    have bit : (2 * q + 1) % 2 = 1 := by omega
    cases roundBit <;> cases stickyBit <;>
      simp only [ExtendedMantissa.shiftRightOne, ExtendedMantissa.accuracy, Locates, quotient, bit,
        Bool.or_false, Bool.or_true, show ((1 : Nat) != 0) = true from rfl] at h ⊢ <;>
      push_cast at h ⊢
    · linarith
    · constructor <;> linarith [h.1, h.2]
    · constructor <;> linarith
    · constructor <;> linarith [h.1, h.2]

theorem Locates.shift {em : ExtendedMantissa} {r : ℚ} (h : Locates em.mantissa em.accuracy r)
    (k : Nat) : Locates (em >>> k).mantissa (em >>> k).accuracy (r / 2 ^ k) := by
  induction k with
  | zero => simpa [HShiftRight.hShiftRight, Nat.repeat] using h
  | succ k ih =>
    have next := ih.halve
    rw [div_div, ← pow_succ] at next
    exact next

theorem Locates.of_accuracy {m : Nat} {accuracy : Accuracy} {r : ℚ} (h : Locates m accuracy r) :
    Locates (ExtendedMantissa.ofMantissaAndAccuracy m accuracy).mantissa
      (ExtendedMantissa.ofMantissaAndAccuracy m accuracy).accuracy r := by
  cases accuracy with
  | exact => exact h
  | inexact side => cases side <;> exact h

theorem fifty_two_le_log2 {m : Nat} (big : 2 ^ 52 ≤ m) : 52 ≤ m.log2 :=
  (Nat.le_log2 (Nat.pos_of_ne_zero (by omega)).ne').mpr big

theorem shiftToTargetExponent_eq {m : Nat} {e : Int} (big : 2 ^ 52 ≤ m)
    (low : -1074 ≤ (m.log2 : Int) + e - 52) (accuracy : Accuracy) :
    shiftToTargetExponent .binary64 m e accuracy =
      (ExtendedMantissa.ofMantissaAndAccuracy m accuracy >>> (m.log2 - 52),
        e + (m.log2 - 52 : Nat)) := by
  have bits := fifty_two_le_log2 big
  have target : Format.binary64.targetExponent (totalExponent m e) = (m.log2 : Int) + e - 52 := by
    simp only [Format.targetExponent, totalExponent, Format.mantissaBits, Format.minExponent]
    omega
  have amount : ((m.log2 : Int) + e - 52 - e).toNat = m.log2 - 52 := by omega
  rw [shiftToTargetExponent, target, shiftToExponent, amount]

theorem log2_eq {m k : Nat} (low : 2 ^ k ≤ m) (high : m < 2 ^ (k + 1)) : m.log2 = k := by
  have positive : m ≠ 0 := by
    have := Nat.two_pow_pos k
    omega
  exact (Nat.log2_eq_iff positive).mpr ⟨low, high⟩

theorem shift_rounded {m : Nat} {e : Int} (low : 2 ^ 52 ≤ m) (high : m ≤ 2 ^ 53)
    (exponent : -1074 ≤ e) :
    ∃ m' : Nat, ∃ e' : Int, (shiftToTargetExponent .binary64 m e .exact).1.mantissa = m' ∧
      (shiftToTargetExponent .binary64 m e .exact).2 = e' ∧ 2 ^ 52 ≤ m' ∧ m' < 2 ^ 53 ∧
      (m' : ℚ) * 2 ^ e' = m * 2 ^ e := by
  rcases Nat.lt_or_eq_of_le high with below | carry
  · have log2 : m.log2 = 52 := log2_eq low below
    refine ⟨m, e, ?_, ?_, low, below, rfl⟩ <;>
      rw [shiftToTargetExponent_eq low (by omega), log2]
    · rfl
    · simp
  · have log2 : m.log2 = 53 := by
      rw [carry]
      exact Nat.log2_two_pow
    refine ⟨2 ^ 52, e + 1, ?_, ?_, Nat.le_refl _, by decide, ?_⟩
    · rw [shiftToTargetExponent_eq low (by omega), log2, carry]
      rfl
    · rw [shiftToTargetExponent_eq low (by omega), log2]
      rfl
    · rw [carry, zpow_add₀ (by norm_num)]
      push_cast
      ring

/-- Rounding a located mantissa of at least 53 bits: the relative error is at most `2 ^ -53`, and
nothing is lost where the bits that go are zero. -/
theorem roundWithAccuracy_near (sign : Sign) {m : Nat} {e : Int} {accuracy : Accuracy} {r : ℚ}
    (h : Locates m accuracy r) (big : 2 ^ 52 ≤ m) (low : -1074 ≤ (m.log2 : Int) + e - 52) :
    ∃ m' e' pos, roundWithAccuracy .binary64 sign m e accuracy = .finite sign m' e' pos ∧
      2 ^ 52 ≤ m' ∧ m' < 2 ^ 53 ∧ |(m' : ℚ) * 2 ^ e' - r * 2 ^ e| ≤ r * 2 ^ e / 2 ^ 53 ∧
      ∀ n : Nat, r = n * 2 ^ (m.log2 - 52) → (m' : ℚ) * 2 ^ e' = r * 2 ^ e := by
  have bits := fifty_two_le_log2 big
  generalize shift : m.log2 - 52 = k at *
  have bounds := h.bounds
  have located := h.of_accuracy.shift k
  generalize first : ExtendedMantissa.ofMantissaAndAccuracy m accuracy >>> k = em at located
  have scale : (0 : ℚ) < 2 ^ k := by positivity
  have lower : (2 : ℚ) ^ 52 ≤ r / 2 ^ k := by
    rw [le_div_iff₀ scale, ← pow_add]
    have power : 2 ^ (52 + k) ≤ m := by
      rw [show 52 + k = m.log2 by omega]
      exact Nat.log2_self_le (by omega)
    calc (2 : ℚ) ^ (52 + k) = ((2 ^ (52 + k) : Nat) : ℚ) := by push_cast; ring
      _ ≤ m := by exact_mod_cast power
      _ ≤ r := bounds.1
  have upper : r / 2 ^ k < 2 ^ 53 := by
    rw [div_lt_iff₀ scale, ← pow_add]
    have power : m + 1 ≤ 2 ^ (53 + k) := by
      rw [show 53 + k = m.log2 + 1 by omega]
      exact Nat.lt_log2_self
    calc r < ((m + 1 : Nat) : ℚ) := by push_cast; exact bounds.2
      _ ≤ ((2 ^ (53 + k) : Nat) : ℚ) := by exact_mod_cast power
      _ = 2 ^ (53 + k) := by push_cast; ring
  have floor := located.bounds
  have least : 2 ^ 52 ≤ em.mantissa := by
    have : (2 : ℚ) ^ 52 < em.mantissa + 1 := lower.trans_lt floor.2
    have : 2 ^ 52 < em.mantissa + 1 := by exact_mod_cast this
    omega
  have most : em.mantissa < 2 ^ 53 := by
    have : (em.mantissa : ℚ) < 2 ^ 53 := floor.1.trans_lt upper
    exact_mod_cast this
  obtain ⟨near, atLeast, atMost⟩ := located.rounded
  obtain ⟨m', e', mantissa, exponent, normal, fits, value⟩ :=
    shift_rounded (m := em.roundedMantissa) (e := e + k) (least.trans atLeast)
      (atMost.trans most) (by omega)
  have exact_value : r * 2 ^ e = r / 2 ^ k * 2 ^ (e + k) := by
    rw [zpow_add₀ (by norm_num), zpow_natCast]
    field_simp
  refine ⟨m', e', by omega, ?_, normal, fits, ?_, fun n whole => ?_⟩
  · rw [roundWithAccuracy, shiftToTargetExponent_eq big low, shift, first]
    simp only [mantissa, exponent]
    rw [dif_neg (by omega)]
  · have unit : (0 : ℚ) < 2 ^ (e + (k : Int)) := by positivity
    rw [value, exact_value, ← sub_mul, abs_mul, abs_of_pos unit]
    have half : (1 : ℚ) / 2 ≤ r / 2 ^ k / 2 ^ 53 := by
      rw [le_div_iff₀ (by positivity)]
      linarith
    calc |(em.roundedMantissa : ℚ) - r / 2 ^ k| * 2 ^ (e + (k : Int))
      _ ≤ 1 / 2 * 2 ^ (e + (k : Int)) := by gcongr; exact near
      _ ≤ r / 2 ^ k * 2 ^ (e + (k : Int)) / 2 ^ 53 := by
        rw [mul_div_right_comm]
        exact mul_le_mul_of_nonneg_right half unit.le
  · have quotient : r / 2 ^ k = n := by
      rw [whole]
      field_simp
    rw [quotient] at located
    have rounded : em.roundedMantissa = n := located.rounded_whole
    rw [value, exact_value, quotient, rounded]

/-! Packed normal numbers. -/

/-- `x` is a normal number with this sign and magnitude. -/
def Normal (x : Float) (sign : Sign) (v : ℚ) : Prop :=
  ∃ (m : Nat) (e : Int) (pos : 0 < m), x.toModel = Float.Model.pack (.finite sign m e pos) ∧
    2 ^ 52 ≤ m ∧ m < 2 ^ 53 ∧ -1074 ≤ e ∧ e ≤ 971 ∧ v = m * 2 ^ e

theorem pack_components {sign : Sign} {m : Nat} {e : Int} {pos : 0 < m} (normal : 2 ^ 52 ≤ m)
    (fits : m < 2 ^ 53) (low : -1074 ≤ e) (high : e ≤ 971) :
    UnpackedFloat.pack .binary64 (.finite sign m e pos) =
      packComponents .binary64 sign (BitVec.ofNat 11 (e + 1075).toNat) (BitVec.ofNat 52 m) := by
  have bits : m.log2 = 52 := log2_eq normal fits
  have biased : (e + (Format.binary64.exponentBias : Int) + (52 : Nat)).toNat =
      (e + 1075).toNat := by
    simp only [Format.exponentBias]
    omega
  simp only [UnpackedFloat.pack, bits, biased, Format.mantissaBits]
  rw [if_neg (by omega), if_pos trivial]

theorem unpackSign_packComponents {sign : Sign} {exponent : BitVec 11} {mantissa : BitVec 52} :
    unpackSign (packComponents .binary64 sign exponent mantissa) = sign.toBitVec := by
  have top : (sign.toBitVec ++ exponent ++ mantissa).getLsbD 63 = sign.toBitVec.getLsbD 0 := by
    rw [BitVec.getLsbD_append, BitVec.getLsbD_append]
    rfl
  ext i hi
  obtain rfl : i = 0 := by omega
  simp only [unpackSign, packComponents, BitVec.getElem_cast]
  rw [BitVec.getElem_extract]
  exact top

theorem ofBitVec_toBitVec (sign : Sign) : Sign.ofBitVec sign.toBitVec = sign := by
  cases sign <;> rfl

theorem unpack_pack {sign : Sign} {m : Nat} {e : Int} {pos : 0 < m} (normal : 2 ^ 52 ≤ m)
    (fits : m < 2 ^ 53) (low : -1074 ≤ e) (high : e ≤ 971) :
    (Float.Model.pack (.finite sign m e pos)).unpack = .finite sign m e pos := by
  have exponent : (BitVec.ofNat 11 (e + 1075).toNat).toNat = (e + 1075).toNat := by
    rw [BitVec.toNat_ofNat, Nat.mod_eq_of_lt (by omega)]
  have notLast : BitVec.ofNat 11 (e + 1075).toNat ≠ -1#11 := by
    intro last
    have := congrArg BitVec.toNat last
    rw [exponent] at this
    simp at this
    omega
  have notFirst : BitVec.ofNat 11 (e + 1075).toNat ≠ 0#11 := by
    intro first
    have := congrArg BitVec.toNat first
    rw [exponent] at this
    simp at this
    omega
  have mantissa : (1#1 ++ BitVec.ofNat 52 m).toNat = m := by
    rw [BitVec.toNat_append, ← Nat.shiftLeft_add_eq_or_of_lt (BitVec.isLt _), BitVec.toNat_ofNat]
    simp only [BitVec.toNat_ofNat, Nat.shiftLeft_eq]
    omega
  have value : ((e + 1075).toNat : Int) - (Format.binary64.exponentBias + 52 : Nat) = e := by
    simp only [Format.exponentBias]
    omega
  show UnpackedFloat.unpack .binary64 (UnpackedFloat.pack .binary64 (.finite sign m e pos)) = _
  rw [pack_components normal fits low high]
  simp only [UnpackedFloat.unpack, unpackMantissa_packComponents, unpackExponent_packComponents,
    unpackSign_packComponents, ofBitVec_toBitVec, exponent]
  rw [if_neg notLast, if_neg notFirst]
  congr 1

theorem Normal.unpack {x : Float} {sign : Sign} {v : ℚ} (h : Normal x sign v) :
    ∃ (m : Nat) (e : Int) (pos : 0 < m), x.toModel.unpack = .finite sign m e pos ∧
      2 ^ 52 ≤ m ∧ m < 2 ^ 53 ∧ v = m * 2 ^ e := by
  obtain ⟨m, e, pos, packed, normal, fits, low, high, value⟩ := h
  exact ⟨m, e, pos, packed ▸ unpack_pack normal fits low high, normal, fits, value⟩

theorem Normal.pos {x : Float} {sign : Sign} {v : ℚ} (h : Normal x sign v) : 0 < v := by
  obtain ⟨m, e, pos, -, -, -, -, -, rfl⟩ := h
  positivity

theorem Normal.isFinite {x : Float} {sign : Sign} {v : ℚ} (h : Normal x sign v) :
    x.isFinite = true := by
  obtain ⟨m, e, pos, unpack, -⟩ := h.unpack
  simp [Float.isFinite, Float.Model.isFinite, unpack, UnpackedFloat.isFinite]

theorem Normal.isInf {x : Float} {sign : Sign} {v : ℚ} (h : Normal x sign v) :
    x.isInf = false := by
  obtain ⟨m, e, pos, unpack, -⟩ := h.unpack
  simp [Float.isInf, Float.Model.isInf, unpack, UnpackedFloat.isInf]

theorem Normal.isNaN {x : Float} {sign : Sign} {v : ℚ} (h : Normal x sign v) :
    x.isNaN = false := Binary64.isNaN_of_isFinite h.isFinite

theorem Normal.not_le_zero {x : Float} {v : ℚ} (h : Normal x .positive v) : ¬x ≤ 0.0 := by
  obtain ⟨m, e, pos, unpack, -⟩ := h.unpack
  have zero : (0.0 : Float).toModel.unpack = .zero .positive := by rfl
  intro below
  have below : x.toModel.unpack.le (0.0 : Float).toModel.unpack = true := of_decide_eq_true below
  rw [unpack, zero] at below
  exact absurd below (by simp [UnpackedFloat.le, UnpackedFloat.compare])

theorem Normal.le_zero {x : Float} {v : ℚ} (h : Normal x .negative v) : x ≤ 0.0 := by
  obtain ⟨m, e, pos, unpack, -⟩ := h.unpack
  have zero : (0.0 : Float).toModel.unpack = .zero .positive := by rfl
  show decide (x.toModel.unpack.le (0.0 : Float).toModel.unpack = true) = true
  rw [unpack, zero]
  simp [UnpackedFloat.le, UnpackedFloat.compare]

theorem Normal.of_near {x : Float} {sign : Sign} {m : Nat} {e : Int} {pos : 0 < m} {v : ℚ}
    (packed : x.toModel = Float.Model.pack (.finite sign m e pos)) (normal : 2 ^ 52 ≤ m)
    (fits : m < 2 ^ 53) (near : |(m : ℚ) * 2 ^ e - v| ≤ v / 2 ^ 53)
    (low : (2 : ℚ) ^ (-200 : Int) ≤ v) (high : v ≤ 2 ^ (200 : Int)) :
    Normal x sign (m * 2 ^ e) := by
  obtain ⟨below, above⟩ := abs_le.mp near
  have positive : 0 < v := lt_of_lt_of_le (by positivity) low
  have unit : (0 : ℚ) < 2 ^ e := by positivity
  have least : (2 : ℚ) ^ (52 : Int) ≤ m := by exact_mod_cast normal
  have most : (m : ℚ) < 2 ^ (53 : Int) := by exact_mod_cast fits
  have small : v / 2 ^ 53 ≤ v / 2 := by gcongr; norm_num
  have upper : (2 : ℚ) ^ (52 + e) < 2 ^ (202 : Int) := by
    rw [zpow_add₀ (by norm_num)]
    calc (2 : ℚ) ^ (52 : Int) * 2 ^ e ≤ m * 2 ^ e := by gcongr
      _ ≤ v + v / 2 ^ 53 := by linarith
      _ < 2 * v + v := by linarith
      _ ≤ 4 * 2 ^ (200 : Int) := by linarith
      _ = 2 ^ (202 : Int) := by norm_num
  have lower : (2 : ℚ) ^ (-201 : Int) < 2 ^ (53 + e) := by
    rw [zpow_add₀ (by norm_num)]
    calc (2 : ℚ) ^ (-201 : Int) = 2 ^ (-200 : Int) / 2 := by norm_num
      _ ≤ v / 2 := by gcongr
      _ ≤ m * 2 ^ e := by linarith
      _ < 2 ^ (53 : Int) * 2 ^ e := by gcongr
  have e_le := (zpow_lt_zpow_iff_right₀ (by norm_num : (1 : ℚ) < 2)).mp upper
  have le_e := (zpow_lt_zpow_iff_right₀ (by norm_num : (1 : ℚ) < 2)).mp lower
  exact ⟨m, e, pos, packed, normal, fits, by omega, by omega, rfl⟩

theorem accuracyOfFraction_locates (n : Nat) {d : Nat} (positive : 0 < d) :
    Locates (n / d) (accuracyOfFraction (n % d) d) ((n : ℚ) / d) := by
  have scale : (0 : ℚ) < d := by exact_mod_cast positive
  have split : (n : ℚ) / d = (n / d : Nat) + (n % d : Nat) / (d : ℚ) := by
    have parts : ((d * (n / d) + n % d : Nat) : ℚ) = n := by rw [Nat.div_add_mod]
    rw [← parts]
    push_cast
    field_simp
  have below : ((n % d : Nat) : ℚ) < d := by exact_mod_cast Nat.mod_lt n positive
  rw [split, accuracyOfFraction]
  split
  next zero =>
    rw [zero]
    simp [Locates]
  next nonzero =>
    have above : (0 : ℚ) < (n % d : Nat) := by exact_mod_cast Nat.pos_of_ne_zero nonzero
    have fraction : (0 : ℚ) < (n % d : Nat) / (d : ℚ) := by positivity
    cases order : compare (2 * (n % d)) d with
    | lt =>
      have half : 2 * ((n % d : Nat) : ℚ) < d := by exact_mod_cast Nat.compare_eq_lt.mp order
      have : ((n % d : Nat) : ℚ) / d < 1 / 2 := by
        rw [div_lt_iff₀ scale]
        linarith
      constructor <;> linarith
    | eq =>
      have half : 2 * ((n % d : Nat) : ℚ) = d := by exact_mod_cast Nat.compare_eq_eq.mp order
      have : ((n % d : Nat) : ℚ) / d = 1 / 2 := by
        rw [div_eq_iff scale.ne']
        linarith
      simp only [Locates]
      linarith
    | gt =>
      have half : (d : ℚ) < 2 * (n % d : Nat) := by exact_mod_cast Nat.compare_eq_gt.mp order
      have more : 1 / 2 < ((n % d : Nat) : ℚ) / d := by
        rw [lt_div_iff₀ scale]
        linarith
      have : ((n % d : Nat) : ℚ) / d < 1 := by
        rw [div_lt_iff₀ scale]
        linarith
      constructor <;> linarith

theorem Normal.div {x y : Float} {sx sy : Sign} {a b : ℚ} (hx : Normal x sx a) (hy : Normal y sy b)
    (low : (2 : ℚ) ^ (-200 : Int) ≤ a / b) (high : a / b ≤ 2 ^ (200 : Int)) :
    ∃ q, Normal (x / y) (sx / sy) q ∧ |q - a / b| ≤ a / b / 2 ^ 53 := by
  obtain ⟨m₁, e₁, pos₁, unpack₁, normal₁, fits₁, rfl⟩ := hx.unpack
  obtain ⟨m₂, e₂, pos₂, unpack₂, normal₂, fits₂, rfl⟩ := hy.unpack
  have exponents : -201 < e₁ - e₂ := by
    have ratio : (m₁ : ℚ) / m₂ < 2 := by
      rw [div_lt_iff₀ (by exact_mod_cast pos₂)]
      have : m₁ < 2 * m₂ := by omega
      exact_mod_cast this
    have bound : (2 : ℚ) ^ (-200 : Int) < 2 ^ (e₁ - e₂ + 1) := by
      calc (2 : ℚ) ^ (-200 : Int) ≤ m₁ * 2 ^ e₁ / (m₂ * 2 ^ e₂) := low
        _ = m₁ / m₂ * 2 ^ (e₁ - e₂) := by rw [zpow_sub₀ (by norm_num), mul_div_mul_comm]
        _ < 2 * 2 ^ (e₁ - e₂) := by gcongr
        _ = 2 ^ (e₁ - e₂ + 1) := by rw [zpow_add₀ (by norm_num), zpow_one, mul_comm]
    have := (zpow_lt_zpow_iff_right₀ (by norm_num : (1 : ℚ) < 2)).mp bound
    omega
  have core : divCore .binary64 m₁ e₁ m₂ e₂ =
      (m₁ * 2 ^ 53 / m₂, e₁ - e₂ - 53, accuracyOfFraction (m₁ * 2 ^ 53 % m₂) m₂) := by
    have bits₁ : m₁.log2 = 52 := log2_eq normal₁ fits₁
    have bits₂ : m₂.log2 = 52 := log2_eq normal₂ fits₂
    have target : min (e₁ - e₂) (Format.binary64.targetExponent
        (totalExponent m₁ e₁ - totalExponent m₂ e₂)) = e₁ - e₂ - 53 := by
      simp only [Format.targetExponent, totalExponent, Format.mantissaBits, Format.minExponent,
        bits₁, bits₂]
      omega
    have amount : (e₁ - e₂ - (e₁ - e₂ - 53)).toNat = 53 := by omega
    rw [divCore, target, amount, Nat.shiftLeft_eq]
  have located := accuracyOfFraction_locates (m₁ * 2 ^ 53) pos₂
  have big : 2 ^ 52 ≤ m₁ * 2 ^ 53 / m₂ := by
    rw [Nat.le_div_iff_mul_le pos₂]
    nlinarith
  have bits := fifty_two_le_log2 big
  obtain ⟨m, e, pos, rounded, normal, fits, near, -⟩ := roundWithAccuracy_near (sx / sy)
    (e := e₁ - e₂ - 53) located big (by omega)
  have value : ((m₁ * 2 ^ 53 : Nat) : ℚ) / m₂ * 2 ^ (e₁ - e₂ - 53) =
      m₁ * 2 ^ e₁ / (m₂ * 2 ^ e₂) := by
    rw [zpow_sub₀ (by norm_num), zpow_sub₀ (by norm_num)]
    push_cast
    field_simp
  rw [value] at near
  have packed : (x / y).toModel = Float.Model.pack (.finite (sx / sy) m e pos) := by
    show Float.Model.pack (UnpackedFloat.div .binary64 x.toModel.unpack y.toModel.unpack) = _
    rw [unpack₁, unpack₂, ← rounded]
    simp only [UnpackedFloat.div, core]
  exact ⟨_, .of_near packed normal fits near low high, near⟩

theorem round_nat {n : Nat} (positive : 0 < n) (small : n < 2 ^ 53) :
    ∃ m e pos, UnpackedFloat.round .binary64 .positive n 0 = .finite .positive m e pos ∧
      2 ^ 52 ≤ m ∧ m < 2 ^ 53 ∧ (m : ℚ) * 2 ^ e = n := by
  have bits : n.log2 < 53 := (Nat.log2_lt positive.ne').mpr small
  have target : Format.binary64.targetExponent (totalExponent n 0) = (n.log2 : Int) - 52 := by
    simp only [Format.targetExponent, totalExponent, Format.mantissaBits, Format.minExponent]
    omega
  have amount : (0 - ((n.log2 : Int) - 52)).toNat = 52 - n.log2 := by omega
  generalize shift : 52 - n.log2 = k at amount
  have low : 2 ^ 52 ≤ n * 2 ^ k := by
    have least := Nat.log2_self_le positive.ne'
    calc 2 ^ 52 = 2 ^ n.log2 * 2 ^ k := by rw [← Nat.pow_add]; congr 1; omega
      _ ≤ n * 2 ^ k := Nat.mul_le_mul_right _ least
  have high : n * 2 ^ k < 2 ^ 53 := by
    have most : n < 2 ^ (n.log2 + 1) := Nat.lt_log2_self
    calc n * 2 ^ k < 2 ^ (n.log2 + 1) * 2 ^ k := Nat.mul_lt_mul_of_pos_right most (by positivity)
      _ = 2 ^ 53 := by rw [← Nat.pow_add]; congr 1; omega
  have log2 : (n * 2 ^ k).log2 = 52 := log2_eq low high
  have located : Locates (n * 2 ^ k) .exact ((n * 2 ^ k : Nat) : ℚ) := rfl
  obtain ⟨m, e, pos, rounded, normal, fits, -, exact_value⟩ := roundWithAccuracy_near .positive
    (e := 0 - (k : Int)) located low (by omega)
  refine ⟨m, e, pos, ?_, normal, fits, ?_⟩
  · rw [UnpackedFloat.round, target, decreaseExponent, amount, Nat.shiftLeft_eq]
    exact rounded
  · rw [exact_value (n * 2 ^ k) (by rw [log2]; simp), zero_sub, zpow_neg, zpow_natCast]
    push_cast
    field_simp

theorem Normal.mul_one {x : Float} {sign : Sign} {v : ℚ} (h : Normal x sign v)
    (low : (2 : ℚ) ^ (-200 : Int) ≤ v) (high : v ≤ 2 ^ (200 : Int)) :
    Normal (x * Float.ofBits 0x3FF0000000000000) sign v := by
  obtain ⟨m, e, pos, packed, normal, fits, least, most, rfl⟩ := h
  have one : (Float.ofBits 0x3FF0000000000000).toModel.unpack =
      .finite .positive (2 ^ 52) (-52) (by decide) := by rfl
  have log2 : (m * 2 ^ 52).log2 = 104 := log2_eq (by omega) (by omega)
  have located : Locates (m * 2 ^ 52) .exact ((m * 2 ^ 52 : Nat) : ℚ) := rfl
  have same : sign * .positive = sign := by cases sign <;> rfl
  obtain ⟨m', e', pos', rounded, normal', fits', -, exact_value⟩ := roundWithAccuracy_near
    (sign * .positive) (e := e + -52) located (by omega) (by omega)
  have value : (m' : ℚ) * 2 ^ e' = m * 2 ^ e := by
    rw [exact_value m (by rw [log2]; push_cast; rfl), zpow_add₀ (by norm_num)]
    push_cast
    norm_num
    ring
  have product : (x * Float.ofBits 0x3FF0000000000000).toModel =
      Float.Model.pack (.finite sign m' e' pos') := by
    show Float.Model.pack (UnpackedFloat.mul .binary64 x.toModel.unpack
      (Float.ofBits 0x3FF0000000000000).toModel.unpack) = _
    rw [packed, unpack_pack normal fits least most, one]
    simp only [UnpackedFloat.mul]
    rw [rounded, same]
  rw [← value]
  refine .of_near product normal' fits' ?_ low high
  rw [value, sub_self, abs_zero]
  positivity

theorem ofScientific_nat {n : Nat} (nonzero : 0 < n) :
    UnpackedFloat.ofScientific .binary64 n 0 =
      roundWithAccuracy .binary64 .positive (n * 2 ^ 53) (-53) .exact := by
  have width : (0 : Int) ≤ 2 ^ Format.binary64.exponentBits := by positivity
  have mantissa : n <<< Format.binary64.mantissaBits * 10 ^ (0 : Int).toNat = n * 2 ^ 53 := by
    simp [Nat.shiftLeft_eq, Format.mantissaBits]
  rw [UnpackedFloat.ofScientific, dif_neg nonzero.ne', if_neg (by simp), if_neg (by omega),
    if_pos (Int.le_refl 0)]
  simp only [UnpackedFloat.mul, mantissa]
  rfl

theorem Normal.ofNat {n : Nat} (nonzero : 0 < n) (small : (n : ℚ) ≤ 2 ^ (200 : Int)) :
    ∃ q, Normal (Float.ofNat n) .positive q ∧ |q - n| ≤ n / 2 ^ 53 := by
  have low : (2 : ℚ) ^ (-200 : Int) ≤ n := by
    have one : (1 : ℚ) ≤ n := by exact_mod_cast nonzero
    exact le_trans (by norm_num) one
  by_cases exact_case : n < 2 ^ 53
  · obtain ⟨m, e, pos, rounded, normal, fits, value⟩ := round_nat nonzero exact_case
    have product : Float.ofNat n = n.toUInt64.toFloat * Float.ofBits 0x3FF0000000000000 := by
      show Float.ofScientific n false 0 = _
      rw [Float.ofScientific, dif_pos ⟨exact_case, by decide⟩]
      rfl
    have packed : n.toUInt64.toFloat.toModel = Float.Model.pack (.finite .positive m e pos) := by
      have word : n.toUInt64.toNat = n := by
        simp
        omega
      show Float.Model.pack (UnpackedFloat.normalize .binary64 n.toUInt64.toNat 0 .positive) = _
      rw [word, UnpackedFloat.normalize, Int.compare_eq_gt.mpr (by omega)]
      simp only [Int.toNat_natCast, rounded]
    have near : |(m : ℚ) * 2 ^ e - n| ≤ n / 2 ^ 53 := by
      rw [value, sub_self, abs_zero]
      positivity
    have converted := Normal.of_near packed normal fits near low small
    rw [value] at converted
    rw [product]
    exact ⟨n, converted.mul_one low small, value ▸ near⟩
  · have big : 2 ^ 52 ≤ n * 2 ^ 53 := by omega
    have located : Locates (n * 2 ^ 53) .exact ((n * 2 ^ 53 : Nat) : ℚ) := rfl
    have bits := fifty_two_le_log2 big
    obtain ⟨m, e, pos, rounded, normal, fits, near, -⟩ := roundWithAccuracy_near .positive
      (e := -53) located big (by omega)
    have value : ((n * 2 ^ 53 : Nat) : ℚ) * 2 ^ (-53 : Int) = n := by
      rw [zpow_neg]
      push_cast
      exact mul_inv_cancel_right₀ (by norm_num) _
    rw [value] at near
    have packed : (Float.ofNat n).toModel = Float.Model.pack (.finite .positive m e pos) := by
      show (Float.ofScientific n false 0).toModel = _
      rw [Float.ofScientific, dif_neg (fun both => exact_case both.1)]
      show Float.Model.pack (UnpackedFloat.ofScientific .binary64 n 0) = _
      rw [ofScientific_nat nonzero, rounded]
    exact ⟨_, .of_near packed normal fits near low small, near⟩

theorem Normal.neg {x : Float} {sign : Sign} {v : ℚ} (h : Normal x sign v) :
    Normal (Float.neg x) (-sign) v := by
  obtain ⟨m, e, pos, packed, normal, fits, low, high, value⟩ := h
  refine ⟨m, e, pos, ?_, normal, fits, low, high, value⟩
  show Float.Model.pack x.toModel.unpack.neg = _
  rw [packed, unpack_pack normal fits low high]
  rfl

theorem Normal.ofInt {n : Int} (nonzero : n ≠ 0) (small : (n.natAbs : ℚ) ≤ 2 ^ (200 : Int)) :
    ∃ q, Normal (Float.ofInt n) (if n < 0 then .negative else .positive) q ∧
      |q - n.natAbs| ≤ n.natAbs / 2 ^ 53 := by
  cases n with
  | ofNat n =>
    rw [if_neg (by simp)]
    exact Normal.ofNat (by simpa [Nat.pos_iff_ne_zero] using nonzero) small
  | negSucc n =>
    obtain ⟨q, normal, near⟩ := Normal.ofNat (Nat.succ_pos n) small
    rw [if_pos (Int.negSucc_lt_zero n)]
    exact ⟨q, normal.neg, near⟩

/-! Back to integers. -/

theorem toNat_packComponents (sign : Sign) (exponent : BitVec 11) (mantissa : BitVec 52) :
    (packComponents .binary64 sign exponent mantissa).toNat =
      sign.toBitVec.toNat * 2 ^ 63 + exponent.toNat * 2 ^ 52 + mantissa.toNat := by
  show (sign.toBitVec ++ exponent ++ mantissa).toNat = _
  rw [BitVec.toNat_append, BitVec.toNat_append, ← Nat.shiftLeft_add_eq_or_of_lt mantissa.isLt,
    ← Nat.shiftLeft_add_eq_or_of_lt exponent.isLt]
  simp only [Nat.shiftLeft_eq]
  ring

theorem Normal.integerDecode {x : Float} {sign : Sign} {v : ℚ} (h : Normal x sign v) :
    ∃ (m : Nat) (e : Int), Binary64.integerDecode x = (m, e, sign.apply 1) ∧ v = m * 2 ^ e := by
  obtain ⟨m, e, pos, packed, normal, fits, low, high, value⟩ := h
  have bits : x.toBits.toNat =
      sign.toBitVec.toNat * 2 ^ 63 + (e + 1075).toNat * 2 ^ 52 + (m - 2 ^ 52) := by
    show x.toModel.toBits.toNat = _
    rw [packed]
    show (UnpackedFloat.pack .binary64 (.finite sign m e pos)).toNat = _
    rw [pack_components normal fits low high, toNat_packComponents, BitVec.toNat_ofNat,
      BitVec.toNat_ofNat, Nat.mod_eq_of_lt (show (e + 1075).toNat < 2 ^ 11 by omega)]
    omega
  have bit := sign.toBitVec.isLt
  have signBit : x.toBits.toNat >>> 63 = sign.toBitVec.toNat := by
    rw [bits, Nat.shiftRight_eq_div_pow]
    omega
  have exponent : x.toBits.toNat >>> 52 &&& 0x7ff = (e + 1075).toNat := by
    rw [show 0x7ff = 2 ^ 11 - 1 from rfl, Nat.and_two_pow_sub_one_eq_mod, bits,
      Nat.shiftRight_eq_div_pow]
    omega
  have mantissa : x.toBits.toNat &&& 0xfffffffffffff ||| 0x10000000000000 = m := by
    rw [show 0xfffffffffffff = 2 ^ 52 - 1 from rfl, Nat.and_two_pow_sub_one_eq_mod, bits,
      Nat.or_comm, show (0x10000000000000 : Nat) = 2 ^ 52 * 1 from rfl,
      ← Nat.two_pow_add_eq_or_of_lt (Nat.mod_lt _ (by decide))]
    omega
  refine ⟨m, e, ?_, value⟩
  rw [Binary64.integerDecode]
  simp only [signBit, exponent, mantissa]
  rw [if_neg (by omega)]
  refine Prod.ext rfl (Prod.ext ?_ ?_)
  · simp only
    omega
  · cases sign <;> rfl

theorem roundScaled_eq {m p : Nat} {e : Int} (near : |(m : ℚ) * 2 ^ e - p| < 1 / 2) :
    Binary64.roundScaled m e = p := by
  obtain ⟨below, above⟩ := abs_lt.mp near
  unfold Binary64.roundScaled
  split
  next whole =>
    -- Both sides are integers less than a half apart.
    obtain ⟨k, rfl⟩ := Int.eq_ofNat_of_zero_le whole
    rw [zpow_natCast] at below above
    have least : (p : ℚ) < (m * 2 ^ k + 1 : Nat) := by
      push_cast
      linarith
    have most : ((m * 2 ^ k : Nat) : ℚ) < (p + 1 : Nat) := by
      push_cast
      linarith
    rw [Int.toNat_natCast, Nat.shiftLeft_eq]
    have : p < m * 2 ^ k + 1 := by exact_mod_cast least
    have : m * 2 ^ k < p + 1 := by exact_mod_cast most
    omega
  next fraction =>
    obtain ⟨k, rfl⟩ : ∃ k : Nat, e = -((k + 1 : Nat) : Int) := ⟨(-e).toNat - 1, by omega⟩
    have scale : (0 : ℚ) < 2 ^ (k + 1) := by positivity
    rw [zpow_neg, zpow_natCast, ← div_eq_mul_inv] at below above
    have least : (p : ℚ) * 2 ^ (k + 1) < m + 2 ^ k := by
      have : (p : ℚ) - 1 / 2 < m / 2 ^ (k + 1) := by linarith
      rw [lt_div_iff₀ scale] at this
      rw [pow_succ] at this ⊢
      linarith
    have most : (m : ℚ) + 2 ^ k < (p + 1) * 2 ^ (k + 1) := by
      have : (m : ℚ) / 2 ^ (k + 1) < p + 1 / 2 := by linarith
      rw [div_lt_iff₀ scale] at this
      rw [pow_succ] at this ⊢
      linarith
    have least : p * 2 ^ (k + 1) < m + 2 ^ k := by exact_mod_cast least
    have most : m + 2 ^ k < (p + 1) * 2 ^ (k + 1) := by exact_mod_cast most
    rw [Int.natAbs_neg, Int.natAbs_natCast, Nat.add_sub_cancel]
    exact Nat.div_eq_of_lt_le least.le most

theorem Normal.roundAs {x : Float} {sign : Sign} {v : ℚ} (h : Normal x sign v) {p : Nat}
    (near : |v - p| < 1 / 2) (lo hi : Int) :
    Binary64.roundAs lo hi x = max lo (min hi (sign.apply p)) := by
  obtain ⟨m, e, decoded, rfl⟩ := h.integerDecode
  rw [Binary64.roundAs, h.isNaN, h.isInf]
  simp only [decoded, roundScaled_eq near]
  cases sign <;> simp [Sign.apply]

/-! Comparisons. -/

theorem packComponents_unpack (bits : BitVec 64) :
    packComponents .binary64 (Sign.ofBitVec (@unpackSign .binary64 bits))
      (@unpackExponent .binary64 bits) (@unpackMantissa .binary64 bits) = bits := by
  have sign (b : BitVec 1) : (Sign.ofBitVec b).toBitVec = b := by
    revert b
    decide
  have small := bits.isLt
  apply BitVec.eq_of_toNat_eq
  rw [toNat_packComponents, sign]
  simp only [unpackSign, unpackExponent, unpackMantissa, BitVec.toNat_cast,
    BitVec.extractLsb_toNat, Nat.shiftRight_eq_div_pow]
  simp
  omega

theorem pack_fields (sign : Sign) {exponent : BitVec 11} (mantissa : BitVec 52)
    (first : exponent ≠ 0) (last : exponent ≠ -1#11) {pos : 0 < (1#1 ++ mantissa).toNat} :
    (1#1 ++ mantissa).toNat < 2 ^ 53 ∧ 2 ^ 52 ≤ (1#1 ++ mantissa).toNat ∧
      -1074 ≤ (exponent.toNat : Int) - 1075 ∧ (exponent.toNat : Int) - 1075 ≤ 971 ∧
      UnpackedFloat.pack .binary64
          (.finite sign (1#1 ++ mantissa).toNat ((exponent.toNat : Int) - 1075) pos) =
        packComponents .binary64 sign exponent mantissa := by
  have short := mantissa.isLt
  have field := exponent.isLt
  have hidden : (1#1 ++ mantissa).toNat = 2 ^ 52 + mantissa.toNat := by
    rw [BitVec.toNat_append, ← Nat.shiftLeft_add_eq_or_of_lt mantissa.isLt]
    simp [Nat.shiftLeft_eq]
  have notFirst : exponent.toNat ≠ 0 := fun zero => first (BitVec.eq_of_toNat_eq zero)
  have notLast : exponent.toNat ≠ 2047 := fun top => last (BitVec.eq_of_toNat_eq top)
  have low : 2 ^ 52 ≤ (1#1 ++ mantissa).toNat := by omega
  have high : (1#1 ++ mantissa).toNat < 2 ^ 53 := by omega
  have least : -1074 ≤ (exponent.toNat : Int) - 1075 := by omega
  have most : (exponent.toNat : Int) - 1075 ≤ 971 := by omega
  have same : BitVec.ofNat 11 ((exponent.toNat : Int) - 1075 + 1075).toNat = exponent := by
    rw [sub_add_cancel, Int.toNat_natCast, BitVec.ofNat_toNat, BitVec.setWidth_eq]
  have fraction : BitVec.ofNat 52 (1#1 ++ mantissa).toNat = mantissa := by
    apply BitVec.eq_of_toNat_eq
    rw [BitVec.toNat_ofNat]
    omega
  refine ⟨high, low, least, most, ?_⟩
  rw [pack_components low high least most, same, fraction]

theorem Normal.of_unpack {x : Float} {sign : Sign} {m : Nat} {e : Int} {pos : 0 < m}
    (unpacked : x.toModel.unpack = .finite sign m e pos) :
    m < 2 ^ 52 ∧ e = -1074 ∨ (2 ^ 52 ≤ m ∧ m < 2 ^ 53) ∧ Normal x sign (m * 2 ^ e) := by
  obtain ⟨⟨⟨bits⟩, valid⟩⟩ := x
  have whole : UnpackedFloat.unpack .binary64 bits = .finite sign m e pos := unpacked
  have fields := packComponents_unpack bits
  have short := (@unpackMantissa .binary64 bits).isLt
  unfold UnpackedFloat.unpack at whole
  dsimp only at whole
  split at whole
  · split at whole <;> cases whole
  next last =>
    split at whole
    next first =>
      split at whole
      · cases whole
      · obtain ⟨-, rfl, rfl⟩ := UnpackedFloat.finite.inj whole
        refine .inl ⟨short, ?_⟩
        rw [first]
        rfl
    next first =>
      obtain ⟨rfl, rfl, rfl⟩ := UnpackedFloat.finite.inj whole
      obtain ⟨high, low, least, most, packed⟩ := pack_fields
        (Sign.ofBitVec (@unpackSign .binary64 bits)) (@unpackMantissa .binary64 bits) first last
      refine .inr ⟨⟨low, high⟩, _, _, pos, ?_, low, high, least, most, rfl⟩
      have model (b : BitVec 64) (h : Format.binary64.Valid b) (same : b = bits) :
          Float.Model.mk ⟨bits⟩ valid = ⟨⟨b⟩, h⟩ := by
        cases same
        rfl
      exact model _ _ (packed.trans fields)

theorem value_mono {m n : Nat} {d e : Int} (short : m < 2 ^ 53) (normal : 2 ^ 52 ≤ n)
    (order : d < e ∨ d = e ∧ m ≤ n) : (m : ℚ) * 2 ^ d ≤ n * 2 ^ e := by
  rcases order with less | ⟨rfl, le⟩
  · have whole : (m : ℚ) ≤ 2 ^ 53 := by exact_mod_cast short.le
    have hidden : (2 ^ 52 : ℚ) ≤ n := by exact_mod_cast normal
    have power : (2 : ℚ) ^ (d + 1) ≤ 2 ^ e := zpow_le_zpow_right₀ one_le_two less
    calc (m : ℚ) * 2 ^ d ≤ 2 ^ 53 * 2 ^ d := by gcongr
      _ = 2 ^ 52 * 2 ^ (d + 1) := by
        rw [zpow_add_one₀ two_ne_zero]
        ring
      _ ≤ n * 2 ^ e := by gcongr
  · gcongr

theorem lt_positive {m n : Nat} {d e : Int} {hm : 0 < m} {hn : 0 < n} :
    (UnpackedFloat.finite .positive m d hm).lt (.finite .positive n e hn) = true ↔
      d < e ∨ d = e ∧ m < n := by
  simp [UnpackedFloat.lt, UnpackedFloat.compare, Ordering.then_eq_lt, compare_lt_iff_lt]

/-- A number that is not below one positive number and not above another is a positive number
between them. -/
theorem Normal.between {x a b : Float} {low high : ℚ} (ha : Normal a .positive low)
    (hb : Normal b .positive high) (number : x.isNaN = false) (notBelow : ¬x < a)
    (notAbove : ¬b < x) : ∃ v, Normal x .positive v ∧ low ≤ v ∧ v ≤ high := by
  have below : x.toModel.unpack.lt a.toModel.unpack ≠ true :=
    fun lt => notBelow (decide_eq_true lt)
  have above : b.toModel.unpack.lt x.toModel.unpack ≠ true :=
    fun lt => notAbove (decide_eq_true lt)
  have number : x.toModel.unpack.isNaN = false := number
  obtain ⟨ma, ea, _, packedA, normalA, fitsA, leastA, mostA, rfl⟩ := ha
  obtain ⟨mb, eb, _, packedB, normalB, fitsB, leastB, mostB, rfl⟩ := hb
  rw [packedA, unpack_pack normalA fitsA leastA mostA] at below
  rw [packedB, unpack_pack normalB fitsB leastB mostB] at above
  cases unpacked : x.toModel.unpack with
  | notANumber =>
    rw [unpacked] at number
    cases number
  | infinity sign =>
    rw [unpacked] at below above
    cases sign with
    | positive => exact absurd rfl above
    | negative => exact absurd rfl below
  | zero sign =>
    rw [unpacked] at below
    exact absurd rfl below
  | finite sign m e pos =>
    rw [unpacked] at below above
    cases sign with
    | negative => exact absurd rfl below
    | positive =>
      rw [Ne, lt_positive] at below above
      have least : ea < e ∨ ea = e ∧ ma ≤ m := by omega
      have most : e < eb ∨ e = eb ∧ m ≤ mb := by omega
      obtain ⟨subnormal, last⟩ | ⟨⟨hidden, short⟩, normal⟩ := Normal.of_unpack unpacked
      · omega
      · exact ⟨_, normal, value_mono fitsA hidden least, value_mono short normalB most⟩

end AbletonLink.Library.Rounding
