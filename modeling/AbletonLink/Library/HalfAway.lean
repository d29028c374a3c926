import Mathlib.Tactic

/-! Rounding rationals to the nearest integer, halves away from zero. -/

namespace AbletonLink.Library

/-- The nearest integer, of two the one further from zero. -/
def roundHalfAway (x : ℚ) : ℤ := if 0 ≤ x then ⌊x + 1 / 2⌋ else -⌊-x + 1 / 2⌋

theorem roundHalfAway_of_nonneg {x : ℚ} (h : 0 ≤ x) : roundHalfAway x = ⌊x + 1 / 2⌋ := if_pos h

@[simp] theorem roundHalfAway_neg (x : ℚ) : roundHalfAway (-x) = -roundHalfAway x := by
  unfold roundHalfAway
  rcases lt_trichotomy x 0 with neg | rfl | pos
  · rw [if_pos (by linarith), if_neg (by linarith), neg_neg]
  · norm_num
  · rw [if_neg (by linarith), if_pos (by linarith), neg_neg]

theorem roundHalfAway_of_nonpos {x : ℚ} (h : x ≤ 0) : roundHalfAway x = -⌊-x + 1 / 2⌋ := by
  have mirrored := roundHalfAway_of_nonneg (show 0 ≤ -x by linarith)
  rw [roundHalfAway_neg] at mirrored
  omega

@[simp] theorem roundHalfAway_intCast (n : ℤ) : roundHalfAway n = n := by
  have half (m : ℤ) : ⌊(m : ℚ) + 1 / 2⌋ = m := by
    rw [Int.floor_eq_iff]
    constructor <;> linarith
  unfold roundHalfAway
  split
  · exact half n
  · have mirrored := half (-n)
    push_cast at mirrored
    omega

@[simp] theorem roundHalfAway_zero : roundHalfAway 0 = 0 := by
  exact_mod_cast roundHalfAway_intCast 0

theorem roundHalfAway_nonneg {x : ℚ} (h : 0 ≤ x) : 0 ≤ roundHalfAway x := by
  rw [roundHalfAway_of_nonneg h]
  exact Int.floor_nonneg.mpr (by linarith)

theorem roundHalfAway_nonpos {x : ℚ} (h : x ≤ 0) : roundHalfAway x ≤ 0 := by
  have mirrored := roundHalfAway_nonneg (show 0 ≤ -x by linarith)
  rw [roundHalfAway_neg] at mirrored
  omega

theorem roundHalfAway_near (x : ℚ) :
    x - 1 / 2 ≤ roundHalfAway x ∧ (roundHalfAway x : ℚ) ≤ x + 1 / 2 := by
  have above (y : ℚ) : y - 1 / 2 ≤ ⌊y + 1 / 2⌋ := by
    have := Int.lt_floor_add_one (y + 1 / 2)
    linarith
  have below (y : ℚ) : (⌊y + 1 / 2⌋ : ℚ) ≤ y + 1 / 2 := Int.floor_le _
  unfold roundHalfAway
  split
  · exact ⟨above x, below x⟩
  · have high := above (-x)
    have low := below (-x)
    push_cast
    constructor <;> linarith

theorem roundHalfAway_eq_of_near {x : ℚ} {n : ℤ} (low : (n : ℚ) - 1 / 2 < x)
    (high : x < n + 1 / 2) : roundHalfAway x = n := by
  obtain ⟨above, below⟩ := roundHalfAway_near x
  have upper : (roundHalfAway x : ℚ) < (n + 1 : ℤ) := by
    push_cast
    linarith
  have lower : ((n - 1 : ℤ) : ℚ) < roundHalfAway x := by
    push_cast
    linarith
  have := Int.cast_lt.mp upper
  have := Int.cast_lt.mp lower
  omega

theorem roundHalfAway_mono {x y : ℚ} (h : x ≤ y) : roundHalfAway x ≤ roundHalfAway y := by
  rcases le_total 0 x with hx | hx
  · rw [roundHalfAway_of_nonneg hx, roundHalfAway_of_nonneg (hx.trans h)]
    exact Int.floor_mono (by linarith)
  · rcases le_total 0 y with hy | hy
    · exact (roundHalfAway_nonpos hx).trans (roundHalfAway_nonneg hy)
    · rw [roundHalfAway_of_nonpos hx, roundHalfAway_of_nonpos hy]
      exact neg_le_neg (Int.floor_mono (by linarith))

theorem abs_roundHalfAway_le {x : ℚ} {n : ℤ} (bound : |x| ≤ n) : |roundHalfAway x| ≤ n := by
  obtain ⟨low, high⟩ := abs_le.mp bound
  have low := roundHalfAway_mono low
  have high := roundHalfAway_mono high
  rw [roundHalfAway_neg] at low
  rw [roundHalfAway_intCast] at low high
  exact abs_le.mpr ⟨low, high⟩

/-- An integer on the other side of zero from nothing it is added to comes out of the rounding. -/
theorem roundHalfAway_int_add {n : ℤ} {x : ℚ} (same : 0 ≤ n ∧ 0 ≤ x ∨ n ≤ 0 ∧ x ≤ 0) :
    roundHalfAway (n + x) = n + roundHalfAway x := by
  obtain ⟨hn, hx⟩ | ⟨hn, hx⟩ := same
  · have hn' : (0 : ℚ) ≤ n := by exact_mod_cast hn
    rw [roundHalfAway_of_nonneg hx, roundHalfAway_of_nonneg (by linarith), add_assoc,
      Int.floor_intCast_add]
  · have hn' : (n : ℚ) ≤ 0 := by exact_mod_cast hn
    rw [roundHalfAway_of_nonpos hx, roundHalfAway_of_nonpos (by linarith),
      show -((n : ℚ) + x) + 1 / 2 = ((-n : ℤ) : ℚ) + (-x + 1 / 2) by push_cast; ring,
      Int.floor_intCast_add]
    ring

theorem roundHalfAway_nat_add (n : ℕ) {f : ℚ} (nonneg : 0 ≤ f) (proper : f < 1) :
    roundHalfAway (n + f) = (n + if 1 / 2 ≤ f then 1 else 0 : ℕ) := by
  rw [roundHalfAway_of_nonneg (by positivity), Int.floor_eq_iff]
  split <;> push_cast <;> constructor <;> linarith

theorem roundHalfAway_nat_div (a : ℕ) {b : ℕ} (positive : 0 < b) :
    roundHalfAway ((a : ℚ) / b) = (a / b + if (b + 1) / 2 ≤ a % b then 1 else 0 : ℕ) := by
  have hb : (0 : ℚ) < b := by exact_mod_cast positive
  have parts : (a : ℚ) = b * (a / b : ℕ) + (a % b : ℕ) := by
    exact_mod_cast (Nat.div_add_mod a b).symm
  have small : ((a % b : ℕ) : ℚ) < b := by exact_mod_cast Nat.mod_lt a positive
  have split : (a : ℚ) / b = (a / b : ℕ) + ((a % b : ℕ) : ℚ) / b := by
    rw [eq_comm, eq_div_iff hb.ne', add_mul, div_mul_cancel₀ _ hb.ne']
    linarith
  have half : 1 / 2 ≤ ((a % b : ℕ) : ℚ) / b ↔ (b + 1) / 2 ≤ a % b := by
    rw [le_div_iff₀ hb, div_mul_eq_mul_div, one_mul, div_le_iff₀ two_pos]
    have whole : (b : ℚ) ≤ ((a % b : ℕ) : ℚ) * 2 ↔ b ≤ a % b * 2 := by exact_mod_cast Iff.rfl
    rw [whole]
    omega
  rw [split, roundHalfAway_nat_add _ (by positivity) ((div_lt_one hb).mpr small)]
  simp only [half]

theorem roundHalfAway_mul_div (x : ℤ) {r : ℚ} (nonzero : r ≠ 0) :
    |(roundHalfAway (x * r) : ℚ) / r - x| ≤ 1 / 2 / |r| := by
  obtain ⟨low, high⟩ := roundHalfAway_near (x * r)
  have off : |(roundHalfAway (x * r) : ℚ) - x * r| ≤ 1 / 2 := abs_le.mpr ⟨by linarith, by linarith⟩
  have split : (roundHalfAway (x * r) : ℚ) / r - x = (roundHalfAway (x * r) - x * r) / r := by
    rw [sub_div, mul_div_cancel_right₀ _ nonzero]
  rw [split, abs_div]
  gcongr

theorem roundHalfAway_div_mul (x : ℤ) {r : ℚ} (nonzero : r ≠ 0) :
    |(roundHalfAway (roundHalfAway (x / r) * r) : ℚ) - x| ≤ |r| / 2 + 1 / 2 := by
  obtain ⟨low, high⟩ := roundHalfAway_near (x / r)
  obtain ⟨low', high'⟩ := roundHalfAway_near (roundHalfAway (x / r) * r)
  have off : |(roundHalfAway (x / r) : ℚ) - x / r| ≤ 1 / 2 := abs_le.mpr ⟨by linarith, by linarith⟩
  have scaled : |(roundHalfAway (x / r) : ℚ) * r - x| ≤ |r| / 2 := by
    have split : (roundHalfAway (x / r) : ℚ) * r - x = (roundHalfAway (x / r) - x / r) * r := by
      rw [sub_mul, div_mul_cancel₀ _ nonzero]
    have product := mul_le_mul_of_nonneg_right off (abs_nonneg r)
    rw [split, abs_mul]
    linarith
  obtain ⟨below, above⟩ := abs_le.mp scaled
  exact abs_le.mpr ⟨by linarith, by linarith⟩

theorem roundHalfAway_round_trip (x : ℤ) {r : ℚ} (grows : 1 ≤ |r|) :
    roundHalfAway ((roundHalfAway (x * r) : ℚ) / r) = x := by
  have positive : 0 < |r| := by linarith
  rcases grows.eq_or_lt with unit | more
  · obtain rfl | rfl := (abs_eq zero_le_one).mp unit.symm
    · simp
    · rw [mul_neg_one, roundHalfAway_neg]
      simp
  · have near := roundHalfAway_mul_div x (abs_pos.mp positive)
    have half : 1 / 2 / |r| < 1 / 2 := div_lt_self (by norm_num) more
    obtain ⟨low, high⟩ := abs_lt.mp (near.trans_lt half)
    exact roundHalfAway_eq_of_near (by linarith) (by linarith)

theorem roundHalfAway_eq_iff_between {y : ℚ} {x : ℤ} (between : 0 ≤ y ∧ y ≤ x ∨ x ≤ y ∧ y ≤ 0) :
    roundHalfAway y = x ↔ |x - y| ≤ 1 / 2 := by
  obtain ⟨nonneg, most⟩ | ⟨least, nonpos⟩ := between
  · rw [roundHalfAway_of_nonneg nonneg, Int.floor_eq_iff, abs_of_nonneg (by linarith)]
    constructor
    · intro ⟨low, _⟩
      linarith
    · intro near
      constructor <;> linarith
  · rw [roundHalfAway_of_nonpos nonpos, neg_eq_iff_eq_neg, Int.floor_eq_iff,
      abs_of_nonpos (by linarith)]
    push_cast
    constructor
    · intro ⟨low, _⟩
      linarith
    · intro near
      constructor <;> linarith

theorem div_sign (n d : ℤ) :
    (n : ℚ) / d = if decide (n < 0) != decide (d < 0) then -((n.natAbs : ℚ) / d.natAbs)
      else (n.natAbs : ℚ) / d.natAbs := by
  have negative {x : ℤ} (h : x < 0) : (x.natAbs : ℚ) = -x := by
    rw [Nat.cast_natAbs, abs_of_neg h, Int.cast_neg]
  have nonneg {x : ℤ} (h : ¬x < 0) : (x.natAbs : ℚ) = x := by
    rw [Nat.cast_natAbs, abs_of_nonneg (not_lt.mp h)]
  by_cases hn : n < 0 <;> by_cases hd : d < 0
  · simp [hn, hd, negative, neg_div_neg_eq]
  · simp [hn, hd, negative hn, nonneg hd, neg_div]
  · simp [hn, hd, nonneg hn, negative hd, div_neg]
  · simp [hn, hd, nonneg hn, nonneg hd]

theorem roundHalfAway_div_sign (n d : ℤ) :
    roundHalfAway ((n : ℚ) / d) =
      if decide (n < 0) != decide (d < 0) then -roundHalfAway ((n.natAbs : ℚ) / d.natAbs)
      else roundHalfAway ((n.natAbs : ℚ) / d.natAbs) := by
  rw [div_sign]
  split
  · exact roundHalfAway_neg _
  · rfl

end AbletonLink.Library
