import AbletonLink.Library.MachineInt

/-! The plain operations of `i128`, with no result where they panic, and rules for computations of
such operations. -/

universe u

namespace AbletonLink.Library.MachineInt

def checkedDiv (x y : Int) : Option Int := if y = 0 then none else checked (x.tdiv y)

/-- The remainder overflows where the quotient does. -/
def checkedRem (x y : Int) : Option Int :=
  if y = 0 ∨ x = i128Min ∧ y = -1 then none else some (x.tmod y)

def checkedDivEuclid (x y : Int) : Option Int := if y = 0 then none else checked (x / y)

def checkedRemEuclid (x y : Int) : Option Int :=
  if y = 0 ∨ x = i128Min ∧ y = -1 then none else some (x % y)

def checkedAbs (x : Int) : Option Int := checked x.natAbs

section Computations

variable {α β : Type u}

/-- The computation ends, with a result that satisfies `P`. -/
def Ends (P : α → Prop) (computation : Option α) : Prop := ∃ x, computation = some x ∧ P x

def Agrees (computation : Option α) (x : α) : Prop := ∀ y, computation = some y → y = x

variable {P : α → Prop} {Q : β → Prop} {computation : Option α} {f : α → Option β} {x : α} {y : β}

theorem Ends.pure (h : P x) : Ends P (some x) := ⟨x, rfl, h⟩

theorem Ends.bind (first : Ends P computation) (rest : ∀ x, P x → Ends Q (f x)) :
    Ends Q (computation >>= f) := by
  obtain ⟨x, rfl, hx⟩ := first
  exact rest x hx

theorem Ends.step (first : Ends (· = x) computation) (rest : Ends Q (f x)) :
    Ends Q (computation >>= f) := by
  refine first.bind ?_
  rintro _ rfl
  exact rest

theorem Ends.mono {P' : α → Prop} (h : Ends P computation) (weaker : ∀ x, P x → P' x) :
    Ends P' computation := by
  obtain ⟨x, same, hx⟩ := h
  exact ⟨x, same, weaker x hx⟩

theorem Ends.isSome (h : Ends P computation) : computation.isSome = true := by
  obtain ⟨x, rfl, -⟩ := h
  rfl

theorem Agrees.pure : Agrees (some x) x := fun _ same => (Option.some.inj same).symm

theorem Agrees.bind (first : Agrees computation x) (rest : Agrees (f x) y) :
    Agrees (computation >>= f) y := by
  intro z same
  obtain ⟨x', here, there⟩ := Option.bind_eq_some_iff.mp same
  rw [first x' here] at there
  exact rest z there

theorem Agrees.ite {c : Prop} [Decidable c] {other : Option α} {z : α}
    (left : Agrees computation x) (right : Agrees other z) :
    Agrees (if c then computation else other) (if c then x else z) := by
  split
  · exact left
  · exact right

theorem Agrees.of_eq (same : computation = some x) : Agrees computation x := by
  rw [same]
  exact Agrees.pure

theorem Ends.agrees (h : Ends (· = x) computation) : Agrees computation x := by
  obtain ⟨_, same, rfl⟩ := h
  exact Agrees.of_eq same

theorem Ends.eq_some (h : Ends P computation) (agrees : Agrees computation x) :
    computation = some x := by
  obtain ⟨x', same, -⟩ := h
  rw [same, agrees x' same]

end Computations

section Operations

variable {x y : Int}

theorem ends_checked (fits : FitsI128 x) : Ends (· = x) (checked x) :=
  ⟨x, checked_of_fits fits, rfl⟩

theorem ends_small (small : x.natAbs < 2 ^ 127) : Ends (· = x) (checked x) :=
  ends_checked (.of_natAbs_lt small)

theorem agrees_checked : Agrees (checked x) x := fun _ same => (checked_eq_some same).2

theorem agrees_checkedDiv : Agrees (checkedDiv x y) (x.tdiv y) := by
  unfold checkedDiv
  split
  · intro _ same
    cases same
  · exact agrees_checked

theorem agrees_checkedRem : Agrees (checkedRem x y) (x.tmod y) := by
  unfold checkedRem
  split
  · intro _ same
    cases same
  · exact Agrees.pure

theorem agrees_checkedDivEuclid : Agrees (checkedDivEuclid x y) (x / y) := by
  unfold checkedDivEuclid
  split
  · intro _ same
    cases same
  · exact agrees_checked

theorem agrees_checkedRemEuclid : Agrees (checkedRemEuclid x y) (x % y) := by
  unfold checkedRemEuclid
  split
  · intro _ same
    cases same
  · exact Agrees.pure

theorem agrees_checkedAbs : Agrees (checkedAbs x) x.natAbs := agrees_checked

theorem ends_checkedDiv (fits : FitsI128 x) (positive : 0 < y) :
    Ends (· = x.tdiv y) (checkedDiv x y) := by
  have less : (x.tdiv y).natAbs ≤ x.natAbs := by
    rw [Int.natAbs_tdiv]
    exact Nat.div_le_self ..
  unfold checkedDiv
  rw [if_neg (by omega)]
  refine ends_checked ?_
  rcases le_total 0 x with nonneg | nonpos
  · have sign := Int.tdiv_nonneg nonneg positive.le
    unfold FitsI128 i128Min i128Max at *
    omega
  · unfold FitsI128 i128Min i128Max at *
    have sign := Int.tdiv_nonneg (neg_nonneg.mpr nonpos) positive.le
    rw [Int.neg_tdiv] at sign
    omega

theorem ends_checkedRem (positive : 0 < y) : Ends (· = x.tmod y) (checkedRem x y) := by
  unfold checkedRem
  rw [if_neg (by omega)]
  exact Ends.pure rfl

theorem ends_checkedDivEuclid (fits : FitsI128 x) (positive : 0 < y) :
    Ends (· = x / y) (checkedDivEuclid x y) := by
  unfold checkedDivEuclid
  rw [if_neg (by omega)]
  refine ends_checked ?_
  unfold FitsI128 i128Min i128Max at *
  constructor
  · exact (Int.le_ediv_iff_mul_le positive).mpr (by nlinarith)
  · exact Int.ediv_le_of_le_mul positive (by nlinarith)

theorem ends_checkedRemEuclid (positive : 0 < y) :
    Ends (· = x % y) (checkedRemEuclid x y) := by
  unfold checkedRemEuclid
  rw [if_neg (by omega)]
  exact Ends.pure rfl

theorem ends_checkedAbs (fits : FitsI128 x) (notLeast : x ≠ i128Min) :
    Ends (· = (x.natAbs : Int)) (checkedAbs x) := by
  refine ends_checked ?_
  unfold FitsI128 i128Max at *
  unfold i128Min at *
  omega

end Operations

end AbletonLink.Library.MachineInt
