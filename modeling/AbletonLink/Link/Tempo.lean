import AbletonLink.Link.Duration

namespace AbletonLink.Link

open Library Library.MachineInt

/-- Fixed-point beats, counted in millionths. -/
structure Beats where
  value : Int64
  deriving DecidableEq

instance : Inhabited Beats := ⟨⟨0⟩⟩
instance : LT Beats := ⟨fun a b => a.value < b.value⟩
instance (a b : Beats) : Decidable (a < b) := inferInstanceAs (Decidable (a.value < b.value))
instance : LE Beats := ⟨fun a b => a.value ≤ b.value⟩
instance (a b : Beats) : Decidable (a ≤ b) := inferInstanceAs (Decidable (a.value ≤ b.value))

theorem Beats.lt_iff {a b : Beats} : a < b ↔ a.value.toInt < b.value.toInt :=
  Int64.lt_iff_toInt_lt

theorem Beats.ext {a b : Beats} (h : a.value.toInt = b.value.toInt) : a = b := by
  cases a
  cases b
  exact congrArg Beats.mk (Int64.toInt_inj.mp h)

namespace Beats

def new (beats : Float) : Beats := ⟨Int64.ofInt (Binary64.roundAs i64Min i64Max (beats * 1e6))⟩

instance : Add Beats := ⟨fun a b => ⟨narrow (a.value.toInt + b.value.toInt)⟩⟩
instance : Sub Beats := ⟨fun a b => ⟨narrow (a.value.toInt - b.value.toInt)⟩⟩

def abs (a : Beats) : Beats := ⟨narrow a.value.toInt.natAbs⟩

def floating (a : Beats) : Float := Float.ofInt a.value.toInt / 1e6

end Beats

@[ext] structure Tempo where
  value : Float
  deriving DecidableEq

instance : Inhabited Tempo := ⟨⟨0.0⟩⟩

namespace Tempo

instance : BEq Tempo := ⟨fun a b => a.value == b.value⟩

def bpm (t : Tempo) : Float := t.value

def periodMicros (t : Tempo) : Int :=
  Binary64.roundAs i128Min i128Max (60.0 * 1e6 / t.bpm)

/-- One bit of the long division of `1000 * remainder` by `denominator`: double the partial
quotient and residue, then add `remainder` if the bit of the scale is set. -/
def divideBit (denominator remainder : Nat) (acc : Nat × Nat) (bit : Nat) : Nat × Nat :=
  let (fraction, residue) := acc
  let fraction := fraction * 2
  let (fraction, residue) :=
    if residue ≥ denominator - residue then (fraction + 1, residue - (denominator - residue))
    else (fraction, residue * 2)
  if (1000 >>> bit) &&& 1 ≠ 0 then
    if residue ≥ denominator - remainder then
      (fraction + 1, residue - (denominator - remainder))
    else (fraction, residue + remainder)
  else (fraction, residue)

def microbeatsFromNanos (t : Tempo) (nanos : Int) : Int :=
  let period := t.periodMicros
  if period = 0 then roundRatio nanos period
  else
    match checked (nanos * 1000) with
    | some scaled => roundRatio scaled period
    | none =>
      let negative := decide (nanos < 0) != decide (period < 0)
      let magnitude := nanos.natAbs
      let denominator := period.natAbs
      let remainder := magnitude % denominator
      let (fraction, residue) :=
        [9, 8, 7, 6, 5, 4, 3, 2, 1, 0].foldl (divideBit denominator remainder) (0, 0)
      let rounded := saturateU (saturateU (saturateU (magnitude / denominator * 1000) + fraction) +
        if residue ≥ (denominator + 1) / 2 then 1 else 0)
      let bounded : Int := min rounded i128Max
      if negative then (if (rounded : Int) > i128Max then i128Min else -bounded) else bounded

def microsFromMicrobeats (t : Tempo) (beats : Int) : Int :=
  let period := t.periodMicros
  saturate (saturate (saturate (beats.tdiv 1000000 * period) +
      saturate (beats.tmod 1000000 * period.tdiv 1000000)) +
    roundRatio (beats.tmod 1000000 * period.tmod 1000000) 1000000)

def nanosFromMicrobeats (t : Tempo) (beats : Int) : Int :=
  let period := t.periodMicros
  saturate (saturate (saturate (beats.tdiv 1000 * period) +
      saturate (beats.tmod 1000 * period.tdiv 1000)) +
    roundRatio (beats.tmod 1000 * period.tmod 1000) 1000)

end Tempo

end AbletonLink.Link
