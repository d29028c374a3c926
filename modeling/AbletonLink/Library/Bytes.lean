import Mathlib.Tactic

/-! Byte strings: big-endian numerals, slices, and code that can return an error or panic. -/

universe u v w

namespace AbletonLink.Library

abbrev Bytes := List UInt8

namespace Bytes

/-- The `n` low bytes of `v`, the most significant first. -/
def toBe : Nat → Nat → Bytes
  | 0, _ => []
  | n + 1, v => UInt8.ofNat (v / 256 ^ n) :: toBe n v

def ofBe : Bytes → Nat
  | [] => 0
  | b :: bytes => b.toNat * 256 ^ bytes.length + ofBe bytes

@[simp] theorem length_toBe (n v : Nat) : (toBe n v).length = n := by
  induction n with
  | zero => rfl
  | succ n ih => simp [toBe, ih]

theorem ofBe_lt (bytes : Bytes) : ofBe bytes < 256 ^ bytes.length := by
  induction bytes with
  | nil => decide
  | cons b bytes ih =>
    have digit : b.toNat + 1 ≤ 256 := b.toNat_lt
    calc b.toNat * 256 ^ bytes.length + ofBe bytes
      _ < (b.toNat + 1) * 256 ^ bytes.length := by
        rw [Nat.add_mul, Nat.one_mul]
        exact Nat.add_lt_add_left ih _
      _ ≤ 256 * 256 ^ bytes.length := Nat.mul_le_mul_right _ digit
      _ = 256 ^ (bytes.length + 1) := (Nat.pow_succ').symm

theorem ofBe_toBe (n v : Nat) : ofBe (toBe n v) = v % 256 ^ n := by
  induction n with
  | zero => simp [toBe, ofBe, Nat.mod_one]
  | succ n ih =>
    have digit : (UInt8.ofNat (v / 256 ^ n)).toNat = v / 256 ^ n % 256 := by simp
    rw [toBe, ofBe, length_toBe, ih, digit, Nat.pow_succ, Nat.mod_mul]
    ring

theorem toBe_add_mul (n k v : Nat) : toBe n (k * 256 ^ n + v) = toBe n v := by
  induction n generalizing k with
  | zero => rfl
  | succ n ih =>
    have shift : k * 256 ^ (n + 1) + v = k * 256 * 256 ^ n + v := by ring
    have quotient : (k * 256 * 256 ^ n + v) / 256 ^ n = v / 256 ^ n + 256 * k := by
      rw [Nat.add_comm, Nat.add_mul_div_right _ _ (Nat.pow_pos (by decide)), Nat.mul_comm k]
    rw [toBe, toBe, shift, ih, quotient]
    congr 1
    apply UInt8.toNat_inj.mp
    simp

theorem toBe_ofBe (bytes : Bytes) : toBe bytes.length (ofBe bytes) = bytes := by
  induction bytes with
  | nil => rfl
  | cons b bytes ih =>
    have high : (b.toNat * 256 ^ bytes.length + ofBe bytes) / 256 ^ bytes.length = b.toNat := by
      rw [Nat.add_comm, Nat.add_mul_div_right _ _ (Nat.pow_pos (by decide)),
        Nat.div_eq_of_lt (ofBe_lt bytes), Nat.zero_add]
    rw [List.length_cons, toBe, ofBe, toBe_add_mul, ih, high, UInt8.ofNat_toNat]

/-- The result of code that returns a value, returns an error or panics. -/
inductive Outcome (ε : Type u) (α : Type v)
  | ok (value : α)
  | error (error : ε)
  | panicked
  deriving DecidableEq

namespace Outcome

variable {ε : Type u} {ε' : Type w} {α β : Type v}

def bind (x : Outcome ε α) (f : α → Outcome ε β) : Outcome ε β :=
  match x with
  | .ok value => f value
  | .error e => .error e
  | .panicked => .panicked

instance : Monad (Outcome ε) where
  pure := .ok
  bind := bind

@[simp] theorem pure_eq (value : α) : (pure value : Outcome ε α) = .ok value := rfl

@[simp] theorem ok_bind (value : α) (f : α → Outcome ε β) : (.ok value >>= f) = f value := rfl

@[simp] theorem error_bind (e : ε) (f : α → Outcome ε β) : (.error e >>= f) = .error e := rfl

@[simp] theorem panicked_bind (f : α → Outcome ε β) : (.panicked >>= f) = .panicked := rfl

def mapError (f : ε → ε') : Outcome ε α → Outcome ε' α
  | .ok value => .ok value
  | .error e => .error (f e)
  | .panicked => .panicked

@[simp] theorem mapError_ok (f : ε → ε') (value : α) :
    (.ok value : Outcome ε α).mapError f = .ok value := rfl

@[simp] theorem mapError_error (f : ε → ε') (e : ε) :
    (.error e : Outcome ε α).mapError f = .error (f e) := rfl

end Outcome

def slice {ε : Type u} (data : Bytes) (start stop : Nat) : Outcome ε Bytes :=
  if start ≤ stop ∧ stop ≤ data.length then .ok ((data.take stop).drop start) else .panicked

theorem slice_front {ε : Type u} {data : Bytes} {stop : Nat} (h : stop ≤ data.length) :
    slice (ε := ε) data 0 stop = .ok (data.take stop) := by
  simp [slice, h]

theorem slice_back {ε : Type u} {data : Bytes} {start : Nat} (h : start ≤ data.length) :
    slice (ε := ε) data start data.length = .ok (data.drop start) := by
  simp [slice, h]

section Append

variable {ε : Type u} {a b c : Bytes} {n m : Nat}

theorem slice_left (ha : a.length = n) : slice (ε := ε) (a ++ b) 0 n = .ok a := by
  subst ha
  rw [slice_front (by simp), List.take_left]

theorem slice_middle (ha : a.length = n) (hb : b.length = m) :
    slice (ε := ε) (a ++ (b ++ c)) n (n + m) = .ok b := by
  subst ha hb
  simp [slice, List.take_length_add_append]

theorem slice_right (ha : a.length = n) (hb : b.length = m) :
    slice (ε := ε) (a ++ (b ++ c)) (n + m) (a ++ (b ++ c)).length = .ok c := by
  subst ha hb
  rw [slice_back (by simp), ← List.drop_drop, List.drop_left, List.drop_left]

end Append

end Bytes

end AbletonLink.Library
