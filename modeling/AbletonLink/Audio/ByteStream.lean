import AbletonLink.Wire.Encoding

/-! The byte stream of the audio protocol: big-endian values read by a cursor. -/

namespace AbletonLink.Audio

open Library Library.Bytes Link Wire

abbrev Id := NodeId

inductive AudioError
  | range (text : String)
  | invalid (text : String)
  | messageTooLarge (size max : Nat)
  deriving DecidableEq

/-- A read at the cursor: the value and the bytes behind it, or the error that ends the parse. -/
def ByteStreamReader (α : Type) := Bytes → Except AudioError (α × Bytes)

namespace ByteStreamReader

def bind {α β : Type} (r : ByteStreamReader α) (f : α → ByteStreamReader β) :
    ByteStreamReader β := fun data =>
  match r data with
  | .ok (value, rest) => f value rest
  | .error error => .error error

instance : Monad ByteStreamReader where
  pure value := fun rest => .ok (value, rest)
  bind := bind

def fail {α : Type} (error : AudioError) : ByteStreamReader α := fun _ => .error error

def take (n : Nat) : ByteStreamReader Bytes := fun data =>
  if data.length < n then .error (.range "parsing type from byte stream failed")
  else .ok (data.take n, data.drop n)

def readU8 : ByteStreamReader UInt8 := do return UInt8.ofNat (ofBe (← take 1))
def readU16 : ByteStreamReader UInt16 := do return UInt16.ofNat (ofBe (← take 2))
def readI16 : ByteStreamReader Int16 := do return (← readU16).toInt16
def readU32 : ByteStreamReader UInt32 := do return UInt32.ofNat (ofBe (← take 4))
def readU64 : ByteStreamReader UInt64 := do return UInt64.ofNat (ofBe (← take 8))
def readI64 : ByteStreamReader Int64 := do return (← readU64).toInt64
def readBytes (n : Nat) : ByteStreamReader Bytes := take n
def readId : ByteStreamReader Id := do return NodeId.read (← take 8)

/-- The loop of `read_vec`, which also stops at the end of the data. -/
def readItems {α : Type} (f : ByteStreamReader α) : Nat → ByteStreamReader (List α)
  | 0 => pure []
  | count + 1 => fun data =>
    if data.isEmpty then .ok ([], data)
    else (do
      let item ← f
      let items ← readItems f count
      return item :: items : ByteStreamReader (List α)) data

def readVec {α : Type} (f : ByteStreamReader α) : ByteStreamReader (List α) := do
  let count ← readU32
  readItems f count.toNat

/-- `r` reads `value` off the front of any data that starts with `bytes`. -/
def Reads {α : Type} (r : ByteStreamReader α) (value : α) (bytes : Bytes) : Prop :=
  ∀ rest, r (bytes ++ rest) = .ok (value, rest)

namespace Reads

variable {α β : Type} {value : α} {bytes bytes' : Bytes}

theorem pure (value : α) : Reads (Pure.pure value) value [] := fun _ => rfl

theorem bind {r : ByteStreamReader α} {f : α → ByteStreamReader β} {value' : β}
    (first : Reads r value bytes)
    (second : Reads (f value) value' bytes') : Reads (r >>= f) value' (bytes ++ bytes') := by
  intro rest
  show ByteStreamReader.bind r f _ = _
  rw [ByteStreamReader.bind, List.append_assoc, first]
  exact second rest

theorem map {r : ByteStreamReader α} (f : α → β) (h : Reads r value bytes) :
    Reads (do return f (← r)) (f value) bytes := by
  have both := h.bind (f := fun value => Pure.pure (f value)) (pure (f value))
  rwa [List.append_nil] at both

theorem take {n : Nat} (length : bytes.length = n) :
    Reads (ByteStreamReader.take n) bytes bytes := by
  intro rest
  have enough : ¬(bytes ++ rest).length < n := by
    rw [List.length_append]
    omega
  rw [ByteStreamReader.take, if_neg enough, List.take_left' length, List.drop_left' length]

theorem readU8 (v : UInt8) : Reads ByteStreamReader.readU8 v [v] := by
  have front : Reads (ByteStreamReader.take 1) [v] [v] := take rfl
  have read := front.map fun bytes => UInt8.ofNat (ofBe bytes)
  have byte : UInt8.ofNat (ofBe [v]) = v := by simp [ofBe]
  rwa [byte] at read

theorem readU16 (v : UInt16) : Reads ByteStreamReader.readU16 v (encodeU16 v) := by
  have read := (take (length_encodeU16 v)).map fun bytes => UInt16.ofNat (ofBe bytes)
  rwa [readU16_encode] at read

theorem readU32 (v : UInt32) : Reads ByteStreamReader.readU32 v (encodeU32 v) := by
  have read := (take (length_encodeU32 v)).map fun bytes => UInt32.ofNat (ofBe bytes)
  rwa [readU32_encode] at read

theorem readU64 (v : UInt64) : Reads ByteStreamReader.readU64 v (toBe 8 v.toNat) := by
  have read := (take (length_toBe 8 v.toNat)).map fun bytes => UInt64.ofNat (ofBe bytes)
  have small : v.toNat < 256 ^ 8 := v.toNat_lt
  rwa [ofBe_toBe, Nat.mod_eq_of_lt small, UInt64.ofNat_toNat] at read

theorem readI64 (v : Int64) : Reads ByteStreamReader.readI64 v (encodeI64 v) := by
  have read := (readU64 v.toUInt64).map UInt64.toInt64
  rwa [Int64.toInt64_toUInt64] at read

theorem readId (id : Id) : Reads ByteStreamReader.readId id (NodeId.encodeTo id) := by
  have read := (take (NodeId.length_encodeTo id)).map NodeId.read
  rwa [NodeId.read_encode] at read

theorem readItems {r : ByteStreamReader β} {read : α → β} {encode : α → Bytes} (items : List α)
    (each : ∀ item ∈ items, Reads r (read item) (encode item))
    (nonempty : ∀ item ∈ items, encode item ≠ []) :
    Reads (ByteStreamReader.readItems r items.length) (items.map read) (items.flatMap encode) := by
  induction items with
  | nil => exact pure []
  | cons item items ih =>
    obtain ⟨here, others⟩ := List.forall_mem_cons.mp each
    obtain ⟨some, others'⟩ := List.forall_mem_cons.mp nonempty
    have both := here.bind (f := fun first => do
      let items ← ByteStreamReader.readItems r items.length
      return first :: items) ((ih others others').map fun items => read item :: items)
    intro rest
    have more : ¬(List.flatMap encode (item :: items) ++ rest).isEmpty = true := by
      simp [some]
    exact (if_neg more).trans (both rest)

theorem readVec {r : ByteStreamReader β} {read : α → β} {encode : α → Bytes} {items : List α}
    (few : items.length < 2 ^ 32) (each : ∀ item ∈ items, Reads r (read item) (encode item))
    (nonempty : ∀ item ∈ items, encode item ≠ []) :
    Reads (ByteStreamReader.readVec r) (items.map read)
      (encodeU32 (UInt32.ofNat items.length) ++ items.flatMap encode) := by
  have count : (UInt32.ofNat items.length).toNat = items.length := UInt32.toNat_ofNat_of_lt' few
  refine (readU32 _).bind ?_
  rw [count]
  exact readItems items each nonempty

end Reads

end ByteStreamReader

end AbletonLink.Audio
