import AbletonLink.Library.Bytes
import AbletonLink.Link.State

/-! Big-endian encodings of the wire protocol.  A decoder returns the value and the number of bytes
it consumed; an index out of range is a panic of the model, not an error. -/

namespace AbletonLink.Wire

open Library Library.Bytes Link

inductive EncodeError
  | messageTooLarge (size max : Nat)
  deriving DecidableEq

inductive DecodeError
  | unexpectedEnd
  | invalidBool (v : UInt8)
  deriving DecidableEq

inductive Error
  | encoding (error : EncodeError)
  | decoding (error : DecodeError)
  | protocol (text : String)
  deriving DecidableEq

abbrev Decoder (α : Type) := Bytes → Outcome DecodeError (α × Nat)

/-- The fixed-width integers and arrays read `n` bytes after one check of the length. -/
def decodeFixed {α : Type} (n : Nat) (read : Bytes → α) : Decoder α := fun bytes =>
  if bytes.length < n then .error .unexpectedEnd
  else do
    let arr ← slice bytes 0 n
    return (read arr, n)

def readI64 (bytes : Bytes) : Int64 := (UInt64.ofNat (ofBe bytes)).toInt64

def decodeU8 : Decoder UInt8 := decodeFixed 1 fun bytes => UInt8.ofNat (ofBe bytes)
def decodeU16 : Decoder UInt16 := decodeFixed 2 fun bytes => UInt16.ofNat (ofBe bytes)
def decodeU32 : Decoder UInt32 := decodeFixed 4 fun bytes => UInt32.ofNat (ofBe bytes)
def decodeI64 : Decoder Int64 := decodeFixed 8 readI64

def decodeBool : Decoder Bool := fun bytes => do
  let (v, n) ← decodeU8 bytes
  if v = 0 then return (false, n)
  else if v = 1 then return (true, n)
  else .error (.invalidBool v)

def encodeU16 (v : UInt16) : Bytes := toBe 2 v.toNat
def encodeU32 (v : UInt32) : Bytes := toBe 4 v.toNat
def encodeI64 (v : Int64) : Bytes := toBe 8 v.toUInt64.toNat
def encodeBool (v : Bool) : Bytes := [if v then 1 else 0]

def NodeId.read (bytes : Bytes) : NodeId := ⟨Vector.ofFn fun i => bytes.getD i 0⟩

def NodeId.decodeFrom : Decoder NodeId := decodeFixed 8 NodeId.read
def NodeId.encodeTo (id : NodeId) : Bytes := id.bytes.toList

theorem decodeFixed_ok {α : Type} {n : Nat} (read : Bytes → α) {bytes : Bytes}
    (h : n ≤ bytes.length) : decodeFixed n read bytes = .ok (read (bytes.take n), n) := by
  simp [decodeFixed, Nat.not_lt.mpr h, slice_front h]

@[simp] theorem length_encodeU16 (v : UInt16) : (encodeU16 v).length = 2 := length_toBe ..
@[simp] theorem length_encodeU32 (v : UInt32) : (encodeU32 v).length = 4 := length_toBe ..
@[simp] theorem length_encodeI64 (v : Int64) : (encodeI64 v).length = 8 := length_toBe ..
@[simp] theorem length_encodeBool (v : Bool) : (encodeBool v).length = 1 := rfl
@[simp] theorem NodeId.length_encodeTo (id : NodeId) : (NodeId.encodeTo id).length = 8 := by
  simp [NodeId.encodeTo]

theorem readU16_encode (v : UInt16) : UInt16.ofNat (ofBe (encodeU16 v)) = v := by
  rw [encodeU16, ofBe_toBe, Nat.mod_eq_of_lt (show v.toNat < 256 ^ 2 from v.toNat_lt),
    UInt16.ofNat_toNat]

theorem readU32_encode (v : UInt32) : UInt32.ofNat (ofBe (encodeU32 v)) = v := by
  rw [encodeU32, ofBe_toBe, Nat.mod_eq_of_lt (show v.toNat < 256 ^ 4 from v.toNat_lt),
    UInt32.ofNat_toNat]

theorem readI64_encode (v : Int64) : readI64 (encodeI64 v) = v := by
  have small : v.toUInt64.toNat < 256 ^ 8 := v.toUInt64.toNat_lt
  rw [readI64, encodeI64, ofBe_toBe, Nat.mod_eq_of_lt small, UInt64.ofNat_toNat,
    Int64.toInt64_toUInt64]

theorem encodeU32_read {bytes : Bytes} (h : bytes.length = 4) :
    encodeU32 (UInt32.ofNat (ofBe bytes)) = bytes := by
  have small : ofBe bytes < 2 ^ 32 := by
    have := ofBe_lt bytes
    rw [h] at this
    exact this
  have digits := toBe_ofBe bytes
  rw [h] at digits
  rw [encodeU32, UInt32.toNat_ofNat_of_lt' small, digits]

theorem NodeId.read_encode (id : NodeId) : NodeId.read (NodeId.encodeTo id) = id := by
  cases id with
  | mk bytes =>
    rw [NodeId.read, NodeId.encodeTo]
    congr 1
    ext i h
    simp [List.getD]

end AbletonLink.Wire
