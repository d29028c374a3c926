import AbletonLink.Audio.Payload

/-! The bytes of a string, which a lossy read gives back unchanged. -/

namespace AbletonLink.Audio

open Library Library.Bytes

def asBytes (s : String) : Bytes := s.toList.flatMap String.utf8EncodeChar

theorem toByteArray_eq (s : String) : s.toByteArray = (asBytes s).toByteArray := by
  conv_lhs => rw [← String.ofList_toList (s := s)]
  exact String.toByteArray_ofList

theorem length_asBytes (s : String) : (asBytes s).length = s.utf8ByteSize := by
  rw [← String.size_toByteArray, toByteArray_eq]
  simp

theorem continuation_of {b : UInt8} (low : 128 ≤ b.toNat) (high : b.toNat ≤ 191) :
    continuation b = true := by
  simp [continuation, UInt8.le_iff_toNat_le, low, high]

theorem not_below {b limit : UInt8} (h : limit.toNat ≤ b.toNat) : ¬b < limit := by
  rw [UInt8.lt_iff_toNat_lt]
  exact Nat.not_lt.mpr h

theorem not_within {b limit : UInt8} (h : limit.toNat < b.toNat) : ¬b ≤ limit := by
  rw [UInt8.le_iff_toNat_le]
  exact Nat.not_le.mpr h

/-! A whole sequence is one character. -/

theorem lossyChar_one {b : UInt8} (low : b.toNat < 128) (rest : Bytes) :
    lossyChar (b :: rest) = (codePoint b.toNat [], 1) := by
  have ascii : b < 0x80 := UInt8.lt_iff_toNat_lt.mpr low
  simp [lossyChar, safeGet, ascii]

theorem lossyChar_two {b c : UInt8} (low : 194 ≤ b.toNat) (high : b.toNat ≤ 223)
    (tail : continuation c = true) (rest : Bytes) :
    lossyChar (b :: c :: rest) = (codePoint (b.toNat % 32) [c], 2) := by
  have ascii : ¬b < 0x80 := not_below (le_trans (by decide) low)
  have first : 0xC2 ≤ b := UInt8.le_iff_toNat_le.mpr low
  have last : b ≤ 0xDF := UInt8.le_iff_toNat_le.mpr high
  simp [lossyChar, safeGet, ascii, first, last, tail]

theorem lossyChar_three {b c d : UInt8} (low : 224 ≤ b.toNat) (high : b.toNat ≤ 239)
    (second : secondByte b c = true) (tail : continuation d = true) (rest : Bytes) :
    lossyChar (b :: c :: d :: rest) = (codePoint (b.toNat % 16) [c, d], 3) := by
  have ascii : ¬b < 0x80 := not_below (le_trans (by decide) low)
  have short : ¬b ≤ 0xDF := not_within (lt_of_lt_of_le (by decide) low)
  have first : 0xE0 ≤ b := UInt8.le_iff_toNat_le.mpr low
  have last : b ≤ 0xEF := UInt8.le_iff_toNat_le.mpr high
  simp [lossyChar, safeGet, ascii, short, first, last, second, tail]

theorem lossyChar_four {b c d e : UInt8} (low : 240 ≤ b.toNat) (high : b.toNat ≤ 244)
    (second : secondByte b c = true) (tail : continuation d = true)
    (tail' : continuation e = true) (rest : Bytes) :
    lossyChar (b :: c :: d :: e :: rest) = (codePoint (b.toNat % 8) [c, d, e], 4) := by
  have ascii : ¬b < 0x80 := not_below (le_trans (by decide) low)
  have short : ¬b ≤ 0xDF := not_within (lt_of_lt_of_le (by decide) low)
  have short' : ¬b ≤ 0xEF := not_within (lt_of_lt_of_le (by decide) low)
  have first : 0xF0 ≤ b := UInt8.le_iff_toNat_le.mpr low
  have last : b ≤ 0xF4 := UInt8.le_iff_toNat_le.mpr high
  simp [lossyChar, safeGet, ascii, short, short', first, last, second, tail, tail']

theorem toNat_byte {n : Nat} (small : n < 256) : (UInt8.ofNat n).toNat = n :=
  UInt8.toNat_ofNat_of_lt' small

theorem secondByte_of_mid {b c : UInt8} (low : 128 ≤ c.toNat) (high : c.toNat ≤ 191)
    (overlong : b.toNat = 224 → 160 ≤ c.toNat) (surrogate : b.toNat = 237 → c.toNat ≤ 159)
    (overlong' : b.toNat = 240 → 144 ≤ c.toNat) (beyond : b.toNat = 244 → c.toNat ≤ 143) :
    secondByte b c = true := by
  unfold secondByte
  simp only [← UInt8.toNat_inj, UInt8.toNat_ofNat]
  split
  next is => simp [UInt8.le_iff_toNat_le, overlong is, high]
  next =>
    split
    next is => simp [UInt8.le_iff_toNat_le, surrogate is, low]
    next =>
      split
      next is => simp [UInt8.le_iff_toNat_le, overlong' is, high]
      next =>
        split
        next is => simp [UInt8.le_iff_toNat_le, beyond is, low]
        next => exact continuation_of low high

theorem lossyChar_encode (c : Char) (rest : Bytes) :
    lossyChar (String.utf8EncodeChar c ++ rest) = (c, (String.utf8EncodeChar c).length) := by
  have valid : c.val.toNat < 0xD800 ∨ 0xDFFF < c.val.toNat ∧ c.val.toNat < 0x110000 := c.valid
  have char : Char.ofNat c.val.toNat = c := Char.ofNat_toNat c
  unfold String.utf8EncodeChar
  simp only
  generalize c.val.toNat = v at valid char
  split
  next ascii =>
    have first := toNat_byte (show v < 256 by omega)
    rw [List.singleton_append, lossyChar_one (by omega), first]
    simpa [codePoint] using char
  next =>
    split
    next two =>
      have first := toNat_byte (show v / 64 % 32 + 192 < 256 by omega)
      have second := toNat_byte (show v % 64 + 128 < 256 by omega)
      rw [List.cons_append, List.singleton_append, lossyChar_two (by omega) (by omega)
        (continuation_of (by omega) (by omega)), codePoint]
      simp only [List.foldl_cons, List.foldl_nil, first, second]
      rw [show (v / 64 % 32 + 192) % 32 * 64 + (v % 64 + 128) % 64 = v by omega, char]
      rfl
    next =>
      split
      next three =>
        have first := toNat_byte (show v / 4096 % 16 + 224 < 256 by omega)
        have second := toNat_byte (show v / 64 % 64 + 128 < 256 by omega)
        have third := toNat_byte (show v % 64 + 128 < 256 by omega)
        rw [List.cons_append, List.cons_append, List.singleton_append,
          lossyChar_three (by omega) (by omega)
            (secondByte_of_mid (by omega) (by omega) (by omega) (by omega) (by omega) (by omega))
            (continuation_of (by omega) (by omega)), codePoint]
        simp only [List.foldl_cons, List.foldl_nil, first, second, third]
        rw [show ((v / 4096 % 16 + 224) % 16 * 64 + (v / 64 % 64 + 128) % 64) * 64 +
          (v % 64 + 128) % 64 = v by omega, char]
        rfl
      next four =>
        have first := toNat_byte (show v / 262144 % 8 + 240 < 256 by omega)
        have second := toNat_byte (show v / 4096 % 64 + 128 < 256 by omega)
        have third := toNat_byte (show v / 64 % 64 + 128 < 256 by omega)
        have fourth := toNat_byte (show v % 64 + 128 < 256 by omega)
        rw [List.cons_append, List.cons_append, List.cons_append, List.singleton_append,
          lossyChar_four (by omega) (by omega)
            (secondByte_of_mid (by omega) (by omega) (by omega) (by omega) (by omega) (by omega))
            (continuation_of (by omega) (by omega)) (continuation_of (by omega) (by omega)),
          codePoint]
        simp only [List.foldl_cons, List.foldl_nil, first, second, third, fourth]
        rw [show (((v / 262144 % 8 + 240) % 8 * 64 + (v / 4096 % 64 + 128) % 64) * 64 +
          (v / 64 % 64 + 128) % 64) * 64 + (v % 64 + 128) % 64 = v by omega, char]
        rfl

theorem lossyChars_encode (chars : List Char) {fuel : Nat} (enough : chars.length ≤ fuel) :
    lossyChars fuel (chars.flatMap String.utf8EncodeChar) = chars := by
  induction chars generalizing fuel with
  | nil => cases fuel <;> rfl
  | cons c chars ih =>
    cases fuel with
    | zero => exact absurd enough (by simp)
    | succ fuel =>
      have some : ((c :: chars).flatMap String.utf8EncodeChar).isEmpty = false := by
        simp [String.utf8EncodeChar_ne_nil]
      rw [lossyChars, some, List.flatMap_cons, lossyChar_encode]
      simp only [Bool.false_eq_true, if_false, List.drop_left]
      rw [ih (Nat.le_of_succ_le_succ enough)]

theorem fromUtf8Lossy_asBytes (s : String) : fromUtf8Lossy (asBytes s) = s := by
  have some : ∀ c ∈ s.toList, 1 ≤ (String.utf8EncodeChar c).length := by
    intro c _
    exact List.length_pos_iff.mpr String.utf8EncodeChar_ne_nil
  have enough : s.toList.length ≤ (asBytes s).length := by
    rw [asBytes, List.length_flatMap]
    exact (List.length_map ..).symm.trans_le (List.length_le_sum_of_one_le _ (by simpa using some))
  rw [fromUtf8Lossy, asBytes, lossyChars_encode _ (by rwa [asBytes] at enough),
    String.ofList_toList]

end AbletonLink.Audio
