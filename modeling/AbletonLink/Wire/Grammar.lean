import AbletonLink.Wire.Payload

/-! The language of payloads, stated over whole byte strings: a run of frames that each fit, and
fewer bytes after them than a header takes.  The decoder accepts exactly this language. -/

namespace AbletonLink.Wire

open Library Library.Bytes Link

inductive EntryKind
  | hostTime
  | ghostTime
  | prevGhostTime
  | timeline
  | sessionMembership
  | startStopState
  | measurementEndpointV4
  | audioEndpointV4
  deriving DecidableEq

namespace EntryKind

def key : EntryKind → UInt32
  | .hostTime => keyOf '_' '_' 'h' 't'
  | .ghostTime => keyOf '_' '_' 'g' 't'
  | .prevGhostTime => keyOf '_' 'p' 'g' 't'
  | .timeline => keyOf 't' 'm' 'l' 'n'
  | .sessionMembership => keyOf 's' 'e' 's' 's'
  | .startStopState => keyOf 's' 't' 's' 't'
  | .measurementEndpointV4 => keyOf 'm' 'e' 'p' '4'
  | .audioEndpointV4 => keyOf 'a' 'e' 'p' '4'

def size : EntryKind → Nat
  | .hostTime | .ghostTime | .prevGhostTime | .sessionMembership => 8
  | .timeline => 24
  | .startStopState => 17
  | .measurementEndpointV4 | .audioEndpointV4 => 6

def all : List EntryKind :=
  [.hostTime, .ghostTime, .prevGhostTime, .timeline, .sessionMembership, .startStopState,
    .measurementEndpointV4, .audioEndpointV4]

def Valid (body : Bytes) : EntryKind → Prop
  | .startStopState => body.head? = some 0 ∨ body.head? = some 1
  | _ => True

def entry (body : Bytes) : EntryKind → PayloadEntry
  | .hostTime => .hostTime (.microseconds (readI64 body))
  | .ghostTime => .ghostTime (.microseconds (readI64 body))
  | .prevGhostTime => .prevGhostTime (.microseconds (readI64 body))
  | .timeline =>
    .timeline
      { tempo := .fromPeriod (.microseconds (readI64 (body.take 8)))
        beatOrigin := ⟨readI64 ((body.drop 8).take 8)⟩
        timeOrigin := .microseconds (readI64 (body.drop 16)) }
  | .sessionMembership => .sessionMembership ⟨NodeId.read body⟩
  | .startStopState =>
    .startStopState
      { isPlaying := body.head? = some 1
        beats := ⟨readI64 ((body.drop 1).take 8)⟩
        timestamp := .microseconds (readI64 (body.drop 9)) }
  | .measurementEndpointV4 =>
    let ip := UInt32.ofNat (ofBe (body.take 4))
    let port := UInt16.ofNat (ofBe (body.drop 4))
    .measurementEndpointV4 (if ip = 0 ∧ port = 0 then none else some ⟨ip, port⟩)
  | .audioEndpointV4 =>
    let ip := UInt32.ofNat (ofBe (body.take 4))
    let port := UInt16.ofNat (ofBe (body.drop 4))
    .audioEndpointV4 (if ip = 0 ∨ port = 0 then none else some ⟨ip, port⟩)

end EntryKind

/-- A key, a size that fits its four bytes, and that many bytes. -/
structure Frame where
  key : UInt32
  body : Bytes
  fits : body.length < 2 ^ 32

namespace Frame

def bytes (f : Frame) : Bytes :=
  encodeU32 f.key ++ encodeU32 (UInt32.ofNat f.body.length) ++ f.body

def kind (f : Frame) : Option EntryKind := EntryKind.all.find? fun kind => kind.key = f.key

/-- An unknown frame is skipped whatever it holds; a known one must be an entry of its kind. -/
def Accepted (f : Frame) : Prop :=
  ∀ kind ∈ f.kind, f.body.length = kind.size ∧ kind.Valid f.body

def entry (f : Frame) : Option PayloadEntry := f.kind.map fun kind => kind.entry f.body

end Frame

def entries (frames : List Frame) : Payload := frames.filterMap Frame.entry

/-- `data` starts with the accepted `frames`. -/
structure Framed (data : Bytes) (frames : List Frame) (rest : Bytes) : Prop where
  data : data = frames.flatMap Frame.bytes ++ rest
  accepted : ∀ f ∈ frames, f.Accepted

def Grammar (data : Bytes) (frames : List Frame) : Prop :=
  ∃ trailing, Framed data frames trailing ∧ trailing.length < 8

/-- The first frame of `rest` is the offending one, and why. -/
inductive Offends (rest : Bytes) : Error → Prop
  | truncated (header : 8 ≤ rest.length)
      (short : rest.length < 8 + ofBe ((rest.drop 4).take 4)) :
      Offends rest (.protocol "truncated payload entry")
  | size {f : Frame} {after : Bytes} {kind : EntryKind} (data : rest = f.bytes ++ after)
      (known : f.kind = some kind) (size : f.body.length ≠ kind.size) :
      Offends rest (.protocol "payload entry size mismatch")
  | bool {f : Frame} {after body : Bytes} {v : UInt8} (data : rest = f.bytes ++ after)
      (known : f.kind = some .startStopState) (size : f.body.length = 17)
      (invalid : ¬EntryKind.startStopState.Valid f.body) (value : f.body = v :: body) :
      Offends rest (.decoding (.invalidBool v))

/-! Each decoder on a body of its size. -/

section Bodies

variable {body : Bytes}

theorem decodeTime_body (size : body.length = 8) :
    decodeTime body = .ok (.microseconds (readI64 body), 8) := by
  simp [decodeTime, decodeI64, decodeFixed_ok _ size.ge, List.take_of_length_le size.le]

theorem SessionId.decodeFrom_body (size : body.length = 8) :
    SessionId.decodeFrom body = .ok (⟨NodeId.read body⟩, 8) := by
  simp [SessionId.decodeFrom, NodeId.decodeFrom, decodeFixed_ok _ size.ge,
    List.take_of_length_le size.le]

theorem Timeline.decodeFrom_body (size : body.length = 24) :
    Timeline.decodeFrom body = .ok (
      { tempo := .fromPeriod (.microseconds (readI64 (body.take 8)))
        beatOrigin := ⟨readI64 ((body.drop 8).take 8)⟩
        timeOrigin := .microseconds (readI64 (body.drop 16)) }, 24) := by
  have first : 8 ≤ body.length := by omega
  have second : 16 ≤ body.length := by omega
  have left : 8 ≤ (body.drop 8).length := by simp [size]
  have left' : 8 ≤ (body.drop 16).length := by simp [size]
  have all : (body.drop 16).take 8 = body.drop 16 := List.take_of_length_le (by simp [size])
  simp only [Timeline.decodeFrom, decodeI64, decodeFixed_ok _ first, Outcome.ok_bind,
    slice_back first, decodeFixed_ok _ left, Nat.reduceAdd, slice_back second,
    decodeFixed_ok _ left', all, Outcome.pure_eq]

theorem decodeBool_cons (v : UInt8) (rest : Bytes) :
    decodeBool (v :: rest) =
      if v = 0 then .ok (false, 1) else if v = 1 then .ok (true, 1)
      else .error (.invalidBool v) := by
  have byte : UInt8.ofNat (ofBe [v]) = v := by simp [ofBe]
  simp only [decodeBool, decodeU8]
  rw [decodeFixed_ok _ (by simp)]
  simp only [List.take_succ_cons, List.take_zero, byte, Outcome.ok_bind, Outcome.pure_eq]

theorem StartStopState.decodeFrom_body (size : body.length = 17) {isPlaying : Bool}
    (flag : decodeBool body = .ok (isPlaying, 1)) :
    StartStopState.decodeFrom body = .ok (
      { isPlaying
        beats := ⟨readI64 ((body.drop 1).take 8)⟩
        timestamp := .microseconds (readI64 (body.drop 9)) }, 17) := by
  have first : 1 ≤ body.length := by omega
  have second : 9 ≤ body.length := by omega
  have left : 8 ≤ (body.drop 1).length := by simp [size]
  have left' : 8 ≤ (body.drop 9).length := by simp [size]
  have all : (body.drop 9).take 8 = body.drop 9 := List.take_of_length_le (by simp [size])
  simp only [StartStopState.decodeFrom, flag, Outcome.ok_bind, slice_back first,
    Beats.decodeFrom, decodeI64, decodeFixed_ok _ left, Outcome.pure_eq, Nat.reduceAdd,
    slice_back second, decodeFixed_ok _ left', all]

theorem decodeEndpoint_body (size : body.length = 6) :
    decodeU32 body = .ok (UInt32.ofNat (ofBe (body.take 4)), 4) ∧
      slice (ε := DecodeError) body 4 body.length = .ok (body.drop 4) ∧
      decodeU16 (body.drop 4) = .ok (UInt16.ofNat (ofBe (body.drop 4)), 2) := by
  have first : 4 ≤ body.length := by omega
  have left : 2 ≤ (body.drop 4).length := by simp [size]
  have all : (body.drop 4).take 2 = body.drop 4 := List.take_of_length_le (by simp [size])
  exact ⟨decodeFixed_ok _ first, slice_back first, by rw [decodeU16, decodeFixed_ok _ left, all]⟩

theorem MeasurementEndpointV4.decodeFrom_body (size : body.length = 6) :
    MeasurementEndpointV4.decodeFrom body =
      (let ip := UInt32.ofNat (ofBe (body.take 4))
      let port := UInt16.ofNat (ofBe (body.drop 4))
      .ok (if ip = 0 ∧ port = 0 then none else some ⟨ip, port⟩, 6)) := by
  obtain ⟨ip, rest, port⟩ := decodeEndpoint_body size
  simp only [MeasurementEndpointV4.decodeFrom, ip, rest, port, Outcome.ok_bind, Outcome.pure_eq]
  grind

theorem AudioEndpointV4.decodeFrom_body (size : body.length = 6) :
    AudioEndpointV4.decodeFrom body =
      (let ip := UInt32.ofNat (ofBe (body.take 4))
      let port := UInt16.ofNat (ofBe (body.drop 4))
      .ok (if ip = 0 ∨ port = 0 then none else some ⟨ip, port⟩, 6)) := by
  obtain ⟨ip, rest, port⟩ := decodeEndpoint_body size
  simp only [AudioEndpointV4.decodeFrom, ip, rest, port, Outcome.ok_bind, Outcome.pure_eq]

end Bodies

/-! One frame. -/

theorem EntryKind.mem_all (kind : EntryKind) : kind ∈ EntryKind.all := by
  cases kind <;> decide

def EntryKind.decode (header : PayloadEntryHeader) (body : Bytes) :
    EntryKind → Outcome Error (Option PayloadEntry)
  | .hostTime => decodeSized header hostTimeSize decodeTime .hostTime body
  | .ghostTime => decodeSized header ghostTimeSize decodeTime .ghostTime body
  | .prevGhostTime => decodeSized header prevGhostTimeSize decodeTime .prevGhostTime body
  | .timeline => decodeSized header timelineSize Timeline.decodeFrom .timeline body
  | .sessionMembership =>
    decodeSized header sessionMembershipSize SessionId.decodeFrom .sessionMembership body
  | .startStopState =>
    decodeSized header startStopStateSize StartStopState.decodeFrom .startStopState body
  | .measurementEndpointV4 =>
    decodeSized header measurementEndpointV4Size MeasurementEndpointV4.decodeFrom
      .measurementEndpointV4 body
  | .audioEndpointV4 =>
    decodeSized header audioEndpointV4Size AudioEndpointV4.decodeFrom .audioEndpointV4 body

theorem decodeEntry_known (kind : EntryKind) (size : UInt32) (body : Bytes) :
    decodeEntry ⟨kind.key, size⟩ body = kind.decode ⟨kind.key, size⟩ body := by
  unfold decodeEntry
  dsimp only
  cases kind with
  | hostTime => exact if_pos rfl
  | timeline =>
    rw [if_neg (by decide)]
    exact if_pos rfl
  | sessionMembership =>
    iterate 2 rw [if_neg (by decide)]
    exact if_pos rfl
  | startStopState =>
    iterate 3 rw [if_neg (by decide)]
    exact if_pos rfl
  | measurementEndpointV4 =>
    iterate 4 rw [if_neg (by decide)]
    exact if_pos rfl
  | audioEndpointV4 =>
    iterate 5 rw [if_neg (by decide)]
    exact if_pos rfl
  | ghostTime =>
    iterate 7 rw [if_neg (by decide)]
    exact if_pos rfl
  | prevGhostTime =>
    iterate 8 rw [if_neg (by decide)]
    exact if_pos rfl

theorem decodeEntry_unknown {key : UInt32} (unknown : ∀ kind : EntryKind, kind.key ≠ key)
    (size : UInt32) (body : Bytes) : decodeEntry ⟨key, size⟩ body = .ok none := by
  have hostTime : key ≠ hostTimeHeaderKey := (unknown .hostTime).symm
  have ghostTime : key ≠ ghostTimeHeaderKey := (unknown .ghostTime).symm
  have prevGhostTime : key ≠ prevGhostTimeHeaderKey := (unknown .prevGhostTime).symm
  have timeline : key ≠ timelineHeaderKey := (unknown .timeline).symm
  have membership : key ≠ sessionMembershipHeaderKey := (unknown .sessionMembership).symm
  have startStop : key ≠ startStopStateHeaderKey := (unknown .startStopState).symm
  have measurement : key ≠ measurementEndpointV4HeaderKey := (unknown .measurementEndpointV4).symm
  have audio : key ≠ audioEndpointV4HeaderKey := (unknown .audioEndpointV4).symm
  simp only [decodeEntry, hostTime, ghostTime, prevGhostTime, timeline, membership, startStop,
    measurement, audio, if_false, ite_self]

theorem decodeEntry_mismatch {kind : EntryKind} {size : UInt32} (mismatch : size.toNat ≠ kind.size)
    (body : Bytes) : decodeEntry ⟨kind.key, size⟩ body =
      .error (.protocol "payload entry size mismatch") := by
  rw [decodeEntry_known]
  cases kind with
  | _ => exact if_neg (fun eq => mismatch (congrArg UInt32.toNat eq))

theorem decodeSized_ok {α : Type} {header : PayloadEntryHeader} {expected : UInt32}
    {decoder : Decoder α} {body : Bytes} {value : α} {n : Nat}
    (declared : header.size.toNat = expected.toNat) (decoded : decoder body = .ok (value, n))
    (entry : α → PayloadEntry) :
    decodeSized header expected decoder entry body = .ok (some (entry value)) := by
  simp [decodeSized, UInt32.toNat_inj.mp declared, decoded]

theorem decodeEntry_valid {kind : EntryKind} {size : UInt32} {body : Bytes}
    (declared : size.toNat = kind.size) (length : body.length = kind.size)
    (valid : kind.Valid body) :
    decodeEntry ⟨kind.key, size⟩ body = .ok (some (kind.entry body)) := by
  rw [decodeEntry_known]
  cases kind with
  | hostTime | ghostTime | prevGhostTime =>
    exact decodeSized_ok declared (decodeTime_body length) _
  | timeline => exact decodeSized_ok declared (Timeline.decodeFrom_body length) _
  | sessionMembership => exact decodeSized_ok declared (SessionId.decodeFrom_body length) _
  | startStopState =>
    cases body with
    | nil => cases length
    | cons v rest =>
      have flag : decodeBool (v :: rest) = .ok (decide ((v :: rest).head? = some 1), 1) := by
        rw [decodeBool_cons]
        simp only [EntryKind.Valid, List.head?_cons, Option.some.injEq] at valid
        rcases valid with rfl | rfl
        · rfl
        · rfl
      exact decodeSized_ok declared (StartStopState.decodeFrom_body length flag) _
  | measurementEndpointV4 =>
    exact decodeSized_ok declared (MeasurementEndpointV4.decodeFrom_body length) _
  | audioEndpointV4 =>
    exact decodeSized_ok declared (AudioEndpointV4.decodeFrom_body length) _

theorem decodeEntry_invalid {kind : EntryKind} {size : UInt32} {v : UInt8} {body rest : Bytes}
    (declared : size.toNat = kind.size) (invalid : ¬kind.Valid body) (value : body = v :: rest) :
    decodeEntry ⟨kind.key, size⟩ body = .error (.decoding (.invalidBool v)) := by
  subst value
  rw [decodeEntry_known]
  cases kind with
  | startStopState =>
    have same : size = startStopStateSize := UInt32.toNat_inj.mp declared
    simp only [EntryKind.Valid, List.head?_cons, Option.some.injEq, not_or] at invalid
    simp [EntryKind.decode, decodeSized, same, StartStopState.decodeFrom, decodeBool_cons,
      invalid.1, invalid.2]
  | _ => exact absurd trivial invalid

theorem Frame.kind_some {f : Frame} {kind : EntryKind} (h : f.kind = some kind) :
    f.key = kind.key := by
  have found := List.find?_some h
  exact (of_decide_eq_true found).symm

theorem Frame.kind_none {f : Frame} (h : f.kind = none) (kind : EntryKind) :
    kind.key ≠ f.key := by
  have missing := List.find?_eq_none.mp h kind kind.mem_all
  simpa using missing

theorem PayloadEntryHeader.decodeFrom_encode (header : PayloadEntryHeader) :
    PayloadEntryHeader.decodeFrom header.encode = .ok (header, 8) := by
  have first : 4 ≤ header.encode.length := by simp [PayloadEntryHeader.encode]
  have rest : header.encode.drop 4 = encodeU32 header.size := by
    simp [PayloadEntryHeader.encode]
  have key : header.encode.take 4 = encodeU32 header.key := by
    simp [PayloadEntryHeader.encode]
  simp only [PayloadEntryHeader.decodeFrom, decodeU32, decodeFixed_ok _ first, Outcome.ok_bind,
    slice_back first, rest, decodeFixed_ok _ (length_encodeU32 _).ge, key, readU32_encode,
    List.take_of_length_le (length_encodeU32 _).le, Outcome.pure_eq]

theorem PayloadEntryHeader.length_encode (header : PayloadEntryHeader) :
    header.encode.length = payloadEntryHeaderSize := by
  simp [PayloadEntryHeader.encode, payloadEntryHeaderSize]

theorem decodeFrame_bytes (f : Frame) (rest : Bytes) :
    decodeFrame (f.bytes ++ rest) =
      (decodeEntry ⟨f.key, UInt32.ofNat f.body.length⟩ f.body >>= fun entry =>
        .ok (entry, rest)) := by
  have size : (UInt32.ofNat f.body.length).toNat = f.body.length :=
    UInt32.toNat_ofNat_of_lt' f.fits
  generalize header : (⟨f.key, UInt32.ofNat f.body.length⟩ : PayloadEntryHeader) = h
  have bytes : f.bytes ++ rest = h.encode ++ (f.body ++ rest) := by
    simp [← header, Frame.bytes, PayloadEntryHeader.encode]
  have declared : h.size.toNat = f.body.length := by rw [← header, size]
  have width := h.length_encode
  have fits : payloadEntryHeaderSize + f.body.length ≤
      (h.encode ++ (f.body ++ rest)).length := by simp [width]
  rw [bytes, decodeFrame, slice_left width, Outcome.ok_bind,
    PayloadEntryHeader.decodeFrom_encode, Outcome.mapError_ok, Outcome.ok_bind]
  simp only [declared]
  rw [if_pos fits, slice_middle width rfl, slice_right width rfl, Outcome.ok_bind]
  rfl

theorem exists_header {data : Bytes} (room : 8 ≤ data.length) :
    ∃ header : PayloadEntryHeader, data = header.encode ++ data.drop 8 ∧
      header.size.toNat = ofBe ((data.drop 4).take 4) := by
  have key : (data.take 4).length = 4 := by simp; omega
  have size : ((data.drop 4).take 4).length = 4 := by simp; omega
  have small : ofBe ((data.drop 4).take 4) < 2 ^ 32 := by
    have bound := ofBe_lt ((data.drop 4).take 4)
    rw [size] at bound
    exact bound
  refine ⟨⟨UInt32.ofNat (ofBe (data.take 4)), UInt32.ofNat (ofBe ((data.drop 4).take 4))⟩, ?_,
    UInt32.toNat_ofNat_of_lt' small⟩
  rw [PayloadEntryHeader.encode, encodeU32_read key, encodeU32_read size, List.append_assoc,
    show data.drop 8 = (data.drop 4).drop 4 by simp, List.take_append_drop,
    List.take_append_drop]

theorem decodeFrame_truncated {data : Bytes} (room : 8 ≤ data.length)
    (short : data.length < 8 + ofBe ((data.drop 4).take 4)) :
    decodeFrame data = .error (.protocol "truncated payload entry") := by
  obtain ⟨header, bytes, size⟩ := exists_header room
  have long : ¬payloadEntryHeaderSize + header.size.toNat ≤
      (header.encode ++ data.drop 8).length := by
    rw [← bytes, size]
    exact Nat.not_le.mpr short
  rw [bytes, decodeFrame, slice_left header.length_encode, Outcome.ok_bind,
    PayloadEntryHeader.decodeFrom_encode, Outcome.mapError_ok, Outcome.ok_bind]
  exact if_neg long

theorem exists_frame {data : Bytes} (room : 8 ≤ data.length)
    (fits : 8 + ofBe ((data.drop 4).take 4) ≤ data.length) :
    ∃ f : Frame, ∃ rest, data = f.bytes ++ rest := by
  obtain ⟨header, bytes, size⟩ := exists_header room
  have length : ((data.drop 8).take header.size.toNat).length = header.size.toNat := by
    simp
    omega
  have small : ((data.drop 8).take header.size.toNat).length < 2 ^ 32 := by
    rw [length]
    exact header.size.toNat_lt
  have declared : UInt32.ofNat ((data.drop 8).take header.size.toNat).length = header.size := by
    rw [length, UInt32.ofNat_toNat]
  refine ⟨⟨header.key, (data.drop 8).take header.size.toNat, small⟩,
    (data.drop 8).drop header.size.toNat, ?_⟩
  simp only [Frame.bytes, declared]
  rw [List.append_assoc, List.take_append_drop]
  exact bytes

/-! The loop. -/

theorem Frame.eight_le (f : Frame) (rest : Bytes) : 8 ≤ (f.bytes ++ rest).length := by
  simp [Frame.bytes]
  omega

theorem decodeFrame_accepted {f : Frame} (accepted : f.Accepted) (rest : Bytes) :
    decodeFrame (f.bytes ++ rest) = .ok (f.entry, rest) := by
  rw [decodeFrame_bytes]
  cases known : f.kind with
  | none =>
    rw [decodeEntry_unknown (Frame.kind_none known), Outcome.ok_bind, Frame.entry, known]
    rfl
  | some kind =>
    obtain ⟨size, valid⟩ := accepted kind known
    have declared : (UInt32.ofNat f.body.length).toNat = kind.size := by
      rw [UInt32.toNat_ofNat_of_lt' f.fits, size]
    rw [Frame.kind_some known, decodeEntry_valid declared size valid, Outcome.ok_bind,
      Frame.entry, known]
    rfl

theorem accepted_or_offends (f : Frame) (rest : Bytes) :
    f.Accepted ∨ ∃ error, Offends (f.bytes ++ rest) error ∧
      decodeFrame (f.bytes ++ rest) = .error error := by
  have size := UInt32.toNat_ofNat_of_lt' f.fits
  rw [decodeFrame_bytes]
  cases known : f.kind with
  | none =>
    left
    intro kind mem
    rw [known] at mem
    cases mem
  | some kind =>
    rw [Frame.kind_some known]
    by_cases length : f.body.length = kind.size
    · by_cases valid : kind.Valid f.body
      · left
        intro kind' mem
        rw [known] at mem
        cases mem
        exact ⟨length, valid⟩
      · right
        have startStop : kind = .startStopState := by
          cases kind with
          | startStopState => rfl
          | _ => exact absurd trivial valid
        subst startStop
        cases value : f.body with
        | nil =>
          rw [value] at length
          cases length
        | cons v body =>
          refine ⟨_, .bool rfl known length valid value, ?_⟩
          rw [← value, decodeEntry_invalid (size.trans length) valid value]
          rfl
    · right
      refine ⟨_, .size rfl known length, ?_⟩
      rw [decodeEntry_mismatch (size.trans_ne length)]
      rfl

theorem decodeFrame_cases {data : Bytes} (room : 8 ≤ data.length) :
    (∃ f : Frame, ∃ rest, f.Accepted ∧ data = f.bytes ++ rest ∧
      decodeFrame data = .ok (f.entry, rest)) ∨
      ∃ error, Offends data error ∧ decodeFrame data = .error error := by
  by_cases fits : 8 + ofBe ((data.drop 4).take 4) ≤ data.length
  · obtain ⟨f, rest, rfl⟩ := exists_frame room fits
    rcases accepted_or_offends f rest with accepted | offends
    · exact .inl ⟨f, rest, accepted, rfl, decodeFrame_accepted accepted rest⟩
    · exact .inr offends
  · have short := Nat.not_le.mp fits
    exact .inr ⟨_, .truncated room short, decodeFrame_truncated room short⟩

theorem Framed.cons {f : Frame} {data rest : Bytes} {frames : List Frame} (accepted : f.Accepted)
    (h : Framed data frames rest) : Framed (f.bytes ++ data) (f :: frames) rest where
  data := by simp [h.data]
  accepted := List.forall_mem_cons.mpr ⟨accepted, h.accepted⟩

theorem entries_cons (f : Frame) (frames : List Frame) :
    entries (f :: frames) = f.entry.toList ++ entries frames := by
  unfold entries
  cases entry : f.entry with
  | none => rw [List.filterMap_cons_none entry]; rfl
  | some value => rw [List.filterMap_cons_some entry]; rfl

theorem decodeLoop_stops {fuel : Nat} {data : Bytes} (enough : data.length < fuel)
    (payload : Payload) :
    ∃ frames rest, Framed data frames rest ∧
      (rest.length < 8 ∧ decodeLoop fuel payload data = some (payload ++ entries frames, .ok ()) ∨
        ∃ error, Offends rest error ∧
          decodeLoop fuel payload data = some (payload ++ entries frames, .error error)) := by
  induction fuel generalizing data payload with
  | zero => cases enough
  | succ fuel ih =>
    unfold decodeLoop
    by_cases room : payloadEntryHeaderSize ≤ data.length
    · rw [if_pos room]
      rcases decodeFrame_cases room with ⟨f, rest, accepted, rfl, round⟩ | ⟨error, offends, round⟩
      · have shorter : rest.length < fuel := by
          simp only [Frame.bytes, List.length_append, length_encodeU32] at enough
          omega
        obtain ⟨frames, trailing, framed, stops⟩ := ih shorter (payload ++ f.entry.toList)
        rw [round]
        refine ⟨f :: frames, trailing, framed.cons accepted, ?_⟩
        rw [entries_cons, ← List.append_assoc]
        exact stops
      · rw [round]
        exact ⟨[], data, ⟨rfl, nofun⟩, .inr ⟨error, offends, by simp [entries]⟩⟩
    · rw [if_neg room]
      exact ⟨[], data, ⟨rfl, nofun⟩, .inl ⟨Nat.not_le.mp room, by simp [entries]⟩⟩

theorem decodeLoop_framed {data rest : Bytes} {frames : List Frame} (h : Framed data frames rest)
    (fuel : Nat) (payload : Payload) :
    decodeLoop (frames.length + fuel) payload data =
      decodeLoop fuel (payload ++ entries frames) rest := by
  induction frames generalizing data payload with
  | nil =>
    have same : data = rest := h.data
    simp [same, entries]
  | cons f frames ih =>
    obtain ⟨here, later⟩ := List.forall_mem_cons.mp h.accepted
    have split : data = f.bytes ++ (frames.flatMap Frame.bytes ++ rest) := by
      rw [h.data, List.flatMap_cons, List.append_assoc]
    have room : payloadEntryHeaderSize ≤
        (f.bytes ++ (frames.flatMap Frame.bytes ++ rest)).length := f.eight_le _
    rw [split, List.length_cons, Nat.add_right_comm, decodeLoop, if_pos room,
      decodeFrame_accepted here, entries_cons, ← List.append_assoc]
    exact ih ⟨rfl, later⟩ _

theorem Framed.length_le {data rest : Bytes} {frames : List Frame} (h : Framed data frames rest) :
    frames.length ≤ data.length := by
  have each (frames : List Frame) : frames.length ≤ (frames.flatMap Frame.bytes).length := by
    induction frames with
    | nil => exact Nat.le_refl _
    | cons f frames ih =>
      have room := f.eight_le []
      simp only [List.append_nil] at room
      simp only [List.flatMap_cons, List.length_append, List.length_cons]
      omega
  have all := each frames
  rw [h.data, List.length_append]
  omega

theorem decode_grammar {data : Bytes} {frames : List Frame} (h : Grammar data frames)
    (payload : Payload) : decode payload data = some (payload ++ entries frames, .ok ()) := by
  obtain ⟨trailing, framed, short⟩ := h
  have rounds := framed.length_le
  have fuel : data.length + 1 = frames.length + (data.length - frames.length + 1) := by omega
  rw [decode, fuel, decodeLoop_framed framed, decodeLoop]
  exact if_neg (Nat.not_le.mpr short)

/-- The decoder always stops, never indexes out of range, accepts exactly the language and hands
over exactly its entries; where it fails it has handed over those before the offending frame. -/
theorem decode_iff_grammar (payload : Payload) (data : Bytes) :
    (∃ found result, decode payload data = some (payload ++ found, result) ∧
      result ≠ .panicked ∧
      (result = .ok () ↔ ∃ frames, Grammar data frames) ∧
      (∀ frames, Grammar data frames → found = entries frames) ∧
      ∀ error, result = .error error →
        ∃ frames rest, Framed data frames rest ∧ Offends rest error ∧ found = entries frames) ∧
      ∀ parsed, parsePayload data = some (.ok parsed) ↔
        ∃ frames, Grammar data frames ∧ parsed = entries frames := by
  have stops (payload : Payload) := decodeLoop_stops (Nat.lt_succ_self data.length) payload
  constructor
  · obtain ⟨frames, rest, framed, ⟨short, loop⟩ | ⟨error, offends, loop⟩⟩ := stops payload
    · have grammar : Grammar data frames := ⟨rest, framed, short⟩
      refine ⟨entries frames, .ok (), loop, nofun, ⟨fun _ => ⟨frames, grammar⟩, fun _ => rfl⟩,
        ?_, nofun⟩
      intro frames' grammar'
      have same := (decode_grammar grammar payload).symm.trans (decode_grammar grammar' payload)
      simpa using same
    · have outside (frames' : List Frame) : ¬Grammar data frames' := by
        intro grammar'
        have same := loop.symm.trans (decode_grammar grammar' payload)
        simp at same
      refine ⟨entries frames, .error error, loop, nofun, ⟨nofun, ?_⟩, ?_, ?_⟩
      · rintro ⟨frames', grammar'⟩
        exact absurd grammar' (outside frames')
      · intro frames' grammar'
        exact absurd grammar' (outside frames')
      · intro error' eq
        cases eq
        exact ⟨frames, rest, framed, offends, rfl⟩
  · intro parsed
    constructor
    · intro ok
      obtain ⟨frames, rest, framed, ⟨short, loop⟩ | ⟨error, offends, loop⟩⟩ := stops []
      · rw [parsePayload, show decode [] data = _ from loop] at ok
        cases ok
        exact ⟨frames, ⟨rest, framed, short⟩, rfl⟩
      · rw [parsePayload, show decode [] data = _ from loop] at ok
        cases ok
    · rintro ⟨frames, grammar, rfl⟩
      rw [parsePayload, decode_grammar grammar]
      rfl

end AbletonLink.Wire
