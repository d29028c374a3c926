import AbletonLink.Wire.Grammar
import AbletonLink.Wire.Ping
import AbletonLink.Wire.Period

/-! What is encoded is decoded again, in the form the wire can carry. -/

namespace AbletonLink.Wire

open Library Library.Bytes Link

theorem EntryKind.size_lt (kind : EntryKind) : kind.size < 2 ^ 32 := by
  cases kind <;> decide

namespace PayloadEntry

def kind : PayloadEntry → EntryKind
  | .hostTime _ => .hostTime
  | .ghostTime _ => .ghostTime
  | .prevGhostTime _ => .prevGhostTime
  | .timeline _ => .timeline
  | .sessionMembership _ => .sessionMembership
  | .startStopState _ => .startStopState
  | .measurementEndpointV4 _ => .measurementEndpointV4
  | .audioEndpointV4 _ => .audioEndpointV4

def body : PayloadEntry → Bytes
  | .hostTime time | .ghostTime time | .prevGhostTime time => encodeI64 time.micros
  | .timeline tl => Timeline.encodeTo tl
  | .sessionMembership sessionId => NodeId.encodeTo sessionId.node
  | .startStopState state => StartStopState.encodeTo state
  | .measurementEndpointV4 endpoint | .audioEndpointV4 endpoint => encodeEndpoint endpoint

def Encodable : PayloadEntry → Prop
  | .hostTime time | .ghostTime time | .prevGhostTime time => time.numMicroseconds.isSome = true
  | _ => True

/-- An entry as it arrives: times are whole microseconds, saturated to `i64`, the tempo is that of
its period, and an endpoint that means "none" is none. -/
def canonical : PayloadEntry → PayloadEntry
  | .hostTime time => .hostTime (.microseconds time.micros)
  | .ghostTime time => .ghostTime (.microseconds time.micros)
  | .prevGhostTime time => .prevGhostTime (.microseconds time.micros)
  | .timeline tl =>
    .timeline
      { tempo := .fromPeriod (.microseconds tl.tempo.microsPerBeat.micros)
        beatOrigin := tl.beatOrigin
        timeOrigin := .microseconds tl.timeOrigin.micros }
  | .sessionMembership sessionId => .sessionMembership sessionId
  | .startStopState state =>
    .startStopState { state with timestamp := .microseconds state.timestamp.micros }
  | .measurementEndpointV4 endpoint =>
    .measurementEndpointV4 (endpoint.filter fun e => e.ip ≠ 0 ∨ e.port ≠ 0)
  | .audioEndpointV4 endpoint =>
    .audioEndpointV4 (endpoint.filter fun e => e.ip ≠ 0 ∧ e.port ≠ 0)

/-- The tempo is kept by its period, and an audio endpoint is specified whole or not at all. -/
def Stable : PayloadEntry → Prop
  | .timeline tl => tl.tempo.microsPerBeat.micros.toInt.natAbs ≤ 2 ^ 50
  | .audioEndpointV4 endpoint => ∀ e ∈ endpoint, e.ip = 0 ↔ e.port = 0
  | _ => True

theorem length_body (entry : PayloadEntry) : entry.body.length = entry.kind.size := by
  cases entry <;>
    simp [body, kind, EntryKind.size, Timeline.encodeTo, StartStopState.encodeTo, encodeEndpoint]

theorem toNat_size (entry : PayloadEntry) : entry.size.toNat = entry.kind.size := by
  cases entry <;> rfl

def frame (entry : PayloadEntry) : Frame where
  key := entry.kind.key
  body := entry.body
  fits := by
    rw [length_body]
    exact entry.kind.size_lt

theorem frame_kind (entry : PayloadEntry) : entry.frame.kind = some entry.kind := by
  have key (kind : EntryKind) :
      EntryKind.all.find? (fun other => other.key = kind.key) = some kind := by
    cases kind <;> decide
  exact key entry.kind

theorem encodeTime_iff {header : PayloadEntryHeader} {time : Duration} {bytes : Bytes} :
    encodeTime header time = .ok bytes ↔
      time.numMicroseconds.isSome = true ∧ header.encode ++ encodeI64 time.micros = bytes := by
  unfold encodeTime wireMicros Duration.micros
  cases time.numMicroseconds with
  | none => simp [Bind.bind, Except.bind]
  | some micros => simp [Bind.bind, Except.bind, Pure.pure, Except.pure]

theorem encode_iff {entry : PayloadEntry} {bytes : Bytes} :
    entry.encode = .ok bytes ↔ entry.Encodable ∧ entry.frame.bytes = bytes := by
  have header : entry.frame.bytes =
      PayloadEntryHeader.encode ⟨entry.kind.key, entry.size⟩ ++ entry.body := by
    have size : UInt32.ofNat entry.body.length = entry.size := by
      rw [length_body, ← toNat_size, UInt32.ofNat_toNat]
    rw [PayloadEntryHeader.encode, ← size]
    rfl
  rw [header]
  cases entry with
  | hostTime | ghostTime | prevGhostTime => exact encodeTime_iff
  | _ =>
    rw [encode, Except.ok.injEq]
    exact (and_iff_right trivial).symm

theorem encode_error {entry : PayloadEntry} (h : ¬entry.Encodable) :
    entry.encode = .error (.protocol "time out of range") := by
  cases entry with
  | hostTime time | ghostTime time | prevGhostTime time =>
    have none : time.numMicroseconds = none := by simpa [Encodable] using h
    simp [encode, encodeTime, wireMicros, none, Bind.bind, Except.bind]
  | _ => exact absurd trivial h

theorem encodeEndpoint_take (endpoint : Option SocketAddrV4) :
    UInt32.ofNat (ofBe ((encodeEndpoint endpoint).take 4)) = (endpoint.getD ⟨0, 0⟩).ip := by
  rw [encodeEndpoint, List.take_left' (length_encodeU32 _), readU32_encode]

theorem encodeEndpoint_drop (endpoint : Option SocketAddrV4) :
    UInt16.ofNat (ofBe ((encodeEndpoint endpoint).drop 4)) = (endpoint.getD ⟨0, 0⟩).port := by
  rw [encodeEndpoint, List.drop_left' (length_encodeU32 _), readU16_encode]

theorem entry_body (entry : PayloadEntry) : entry.kind.entry entry.body = entry.canonical := by
  cases entry with
  | hostTime | ghostTime | prevGhostTime =>
    simp only [kind, EntryKind.entry, body, canonical, readI64_encode]
  | timeline tl =>
    have first : (Timeline.encodeTo tl).take 8 = encodeI64 tl.tempo.microsPerBeat.micros := by
      simp [Timeline.encodeTo]
    have second : ((Timeline.encodeTo tl).drop 8).take 8 = encodeI64 tl.beatOrigin.value := by
      simp [Timeline.encodeTo]
    have third : (Timeline.encodeTo tl).drop 16 = encodeI64 tl.timeOrigin.micros := by
      rw [Timeline.encodeTo, List.drop_left' (by simp)]
    simp only [kind, EntryKind.entry, body, canonical, first, second, third, readI64_encode]
  | sessionMembership sessionId =>
    simp only [kind, EntryKind.entry, body, canonical, NodeId.read_encode]
  | startStopState state =>
    have flag : (StartStopState.encodeTo state).head? =
        some (if state.isPlaying then 1 else 0) := by
      simp [StartStopState.encodeTo, encodeBool]
    have beats : ((StartStopState.encodeTo state).drop 1).take 8 = encodeI64 state.beats.value := by
      simp [StartStopState.encodeTo, encodeBool]
    have time : (StartStopState.encodeTo state).drop 9 = encodeI64 state.timestamp.micros := by
      simp [StartStopState.encodeTo, encodeBool]
    have playing : decide (some (if state.isPlaying then 1 else 0) = some (1 : UInt8)) =
        state.isPlaying := by
      cases state.isPlaying <;> rfl
    simp only [kind, EntryKind.entry, body, canonical, flag, beats, time, playing, readI64_encode]
  | measurementEndpointV4 endpoint =>
    simp only [kind, EntryKind.entry, body, canonical, encodeEndpoint_take, encodeEndpoint_drop]
    cases endpoint with
    | none => rfl
    | some e =>
      by_cases none : e.ip = 0 ∧ e.port = 0
      · simp [Option.filter, none]
      · simp [Option.filter, not_and_or.mp none, none]
  | audioEndpointV4 endpoint =>
    simp only [kind, EntryKind.entry, body, canonical, encodeEndpoint_take, encodeEndpoint_drop]
    cases endpoint with
    | none => rfl
    | some e =>
      by_cases none : e.ip = 0 ∨ e.port = 0
      · simp [Option.filter, not_and_or.mpr (none.imp not_not.mpr not_not.mpr), none]
      · simp [Option.filter, not_or.mp none]

theorem frame_entry (entry : PayloadEntry) : entry.frame.entry = some entry.canonical := by
  rw [Frame.entry, frame_kind, ← entry_body]
  rfl

theorem frame_accepted (entry : PayloadEntry) : entry.frame.Accepted := by
  intro kind known
  obtain rfl : entry.kind = kind := Option.some.inj (entry.frame_kind ▸ known)
  refine ⟨entry.length_body, ?_⟩
  cases entry with
  | startStopState state =>
    show (StartStopState.encodeTo state).head? = some 0 ∨
      (StartStopState.encodeTo state).head? = some 1
    cases playing : state.isPlaying <;> simp [StartStopState.encodeTo, encodeBool, playing]
  | _ => trivial

@[simp] theorem kind_canonical (entry : PayloadEntry) : entry.canonical.kind = entry.kind := by
  cases entry <;> rfl

theorem encodable_canonical (entry : PayloadEntry) : entry.canonical.Encodable := by
  cases entry with
  | hostTime | ghostTime | prevGhostTime => simp [canonical, Encodable]
  | _ => trivial

theorem body_canonical {entry : PayloadEntry} (stable : entry.Stable) :
    entry.canonical.body = entry.body := by
  cases entry with
  | hostTime | ghostTime | prevGhostTime => simp [canonical, body]
  | timeline tl =>
    simp [canonical, body, Timeline.encodeTo, Tempo.microsPerBeat_fromPeriod stable]
  | sessionMembership => rfl
  | startStopState => simp [canonical, body, StartStopState.encodeTo]
  | measurementEndpointV4 endpoint =>
    cases endpoint with
    | none => rfl
    | some e =>
      by_cases none : e.ip = 0 ∧ e.port = 0
      · simp [canonical, body, encodeEndpoint, Option.filter, none]
      · simp [canonical, body, Option.filter, not_and_or.mp none]
  | audioEndpointV4 endpoint =>
    cases endpoint with
    | none => rfl
    | some e =>
      have both : e.ip = 0 ↔ e.port = 0 := stable e rfl
      by_cases none : e.ip = 0
      · simp [canonical, body, encodeEndpoint, Option.filter, none, both.mp none]
      · simp [canonical, body, Option.filter, none, mt both.mpr none]

theorem bytes_canonical {entry : PayloadEntry} (stable : entry.Stable) :
    entry.canonical.frame.bytes = entry.frame.bytes := by
  simp only [frame, Frame.bytes, kind_canonical, body_canonical stable]

theorem length_frame (entry : PayloadEntry) : entry.frame.bytes.length = 8 + entry.kind.size := by
  rw [← entry.length_body]
  simp [Frame.bytes, frame]
  omega

end PayloadEntry

namespace Payload

def wireSize (payload : Payload) : Nat := (payload.map fun entry => 8 + entry.kind.size).sum

def canonical (payload : Payload) : Payload := payload.map PayloadEntry.canonical

def bytes (payload : Payload) : Bytes := payload.flatMap fun entry => entry.frame.bytes

theorem length_bytes (payload : Payload) : payload.bytes.length = payload.wireSize := by
  simp [bytes, wireSize, List.length_flatMap, PayloadEntry.length_frame]

theorem toNat_size (payload : Payload) : payload.size.toNat = payload.wireSize % 2 ^ 32 := by
  have from_ (start : UInt32) : (payload.foldl
      (fun size entry => size + (UInt32.ofNat payloadEntryHeaderSize + entry.size)) start).toNat =
      (start.toNat + payload.wireSize) % 2 ^ 32 := by
    induction payload generalizing start with
    | nil => simp [wireSize, Nat.mod_eq_of_lt start.toNat_lt]
    | cons entry payload ih =>
      have here : (start + (UInt32.ofNat payloadEntryHeaderSize + entry.size)).toNat =
          (start.toNat + (8 + entry.kind.size)) % 2 ^ 32 := by
        rw [← entry.toNat_size]
        simp [payloadEntryHeaderSize]
      rw [List.foldl_cons, ih, here, Nat.mod_add_mod, Nat.add_assoc]
      rfl
  rw [Payload.size, from_ 0, UInt32.toNat_zero, Nat.zero_add]

theorem size_eq {payload : Payload} (fits : payload.wireSize < 2 ^ 32) :
    payload.size.toNat = payload.wireSize := by
  rw [toNat_size, Nat.mod_eq_of_lt fits]

theorem size_canonical (payload : Payload) : payload.canonical.size = payload.size := by
  apply UInt32.toNat_inj.mp
  simp [toNat_size, wireSize, canonical, Function.comp_def]

theorem encode_ok {payload : Payload} (h : ∀ entry ∈ payload, entry.Encodable) :
    payload.encode = .ok payload.bytes := by
  induction payload with
  | nil => rfl
  | cons entry payload ih =>
    obtain ⟨here, rest⟩ := List.forall_mem_cons.mp h
    rw [encode, PayloadEntry.encode_iff.mpr ⟨here, rfl⟩, ih rest]
    rfl

theorem encode_error {payload : Payload} (h : ¬∀ entry ∈ payload, entry.Encodable) :
    payload.encode = .error (.protocol "time out of range") := by
  induction payload with
  | nil => exact absurd (by simp) h
  | cons entry payload ih =>
    rw [encode]
    by_cases here : entry.Encodable
    · have rest : ¬∀ e ∈ payload, e.Encodable :=
        fun good => h (List.forall_mem_cons.mpr ⟨here, good⟩)
      rw [PayloadEntry.encode_iff.mpr ⟨here, rfl⟩, ih rest]
      rfl
    · rw [PayloadEntry.encode_error here]
      rfl

theorem parse_bytes (payload : Payload) :
    parsePayload payload.bytes = some (.ok payload.canonical) := by
  have grammar : Grammar payload.bytes (payload.map PayloadEntry.frame) := by
    refine ⟨[], ⟨?_, ?_⟩, by decide⟩
    · simp [bytes, List.flatMap_map]
    · intro f member
      obtain ⟨entry, -, rfl⟩ := List.mem_map.mp member
      exact entry.frame_accepted
  have found : entries (payload.map PayloadEntry.frame) = payload.canonical := by
    rw [entries, List.filterMap_map, canonical, ← List.filterMap_eq_map]
    congr 1
    funext entry
    exact entry.frame_entry
  rw [parsePayload, decode_grammar grammar, found]
  rfl

theorem bytes_canonical {payload : Payload} (stable : ∀ entry ∈ payload, entry.Stable) :
    payload.canonical.bytes = payload.bytes := by
  rw [bytes, bytes, canonical, List.flatMap_map]
  exact List.flatMap_congr fun entry member => PayloadEntry.bytes_canonical (stable entry member)

end Payload

/-! Whole messages. -/

theorem encodeMessage_eq (sender : NodeId) (ttl messageType : UInt8) (payload : Payload)
    (groupId : UInt16) :
    encodeMessage sender ttl messageType payload groupId =
      if 512 < 20 + payload.size.toNat then
        .error (.encoding (.messageTooLarge (20 + payload.size.toNat) 512))
      else payload.encode.map fun encoded => protocolHeader ++
        MessageHeader.encodeTo ⟨messageType, ttl, groupId, sender⟩ ++ encoded := by
  unfold encodeMessage
  split
  next large => exact if_pos large
  next fits =>
    refine (if_neg fits).trans ?_
    cases payload.encode <;> rfl

@[simp] theorem MessageHeader.length_encodeTo (header : MessageHeader) :
    header.encodeTo.length = 12 := by
  simp [MessageHeader.encodeTo]

theorem decodeU8_cons (v : UInt8) (rest : Bytes) : decodeU8 (v :: rest) = .ok (v, 1) := by
  have byte : UInt8.ofNat (ofBe [v]) = v := by simp [ofBe]
  rw [decodeU8, decodeFixed_ok _ (by simp)]
  simp [byte]

theorem decodeU16_append (v : UInt16) (rest : Bytes) :
    decodeU16 (encodeU16 v ++ rest) = .ok (v, 2) := by
  rw [decodeU16, decodeFixed_ok _ (by simp), List.take_left' (length_encodeU16 v), readU16_encode]

theorem NodeId.decodeFrom_encodeTo (id : NodeId) :
    NodeId.decodeFrom (NodeId.encodeTo id) = .ok (id, 8) := by
  rw [NodeId.decodeFrom, decodeFixed_ok _ (by simp), List.take_of_length_le (by simp),
    NodeId.read_encode]

theorem MessageHeader.decodeFrom_encodeTo (header : MessageHeader) :
    MessageHeader.decodeFrom header.encodeTo = .ok (header, 12) := by
  have bytes : header.encodeTo = header.messageType :: header.ttl ::
      (encodeU16 header.groupId ++ NodeId.encodeTo header.ident) := by
    simp [MessageHeader.encodeTo]
  have second : slice (ε := DecodeError) header.encodeTo 1 header.encodeTo.length =
      .ok (header.ttl :: (encodeU16 header.groupId ++ NodeId.encodeTo header.ident)) := by
    rw [slice_back (by simp), bytes]
    rfl
  have third : slice (ε := DecodeError) header.encodeTo 2 header.encodeTo.length =
      .ok (encodeU16 header.groupId ++ NodeId.encodeTo header.ident) := by
    rw [slice_back (by simp), bytes]
    rfl
  have fourth : slice (ε := DecodeError) header.encodeTo 4 header.encodeTo.length =
      .ok (NodeId.encodeTo header.ident) := by
    rw [slice_back (by simp), bytes]
    simp
  have first : decodeU8 header.encodeTo = .ok (header.messageType, 1) := by
    rw [bytes, decodeU8_cons]
  simp only [MessageHeader.decodeFrom, first, second, third, fourth, decodeU8_cons,
    decodeU16_append, NodeId.decodeFrom_encodeTo, Outcome.ok_bind, Outcome.pure_eq]

theorem parseMessageHeader_append {header : MessageHeader} (known : header.messageType.toNat < 4)
    (rest : Bytes) :
    parseMessageHeader (protocolHeader ++ (header.encodeTo ++ rest)) = .ok (header, 20) := by
  have long : ¬(protocolHeader ++ (header.encodeTo ++ rest)).length <
      protocolHeaderSize + messageHeaderSize := by
    simp [protocolHeader, protocolHeaderSize, messageHeaderSize]
  have start : protocolHeader.isPrefixOf (protocolHeader ++ (header.encodeTo ++ rest)) = true := by
    simp
  have bytes : slice (ε := Error) (protocolHeader ++ (header.encodeTo ++ rest)) protocolHeaderSize
      (protocolHeaderSize + messageHeaderSize) = .ok header.encodeTo :=
    slice_middle rfl header.length_encodeTo
  rw [parseMessageHeader]
  simp only [if_neg long, start, not_true_eq_false, if_false, bytes, Outcome.ok_bind,
    MessageHeader.decodeFrom_encodeTo, Outcome.mapError_ok]
  rw [if_neg (by simpa [messageTypes] using known)]
  rfl

theorem Ping.encodeMessage_eq (messageType : UInt8) (payload : Payload) :
    Ping.encodeMessage messageType payload =
      if 512 < 9 + payload.size.toNat then
        .error (.encoding (.messageTooLarge (9 + payload.size.toNat) 512))
      else payload.encode.map fun encoded =>
        Ping.protocolHeader ++ Ping.MessageHeader.encodeTo ⟨messageType⟩ ++ encoded := by
  unfold Ping.encodeMessage
  split
  next large => exact if_pos large
  next fits =>
    refine (if_neg fits).trans ?_
    cases payload.encode <;> rfl

theorem Ping.parseMessageHeader_append (messageType : UInt8) (rest : Bytes) :
    Ping.parseMessageHeader (Ping.protocolHeader ++
      (Ping.MessageHeader.encodeTo ⟨messageType⟩ ++ rest)) = .ok (⟨messageType⟩, 9) := by
  have long : ¬(Ping.protocolHeader ++ (Ping.MessageHeader.encodeTo ⟨messageType⟩ ++ rest)).length <
      protocolHeaderSize + Ping.messageHeaderSize := by
    simp [Ping.protocolHeader, Ping.MessageHeader.encodeTo, protocolHeaderSize,
      Ping.messageHeaderSize]
  have start : Ping.protocolHeader.isPrefixOf (Ping.protocolHeader ++
      (Ping.MessageHeader.encodeTo ⟨messageType⟩ ++ rest)) = true := by
    simp
  have bytes : slice (ε := Error) (Ping.protocolHeader ++
      (Ping.MessageHeader.encodeTo ⟨messageType⟩ ++ rest)) protocolHeaderSize
      (protocolHeaderSize + Ping.messageHeaderSize) =
        .ok (Ping.MessageHeader.encodeTo ⟨messageType⟩) := slice_middle rfl rfl
  have decoded : Ping.MessageHeader.decodeFrom (Ping.MessageHeader.encodeTo ⟨messageType⟩) =
      .ok (⟨messageType⟩, 1) := by
    simp only [Ping.MessageHeader.decodeFrom, Ping.MessageHeader.encodeTo, decodeU8_cons,
      Outcome.ok_bind, Outcome.pure_eq]
  rw [Ping.parseMessageHeader]
  simp only [if_neg long, start, not_true_eq_false, if_false, bytes, Outcome.ok_bind, decoded,
    Outcome.mapError_ok]
  rfl

/-- Messages with `headerSize` bytes of headers: only size and times out of range are refused, and
what is encoded has the announced size, its headers and its entries in canonical form; encoding
these again gives the same bytes. -/
structure RoundTrips (headerSize : Nat) (encode : Payload → Except Error Bytes)
    (Header : Bytes → Prop) : Prop where
  tooLarge : ∀ payload, (∃ size max, encode payload =
    .error (.encoding (.messageTooLarge size max))) ↔ 512 < headerSize + payload.size.toNat
  inRange : ∀ payload, headerSize + payload.size.toNat ≤ 512 →
    ((∃ bytes, encode payload = .ok bytes) ↔ ∀ entry ∈ payload, entry.Encodable)
  length : ∀ payload bytes, encode payload = .ok bytes → payload.wireSize < 2 ^ 32 →
    bytes.length = headerSize + payload.size.toNat
  header : ∀ payload bytes, encode payload = .ok bytes → Header bytes
  payload : ∀ payload bytes, encode payload = .ok bytes →
    parsePayload (bytes.drop headerSize) = some (.ok payload.canonical)
  again : ∀ payload bytes, encode payload = .ok bytes → (∀ entry ∈ payload, entry.Stable) →
    encode payload.canonical = .ok bytes

section Front

variable {front : Bytes} {headerSize : Nat} {encode : Payload → Except Error Bytes}
  (shape : ∀ payload, encode payload =
    if 512 < headerSize + payload.size.toNat then
      .error (.encoding (.messageTooLarge (headerSize + payload.size.toNat) 512))
    else payload.encode.map fun encoded => front ++ encoded)

include shape

theorem ok_of_front {payload : Payload} {bytes : Bytes} : encode payload = .ok bytes ↔
    headerSize + payload.size.toNat ≤ 512 ∧ (∀ entry ∈ payload, entry.Encodable) ∧
      front ++ payload.bytes = bytes := by
  rw [shape, ← Nat.not_lt]
  split
  next large => simp [large]
  next fits =>
    by_cases encodable : ∀ entry ∈ payload, entry.Encodable
    · rw [Payload.encode_ok encodable]
      simp only [Except.map, Except.ok.injEq]
      exact ⟨fun same => ⟨fits, encodable, same⟩, fun all => all.2.2⟩
    · rw [Payload.encode_error encodable]
      simp [Except.map, encodable]

theorem roundTrips_of_front {Header : Bytes → Prop} (length : front.length = headerSize)
    (parsed : ∀ rest, Header (front ++ rest)) : RoundTrips headerSize encode Header := by
  have ok {payload : Payload} {bytes : Bytes} : encode payload = .ok bytes ↔ _ := ok_of_front shape
  constructor
  · intro payload
    rw [shape]
    split
    next large => exact ⟨fun _ => large, fun _ => ⟨_, _, rfl⟩⟩
    next fits =>
      refine ⟨?_, fun large => absurd large fits⟩
      rintro ⟨size, max, error⟩
      by_cases encodable : ∀ entry ∈ payload, entry.Encodable
      · simp [Payload.encode_ok encodable, Except.map] at error
      · simp [Payload.encode_error encodable, Except.map] at error
  · intro payload fits
    refine ⟨fun ⟨bytes, encoded⟩ => (ok.mp encoded).2.1, fun encodable => ?_⟩
    exact ⟨_, ok.mpr ⟨fits, encodable, rfl⟩⟩
  · intro payload bytes encoded fits
    obtain ⟨-, -, rfl⟩ := ok.mp encoded
    rw [List.length_append, length, Payload.length_bytes, Payload.size_eq fits]
  · intro payload bytes encoded
    obtain ⟨-, -, rfl⟩ := ok.mp encoded
    exact parsed _
  · intro payload bytes encoded
    obtain ⟨-, -, rfl⟩ := ok.mp encoded
    rw [List.drop_left' length, Payload.parse_bytes]
  · intro payload bytes encoded stable
    obtain ⟨fits, -, rfl⟩ := ok.mp encoded
    refine ok.mpr ⟨by rwa [Payload.size_canonical], fun entry member => ?_, ?_⟩
    · obtain ⟨entry, -, rfl⟩ := List.mem_map.mp member
      exact entry.encodable_canonical
    · rw [Payload.bytes_canonical stable]

end Front

theorem encodeMessage_roundTrips (sender : NodeId) (ttl : UInt8) {messageType : UInt8}
    (groupId : UInt16) (known : messageType.toNat < 4) :
    RoundTrips 20 (fun payload => encodeMessage sender ttl messageType payload groupId)
      fun bytes => parseMessageHeader bytes = .ok (⟨messageType, ttl, groupId, sender⟩, 20) := by
  refine roundTrips_of_front (fun payload => encodeMessage_eq ..) (by simp [protocolHeader])
    (fun rest => ?_)
  rw [List.append_assoc]
  exact parseMessageHeader_append known rest

theorem Ping.encodeMessage_roundTrips (messageType : UInt8) :
    RoundTrips 9 (Ping.encodeMessage messageType)
      fun bytes => Ping.parseMessageHeader bytes = .ok (⟨messageType⟩, 9) := by
  refine roundTrips_of_front (fun payload => Ping.encodeMessage_eq ..) rfl (fun rest => ?_)
  rw [List.append_assoc]
  exact Ping.parseMessageHeader_append messageType rest

end AbletonLink.Wire
