import AbletonLink.Wire.Encoding

/-! Payloads: runs of entries, each a header (key and size) and that many bytes. -/

namespace AbletonLink.Link

open Library.MachineInt

def Tempo.fromPeriod (period : Duration) : Tempo := ⟨60.0 * 1e9 / Float.ofInt period.nanos⟩

def Tempo.microsPerBeat (t : Tempo) : Duration :=
  durationFromNanos (saturate (t.periodMicros * 1000))

end AbletonLink.Link

namespace AbletonLink.Wire

open Library Library.Bytes Link

def keyOf (a b c d : Char) : UInt32 :=
  UInt32.ofNat (ofBe ([a, b, c, d].map fun char => UInt8.ofNat char.toNat))

def hostTimeHeaderKey : UInt32 := keyOf '_' '_' 'h' 't'
def ghostTimeHeaderKey : UInt32 := keyOf '_' '_' 'g' 't'
def prevGhostTimeHeaderKey : UInt32 := keyOf '_' 'p' 'g' 't'
def timelineHeaderKey : UInt32 := keyOf 't' 'm' 'l' 'n'
def sessionMembershipHeaderKey : UInt32 := keyOf 's' 'e' 's' 's'
def startStopStateHeaderKey : UInt32 := keyOf 's' 't' 's' 't'
def measurementEndpointV4HeaderKey : UInt32 := keyOf 'm' 'e' 'p' '4'
def audioEndpointV4HeaderKey : UInt32 := keyOf 'a' 'e' 'p' '4'
def audioEndpointV6HeaderKey : UInt32 := keyOf 'a' 'e' 'p' '6'

def hostTimeSize : UInt32 := 8
def ghostTimeSize : UInt32 := 8
def prevGhostTimeSize : UInt32 := 8
def timelineSize : UInt32 := 24
def sessionMembershipSize : UInt32 := 8
def startStopStateSize : UInt32 := 17
def measurementEndpointV4Size : UInt32 := 6
def audioEndpointV4Size : UInt32 := 6

def payloadEntryHeaderSize : Nat := 8

structure PayloadEntryHeader where
  key : UInt32
  size : UInt32
  deriving DecidableEq

def PayloadEntryHeader.encode (header : PayloadEntryHeader) : Bytes :=
  encodeU32 header.key ++ encodeU32 header.size

def PayloadEntryHeader.decodeFrom : Decoder PayloadEntryHeader := fun bytes => do
  let (key, n1) ← decodeU32 bytes
  let (size, n2) ← decodeU32 (← slice bytes n1 bytes.length)
  return (⟨key, size⟩, n1 + n2)

inductive PayloadEntry
  | hostTime (time : Duration)
  | ghostTime (time : Duration)
  | prevGhostTime (time : Duration)
  | timeline (timeline : Timeline)
  | sessionMembership (sessionId : SessionId)
  | startStopState (state : StartStopState)
  | measurementEndpointV4 (endpoint : Option SocketAddrV4)
  | audioEndpointV4 (endpoint : Option SocketAddrV4)
  deriving DecidableEq

abbrev Payload := List PayloadEntry

/-! Encoding. -/

def wireMicros (time : Duration) : Except Error Int64 :=
  match time.numMicroseconds with
  | some micros => .ok micros
  | none => .error (.protocol "time out of range")

/-- `HostTime`, `GhostTime` and `PrevGhostTime` differ only in their header. -/
def encodeTime (header : PayloadEntryHeader) (time : Duration) : Except Error Bytes := do
  let micros ← wireMicros time
  return header.encode ++ encodeI64 micros

def Timeline.encodeTo (timeline : Timeline) : Bytes :=
  encodeI64 timeline.tempo.microsPerBeat.micros ++ encodeI64 timeline.beatOrigin.value ++
    encodeI64 timeline.timeOrigin.micros

def StartStopState.encodeTo (state : StartStopState) : Bytes :=
  encodeBool state.isPlaying ++ encodeI64 state.beats.value ++ encodeI64 state.timestamp.micros

/-- Both kinds of endpoint; none is the unspecified address with port zero. -/
def encodeEndpoint (endpoint : Option SocketAddrV4) : Bytes :=
  let endpoint := endpoint.getD ⟨0, 0⟩
  encodeU32 endpoint.ip ++ encodeU16 endpoint.port

namespace PayloadEntry

def size : PayloadEntry → UInt32
  | .hostTime _ => hostTimeSize
  | .ghostTime _ => ghostTimeSize
  | .prevGhostTime _ => prevGhostTimeSize
  | .timeline _ => timelineSize
  | .sessionMembership _ => sessionMembershipSize
  | .startStopState _ => startStopStateSize
  | .measurementEndpointV4 _ => measurementEndpointV4Size
  | .audioEndpointV4 _ => audioEndpointV4Size

def encode : PayloadEntry → Except Error Bytes
  | .hostTime time => encodeTime ⟨hostTimeHeaderKey, hostTimeSize⟩ time
  | .ghostTime time => encodeTime ⟨ghostTimeHeaderKey, ghostTimeSize⟩ time
  | .prevGhostTime time => encodeTime ⟨prevGhostTimeHeaderKey, prevGhostTimeSize⟩ time
  | .timeline tl =>
    .ok (PayloadEntryHeader.encode ⟨timelineHeaderKey, timelineSize⟩ ++ Timeline.encodeTo tl)
  | .sessionMembership sessionId =>
    .ok (PayloadEntryHeader.encode ⟨sessionMembershipHeaderKey, sessionMembershipSize⟩ ++
      NodeId.encodeTo sessionId.node)
  | .startStopState state =>
    .ok (PayloadEntryHeader.encode ⟨startStopStateHeaderKey, startStopStateSize⟩ ++
      StartStopState.encodeTo state)
  | .measurementEndpointV4 endpoint =>
    .ok (PayloadEntryHeader.encode ⟨measurementEndpointV4HeaderKey, measurementEndpointV4Size⟩ ++
      encodeEndpoint endpoint)
  | .audioEndpointV4 endpoint =>
    .ok (PayloadEntryHeader.encode ⟨audioEndpointV4HeaderKey, audioEndpointV4Size⟩ ++
      encodeEndpoint endpoint)

end PayloadEntry

namespace Payload

def size (payload : Payload) : UInt32 :=
  payload.foldl (fun size entry => size + (UInt32.ofNat payloadEntryHeaderSize + entry.size)) 0

def encode : Payload → Except Error Bytes
  | [] => .ok []
  | entry :: payload => do
    let encodedEntry ← entry.encode
    let encoded ← encode payload
    return encodedEntry ++ encoded

end Payload

/-! Decoding. -/

def decodeTime : Decoder Duration := fun bytes => do
  let (time, n) ← decodeI64 bytes
  return (Duration.microseconds time, n)

def Beats.decodeFrom : Decoder Beats := fun bytes => do
  let (value, n) ← decodeI64 bytes
  return (⟨value⟩, n)

def Timeline.decodeFrom : Decoder Timeline := fun bytes => do
  let (tempoMicros, n1) ← decodeI64 bytes
  let (beatOriginMicroBeats, n2) ← decodeI64 (← slice bytes n1 bytes.length)
  let (timeOriginMicros, n3) ← decodeI64 (← slice bytes (n1 + n2) bytes.length)
  return (
    { tempo := Tempo.fromPeriod (Duration.microseconds tempoMicros)
      beatOrigin := ⟨beatOriginMicroBeats⟩
      timeOrigin := Duration.microseconds timeOriginMicros },
    n1 + n2 + n3)

def SessionId.decodeFrom : Decoder SessionId := fun bytes => do
  let (nodeId, n) ← NodeId.decodeFrom bytes
  return (⟨nodeId⟩, n)

def StartStopState.decodeFrom : Decoder StartStopState := fun bytes => do
  let (isPlaying, n1) ← decodeBool bytes
  let (beats, n2) ← Beats.decodeFrom (← slice bytes n1 bytes.length)
  let (timestamp, n3) ← decodeI64 (← slice bytes (n1 + n2) bytes.length)
  return ({ isPlaying, beats, timestamp := Duration.microseconds timestamp }, n1 + n2 + n3)

def MeasurementEndpointV4.decodeFrom : Decoder (Option SocketAddrV4) := fun bytes => do
  let (ip, n1) ← decodeU32 bytes
  let (port, n2) ← decodeU16 (← slice bytes n1 bytes.length)
  return (if ip ≠ 0 ∨ port ≠ 0 then some ⟨ip, port⟩ else none, n1 + n2)

def AudioEndpointV4.decodeFrom : Decoder (Option SocketAddrV4) := fun bytes => do
  let (ip, n1) ← decodeU32 bytes
  let (port, n2) ← decodeU16 (← slice bytes n1 bytes.length)
  return (if ip = 0 ∨ port = 0 then none else some ⟨ip, port⟩, n1 + n2)

def decodeSized {α : Type} (header : PayloadEntryHeader) (expected : UInt32) (decoder : Decoder α)
    (entry : α → PayloadEntry) (body : Bytes) : Outcome Error (Option PayloadEntry) :=
  if header.size = expected then do
    let (value, _) ← (decoder body).mapError .decoding
    return some (entry value)
  else .error (.protocol "payload entry size mismatch")

def decodeEntry (header : PayloadEntryHeader) (body : Bytes) :
    Outcome Error (Option PayloadEntry) :=
  if header.key = hostTimeHeaderKey then
    decodeSized header hostTimeSize decodeTime .hostTime body
  else if header.key = timelineHeaderKey then
    decodeSized header timelineSize Timeline.decodeFrom .timeline body
  else if header.key = sessionMembershipHeaderKey then
    decodeSized header sessionMembershipSize SessionId.decodeFrom .sessionMembership body
  else if header.key = startStopStateHeaderKey then
    decodeSized header startStopStateSize StartStopState.decodeFrom .startStopState body
  else if header.key = measurementEndpointV4HeaderKey then
    decodeSized header measurementEndpointV4Size MeasurementEndpointV4.decodeFrom
      .measurementEndpointV4 body
  else if header.key = audioEndpointV4HeaderKey then
    decodeSized header audioEndpointV4Size AudioEndpointV4.decodeFrom .audioEndpointV4 body
  else if header.key = audioEndpointV6HeaderKey then .ok none
  else if header.key = ghostTimeHeaderKey then
    decodeSized header ghostTimeSize decodeTime .ghostTime body
  else if header.key = prevGhostTimeHeaderKey then
    decodeSized header prevGhostTimeSize decodeTime .prevGhostTime body
  else .ok none

/-- One round of the loop of `decode`: the entry, if its key is known, and the rest of the data. -/
def decodeFrame (data : Bytes) : Outcome Error (Option PayloadEntry × Bytes) := do
  let headerBytes ← slice data 0 payloadEntryHeaderSize
  let (header, _) ← (PayloadEntryHeader.decodeFrom headerBytes).mapError .decoding
  let stop := payloadEntryHeaderSize + header.size.toNat
  if stop ≤ data.length then
    let body ← slice data payloadEntryHeaderSize stop
    let entry ← decodeEntry header body
    let rest ← slice data stop data.length
    return (entry, rest)
  else .error (.protocol "truncated payload entry")

/-- The loop of `decode` for at most `fuel` rounds.  The payload is the one the caller passed, with
what the rounds before an error appended. -/
def decodeLoop : Nat → Payload → Bytes → Option (Payload × Outcome Error Unit)
  | 0, _, _ => none
  | fuel + 1, payload, data =>
    if payloadEntryHeaderSize ≤ data.length then
      match decodeFrame data with
      | .ok (entry, rest) => decodeLoop fuel (payload ++ entry.toList) rest
      | .error error => some (payload, .error error)
      | .panicked => some (payload, .panicked)
    else some (payload, .ok ())

/-- `payload::decode`; `none` if the loop is still running after a round for every byte. -/
def decode (payload : Payload) (data : Bytes) : Option (Payload × Outcome Error Unit) :=
  decodeLoop (data.length + 1) payload data

def parsePayload (data : Bytes) : Option (Outcome Error Payload) :=
  match decode [] data with
  | some (payload, .ok ()) => some (.ok payload)
  | some (_, .error error) => some (.error error)
  | some (_, .panicked) => some .panicked
  | none => none

end AbletonLink.Wire
