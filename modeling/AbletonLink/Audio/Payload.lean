import AbletonLink.Audio.AudioBuffer

/-! Messages of the audio protocol and the entries of their payloads, as they are read. -/

namespace AbletonLink.Audio

open Library Library.Bytes Link ByteStreamReader

def safeGet (bytes : Bytes) (i : Nat) : UInt8 := bytes.getD i 0

def continuation (b : UInt8) : Bool := 0x80 ≤ b && b ≤ 0xBF

/-- The second bytes of a sequence of three or four, which exclude overlong ones, surrogates and
what lies beyond the last code point. -/
def secondByte (first b : UInt8) : Bool :=
  if first = 0xE0 then 0xA0 ≤ b && b ≤ 0xBF
  else if first = 0xED then 0x80 ≤ b && b ≤ 0x9F
  else if first = 0xF0 then 0x90 ≤ b && b ≤ 0xBF
  else if first = 0xF4 then 0x80 ≤ b && b ≤ 0x8F
  else continuation b

def codePoint (first : Nat) (rest : List UInt8) : Char :=
  Char.ofNat (rest.foldl (fun point b => point * 64 + b.toNat % 64) first)

/-- The first character and its length; an invalid part is replaced as a whole. -/
def lossyChar (bytes : Bytes) : Char × Nat :=
  let replacement := '\uFFFD'
  let b := safeGet bytes 0
  let c := safeGet bytes 1
  let d := safeGet bytes 2
  let e := safeGet bytes 3
  if b < 0x80 then (codePoint b.toNat [], 1)
  else if 0xC2 ≤ b && b ≤ 0xDF then
    if continuation c then (codePoint (b.toNat % 32) [c], 2) else (replacement, 1)
  else if 0xE0 ≤ b && b ≤ 0xEF then
    if secondByte b c then
      if continuation d then (codePoint (b.toNat % 16) [c, d], 3) else (replacement, 2)
    else (replacement, 1)
  else if 0xF0 ≤ b && b ≤ 0xF4 then
    if secondByte b c then
      if continuation d then
        if continuation e then (codePoint (b.toNat % 8) [c, d, e], 4) else (replacement, 3)
      else (replacement, 2)
    else (replacement, 1)
  else (replacement, 1)

/-- Every round takes a byte at least, so `fuel` bytes are read. -/
def lossyChars : Nat → Bytes → List Char
  | 0, _ => []
  | fuel + 1, bytes =>
    if bytes.isEmpty then []
    else
      let (char, length) := lossyChar bytes
      char :: lossyChars fuel (bytes.drop length)

def fromUtf8Lossy (bytes : Bytes) : String := String.ofList (lossyChars bytes.length bytes)

example : fromUtf8Lossy [0x64, 0xC3, 0xA9, 0xE2, 0x82, 0x21] = "dé\uFFFD!" := by decide +kernel

def readString : ByteStreamReader String := do
  let length ← readU32
  return fromUtf8Lossy (← readBytes length.toNat)

def protocolHeaderSize : Nat := 8
def protocolHeader : Bytes := [99, 104, 110, 110, 108, 115, 118, 1]
def messageHeaderSize : Nat := 1 + 1 + 2 + 8

def typePeerAnnouncement : UInt8 := 1
def typeChannelByes : UInt8 := 2
def typePong : UInt8 := 3
def typeChannelRequest : UInt8 := 4
def typeStopChannelRequest : UInt8 := 5
def typeAudioBuffer : UInt8 := 6

structure MessageHeader where
  messageType : UInt8
  ttl : UInt8
  groupId : UInt16
  ident : NodeId
  deriving DecidableEq

def MessageHeader.decode : ByteStreamReader MessageHeader := do
  return { messageType := ← readU8, ttl := ← readU8, groupId := ← readU16, ident := ← readId }

def parseMessageHeader (data : Bytes) : Except AudioError (MessageHeader × Nat) :=
  let minMessageSize := protocolHeaderSize + messageHeaderSize
  if data.length < minMessageSize then .error (.range "message shorter than header")
  else if data.take protocolHeaderSize ≠ protocolHeader then
    .error (.invalid "unexpected protocol header")
  else do
    let (header, _) ← MessageHeader.decode ((data.take minMessageSize).drop protocolHeaderSize)
    return (header, minMessageSize)

def entryHeaderSize : Nat := 8

def peerInfoKey : UInt32 := Wire.keyOf '_' '_' 'p' 'i'
def channelIdKey : UInt32 := Wire.keyOf 'c' 'h' 'i' 'd'
def channelAnnouncementsKey : UInt32 := Wire.keyOf 'a' 'u' 'c' 'a'
def channelByesKey : UInt32 := Wire.keyOf 'a' 'u' 'c' 'b'
def sessionMembershipKey : UInt32 := Wire.keyOf 's' 'e' 's' 's'
def hostTimeKey : UInt32 := Wire.keyOf '_' '_' 'h' 't'

def readEntry : ByteStreamReader (UInt32 × Bytes) := do
  let key ← readU32
  let size ← readU32
  return (key, ← readBytes size.toNat)

/-- The walk over the entries, of which `fuel` bytes can hold no more.  What `visit` has collected
before an error stays collected. -/
def parseEntries {α : Type} (visit : UInt32 → Bytes → α → Except AudioError α) :
    Nat → α → Bytes → α × Option AudioError
  | 0, found, _ => (found, none)
  | fuel + 1, found, data =>
    if data.length < entryHeaderSize then (found, none)
    else
      match readEntry data with
      | .error error => (found, some error)
      | .ok ((key, body), rest) =>
        match visit key body found with
        | .error error => (found, some error)
        | .ok found => parseEntries visit fuel found rest

def parsePayload {α : Type} (visit : UInt32 → Bytes → α → Except AudioError α) (start : α)
    (data : Bytes) : α × Option AudioError :=
  parseEntries visit data.length start data

def fromPayload {α : Type} (visit : UInt32 → Bytes → α → Except AudioError α) (start : α)
    (data : Bytes) : Except AudioError α :=
  match parsePayload visit start data with
  | (found, none) => .ok found
  | (_, some error) => .error error

def decodeBody {α : Type} (reader : ByteStreamReader α) (body : Bytes) : Except AudioError α :=
  (reader body).map Prod.fst

structure PeerInfo where
  name : String
  deriving DecidableEq

def PeerInfo.decode : ByteStreamReader PeerInfo := do return ⟨← readString⟩

structure HostTime where
  time : Duration
  deriving DecidableEq

def HostTime.decode : ByteStreamReader HostTime := do return ⟨.microseconds (← readI64)⟩

structure ChannelAnnouncement where
  name : String
  id : Id
  deriving DecidableEq

def ChannelAnnouncement.decode : ByteStreamReader ChannelAnnouncement := do
  let name ← readString
  return { name, id := ← readId }

structure PeerAnnouncement where
  nodeId : NodeId
  sessionId : SessionId
  peerInfo : PeerInfo
  channels : List ChannelAnnouncement
  deriving DecidableEq

namespace PeerAnnouncement

def visit (key : UInt32) (body : Bytes) (found : PeerAnnouncement) :
    Except AudioError PeerAnnouncement :=
  if key = sessionMembershipKey then do
    return { found with sessionId := ⟨← decodeBody readId body⟩ }
  else if key = peerInfoKey then do
    return { found with peerInfo := ← decodeBody PeerInfo.decode body }
  else if key = channelAnnouncementsKey then do
    return { found with channels := ← decodeBody (readVec ChannelAnnouncement.decode) body }
  else .ok found

def fromPayload (nodeId : NodeId) (data : Bytes) : Except AudioError PeerAnnouncement :=
  Audio.fromPayload visit ⟨nodeId, ⟨default⟩, ⟨""⟩, []⟩ data

end PeerAnnouncement

structure ChannelRequest where
  peerId : Id
  channelId : Id
  deriving DecidableEq

namespace ChannelRequest

def visit (key : UInt32) (body : Bytes) (found : ChannelRequest) :
    Except AudioError ChannelRequest :=
  if key = channelIdKey then do return { found with channelId := ← decodeBody readId body }
  else .ok found

def fromPayload (peerId : Id) (data : Bytes) : Except AudioError ChannelRequest :=
  Audio.fromPayload visit ⟨peerId, default⟩ data

end ChannelRequest

structure ChannelStopRequest where
  peerId : Id
  channelId : Id
  deriving DecidableEq

def ChannelStopRequest.fromPayload (peerId : Id) (data : Bytes) :
    Except AudioError ChannelStopRequest := do
  let request ← ChannelRequest.fromPayload peerId data
  return { peerId := request.peerId, channelId := request.channelId }

def hostTimeOf (payload : Bytes) : Option HostTime :=
  (parsePayload (fun key body found =>
    if key = hostTimeKey then do return some (← decodeBody HostTime.decode body)
    else .ok found) none payload).1

/-- The channels of the last byes of a payload, as far as they can be read. -/
def byesOf (payload : Bytes) : List Id :=
  (parsePayload (fun key body found =>
    if key = channelByesKey then decodeBody (readVec readId) body
    else .ok found) [] payload).1

end AbletonLink.Audio
