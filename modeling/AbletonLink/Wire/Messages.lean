import AbletonLink.Wire.Payload

/-! Discovery messages: the protocol header, the message header and a payload. -/

namespace AbletonLink.Wire

open Library Library.Bytes Link

def maxMessageSize : Nat := 512
def protocolHeaderSize : Nat := 8
def messageHeaderSize : Nat := 12

def messageTypeAlive : UInt8 := 1
def messageTypeResponse : UInt8 := 2
def messageTypeByebye : UInt8 := 3

def messageTypes : Nat := 4

def protocolHeader : Bytes := [95, 97, 115, 100, 112, 95, 118, 1]

structure MessageHeader where
  messageType : UInt8
  ttl : UInt8
  groupId : UInt16
  ident : NodeId
  deriving DecidableEq

def MessageHeader.encodeTo (header : MessageHeader) : Bytes :=
  [header.messageType] ++ [header.ttl] ++ encodeU16 header.groupId ++ NodeId.encodeTo header.ident

def MessageHeader.decodeFrom : Decoder MessageHeader := fun bytes => do
  let (messageType, n1) ← decodeU8 bytes
  let (ttl, n2) ← decodeU8 (← slice bytes n1 bytes.length)
  let (groupId, n3) ← decodeU16 (← slice bytes (n1 + n2) bytes.length)
  let (ident, n4) ← NodeId.decodeFrom (← slice bytes (n1 + n2 + n3) bytes.length)
  return ({ messageType, ttl, groupId, ident }, n1 + n2 + n3 + n4)

def encodeMessage (sender : NodeId) (ttl messageType : UInt8) (payload : Payload)
    (groupId : UInt16) : Except Error Bytes := do
  let header : MessageHeader := { messageType, ttl, groupId, ident := sender }
  let messageSize := protocolHeaderSize + messageHeaderSize + payload.size.toNat
  if messageSize > maxMessageSize then
    throw (.encoding (.messageTooLarge messageSize maxMessageSize))
  let encoded ← payload.encode
  return protocolHeader ++ header.encodeTo ++ encoded

def parseMessageHeader (data : Bytes) : Outcome Error (MessageHeader × Nat) := do
  let minMessageSize := protocolHeaderSize + messageHeaderSize
  if data.length < minMessageSize then .error (.protocol "invalid message size")
  else if ¬protocolHeader.isPrefixOf data then .error (.protocol "invalid protocol header")
  else
    let bytes ← slice data protocolHeaderSize minMessageSize
    let (header, consumed) ← (MessageHeader.decodeFrom bytes).mapError .decoding
    if header.messageType.toNat ≥ messageTypes then .error (.protocol "unknown message type")
    else return (header, protocolHeaderSize + consumed)

/-- `NodeState::from_payload`: the last entry of each kind wins. -/
def nodeStateFromPayload (nodeId : NodeId) (payload : Payload) : NodeState :=
  payload.foldl
    (fun state entry =>
      match entry with
      | .timeline timeline => { state with timeline }
      | .sessionMembership sessionId => { state with sessionId }
      | .startStopState startStopState => { state with startStopState }
      | _ => state)
    { nodeId, sessionId := default, timeline := default, startStopState := default }

def payloadFromPeerState (state : PeerState) : Payload :=
  [.timeline state.nodeState.timeline, .sessionMembership state.nodeState.sessionId,
    .startStopState state.nodeState.startStopState] ++
  (if state.measurementEndpoint.isSome then
    [.measurementEndpointV4 state.measurementEndpoint] else []) ++
  (if state.audioEndpoint.isSome then [.audioEndpointV4 state.audioEndpoint] else [])

end AbletonLink.Wire
