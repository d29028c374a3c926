import AbletonLink.Wire.Messages

/-! Messages of the measurement protocol: the protocol header, the message type and a payload. -/

namespace AbletonLink.Wire.Ping

open Library Library.Bytes Link

def ping : UInt8 := 1
def pong : UInt8 := 2

def protocolHeader : Bytes := [95, 108, 105, 110, 107, 95, 118, 1]

def messageHeaderSize : Nat := 1

structure MessageHeader where
  messageType : UInt8
  deriving DecidableEq

def MessageHeader.encodeTo (header : MessageHeader) : Bytes := [header.messageType]

def MessageHeader.decodeFrom : Decoder MessageHeader := fun bytes => do
  let (messageType, n) ← decodeU8 bytes
  return ({ messageType }, n)

def encodeMessage (messageType : UInt8) (payload : Payload) : Except Error Bytes := do
  let header : MessageHeader := { messageType }
  let messageSize := protocolHeaderSize + messageHeaderSize + payload.size.toNat
  if messageSize > maxMessageSize then
    throw (.encoding (.messageTooLarge messageSize maxMessageSize))
  let encoded ← payload.encode
  return protocolHeader ++ header.encodeTo ++ encoded

def parseMessageHeader (data : Bytes) : Outcome Error (MessageHeader × Nat) := do
  let minMessageSize := protocolHeaderSize + messageHeaderSize
  if data.length < minMessageSize then .error (.protocol "invalid message size")
  else if ¬protocolHeader.isPrefixOf data then .error (.protocol "invalid protocol header")
  else
    let bytes ← slice data protocolHeaderSize minMessageSize
    let (header, consumed) ← (MessageHeader.decodeFrom bytes).mapError .decoding
    return (header, protocolHeaderSize + consumed)

end AbletonLink.Wire.Ping
