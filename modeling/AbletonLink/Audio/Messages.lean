import AbletonLink.Audio.Payload

/-! Messages of the audio protocol as they are written. -/

namespace AbletonLink.Audio

open Library Library.Bytes Link Wire ByteStreamReader

def maxMessageSize : Nat := 1200

def MessageHeader.encode (header : MessageHeader) : Bytes :=
  [header.messageType] ++ [header.ttl] ++ encodeU16 header.groupId ++ NodeId.encodeTo header.ident

def encodeMessage (sender : NodeId) (ttl messageType : UInt8) (payload : Bytes) :
    Except AudioError Bytes :=
  let header : MessageHeader := { messageType, ttl, groupId := 0, ident := sender }
  let messageSize := protocolHeaderSize + messageHeaderSize + payload.length
  if messageSize > maxMessageSize then .error (.messageTooLarge messageSize maxMessageSize)
  else .ok (protocolHeader ++ header.encode ++ payload)

def audioBufferMessage (sender : NodeId) (payload : Bytes) : Except AudioError Bytes :=
  encodeMessage sender 0 typeAudioBuffer payload

theorem MessageHeader.length_encode (header : MessageHeader) :
    header.encode.length = messageHeaderSize := by
  simp [MessageHeader.encode, messageHeaderSize]

theorem MessageHeader.reads (header : MessageHeader) :
    Reads MessageHeader.decode header header.encode :=
  (Reads.readU8 header.messageType).bind
    ((Reads.readU8 header.ttl).bind
      ((Reads.readU16 header.groupId).bind ((Reads.readId header.ident).map _)))

theorem encodeMessage_of_fits (sender : NodeId) (ttl messageType : UInt8) {payload : Bytes}
    (fits : protocolHeaderSize + messageHeaderSize + payload.length ≤ maxMessageSize) :
    ∃ message, encodeMessage sender ttl messageType payload = .ok message ∧
      message.length = protocolHeaderSize + messageHeaderSize + payload.length := by
  refine ⟨_, if_neg (by omega), ?_⟩
  rw [List.length_append, List.length_append, MessageHeader.length_encode]
  rfl

theorem parseMessageHeader_encodeMessage {sender : NodeId} {ttl messageType : UInt8}
    {payload message : Bytes}
    (sent : encodeMessage sender ttl messageType payload = .ok message) :
    parseMessageHeader message = .ok
        (⟨messageType, ttl, 0, sender⟩, protocolHeaderSize + messageHeaderSize) ∧
      message.drop (protocolHeaderSize + messageHeaderSize) = payload := by
  unfold encodeMessage at sent
  dsimp only at sent
  split at sent
  next => exact nomatch sent
  next =>
    cases sent
    have header := MessageHeader.length_encode ⟨messageType, ttl, 0, sender⟩
    have front : (protocolHeader ++ MessageHeader.encode ⟨messageType, ttl, 0, sender⟩).length =
        protocolHeaderSize + messageHeaderSize := by
      rw [List.length_append, header]
      rfl
    refine ⟨?_, List.drop_left' front⟩
    have enough : ¬(protocolHeader ++ MessageHeader.encode ⟨messageType, ttl, 0, sender⟩ ++
        payload).length < protocolHeaderSize + messageHeaderSize := by
      rw [List.length_append, front]
      omega
    have read := MessageHeader.reads ⟨messageType, ttl, 0, sender⟩ []
    rw [List.append_nil] at read
    have middle : (protocolHeader ++ MessageHeader.encode ⟨messageType, ttl, 0, sender⟩ ++
        payload).take (protocolHeaderSize + messageHeaderSize) =
        protocolHeader ++ MessageHeader.encode ⟨messageType, ttl, 0, sender⟩ :=
      List.take_left' front
    have start : (protocolHeader ++ MessageHeader.encode ⟨messageType, ttl, 0, sender⟩ ++
        payload).take protocolHeaderSize = protocolHeader := by
      rw [List.append_assoc]
      exact List.take_left' rfl
    unfold parseMessageHeader
    simp only [if_neg enough, start, ne_eq, not_true_eq_false, if_false, middle,
      List.drop_left' (show protocolHeader.length = protocolHeaderSize from rfl)]
    rw [read]
    rfl

end AbletonLink.Audio
