import AbletonLink.Link.GhostXForm
import AbletonLink.Wire.RoundTrip

/-! The answer to a PING: the host time and previous ghost time it carries, the session of the
responder and its ghost time. -/

namespace AbletonLink.Link

open Library Library.Bytes Wire

/-- What `try_state` finds in the two mutexes: nothing while another task holds the lock. -/
structure PingResponder where
  sessionId : Option SessionId
  ghostXForm : Option GhostXForm

namespace PingResponder

def maxPayloadSize : Nat := 40

def repeated : PayloadEntry → Bool
  | .hostTime _ | .prevGhostTime _ => true
  | _ => false

def ghostTime (form : GhostXForm) (clock : Int64) : Duration :=
  .microseconds (form.hostToGhost (.microseconds clock)).micros

def pongPayload (sessionId : SessionId) (form : GhostXForm) (clock : Int64) (payload : Payload) :
    Payload :=
  payload.filter repeated ++ [.sessionMembership sessionId, .ghostTime (ghostTime form clock)]

def pongMessage (responder : PingResponder) (clock : Int64) (data : Bytes) : Option Bytes :=
  if data.length < protocolHeaderSize + Ping.messageHeaderSize ∨
      ¬Ping.protocolHeader.isPrefixOf data ∨ data[protocolHeaderSize]? ≠ some Ping.ping then none
  else
    match Ping.parseMessageHeader data with
    | .ok (_, headerLen) =>
      if (data.drop headerLen).length > maxPayloadSize then none
      else
        match parsePayload (data.drop headerLen) with
        | some (.ok payload) => do
          let sessionId ← responder.sessionId
          let form ← responder.ghostXForm
          (Ping.encodeMessage Ping.pong (pongPayload sessionId form clock payload)).toOption
        | _ => none
    | _ => none

theorem encodeMessage_ok {messageType : UInt8} {payload : Payload} {bytes : Bytes} :
    Ping.encodeMessage messageType payload = .ok bytes ↔
      9 + payload.size.toNat ≤ 512 ∧ (∀ entry ∈ payload, entry.Encodable) ∧
        Ping.protocolHeader ++ Ping.MessageHeader.encodeTo ⟨messageType⟩ ++ payload.bytes = bytes :=
  ok_of_front (fun _ => Ping.encodeMessage_eq ..)

theorem encodeMessage_fits (messageType : UInt8) {payload : Payload}
    (small : payload.wireSize ≤ 503) (encodable : ∀ entry ∈ payload, entry.Encodable) :
    ∃ bytes, Ping.encodeMessage messageType payload = .ok bytes := by
  have size := Payload.size_eq (show payload.wireSize < 2 ^ 32 by omega)
  exact ⟨_, encodeMessage_ok.mpr ⟨by omega, encodable, rfl⟩⟩

theorem pongMessage_ping {payload : Payload} {bytes : Bytes} (sessionId : SessionId)
    (form : GhostXForm) (clock : Int64)
    (sent : Ping.encodeMessage Ping.ping payload = .ok bytes) (fits : payload.wireSize ≤ 40) :
    pongMessage ⟨some sessionId, some form⟩ clock bytes =
      (Ping.encodeMessage Ping.pong
        (pongPayload sessionId form clock payload.canonical)).toOption := by
  have parsed := (Ping.encodeMessage_roundTrips Ping.ping).payload payload bytes sent
  have header := (Ping.encodeMessage_roundTrips Ping.ping).header payload bytes sent
  obtain ⟨-, -, rfl⟩ := encodeMessage_ok.mp sent
  have long : ¬((Ping.protocolHeader ++ Ping.MessageHeader.encodeTo ⟨Ping.ping⟩ ++
      payload.bytes).length < protocolHeaderSize + Ping.messageHeaderSize ∨
      ¬Ping.protocolHeader.isPrefixOf (Ping.protocolHeader ++
        Ping.MessageHeader.encodeTo ⟨Ping.ping⟩ ++ payload.bytes) ∨
      (Ping.protocolHeader ++ Ping.MessageHeader.encodeTo ⟨Ping.ping⟩ ++
        payload.bytes)[protocolHeaderSize]? ≠ some Ping.ping) := by
    simp [Ping.protocolHeader, Ping.MessageHeader.encodeTo, protocolHeaderSize,
      Ping.messageHeaderSize]
  have size : ((Ping.protocolHeader ++ Ping.MessageHeader.encodeTo ⟨Ping.ping⟩ ++
      payload.bytes).drop 9).length ≤ maxPayloadSize := by
    have drop : (Ping.protocolHeader ++ Ping.MessageHeader.encodeTo ⟨Ping.ping⟩ ++
        payload.bytes).drop 9 = payload.bytes := List.drop_left' rfl
    rw [drop, Payload.length_bytes]
    exact fits
  rw [pongMessage, if_neg long]
  simp only [header, parsed, if_neg (Nat.not_lt.mpr size)]
  rfl

end PingResponder

end AbletonLink.Link
