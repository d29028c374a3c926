import AbletonLink.Library.Run
import AbletonLink.Link.PingResponder

/-! A measurement of a session's ghost clock: PINGs to a responder and the samples its PONGs give.

Every datagram sent stays in `pings` or `pongs`, where it can be delivered at any time, in any
order, several times or never.  What a record holds besides its bytes is there for the laws only. -/

namespace AbletonLink.Link

open Library Library.Bytes Library.Run Wire

namespace Measurement

def numberDataPoints : Nat := 20

structure PongFields where
  sessionId : SessionId
  ghostTime : Duration
  prevGhostTime : Duration
  prevHostTime : Duration

namespace PongFields

instance : Inhabited PongFields := ⟨⟨default, .zero, .zero, .zero⟩⟩

def note (fields : PongFields) : PayloadEntry → PongFields
  | .sessionMembership sessionId => { fields with sessionId }
  | .ghostTime time => { fields with ghostTime := time }
  | .prevGhostTime time => { fields with prevGhostTime := time }
  | .hostTime time => { fields with prevHostTime := time }
  | _ => fields

end PongFields

def pongFields (buf : Bytes) : Option PongFields :=
  match Ping.parseMessageHeader buf with
  | .ok (header, headerLen) =>
    if header.messageType = Ping.pong then
      match parsePayload (buf.drop headerLen) with
      | some (.ok payload) => some (payload.foldl PongFields.note default)
      | _ => none
    else none
  | _ => none

def pongSamples (host previousHost ghost previousGhost : Duration) :
    Option (List (Float × Float)) :=
  if ghost = .zero ∨ previousHost = .zero then some []
  else do
    let host := (← host.numMicroseconds).toInt
    let previousHost := (← previousHost.numMicroseconds).toInt
    let ghost := (← ghost.numMicroseconds).toInt
    let previousGhost := (← previousGhost.numMicroseconds).toInt
    let sumHost := host + previousHost
    let second :=
      if previousGhost ≠ 0 then
        [(Float.ofInt previousHost,
          Float.ofInt (ghost + previousGhost - 2 * previousHost) * 0.5)]
      else []
    return (Float.ofInt sumHost * 0.5, Float.ofInt (2 * ghost - sumHost) * 0.5) :: second

/-- A PING sent at the reading `clock`; a follow-up was triggered by the PONG at a position. -/
structure SentPing where
  bytes : Bytes
  clock : Int64
  trigger : Option Nat

/-- The answer to the PING at position `ping`, from the responder's transform and clock. -/
structure SentPong where
  bytes : Bytes
  ping : Nat
  form : GhostXForm
  clock : Int64

structure Contribution where
  pong : Nat
  samples : List (Float × Float)

end Measurement

open Measurement

structure Measurement where
  sessionId : SessionId
  listening : Bool
  data : List (Float × Float)
  pings : List SentPing
  pongs : List SentPong
  contributions : List Contribution

namespace Measurement

def new (sessionId : SessionId) : Measurement :=
  { sessionId, listening := true, data := [], pings := [], pongs := [], contributions := [] }

def sendPing (m : Measurement) (clock : Int64) (trigger : Option Nat) (payload : Payload) :
    Measurement :=
  match Ping.encodeMessage Ping.ping payload with
  | .ok bytes => { m with pings := m.pings ++ [{ bytes, clock, trigger }] }
  | .error _ => m

def hostTimePayload (clock : Int64) : Payload := [.hostTime (.microseconds clock)]

def followUpPayload (clock : Int64) (fields : PongFields) : Payload :=
  [.hostTime (.microseconds clock), .prevGhostTime fields.prevGhostTime]

def answer (m : Measurement) (ping : Nat) (form : GhostXForm) (clock : Int64) : Measurement :=
  match m.pings[ping]? with
  | none => m
  | some sent =>
    match PingResponder.pongMessage ⟨some m.sessionId, some form⟩ clock sent.bytes with
    | some bytes => { m with pongs := m.pongs ++ [{ bytes, ping, form, clock }] }
    | none => m

def append (m : Measurement) (pong : Nat) (current : Bool) (samples : List (Float × Float)) :
    Measurement :=
  if current then
    { m with
      data := m.data ++ samples
      contributions := m.contributions ++ [{ pong, samples }]
      listening := (m.data ++ samples).length ≤ numberDataPoints }
  else { m with listening := false }

def receive (m : Measurement) (pong : Nat) (clock : Int64) (current : Bool) : Measurement :=
  match m.pongs[pong]? with
  | none => m
  | some sent =>
    match pongFields sent.bytes with
    | none => m
    | some fields =>
      if m.sessionId = fields.sessionId then
        let m := m.sendPing clock (some pong) (followUpPayload clock fields)
        match pongSamples (.microseconds clock) fields.prevHostTime fields.ghostTime
          fields.prevGhostTime with
        | some samples => m.append pong current samples
        | none => m
      else m

inductive Op
  | ping (clock : Int64)
  | answer (ping : Nat) (form : GhostXForm) (clock : Int64)
  | receive (pong : Nat) (clock : Int64) (current : Bool)
  | clear
  | retire

def step (m : Measurement) : Op → Measurement
  | .ping clock => m.sendPing clock none (hostTimePayload clock)
  | .answer ping form clock => m.answer ping form clock
  | .receive pong clock current => if m.listening then m.receive pong clock current else m
  | .clear => { m with data := [] }
  | .retire => { m with listening := false }

end Measurement

end AbletonLink.Link
