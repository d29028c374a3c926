import AbletonLink.Discovery.Gateway
import AbletonLink.Wire.Messages

/-! Observations of peers on their way from the sockets to the registry.  Datagrams are received one
at a time under the interface-map lock, which also takes the receive instant; an observation then
commits at the hand-off to the gateway, at the gateway's timeouts and at the observer's registry.

A revision is named by its position in `revisions`; `live` says that some strong reference to it is
left. -/

namespace AbletonLink.Discovery

open Link Library Library.Run Wire

def Gateway.observations (g : Gateway) : List PeerStateMessage :=
  g.inFlight.filterMap fun event =>
    match event with
    | .observed msg => some msg
    | _ => none

structure EventRevision where
  received : Instant
  cancelled : Bool
  live : Bool
  deriving DecidableEq

/-- What `queue_peer_state_guarded` makes of a datagram: the peer state it carries, and the revision
it gets if it is admitted. -/
structure Observed where
  msg : PeerStateMessage
  revision : Option Nat
  deriving DecidableEq

structure ReceiveContext where
  selfIdent : NodeId
  groupId : UInt16
  enabled : Bool

structure Messenger where
  revisions : List EventRevision
  pending : NodeId → Option Nat
  clock : Instant
  handoff : List PeerStateMessage
  events : List PeerStateMessage
  gateway : Gateway

namespace Messenger

def new : Messenger :=
  { revisions := [], pending := fun _ => none, clock := 0, handoff := [], events := [],
    gateway := Gateway.new }

def isLive (m : Messenger) (id : Nat) : Bool := m.revisions[id]?.any EventRevision.live

def cancel (m : Messenger) (id : Nat) : Messenger :=
  { m with revisions := m.revisions.modify id fun revision => { revision with cancelled := true } }

def retainPending (m : Messenger) : Messenger :=
  { m with pending := fun node => (m.pending node).filter m.isLive }

def supersede (m : Messenger) (peer : NodeId) : Messenger :=
  { (m.pending peer).elim m m.cancel with pending := Function.update m.pending peer none }

def insertRevision (m : Messenger) (peer : NodeId) (received : Instant) : Messenger :=
  { m with
    revisions := m.revisions ++ [{ received, cancelled := false, live := true }]
    pending := Function.update m.pending peer (some m.revisions.length) }

def observeLocked (m : Messenger) (peer : NodeId) (received : Instant) (admitted : Bool) :
    Messenger × Option Nat :=
  let m := m.retainPending
  if ((m.pending peer).bind fun id => m.revisions[id]?).any fun revision =>
      received < revision.received then (m, none)
  else
    let m := m.supersede peer
    if admitted then (m.insertRevision peer received, some m.revisions.length) else (m, none)

def peerStateEvent (header : MessageHeader) (buf : Bytes) (now : Instant) :
    Option PeerStateMessage :=
  match parsePayload buf with
  | some (.ok payload) =>
    some
      { nodeState := nodeStateFromPayload header.ident payload
        ttl := header.ttl
        expiresAt := some (now + seconds header.ttl.toNat)
        observation := none
        measurementEndpoint := payload.findSome? fun entry =>
          match entry with
          | .measurementEndpointV4 endpoint => endpoint
          | _ => none
        audioEndpoint := payload.findSome? fun entry =>
          match entry with
          | .audioEndpointV4 endpoint => endpoint
          | _ => none }
  | _ => none

/-- `queue_peer_state_guarded` for a datagram received at `received`, where `room` says that the
hand-off queue has room and `now` is read when it is admitted. -/
def queuePeerState (m : Messenger) (received now : Instant) (header : MessageHeader) (buf : Bytes)
    (room : Bool) : Messenger × Option Observed :=
  let expires := received + seconds header.ttl.toNat
  match peerStateEvent header buf now with
  | none => (m, none)
  | some state =>
    let (m, revision) := m.observeLocked state.ident received
      (room && (state.ttl = 0 || now < expires))
    match revision with
    | none => (m, some ⟨state, none⟩)
    | some id =>
      ({ m with
        handoff := m.handoff ++
          [{ state with expiresAt := some expires, observation := some id }] },
        some ⟨state, some id⟩)

def observeDiscovery (m : Messenger) (context : ReceiveContext) (bytes : Bytes)
    (elapsed delay : Nat) (room : Bool) : Messenger × Option Observed :=
  let received := m.clock + elapsed
  let m := { m with clock := received }
  match parseMessageHeader bytes with
  | .ok (header, len) =>
    if header.messageType = messageTypeAlive ∨ header.messageType = messageTypeResponse ∨
        header.messageType = messageTypeByebye then
      if context.selfIdent = header.ident ∧ header.groupId = context.groupId then (m, none)
      else if header.messageType ≠ messageTypeByebye ∧ !context.enabled then (m, none)
      else if header.messageType = messageTypeByebye then
        m.queuePeerState received (received + delay) { header with ttl := 0 } [] room
      else m.queuePeerState received (received + delay) header (bytes.drop len) room
    else (m, none)
  | _ => (m, none)

def revisionOf (m : Messenger) (msg : PeerStateMessage) : Option EventRevision :=
  msg.observation.bind fun id => m.revisions[id]?

/-- The test of `try_commit`, under the interface map and the revisions' lock.  `registered` says
that the observation's ingress is still registered and current. -/
def isCurrent (m : Messenger) (msg : PeerStateMessage) (registered : Bool) : Bool :=
  registered && (m.revisionOf msg).any fun revision => !revision.cancelled

def deliver (m : Messenger) (index : Nat) (now : Instant) (registered : Bool) : Messenger :=
  match m.handoff[index]? with
  | none => m
  | some msg =>
    let rest := { m with handoff := m.handoff.eraseIdx index }
    if m.isCurrent msg registered then
      if 0 < msg.ttl ∧ msg.expiresAt.any (· ≤ now) then rest
      else { rest with events := rest.events ++ [msg] }
    else rest

def onPeerState (m : Messenger) (index : Nat) (called now : Instant) (registered : Bool) :
    Messenger :=
  match m.events[index]? with
  | none => m
  | some msg =>
    { m with
      events := m.events.eraseIdx index
      gateway := m.gateway.onPeerState msg called now (m.isCurrent msg registered) }

def handle (m : Messenger) (o : Gateway.Observing) (registered : Bool) : Messenger :=
  match m.gateway.handling with
  | some (.observed msg) =>
    { m with gateway := m.gateway.handle { o with current := m.isCurrent msg registered } }
  | _ => { m with gateway := m.gateway.handle o }

def held (m : Messenger) : List PeerStateMessage :=
  m.handoff ++ m.events ++ m.gateway.observations

def release (m : Messenger) (id : Nat) : Messenger :=
  if ∃ msg ∈ m.held, msg.observation = some id then m
  else
    { m with revisions := m.revisions.modify id fun revision => { revision with live := false } }

end Messenger

inductive MessengerOp
  | datagram (context : ReceiveContext) (bytes : Bytes) (elapsed delay : Nat) (room : Bool)
  | deliver (index : Nat) (now : Instant) (registered : Bool)
  | dropHandoff (index : Nat)
  | peerState (index : Nat) (called now : Instant) (registered : Bool)
  | dropEvent (index : Nat)
  | byebye (node : NodeId)
  | prune (now : Instant)
  | receive
  | handle (o : Gateway.Observing) (registered : Bool)
  | abandon
  | release (id : Nat)

namespace Messenger

def step (m : Messenger) : MessengerOp → Messenger
  | .datagram context bytes elapsed delay room =>
    (m.observeDiscovery context bytes elapsed delay room).1
  | .deliver index now registered => m.deliver index now registered
  | .dropHandoff index => { m with handoff := m.handoff.eraseIdx index }
  | .peerState index called now registered => m.onPeerState index called now registered
  | .dropEvent index => { m with events := m.events.eraseIdx index }
  | .byebye node => { m with gateway := m.gateway.onByebye node }
  | .prune now => { m with gateway := m.gateway.prune now }
  | .receive => { m with gateway := m.gateway.receive }
  | .handle o registered => m.handle o registered
  | .abandon => { m with gateway := m.gateway.abandon }
  | .release id => m.release id

def observes (m : Messenger) : MessengerOp → List Observed
  | .datagram context bytes elapsed delay room =>
    (m.observeDiscovery context bytes elapsed delay room).2.toList
  | _ => []

def commits (m : Messenger) : MessengerOp → List PeerStateMessage
  | .deliver index _ registered =>
    m.handoff[index]?.toList.filter fun msg => m.isCurrent msg registered
  | .peerState index _ _ registered =>
    m.events[index]?.toList.filter fun msg => m.isCurrent msg registered
  | .handle _ registered => m.gateway.handling.toList.filterMap fun event =>
      match event with
      | .observed msg => if m.isCurrent msg registered then some msg else none
      | _ => none
  | _ => []

end Messenger

end AbletonLink.Discovery
