import AbletonLink.Discovery.Registry
import AbletonLink.Library.Run

/-! The gateway's list of peer timeouts and the observer's registry, which follows it through a
channel of events.  Each region that holds the timeouts or the registry is one step; clock readings
and whether an observation is still current are choices of the step.

`sent` records every event ever sent and no operation reads it. -/

namespace AbletonLink.Discovery

open Link Library.Run

/-- `PeerStateMessageType`; `observation` names the revision of a managed observation. -/
structure PeerStateMessage where
  nodeState : NodeState
  ttl : UInt8
  expiresAt : Option Instant
  observation : Option Nat
  measurementEndpoint : Option SocketAddrV4
  audioEndpoint : Option SocketAddrV4
  deriving DecidableEq

def PeerStateMessage.ident (msg : PeerStateMessage) : NodeId := msg.nodeState.nodeId

def seconds (n : Nat) : Nat := n * 1000000000

def PeerStateMessage.deadline (msg : PeerStateMessage) (called : Instant) : Instant :=
  msg.expiresAt.getD (called + seconds msg.ttl.toNat)

inductive PeerEvent
  | observed (msg : PeerStateMessage)
  | peerLeft (node : NodeId)
  | peerTimedOut (node : NodeId)
  deriving DecidableEq

def PeerEvent.ident : PeerEvent → NodeId
  | .observed msg => msg.ident
  | .peerLeft node => node
  | .peerTimedOut node => node

def PeerEvent.removes : PeerEvent → Bool
  | .observed _ => false
  | .peerLeft _ | .peerTimedOut _ => true

structure Gateway where
  peerTimeouts : List (Instant × NodeId)
  peerEvents : List PeerEvent
  handling : Option PeerEvent
  peers : List ControllerPeer
  changes : List (List PeerStateChange)
  sent : List PeerEvent
  deriving DecidableEq

namespace Gateway

def new : Gateway :=
  { peerTimeouts := [], peerEvents := [], handling := none, peers := [], changes := [],
    sent := [] }

def send (g : Gateway) (event : PeerEvent) : Gateway :=
  { g with peerEvents := g.peerEvents ++ [event], sent := g.sent ++ [event] }

def tracks (g : Gateway) (node : NodeId) : Bool := g.peerTimeouts.any fun entry => entry.2 = node

def forget (g : Gateway) (node : NodeId) : Gateway :=
  { g with peerTimeouts := g.peerTimeouts.filter fun entry => entry.2 ≠ node }

def insertTimeout (timeouts : List (Instant × NodeId)) (entry : Instant × NodeId) :
    List (Instant × NodeId) :=
  let position := (timeouts.findIdx? fun other => entry.1 ≤ other.1).getD timeouts.length
  timeouts.insertIdx position entry

def publish (g : Gateway) (msg : PeerStateMessage) (deadline now : Instant) : Gateway :=
  if 0 < msg.ttl ∧ deadline ≤ now then g
  else if msg.ttl = 0 then
    if g.tracks msg.ident then (g.forget msg.ident).send (.peerLeft msg.ident) else g
  else
    let newTo := (min deadline (now + seconds 3), msg.ident)
    let g := g.forget msg.ident
    { g with peerTimeouts := insertTimeout g.peerTimeouts newTo }.send (.observed msg)

/-- `on_peer_state_in_epoch`, called at `called`, where it commits at `now`.  A managed observation
publishes only while it is current. -/
def onPeerState (g : Gateway) (msg : PeerStateMessage) (called now : Instant) (current : Bool) :
    Gateway :=
  let deadline := msg.deadline called
  let msg := { msg with expiresAt := some deadline }
  if msg.observation.isNone || current then g.publish msg deadline now else g

def onByebye (g : Gateway) (node : NodeId) : Gateway :=
  if g.tracks node then (g.forget node).send (.peerLeft node) else g

def prune (g : Gateway) (now : Instant) : Gateway :=
  match g.peerTimeouts with
  | [] => g
  | (time, peer) :: timeouts =>
    if time ≤ now then { g with peerTimeouts := timeouts }.send (.peerTimedOut peer) else g

def receive (g : Gateway) : Gateway :=
  match g.handling, g.peerEvents with
  | none, event :: events => { g with handling := some event, peerEvents := events }
  | _, _ => g

def report (g : Gateway) (result : List PeerStateChange × List ControllerPeer) : Gateway :=
  { g with
    peers := result.2
    changes := if result.1.isEmpty then g.changes else g.changes ++ [result.1] }

/-- The clock readings of one pass through `observed_peer`, in order, and what it finds. -/
structure Observing where
  selfState : PeerState
  current : Bool
  called : Instant
  guarded : Instant
  publishing : Instant
  applied : Instant

def observedPeer (g : Gateway) (msg : PeerStateMessage) (o : Observing) : Gateway :=
  let deadline := msg.deadline o.called
  if 0 < msg.ttl ∧ deadline ≤ o.guarded then g
  else if msg.observation.isNone || o.current then
    if 0 < msg.ttl ∧ deadline ≤ o.publishing then g
    else if msg.ttl = 0 then g.report (removePeer msg.ident g.peers)
    else
      g.report (applyPeer ⟨msg.nodeState, msg.measurementEndpoint, msg.audioEndpoint⟩ g.peers
        o.selfState (some deadline) o.applied)
  else g

def handle (g : Gateway) (o : Observing) : Gateway :=
  match g.handling with
  | none => g
  | some (.observed msg) => { g with handling := none }.observedPeer msg o
  | some (.peerLeft node) | some (.peerTimedOut node) =>
    { g with handling := none }.report (removePeer node g.peers)

def abandon (g : Gateway) : Gateway :=
  match g.handling with
  | some (.observed _) => { g with handling := none }
  | _ => g

end Gateway

inductive GatewayOp
  | peerState (msg : PeerStateMessage) (called now : Instant) (current : Bool)
  | byebye (node : NodeId)
  | prune (now : Instant)
  | receive
  | handle (o : Gateway.Observing)
  | abandon

namespace Gateway

def step (g : Gateway) : GatewayOp → Gateway
  | .peerState msg called now current => g.onPeerState msg called now current
  | .byebye node => g.onByebye node
  | .prune now => g.prune now
  | .receive => g.receive
  | .handle o => g.handle o
  | .abandon => g.abandon

def inFlight (g : Gateway) : List PeerEvent := g.handling.toList ++ g.peerEvents

def lastAbout (node : NodeId) (events : List PeerEvent) : Option PeerEvent :=
  events.findRev? fun event => event.ident = node

def RemovalLast (node : NodeId) (events : List PeerEvent) : Prop :=
  ∃ event, lastAbout node events = some event ∧ event.removes = true

def SightingLast (node : NodeId) (events : List PeerEvent) : Prop :=
  ∃ event, lastAbout node events = some event ∧ event.removes = false

end Gateway

end AbletonLink.Discovery
