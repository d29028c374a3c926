import AbletonLink.Audio.Payload
import AbletonLink.Library.FirstMatch

/-! The channels discovered in the session, the receivers of a channel, and the quality of the ways
to their peers.  Instants are nanoseconds of one clock. -/

namespace AbletonLink.Audio

open Library Link

abbrev Instant := Nat

def nanosPerSecond : Nat := 1000000000

def Instant.after (now : Instant) (ttl : UInt8) : Instant := now + ttl.toNat * nanosPerSecond

def prunePadding : Nat := nanosPerSecond

structure NetworkMetrics where
  speed : Float
  jitter : Float

def NetworkMetrics.quality (metrics : NetworkMetrics) : Float :=
  metrics.speed / (1.0 + metrics.jitter)

/-- A sliding window of the last round-trip times. -/
structure NetworkMetricsFilter where
  pingPongTimes : List Duration
  currentIndex : Nat
  count : Nat

namespace NetworkMetricsFilter

def maxSize : Nat := 10

def new : NetworkMetricsFilter := ⟨List.replicate maxSize Duration.zero, 0, 0⟩

def push (filter : NetworkMetricsFilter) (time : Duration) : NetworkMetricsFilter where
  pingPongTimes := filter.pingPongTimes.set filter.currentIndex time
  currentIndex := (filter.currentIndex + 1) % maxSize
  count := if filter.count < maxSize then filter.count + 1 else filter.count

/-- Whole microseconds as a float, zero where they are no `i64`. -/
def micros (time : Duration) : Float :=
  Float.ofInt ((time.numMicroseconds.map Int64.toInt).getD 0)

def metrics (filter : NetworkMetricsFilter) : NetworkMetrics :=
  if filter.count = 0 then ⟨0.0, 0.0⟩
  else
    let times := (filter.pingPongTimes.take filter.count).map micros
    let count := Float.ofNat filter.count
    let avgRtt := times.foldl (· + ·) 0.0 / count
    let speed := if avgRtt != 0.0 then 1e6 / avgRtt else 0.0
    let variance :=
      (times.map fun time => (time - avgRtt) * (time - avgRtt)).foldl (· + ·) 0.0 / count
    -- A window that is not full yet is penalised.
    let jitter := 1e4 - 1e4 * count / Float.ofNat maxSize + variance.sqrt
    ⟨speed, jitter⟩

end NetworkMetricsFilter

structure Channel where
  id : Id
  name : String
  peerId : Id
  peerName : String
  sessionId : SessionId
  deriving DecidableEq

structure ChannelInfo where
  channel : Channel
  gatewayAddr : UInt32
  expiresAt : Instant
  deriving DecidableEq

structure PeerSendHandler where
  endpoint : SocketAddrV4
  networkQuality : Float

/-- The send handlers are a map, kept as its bindings. -/
structure Channels where
  channels : List ChannelInfo
  peerSendHandlers : List (Id × PeerSendHandler)

namespace Channels

def new : Channels := ⟨[], []⟩

def sawChannel (channel : Channel) (gatewayAddr : UInt32) (expiresAt : Instant)
    (channels : List ChannelInfo) : List ChannelInfo × Bool :=
  let matches_ := fun info : ChannelInfo =>
    decide (info.channel.id = channel.id ∧ info.gatewayAddr = gatewayAddr)
  match channels.find? matches_ with
  | some info =>
    (replaceFirst matches_ { info with channel, expiresAt } channels, info.channel ≠ channel)
  | none => (channels ++ [{ channel, gatewayAddr, expiresAt }], true)

def sawChannels (peerId : Id) (peerName : String) (sessionId : SessionId)
    (gatewayAddr : UInt32) (expiresAt : Instant) :
    List ChannelAnnouncement → List ChannelInfo → List ChannelInfo × Bool
  | [], channels => (channels, false)
  | announced :: others, channels =>
    let channel : Channel :=
      { id := announced.id, name := announced.name, peerId, peerName, sessionId }
    let (channels, here) := sawChannel channel gatewayAddr expiresAt channels
    let (channels, there) :=
      sawChannels peerId peerName sessionId gatewayAddr expiresAt others channels
    (channels, here || there)

def handlerOf (self : Channels) (peerId : Id) : Option PeerSendHandler :=
  (self.peerSendHandlers.find? fun binding => binding.1 = peerId).map Prod.snd

def insertHandler (self : Channels) (peerId : Id) (handler : PeerSendHandler) : Channels :=
  { self with
    peerSendHandlers :=
      (peerId, handler) :: self.peerSendHandlers.filter fun binding => binding.1 ≠ peerId }

def sawAnnouncement (self : Channels) (peerId : Id) (peerName : String) (sessionId : SessionId)
    (announced : List ChannelAnnouncement) (gatewayAddr : UInt32) (source : SocketAddrV4)
    (networkQuality : Float) (ttl : UInt8) (now : Instant) : Channels × Bool :=
  let (channels, changed) :=
    sawChannels peerId peerName sessionId gatewayAddr (now.after ttl) announced self.channels
  let self := { self with channels }
  -- The better link is kept; an incomparable quality replaces it.
  let kept :=
    match self.handlerOf peerId with
    | some existing => decide (existing.networkQuality ≥ networkQuality)
    | none => false
  (if kept then self else self.insertHandler peerId ⟨source, networkQuality⟩, changed)

def pruneSendHandlers (self : Channels) : Channels :=
  let peers := self.channels.map fun info => info.channel.peerId
  { self with
    peerSendHandlers := self.peerSendHandlers.filter fun binding => peers.contains binding.1 }

def retain (self : Channels) (keep : ChannelInfo → Bool) : Channels × Bool :=
  let channels := self.channels.filter keep
  let changed := decide (channels.length ≠ self.channels.length)
  let self := { self with channels }
  (if changed then self.pruneSendHandlers else self, changed)

def channelsLeft (self : Channels) (gatewayAddr : UInt32) (byes : List Id) : Channels × Bool :=
  self.retain fun info => !(info.gatewayAddr = gatewayAddr && byes.contains info.channel.id)

def pruneExpired (self : Channels) (now : Instant) : Channels × Bool :=
  self.retain fun info => info.expiresAt + prunePadding > now

def prunePeerChannels (self : Channels) (connectedPeers : List Id) : Channels × Bool :=
  let channels := self.channels.filter fun info => connectedPeers.contains info.channel.peerId
  let peerSendHandlers :=
    self.peerSendHandlers.filter fun binding => connectedPeers.contains binding.1
  ({ channels, peerSendHandlers }, channels.length ≠ self.channels.length)

@[simp] theorem prunePeerChannels_nil (self : Channels) :
    (self.prunePeerChannels []).1 = new := by
  simp [prunePeerChannels, new]

end Channels

structure Receiver where
  peerId : Id
  endpoint : Option SocketAddrV4
  expiresAt : Instant
  deriving DecidableEq

/-- The peers that request a channel, by expiry. -/
structure Receivers where
  receivers : List Receiver
  deriving DecidableEq

namespace Receivers

def new : Receivers := ⟨[]⟩

def isEmpty (self : Receivers) : Bool := self.receivers.isEmpty

def receiveChannelRequest (self : Receivers) (request : ChannelRequest) (ttl : UInt8)
    (endpoint : Option SocketAddrV4) (now : Instant) : Receivers :=
  let others := self.receivers.filter fun r => r.peerId ≠ request.peerId
  let receiver : Receiver := { peerId := request.peerId, endpoint, expiresAt := now.after ttl }
  let (sooner, later) := others.span fun r => r.expiresAt ≤ receiver.expiresAt
  ⟨sooner ++ receiver :: later⟩

def receiveChannelStopRequest (self : Receivers) (request : ChannelStopRequest) : Receivers :=
  ⟨self.receivers.filter fun r => r.peerId ≠ request.peerId⟩

def pruneExpired (self : Receivers) (now : Instant) : Receivers :=
  ⟨self.receivers.filter fun r => r.expiresAt + prunePadding > now⟩

def retainPeers (self : Receivers) (peers : List Id) : Receivers :=
  ⟨self.receivers.filter fun r => peers.contains r.peerId⟩

def endpoints (self : Receivers) : List SocketAddrV4 := self.receivers.filterMap Receiver.endpoint

@[simp] theorem retainPeers_nil (self : Receivers) : self.retainPeers [] = new := by
  simp [retainPeers, new]

end Receivers

end AbletonLink.Audio
