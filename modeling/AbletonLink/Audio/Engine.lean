import AbletonLink.Audio.Channels
import AbletonLink.Audio.Codec
import AbletonLink.Library.Run

/-! The audio engine's state and what its critical sections do to it. -/

namespace AbletonLink.Audio

open Library Library.Bytes Library.Run Link

structure PeerReceiver where
  peerId : NodeId
  endpoint : SocketAddrV4
  metrics : NetworkMetricsFilter

structure Sink where
  id : Id
  name : String
  isConnected : Bool

/-- `pending` are the buffers the sink's writer released and its reader has not read; the outbox is
the sender of the encoder. -/
structure SinkEntry where
  sink : Sink
  pending : List Buffer
  receivers : Receivers
  encoder : Encoder (List AudioBuffer)

structure SourceEntry where
  id : Id
  decoder : PcmDecoder

structure EngineState where
  nodeId : NodeId
  sessionId : SessionId
  gatewayAddr : UInt32
  peers : List PeerReceiver
  channels : Channels
  sinks : List SinkEntry
  sources : List SourceEntry

inductive EngineOutput
  | pong (sender : NodeId) (hostTime : HostTime) (receiver : SocketAddrV4)
  | played (source : Id) (handle : BufferCallbackHandle)

namespace SinkEntry

/-- `set_is_connected(!receivers.is_empty())`, which follows every change of the receivers. -/
def setReceivers (entry : SinkEntry) (receivers : Receivers) : SinkEntry :=
  { entry with receivers, sink := { entry.sink with isConnected := !receivers.isEmpty } }

def discardBuffers (entry : SinkEntry) : SinkEntry :=
  { entry with pending := [], encoder := Encoder.new [] entry.sink.id }

def drain (encoder : Encoder (List AudioBuffer)) : Encoder (List AudioBuffer) × List AudioBuffer :=
  let pcm := encoder.resizer.successor
  (⟨{ encoder.resizer with successor := { pcm with sender := [] } }⟩, pcm.sender)

def process (entry : SinkEntry) (now : Instant) :
    SinkEntry × List (AudioBuffer × SocketAddrV4) :=
  let entry := entry.setReceivers (entry.receivers.pruneExpired now)
  -- A buffer whose timing was cleared is skipped.
  let audible := entry.pending.filter fun buffer => buffer.tempo.bpm > 0.0
  let (encoder, encoded) := drain (audible.foldl Encoder.encode entry.encoder)
  ({ entry with pending := [], encoder },
    encoded.flatMap fun buffer => entry.receivers.endpoints.map fun endpoint => (buffer, endpoint))

end SinkEntry

namespace EngineState

def prunePeers (state : EngineState) (peers : List NodeId) : EngineState × Bool :=
  let (channels, changed) := state.channels.prunePeerChannels peers
  ({ state with
      peers := state.peers.filter fun p => peers.contains p.peerId
      sinks := state.sinks.map fun entry => entry.setReceivers (entry.receivers.retainPeers peers)
      channels }, changed)

def discardSinkBuffers (state : EngineState) : EngineState :=
  { state with sinks := state.sinks.map SinkEntry.discardBuffers }

def receiveAnnouncement (state : EngineState) (peerId : NodeId) (payload : Bytes)
    (source : SocketAddrV4) (ttl : UInt8) (now : Instant) : EngineState × Bool :=
  match state.peers.find? fun p => p.endpoint = source with
  | none => (state, false)
  | some peer =>
    match PeerAnnouncement.fromPayload peerId payload with
    | .error _ => (state, false)
    | .ok announcement =>
      let (channels, changed) :=
        state.channels.sawAnnouncement peerId announcement.peerInfo.name announcement.sessionId
          announcement.channels state.gatewayAddr source peer.metrics.metrics.quality ttl now
      ({ state with channels }, changed)

def receivePing (state : EngineState) (payload : Bytes) (source : SocketAddrV4) :
    List EngineOutput :=
  match hostTimeOf payload with
  | some hostTime => [.pong state.nodeId hostTime source]
  | none => []

def receivePong (state : EngineState) (payload : Bytes) (source : SocketAddrV4)
    (nowMicros : Int64) : EngineState :=
  match hostTimeOf payload with
  | none => state
  | some sendTime =>
    let receiveTime := Duration.microseconds nowMicros
    let fromHere := fun p : PeerReceiver => decide (p.endpoint = source)
    match state.peers.find? fromHere with
    | none => state
    | some peer =>
      let elapsed := durationFromNanos (receiveTime.nanos - sendTime.time.nanos)
      let peer := { peer with metrics := peer.metrics.push elapsed }
      { state with peers := replaceFirst fromHere peer state.peers }

def receiveChannelByes (state : EngineState) (payload : Bytes) : EngineState × Bool :=
  let byes := byesOf payload
  if byes.isEmpty then (state, false)
  else
    let (channels, changed) := state.channels.channelsLeft state.gatewayAddr byes
    ({ state with channels }, changed)

def updateSink (state : EngineState) (id : Id) (f : Receivers → Receivers) : EngineState :=
  let isSink := fun entry : SinkEntry => decide (entry.sink.id = id)
  match state.sinks.find? isSink with
  | none => state
  | some entry =>
    { state with
      sinks := replaceFirst isSink (entry.setReceivers (f entry.receivers)) state.sinks }

def receiveChannelRequest (state : EngineState) (peerId : NodeId) (payload : Bytes) (ttl : UInt8)
    (source : SocketAddrV4) (now : Instant) : EngineState :=
  match ChannelRequest.fromPayload peerId payload with
  | .error _ => state
  | .ok request =>
    state.updateSink request.channelId fun receivers =>
      receivers.receiveChannelRequest request ttl (some source) now

def receiveChannelStopRequest (state : EngineState) (peerId : NodeId) (payload : Bytes) :
    EngineState :=
  match ChannelStopRequest.fromPayload peerId payload with
  | .error _ => state
  | .ok request =>
    state.updateSink request.channelId fun receivers => receivers.receiveChannelStopRequest request

def receiveAudioBuffer (state : EngineState) (payload : Bytes) :
    EngineState × List EngineOutput :=
  match AudioBuffer.decodeRaw payload with
  | .error _ => (state, [])
  | .ok audioBuffer =>
    let isSource := fun entry : SourceEntry => decide (entry.id = audioBuffer.channelId)
    match state.sources.find? isSource with
    | none => (state, [])
    | some entry =>
      let (decoder, handles) := entry.decoder.decode audioBuffer
      ({ state with sources := replaceFirst isSource { entry with decoder } state.sources },
        handles.map (.played entry.id))

def process (state : EngineState) (now : Instant) :
    EngineState × List (AudioBuffer × SocketAddrV4) × Bool :=
  let processed := state.sinks.map fun entry => entry.process now
  let (channels, expired) := state.channels.pruneExpired now
  ({ state with sinks := processed.map Prod.fst, channels }, processed.flatMap Prod.snd, expired)

/-- The body of `handle_message` behind its guards: the state, whether the visible channels
changed, and what leaves the engine. -/
def dispatch (state : EngineState) (header : MessageHeader) (payload : Bytes)
    (source : SocketAddrV4) (now : Instant) (nowMicros : Int64) :
    EngineState × Bool × List EngineOutput :=
  if header.messageType = typePeerAnnouncement then
    let (state, changed) := state.receiveAnnouncement header.ident payload source header.ttl now
    (state, changed, state.receivePing payload source)
  else if header.messageType = typeChannelByes then
    let (state, changed) := state.receiveChannelByes payload
    (state, changed, [])
  else if header.messageType = typePong then
    (state.receivePong payload source nowMicros, false, [])
  else if header.messageType = typeChannelRequest then
    (state.receiveChannelRequest header.ident payload header.ttl source now, false, [])
  else if header.messageType = typeStopChannelRequest then
    (state.receiveChannelStopRequest header.ident payload, false, [])
  else if header.messageType = typeAudioBuffer then
    let (state, outputs) := state.receiveAudioBuffer payload
    (state, false, outputs)
  else (state, false, [])

section Frames

variable (state : EngineState)

theorem peers_receiveAnnouncement (peerId : NodeId) (payload : Bytes) (source : SocketAddrV4)
    (ttl : UInt8) (now : Instant) :
    (state.receiveAnnouncement peerId payload source ttl now).1.peers = state.peers := by
  unfold receiveAnnouncement
  split
  · rfl
  · split <;> rfl

theorem peers_receiveChannelByes (payload : Bytes) :
    (state.receiveChannelByes payload).1.peers = state.peers := by
  unfold receiveChannelByes
  dsimp only
  split <;> rfl

theorem channels_receivePong (payload : Bytes) (source : SocketAddrV4) (nowMicros : Int64) :
    (state.receivePong payload source nowMicros).channels = state.channels := by
  unfold receivePong
  split
  · rfl
  · dsimp only
    split <;> rfl

theorem updateSink_frame (id : Id) (f : Receivers → Receivers) :
    (state.updateSink id f).peers = state.peers ∧
      (state.updateSink id f).channels = state.channels := by
  unfold updateSink
  dsimp only
  split <;> exact ⟨rfl, rfl⟩

theorem receiveAudioBuffer_frame (payload : Bytes) :
    (state.receiveAudioBuffer payload).1.peers = state.peers ∧
      (state.receiveAudioBuffer payload).1.channels = state.channels := by
  unfold receiveAudioBuffer
  split
  · exact ⟨rfl, rfl⟩
  · dsimp only
    split <;> exact ⟨rfl, rfl⟩

theorem dispatch_cases {P : EngineState → Bool → Prop} (same : P state false)
    (announcement : ∀ peerId payload source ttl now,
      P (state.receiveAnnouncement peerId payload source ttl now).1
        (state.receiveAnnouncement peerId payload source ttl now).2)
    (byes : ∀ payload, P (state.receiveChannelByes payload).1 (state.receiveChannelByes payload).2)
    (pong : ∀ payload source nowMicros, P (state.receivePong payload source nowMicros) false)
    (sink : ∀ id f, P (state.updateSink id f) false)
    (audio : ∀ payload, P (state.receiveAudioBuffer payload).1 false) (header : MessageHeader)
    (payload : Bytes) (source : SocketAddrV4) (now : Instant) (nowMicros : Int64) :
    P (state.dispatch header payload source now nowMicros).1
      (state.dispatch header payload source now nowMicros).2.1 := by
  unfold dispatch
  split
  · exact announcement ..
  · split
    · exact byes payload
    · split
      · exact pong payload source nowMicros
      · split
        · unfold receiveChannelRequest
          split
          · exact same
          next request _ =>
            exact sink request.channelId fun receivers =>
              receivers.receiveChannelRequest request header.ttl (some source) now
        · split
          · unfold receiveChannelStopRequest
            split
            · exact same
            next request _ =>
              exact sink request.channelId fun receivers =>
                receivers.receiveChannelStopRequest request
          · split
            · exact audio payload
            · exact same

end Frames

end EngineState

/-- The engine between two steps; `outputs` is everything that has left it. -/
structure AudioEngine where
  state : EngineState
  sendEpoch : Option UInt64
  syncEpoch : UInt64
  sharingActive : Bool
  shutdown : Bool
  outputs : List EngineOutput

namespace AudioEngine

def new (addr : UInt32) (nodeId : NodeId) (sessionId : SessionId) : AudioEngine where
  state :=
    { nodeId, sessionId, gatewayAddr := addr, peers := [], channels := .new, sinks := []
      sources := [] }
  sendEpoch := some 1
  syncEpoch := 1
  sharingActive := true
  shutdown := false
  outputs := []

def epochIsCurrent (engine : AudioEngine) (epoch : UInt64) : Bool :=
  engine.sharingActive && !engine.shutdown && engine.syncEpoch = epoch

def liveEpoch (engine : AudioEngine) : UInt64 :=
  if engine.shutdown || !engine.sharingActive then 0 else engine.syncEpoch

def setIdentityAt (engine : AudioEngine) (epoch : UInt64) (nodeId : NodeId)
    (sessionId : SessionId) : AudioEngine :=
  if engine.epochIsCurrent epoch then
    { engine with state := { engine.state with nodeId, sessionId } }
  else engine

def sawLinkAudioEndpointAt (engine : AudioEngine) (epoch : UInt64) (peerId : NodeId)
    (endpoint : Option SocketAddrV4) : AudioEngine :=
  if engine.epochIsCurrent epoch then
    match endpoint with
    | some endpoint =>
      if engine.state.peers.any fun p => p.endpoint = endpoint then engine
      else
        { engine with
          state :=
            { engine.state with
              peers := engine.state.peers ++ [{ peerId, endpoint, metrics := .new }] } }
    | none =>
      { engine with
        state :=
          { engine.state with
            peers := engine.state.peers.filter fun p => p.peerId ≠ peerId } }
  else engine

def updateSessionPeersAt (engine : AudioEngine) (epoch : UInt64) (peers : List NodeId) :
    AudioEngine × Bool :=
  if engine.epochIsCurrent epoch then
    let (state, changed) := engine.state.prunePeers peers
    ({ engine with state }, changed)
  else (engine, false)

def beginPeerSync (engine : AudioEngine) : AudioEngine × UInt64 :=
  if engine.shutdown then (engine, 0)
  else
    let epoch := engine.syncEpoch + 1
    ({ engine with
        state := engine.state.discardSinkBuffers
        sendEpoch := some epoch
        syncEpoch := epoch
        sharingActive := true }, epoch)

def endPeerSync (engine : AudioEngine) : AudioEngine × Bool :=
  let (state, changed) := engine.state.discardSinkBuffers.prunePeers []
  ({ engine with
      state
      sendEpoch := none
      syncEpoch := engine.syncEpoch + 1
      sharingActive := false }, changed)

def handleMessage (engine : AudioEngine) (epoch : UInt64) (data : Bytes) (source : SocketAddrV4)
    (now : Instant) (nowMicros : Int64) : AudioEngine × Bool :=
  match parseMessageHeader data with
  | .error _ => (engine, false)
  | .ok (header, payloadOffset) =>
    if engine.sendEpoch ≠ some epoch then (engine, false)
    else if header.ident = engine.state.nodeId then (engine, false)
    else
      let (state, changed, outputs) :=
        engine.state.dispatch header (data.drop payloadOffset) source now nowMicros
      ({ engine with state, outputs := engine.outputs ++ outputs }, changed)

theorem handleMessage_cases (engine : AudioEngine) {P : EngineState → Bool → Prop}
    {source : SocketAddrV4} {now : Instant} {nowMicros : Int64} (ignored : P engine.state false)
    (dispatched : ∀ header payload,
      P (engine.state.dispatch header payload source now nowMicros).1
        (engine.state.dispatch header payload source now nowMicros).2.1)
    (epoch : UInt64) (data : Bytes) :
    P (engine.handleMessage epoch data source now nowMicros).1.state
      (engine.handleMessage epoch data source now nowMicros).2 := by
  unfold handleMessage
  split
  · exact ignored
  · split
    · exact ignored
    · split
      · exact ignored
      · exact dispatched ..

def addSink (engine : AudioEngine) (id : Id) (name : String) : AudioEngine :=
  let entry : SinkEntry :=
    { sink := { id, name, isConnected := false }, pending := [], receivers := .new
      encoder := Encoder.new [] id }
  { engine with state := { engine.state with sinks := engine.state.sinks ++ [entry] } }

def removeSink (engine : AudioEngine) (id : Id) : AudioEngine :=
  let sinks := engine.state.sinks.filter fun entry => entry.sink.id ≠ id
  { engine with state := { engine.state with sinks } }

def addSource (engine : AudioEngine) (channelId : Id) : AudioEngine :=
  let entry : SourceEntry := { id := channelId, decoder := .new 4096 }
  { engine with state := { engine.state with sources := engine.state.sources ++ [entry] } }

def removeSource (engine : AudioEngine) (channelId : Id) : AudioEngine :=
  let sources := engine.state.sources.filter fun entry => entry.id ≠ channelId
  { engine with state := { engine.state with sources } }

def releaseBuffer (engine : AudioEngine) (id : Id) (buffer : Buffer) : AudioEngine :=
  let release := fun entry : SinkEntry =>
    if entry.sink.id = id then { entry with pending := entry.pending ++ [buffer] } else entry
  { engine with state := { engine.state with sinks := engine.state.sinks.map release } }

def process (engine : AudioEngine) (epoch : UInt64) (now : Instant) :
    AudioEngine × List (AudioBuffer × SocketAddrV4) × Bool :=
  if engine.sendEpoch ≠ some epoch then (engine, [], false)
  else
    let (state, messages, expired) := engine.state.process now
    ({ engine with state }, messages, expired)

end AudioEngine

/-- The critical sections and the writes outside them.  An `end_peer_sync` closes sharing and
sending before it takes the lock; the epoch a call quotes may be of any age. -/
inductive EngineOp
  | addSink (id : Id) (name : String)
  | removeSink (id : Id)
  | addSource (channelId : Id)
  | removeSource (channelId : Id)
  | releaseBuffer (id : Id) (buffer : Buffer)
  | beginPeerSync
  | stopSharing
  | stopSending
  | endPeerSync
  | setIdentityAt (epoch : UInt64) (nodeId : NodeId) (sessionId : SessionId)
  | sawLinkAudioEndpointAt (epoch : UInt64) (peerId : NodeId) (endpoint : Option SocketAddrV4)
  | updateSessionPeersAt (epoch : UInt64) (peers : List NodeId)
  | handleMessage (epoch : UInt64) (data : Bytes) (source : SocketAddrV4) (now : Instant)
      (nowMicros : Int64)
  | process (epoch : UInt64) (now : Instant)

def EngineOp.step (engine : AudioEngine) : EngineOp → AudioEngine
  | .addSink id name => engine.addSink id name
  | .removeSink id => engine.removeSink id
  | .addSource channelId => engine.addSource channelId
  | .removeSource channelId => engine.removeSource channelId
  | .releaseBuffer id buffer => engine.releaseBuffer id buffer
  | .beginPeerSync => engine.beginPeerSync.1
  | .stopSharing => { engine with sharingActive := false }
  | .stopSending => { engine with sendEpoch := none }
  | .endPeerSync => engine.endPeerSync.1
  | .setIdentityAt epoch nodeId sessionId => engine.setIdentityAt epoch nodeId sessionId
  | .sawLinkAudioEndpointAt epoch peerId endpoint =>
    engine.sawLinkAudioEndpointAt epoch peerId endpoint
  | .updateSessionPeersAt epoch peers => (engine.updateSessionPeersAt epoch peers).1
  | .handleMessage epoch data source now nowMicros =>
    (engine.handleMessage epoch data source now nowMicros).1
  | .process epoch now => (engine.process epoch now).1

end AbletonLink.Audio
