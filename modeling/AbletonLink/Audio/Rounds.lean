import AbletonLink.Audio.ChannelList
import AbletonLink.Audio.Directory
import AbletonLink.Audio.PeerSync

/-! What the tasks of an engine do under the lock of its state, and what they send afterwards. -/

namespace AbletonLink.Audio

open Library Library.Bytes Library.Run Link Wire

abbrev Datagram := Bytes × SocketAddrV4

structure ChannelId where
  id : Id

instance : Entry ChannelId where
  KEY := channelIdKey
  bodySize _ := 8
  encodeBody channel := NodeId.encodeTo channel.id

def ChannelRequest.toPayload (request : ChannelRequest) : Bytes :=
  Entry.encode (ChannelId.mk request.channelId)

def ChannelStopRequest.toPayload (request : ChannelStopRequest) : Bytes :=
  Entry.encode (ChannelId.mk request.channelId)

def EngineOutput.pongMessage : EngineOutput → Option Datagram
  | .pong sender hostTime receiver =>
    (messageTo sender typePong (Entry.encode hostTime)).map fun message => (message, receiver)
  | .played _ _ => none

namespace EngineState

variable (state : EngineState)

def channelByes (ids : List Id) : List Datagram :=
  (splitByes ids).flatMap fun byes =>
    state.peers.filterMap fun p =>
      (messageTo state.nodeId typeChannelByes (Entry.encode byes)).map fun message =>
        (message, p.endpoint)

def farewells : List Datagram := state.channelByes (state.sinks.map fun entry => entry.sink.id)

def channelRequests : List Datagram :=
  state.sources.filterMap fun entry => do
    let endpoint ← state.channels.channelEndpoint entry.id
    let request : ChannelRequest := { peerId := state.nodeId, channelId := entry.id }
    let message ← messageTo state.nodeId typeChannelRequest request.toPayload
    return (message, endpoint)

end EngineState

def Announcer.roundMessages (announcer : Announcer) (ping : HostTime) : List Datagram :=
  let endpoints := announcer.engine.state.peers.map PeerReceiver.endpoint
  let farewells := (announcer.byes announcer.departed).flatMap fun message =>
    endpoints.map fun endpoint => (message, endpoint)
  farewells ++ endpoints.flatMap fun endpoint =>
    (announcer.greetings ping).map fun message => (message, endpoint)

/-- What a task does while it has the lock of the state.  `subscribe` is a round of requests that
`add_source` asks for. -/
inductive Work
  | receive (data : Bytes) (source : SocketAddrV4) (now : Instant) (nowMicros : Int64)
  | announce (peerName : String) (ping : HostTime)
  | process (now : Instant)
  | request
  | subscribe

namespace Work

def answers : Work → Bool
  | .receive .. => true
  | _ => false

def perform (engine : AudioEngine) (announced : List ChannelAnnouncement) (epoch : UInt64) :
    Work → AudioEngine × List ChannelAnnouncement × List Datagram
  | .receive data source now nowMicros =>
    let after := (engine.handleMessage epoch data source now nowMicros).1
    (after, announced,
      (after.outputs.drop engine.outputs.length).filterMap EngineOutput.pongMessage)
  | .announce peerName ping =>
    if engine.sendEpoch ≠ some epoch then (engine, announced, [])
    else
      let announcer : Announcer :=
        { engine, peerName, announcedChannels := announced, epoch, unsent := [] }
      (engine, announcer.current, announcer.roundMessages ping)
  | .process now =>
    let (after, messages, _) := engine.process epoch now
    (after, announced, messages.filterMap fun message =>
      (audioBufferMessage engine.state.nodeId message.1.encodeRaw).toOption.map fun data =>
        (data, message.2))
  | .request =>
    if engine.sendEpoch ≠ some epoch then (engine, announced, [])
    else (engine, announced, engine.state.channelRequests)
  -- The epoch is not looked at again.
  | .subscribe => (engine, announced, engine.state.channelRequests)

theorem gates_perform (engine : AudioEngine) (announced : List ChannelAnnouncement)
    (epoch : UInt64) (work : Work) :
    (work.perform engine announced epoch).1.gates = engine.gates := by
  cases work with
  | receive data source now nowMicros => exact engine.gates_handleMessage ..
  | announce peerName ping =>
    dsimp only [perform]
    split <;> rfl
  | process now => exact engine.gates_process epoch now
  | request =>
    dsimp only [perform]
    split <;> rfl
  | subscribe => rfl

end Work

end AbletonLink.Audio
