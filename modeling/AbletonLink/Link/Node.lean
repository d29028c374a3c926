import AbletonLink.Library.Run
import AbletonLink.Link.CommitLaws
import AbletonLink.Link.SessionsLaws

namespace AbletonLink.Link

open Library Library.Run

def initSessionState (tempo : Tempo) (start : Duration) : SessionState :=
  { timeline := clampTempo { tempo, beatOrigin := default, timeOrigin := Duration.zero }
    startStopState := default
    ghostXForm := initXForm start }

def initClientState (session : SessionState) (sessionId : SessionId) : ClientState :=
  let hostTime := session.ghostXForm.ghostToHostNanos (Duration.microseconds 0)
  { timeline :=
      { tempo := session.timeline.tempo
        beatOrigin := session.timeline.beatOrigin
        timeOrigin := hostTime }
    timelineSessionId := sessionId
    startStopState :=
      { isPlaying := session.startStopState.isPlaying, time := hostTime, timestamp := hostTime } }

def newOnIo (tempo : Tempo) (node : NodeId) (start timestamp : Duration) (supply : Supply) :
    SessionCommit :=
  let sessionId : SessionId := ⟨node⟩
  let session := initSessionState tempo start
  let (init, supply) :=
    Session.new sessionId session.timeline { xForm := session.ghostXForm, timestamp } supply
  { toSessions := Sessions.withDispatchGate init [] supply
    peer :=
      { nodeState :=
          { nodeId := node, sessionId, timeline := session.timeline, startStopState := default }
        measurementEndpoint := none
        audioEndpoint := none }
    session
    client := initClientState session sessionId
    counter := 0
    syncEnabled := false
    responderId := sessionId
    responderForm := session.ghostXForm
    gatewayPeer := none }

def soloNode : SessionCommit :=
  newOnIo ⟨120.0⟩ ⟨#v[65, 65, 65, 65, 65, 65, 65, 65]⟩ .zero .zero
    { incarnations := 0, revisions := 1 }

def soloPeer (node : NodeId) (timeline : Timeline) : ControllerPeer :=
  { peerState :=
      { nodeState :=
          { nodeId := node, sessionId := ⟨node⟩, timeline, startStopState := default }
        measurementEndpoint := none
        audioEndpoint := none } }

/-- Operations that neither feed nor drain a queue of the node.  `elsewhere` is another controller
of the process drawing from the shared counters. -/
inductive Quiet
  | clientEdit (incoming : IncomingClientState) (clock : Clock)
      (origin : Option SessionEditOrigin)
  | receivedStartStop (source : SessionId) (advertised : Timeline) (incoming : StartStopState)
      (clock : Clock)
  | reset (clock : Clock) (fresh : NodeId) (expected : Option SessionId)
  | decideMeasurement (key : SessionKey) (xForm : GhostXForm) (timestamp now : Duration)
  | failedMeasurement (key : SessionKey)
  | admitOwnedRequest (key : SessionKey) (after : Option NodeId)
  | observePeers (peers : List ControllerPeer)
  | refreshPeerCount
  | setStartStopSync (enabled : Bool)
  | elsewhere
  deriving DecidableEq

inductive Op
  | join (queued : Session) (clock : Clock) (fresh : NodeId)
  | refreshTiming (clock : Clock)
  | sighting (sessionId : SessionId) (timeline : Timeline) (slot : Bool)
  | commitMeasurement (decision : Decision) (now : Duration)
  | quiet (op : Quiet)
  deriving DecidableEq

namespace SessionCommit

def quietStep (s : SessionCommit) : Quiet → SessionCommit
  | .clientEdit incoming clock origin => (s.clientEditFromOrigin incoming clock origin).2
  | .receivedStartStop source advertised incoming clock =>
    (s.receivedStartStop source advertised incoming clock).2
  | .reset clock fresh expected => (s.resetIfPeerless clock fresh expected).2
  | .decideMeasurement key xForm timestamp now =>
    { s with toSessions := (s.toSessions.decideMeasurement key xForm timestamp now).2 }
  | .failedMeasurement key =>
    { s with toSessions := (s.toSessions.handleFailedMeasurement key).2 }
  | .admitOwnedRequest key after =>
    { s with toSessions := (s.toSessions.admitOwnedRequest key after).2.2 }
  | .observePeers peers => { s with toSessions := s.toSessions.observePeers peers }
  | .refreshPeerCount =>
    { s with counter := countSessionPeers s.peer.sessionId s.peers s.peer.ident }
  | .setStartStopSync enabled => { s with syncEnabled := enabled }
  | .elsewhere => { s with supply := (Session.new default default default s.supply).2 }

def step (s : SessionCommit) : Op → SessionCommit
  | .join queued clock fresh => (s.join queued clock fresh).2
  | .refreshTiming clock => (s.refreshTiming clock).2
  | .sighting sessionId timeline slot =>
    { s with toSessions := (s.toSessions.trySighting sessionId timeline slot).2.2 }
  | .commitMeasurement decision now =>
    { s with toSessions := (s.toSessions.commitMeasurement decision now).2 }
  | .quiet op => s.quietStep op

end SessionCommit

structure Node where
  commit : SessionCommit
  joins : List Session
  refreshes : Nat
  deriving DecidableEq

inductive Event
  | join (clock : Clock) (fresh : NodeId)
  | refresh (clock : Clock)
  | announce (sessionId : SessionId) (timeline : Timeline) (slot : Bool)
  | measured (decision : Decision) (now : Duration)
  | quiet (op : Quiet)
  deriving DecidableEq

namespace Node

def step (n : Node) : Event → Node
  | .join clock fresh =>
    match n.joins with
    | [] => n
    | queued :: joins => { n with commit := n.commit.step (.join queued clock fresh), joins }
  | .refresh clock =>
    match n.refreshes with
    | 0 => n
    | refreshes + 1 => { n with commit := n.commit.step (.refreshTiming clock), refreshes }
  | .announce sessionId timeline slot =>
    { n with
      commit := n.commit.step (.sighting sessionId timeline slot)
      refreshes :=
        match (n.commit.toSessions.trySighting sessionId timeline slot).1 with
        | .needsCapacity => n.refreshes
        | .complete _ => n.refreshes + 1 }
  | .measured decision now =>
    { n with
      commit := n.commit.step (.commitMeasurement decision now)
      joins := n.joins ++ (n.commit.toSessions.commitMeasurement decision now).1.toList }
  | .quiet op => { n with commit := n.commit.step (.quiet op) }

end Node

end AbletonLink.Link
