import AbletonLink.Link.Sessions

namespace AbletonLink.Link

open Library Library.MachineInt

/-- The clock readings one operation takes: the one a new clock map starts from, the one a timing
update runs at, and the one a received start/stop state is stamped with. -/
structure Clock where
  start : Duration
  now : Duration
  observation : Duration
  deriving DecidableEq

inductive ClientCommit
  | waitingForPublication
  | complete (changed : Option Tempo)
  | rejected (error : CommitError)
  deriving DecidableEq

abbrev TimingResult := Except CommitError (Option Tempo)

def initXForm (start : Duration) : GhostXForm := { slope := 1.0, intercept := start.neg }

structure SessionCommit extends Sessions where
  peer : PeerState
  session : SessionState
  client : ClientState
  counter : Nat
  syncEnabled : Bool
  responderId : SessionId
  responderForm : GhostXForm
  gatewayPeer : Option PeerState
  deriving DecidableEq

namespace SessionCommit

def publishDiscovery (self : SessionCommit) : SessionCommit :=
  let nodeState := { self.peer.nodeState with
    timeline := self.session.timeline
    startStopState := self.session.startStopState }
  { self with
    published := self.current
    peer := { self.peer with nodeState }
    responderId := nodeState.sessionId
    responderForm := self.session.ghostXForm
    gatewayPeer := self.gatewayPeer.map fun peer => { peer with nodeState } }

def rejectPendingTiming (self : SessionCommit) : SessionCommit :=
  let rejected := self.current
  let others :=
    if !self.published.matches rejected then
      self.others.filter fun other => !self.published.matches other && !rejected.matches other
    else
      self.others.map fun other => if self.published.matches other then self.published else other
  { self with current := self.published, others }

def invalidateCurrent (self : SessionCommit) : SessionCommit :=
  let (current, supply) := self.current.invalidateEditOrigin self.supply
  { self with current, supply }

def invalidateClientCaptures (self : SessionCommit) : SessionCommit :=
  let self := self.invalidateCurrent
  let key := self.current.key
  { self with
    others := self.others.map fun other =>
      if key.matches other then { other with editRevision := self.current.editRevision }
      else other }

def installReset (self : SessionCommit) (node : NodeId) (timeline : Timeline) (xForm : GhostXForm)
    (hostTime : Duration) (session : SessionState) (client : ClientState) : SessionCommit :=
  let id : SessionId := ⟨node⟩
  let (current, supply) := Session.new id timeline { xForm, timestamp := hostTime } self.supply
  publishDiscovery
    { self with
      peer := { self.peer with
        nodeState := { self.peer.nodeState with nodeId := node, sessionId := id } }
      session, client, current, supply, others := [], peers := [], counter := 0 }

def reset (self : SessionCommit) (clock : Clock) (fresh : NodeId) : TimingResult × SessionCommit :=
  let node := if self.peer.ident = default then fresh else self.peer.ident
  let id : SessionId := ⟨node⟩
  let xForm := initXForm clock.start
  let hostTime := xForm.intercept.neg
  let timeline : Timeline :=
    { tempo := self.session.timeline.tempo
      beatOrigin :=
        self.session.timeline.toBeats (self.session.ghostXForm.hostToGhostNanos hostTime)
      timeOrigin := xForm.hostToGhostNanos hostTime }
  match updateTimingGuarded { self.session with startStopState := default } self.client timeline
      xForm clock.now self.syncEnabled id with
  | (.error error, _, _) => (.error error, self.rejectPendingTiming)
  | (.ok changed, session, client) =>
    (.ok changed, self.installReset node timeline xForm hostTime session client)

def resetIfPeerless (self : SessionCommit) (clock : Clock) (fresh : NodeId)
    (expected : Option SessionId) : TimingResult × SessionCommit :=
  match expected with
  | some expected =>
    if self.current.sessionId ≠ expected ∨ self.peer.sessionId ≠ expected ∨
        countSessionPeers expected self.peers self.peer.ident ≠ 0 then (.ok none, self)
    else self.reset clock fresh
  | none => self.reset clock fresh

def installTiming (self : SessionCommit) (session : SessionState) (client : ClientState) :
    SessionCommit :=
  let installed := { self with session, client }
  publishDiscovery
    (if client != self.client then installed.invalidateClientCaptures else installed)

def refreshTiming (self : SessionCommit) (clock : Clock) : TimingResult × SessionCommit :=
  if !self.published.matches self.current || self.current.sessionId ≠ self.peer.sessionId then
    (.ok none, self)
  else
    match updateTimingGuarded self.session self.client self.current.timeline
        self.current.measurement.xForm clock.now self.syncEnabled self.current.sessionId with
    | (.error error, session, client) =>
      (.error error, { self with session, client }.rejectPendingTiming)
    | (.ok changed, session, client) => (.ok changed, self.installTiming session client)

def join (self : SessionCommit) (queued : Session) (clock : Clock) (fresh : NodeId) :
    TimingResult × SessionCommit :=
  if !queued.key.matches self.current then (.ok none, self)
  else
    let id := self.current.sessionId
    let count := countSessionPeers id self.peers self.peer.ident
    if id.node ≠ self.peer.ident ∧ count = 0 then self.reset clock fresh
    else
      let sessionState :=
        if self.peer.sessionId ≠ id then { self.session with startStopState := default }
        else self.session
      match updateTimingGuarded sessionState self.client self.current.timeline
          self.current.measurement.xForm clock.now self.syncEnabled id with
      | (.error error, _, _) => (.error error, self.rejectPendingTiming)
      | (.ok changed, session, client) =>
        let self := { self with
          peer := { self.peer with nodeState := { self.peer.nodeState with sessionId := id } } }
        (.ok changed, { self.installTiming session client with counter := count })

def pending (self : SessionCommit) : Bool :=
  !self.published.matches self.current || self.current.sessionId ≠ self.peer.sessionId ||
    self.current.measurement.xForm != self.session.ghostXForm

def proposeStartStop (self : SessionCommit) (incoming : Option ClientStartStopState)
    (timeline : Timeline) : Except CommitError (Option StartStopState) :=
  match incoming with
  | none => .ok none
  | some state =>
    if state.timestamp ≤ self.client.startStopState.timestamp then .error .staleClientState
    else if self.syncEnabled then
      match checkedAddI64 self.session.startStopState.timestamp.micros 1 with
      | none => .error .startStopTimestampExhausted
      | some successor =>
        let mapped := mapStartStopStateFromClientToSession state timeline self.session.ghostXForm
        .ok (some { mapped with
          timestamp := Duration.microseconds (max mapped.timestamp.micros successor) })
    else .ok none

def editTimeline (self : SessionCommit) (key : SessionKey) (target : Timeline)
    (session : SessionState) (client : ClientState) : SessionCommit :=
  let (current, supply) := self.current.setTimeline target self.supply
  { self with
    current, supply, session, client
    others := self.others.map fun other =>
      if key.matches other then
        { other with timeline := target, editRevision := current.editRevision }
      else other
    peers := self.peers.map fun peer =>
      if peer.peerState.sessionId = key.sessionId then peer.withTimeline target else peer }

def editStartStop (self : SessionCommit) (key : SessionKey) (state : ClientStartStopState)
    (proposed : Option StartStopState) : SessionCommit :=
  { self with
    client := { self.client with startStopState := state }
    others := self.others.map fun other =>
      if key.matches other then { other with editRevision := self.current.editRevision }
      else other
    session :=
      match proposed with
      | some mapped => { self.session with startStopState := mapped }
      | none => self.session }

/-- The write half of a client edit.  `edit` is the accepted timeline with the prepared states. -/
def installEdit (self : SessionCommit) (edit : Option (Timeline × SessionState × ClientState))
    (startStop : Option ClientStartStopState) (proposed : Option StartStopState) :
    SessionCommit :=
  let key := self.current.key
  let self := if edit.isSome || startStop.isSome then self.invalidateCurrent else self
  let self :=
    match edit with
    | none => self
    | some (target, session, client) => self.editTimeline key target session client
  let self :=
    match startStop with
    | none => self
    | some state => self.editStartStop key state proposed
  self.publishDiscovery

def clientEditFromOrigin (self : SessionCommit) (incoming : IncomingClientState) (clock : Clock)
    (origin : Option SessionEditOrigin) : ClientCommit × SessionCommit :=
  if origin.any fun origin => !origin.matches self.current then
    (.rejected .staleClientState, self)
  else if self.pending ||
      (incoming.timeline.isNone && self.current.timeline != self.session.timeline) then
    (.waitingForPublication, self)
  else
    match incoming.timeline with
    | some timeline =>
      match updateSessionTimelineFromClient self.current.timeline (clampTempo timeline)
          incoming.timelineTimestamp self.session.ghostXForm with
      | .error error => (.rejected error, self)
      | .ok target =>
        match self.proposeStartStop incoming.startStopState target with
        | .error error => (.rejected error, self)
        | .ok proposed =>
          match updateTimingGuarded self.session
              { self.client with timeline := clampTempo timeline } target self.session.ghostXForm
              clock.now self.syncEnabled self.current.sessionId with
          | (.error error, _, _) => (.rejected error, self)
          | (.ok changed, session, client) =>
            (.complete changed,
              self.installEdit (some (target, session, client)) incoming.startStopState proposed)
    | none =>
      match self.proposeStartStop incoming.startStopState self.session.timeline with
      | .error error => (.rejected error, self)
      | .ok proposed => (.complete none, self.installEdit none incoming.startStopState proposed)

def advertises (self : SessionCommit) (advertised : Timeline) : Bool :=
  let advertised := clampTempo advertised
  advertised.beatOrigin = self.session.timeline.beatOrigin &&
    advertised.tempo.periodMicros = self.session.timeline.tempo.periodMicros &&
    advertised.timeOrigin.micros = self.session.timeline.timeOrigin.micros

def installStartStop (self : SessionCommit) (session : SessionState) (client : ClientState) :
    SessionCommit :=
  publishDiscovery { self.invalidateClientCaptures with session, client }

def receivedStartStop (self : SessionCommit) (source : SessionId) (advertised : Timeline)
    (incoming : StartStopState) (clock : Clock) : ClientCommit × SessionCommit :=
  if source ≠ self.current.sessionId then (.complete none, self)
  else if !self.published.matches self.current || self.peer.sessionId ≠ source ||
      self.current.measurement.xForm != self.session.ghostXForm ||
      self.current.timeline != self.session.timeline then (.waitingForPublication, self)
  else if !self.advertises advertised then (.complete none, self)
  else if incoming.timestamp ≤ self.session.startStopState.timestamp then (.complete none, self)
  else
    match updateTimingGuarded { self.session with startStopState := incoming } self.client
        self.current.timeline self.current.measurement.xForm clock.now self.syncEnabled source with
    | (.error error, _, _) => (.rejected error, self)
    | (.ok changed, session, client) =>
      let client :=
        if self.syncEnabled then
          let observation := clock.observation.max client.startStopState.timestamp
          { client with
            startStopState :=
              { mapStartStopStateFromSessionToClient incoming session.timeline
                  session.ghostXForm with
                timestamp := observation } }
        else client
      (.complete changed, self.installStartStop session client)

def captureClientState (self : SessionCommit) : Option (ClientState × SessionEditOrigin) :=
  if self.published.matches self.current &&
      self.current.sessionId = self.client.timelineSessionId &&
      self.current.timeline == self.session.timeline &&
      self.current.measurement.xForm == self.session.ghostXForm then
    self.current.editOrigin.map fun origin => (self.client, origin)
  else none

end SessionCommit

end AbletonLink.Link
