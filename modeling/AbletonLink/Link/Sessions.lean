import AbletonLink.Library.FirstMatch
import AbletonLink.Link.State
import Mathlib.Data.List.Sort

namespace AbletonLink.Link

open Library Library.MachineInt

/-- The two process-wide sources of identity: `Arc` allocations and the revision counter. -/
structure Supply where
  incarnations : Nat
  revisions : Nat
  deriving DecidableEq

def allocateEditRevision (counter : Nat) : Option Nat × Nat :=
  if counter + 1 < 2 ^ 64 then (if counter = 0 then none else some counter, counter + 1)
  else (none, counter)

def Supply.newEditRevision (supply : Supply) : Option Nat × Supply :=
  let (revision, revisions) := allocateEditRevision supply.revisions
  (revision, { supply with revisions := revisions })

structure SessionMeasurement where
  xForm : GhostXForm
  timestamp : Duration
  deriving DecidableEq

instance : Inhabited SessionMeasurement := ⟨⟨default, Duration.zero⟩⟩

structure Session where
  incarnation : Nat
  editRevision : Option Nat
  sessionId : SessionId
  timeline : Timeline
  measurement : SessionMeasurement
  deriving DecidableEq

structure SessionKey where
  sessionId : SessionId
  incarnation : Nat
  deriving DecidableEq

def SessionKey.matches (key : SessionKey) (session : Session) : Bool :=
  key.sessionId = session.sessionId && key.incarnation = session.incarnation

structure SessionEditOrigin where
  sessionId : SessionId
  revision : Nat
  timeline : Timeline
  mapping : GhostXForm
  deriving DecidableEq

def Session.matches (s other : Session) : Bool :=
  s.sessionId = other.sessionId && s.incarnation = other.incarnation

namespace Session

def key (s : Session) : SessionKey := ⟨s.sessionId, s.incarnation⟩

def new (sessionId : SessionId) (timeline : Timeline) (measurement : SessionMeasurement)
    (supply : Supply) : Session × Supply :=
  let (revision, next) := supply.newEditRevision
  ({ incarnation := supply.incarnations, editRevision := revision, sessionId, timeline,
     measurement },
    { next with incarnations := supply.incarnations + 1 })

def invalidateEditOrigin (s : Session) (supply : Supply) : Session × Supply :=
  let (revision, supply) := supply.newEditRevision
  ({ s with editRevision := revision }, supply)

def setTimeline (s : Session) (timeline : Timeline) (supply : Supply) : Session × Supply :=
  if s.timeline != timeline then
    let (s, supply) := s.invalidateEditOrigin supply
    ({ s with timeline := timeline }, supply)
  else (s, supply)

def editOrigin (s : Session) : Option SessionEditOrigin :=
  s.editRevision.map fun revision =>
    { sessionId := s.sessionId, revision, timeline := s.timeline, mapping := s.measurement.xForm }

end Session

def SessionEditOrigin.matches (origin : SessionEditOrigin) (session : Session) : Bool :=
  origin.sessionId = session.sessionId && some origin.revision = session.editRevision &&
    origin.timeline == session.timeline && origin.mapping == session.measurement.xForm

def measurementWins (current : Session) (candidate : SessionId) (measurement : SessionMeasurement)
    (hostTime : Duration) : Bool :=
  let eps : Int := 500000000
  let diff := (measurement.xForm.hostToGhost hostTime).nanos -
    (current.measurement.xForm.hostToGhost hostTime).nanos
  diff > eps || (diff.natAbs < eps.natAbs && candidate.node.lt current.sessionId.node)

def measurementOrder (leader : NodeId) (a b : ControllerPeer) : Bool :=
  let fa := decide (a.peerState.ident ≠ leader)
  let fb := decide (b.peerState.ident ≠ leader)
  if fa = fb then !b.peerState.ident.lt a.peerState.ident else !fa

def measurementPeer (peers : List ControllerPeer) (session : SessionId) (after : Option NodeId) :
    Option ControllerPeer :=
  let eligible := peers.filter fun peer => peer.peerState.sessionId = session
  let eligible :=
    if eligible.any fun peer => peer.peerState.measurementEndpoint.isSome then
      eligible.filter fun peer => peer.peerState.measurementEndpoint.isSome
    else eligible
  let eligible := eligible.insertionSort fun a b => measurementOrder session.node a b = true
  let index :=
    match after.bind fun previous =>
      eligible.findIdx? fun peer => peer.peerState.ident = previous with
    | some index => (index + 1) % eligible.length
    | none => 0
  eligible[index]?

structure MeasureRequest where
  key : SessionKey
  peer : PeerState
  deriving DecidableEq

inductive Sighting
  | needsCapacity
  | complete (timeline : Timeline)
  deriving DecidableEq

inductive Admission
  | sent
  | absent
  | retired
  deriving DecidableEq

structure Decision where
  key : SessionKey
  measurement : SessionMeasurement
  wasCurrent : Bool
  deriving DecidableEq

structure Sessions where
  published : Session
  current : Session
  others : List Session
  peers : List ControllerPeer
  hasJoined : Bool
  supply : Supply
  deriving DecidableEq

def updateTimeline (session : Session) (timeline : Timeline) (supply : Supply) :
    Session × Supply :=
  let timeline := clampTempo timeline
  if timeline.beatOrigin > session.timeline.beatOrigin then session.setTimeline timeline supply
  else (session, supply)

namespace Sessions

def withDispatchGate (init : Session) (peers : List ControllerPeer) (supply : Supply) : Sessions :=
  { published := init, current := init, others := [init], peers, hasJoined := false, supply }

def trySighting (self : Sessions) (sessionId : SessionId) (timeline : Timeline) (slot : Bool) :
    Sighting × Option MeasureRequest × Sessions :=
  let timeline := clampTempo timeline
  if self.current.sessionId = sessionId then
    let (current, supply) := updateTimeline self.current timeline self.supply
    (.complete current.timeline, none, { self with current, supply, hasJoined := true })
  else
    match self.others.find? fun session => session.sessionId = sessionId with
    | some session =>
      let (session, supply) := updateTimeline session timeline self.supply
      let others := replaceFirst (fun s => s.sessionId = sessionId) session self.others
      (.complete self.current.timeline, none, { self with others, supply })
    | none =>
      if !slot then (.needsCapacity, none, self)
      else
        match measurementPeer self.peers sessionId none with
        | some peer =>
          let (session, supply) := Session.new sessionId timeline default self.supply
          (.complete self.current.timeline, some ⟨session.key, peer.peerState⟩,
            { self with others := self.others ++ [session], supply })
        | none => (.complete self.current.timeline, none, self)

/-- First half of `handle_successful_measurement_inner`: `timestamp` and `now` are its clock
readings for the result and for the comparison. -/
def decideMeasurement (self : Sessions) (key : SessionKey) (xForm : GhostXForm)
    (timestamp now : Duration) : Option Decision × Sessions :=
  let measurement : SessionMeasurement := { xForm, timestamp }
  if key.matches self.current then (some ⟨key, measurement, true⟩, self)
  else
    match self.others.find? key.matches with
    | none => (none, self)
    | some candidate =>
      if candidate.measurement.timestamp > measurement.timestamp then (none, self)
      else if !measurementWins self.current key.sessionId measurement now then
        (none, { self with
          others := replaceFirst key.matches { candidate with measurement } self.others })
      else (some ⟨key, measurement, false⟩, self)

def commitMeasurement (self : Sessions) (decision : Decision) (now : Duration) :
    Option Session × Sessions :=
  let ⟨key, measurement, wasCurrent⟩ := decision
  if wasCurrent && !key.matches self.current then (none, self)
  else if key.matches self.current then
    if self.current.measurement.timestamp > measurement.timestamp then (none, self)
    else
      let (current, supply) :=
        if self.current.measurement.xForm != measurement.xForm then
          self.current.invalidateEditOrigin self.supply
        else (self.current, self.supply)
      let current := { current with measurement }
      (some current, { self with current, supply })
  else
    match self.others.find? key.matches with
    | none => (none, self)
    | some candidate =>
      if candidate.measurement.timestamp > measurement.timestamp then (none, self)
      else
        let candidate := { candidate with measurement }
        if measurementWins self.current key.sessionId measurement now then
          let (winner, supply) := candidate.invalidateEditOrigin self.supply
          let others := replaceFirst key.matches self.current self.others
          (some winner, { self with current := winner, others, supply })
        else (none, { self with others := replaceFirst key.matches candidate self.others })

def handleFailedMeasurement (self : Sessions) (key : SessionKey) : Option Session × Sessions :=
  if key.matches self.current then (some self.current, self)
  else if self.others.any key.matches then
    let others := self.others.filter fun session => !key.matches session
    let peers :=
      if self.current.sessionId ≠ key.sessionId ∧
          !others.any fun session => session.sessionId = key.sessionId then
        self.peers.filter fun peer => peer.peerState.sessionId ≠ key.sessionId
      else self.peers
    (none, { self with others, peers })
  else (none, self)

def admitOwnedRequest (self : Sessions) (key : SessionKey) (after : Option NodeId) :
    Admission × Option MeasureRequest × Sessions :=
  let isCurrent := key.matches self.current
  if !isCurrent && !self.others.any key.matches then (.retired, none, self)
  else
    match measurementPeer self.peers key.sessionId after with
    | some peer => (.sent, some ⟨key, peer.peerState⟩, self)
    | none =>
      if isCurrent then (.absent, none, self)
      else
        (.retired, none,
          { self with others := self.others.filter fun session => !key.matches session })

/-- An observer commit: the registry becomes `peers` and candidates without a peer retire
(`retain_live_sessions`). -/
def observePeers (self : Sessions) (peers : List ControllerPeer) : Sessions :=
  { self with
    peers
    others := self.others.filter fun session =>
      session.key.matches self.current ||
        peers.any fun peer => peer.peerState.sessionId = session.sessionId }

end Sessions

end AbletonLink.Link
