import AbletonLink.Link.Timeline

namespace AbletonLink.Link

open Library Library.MachineInt

structure NodeId where
  bytes : Vector UInt8 8
  deriving DecidableEq

instance : Inhabited NodeId := ⟨⟨Vector.replicate 8 0⟩⟩

def NodeId.lt (a b : NodeId) : Bool := decide (a.bytes.toList < b.bytes.toList)

structure SessionId where
  node : NodeId
  deriving DecidableEq

instance : Inhabited SessionId := ⟨⟨default⟩⟩

structure StartStopState where
  isPlaying : Bool
  beats : Beats
  timestamp : Duration
  deriving DecidableEq

instance : Inhabited StartStopState := ⟨⟨false, ⟨0⟩, Duration.zero⟩⟩

/-- Start and stop in host time; `timestamp` is the local observation order, not the wire clock. -/
structure ClientStartStopState where
  isPlaying : Bool
  time : Duration
  timestamp : Duration
  deriving DecidableEq

structure SessionState where
  timeline : Timeline
  startStopState : StartStopState
  ghostXForm : GhostXForm
  deriving DecidableEq

structure ClientState where
  timeline : Timeline
  timelineSessionId : SessionId
  startStopState : ClientStartStopState
  deriving DecidableEq

instance : BEq ClientState :=
  ⟨fun a b => a.timeline == b.timeline && a.timelineSessionId == b.timelineSessionId &&
    a.startStopState == b.startStopState⟩

theorem ClientState.beq_iff {a b : ClientState} :
    (a == b) = true ↔ (a.timeline == b.timeline) = true ∧
      a.timelineSessionId = b.timelineSessionId ∧ a.startStopState = b.startStopState := by
  show (_ && _ && _) = true ↔ _
  simp only [Bool.and_eq_true, beq_iff_eq, and_assoc]

structure IncomingClientState where
  timeline : Option Timeline
  startStopState : Option ClientStartStopState
  timelineTimestamp : Duration
  deriving DecidableEq

structure NodeState where
  nodeId : NodeId
  sessionId : SessionId
  timeline : Timeline
  startStopState : StartStopState
  deriving DecidableEq

structure SocketAddrV4 where
  ip : UInt32
  port : UInt16
  deriving DecidableEq

structure PeerState where
  nodeState : NodeState
  measurementEndpoint : Option SocketAddrV4
  audioEndpoint : Option SocketAddrV4
  deriving DecidableEq

def PeerState.ident (p : PeerState) : NodeId := p.nodeState.nodeId
def PeerState.sessionId (p : PeerState) : SessionId := p.nodeState.sessionId

structure ControllerPeer where
  peerState : PeerState
  deriving DecidableEq

def ControllerPeer.withTimeline (p : ControllerPeer) (timeline : Timeline) : ControllerPeer :=
  { p with peerState := { p.peerState with nodeState := { p.peerState.nodeState with timeline } } }

def countSessionPeers (sessionId : SessionId) (peers : List ControllerPeer) (selfNode : NodeId) :
    Nat :=
  ((peers.filter fun peer =>
      peer.peerState.sessionId = sessionId ∧ peer.peerState.ident ≠ selfNode).map
    fun peer => peer.peerState.ident).dedup.length

def mapStartStopStateFromSessionToClient (s : StartStopState) (timeline : Timeline)
    (xForm : GhostXForm) : ClientStartStopState :=
  { isPlaying := s.isPlaying
    time := xForm.ghostNanosToHost (timeline.nanosAtMicrobeats s.beats.value.toInt)
    timestamp := xForm.ghostToHostNanos s.timestamp }

def mapStartStopStateFromClientToSession (s : ClientStartStopState) (timeline : Timeline)
    (xForm : GhostXForm) : StartStopState :=
  { isPlaying := s.isPlaying
    beats := timeline.toBeats (xForm.hostToGhostNanos s.time)
    timestamp := xForm.hostToGhostNanos s.timestamp }

/-- Installs a session timeline and clock map.  The states are returned beside the result, so a
write before a failure would show. -/
def updateTimingGuarded (session : SessionState) (client : ClientState) (newTimeline : Timeline)
    (newXForm : GhostXForm) (now : Duration) (syncEnabled : Bool) (sessionId : SessionId) :
    Except CommitError (Option Tempo) × SessionState × ClientState :=
  let timeline := clampTempo newTimeline
  if timeline.timeOrigin.numMicroseconds.isNone then
    (.error .timelineOriginExhausted, session, client)
  else
    let old := session.timeline
    let tempo := if old.tempo != timeline.tempo then some timeline.tempo else none
    if old != timeline || session.ghostXForm != newXForm then
      match updateClientTimelineFromSession client.timeline timeline now newXForm with
      | .error error => (.error error, session, client)
      | .ok clientTimeline =>
        let session := { session with timeline := timeline, ghostXForm := newXForm }
        let client := { client with timeline := clientTimeline }
        let client :=
          if syncEnabled && session.startStopState != default then
            let observation := client.startStopState.timestamp
            { client with
              startStopState :=
                { mapStartStopStateFromSessionToClient session.startStopState timeline newXForm with
                  timestamp := observation } }
          else client
        (.ok tempo, session, { client with timelineSessionId := sessionId })
    else (.ok tempo, session, { client with timelineSessionId := sessionId })

/-- What an accepted timing update leaves behind. -/
structure Timed (session : SessionState) (client : ClientState) (newTimeline : Timeline)
    (newXForm : GhostXForm) (now : Duration) (sessionId : SessionId)
    (session' : SessionState) (client' : ClientState) : Prop where
  timeline : session'.timeline = clampTempo newTimeline
  xForm : (session'.ghostXForm == newXForm) = true
  keptXForm : session'.ghostXForm = newXForm ∨ session'.ghostXForm = session.ghostXForm
  startStop : session'.startStopState = session.startStopState
  sessionId : client'.timelineSessionId = sessionId
  timestamp : client'.startStopState.timestamp = client.startStopState.timestamp
  beat : client'.timeline.microbeatsAt now = client.timeline.microbeatsAt now
  tempo : client'.timeline = client.timeline ∨
    client'.timeline.tempo = (clampTempo newTimeline).tempo

section UpdateTiming

variable {session session' : SessionState} {client client' : ClientState} {newTimeline : Timeline}
  {newXForm : GhostXForm} {now : Duration} {syncEnabled : Bool} {sessionId : SessionId}

theorem updateTimingGuarded_error {error : CommitError}
    (h : updateTimingGuarded session client newTimeline newXForm now syncEnabled sessionId =
      (.error error, session', client')) : session' = session ∧ client' = client := by
  unfold updateTimingGuarded at h
  dsimp only at h
  split at h
  · cases h
    exact ⟨rfl, rfl⟩
  · split at h
    · split at h
      · cases h
        exact ⟨rfl, rfl⟩
      · cases h
    · cases h

theorem updateTimingGuarded_ok {changed : Option Tempo}
    (h : updateTimingGuarded session client newTimeline newXForm now syncEnabled sessionId =
      (.ok changed, session', client')) :
    Timed session client newTimeline newXForm now sessionId session' client' := by
  unfold updateTimingGuarded at h
  dsimp only at h
  split at h
  · cases h
  · split at h
    · split at h
      · cases h
      · rename_i clientTimeline composed
        obtain ⟨tempo, beat, xForm⟩ := updateClientTimelineFromSession_ok composed
        obtain ⟨-, rfl, rfl⟩ := Prod.mk.injEq .. ▸ h
        split <;> exact ⟨rfl, xForm, .inl rfl, rfl, rfl, rfl, beat, .inr tempo⟩
    · rename_i unchanged
      simp only [bne, Bool.or_eq_true, Bool.not_eq_true', not_or, Bool.not_eq_false] at unchanged
      cases h
      exact ⟨(clamped_clampTempo _).eq_of_beq unchanged.1, unchanged.2, .inr rfl, rfl, rfl, rfl,
        rfl, .inl rfl⟩

end UpdateTiming

end AbletonLink.Link
