import AbletonLink.Link.State

/-! The observer's registry of peers and the changes it reports. -/

namespace AbletonLink.Discovery

open Link

abbrev Instant := Nat

inductive PeerStateChange
  | sessionMembership
  | sessionTimeline (sessionId : SessionId) (timeline : Timeline)
  | sessionStartStopState (sessionId : SessionId) (timeline : Timeline) (state : StartStopState)
  | peerLeft
  | audioEndpoint (node : NodeId) (endpoint : Option SocketAddrV4)
  deriving DecidableEq

/-- `apply_peer`.  The deadline is checked against `now` after the changes are computed. -/
def applyPeer (state : PeerState) (peers : List ControllerPeer) (selfPeerState : PeerState)
    (deadline : Option Instant) (now : Instant) : List PeerStateChange × List ControllerPeer :=
  if state.ident = selfPeerState.ident then ([], peers)
  else
    let timelineChanged := !peers.any fun peer =>
      peer.peerState.sessionId = state.sessionId &&
        peer.peerState.nodeState.timeline == state.nodeState.timeline
    let startStopChanged := !peers.any fun peer =>
      peer.peerState.sessionId = state.sessionId &&
        peer.peerState.nodeState.timeline == state.nodeState.timeline &&
        peer.peerState.nodeState.startStopState = state.nodeState.startStopState
    let previous := peers.findIdx? fun peer => peer.peerState.ident = state.ident
    let previousPeer := previous.bind fun index => peers[index]?
    let membershipChanged :=
      previousPeer.all fun peer => peer.peerState.sessionId ≠ state.sessionId
    let audioChanged :=
      previousPeer.all fun peer => peer.peerState.audioEndpoint ≠ state.audioEndpoint
    let changes :=
      (if timelineChanged then
        [.sessionTimeline state.sessionId state.nodeState.timeline] else []) ++
      (if timelineChanged || startStopChanged then
        [.sessionStartStopState state.sessionId state.nodeState.timeline
          state.nodeState.startStopState] else []) ++
      (if membershipChanged then [.sessionMembership] else []) ++
      (if audioChanged then [.audioEndpoint state.ident state.audioEndpoint] else [])
    if deadline.any fun deadline => deadline ≤ now then ([], peers)
    else
      match previous with
      | some index => (changes, peers.set index ⟨state⟩)
      | none => (changes, peers ++ [⟨state⟩])

def removePeer (node : NodeId) (peers : List ControllerPeer) :
    List PeerStateChange × List ControllerPeer :=
  let remaining := peers.filter fun peer => peer.peerState.ident ≠ node
  (if peers.length ≠ remaining.length then [.peerLeft] else [], remaining)

theorem mem_applyPeer {state selfPeerState : PeerState} {peers : List ControllerPeer}
    {deadline : Option Instant} {now : Instant} {peer : ControllerPeer}
    (mem : peer ∈ (applyPeer state peers selfPeerState deadline now).2) :
    peer ∈ peers ∨ peer = ⟨state⟩ := by
  unfold applyPeer at mem
  split at mem
  · exact .inl mem
  · dsimp only at mem
    split at mem
    · exact .inl mem
    · split at mem
      · exact List.mem_or_eq_of_mem_set mem
      · simpa using mem

theorem mem_removePeer {node : NodeId} {peers : List ControllerPeer} {peer : ControllerPeer} :
    peer ∈ (removePeer node peers).2 ↔ peer ∈ peers ∧ peer.peerState.ident ≠ node := by
  simp [removePeer]

end AbletonLink.Discovery
