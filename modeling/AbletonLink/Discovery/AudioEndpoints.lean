import AbletonLink.Discovery.Registry
import AbletonLink.Library.FirstMatch
import AbletonLink.Library.Run

/-! The registry over runs of sightings and departures: who is in it, and what is reported. -/

namespace AbletonLink.Discovery

open Link Library Library.Run

def stored (peers : List ControllerPeer) (node : NodeId) : Option PeerState :=
  (peers.find? fun peer => peer.peerState.ident = node).map ControllerPeer.peerState

def endpointsOf (changes : List PeerStateChange) (node : NodeId) : List (Option SocketAddrV4) :=
  changes.filterMap fun
    | .audioEndpoint other endpoint => if other = node then some endpoint else none
    | _ => none

def endpointEdge (before : Option PeerState) : Option PeerState → List (Option SocketAddrV4)
  | none => []
  | some peer =>
    if before.map PeerState.audioEndpoint = some peer.audioEndpoint then []
    else [peer.audioEndpoint]

@[simp] theorem endpointEdge_self (held : Option PeerState) : endpointEdge held held = [] := by
  cases held <;> simp [endpointEdge]

section EndpointsOf

variable (node : NodeId)

@[simp] theorem endpointsOf_append (changes changes' : List PeerStateChange) :
    endpointsOf (changes ++ changes') node =
      endpointsOf changes node ++ endpointsOf changes' node :=
  List.filterMap_append

@[simp] theorem endpointsOf_ite (p : Prop) [Decidable p] (change : PeerStateChange) :
    endpointsOf (if p then [change] else []) node =
      if p then endpointsOf [change] node else [] := by
  split <;> rfl

@[simp] theorem endpointsOf_sessionTimeline (sessionId : SessionId) (timeline : Timeline) :
    endpointsOf [.sessionTimeline sessionId timeline] node = [] := rfl

@[simp] theorem endpointsOf_sessionStartStopState (sessionId : SessionId) (timeline : Timeline)
    (state : StartStopState) :
    endpointsOf [.sessionStartStopState sessionId timeline state] node = [] := rfl

@[simp] theorem endpointsOf_sessionMembership : endpointsOf [.sessionMembership] node = [] := rfl

@[simp] theorem endpointsOf_audioEndpoint (other : NodeId) (endpoint : Option SocketAddrV4) :
    endpointsOf [.audioEndpoint other endpoint] node =
      if other = node then [endpoint] else [] := by
  unfold endpointsOf
  by_cases same : other = node <;> simp [same]

end EndpointsOf

def place (state : PeerState) (peers : List ControllerPeer) : List ControllerPeer :=
  match peers.findIdx? fun peer => peer.peerState.ident = state.ident with
  | some index => peers.set index ⟨state⟩
  | none => peers ++ [⟨state⟩]

section Place

variable (state : PeerState) (peers : List ControllerPeer)

theorem place_cases :
    (∀ peer ∈ peers, peer.peerState.ident ≠ state.ident) ∧ place state peers = peers ++ [⟨state⟩] ∨
    ∃ before old after, peers = before ++ old :: after ∧ old.peerState.ident = state.ident ∧
      (∀ peer ∈ before, peer.peerState.ident ≠ state.ident) ∧
      place state peers = before ++ ⟨state⟩ :: after := by
  unfold place
  cases found : peers.findIdx? fun peer => peer.peerState.ident = state.ident with
  | none =>
    refine .inl ⟨?_, rfl⟩
    simpa [List.findIdx?_eq_none_iff] using found
  | some index =>
    obtain ⟨before, old, after, split, own, absent, set⟩ := findIdx?_split found
    exact .inr ⟨before, old, after, split, by simpa using own, by simpa using absent, set _⟩

theorem stored_place (node : NodeId) :
    stored (place state peers) node =
      if state.ident = node then some state else stored peers node := by
  unfold stored
  obtain ⟨absent, placed⟩ | ⟨before, old, after, rfl, own, absent, placed⟩ :=
    place_cases state peers
  · rw [placed, List.find?_append, List.find?_singleton]
    by_cases same : state.ident = node
    · subst same
      rw [List.find?_eq_none.mpr (by simpa using absent)]
      simp
    · simp [same]
  · rw [placed, List.find?_append, List.find?_append, List.find?_cons, List.find?_cons]
    by_cases same : state.ident = node
    · subst same
      rw [List.find?_eq_none.mpr (by simpa using absent)]
      simp
    · simp [same, own]

theorem nodup_place (unique : (peers.map fun peer => peer.peerState.ident).Nodup) :
    ((place state peers).map fun peer => peer.peerState.ident).Nodup := by
  obtain ⟨absent, placed⟩ | ⟨before, old, after, rfl, own, -, placed⟩ := place_cases state peers
  · rw [placed, List.map_append, List.nodup_append]
    refine ⟨unique, by simp, ?_⟩
    simpa using absent
  · rw [placed]
    simpa [own] using unique

end Place

theorem stored_of_mem {peers : List ControllerPeer}
    (unique : (peers.map fun peer => peer.peerState.ident).Nodup) {peer : ControllerPeer}
    (mem : peer ∈ peers) : stored peers peer.peerState.ident = some peer.peerState := by
  obtain ⟨found, some⟩ : ∃ found, peers.find? (fun other =>
      other.peerState.ident = peer.peerState.ident) = some found := by
    rw [← Option.isSome_iff_exists, List.find?_isSome]
    exact ⟨peer, mem, by simp⟩
  have same := List.find?_some some
  have equal := List.inj_on_of_nodup_map unique (List.mem_of_find?_eq_some some) mem
    (by simpa using same)
  unfold stored
  rw [some, equal]
  rfl

def Ignored (state selfPeerState : PeerState) (deadline : Option Instant) (now : Instant) : Prop :=
  state.ident = selfPeerState.ident ∨ (deadline.any fun deadline => deadline ≤ now) = true

section Apply

variable {state selfPeerState : PeerState} {peers : List ControllerPeer}
  {deadline : Option Instant} {now : Instant}

theorem applyPeer_ignored (ignored : Ignored state selfPeerState deadline now) :
    applyPeer state peers selfPeerState deadline now = ([], peers) := by
  unfold applyPeer
  obtain own | late := ignored
  · exact if_pos own
  · dsimp only
    rw [if_pos late, ite_self]

variable (applied : ¬Ignored state selfPeerState deadline now)

include applied

theorem applyPeer_peers :
    (applyPeer state peers selfPeerState deadline now).2 = place state peers := by
  obtain ⟨other, early⟩ := not_or.mp applied
  unfold applyPeer place
  dsimp only
  rw [if_neg other, if_neg early]
  cases peers.findIdx? fun peer => peer.peerState.ident = state.ident <;> rfl

theorem applyPeer_endpoints (node : NodeId) :
    endpointsOf (applyPeer state peers selfPeerState deadline now).1 node =
      if state.ident = node ∧
        (stored peers state.ident).map PeerState.audioEndpoint ≠ some state.audioEndpoint
      then [state.audioEndpoint] else [] := by
  obtain ⟨other, early⟩ := not_or.mp applied
  have previous : (stored peers state.ident).map PeerState.audioEndpoint =
      ((peers.findIdx? fun peer => peer.peerState.ident = state.ident).bind
        fun index => peers[index]?).map fun peer => peer.peerState.audioEndpoint := by
    rw [← List.find?_eq_bind_findIdx?_getElem?]
    exact Option.map_map ..
  rw [previous]
  unfold applyPeer
  dsimp only
  rw [if_neg other, if_neg early]
  generalize (peers.findIdx? fun peer => peer.peerState.ident = state.ident).bind _ = previous
  cases peers.findIdx? fun peer => peer.peerState.ident = state.ident <;>
    simp only [endpointsOf_append, endpointsOf_ite, endpointsOf_sessionTimeline,
      endpointsOf_sessionStartStopState, endpointsOf_sessionMembership, endpointsOf_audioEndpoint,
      ite_self, List.nil_append] <;>
    cases previous <;> simp [and_comm, ite_and]

theorem applyPeer_announces
    (fresh : ∀ peer ∈ peers, ¬(peer.peerState.sessionId = state.sessionId ∧
      (peer.peerState.nodeState.timeline == state.nodeState.timeline) = true)) :
    .sessionTimeline state.sessionId state.nodeState.timeline ∈
      (applyPeer state peers selfPeerState deadline now).1 := by
  obtain ⟨other, early⟩ := not_or.mp applied
  have changed : (!peers.any fun peer => peer.peerState.sessionId = state.sessionId &&
      peer.peerState.nodeState.timeline == state.nodeState.timeline) = true := by
    rw [Bool.not_eq_true', List.any_eq_false]
    simpa using fresh
  unfold applyPeer
  dsimp only
  rw [if_neg other, if_neg early, changed]
  cases peers.findIdx? fun peer => peer.peerState.ident = state.ident <;> simp

end Apply

/-- An operation on the registry of a node with the identity `self`. -/
inductive RegistryOp (self : NodeId)
  | apply (state : PeerState) (selfPeerState : { state : PeerState // state.ident = self })
    (deadline : Option Instant) (now : Instant)
  | remove (node : NodeId)

/-- Every peer is in the registry once, and the node itself is not. -/
structure Distinct (node : NodeId) (peers : List ControllerPeer) : Prop where
  unique : (peers.map fun peer => peer.peerState.ident).Nodup
  others : ∀ peer ∈ peers, peer.peerState.ident ≠ node

section Runs

variable {self : NodeId} (peers : List ControllerPeer)

def observe : RegistryOp self → List PeerStateChange × List ControllerPeer
  | .apply state selfPeerState deadline now => applyPeer state peers selfPeerState deadline now
  | .remove node => removePeer node peers

def registryStep (op : RegistryOp self) : List ControllerPeer := (observe peers op).2

def reports (ops : List (RegistryOp self)) : List PeerStateChange :=
  logged registryStep (fun peers op => (observe peers op).1) peers ops

theorem stored_removePeer (node other : NodeId) :
    stored (removePeer node peers).2 other = if node = other then none else stored peers other := by
  unfold stored removePeer
  dsimp only
  rw [List.find?_filter]
  split
  · rename_i same
    subst same
    simp
  · rename_i apart
    congr 1
    refine List.find?_congr fun peer _ => ?_
    by_cases own : peer.peerState.ident = other
    · simp [own, Ne.symm apart]
    · simp [own]

theorem endpointsOf_removePeer (node other : NodeId) :
    endpointsOf (removePeer node peers).1 other = [] := by
  unfold removePeer
  dsimp only
  split <;> rfl

theorem endpoints_observe (op : RegistryOp self) (node : NodeId) :
    endpointsOf (observe peers op).1 node =
      endpointEdge (stored peers node) (stored (registryStep peers op) node) := by
  cases op with
  | apply state selfPeerState deadline now =>
    simp only [registryStep, observe]
    by_cases ignored : Ignored state selfPeerState deadline now
    · rw [applyPeer_ignored ignored, endpointEdge_self]
      rfl
    · rw [applyPeer_peers ignored, applyPeer_endpoints ignored, stored_place]
      by_cases same : state.ident = node
      · subst same
        rw [if_pos rfl, endpointEdge]
        simp only [true_and, ite_not]
      · rw [if_neg same, if_neg (fun h => same h.1), endpointEdge_self]
  | remove other =>
    simp only [registryStep, observe]
    rw [endpointsOf_removePeer, stored_removePeer]
    split
    · rfl
    · rw [endpointEdge_self]

theorem last_endpoint {node : NodeId} (absent : stored peers node = none)
    (ops : List (RegistryOp self)) {peer : PeerState}
    (held : stored (run registryStep peers ops) node = some peer) :
    (endpointsOf (reports peers ops) node).getLast? = some peer.audioEndpoint := by
  induction ops using List.reverseRecOn generalizing peer with
  | nil =>
    rw [run_nil, absent] at held
    cases held
  | append_singleton ops op ih =>
    rw [run_append] at held
    have held : stored (registryStep (run registryStep peers ops) op) node = some peer := held
    have last : reports peers (ops ++ [op]) =
        reports peers ops ++ (observe (run registryStep peers ops) op).1 := logged_concat ops op
    rw [last, endpointsOf_append, endpoints_observe, held, endpointEdge]
    split
    · rename_i same
      obtain ⟨before, old, endpoint⟩ := Option.map_eq_some_iff.mp same
      rw [List.append_nil, ih old, endpoint]
    · exact List.getLast?_concat

theorem Distinct.step {peers : List ControllerPeer} (h : Distinct self peers)
    (op : RegistryOp self) : Distinct self (registryStep peers op) := by
  cases op with
  | apply state selfPeerState deadline now =>
    simp only [registryStep, observe]
    by_cases ignored : Ignored state selfPeerState deadline now
    · rw [applyPeer_ignored ignored]
      exact h
    · refine ⟨?_, fun peer mem => ?_⟩
      · rw [applyPeer_peers ignored]
        exact nodup_place state peers h.unique
      · obtain old | rfl := mem_applyPeer mem
        · exact h.others peer old
        · exact fun own => ignored (.inl (own.trans selfPeerState.2.symm))
  | remove node =>
    exact ⟨h.unique.sublist (List.filter_sublist.map _), fun peer mem =>
      h.others peer (mem_removePeer.mp mem).1⟩

def Present (sessionId : SessionId) (timeline : Timeline) : Prop :=
  ∃ peer ∈ peers, peer.peerState.sessionId = sessionId ∧
    (peer.peerState.nodeState.timeline = timeline ∨
      (peer.peerState.nodeState.timeline == timeline) = true)

theorem announced_observe (op : RegistryOp self) {peer : ControllerPeer}
    (mem : peer ∈ registryStep peers op)
    (fresh : ¬Present peers peer.peerState.sessionId peer.peerState.nodeState.timeline) :
    .sessionTimeline peer.peerState.sessionId peer.peerState.nodeState.timeline ∈
      (observe peers op).1 := by
  have absent : peer ∉ peers := fun old => fresh ⟨peer, old, rfl, .inl rfl⟩
  cases op with
  | apply state selfPeerState deadline now =>
    simp only [registryStep, observe] at *
    by_cases ignored : Ignored state selfPeerState deadline now
    · rw [applyPeer_ignored ignored] at mem
      exact absurd mem absent
    · obtain old | rfl := mem_applyPeer mem
      · exact absurd old absent
      · exact applyPeer_announces ignored fun other inside ⟨session, same⟩ =>
          fresh ⟨other, inside, session, .inr same⟩
  | remove node => exact absurd (mem_removePeer.mp mem).1 absent

end Runs

/-- What a sighting that counts reports and leaves: its peer is held as it was sighted, the others
as before, and its audio endpoint is reported if the peer is new or had another one. -/
structure Sighted (state : PeerState) (peers : List ControllerPeer)
    (result : List PeerStateChange × List ControllerPeer) : Prop where
  held : stored result.2 state.ident = some state
  others : ∀ node, node ≠ state.ident → stored result.2 node = stored peers node
  reported : endpointsOf result.1 state.ident =
    if (stored peers state.ident).map PeerState.audioEndpoint = some state.audioEndpoint then []
    else [state.audioEndpoint]
  silent : ∀ node, node ≠ state.ident → endpointsOf result.1 node = []
  announced : ¬Present peers state.sessionId state.nodeState.timeline →
    .sessionTimeline state.sessionId state.nodeState.timeline ∈ result.1

theorem applyPeer_sighted {state selfPeerState : PeerState} {peers : List ControllerPeer}
    {deadline : Option Instant} {now : Instant}
    (applied : ¬Ignored state selfPeerState deadline now) :
    Sighted state peers (applyPeer state peers selfPeerState deadline now) := by
  refine ⟨?_, fun node apart => ?_, ?_, fun node apart => ?_, fun fresh => ?_⟩
  · rw [applyPeer_peers applied, stored_place, if_pos rfl]
  · rw [applyPeer_peers applied, stored_place, if_neg (Ne.symm apart)]
  · rw [applyPeer_endpoints applied]
    simp only [true_and, ite_not]
  · rw [applyPeer_endpoints applied, if_neg fun h => apart h.1.symm]
  · exact applyPeer_announces applied fun other inside ⟨session, same⟩ =>
      fresh ⟨other, inside, session, .inr same⟩

/-- In every run the registry holds each peer once and never the node itself.  A sighting of
another peer in time is put in the registry and reports its audio endpoint exactly where that is
new or differs from the stored one, any other sighting does nothing, and a departure takes the peer
out and reports no endpoint: so the last endpoint reported since a peer was inserted is the one
held.  A timeline new to the registry is announced. -/
theorem registry_runs (self : NodeId) (before : List (RegistryOp self)) :
    let peers := run registryStep [] before
    ((peers.map fun peer => peer.peerState.ident).Nodup ∧
      ∀ peer ∈ peers, peer.peerState.ident ≠ self) ∧
    (∀ state selfPeerState deadline now, Ignored state selfPeerState deadline now →
      applyPeer state peers selfPeerState deadline now = ([], peers)) ∧
    (∀ state selfPeerState deadline now, ¬Ignored state selfPeerState deadline now →
      Sighted state peers (applyPeer state peers selfPeerState deadline now)) ∧
    (∀ node other, endpointsOf (removePeer node peers).1 other = [] ∧
      stored (removePeer node peers).2 other =
        if node = other then none else stored peers other) ∧
    (∀ (op : RegistryOp self) (node : NodeId), endpointsOf (observe peers op).1 node =
      endpointEdge (stored peers node) (stored (registryStep peers op) node)) ∧
    (∀ (ops : List (RegistryOp self)), ∀ peer ∈ run registryStep peers ops,
      stored peers peer.peerState.ident = none →
        (endpointsOf (reports peers ops) peer.peerState.ident).getLast? =
          some peer.peerState.audioEndpoint) ∧
    (∀ (op : RegistryOp self), ∀ peer ∈ registryStep peers op,
      ¬Present peers peer.peerState.sessionId peer.peerState.nodeState.timeline →
        .sessionTimeline peer.peerState.sessionId peer.peerState.nodeState.timeline ∈
          (observe peers op).1) := by
  intro peers
  have distinct : Distinct self peers :=
    run_keeps (fun _ op h => h.step op) before ⟨List.nodup_nil, List.forall_mem_nil _⟩
  refine ⟨⟨distinct.unique, distinct.others⟩, fun _ _ _ _ => applyPeer_ignored,
    fun _ _ _ _ => applyPeer_sighted, fun node other =>
      ⟨endpointsOf_removePeer peers node other, stored_removePeer peers node other⟩,
    endpoints_observe peers, ?_, fun op peer => announced_observe peers op⟩
  intro ops peer mem absent
  have later : Distinct self (run registryStep peers ops) :=
    run_keeps (fun _ op h => h.step op) ops distinct
  exact last_endpoint peers absent ops (stored_of_mem later.unique mem)

def audioPeer (node : NodeId) (endpoint : Option SocketAddrV4) : PeerState :=
  { nodeState :=
      { nodeId := node, sessionId := ⟨node⟩, timeline := default, startStopState := default }
    measurementEndpoint := none
    audioEndpoint := endpoint }

theorem registry_runs_moved :
    let node : NodeId := ⟨#v[1, 1, 1, 1, 1, 1, 1, 1]⟩
    let self : NodeId := ⟨#v[2, 2, 2, 2, 2, 2, 2, 2]⟩
    let first : RegistryOp self :=
      .apply (audioPeer node (some ⟨1, 20808⟩)) ⟨audioPeer self none, rfl⟩ none 0
    let result := applyPeer (audioPeer node (some ⟨1, 20809⟩)) (run registryStep [] [first])
      (audioPeer self none) (some 9) 5
    endpointsOf result.1 node = [some ⟨1, 20809⟩] ∧
      stored result.2 node = some (audioPeer node (some ⟨1, 20809⟩)) := by
  intro node self first result
  have sighted : Sighted (audioPeer node (some ⟨1, 20809⟩)) (run registryStep [] [first]) result :=
    (registry_runs self [first]).2.2.1 _ (audioPeer self none) (some 9) 5
      (by simp [Ignored, audioPeer, PeerState.ident, node, self])
  exact ⟨sighted.reported.trans (if_neg (by decide)), sighted.held⟩

end AbletonLink.Discovery
