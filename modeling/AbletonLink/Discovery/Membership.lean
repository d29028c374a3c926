import AbletonLink.Discovery.Registry
import AbletonLink.Link.Queue

/-! How many peers share the node's session, and what becomes of a node whose last peer leaves.
The observer's changes are counted later than they happen, and the reset of a node that was left
alone comes later than the count. -/

namespace AbletonLink.Discovery

open Library Library.Run Link

/-! Counting looks at nodes and sessions only. -/

def membership (peer : ControllerPeer) : NodeId × SessionId :=
  (peer.peerState.ident, peer.peerState.sessionId)

theorem countSessionPeers_congr {peers peers' : List ControllerPeer}
    (same : peers'.map membership = peers.map membership) (sessionId : SessionId)
    (self : NodeId) : countSessionPeers sessionId peers' self =
      countSessionPeers sessionId peers self := by
  have members (peers : List ControllerPeer) : countSessionPeers sessionId peers self =
      (((peers.map membership).filter fun member =>
        member.2 = sessionId ∧ member.1 ≠ self).map Prod.fst).dedup.length := by
    unfold countSessionPeers
    rw [List.filter_map, List.map_map]
    rfl
  rw [members, members, same]

theorem countSessionPeers_eq_zero {sessionId : SessionId} {peers : List ControllerPeer}
    {self : NodeId} : countSessionPeers sessionId peers self = 0 ↔
      ∀ peer ∈ peers, peer.peerState.sessionId = sessionId → peer.peerState.ident = self := by
  unfold countSessionPeers
  rw [List.length_eq_zero_iff, List.dedup_eq_nil, List.map_eq_nil_iff, List.filter_eq_nil_iff]
  refine forall₂_congr fun peer _ => ?_
  rw [decide_eq_true_eq, not_and, not_not]

theorem countSessionPeers_filter_ne {sessionId other : SessionId} (apart : sessionId ≠ other)
    (peers : List ControllerPeer) (self : NodeId) :
    countSessionPeers sessionId (peers.filter fun peer => peer.peerState.sessionId ≠ other) self =
      countSessionPeers sessionId peers self := by
  unfold countSessionPeers
  rw [List.filter_filter]
  congr 4
  funext peer
  by_cases mine : peer.peerState.sessionId = sessionId
  · simp [mine, apart]
  · simp [mine]

def PeerStateChange.counts : PeerStateChange → Bool
  | .sessionMembership => true
  | .peerLeft => true
  | _ => false

theorem membership_applyPeer {state selfPeerState : PeerState} {peers : List ControllerPeer}
    {deadline : Option Instant} {now : Instant}
    (silent : ((applyPeer state peers selfPeerState deadline now).1.any
      PeerStateChange.counts) = false) :
    (applyPeer state peers selfPeerState deadline now).2.map membership =
      peers.map membership := by
  unfold applyPeer at silent ⊢
  split
  · rfl
  · dsimp only
    split
    · rfl
    next fresh =>
      rename_i other
      rw [if_neg other] at silent
      dsimp only at silent
      rw [if_neg fresh] at silent
      cases previous : peers.findIdx? fun peer => peer.peerState.ident = state.ident with
      | none =>
        rw [previous] at silent
        simp [PeerStateChange.counts] at silent
      | some index =>
        obtain ⟨inside, test, -⟩ := List.findIdx?_eq_some_iff_getElem.mp previous
        have ident : peers[index].peerState.ident = state.ident := of_decide_eq_true test
        have session : peers[index].peerState.sessionId = state.sessionId := by
          rw [previous, Option.bind_some, List.getElem?_eq_getElem inside] at silent
          by_contra moved
          simp [PeerStateChange.counts, moved] at silent
        have within : index < (peers.map membership).length := by
          rw [List.length_map]
          exact inside
        have same : membership ⟨state⟩ = (peers.map membership)[index] := by
          rw [List.getElem_map]
          exact Prod.ext ident.symm session.symm
        dsimp only
        rw [List.map_set, same, List.set_getElem_self]

theorem membership_removePeer {node : NodeId} {peers : List ControllerPeer}
    (silent : ((removePeer node peers).1.any PeerStateChange.counts) = false) :
    (removePeer node peers).2 = peers := by
  unfold removePeer at silent ⊢
  dsimp only at silent ⊢
  split at silent
  · cases silent
  next same =>
    exact List.filter_sublist.eq_of_length (not_not.mp same).symm

structure Stays (s s' : SessionCommit) : Prop where
  counter : s'.counter = s.counter
  sessionId : s'.peer.sessionId = s.peer.sessionId
  ident : s'.peer.ident = s.peer.ident
  members : s'.peers.map membership = s.peers.map membership
  key : s'.current.key = s.current.key

namespace Stays

variable {s s' s'' : SessionCommit}

theorem refl (s : SessionCommit) : Stays s s := ⟨rfl, rfl, rfl, rfl, rfl⟩

theorem trans (h : Stays s s') (h' : Stays s' s'') : Stays s s'' where
  counter := h'.counter.trans h.counter
  sessionId := h'.sessionId.trans h.sessionId
  ident := h'.ident.trans h.ident
  members := h'.members.trans h.members
  key := h'.key.trans h.key

theorem publishDiscovery (s : SessionCommit) : Stays s s.publishDiscovery :=
  ⟨rfl, rfl, rfl, rfl, rfl⟩

theorem invalidateClientCaptures (s : SessionCommit) : Stays s s.invalidateClientCaptures :=
  ⟨rfl, rfl, rfl, rfl, rfl⟩

theorem rejectPendingTiming (own : s.published.matches s.current = true) :
    Stays s s.rejectPendingTiming :=
  ⟨rfl, rfl, rfl, rfl, Session.matches_iff.mp own⟩

theorem installTiming (s : SessionCommit) (session : SessionState) (client : ClientState) :
    Stays s (s.installTiming session client) := by
  have installed : Stays s { s with session, client } := ⟨rfl, rfl, rfl, rfl, rfl⟩
  unfold SessionCommit.installTiming
  dsimp only
  split
  · exact (installed.trans (invalidateClientCaptures _)).trans (publishDiscovery _)
  · exact installed.trans (publishDiscovery _)

theorem refreshTiming (s : SessionCommit) (clock : Clock) :
    Stays s (s.refreshTiming clock).2 := by
  rcases s.refreshTiming_cases clock with
    ⟨same, -⟩ | ⟨own, -, ⟨_, refused⟩ | ⟨_, session, client, -, accepted⟩⟩
  · rw [same]
    exact refl s
  · rw [refused]
    exact rejectPendingTiming own
  · rw [accepted]
    exact installTiming s session client

theorem editTimeline (s : SessionCommit) (key : SessionKey) (target : Timeline)
    (session : SessionState) (client : ClientState) :
    Stays s (s.editTimeline key target session client) := by
  refine ⟨rfl, rfl, rfl, ?_, ?_⟩
  · show (s.peers.map _).map membership = s.peers.map membership
    rw [List.map_map]
    refine List.map_congr_left fun peer _ => ?_
    dsimp only [Function.comp_apply]
    split <;> rfl
  · show (s.current.setTimeline target s.supply).1.key = s.current.key
    unfold Session.key
    rw [Session.sessionId_setTimeline, Session.incarnation_setTimeline]

theorem editStartStop (s : SessionCommit) (key : SessionKey) (state : ClientStartStopState)
    (proposed : Option StartStopState) : Stays s (s.editStartStop key state proposed) := by
  cases proposed <;> exact ⟨rfl, rfl, rfl, rfl, rfl⟩

theorem installEdit (s : SessionCommit) (edit : Option (Timeline × SessionState × ClientState))
    (startStop : Option ClientStartStopState) (proposed : Option StartStopState) :
    Stays s (s.installEdit edit startStop proposed) := by
  have drawn : Stays s s.invalidateCurrent := ⟨rfl, rfl, rfl, rfl, rfl⟩
  cases edit with
  | none =>
    cases startStop with
    | none => exact publishDiscovery s
    | some state =>
      exact (drawn.trans (editStartStop _ _ state proposed)).trans (publishDiscovery _)
  | some edit =>
    obtain ⟨target, session, client⟩ := edit
    have edited := drawn.trans (editTimeline s.invalidateCurrent s.current.key target session
      client)
    cases startStop with
    | none => exact edited.trans (publishDiscovery _)
    | some state =>
      exact (edited.trans (editStartStop _ _ state proposed)).trans (publishDiscovery _)

theorem clientEdit (s : SessionCommit) (incoming : IncomingClientState) (clock : Clock)
    (origin : Option SessionEditOrigin) :
    Stays s (s.clientEditFromOrigin incoming clock origin).2 := by
  rcases s.clientEdit_cases clock incoming origin with ⟨-, same⟩ | ⟨_, edit, proposed, -, -, h, -⟩
  · rw [same]
    exact refl s
  · rw [h]
    exact installEdit s edit incoming.startStopState proposed

theorem receivedStartStop (s : SessionCommit) (source : SessionId) (advertised : Timeline)
    (incoming : StartStopState) (clock : Clock) :
    Stays s (s.receivedStartStop source advertised incoming clock).2 := by
  rcases s.receivedStartStop_cases clock source advertised incoming with
    same | ⟨_, session, client, observation, -, -, -, -, -, -, h⟩
  · rw [same]
    exact refl s
  · rw [h]
    exact ⟨rfl, rfl, rfl, rfl, rfl⟩

theorem sighting (s : SessionCommit) (sessionId : SessionId) (timeline : Timeline) (slot : Bool) :
    Stays s { s with toSessions := (s.toSessions.trySighting sessionId timeline slot).2.2 } := by
  have key := (s.toSessions.trySighting_current sessionId timeline slot).1
  have peers : (s.toSessions.trySighting sessionId timeline slot).2.2.peers = s.peers := by
    rcases s.toSessions.trySighting_cases sessionId timeline slot with
      ⟨-, _, h⟩ | ⟨-, _, _, -, h⟩ | ⟨-, -, h | ⟨_, _, h⟩⟩ <;> rw [h]
  exact ⟨rfl, rfl, rfl, congrArg _ peers, key⟩

end Stays

theorem stays_quiet (s : SessionCommit) (op : Quiet)
    (plain : match op with
      | .reset .. | .observePeers _ | .refreshPeerCount | .failedMeasurement _ => False
      | _ => True) : Stays s (s.step (.quiet op)) := by
  cases op with
  | clientEdit incoming clock origin => exact .clientEdit s incoming clock origin
  | receivedStartStop source advertised incoming clock =>
    exact .receivedStartStop s source advertised incoming clock
  | decideMeasurement key xForm timestamp now =>
    show Stays s { s with toSessions := (s.toSessions.decideMeasurement key xForm timestamp now).2 }
    rcases s.toSessions.decideMeasurement_cases key xForm timestamp now with h | ⟨-, _, -, -, h⟩ <;>
      rw [h] <;> exact ⟨rfl, rfl, rfl, rfl, rfl⟩
  | admitOwnedRequest key after =>
    show Stays s { s with toSessions := (s.toSessions.admitOwnedRequest key after).2.2 }
    rcases s.toSessions.admitOwnedRequest_cases key after with h | h <;> rw [h] <;>
      exact ⟨rfl, rfl, rfl, rfl, rfl⟩
  | setStartStopSync enabled => exact ⟨rfl, rfl, rfl, rfl, rfl⟩
  | elsewhere => exact ⟨rfl, rfl, rfl, rfl, rfl⟩
  | reset => exact plain.elim
  | failedMeasurement => exact plain.elim
  | observePeers => exact plain.elim
  | refreshPeerCount => exact plain.elim

/-- Where the task for changes is.  Between a count that found nobody and the reset it lets go of
the locks. -/
inductive ChangesAt
  | idle
  | applying (rest : List PeerStateChange)
  | resetting (expected : SessionId) (rest : List PeerStateChange)
  deriving DecidableEq

def ChangesAt.rest : ChangesAt → List PeerStateChange
  | .idle => []
  | .applying rest => rest
  | .resetting _ rest => rest

/-- `changes` are the batches the observer has sent and the task has not received. -/
structure Membership where
  node : Node
  changes : List (List PeerStateChange)
  place : ChangesAt
  deriving DecidableEq

/-- `node` is any step of the controller but those of the task and the observer. -/
inductive MembershipOp
  | node (event : Event)
  | saw (state : PeerState) (deadline : Option Instant) (now : Instant)
  | left (node : NodeId)
  | receive
  | change
  | reset (clock : Clock) (fresh : NodeId)

namespace Membership

def observe (m : Membership) (commit : List PeerStateChange × List ControllerPeer) : Membership :=
  { m with
    node := m.node.step (.quiet (.observePeers commit.2))
    changes := if commit.1.isEmpty then m.changes else m.changes ++ [commit.1] }

def refreshPeerCount (m : Membership) (rest : List PeerStateChange) : Membership :=
  let node := m.node.step (.quiet .refreshPeerCount)
  { m with
    node
    place :=
      if m.node.commit.counter ≠ node.commit.counter ∧ node.commit.counter = 0 then
        .resetting m.node.commit.peer.sessionId rest
      else .applying rest }

def step (m : Membership) : MembershipOp → Membership
  | .node event => { m with node := m.node.step event }
  | .saw state deadline now =>
    m.observe (applyPeer state m.node.commit.peers m.node.commit.peer deadline now)
  | .left node => m.observe (removePeer node m.node.commit.peers)
  | .receive =>
    match m.place, m.changes with
    | .idle, batch :: changes => { m with changes, place := .applying batch }
    | _, _ => m
  | .change =>
    match m.place with
    | .applying [] => { m with place := .idle }
    -- What else a change brings about is a step of the node.
    | .applying (change :: rest) =>
      if change.counts then m.refreshPeerCount rest else { m with place := .applying rest }
    | _ => m
  | .reset clock fresh =>
    match m.place with
    | .resetting expected rest =>
      { m with
        node := m.node.step (.quiet (.reset clock fresh (some expected)))
        place := .applying rest }
    | _ => m

def Admitted (m : Membership) : MembershipOp → Prop
  | .node (.join clock fresh) =>
    ∀ queued ∈ m.node.joins.head?, (m.node.commit.join queued clock fresh).1.isOk = true
  | .node (.quiet (.reset ..)) => False
  | .node (.quiet (.observePeers _)) => False
  | .node (.quiet .refreshPeerCount) => False
  | .saw state _ _ =>
    match m.place with
    | .resetting expected _ => state.sessionId ≠ expected
    | _ => True
  | .reset clock fresh =>
    match m.place with
    | .resetting expected _ =>
      (m.node.commit.resetIfPeerless clock fresh (some expected)).1.isOk = true
    | _ => True
  | _ => True

instance decidableAdmitted (m : Membership) (op : MembershipOp) : Decidable (m.Admitted op) := by
  unfold Admitted
  split <;> (try split) <;> infer_instance

def sessionId (m : Membership) : SessionId := m.node.commit.peer.sessionId

def count (m : Membership) : Nat :=
  countSessionPeers m.sessionId m.node.commit.peers m.node.commit.peer.ident

def Pending (m : Membership) : Prop :=
  (∃ batch ∈ m.changes, batch.any PeerStateChange.counts = true) ∨
    m.place.rest.any PeerStateChange.counts = true

/-- A wrong count is going to be corrected, and a node that is left alone in the session of
another one is going to leave it. -/
structure Accounted (m : Membership) : Prop where
  draining : m.node.Draining
  counted : m.node.commit.counter = m.count ∨ m.Pending ∨ m.node.Queued
  alone : m.sessionId.node = m.node.commit.peer.ident ∨ m.node.commit.counter ≠ 0 ∨
    (∃ rest, m.place = .resetting m.sessionId rest) ∨ m.node.Queued
  empty : ∀ expected rest, m.place = .resetting expected rest →
    countSessionPeers expected m.node.commit.peers m.node.commit.peer.ident = 0

variable {m : Membership}

theorem Accounted.queued_of_apart (h : m.Accounted)
    (apart : m.node.commit.current.sessionId ≠ m.sessionId) : m.node.Queued := by
  refine h.draining.identity.resolve_left fun same => apart ?_
  have here := h.draining.anchored.peerId
  exact (here.trans (congrArg SessionKey.sessionId (Session.matches_iff.mp same.1))).symm

theorem Accounted.stays (h : m.Accounted) {node : Node} (draining : node.Draining)
    (counter : node.commit.counter = m.node.commit.counter)
    (sessionId : node.commit.peer.sessionId = m.node.commit.peer.sessionId)
    (ident : node.commit.peer.ident = m.node.commit.peer.ident)
    (members : node.commit.peers.map membership = m.node.commit.peers.map membership)
    (queued : m.node.Queued → node.Queued) : Accounted { m with node } where
  draining := draining
  counted := by
    have count : Membership.count { m with node } = m.count := by
      show countSessionPeers node.commit.peer.sessionId node.commit.peers _ = m.count
      rw [sessionId, ident]
      exact countSessionPeers_congr members m.sessionId _
    rw [count]
    exact (h.counted.imp counter.trans (Or.imp_right queued))
  alone := by
    show node.commit.peer.sessionId.node = node.commit.peer.ident ∨ node.commit.counter ≠ 0 ∨
      (∃ rest, m.place = .resetting node.commit.peer.sessionId rest) ∨ node.Queued
    rw [sessionId, ident, counter]
    exact h.alone.imp_right (Or.imp_right (Or.imp_right queued))
  empty expected rest here := by
    show countSessionPeers expected node.commit.peers node.commit.peer.ident = 0
    rw [ident, countSessionPeers_congr members]
    exact h.empty expected rest here

theorem accounted_of_reset {commit : SessionCommit} {clock : Clock} {fresh : NodeId}
    {m : Membership} (draining : m.node.Draining)
    (reset : m.node.commit = (commit.reset clock fresh).2)
    (accepted : (commit.reset clock fresh).1.isOk = true) : m.Accounted := by
  rcases commit.reset_cases clock fresh with
    ⟨_, refused⟩ | ⟨_, node, timeline, xForm, hostTime, session, client, -, -, done⟩
  · rw [refused] at accepted
    cases accepted
  · rw [done] at reset
    refine ⟨draining, .inl ?_, .inl ?_, fun expected rest _ => ?_⟩
    · unfold count sessionId
      rw [reset]
      rfl
    · unfold sessionId
      rw [reset]
      rfl
    · rw [reset]
      rfl

theorem join_accepted {s : SessionCommit} {queued : Session} {clock : Clock} {fresh : NodeId}
    (own : queued.key.matches s.current = true)
    (accepted : (s.join queued clock fresh).1.isOk = true) :
    s.join queued clock fresh = s.reset clock fresh ∨
      ((s.join queued clock fresh).2.peer.ident = s.peer.ident ∧
        (s.join queued clock fresh).2.peer.sessionId = s.current.sessionId ∧
        (s.join queued clock fresh).2.peers = s.peers ∧
        (s.join queued clock fresh).2.counter =
          countSessionPeers s.current.sessionId s.peers s.peer.ident ∧
        (s.current.sessionId.node = s.peer.ident ∨
          (s.join queued clock fresh).2.counter ≠ 0)) := by
  unfold SessionCommit.join at accepted ⊢
  rw [if_neg (by simp [own])] at accepted ⊢
  dsimp only at accepted ⊢
  split
  · exact .inl rfl
  next occupied =>
    rw [if_neg occupied] at accepted
    right
    split
    next updated =>
      rw [updated] at accepted
      cases accepted
    next changed session client updated =>
      have peers : (SessionCommit.installTiming { s with
          peer := { s.peer with
            nodeState := { s.peer.nodeState with sessionId := s.current.sessionId } } } session
          client).peers = s.peers := by
        unfold SessionCommit.installTiming
        dsimp only
        split <;> rfl
      have stays := Stays.installTiming { s with
        peer := { s.peer with
          nodeState := { s.peer.nodeState with sessionId := s.current.sessionId } } } session client
      refine ⟨stays.ident, stays.sessionId, peers, rfl, ?_⟩
      rw [not_and_or, not_not] at occupied
      exact occupied

theorem Accounted.join (h : m.Accounted) (clock : Clock) (fresh : NodeId)
    (admitted : m.Admitted (.node (.join clock fresh))) :
    (m.step (.node (.join clock fresh))).Accounted := by
  have draining := h.draining.join clock fresh
  show Accounted { m with node := m.node.step (.join clock fresh) }
  cases joins : m.node.joins with
  | nil =>
    have same : m.node.step (.join clock fresh) = m.node := by
      unfold Node.step
      dsimp only
      rw [joins]
    rw [same]
    exact h
  | cons queued joins' =>
    have next : m.node.step (.join clock fresh) =
        { m.node with commit := (m.node.commit.join queued clock fresh).2, joins := joins' } := by
      unfold Node.step
      dsimp only
      rw [joins]
      rfl
    have accepted : (m.node.commit.join queued clock fresh).1.isOk = true :=
      admitted queued (by rw [joins]; rfl)
    rw [next] at draining ⊢
    by_cases own : queued.key.matches m.node.commit.current = true
    · rcases join_accepted own accepted with reset | ⟨ident, sessionId, peers, counter, alone⟩
      · rw [reset] at accepted
        exact accounted_of_reset draining (congrArg Prod.snd reset) accepted
      · refine ⟨draining, .inl ?_, ?_, fun expected rest here => ?_⟩
        · show (m.node.commit.join queued clock fresh).2.counter = countSessionPeers
            (m.node.commit.join queued clock fresh).2.peer.sessionId _ _
          rw [counter, sessionId, peers, ident]
        · show (m.node.commit.join queued clock fresh).2.peer.sessionId.node = _ ∨ _
          rw [sessionId, ident]
          exact alone.imp_right .inl
        · show countSessionPeers expected (m.node.commit.join queued clock fresh).2.peers _ = 0
          rw [peers, ident]
          exact h.empty expected rest here
    · have dropped : m.node.commit.join queued clock fresh = (.ok none, m.node.commit) := by
        unfold SessionCommit.join
        rw [if_pos (by simpa using own)]
      rw [dropped] at draining ⊢
      refine h.stays draining rfl rfl rfl rfl ?_
      rintro ⟨q, member, matched⟩
      rw [joins] at member
      rcases List.mem_cons.mp member with rfl | member
      · exact absurd matched own
      · exact ⟨q, member, matched⟩

theorem Accounted.failedMeasurement (h : m.Accounted) (key : SessionKey) :
    (m.step (.node (.quiet (.failedMeasurement key)))).Accounted := by
  have draining := h.draining.quiet (.failedMeasurement key)
  show Accounted { m with node := m.node.step (.quiet (.failedMeasurement key)) }
  have next : m.node.step (.quiet (.failedMeasurement key)) = { m.node with
      commit := { m.node.commit with
        toSessions := (m.node.commit.toSessions.handleFailedMeasurement key).2 } } := rfl
  have current : (m.node.commit.toSessions.handleFailedMeasurement key).2.current =
      m.node.commit.current := by
    rcases m.node.commit.toSessions.handleFailedMeasurement_cases key with same | ⟨-, _, same⟩ <;>
      rw [same]
  have peers : (m.node.commit.toSessions.handleFailedMeasurement key).2.peers =
        m.node.commit.peers ∨
      m.node.commit.current.sessionId ≠ key.sessionId ∧
        (m.node.commit.toSessions.handleFailedMeasurement key).2.peers =
          m.node.commit.peers.filter fun peer => peer.peerState.sessionId ≠ key.sessionId := by
    unfold Sessions.handleFailedMeasurement
    split
    · exact .inl rfl
    · split
      · dsimp only
        split
        next other => exact .inr ⟨other.1, rfl⟩
        next => exact .inl rfl
      · exact .inl rfl
  rw [next] at draining ⊢
  have queued : m.node.Queued → Node.Queued { m.node with
      commit := { m.node.commit with
        toSessions := (m.node.commit.toSessions.handleFailedMeasurement key).2 } } := by
    rintro ⟨q, member, matched⟩
    refine ⟨q, member, ?_⟩
    dsimp only
    rwa [current]
  rcases peers with same | ⟨other, fewer⟩
  · exact h.stays draining rfl rfl rfl (congrArg _ same) queued
  · refine ⟨draining, ?_, h.alone.imp_right (Or.imp_right (Or.imp_right queued)), ?_⟩
    · by_cases here : m.node.commit.current.sessionId = m.sessionId
      · have count : countSessionPeers m.sessionId
            (m.node.commit.toSessions.handleFailedMeasurement key).2.peers
            m.node.commit.peer.ident = m.count := by
          rw [fewer]
          exact countSessionPeers_filter_ne (fun same => other (here.trans same)) _ _
        exact h.counted.imp (fun right => right.trans count.symm) (Or.imp_right queued)
      · exact .inr (.inr (queued (h.queued_of_apart here)))
    · intro expected rest resetting
      have none := countSessionPeers_eq_zero.mp (h.empty expected rest resetting)
      refine countSessionPeers_eq_zero.mpr fun peer member => none peer ?_
      dsimp only at member
      rw [fewer] at member
      exact List.mem_of_mem_filter member

theorem Accounted.node (h : m.Accounted) (event : Event) (admitted : m.Admitted (.node event)) :
    (m.step (.node event)).Accounted := by
  have draining := h.draining.step event
  -- A step that also leaves the current session in its incarnation keeps what is queued.
  have moved (node : Node) (step : m.node.step event = node)
      (stays : Stays m.node.commit node.commit) (joins : node.joins = m.node.joins) :
      (m.step (.node event)).Accounted := by
    show Accounted { m with node := m.node.step event }
    rw [step] at draining ⊢
    refine h.stays draining stays.counter stays.sessionId stays.ident stays.members ?_
    rintro ⟨q, member, matched⟩
    refine ⟨q, joins ▸ member, ?_⟩
    exact SessionKey.matches_iff.mpr ((SessionKey.matches_iff.mp matched).trans stays.key.symm)
  cases event with
  | join clock fresh => exact h.join clock fresh admitted
  | refresh clock =>
    refine moved _ rfl ?_ ?_ <;> unfold Node.step <;> dsimp only <;> split
    · exact .refl _
    · exact .refreshTiming m.node.commit clock
    · rfl
    · rfl
  | announce sessionId timeline slot =>
    exact moved _ rfl (.sighting m.node.commit sessionId timeline slot) rfl
  | measured decision now =>
    have peers : (m.node.commit.toSessions.commitMeasurement decision now).2.peers =
        m.node.commit.peers := by
      rcases m.node.commit.toSessions.commitMeasurement_cases decision now with
        ⟨-, same | ⟨-, -, _, _, same, -, -⟩ | ⟨_, -, -, -, -, same⟩⟩ | ⟨_, -, -, -, -, -, same⟩ <;>
        rw [same]
    refine h.stays draining rfl rfl rfl (congrArg _ peers) ?_
    rintro ⟨q, member, matched⟩
    rcases m.node.commit.toSessions.commitMeasurement_current decision now with sent | ⟨-, same⟩
    · refine ⟨(m.node.commit.toSessions.commitMeasurement decision now).2.current, ?_,
        SessionKey.matches_iff.mpr rfl⟩
      show _ ∈ m.node.joins ++ (m.node.commit.toSessions.commitMeasurement decision now).1.toList
      rw [sent]
      exact List.mem_append_right _ (List.mem_singleton.mpr rfl)
    · refine ⟨q, List.mem_append_left _ member, ?_⟩
      show q.key.matches (m.node.commit.toSessions.commitMeasurement decision now).2.current = true
      rwa [same]
  | quiet op =>
    cases op with
    | failedMeasurement key => exact h.failedMeasurement key
    | reset => exact admitted.elim
    | observePeers => exact admitted.elim
    | refreshPeerCount => exact admitted.elim
    | clientEdit incoming clock origin =>
      exact moved _ rfl (stays_quiet m.node.commit (.clientEdit incoming clock origin) trivial) rfl
    | receivedStartStop source advertised incoming clock =>
      have stays := stays_quiet m.node.commit
        (.receivedStartStop source advertised incoming clock) trivial
      exact moved _ rfl stays rfl
    | decideMeasurement key xForm timestamp now =>
      exact moved _ rfl
        (stays_quiet m.node.commit (.decideMeasurement key xForm timestamp now) trivial) rfl
    | admitOwnedRequest key after =>
      exact moved _ rfl (stays_quiet m.node.commit (.admitOwnedRequest key after) trivial) rfl
    | setStartStopSync enabled =>
      exact moved _ rfl (stays_quiet m.node.commit (.setStartStopSync enabled) trivial) rfl
    | elsewhere => exact moved _ rfl (stays_quiet m.node.commit .elsewhere trivial) rfl

theorem Accounted.observe (h : m.Accounted)
    {commit : List PeerStateChange × List ControllerPeer}
    (silent : commit.1.any PeerStateChange.counts = false →
      commit.2.map membership = m.node.commit.peers.map membership)
    (empty : ∀ expected rest, m.place = .resetting expected rest →
      ∀ peer ∈ commit.2, peer.peerState.sessionId = expected →
        peer ∈ m.node.commit.peers) : (m.observe commit).Accounted := by
  have draining := h.draining.quiet (.observePeers commit.2)
  have pending : m.Pending → (m.observe commit).Pending := by
    refine Or.imp_left ?_
    rintro ⟨batch, member, counts⟩
    refine ⟨batch, ?_, counts⟩
    show batch ∈ if commit.1.isEmpty then m.changes else m.changes ++ [commit.1]
    split
    · exact member
    · exact List.mem_append_left _ member
  refine ⟨draining, ?_, h.alone, ?_⟩
  · cases told : commit.1.any PeerStateChange.counts with
    | true =>
      refine .inr (.inl (.inl ⟨commit.1, ?_, told⟩))
      show commit.1 ∈ if commit.1.isEmpty then m.changes else m.changes ++ [commit.1]
      rw [if_neg]
      · exact List.mem_append_right _ (List.mem_singleton.mpr rfl)
      · intro none
        rw [List.isEmpty_iff.mp none] at told
        cases told
    | false =>
      have count : (m.observe commit).count = m.count :=
        countSessionPeers_congr (silent told) m.sessionId m.node.commit.peer.ident
      rw [count]
      exact h.counted.imp_right (Or.imp_left pending)
  · intro expected rest resetting
    have none := countSessionPeers_eq_zero.mp (h.empty expected rest resetting)
    exact countSessionPeers_eq_zero.mpr fun peer member mine =>
      none peer (empty expected rest resetting peer member mine) mine

theorem Accounted.receive (h : m.Accounted) : (m.step .receive).Accounted := by
  unfold step
  dsimp only
  split
  next batch changes place sent =>
    refine ⟨h.draining, ?_, ?_, by rintro _ _ ⟨⟩⟩
    · refine h.counted.imp_right (Or.imp_left ?_)
      unfold Pending
      rw [sent, place]
      rintro (⟨other, member, counts⟩ | none)
      · rcases List.mem_cons.mp member with rfl | member
        · exact .inr counts
        · exact .inl ⟨other, member, counts⟩
      · cases none
    · refine h.alone.imp_right (Or.imp_right (Or.imp_left ?_))
      rintro ⟨rest, resetting⟩
      rw [place] at resetting
      cases resetting
  next => exact h

theorem Accounted.refreshPeerCount (h : m.Accounted) {change : PeerStateChange}
    {rest : List PeerStateChange} (place : m.place = .applying (change :: rest)) :
    (m.refreshPeerCount rest).Accounted := by
  have draining := h.draining.quiet .refreshPeerCount
  refine ⟨draining, .inl rfl, ?_, ?_⟩
  · show m.sessionId.node = m.node.commit.peer.ident ∨ m.count ≠ 0 ∨
      (∃ rest', (if m.node.commit.counter ≠ m.count ∧ m.count = 0 then
        ChangesAt.resetting m.sessionId rest else .applying rest) =
          .resetting m.sessionId rest') ∨ m.node.Queued
    by_cases left : m.node.commit.counter ≠ m.count ∧ m.count = 0
    · rw [if_pos left]
      exact .inr (.inr (.inl ⟨rest, rfl⟩))
    · rcases h.alone with own | counted | ⟨_, resetting⟩ | queued
      · exact .inl own
      · refine .inr (.inl fun zero => left ⟨?_, zero⟩)
        rw [zero]
        exact counted
      · rw [place] at resetting
        cases resetting
      · exact .inr (.inr (.inr queued))
  · intro expected rest' resetting
    have resetting : (if m.node.commit.counter ≠ m.count ∧ m.count = 0 then
        ChangesAt.resetting m.sessionId rest else .applying rest) = .resetting expected rest' :=
      resetting
    split at resetting
    next left =>
      cases resetting
      exact left.2
    next => cases resetting

theorem Accounted.change (h : m.Accounted) : (m.step .change).Accounted := by
  unfold step
  dsimp only
  split
  next place =>
    refine ⟨h.draining, ?_, ?_, by rintro _ _ ⟨⟩⟩
    · refine h.counted.imp_right (Or.imp_left (Or.imp_right fun told => ?_))
      rw [place] at told
      exact told
    · refine h.alone.imp_right (Or.imp_right (Or.imp_left ?_))
      rintro ⟨rest, resetting⟩
      rw [place] at resetting
      cases resetting
  next change rest place =>
    split
    next => exact h.refreshPeerCount place
    next other =>
      refine ⟨h.draining, ?_, ?_, by rintro _ _ ⟨⟩⟩
      · refine h.counted.imp_right (Or.imp_left (Or.imp_right fun told => ?_))
        rw [place] at told
        show rest.any PeerStateChange.counts = true
        have told : (change.counts || rest.any PeerStateChange.counts) = true := told
        rw [Bool.not_eq_true] at other
        rwa [other, Bool.false_or] at told
      · refine h.alone.imp_right (Or.imp_right (Or.imp_left ?_))
        rintro ⟨rest, resetting⟩
        rw [place] at resetting
        cases resetting
  next => exact h

theorem Accounted.reset (h : m.Accounted) (clock : Clock) (fresh : NodeId)
    (admitted : m.Admitted (.reset clock fresh)) : (m.step (.reset clock fresh)).Accounted := by
  unfold step
  unfold Admitted at admitted
  dsimp only at admitted ⊢
  split
  next expected rest place =>
    rw [place] at admitted
    dsimp only at admitted
    have draining := h.draining.quiet (.reset clock fresh (some expected))
    have next : m.node.step (.quiet (.reset clock fresh (some expected))) =
        { m.node with
          commit := (m.node.commit.resetIfPeerless clock fresh (some expected)).2 } := rfl
    by_cases changed : m.node.commit.current.sessionId ≠ expected ∨
        m.node.commit.peer.sessionId ≠ expected ∨
        countSessionPeers expected m.node.commit.peers m.node.commit.peer.ident ≠ 0
    · have kept : m.node.commit.resetIfPeerless clock fresh (some expected) =
          (.ok none, m.node.commit) := if_pos changed
      rw [next, kept] at draining ⊢
      refine ⟨draining, ?_, ?_, by rintro _ _ ⟨⟩⟩
      · refine h.counted.imp_right (Or.imp_left (Or.imp_right fun told => ?_))
        rw [place] at told
        exact told
      · rcases h.alone with own | counted | ⟨_, resetting⟩ | queued
        · exact .inl own
        · exact .inr (.inl counted)
        -- The session is left, or its last peer has come back.
        · rw [place] at resetting
          cases resetting
          rcases changed with apart | moved | returned
          · exact .inr (.inr (.inr (h.queued_of_apart apart)))
          · exact absurd rfl moved
          · exact absurd (h.empty _ rest place) returned
        · exact .inr (.inr (.inr queued))
    · have done : m.node.commit.resetIfPeerless clock fresh (some expected) =
          m.node.commit.reset clock fresh := if_neg changed
      rw [done] at admitted
      rw [next, done] at draining ⊢
      exact accounted_of_reset draining rfl admitted
  next => exact h

theorem Accounted.step (h : m.Accounted) {op : MembershipOp} (admitted : m.Admitted op) :
    (m.step op).Accounted := by
  cases op with
  | node event => exact h.node event admitted
  | saw state deadline now =>
    refine h.observe membership_applyPeer fun expected rest resetting peer member mine => ?_
    unfold Admitted at admitted
    dsimp only at admitted
    rw [resetting] at admitted
    refine (mem_applyPeer member).resolve_right ?_
    rintro rfl
    exact admitted mine
  | left node =>
    refine h.observe (fun silent => congrArg _ (membership_removePeer silent)) ?_
    exact fun _ _ _ peer member _ => (mem_removePeer.mp member).1
  | receive => exact h.receive
  | change => exact h.change
  | reset clock fresh => exact h.reset clock fresh admitted

def start (node : Node) : Membership := ⟨node, [], .idle⟩

/-- In every run, once all changes are applied and all joins are done, the counter is the number of
peers in the node's session, and a node in the session of another one has such a peer. -/
theorem settled_never_alone {node : Node} (coherent : node.commit.Coherent)
    (clamped : node.commit.Clamped) (own : node.commit.peer.sessionId.node = node.commit.peer.ident)
    (peers : node.commit.peers = []) (counter : node.commit.counter = 0)
    {ops : List MembershipOp} (admitted : Along step Admitted (start node) ops) :
    let m := run step (start node) ops
    m.changes = [] → m.place = .idle → m.node.joins = [] →
      m.node.commit.counter = countSessionPeers m.node.commit.peer.sessionId m.node.commit.peers
        m.node.commit.peer.ident ∧
      (m.node.commit.peer.sessionId.node ≠ m.node.commit.peer.ident →
        0 < m.node.commit.counter) := by
  intro m changes place joins
  have first : (start node).Accounted := by
    refine ⟨Node.draining_of_coherent ⟨coherent, clamped⟩, .inl ?_, .inl own, by rintro _ _ ⟨⟩⟩
    unfold count start
    rw [peers]
    exact counter
  have h : m.Accounted := run_invariant (fun _ _ h admitted => h.step admitted) first admitted
  have idle : ¬m.node.Queued := by
    rintro ⟨q, member, -⟩
    rw [joins] at member
    cases member
  have told : ¬m.Pending := by
    unfold Pending
    rw [changes, place]
    rintro (⟨_, ⟨⟩, -⟩ | none)
    exact Bool.false_ne_true none
  refine ⟨h.counted.resolve_right (not_or.mpr ⟨told, idle⟩), fun foreign => ?_⟩
  rcases h.alone with own | counted | ⟨_, resetting⟩ | queued
  · exact absurd own foreign
  · exact Nat.pos_of_ne_zero counted
  · rw [place] at resetting
    cases resetting
  · exact absurd queued idle

def metPeer : List MembershipOp :=
  let other : NodeId := ⟨Vector.replicate 8 66⟩
  let first : Timeline := ⟨⟨120.0⟩, ⟨0⟩, .zero⟩
  let ahead : SessionMeasurement := ⟨⟨1.0, .microseconds 1000000⟩, .zero⟩
  [.saw (soloPeer other first).peerState none .zero, .receive, .change,
    .node (.announce ⟨other⟩ first true), .change, .change, .change, .change,
    .node (.measured ⟨⟨⟨other⟩, 1⟩, ahead, false⟩ .zero),
    .node (.join ⟨.zero, .zero, .zero⟩ ⟨Vector.replicate 8 67⟩)]

def lostPeer : List MembershipOp :=
  [.left ⟨Vector.replicate 8 66⟩, .receive, .change,
    .reset ⟨.zero, .zero, .zero⟩ ⟨Vector.replicate 8 68⟩, .change]

theorem settled_never_alone_lost :
    let met := run step (start ⟨soloNode, [], 0⟩) metPeer
    let lost := run step (start ⟨soloNode, [], 0⟩) (metPeer ++ lostPeer)
    met.node.commit.peer.sessionId.node ≠ met.node.commit.peer.ident ∧
      met.node.commit.counter = 1 ∧ 0 < met.node.commit.counter ∧
      lost.node.commit.peer.sessionId.node = lost.node.commit.peer.ident ∧
      lost.node.commit.counter = countSessionPeers lost.node.commit.peer.sessionId
        lost.node.commit.peers lost.node.commit.peer.ident := by
  intro met lost
  have first := SessionCommit.coherent_newOnIo ⟨120.0⟩ soloNode.peer.ident .zero .zero ⟨0, 1⟩
  have foreign : met.node.commit.peer.sessionId.node ≠ met.node.commit.peer.ident := by
    decide +kernel
  have meets : Along step Admitted (start ⟨soloNode, [], 0⟩) metPeer := by decide +kernel
  have loses : Along step Admitted (start ⟨soloNode, [], 0⟩) (metPeer ++ lostPeer) := by
    decide +kernel
  have counted := @settled_never_alone ⟨soloNode, [], 0⟩ first.1 first.2 rfl rfl rfl _ meets
  have alone := @settled_never_alone ⟨soloNode, [], 0⟩ first.1 first.2 rfl rfl rfl _ loses
  rw [show run step _ metPeer = met from rfl] at counted
  rw [show run step _ (metPeer ++ lostPeer) = lost from rfl] at alone
  refine ⟨foreign, by decide +kernel, (counted ?_ ?_ ?_).2 foreign, by decide +kernel,
    (alone ?_ ?_ ?_).1⟩ <;> decide +kernel

example :
    let other : NodeId := ⟨Vector.replicate 8 66⟩
    let back : PeerState := (soloPeer other ⟨⟨120.0⟩, ⟨0⟩, .zero⟩).peerState
    let stranded := run step (start ⟨soloNode, [], 0⟩) <| metPeer ++
      [.left other, .receive, .change, .saw back none .zero, .reset ⟨.zero, .zero, .zero⟩ other,
        .change, .left other, .receive, .change, .change, .change, .change, .change, .receive,
        .change, .change]
    stranded.changes = [] ∧ stranded.place = .idle ∧ stranded.node.joins = [] ∧
      stranded.node.commit.peers = [] ∧
      stranded.node.commit.peer.sessionId.node ≠ stranded.node.commit.peer.ident := by
  decide +kernel

end Membership

end AbletonLink.Discovery
