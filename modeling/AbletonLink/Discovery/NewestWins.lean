import AbletonLink.Discovery.AudioEndpoints
import AbletonLink.Discovery.NoZombies
import AbletonLink.Discovery.Observations

/-! A commit at any stage is of the newest observation of its peer, and nothing else than a commit
brings a peer in or changes what is known of it. -/

namespace AbletonLink.Discovery

open Link Library Library.Run Wire

def PeerStateMessage.content (msg : PeerStateMessage) : PeerStateMessage :=
  { msg with expiresAt := none, observation := none }

theorem PeerStateMessage.ttl_congr {a b : PeerStateMessage} (same : a.content = b.content) :
    a.ttl = b.ttl := by
  have ttl : a.content.ttl = b.content.ttl := congrArg PeerStateMessage.ttl same
  exact ttl

theorem PeerStateMessage.ident_congr {a b : PeerStateMessage} (same : a.content = b.content) :
    a.ident = b.ident := by
  have node : a.content.nodeState = b.content.nodeState := congrArg PeerStateMessage.nodeState same
  exact congrArg NodeState.nodeId node

def PeerStateMessage.peerState (msg : PeerStateMessage) : PeerState :=
  ⟨msg.nodeState, msg.measurementEndpoint, msg.audioEndpoint⟩

theorem PeerStateMessage.peerState_congr {a b : PeerStateMessage} (same : a.content = b.content) :
    a.peerState = b.peerState := by
  have state : a.content.peerState = b.content.peerState :=
    congrArg PeerStateMessage.peerState same
  exact state

namespace Gateway

variable {g : Gateway} {msg : PeerStateMessage} {node : NodeId}

theorem mem_observations : msg ∈ g.observations ↔ .observed msg ∈ g.inFlight := by
  simp only [observations, List.mem_filterMap]
  constructor
  · rintro ⟨event, mem, eq⟩
    cases event with
    | observed other =>
      cases eq
      exact mem
    | peerLeft node => cases eq
    | peerTimedOut node => cases eq
  · intro mem
    exact ⟨.observed msg, mem, rfl⟩

theorem mem_observations_send {event : PeerEvent} (mem : msg ∈ (g.send event).observations) :
    msg ∈ g.observations ∨ event = .observed msg := by
  rw [mem_observations] at mem ⊢
  simp only [send, inFlight, ← List.append_assoc, List.mem_append, List.mem_singleton] at mem ⊢
  exact mem.imp_right Eq.symm

theorem mem_observations_onPeerState {sighted : PeerStateMessage} {called now : Instant}
    {current : Bool} (mem : msg ∈ (g.onPeerState sighted called now current).observations) :
    msg ∈ g.observations ∨ (sighted.observation.isNone || current) = true ∧
      msg.observation = sighted.observation ∧ msg.content = sighted.content := by
  unfold onPeerState at mem
  dsimp only at mem
  split at mem
  · rename_i commits
    unfold publish at mem
    split at mem
    · exact .inl mem
    · split at mem
      · split at mem
        · rcases mem_observations_send mem with old | new
          · exact .inl old
          · cases new
        · exact .inl mem
      · rcases mem_observations_send mem with old | new
        · exact .inl old
        · cases new
          exact .inr ⟨commits, rfl, rfl⟩
  · exact .inl mem

theorem mem_observations_onByebye (mem : msg ∈ (g.onByebye node).observations) :
    msg ∈ g.observations := by
  unfold onByebye at mem
  split at mem
  · rcases mem_observations_send mem with old | new
    · exact old
    · cases new
  · exact mem

theorem mem_observations_prune {now : Instant} (mem : msg ∈ (g.prune now).observations) :
    msg ∈ g.observations := by
  unfold prune at mem
  split at mem
  · exact mem
  · split at mem
    · rcases mem_observations_send mem with old | new
      · exact old
      · cases new
    · exact mem

theorem mem_observations_receive (mem : msg ∈ g.receive.observations) : msg ∈ g.observations := by
  rw [mem_observations] at mem ⊢
  unfold receive at mem
  split at mem
  · rename_i event events idle queued
    simpa [inFlight, idle, queued] using mem
  · exact mem

theorem inFlight_observedPeer (g : Gateway) (msg : PeerStateMessage) (o : Observing) :
    (g.observedPeer msg o).inFlight = g.inFlight := by
  unfold observedPeer
  dsimp only
  split
  · rfl
  · split
    · split
      · rfl
      · split
        · rfl
        · rfl
    · rfl

theorem mem_observations_handle {o : Observing} (mem : msg ∈ (g.handle o).observations) :
    msg ∈ g.observations := by
  rw [mem_observations] at mem ⊢
  unfold handle at mem
  split at mem
  · exact mem
  · rw [inFlight_observedPeer] at mem
    exact List.mem_append_right _ mem
  · exact List.mem_append_right _ mem
  · exact List.mem_append_right _ mem

theorem mem_observations_abandon (mem : msg ∈ g.abandon.observations) : msg ∈ g.observations := by
  rw [mem_observations] at mem ⊢
  unfold abandon at mem
  split at mem
  · exact List.mem_append_right _ mem
  · exact mem

/-! The timeouts of a node. -/

def timeoutsOf (g : Gateway) (node : NodeId) : List (Instant × NodeId) :=
  g.peerTimeouts.filter fun entry => entry.2 = node

theorem timeoutsOf_forget (g : Gateway) (peer node : NodeId) :
    (g.forget peer).timeoutsOf node = if peer = node then [] else g.timeoutsOf node := by
  unfold timeoutsOf forget
  dsimp only
  rw [List.filter_filter]
  split
  · rename_i same
    subst same
    simp
  · rename_i apart
    refine List.filter_congr fun entry _ => ?_
    by_cases own : entry.2 = node
    · simp [own, Ne.symm apart]
    · simp [own]

theorem filter_insertTimeout (timeouts : List (Instant × NodeId)) (entry : Instant × NodeId)
    (node : NodeId) :
    ((insertTimeout timeouts entry).filter fun other => other.2 = node).Perm
      ((entry :: timeouts).filter fun other => other.2 = node) := by
  rw [insertTimeout_eq]
  exact (timeouts.perm_orderedInsert _ entry).filter _

theorem filter_insertTimeout_of_ne {timeouts : List (Instant × NodeId)} {entry : Instant × NodeId}
    (apart : entry.2 ≠ node) :
    ((insertTimeout timeouts entry).filter fun other => other.2 = node) =
      timeouts.filter fun other => other.2 = node := by
  rw [insertTimeout_eq, List.orderedInsert_eq_take_drop, List.filter_append,
    List.filter_cons_of_neg (by simpa using apart), ← List.filter_append,
    List.takeWhile_append_dropWhile]

theorem timeoutsOf_publish (g : Gateway) (msg : PeerStateMessage) (deadline now : Instant)
    (node : NodeId) :
    (g.publish msg deadline now).timeoutsOf node = g.timeoutsOf node ∨ msg.ident = node ∧
      (msg.ttl = 0 ∧ (g.publish msg deadline now).timeoutsOf node = [] ∨
        msg.ttl ≠ 0 ∧ ∃ time, (g.publish msg deadline now).timeoutsOf node = [(time, node)]) := by
  have forgotten := timeoutsOf_forget g msg.ident node
  unfold publish
  by_cases about : msg.ident = node
  · rw [if_pos about] at forgotten
    split
    · exact .inl rfl
    · split
      · rename_i bye
        split
        · exact .inr ⟨about, .inl ⟨bye, forgotten⟩⟩
        · exact .inl rfl
      · rename_i alive
        refine .inr ⟨about, .inr ⟨alive, min deadline (now + seconds 3), ?_⟩⟩
        have alone := filter_insertTimeout (g.forget msg.ident).peerTimeouts
          (min deadline (now + seconds 3), msg.ident) node
        rw [List.filter_cons_of_pos (by simpa using about)] at alone
        have rest : ((g.forget msg.ident).peerTimeouts.filter fun other => other.2 = node) = [] :=
          forgotten
        rw [rest] at alone
        exact (List.perm_singleton.mp alone).trans (by rw [about])
  · rw [if_neg about] at forgotten
    refine .inl ?_
    split
    · rfl
    · split
      · split
        · exact forgotten
        · rfl
      · exact (filter_insertTimeout_of_ne about).trans forgotten

theorem timeoutsOf_onPeerState (g : Gateway) (msg : PeerStateMessage) (called now : Instant)
    (current : Bool) (node : NodeId) :
    (g.onPeerState msg called now current).timeoutsOf node = g.timeoutsOf node ∨
      (msg.observation.isNone || current) = true ∧ msg.ident = node ∧
        (msg.ttl = 0 ∧ (g.onPeerState msg called now current).timeoutsOf node = [] ∨
          msg.ttl ≠ 0 ∧
            ∃ time, (g.onPeerState msg called now current).timeoutsOf node = [(time, node)]) := by
  unfold onPeerState
  dsimp only
  split
  · rename_i commits
    exact (g.timeoutsOf_publish { msg with expiresAt := some (msg.deadline called) }
      (msg.deadline called) now node).imp_right fun written => ⟨commits, written⟩
  · exact .inl rfl

theorem timeoutsOf_onByebye (g : Gateway) (peer node : NodeId) :
    (g.onByebye peer).timeoutsOf node = g.timeoutsOf node ∨
      peer = node ∧ (g.onByebye peer).timeoutsOf node = [] := by
  unfold onByebye
  split
  · have forgotten := timeoutsOf_forget g peer node
    by_cases same : peer = node
    · exact .inr ⟨same, forgotten.trans (if_pos same)⟩
    · exact .inl (forgotten.trans (if_neg same))
  · exact .inl rfl

theorem timeoutsOf_prune (g : Gateway) (now : Instant) (node : NodeId) :
    ((g.prune now).timeoutsOf node).Sublist (g.timeoutsOf node) := by
  unfold prune timeoutsOf
  split
  · exact .refl _
  · rename_i time peer timeouts held
    split
    · rw [held]
      exact (List.sublist_cons_self _ _).filter _
    · exact .refl _

theorem peerTimeouts_handle (g : Gateway) (o : Observing) :
    (g.handle o).peerTimeouts = g.peerTimeouts := by
  unfold handle
  split
  · rfl
  · unfold observedPeer
    dsimp only
    split
    · rfl
    · split
      · split
        · rfl
        · split <;> rfl
      · rfl
  · rfl
  · rfl

theorem peerTimeouts_receive (g : Gateway) : g.receive.peerTimeouts = g.peerTimeouts := by
  unfold receive
  split <;> rfl

theorem peerTimeouts_abandon (g : Gateway) : g.abandon.peerTimeouts = g.peerTimeouts := by
  unfold abandon
  split <;> rfl

/-! The registry. -/

theorem peers_onPeerState (g : Gateway) (msg : PeerStateMessage) (called now : Instant)
    (current : Bool) : (g.onPeerState msg called now current).peers = g.peers := by
  unfold onPeerState
  dsimp only
  split
  · unfold publish
    split
    · rfl
    · split
      · split <;> rfl
      · rfl
  · rfl

theorem peers_onByebye (g : Gateway) (node : NodeId) : (g.onByebye node).peers = g.peers := by
  unfold onByebye
  split <;> rfl

theorem peers_prune (g : Gateway) (now : Instant) : (g.prune now).peers = g.peers := by
  unfold prune
  split
  · rfl
  · split <;> rfl

theorem peers_receive (g : Gateway) : g.receive.peers = g.peers := by
  unfold receive
  split <;> rfl

theorem peers_abandon (g : Gateway) : g.abandon.peers = g.peers := by
  unfold abandon
  split <;> rfl

/-- The observer changes what is known of the peer that an event is about: it forgets it for a
departure, and for a sighting it puts in what the sighting says. -/
theorem stored_handle (g : Gateway) (o : Observing) (node : NodeId) :
    stored (g.handle o).peers node = stored g.peers node ∨
      (∃ event, g.handling = some event ∧ event.removes = true ∧ event.ident = node ∧
        stored (g.handle o).peers node = none) ∨
      ∃ msg, g.handling = some (.observed msg) ∧ msg.ident = node ∧
        (msg.observation.isNone || o.current) = true ∧
        stored (g.handle o).peers node = if msg.ttl = 0 then none else some msg.peerState := by
  unfold handle
  split
  · exact .inl rfl
  · rename_i msg handling
    unfold observedPeer
    dsimp only
    split
    · exact .inl rfl
    · split
      · rename_i commits
        by_cases about : msg.ident = node
        · split
          · exact .inl rfl
          · split
            · rename_i bye
              refine .inr (.inr ⟨msg, handling, about, commits, ?_⟩)
              rw [if_pos bye]
              exact (stored_removePeer g.peers msg.ident node).trans (if_pos about)
            · rename_i alive
              by_cases ignored : Ignored msg.peerState o.selfState (some (msg.deadline o.called))
                  o.applied
              · exact .inl (congrArg (fun result => stored (Prod.snd result) node)
                  (applyPeer_ignored ignored))
              · refine .inr (.inr ⟨msg, handling, about, commits, ?_⟩)
                rw [if_neg alive]
                refine (congrArg (stored · node) (applyPeer_peers ignored)).trans ?_
                exact (stored_place msg.peerState g.peers node).trans (if_pos about)
        · refine .inl ?_
          split
          · rfl
          · split
            · exact (stored_removePeer g.peers msg.ident node).trans (if_neg about)
            · by_cases ignored : Ignored msg.peerState o.selfState (some (msg.deadline o.called))
                  o.applied
              · exact congrArg (fun result => stored (Prod.snd result) node)
                  (applyPeer_ignored ignored)
              · refine (congrArg (stored · node) (applyPeer_peers ignored)).trans ?_
                exact (stored_place msg.peerState g.peers node).trans (if_neg about)
      · exact .inl rfl
  all_goals
    rename_i peer handling
    have removed := stored_removePeer g.peers peer node
    by_cases about : peer = node
    · exact .inr (.inl ⟨_, handling, rfl, about, removed.trans (if_pos about)⟩)
    · exact .inl (removed.trans (if_neg about))

end Gateway

/-! Which datagram of a node is the newest. -/

def newest (seen : List Observed) (node : NodeId) : Option Observed :=
  (seen.filter fun o => o.msg.ident = node).getLast?

/-- The message carries what the newest datagram of its peer says, and has its revision. -/
def IsNewest (seen : List Observed) (msg : PeerStateMessage) : Prop :=
  ∃ o, newest seen msg.ident = some o ∧ o.revision.isSome = true ∧
    o.revision = msg.observation ∧ o.msg.content = msg.content

theorem newest_concat (seen : List Observed) (o : Observed) (node : NodeId) :
    newest (seen ++ [o]) node = if o.msg.ident = node then some o else newest seen node := by
  unfold newest
  rw [List.filter_append]
  split
  · rename_i about
    rw [List.filter_cons_of_pos (by simpa using about), List.filter_nil, List.getLast?_concat]
  · rename_i other
    rw [List.filter_cons_of_neg (by simpa using other), List.filter_nil, List.append_nil]

theorem of_newest {seen : List Observed} {node : NodeId} {o : Observed}
    (last : newest seen node = some o) : o ∈ seen ∧ o.msg.ident = node := by
  simpa using List.mem_filter.mp (List.mem_of_getLast? last)

namespace Messenger

/-- A live revision that is not cancelled is the pending one of its peer, so there is one at most;
it is of the newest datagram observed of that peer, whose revision nothing cancels. -/
structure Ordered (seen : List Observed) (m : Messenger) : Prop where
  named : seen.filterMap Observed.revision = List.range m.revisions.length
  received : ∀ revision ∈ m.revisions, revision.received ≤ m.clock
  current : ∀ o ∈ seen, ∀ id revision, o.revision = some id → m.revisions[id]? = some revision →
    revision.live = true → revision.cancelled = false →
      m.pending o.msg.ident = some id ∧ newest seen o.msg.ident = some o
  owned : ∀ peer id, m.pending peer = some id → ∃ o ∈ seen, o.revision = some id ∧
    o.msg.ident = peer
  kept : ∀ node o id revision, newest seen node = some o → o.revision = some id →
    m.revisions[id]? = some revision → revision.cancelled = false

def Held (seen : List Observed) (m : Messenger) : Prop :=
  ∀ msg ∈ m.held, ∃ o ∈ seen, ∃ id revision, o.revision = some id ∧ msg.observation = some id ∧
    m.revisions[id]? = some revision ∧ revision.live = true ∧ o.msg.content = msg.content

structure Safe (seen : List Observed) (m : Messenger) : Prop where
  ordered : m.Ordered seen
  held : m.Held seen

theorem safe_new : new.Safe [] where
  ordered := ⟨rfl, by simp [new], by simp, by simp [new], by simp [newest]⟩
  held := by simp [Held, held, new, Gateway.observations, Gateway.inFlight, Gateway.new]

variable {m : Messenger} {seen : List Observed}

/-! Observing a datagram. -/

theorem getElem?_cancel (m : Messenger) (id other : Nat) :
    (m.cancel id).revisions[other]? = m.revisions[other]?.map fun revision =>
      if id = other then { revision with cancelled := true } else revision := by
  simp only [cancel, List.getElem?_modify]
  by_cases same : id = other
  · simp [same]
  · simp [same]

theorem Ordered.retainPending (h : m.Ordered seen) : m.retainPending.Ordered seen where
  named := h.named
  received := h.received
  current o mem id revision named here live current := by
    obtain ⟨pending, newest⟩ := h.current o mem id revision named here live current
    refine ⟨Option.filter_eq_some_iff.mpr ⟨pending, ?_⟩, newest⟩
    have there : m.revisions[id]? = some revision := here
    simp [isLive, there, live]
  owned peer id pending := h.owned peer id (Option.filter_eq_some_iff.mp pending).1
  kept := h.kept

theorem Ordered.unique (h : m.Ordered seen) {o o' : Observed} (mem : o ∈ seen) (mem' : o' ∈ seen)
    {id : Nat} (named : o.revision = some id) (named' : o'.revision = some id) : o = o' := by
  have nodup : (seen.filterMap Observed.revision).Nodup := by
    rw [h.named]
    exact List.nodup_range
  rw [List.Nodup, List.pairwise_filterMap] at nodup
  have : Std.Symm fun a b : Observed => ∀ x, a.revision = some x → ∀ y, b.revision = some y →
      x ≠ y := ⟨fun _ _ apart x here y there => (apart y there x here).symm⟩
  by_contra other
  exact nodup.forall mem mem' other id named id named' rfl

theorem supersede_old {peer : NodeId} {id : Nat} {revision : EventRevision}
    (here : (m.supersede peer).revisions[id]? = some revision) :
    ∃ before, m.revisions[id]? = some before ∧ (revision = before ∧ m.pending peer ≠ some id ∨
      revision = { before with cancelled := true } ∧ m.pending peer = some id) := by
  cases pending : m.pending peer with
  | none =>
    have same : (m.supersede peer).revisions = m.revisions := by simp [supersede, pending]
    exact ⟨revision, same ▸ here, .inl ⟨rfl, nofun⟩⟩
  | some target =>
    have same : (m.supersede peer).revisions = (m.cancel target).revisions := by
      simp [supersede, pending]
    rw [same, getElem?_cancel, Option.map_eq_some_iff] at here
    obtain ⟨before, here, rfl⟩ := here
    refine ⟨before, here, ?_⟩
    by_cases eq : target = id
    · exact .inr ⟨if_pos eq, congrArg some eq⟩
    · exact .inl ⟨if_neg eq, fun same => eq (Option.some.inj same)⟩

theorem supersede_kept (m : Messenger) (peer : NodeId) {id : Nat} {before : EventRevision}
    (here : m.revisions[id]? = some before) :
    ∃ revision, (m.supersede peer).revisions[id]? = some revision ∧
      revision.live = before.live := by
  cases pending : m.pending peer with
  | none =>
    have same : (m.supersede peer).revisions = m.revisions := by simp [supersede, pending]
    exact ⟨before, same ▸ here, rfl⟩
  | some target =>
    have same : (m.supersede peer).revisions = (m.cancel target).revisions := by
      simp [supersede, pending]
    rw [same, getElem?_cancel, here]
    by_cases eq : target = id
    · exact ⟨{ before with cancelled := true }, by simp [eq], rfl⟩
    · exact ⟨before, by simp [eq], rfl⟩

theorem length_supersede (m : Messenger) (peer : NodeId) :
    (m.supersede peer).revisions.length = m.revisions.length := by
  unfold supersede
  cases m.pending peer with
  | none => rfl
  | some id => exact List.length_modify ..

theorem supersede_eq (m : Messenger) (peer : NodeId) :
    m.supersede peer = { m with
      revisions := (m.supersede peer).revisions
      pending := (m.supersede peer).pending } := by
  unfold supersede
  cases m.pending peer with
  | none => rfl
  | some id => rfl

/-- While a datagram of `peer` is being observed: none of the live revisions of the peer is current,
and the other peers are as before. -/
structure Superseded (seen : List Observed) (peer : NodeId) (m : Messenger) : Prop where
  named : seen.filterMap Observed.revision = List.range m.revisions.length
  received : ∀ revision ∈ m.revisions, revision.received ≤ m.clock
  current : ∀ o ∈ seen, ∀ id revision, o.revision = some id → m.revisions[id]? = some revision →
    revision.live = true → revision.cancelled = false →
      o.msg.ident ≠ peer ∧ m.pending o.msg.ident = some id ∧ newest seen o.msg.ident = some o
  owned : ∀ node id, m.pending node = some id → ∃ o ∈ seen, o.revision = some id ∧
    o.msg.ident = node
  kept : ∀ node o id revision, node ≠ peer → newest seen node = some o → o.revision = some id →
    m.revisions[id]? = some revision → revision.cancelled = false

theorem Ordered.supersede (h : m.Ordered seen) (peer : NodeId) :
    (m.supersede peer).Superseded seen peer := by
  have pending : (m.supersede peer).pending = Function.update m.pending peer none := rfl
  refine ⟨?_, ?_, ?_, ?_, ?_⟩
  · rw [length_supersede]
    exact h.named
  · intro revision mem
    have clock : (m.supersede peer).clock = m.clock := by rw [supersede_eq]
    rw [clock]
    obtain ⟨id, here⟩ := List.mem_iff_getElem?.mp mem
    obtain ⟨before, there, ⟨rfl, -⟩ | ⟨rfl, -⟩⟩ := supersede_old here
    · exact h.received revision (List.mem_of_getElem? there)
    · exact h.received before (List.mem_of_getElem? there)
  · intro o mem id revision named here live current
    obtain ⟨before, there, ⟨rfl, spared⟩ | ⟨rfl, -⟩⟩ := supersede_old here
    · obtain ⟨referred, newest⟩ := h.current o mem id revision named there live current
      have other : o.msg.ident ≠ peer := by
        rintro rfl
        exact spared referred
      refine ⟨other, ?_, newest⟩
      rw [pending, Function.update_of_ne other]
      exact referred
    · cases current
  · intro node id referred
    rw [pending] at referred
    by_cases same : node = peer
    · rw [same, Function.update_self] at referred
      cases referred
    · rw [Function.update_of_ne same] at referred
      exact h.owned node id referred
  · intro node o id revision other last named here
    obtain ⟨before, there, ⟨rfl, -⟩ | ⟨rfl, cancelled⟩⟩ := supersede_old here
    · exact h.kept node o id revision last named there
    · -- The pending revision of the peer is not the one of another node's newest datagram.
      obtain ⟨mem, about⟩ := of_newest last
      obtain ⟨owner, among, owned, ident⟩ := h.owned peer id cancelled
      rw [h.unique mem among named owned] at about
      exact absurd (about.symm.trans ident) other

theorem newest_other {o : Observed} {node : NodeId} (other : o.msg.ident ≠ node) :
    newest (seen ++ [o]) node = newest seen node := (newest_concat ..).trans (if_neg other)

theorem newest_own (o : Observed) : newest (seen ++ [o]) o.msg.ident = some o :=
  (newest_concat ..).trans (if_pos rfl)

theorem Superseded.drop {state : PeerStateMessage} (h : m.Superseded seen state.ident) :
    m.Ordered (seen ++ [⟨state, none⟩]) := by
  refine ⟨?_, h.received, ?_, ?_, ?_⟩
  · rw [List.filterMap_append, h.named]
    exact List.append_nil _
  · intro o mem id revision named here live current
    rcases List.mem_append.mp mem with old | new
    · obtain ⟨other, pending, newest⟩ := h.current o old id revision named here live current
      exact ⟨pending, (newest_other other.symm).trans newest⟩
    · rw [List.mem_singleton.mp new] at named
      cases named
  · intro node id pending
    obtain ⟨o, mem, named, about⟩ := h.owned node id pending
    exact ⟨o, List.mem_append_left _ mem, named, about⟩
  · intro node o id revision last named here
    by_cases own : state.ident = node
    · subst own
      rw [newest_own] at last
      cases last
      cases named
    · rw [newest_other own] at last
      exact h.kept node o id revision (Ne.symm own) last named here

theorem Superseded.lt_length {peer : NodeId} (h : m.Superseded seen peer) {o : Observed}
    (mem : o ∈ seen) {id : Nat} (named : o.revision = some id) : id < m.revisions.length := by
  have among : id ∈ seen.filterMap Observed.revision := List.mem_filterMap.mpr ⟨o, mem, named⟩
  rw [h.named] at among
  exact List.mem_range.mp among

theorem Superseded.insertRevision {state : PeerStateMessage} (h : m.Superseded seen state.ident) :
    (m.insertRevision state.ident m.clock).Ordered
      (seen ++ [⟨state, some m.revisions.length⟩]) := by
  have old {o : Observed} (mem : o ∈ seen) {id : Nat} (named : o.revision = some id) :
      (m.insertRevision state.ident m.clock).revisions[id]? = m.revisions[id]? :=
    List.getElem?_append_left (h.lt_length mem named)
  have pending : (m.insertRevision state.ident m.clock).pending =
      Function.update m.pending state.ident (some m.revisions.length) := rfl
  refine ⟨?_, ?_, ?_, ?_, ?_⟩
  · rw [List.filterMap_append, h.named]
    show _ = List.range (m.revisions ++ [_]).length
    rw [List.length_append]
    exact List.range_succ.symm
  · intro revision mem
    rcases List.mem_append.mp mem with before | new
    · exact h.received revision before
    · rw [List.mem_singleton.mp new]
      exact Nat.le_refl _
  · intro o mem id revision named here live current
    rcases List.mem_append.mp mem with mem | new
    · rw [old mem named] at here
      obtain ⟨other, referred, newest⟩ := h.current o mem id revision named here live current
      refine ⟨?_, (newest_other other.symm).trans newest⟩
      rw [pending, Function.update_of_ne other]
      exact referred
    · obtain rfl := List.mem_singleton.mp new
      cases named
      exact ⟨Function.update_self .., newest_own _⟩
  · intro node id referred
    rw [pending] at referred
    by_cases own : node = state.ident
    · rw [own, Function.update_self] at referred
      exact ⟨⟨state, some m.revisions.length⟩, List.mem_append_right _ (List.mem_singleton.mpr rfl),
        referred, own.symm⟩
    · rw [Function.update_of_ne own] at referred
      obtain ⟨o, mem, named, about⟩ := h.owned node id referred
      exact ⟨o, List.mem_append_left _ mem, named, about⟩
  · intro node o id revision last named here
    by_cases own : state.ident = node
    · subst own
      rw [newest_own] at last
      cases last
      cases named
      have new : (m.insertRevision state.ident m.clock).revisions[m.revisions.length]? =
          some { received := m.clock, cancelled := false, live := true } :=
        List.getElem?_concat_length
      rw [new] at here
      cases here
      rfl
    · rw [newest_other own] at last
      rw [old (of_newest last).1 named] at here
      exact h.kept node o id revision (Ne.symm own) last named here

/-- What observing a datagram leaves to the messages in the queues. -/
structure Keeps (m m' : Messenger) : Prop where
  handoff : m'.handoff = m.handoff
  events : m'.events = m.events
  gateway : m'.gateway = m.gateway
  kept : ∀ (id : Nat) (before : EventRevision), m.revisions[id]? = some before →
    ∃ revision : EventRevision, m'.revisions[id]? = some revision ∧ revision.live = before.live

theorem Keeps.held {m' : Messenger} (keeps : m.Keeps m') (h : m.Held seen) (o : Observed) :
    m'.Held (seen ++ [o]) := by
  intro msg mem
  have old : msg ∈ m.held := by
    unfold Messenger.held at mem ⊢
    rwa [keeps.handoff, keeps.events, keeps.gateway] at mem
  obtain ⟨o, among, id, before, named, observation, here, live, content⟩ := h msg old
  obtain ⟨revision, there, same⟩ := keeps.kept id before here
  exact ⟨o, List.mem_append_left _ among, id, revision, named, observation, there, same.trans live,
    content⟩

theorem keeps_supersede (m : Messenger) (peer : NodeId) :
    m.Keeps (m.retainPending.supersede peer) := by
  refine ⟨?_, ?_, ?_, fun id before here => supersede_kept m.retainPending peer here⟩ <;>
    rw [supersede_eq] <;> rfl

theorem Keeps.insertRevision {m' : Messenger} (keeps : m.Keeps m') (peer : NodeId)
    (received : Instant) : m.Keeps (m'.insertRevision peer received) := by
  refine ⟨keeps.handoff, keeps.events, keeps.gateway, fun id before here => ?_⟩
  obtain ⟨revision, there, same⟩ := keeps.kept id before here
  exact ⟨revision,
    (List.getElem?_append_left (List.getElem?_eq_some_iff.mp there).1).trans there, same⟩

/-- Observing a datagram received now: the earlier revision of the peer is cancelled, and the new
one, if there is one, is live. -/
theorem observeLocked_spec (h : m.Ordered seen) (state : PeerStateMessage) (admitted : Bool) :
    let result := m.observeLocked state.ident m.clock admitted
    m.Keeps result.1 ∧ result.1.Ordered (seen ++ [⟨state, result.2⟩]) ∧
      ∀ id, result.2 = some id → ∃ revision : EventRevision,
        result.1.revisions[id]? = some revision ∧ revision.live = true := by
  have retained := h.retainPending
  have superseded := retained.supersede state.ident
  have keeps := keeps_supersede m state.ident
  -- Receive instants never go back, so the earlier revision cannot be the newer one.
  have never : ((m.retainPending.pending state.ident).bind
      fun id => m.retainPending.revisions[id]?).any
      (fun revision => decide (m.clock < revision.received)) = false := by
    cases found : (m.retainPending.pending state.ident).bind
        fun id => m.retainPending.revisions[id]? with
    | none => rfl
    | some revision =>
      obtain ⟨id, -, here⟩ := Option.bind_eq_some_iff.mp found
      have received := retained.received revision (List.mem_of_getElem? here)
      exact decide_eq_false (Nat.not_lt.mpr received)
  unfold observeLocked
  dsimp only
  rw [if_neg (by rw [never]; exact Bool.false_ne_true)]
  cases admitted with
  | false => exact ⟨keeps, superseded.drop, nofun⟩
  | true =>
    have clock : (m.retainPending.supersede state.ident).clock = m.clock := by
      rw [supersede_eq]
      rfl
    have inserted := superseded.insertRevision
    rw [clock] at inserted
    refine ⟨keeps.insertRevision state.ident m.clock, inserted, ?_⟩
    rintro id ⟨⟩
    exact ⟨_, List.getElem?_concat_length, rfl⟩

theorem Safe.tick (h : m.Safe seen) (elapsed : Nat) :
    { m with clock := m.clock + elapsed }.Safe seen :=
  ⟨{ h.ordered with
      received := fun revision mem => Nat.le_add_right_of_le (h.ordered.received revision mem) },
    h.held⟩

/-- What becomes of a datagram: an observation, and one message at most for the delivery. -/
structure Observes (seen : List Observed) (m : Messenger) (result : Messenger × Option Observed) :
    Prop where
  safe : result.1.Safe (seen ++ result.2.toList)
  handoff : result.1.handoff = m.handoff ∨ ∃ msg, result.1.handoff = m.handoff ++ [msg] ∧
    IsNewest (seen ++ result.2.toList) msg
  events : result.1.events = m.events
  gateway : result.1.gateway = m.gateway

theorem Safe.ignores (h : m.Safe seen) : Observes seen m (m, none) where
  safe := by
    rw [Option.toList_none, List.append_nil]
    exact h
  handoff := .inl rfl
  events := rfl
  gateway := rfl

theorem Safe.queuePeerState (h : m.Safe seen) (now : Instant) (header : MessageHeader)
    (buf : Bytes) (room : Bool) :
    Observes seen m (m.queuePeerState m.clock now header buf room) := by
  unfold Messenger.queuePeerState
  dsimp only
  split
  · exact h.ignores
  · rename_i state event
    obtain ⟨keeps, ordered, revision⟩ := observeLocked_spec h.ordered state
      (room && (state.ttl = 0 || now < m.clock + seconds header.ttl.toNat))
    split
    · rename_i refused
      rw [refused] at ordered
      exact
        { safe := ⟨ordered, keeps.held h.held _⟩
          handoff := .inl keeps.handoff
          events := keeps.events
          gateway := keeps.gateway }
    · rename_i id admitted
      obtain ⟨revision, here, live⟩ := revision id admitted
      rw [admitted] at ordered
      refine
        { safe := ⟨{ ordered with }, fun msg mem => ?_⟩
          handoff := .inr ⟨_, congrArg (· ++ _) keeps.handoff, ⟨state, some id⟩, ?_, rfl, rfl, rfl⟩
          events := keeps.events
          gateway := keeps.gateway }
      · simp only [Messenger.held, List.mem_append, List.mem_singleton] at mem
        have old := keeps.held h.held ⟨state, some id⟩
        rcases mem with ((mem | rfl) | mem) | mem
        · exact old msg (by simp [Messenger.held, mem])
        · exact ⟨⟨state, some id⟩, by simp, id, revision, rfl, rfl, here, live, rfl⟩
        · exact old msg (by simp [Messenger.held, mem])
        · exact old msg (by simp [Messenger.held, mem])
      · exact (newest_concat ..).trans (if_pos rfl)

theorem Safe.observeDiscovery (h : m.Safe seen) (context : ReceiveContext) (bytes : Bytes)
    (elapsed delay : Nat) (room : Bool) :
    Observes seen m (m.observeDiscovery context bytes elapsed delay room) := by
  have ticked := h.tick elapsed
  have ignored : Observes seen m ({ m with clock := m.clock + elapsed }, none) :=
    { ticked.ignores with }
  have queued (header : MessageHeader) (buf : Bytes) :
      Observes seen m ({ m with clock := m.clock + elapsed }.queuePeerState (m.clock + elapsed)
        (m.clock + elapsed + delay) header buf room) :=
    { ticked.queuePeerState _ header buf room with }
  unfold Messenger.observeDiscovery
  dsimp only
  split
  · split
    · split
      · exact ignored
      · split
        · exact ignored
        · split
          · exact queued _ _
          · exact queued _ _
    · exact ignored
  · exact ignored

/-! Commits. -/

theorem Safe.current (h : m.Safe seen) {msg : PeerStateMessage} (mem : msg ∈ m.held)
    {registered : Bool} (current : m.isCurrent msg registered = true) : IsNewest seen msg := by
  obtain ⟨o, among, id, revision, named, observation, here, live, content⟩ := h.held msg mem
  have found : m.revisionOf msg = some revision := by simp [revisionOf, observation, here]
  have kept : revision.cancelled = false := by
    simp only [isCurrent, found, Bool.and_eq_true] at current
    simpa using current.2
  obtain ⟨-, newest⟩ := h.ordered.current o among id revision named here live kept
  rw [PeerStateMessage.ident_congr content] at newest
  exact ⟨o, newest, by rw [named]; rfl, named.trans observation.symm, content⟩

theorem Safe.managed (h : m.Safe seen) {msg : PeerStateMessage} (mem : msg ∈ m.held)
    {registered : Bool}
    (commits : (msg.observation.isNone || m.isCurrent msg registered) = true) :
    IsNewest seen msg := by
  obtain ⟨o, among, id, revision, named, observation, -⟩ := h.held msg mem
  rw [observation] at commits
  exact h.current mem commits

theorem Safe.queues (h : m.Safe seen) {handoff events : List PeerStateMessage} {gateway : Gateway}
    (queued : ∀ msg, msg ∈ handoff ∨ msg ∈ events ∨ msg ∈ gateway.observations →
      ∃ old ∈ m.held, msg.observation = old.observation ∧ msg.content = old.content) :
    { m with handoff, events, gateway }.Safe seen := by
  refine ⟨{ h.ordered with }, fun msg mem => ?_⟩
  have mem' : msg ∈ handoff ∨ msg ∈ events ∨ msg ∈ gateway.observations := by
    simpa [Messenger.held, or_assoc] using mem
  obtain ⟨old, there, observation, content⟩ := queued msg mem'
  obtain ⟨o, among, id, revision, named, observed, here, live, same⟩ := h.held old there
  exact ⟨o, among, id, revision, named, observation.trans observed, here, live,
    same.trans content.symm⟩

theorem held_of_handoff {msg : PeerStateMessage} (mem : msg ∈ m.handoff) : msg ∈ m.held := by
  simp [Messenger.held, mem]

theorem held_of_events {msg : PeerStateMessage} (mem : msg ∈ m.events) : msg ∈ m.held := by
  simp [Messenger.held, mem]

theorem held_of_gateway {msg : PeerStateMessage} (mem : msg ∈ m.gateway.observations) :
    msg ∈ m.held := by
  simp [Messenger.held, mem]

theorem held_of_handling {msg : PeerStateMessage} (handling : m.gateway.handling =
    some (.observed msg)) : msg ∈ m.held :=
  held_of_gateway (Gateway.mem_observations.mpr (by simp [Gateway.inFlight, handling]))

/-- What one operation does, all in all.  A message that goes on to the next stage is the newest
observation of its peer; so is one that starts or ends the peer's time or writes the registry.
Otherwise a peer's time is only ended, by a bye or by pruning, and a peer is only removed from the
registry, by the departure that was sent then. -/
structure Effect (seen : List Observed) (m : Messenger) (op : MessengerOp) : Prop where
  handoff : (m.step op).handoff.Sublist m.handoff ∨
    ∃ msg, (m.step op).handoff = m.handoff ++ [msg] ∧ IsNewest (seen ++ m.observes op) msg
  events : (m.step op).events.Sublist m.events ∨
    ∃ msg ∈ m.handoff, (m.step op).events = m.events ++ [msg] ∧ IsNewest seen msg
  timeouts : ∀ node,
    (m.step op).gateway.timeoutsOf node = m.gateway.timeoutsOf node ∨
      (op = .byebye node ∨ ∃ now, op = .prune now) ∧
        ((m.step op).gateway.timeoutsOf node).Sublist (m.gateway.timeoutsOf node) ∨
      ∃ msg ∈ m.events, msg.ident = node ∧ IsNewest seen msg ∧
        (msg.ttl = 0 ∧ (m.step op).gateway.timeoutsOf node = [] ∨
          msg.ttl ≠ 0 ∧ ∃ time, (m.step op).gateway.timeoutsOf node = [(time, node)])
  sightings : ∀ msg, .observed msg ∈ (m.step op).gateway.inFlight →
    .observed msg ∈ m.gateway.inFlight ∨ IsNewest seen msg
  registry : ∀ node, stored (m.step op).gateway.peers node = stored m.gateway.peers node ∨
    (∃ event, m.gateway.handling = some event ∧ event.removes = true ∧ event.ident = node ∧
      stored (m.step op).gateway.peers node = none) ∨
    ∃ msg, m.gateway.handling = some (.observed msg) ∧ msg.ident = node ∧ IsNewest seen msg ∧
      stored (m.step op).gateway.peers node = if msg.ttl = 0 then none else some msg.peerState

theorem effect_of_gateway {op : MessengerOp} (gateway : (m.step op).gateway = m.gateway)
    (handoff : (m.step op).handoff.Sublist m.handoff ∨
      ∃ msg, (m.step op).handoff = m.handoff ++ [msg] ∧ IsNewest (seen ++ m.observes op) msg)
    (events : (m.step op).events.Sublist m.events ∨
      ∃ msg ∈ m.handoff, (m.step op).events = m.events ++ [msg] ∧ IsNewest seen msg) :
    m.Effect seen op where
  handoff := handoff
  events := events
  timeouts node := .inl (by rw [gateway])
  sightings msg mem := .inl (by rwa [gateway] at mem)
  registry node := .inl (by rw [gateway])

theorem effect_of_queues {op : MessengerOp} {gateway : Gateway}
    (stepped : m.step op = { m with gateway })
    (old : ∀ msg ∈ gateway.observations, msg ∈ m.gateway.observations)
    (timeouts : ∀ node, gateway.timeoutsOf node = m.gateway.timeoutsOf node ∨
      (op = .byebye node ∨ ∃ now, op = .prune now) ∧
        (gateway.timeoutsOf node).Sublist (m.gateway.timeoutsOf node))
    (registry : ∀ node, stored gateway.peers node = stored m.gateway.peers node ∨
      (∃ event, m.gateway.handling = some event ∧ event.removes = true ∧ event.ident = node ∧
        stored gateway.peers node = none) ∨
      ∃ msg, m.gateway.handling = some (.observed msg) ∧ msg.ident = node ∧ IsNewest seen msg ∧
        stored gateway.peers node = if msg.ttl = 0 then none else some msg.peerState) :
    m.Effect seen op := by
  constructor <;> rw [stepped]
  · exact .inl (.refl _)
  · exact .inl (.refl _)
  · exact fun node => (timeouts node).imp_right .inl
  · intro msg mem
    exact .inl (Gateway.mem_observations.mp (old msg (Gateway.mem_observations.mpr mem)))
  · exact registry

theorem Safe.deliver_effect (h : m.Safe seen) (index : Nat) (now : Instant) (registered : Bool) :
    m.Effect seen (.deliver index now registered) := by
  have stepped : m.step (.deliver index now registered) = m.deliver index now registered := rfl
  unfold Messenger.deliver at stepped
  split at stepped
  · refine effect_of_gateway ?_ (.inl ?_) (.inl ?_) <;> rw [stepped]
  · rename_i msg here
    dsimp only at stepped
    have shorter := List.eraseIdx_sublist m.handoff index
    split at stepped
    · rename_i current
      split at stepped
      · refine effect_of_gateway ?_ (.inl ?_) (.inl ?_) <;> rw [stepped]
        exact shorter
      · have mem := List.mem_of_getElem? here
        refine effect_of_gateway (by rw [stepped]) (.inl ?_)
          (.inr ⟨msg, mem, by rw [stepped], h.current (held_of_handoff mem) current⟩)
        rw [stepped]
        exact shorter
    · refine effect_of_gateway ?_ (.inl ?_) (.inl ?_) <;> rw [stepped]
      exact shorter

theorem Safe.peerState_effect (h : m.Safe seen) (index : Nat) (called now : Instant)
    (registered : Bool) : m.Effect seen (.peerState index called now registered) := by
  have stepped : m.step (.peerState index called now registered) =
      m.onPeerState index called now registered := rfl
  unfold Messenger.onPeerState at stepped
  split at stepped
  · refine effect_of_gateway ?_ (.inl ?_) (.inl ?_) <;> rw [stepped]
  · rename_i msg here
    have mem := List.mem_of_getElem? here
    have newest (commits : (msg.observation.isNone || m.isCurrent msg registered) = true) :
        IsNewest seen msg := h.managed (held_of_events mem) commits
    constructor <;> rw [stepped]
    · exact .inl (.refl _)
    · exact .inl (List.eraseIdx_sublist ..)
    · intro node
      rcases m.gateway.timeoutsOf_onPeerState msg called now (m.isCurrent msg registered) node with
        same | ⟨commits, about, written⟩
      · exact .inl same
      · exact .inr (.inr ⟨msg, mem, about, newest commits, written⟩)
    · intro other sent
      rcases Gateway.mem_observations_onPeerState (Gateway.mem_observations.mpr sent) with
        old | ⟨commits, observation, content⟩
      · exact .inl (Gateway.mem_observations.mp old)
      · obtain ⟨o, last, admitted, named, same⟩ := newest commits
        rw [← PeerStateMessage.ident_congr content] at last
        exact .inr ⟨o, last, admitted, named.trans observation.symm, same.trans content.symm⟩
    · intro node
      exact .inl (congrArg (stored · node) (m.gateway.peers_onPeerState ..))

theorem Safe.handle_effect (h : m.Safe seen) (o : Gateway.Observing) (registered : Bool) :
    m.Effect seen (.handle o registered) := by
  have stepped : m.step (.handle o registered) = m.handle o registered := rfl
  have silent (o : Gateway.Observing) (node : NodeId) :
      (m.gateway.handle o).timeoutsOf node = m.gateway.timeoutsOf node :=
    congrArg (List.filter _) (m.gateway.peerTimeouts_handle o)
  unfold Messenger.handle at stepped
  split at stepped
  · rename_i msg handling
    refine effect_of_queues stepped (fun _ => Gateway.mem_observations_handle)
      (fun node => .inl (silent _ node)) fun node => ?_
    rcases m.gateway.stored_handle { o with current := m.isCurrent msg registered } node with
      same | removed | ⟨other, handles, about, commits, written⟩
    · exact .inl same
    · exact .inr (.inl removed)
    · rw [handling] at handles
      cases handles
      exact .inr (.inr ⟨msg, handling, about, h.managed (held_of_handling handling) commits,
        written⟩)
  · rename_i other
    refine effect_of_queues stepped (fun _ => Gateway.mem_observations_handle)
      (fun node => .inl (silent _ node)) fun node => ?_
    rcases m.gateway.stored_handle o node with same | removed | ⟨msg, handling, -⟩
    · exact .inl same
    · exact .inr (.inl removed)
    · exact absurd handling (other msg)

theorem Safe.effect (h : m.Safe seen) (op : MessengerOp) : m.Effect seen op := by
  cases op with
  | datagram context bytes elapsed delay room =>
    have observes := h.observeDiscovery context bytes elapsed delay room
    have stepped : m.step (.datagram context bytes elapsed delay room) =
        (m.observeDiscovery context bytes elapsed delay room).1 := rfl
    refine effect_of_gateway (by rw [stepped, observes.gateway]) ?_ (.inl ?_)
    · refine observes.handoff.imp_left fun same => ?_
      rw [stepped, same]
    · rw [stepped, observes.events]
  | deliver index now registered => exact h.deliver_effect index now registered
  | dropHandoff index =>
    exact effect_of_gateway rfl (.inl (List.eraseIdx_sublist ..)) (.inl (.refl _))
  | peerState index called now registered => exact h.peerState_effect index called now registered
  | dropEvent index =>
    exact effect_of_gateway rfl (.inl (.refl _)) (.inl (List.eraseIdx_sublist ..))
  | byebye node =>
    refine effect_of_queues rfl (fun _ => Gateway.mem_observations_onByebye) (fun other => ?_)
      fun other => .inl (congrArg (stored · other) (m.gateway.peers_onByebye node))
    rcases m.gateway.timeoutsOf_onByebye node other with same | ⟨rfl, ended⟩
    · exact .inl same
    · refine .inr ⟨.inl rfl, ?_⟩
      rw [ended]
      exact List.nil_sublist _
  | prune now =>
    exact effect_of_queues rfl (fun _ => Gateway.mem_observations_prune)
      (fun node => .inr ⟨.inr ⟨now, rfl⟩, m.gateway.timeoutsOf_prune now node⟩)
      fun node => .inl (congrArg (stored · node) (m.gateway.peers_prune now))
  | receive =>
    exact effect_of_queues rfl (fun _ => Gateway.mem_observations_receive)
      (fun node => .inl (congrArg (List.filter _) m.gateway.peerTimeouts_receive))
      fun node => .inl (congrArg (stored · node) m.gateway.peers_receive)
  | handle o registered => exact h.handle_effect o registered
  | abandon =>
    exact effect_of_queues rfl (fun _ => Gateway.mem_observations_abandon)
      (fun node => .inl (congrArg (List.filter _) m.gateway.peerTimeouts_abandon))
      fun node => .inl (congrArg (stored · node) m.gateway.peers_abandon)
  | release id =>
    have stepped : m.step (.release id) = m.release id := rfl
    unfold Messenger.release at stepped
    split at stepped <;>
      exact effect_of_gateway (by rw [stepped]) (.inl (by rw [stepped])) (.inl (by rw [stepped]))

theorem Safe.deliver (h : m.Safe seen) (index : Nat) (now : Instant) (registered : Bool) :
    (m.deliver index now registered).Safe seen := by
  unfold Messenger.deliver
  split
  · exact h
  · rename_i msg here
    have mem := List.mem_of_getElem? here
    have dropped (other : PeerStateMessage)
        (mem : other ∈ m.handoff.eraseIdx index ∨ other ∈ m.events ∨
          other ∈ m.gateway.observations) : other ∈ m.held := by
      rcases mem with mem | mem | mem
      · exact held_of_handoff (List.mem_of_mem_eraseIdx mem)
      · exact held_of_events mem
      · exact held_of_gateway mem
    dsimp only
    split
    · split
      · exact h.queues fun other mem => ⟨other, dropped other mem, rfl, rfl⟩
      · refine h.queues fun other mem' => ⟨other, ?_, rfl, rfl⟩
        rcases mem' with old | new | old
        · exact dropped other (.inl old)
        · rcases List.mem_append.mp new with old | last
          · exact dropped other (.inr (.inl old))
          · rw [List.mem_singleton.mp last]
            exact held_of_handoff mem
        · exact dropped other (.inr (.inr old))
    · exact h.queues fun other mem => ⟨other, dropped other mem, rfl, rfl⟩

theorem Safe.onPeerState (h : m.Safe seen) (index : Nat) (called now : Instant)
    (registered : Bool) : (m.onPeerState index called now registered).Safe seen := by
  unfold Messenger.onPeerState
  split
  · exact h
  · rename_i msg here
    refine h.queues fun other mem => ?_
    rcases mem with old | old | passed
    · exact ⟨other, held_of_handoff old, rfl, rfl⟩
    · exact ⟨other, held_of_events (List.mem_of_mem_eraseIdx old), rfl, rfl⟩
    · rcases Gateway.mem_observations_onPeerState passed with old | ⟨-, same⟩
      · exact ⟨other, held_of_gateway old, rfl, rfl⟩
      · exact ⟨msg, held_of_events (List.mem_of_getElem? here), same⟩

theorem getElem?_release (m : Messenger) (id other : Nat) :
    (m.revisions.modify id fun revision => { revision with live := false })[other]? =
      m.revisions[other]?.map fun revision =>
        if id = other then { revision with live := false } else revision := by
  rw [List.getElem?_modify]
  by_cases same : id = other
  · simp [same]
  · simp [same]

theorem Safe.release (h : m.Safe seen) (id : Nat) : (m.release id).Safe seen := by
  unfold Messenger.release
  split
  · exact h
  · rename_i unheld
    have old {other : Nat} {revision : EventRevision}
        (here : (m.revisions.modify id fun revision => { revision with live := false })[other]? =
          some revision) :
        ∃ before, m.revisions[other]? = some before ∧
          (revision = before ∨ revision = { before with live := false }) := by
      rw [getElem?_release, Option.map_eq_some_iff] at here
      obtain ⟨before, here, rfl⟩ := here
      refine ⟨before, here, ?_⟩
      by_cases same : id = other
      · exact .inr (if_pos same)
      · exact .inl (if_neg same)
    refine ⟨⟨?_, ?_, ?_, h.ordered.owned, ?_⟩, ?_⟩
    · show _ = List.range (m.revisions.modify id _).length
      rw [List.length_modify]
      exact h.ordered.named
    · intro revision mem
      obtain ⟨other, here⟩ := List.mem_iff_getElem?.mp mem
      obtain ⟨before, there, rfl | rfl⟩ := old here
      · exact h.ordered.received revision (List.mem_of_getElem? there)
      · exact h.ordered.received before (List.mem_of_getElem? there)
    · intro o mem other revision named here live current
      obtain ⟨before, there, rfl | rfl⟩ := old here
      · exact h.ordered.current o mem other revision named there live current
      · cases live
    · intro node o other revision last named here
      obtain ⟨before, there, rfl | rfl⟩ := old here
      · exact h.ordered.kept node o other revision last named there
      · exact h.ordered.kept node o other before last named there
    · intro msg mem
      obtain ⟨o, among, other, revision, named, observation, here, live, content⟩ := h.held msg mem
      have ne : id ≠ other := by
        rintro rfl
        exact unheld ⟨msg, mem, observation⟩
      refine ⟨o, among, other, revision, named, observation, ?_, live, content⟩
      show (m.revisions.modify id fun revision => { revision with live := false })[other]? = _
      rw [getElem?_release, here]
      simp [ne]

theorem Safe.gateway (h : m.Safe seen) {gateway : Gateway}
    (old : ∀ msg ∈ gateway.observations, msg ∈ m.gateway.observations) :
    { m with gateway }.Safe seen := by
  refine h.queues fun msg mem => ⟨msg, ?_, rfl, rfl⟩
  rcases mem with mem | mem | mem
  · exact held_of_handoff mem
  · exact held_of_events mem
  · exact held_of_gateway (old msg mem)

theorem Safe.step (h : m.Safe seen) (op : MessengerOp) :
    (m.step op).Safe (seen ++ m.observes op) := by
  have unseen {m' : Messenger} (h : m'.Safe seen) : m'.Safe (seen ++ []) := by
    rwa [List.append_nil]
  have held (msg : PeerStateMessage)
      (mem : msg ∈ m.handoff ∨ msg ∈ m.events ∨ msg ∈ m.gateway.observations) : msg ∈ m.held := by
    rcases mem with mem | mem | mem
    · exact held_of_handoff mem
    · exact held_of_events mem
    · exact held_of_gateway mem
  cases op with
  | datagram context bytes elapsed delay room =>
    exact (h.observeDiscovery context bytes elapsed delay room).safe
  | deliver index now registered => exact unseen (h.deliver index now registered)
  | dropHandoff index =>
    refine unseen (h.queues fun msg mem => ⟨msg, held msg ?_, rfl, rfl⟩)
    exact mem.imp_left List.mem_of_mem_eraseIdx
  | peerState index called now registered =>
    exact unseen (h.onPeerState index called now registered)
  | dropEvent index =>
    refine unseen (h.queues fun msg mem => ⟨msg, held msg ?_, rfl, rfl⟩)
    exact mem.imp_right (Or.imp_left List.mem_of_mem_eraseIdx)
  | byebye node => exact unseen (h.gateway fun _ => Gateway.mem_observations_onByebye)
  | prune now => exact unseen (h.gateway fun _ => Gateway.mem_observations_prune)
  | receive => exact unseen (h.gateway fun _ => Gateway.mem_observations_receive)
  | handle o registered =>
    refine unseen ?_
    show (m.handle o registered).Safe seen
    unfold Messenger.handle
    split <;> exact h.gateway fun _ => Gateway.mem_observations_handle
  | abandon => exact unseen (h.gateway fun _ => Gateway.mem_observations_abandon)
  | release id => exact unseen (h.release id)

theorem safe_run (ops : List MessengerOp) :
    (run step new ops).Safe (logged step observes new ops) :=
  run_logged (P := fun _ _ => True) (fun _ _ op h _ => h.step op) safe_new
    (along_of_forall (fun _ _ => trivial) _ _)

theorem Safe.commits (h : m.Safe seen) {op : MessengerOp} {msg : PeerStateMessage}
    (mem : msg ∈ m.commits op) : IsNewest seen msg := by
  cases op with
  | deliver index now registered =>
    obtain ⟨here, current⟩ := List.mem_filter.mp mem
    have queued := List.mem_of_getElem? (Option.mem_toList.mp here)
    exact h.current (held_of_handoff queued) current
  | peerState index called now registered =>
    obtain ⟨here, current⟩ := List.mem_filter.mp mem
    have queued := List.mem_of_getElem? (Option.mem_toList.mp here)
    exact h.current (held_of_events queued) current
  | handle o registered =>
    obtain ⟨event, handling, commits⟩ := List.mem_filterMap.mp mem
    cases event with
    | observed other =>
      dsimp only at commits
      split at commits
      · rename_i current
        cases commits
        exact h.current (held_of_handling (Option.mem_toList.mp handling)) current
      · cases commits
    | peerLeft node => cases commits
    | peerTimedOut node => cases commits
  | _ => cases mem

theorem Ordered.le_newest (h : m.Ordered seen) {o o' : Observed} (mem : o ∈ seen)
    (last : newest seen o.msg.ident = some o') {i j : Nat} (named : o.revision = some i)
    (named' : o'.revision = some j) : i ≤ j := by
  obtain ⟨earlier, own⟩ := List.getLast?_eq_some_iff.mp last
  have ordered : ((earlier ++ [o']).filterMap Observed.revision).Pairwise (· < ·) := by
    rw [← own]
    refine List.Pairwise.sublist (List.filter_sublist.filterMap _) ?_
    rw [h.named]
    exact List.pairwise_lt_range
  rw [List.filterMap_append, List.pairwise_append] at ordered
  have among : o ∈ earlier ++ [o'] := by
    rw [← own]
    exact List.mem_filter.mpr ⟨mem, decide_eq_true rfl⟩
  rcases List.mem_append.mp among with before | same
  · have memI : i ∈ earlier.filterMap Observed.revision := List.mem_filterMap.mpr ⟨o, before, named⟩
    have memJ : j ∈ [o'].filterMap Observed.revision :=
      List.mem_filterMap.mpr ⟨o', List.mem_singleton.mpr rfl, named'⟩
    exact (ordered.2.2 i memI j memJ).le
  · rw [List.mem_singleton.mp same, named'] at named
    exact (Option.some.inj named).ge

/-- A queued observation is current, as long as its ingress is, just when it is the newest of its
peer. -/
theorem Safe.isCurrent_iff (h : m.Safe seen) {msg : PeerStateMessage} (mem : msg ∈ m.held)
    (registered : Bool) :
    m.isCurrent msg registered = true ↔ registered = true ∧ IsNewest seen msg := by
  constructor
  · intro current
    have ingress : registered = true := by
      simp only [isCurrent, Bool.and_eq_true] at current
      exact current.1
    exact ⟨ingress, h.current mem current⟩
  · rintro ⟨rfl, o, last, -, named, -⟩
    obtain ⟨-, -, id, revision, -, observation, here, -⟩ := h.held msg mem
    have spared := h.ordered.kept _ o id revision last (named.trans observation) here
    simp [isCurrent, revisionOf, observation, here, spared]

theorem committed (ops : List MessengerOp) {msg : PeerStateMessage}
    (mem : msg ∈ logged step commits new ops) :
    ∃ o ∈ logged step observes new ops, o.revision = msg.observation ∧
      o.msg.ident = msg.ident := by
  obtain ⟨before, op, after, rfl, here⟩ := mem_logged.mp mem
  obtain ⟨o, last, -, named, -⟩ := (safe_run before).commits here
  obtain ⟨among, about⟩ := of_newest last
  refine ⟨o, ?_, named, about⟩
  rw [logged_append]
  exact List.mem_append_left _ among

/-- What is known of a peer, from a state in which `o` is its newest datagram to a later one. -/
def Follows (node : NodeId) (o : Observed) (m m' : Messenger) : Prop :=
  stored m'.gateway.peers node = stored m.gateway.peers node ∨
    stored m'.gateway.peers node = none ∨
      o.revision.isSome = true ∧ o.msg.ttl ≠ 0 ∧
        stored m'.gateway.peers node = some o.msg.peerState

theorem Safe.follows_step (h : m.Safe seen) {node : NodeId} {o : Observed}
    (last : newest seen node = some o) (op : MessengerOp) : Follows node o m (m.step op) := by
  rcases (h.effect op).registry node with same | ⟨event, -, -, -, gone⟩ |
    ⟨msg, -, about, ⟨o', last', admitted, -, content⟩, written⟩
  · exact .inl same
  · exact .inr (.inl gone)
  · rw [about, last] at last'
    obtain rfl := Option.some.inj last'
    rw [← PeerStateMessage.ttl_congr content, ← PeerStateMessage.peerState_congr content] at written
    by_cases bye : o.msg.ttl = 0
    · rw [if_pos bye] at written
      exact .inr (.inl written)
    · rw [if_neg bye] at written
      exact .inr (.inr ⟨admitted, bye, written⟩)

theorem newest_quiet {node : NodeId} {later : List Observed}
    (quiet : ∀ o ∈ later, o.msg.ident ≠ node) : newest (seen ++ later) node = newest seen node := by
  unfold newest
  rw [List.filter_append]
  have none : (later.filter fun o => o.msg.ident = node) = [] := by simpa using quiet
  rw [none, List.append_nil]

theorem Safe.follows (h : m.Safe seen) {node : NodeId} {o : Observed} {ops : List MessengerOp}
    (quiet : ∀ later ∈ logged Messenger.step observes m ops, later.msg.ident ≠ node)
    (last : newest seen node = some o) : Follows node o m (run Messenger.step m ops) := by
  induction ops generalizing m seen with
  | nil => exact .inl rfl
  | cons op ops ih =>
    have first := h.follows_step last op
    obtain ⟨here, later⟩ := List.forall_mem_append.mp quiet
    rcases ih (h.step op) later ((newest_quiet here).trans last) with same | rest
    · rcases first with before | gone | written
      · exact .inl (same.trans before)
      · exact .inr (.inl (same.trans gone))
      · exact .inr (.inr ⟨written.1, written.2.1, same.trans written.2.2⟩)
    · exact .inr rest

theorem newest_observation_wins (ops : List MessengerOp) :
    let m := run step new ops
    let seen := logged step observes new ops
    seen.filterMap Observed.revision = List.range m.revisions.length ∧
      (∀ o ∈ seen, ∀ o' ∈ seen, ∀ i j (a b : EventRevision),
        o.revision = some i → o'.revision = some j →
        m.revisions[i]? = some a → m.revisions[j]? = some b → a.live = true → b.live = true →
        a.cancelled = false → b.cancelled = false → o.msg.ident = o'.msg.ident → i = j) ∧
      (∀ msg ∈ m.held, ∀ registered,
        m.isCurrent msg registered = true ↔ registered = true ∧ IsNewest seen msg) ∧
      (∀ op, ∀ msg ∈ m.commits op, IsNewest seen msg) ∧
      (logged step commits new ops).Pairwise (fun a b => a.ident = b.ident →
        ∀ i j, a.observation = some i → b.observation = some j → i ≤ j) ∧
      (∀ op, m.Effect seen op) ∧
      ∀ rest node o, (∀ later ∈ logged step observes m rest, later.msg.ident ≠ node) →
        newest seen node = some o → Follows node o m (run step m rest) := by
  intro m seen
  have safe : m.Safe seen := safe_run ops
  refine ⟨safe.ordered.named, ?_, fun msg mem => safe.isCurrent_iff mem,
    fun op msg => safe.commits, ?_, safe.effect, fun rest node o => safe.follows⟩
  · intro o mem o' mem' i j a b named named' hi hj livea liveb currenta currentb same
    obtain ⟨first, -⟩ := safe.ordered.current o mem i a named hi livea currenta
    obtain ⟨second, -⟩ := safe.ordered.current o' mem' j b named' hj liveb currentb
    rw [same, second] at first
    exact (Option.some.inj first).symm
  · clear safe
    induction ops using List.reverseRecOn with
    | nil => exact .nil
    | append_singleton ops op ih =>
      rw [logged_concat, List.pairwise_append]
      have safe := safe_run ops
      refine ⟨ih, ?_, fun a memA b memB same i j hi hj => ?_⟩
      · refine List.pairwise_of_forall_mem_list fun a memA b memB same i j hi hj => ?_
        obtain ⟨o, last, -, named, -⟩ := safe.commits memA
        obtain ⟨o', last', -, named', -⟩ := safe.commits memB
        rw [same, last'] at last
        cases last
        exact (Option.some.inj (hi.symm.trans (named.symm.trans (named'.trans hj)))).le
      · obtain ⟨o, among, named, about⟩ := committed ops memA
        obtain ⟨o', last, -, named', -⟩ := safe.commits memB
        rw [← same, ← about] at last
        exact safe.ordered.le_newest among last (named.trans hi) (named'.trans hj)

def hears (messageType ttl : UInt8) : MessengerOp :=
  .datagram ⟨⟨Vector.replicate 8 1⟩, 0, true⟩
    (protocolHeader ++ (MessageHeader.mk messageType ttl 0 default).encodeTo) 1 0 true

def passesOn : List MessengerOp :=
  let selfState := ⟨⟨⟨Vector.replicate 8 1⟩, default, default, default⟩, none, none⟩
  [.peerState 0 0 0 true, .receive, .handle ⟨selfState, false, 0, 0, 0, 0⟩ true]

def farewell : List MessengerOp :=
  hears messageTypeAlive 5 :: .deliver 0 0 true :: passesOn ++
    [hears messageTypeAlive 5, hears messageTypeByebye 0]

def overtaken : List MessengerOp := .deliver 1 0 true :: .deliver 0 0 true :: passesOn

theorem newest_observation_wins_bye :
    let m := run step new farewell
    (stored m.gateway.peers default).isSome = true ∧ m.commits (.deliver 0 0 true) = [] ∧
      (m.commits (.deliver 1 0 true)).length = 1 ∧
      stored (run step m overtaken).gateway.peers default = none ∧
      ∃ o, newest (logged step observes new farewell) default = some o ∧ o.msg.ttl = 0 ∧
        Follows default o m (run step m overtaken) := by
  have bye : ((newest (logged step observes new farewell) default).any fun o =>
      o.msg.ttl = 0) = true := by decide
  obtain ⟨o, last, ttl⟩ := (Option.any_eq_true ..).mp bye
  refine ⟨by decide, by decide, by decide, by decide, o, last, by simpa using ttl, ?_⟩
  exact (newest_observation_wins farewell).2.2.2.2.2.2 overtaken default o (by decide) last

end Messenger

end AbletonLink.Discovery
