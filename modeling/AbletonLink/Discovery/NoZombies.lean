import AbletonLink.Discovery.Gateway
import Mathlib.Data.List.Sort

/-! Every peer in the registry is bound to leave it: the gateway still counts its time, or a
removal of it is on the way behind the last sighting. -/

namespace AbletonLink.Discovery.Gateway

open Link Library.Run

theorem insertTimeout_eq (timeouts : List (Instant × NodeId)) (entry : Instant × NodeId) :
    insertTimeout timeouts entry = timeouts.orderedInsert (fun a b => a.1 ≤ b.1) entry := by
  induction timeouts with
  | nil => rfl
  | cons other timeouts ih =>
    unfold insertTimeout at ih ⊢
    by_cases later : entry.1 ≤ other.1
    · simp [List.findIdx?_cons, later]
    · rw [List.orderedInsert_cons, if_neg later, ← ih]
      cases position : timeouts.findIdx? fun other => entry.1 ≤ other.1 with
      | none => simp [List.findIdx?_cons, later, position]
      | some index => simp [List.findIdx?_cons, later, position]

/-! The last event about a peer. -/

section LastAbout

variable {node : NodeId} {event last : PeerEvent} {events before : List PeerEvent}

theorem lastAbout_concat :
    lastAbout node (events ++ [event]) =
      if event.ident = node then some event else lastAbout node events := by
  simp only [lastAbout, List.findRev?_eq_find?_reverse, List.reverse_append,
    List.reverse_singleton, List.singleton_append, List.find?_cons]
  by_cases about : event.ident = node
  · simp [about]
  · simp [about]

theorem lastAbout_append :
    lastAbout node (before ++ events) = (lastAbout node events).or (lastAbout node before) := by
  simp only [lastAbout, List.findRev?_eq_find?_reverse, List.reverse_append, List.find?_append]

theorem lastAbout_suffix (suffix : events <:+ before) (h : lastAbout node events = some last) :
    lastAbout node before = some last := by
  obtain ⟨older, rfl⟩ := suffix
  rw [lastAbout_append, h, Option.some_or]

theorem lastAbout_cons_of_ne (other : event.ident ≠ node) :
    lastAbout node (event :: events) = lastAbout node events := by
  rw [← List.singleton_append, lastAbout_append, ← List.nil_append [event], lastAbout_concat,
    if_neg other]
  exact Option.or_none

theorem lastAbout_cons_self :
    lastAbout event.ident (event :: events) = (lastAbout event.ident events).or (some event) := by
  rw [← List.singleton_append, lastAbout_append, ← List.nil_append [event], lastAbout_concat,
    if_pos rfl]

theorem RemovalLast.concat_of_ne (h : RemovalLast node events) (other : event.ident ≠ node) :
    RemovalLast node (events ++ [event]) := by
  obtain ⟨last, about, removes⟩ := h
  exact ⟨last, by rw [lastAbout_concat, if_neg other, about], removes⟩

theorem removalLast_concat (removes : event.removes = true) (about : event.ident = node) :
    RemovalLast node (events ++ [event]) := ⟨event, by rw [lastAbout_concat, if_pos about], removes⟩

theorem RemovalLast.of_cons (h : RemovalLast node (event :: events))
    (kept : event.ident ≠ node ∨ event.removes = false) : RemovalLast node events := by
  obtain ⟨last, about, removes⟩ := h
  by_cases same : event.ident = node
  · subst same
    rw [lastAbout_cons_self] at about
    cases tail : lastAbout event.ident events with
    | some later =>
      rw [tail, Option.some_or] at about
      exact ⟨later, tail, Option.some.inj about ▸ removes⟩
    | none =>
      rw [tail, Option.none_or] at about
      cases Option.some.inj about
      rcases kept with other | sighting
      · exact absurd rfl other
      · rw [removes] at sighting
        cases sighting
  · rw [lastAbout_cons_of_ne same] at about
    exact ⟨last, about, removes⟩

end LastAbout

/-- The timeouts are in order, each peer once.  A peer is among them exactly while the last event
sent about it is a sighting; every removal ever sent answers a sighting. -/
structure Bound (g : Gateway) : Prop where
  sorted : g.peerTimeouts.Pairwise fun a b => a.1 ≤ b.1
  nodup : (g.peerTimeouts.map Prod.snd).Nodup
  tracked : ∀ node, g.tracks node = true ↔ SightingLast node g.sent
  flight : g.inFlight <:+ g.sent
  registry : ∀ peer ∈ g.peers,
    g.tracks peer.peerState.ident = true ∨ RemovalLast peer.peerState.ident g.inFlight
  once : ∀ before event after, g.sent = before ++ event :: after → event.removes = true →
    SightingLast event.ident before

theorem tracks_iff {g : Gateway} {node : NodeId} :
    g.tracks node = true ↔ node ∈ g.peerTimeouts.map Prod.snd := by
  simp [tracks]

theorem bound_new : new.Bound where
  sorted := List.Pairwise.nil
  nodup := List.nodup_nil
  tracked := by
    intro node
    simp [tracks_iff, SightingLast, new, lastAbout]
  flight := List.suffix_refl _
  registry := by
    intro peer mem
    simp [new] at mem
  once := by
    intro before event after split
    simp [new] at split

variable {g : Gateway} {node : NodeId} {event : PeerEvent}

theorem inFlight_send : (g.send event).inFlight = g.inFlight ++ [event] := by
  simp [send, inFlight]

theorem Bound.flight_send (h : g.Bound) : (g.send event).inFlight <:+ (g.send event).sent := by
  obtain ⟨older, eq⟩ := h.flight
  refine ⟨older, ?_⟩
  rw [inFlight_send, ← List.append_assoc, eq]
  rfl

theorem Bound.once_concat (h : g.Bound)
    (fresh : event.removes = true → SightingLast event.ident g.sent) (before : List PeerEvent)
    (e : PeerEvent) (after : List PeerEvent)
    (split : g.sent ++ [event] = before ++ e :: after) (removes : e.removes = true) :
    SightingLast e.ident before := by
  rcases List.eq_nil_or_concat after with rfl | ⟨after, last, rfl⟩
  · obtain ⟨rfl, eq⟩ := List.append_inj' split rfl
    cases eq
    exact fresh removes
  · have split' : g.sent ++ [event] = (before ++ e :: after) ++ [last] := by simpa using split
    obtain ⟨eq, -⟩ := List.append_inj' split' rfl
    exact h.once before e after eq removes

theorem Bound.removal (h : g.Bound) (event : PeerEvent) (here : g.tracks event.ident = true)
    (removes : event.removes = true) {timeouts : List (Instant × NodeId)}
    (rest : timeouts.Sublist g.peerTimeouts)
    (others : ∀ node, node ∈ timeouts.map Prod.snd ↔
      node ∈ g.peerTimeouts.map Prod.snd ∧ node ≠ event.ident) :
    ({ g with peerTimeouts := timeouts }.send event).Bound := by
  have tracks (node : NodeId) :
      ({ g with peerTimeouts := timeouts }.send event).tracks node = true ↔
        g.tracks node = true ∧ node ≠ event.ident := by
    rw [tracks_iff, tracks_iff]
    exact others node
  refine ⟨h.sorted.sublist rest, h.nodup.sublist (rest.map _), ?_, ?_, ?_, ?_⟩
  · intro node
    rw [tracks, h.tracked]
    show _ ↔ SightingLast node (g.sent ++ [event])
    unfold SightingLast
    rw [lastAbout_concat]
    by_cases about : event.ident = node
    · simp [about, removes]
    · simp [about, Ne.symm about]
  · exact h.flight_send
  · intro peer mem
    rw [inFlight_send]
    by_cases about : event.ident = peer.peerState.ident
    · exact .inr (removalLast_concat removes about)
    · rcases h.registry peer mem with tracked | removal
      · exact .inl ((tracks _).mpr ⟨tracked, Ne.symm about⟩)
      · exact .inr (removal.concat_of_ne about)
  · exact h.once_concat fun _ => (h.tracked _).mp here

theorem forget_rest (g : Gateway) (node : NodeId) :
    (g.forget node).peerTimeouts.Sublist g.peerTimeouts ∧
      ∀ other, other ∈ (g.forget node).peerTimeouts.map Prod.snd ↔
        other ∈ g.peerTimeouts.map Prod.snd ∧ other ≠ node := by
  refine ⟨List.filter_sublist, fun other => ?_⟩
  simp only [forget, List.mem_map, List.mem_filter, decide_eq_true_eq]
  constructor
  · rintro ⟨entry, ⟨mem, ne⟩, rfl⟩
    exact ⟨⟨entry, mem, rfl⟩, ne⟩
  · rintro ⟨⟨entry, mem, rfl⟩, ne⟩
    exact ⟨entry, ⟨mem, ne⟩, rfl⟩

theorem Bound.left (h : g.Bound) (here : g.tracks node = true) :
    ((g.forget node).send (.peerLeft node)).Bound := by
  obtain ⟨rest, others⟩ := forget_rest g node
  exact h.removal (.peerLeft node) here rfl rest others

theorem Bound.prune (h : g.Bound) (now : Instant) : (g.prune now).Bound := by
  unfold Gateway.prune
  split
  · exact h
  · rename_i time peer timeouts eq
    split
    · have nodup := h.nodup
      rw [eq, List.map_cons, List.nodup_cons] at nodup
      refine h.removal (.peerTimedOut peer) ?_ rfl ?_ ?_
      · rw [tracks_iff, eq]
        exact List.mem_cons_self
      · rw [eq]
        exact List.sublist_cons_self _ _
      · intro other
        rw [eq, List.map_cons, List.mem_cons]
        constructor
        · intro mem
          refine ⟨.inr mem, fun same => nodup.1 ?_⟩
          rw [show other = peer from same] at mem
          exact mem
        · rintro ⟨rfl | mem, ne⟩
          · exact absurd rfl ne
          · exact mem
    · exact h

theorem Bound.sighting (h : g.Bound) (msg : PeerStateMessage) (time : Instant) :
    ({ g with
      peerTimeouts := insertTimeout (g.forget msg.ident).peerTimeouts (time, msg.ident) }.send
        (.observed msg)).Bound := by
  obtain ⟨rest, others⟩ := forget_rest g msg.ident
  rw [insertTimeout_eq]
  generalize (g.forget msg.ident).peerTimeouts = timeouts at rest others ⊢
  have perm := timeouts.perm_orderedInsert (fun a b => a.1 ≤ b.1) (time, msg.ident)
  have absent : msg.ident ∉ timeouts.map Prod.snd := fun mem => ((others _).mp mem).2 rfl
  have ids (node : NodeId) :
      node ∈ (timeouts.orderedInsert (fun a b => a.1 ≤ b.1) (time, msg.ident)).map Prod.snd ↔
        node = msg.ident ∨ node ∈ g.peerTimeouts.map Prod.snd ∧ node ≠ msg.ident := by
    rw [(perm.map Prod.snd).mem_iff, List.map_cons, List.mem_cons, others]
  have : Std.Total fun a b : Instant × NodeId => a.1 ≤ b.1 := ⟨fun a b => Nat.le_total a.1 b.1⟩
  have : IsTrans (Instant × NodeId) fun a b => a.1 ≤ b.1 := ⟨fun _ _ _ => Nat.le_trans⟩
  refine ⟨(h.sorted.sublist rest).orderedInsert _ _, ?_, ?_, h.flight_send, ?_, ?_⟩
  · refine (perm.map Prod.snd).nodup_iff.mpr (List.nodup_cons.mpr ⟨absent, ?_⟩)
    exact h.nodup.sublist (rest.map _)
  · intro node
    rw [tracks_iff]
    refine (ids node).trans ?_
    show _ ↔ SightingLast node (g.sent ++ [.observed msg])
    unfold SightingLast
    rw [lastAbout_concat]
    by_cases about : msg.ident = node
    · simp [about, PeerEvent.ident, PeerEvent.removes]
    · rw [← tracks_iff, h.tracked]
      simp [about, Ne.symm about, PeerEvent.ident, SightingLast]
  · intro peer mem
    rw [inFlight_send, tracks_iff]
    refine (?_ : _ ∨ _).imp_left (ids _).mpr
    by_cases about : msg.ident = peer.peerState.ident
    · exact .inl (.inl about.symm)
    · rcases h.registry peer mem with tracked | removal
      · exact .inl (.inr ⟨tracks_iff.mp tracked, Ne.symm about⟩)
      · exact .inr (removal.concat_of_ne about)
  · exact h.once_concat nofun

theorem Bound.publish (h : g.Bound) (msg : PeerStateMessage) (deadline now : Instant) :
    (g.publish msg deadline now).Bound := by
  unfold Gateway.publish
  split
  · exact h
  · split
    · split
      · rename_i here
        exact h.left here
      · exact h
    · exact h.sighting msg _

theorem Bound.receive (h : g.Bound) : g.receive.Bound := by
  unfold Gateway.receive
  split
  · rename_i event events idle queued
    have same : g.inFlight = event :: events := by simp [inFlight, idle, queued]
    have flight : inFlight { g with handling := some event, peerEvents := events } = g.inFlight :=
      same.symm
    exact ⟨h.sorted, h.nodup, h.tracked, flight ▸ h.flight, flight ▸ h.registry, h.once⟩
  · exact h

/-- The observer is done with the event at hand.  A sighting brings in its own peer at most, and a
removal takes its peer out. -/
theorem Bound.finish (h : g.Bound) (handling : g.handling = some event)
    {peers : List ControllerPeer} (changes : List (List PeerStateChange))
    (effect : ∀ peer ∈ peers, (peer ∈ g.peers ∧
        (event.removes = true → peer.peerState.ident ≠ event.ident)) ∨
      event.removes = false ∧ peer.peerState.ident = event.ident) :
    { g with handling := none, peers, changes }.Bound := by
  have flight : g.inFlight = event :: g.peerEvents := by simp [inFlight, handling]
  refine ⟨h.sorted, h.nodup, h.tracked, ?_, ?_, h.once⟩
  · have suffix := h.flight
    rw [flight] at suffix
    exact (List.suffix_cons event g.peerEvents).trans suffix
  · intro peer mem
    show g.tracks peer.peerState.ident = true ∨ RemovalLast peer.peerState.ident g.peerEvents
    rcases effect peer mem with ⟨old, kept⟩ | ⟨sighting, about⟩
    · have registered := h.registry peer old
      rw [flight] at registered
      refine registered.imp_right fun removal => removal.of_cons ?_
      cases removes : event.removes with
      | false => exact .inr rfl
      | true => exact .inl (kept removes).symm
    · -- The last event in flight about the peer decides: it is this sighting, or one behind it.
      have suffix := h.flight
      rw [flight] at suffix
      obtain ⟨last, lastEq⟩ : ∃ last,
          lastAbout event.ident (event :: g.peerEvents) = some last := by
        rw [lastAbout_cons_self]
        cases lastAbout event.ident g.peerEvents with
        | none => exact ⟨event, rfl⟩
        | some later => exact ⟨later, rfl⟩
      rw [about]
      cases removes : last.removes with
      | true => exact .inr (RemovalLast.of_cons ⟨last, lastEq, removes⟩ (.inr sighting))
      | false => exact .inl ((h.tracked _).mpr ⟨last, lastAbout_suffix suffix lastEq, removes⟩)

theorem Bound.kept (h : g.Bound) (handling : g.handling = some event)
    (sighting : event.removes = false) : { g with handling := none }.Bound := by
  refine h.finish handling g.changes fun peer mem => .inl ⟨mem, ?_⟩
  intro removes
  rw [sighting] at removes
  cases removes

theorem Bound.removed (h : g.Bound) (handling : g.handling = some event) :
    ({ g with handling := none }.report (removePeer event.ident g.peers)).Bound := by
  refine h.finish handling _ fun peer mem => .inl ?_
  obtain ⟨old, ne⟩ := mem_removePeer.mp mem
  exact ⟨old, fun _ => ne⟩

theorem Bound.handle (h : g.Bound) (o : Observing) : (g.handle o).Bound := by
  unfold Gateway.handle
  split
  · exact h
  · rename_i msg handling
    have kept := h.kept handling rfl
    unfold observedPeer
    dsimp only
    split
    · exact kept
    · split
      · split
        · exact kept
        · split
          · refine h.finish handling _ fun peer mem => .inl ⟨(mem_removePeer.mp mem).1, nofun⟩
          · refine h.finish handling _ fun peer mem => ?_
            rcases mem_applyPeer mem with old | rfl
            · exact .inl ⟨old, nofun⟩
            · exact .inr ⟨rfl, rfl⟩
      · exact kept
  · rename_i node handling
    exact h.removed handling
  · rename_i node handling
    exact h.removed handling

theorem Bound.step (h : g.Bound) (op : GatewayOp) : (g.step op).Bound := by
  cases op with
  | peerState msg called now current =>
    show (g.onPeerState msg called now current).Bound
    unfold onPeerState
    dsimp only
    split
    · exact h.publish _ _ _
    · exact h
  | byebye node =>
    show (g.onByebye node).Bound
    unfold onByebye
    split
    · rename_i here
      exact h.left here
    · exact h
  | prune now => exact h.prune now
  | receive => exact h.receive
  | handle o => exact h.handle o
  | abandon =>
    show g.abandon.Bound
    unfold abandon
    split
    · rename_i msg handling
      exact h.kept handling rfl
    · exact h

/-- In every run the timeouts are in order and name each peer once; every registered peer is timed
or has a removal on the way behind its last sighting; once the queue is drained, a peer that was
removed since its last sighting is not registered; and each removal ever sent answers a sighting
that no other removal answers. -/
theorem no_zombie_peers (ops : List GatewayOp) :
    let g := run step new ops
    g.peerTimeouts.Pairwise (fun a b => a.1 ≤ b.1) ∧
      (g.peerTimeouts.map Prod.snd).Nodup ∧
      (∀ peer ∈ g.peers, peer.peerState.ident ∈ g.peerTimeouts.map Prod.snd ∨
        RemovalLast peer.peerState.ident g.inFlight) ∧
      (g.inFlight = [] → ∀ node, RemovalLast node g.sent →
        ∀ peer ∈ g.peers, peer.peerState.ident ≠ node) ∧
      ∀ before event after, g.sent = before ++ event :: after → event.removes = true →
        SightingLast event.ident before := by
  intro g
  have bound : g.Bound := run_keeps (fun _ op h => h.step op) ops bound_new
  refine ⟨bound.sorted, bound.nodup, ?_, ?_, bound.once⟩
  · intro peer mem
    exact (bound.registry peer mem).imp_left tracks_iff.mp
  · rintro drained node ⟨event, last, removes⟩ peer mem rfl
    rcases bound.registry peer mem with tracked | ⟨event', last', -⟩
    · obtain ⟨sighting, last', keeps⟩ := (bound.tracked _).mp tracked
      cases Option.some.inj (last.symm.trans last')
      rw [removes] at keeps
      cases keeps
    · rw [drained] at last'
      cases last'

end AbletonLink.Discovery.Gateway
