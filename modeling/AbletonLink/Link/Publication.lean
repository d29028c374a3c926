import AbletonLink.Link.NodeLaws

/-! What a node announces, and when it agrees with the session the node is in.  Between two
publications the published session stands in for the current one. -/

namespace AbletonLink.Link

open Library Library.Run

namespace SessionCommit

structure Announces (s : SessionCommit) (x : Session) : Prop where
  timeline : s.session.timeline = x.timeline
  xForm : (s.session.ghostXForm == x.measurement.xForm) = true
  peerTimeline : s.peer.nodeState.timeline = s.session.timeline
  peerStartStop : s.peer.nodeState.startStopState = s.session.startStopState
  responderId : s.responderId = s.peer.sessionId
  peerId : s.peer.sessionId = x.sessionId
  clientId : s.client.timelineSessionId = x.sessionId
  responderForm : s.responderForm = s.session.ghostXForm
  gateway : ∀ p ∈ s.gatewayPeer, p.nodeState = s.peer.nodeState

structure Coherent (s : SessionCommit) : Prop extends Announces s s.current where
  published : s.published = s.current

structure Clamped (s : SessionCommit) : Prop where
  session : s.session.timeline.Clamped
  published : s.published.timeline.Clamped
  current : s.current.timeline.Clamped
  others : ∀ x ∈ s.others, x.timeline.Clamped

/-- What holds at every moment: announcements belong to the published session. -/
structure Anchored (s : SessionCommit) : Prop extends Announces s s.published, Clamped s

theorem Coherent.anchored {s : SessionCommit} (h : s.Coherent) (clamped : s.Clamped) :
    s.Anchored := by
  refine ⟨?_, clamped⟩
  rw [h.published]
  exact h.toAnnounces

theorem clamped_rejectPendingTiming {s : SessionCommit} (h : s.Clamped) :
    s.rejectPendingTiming.Clamped := by
  refine ⟨h.session, h.published, h.published, fun x hx => ?_⟩
  unfold rejectPendingTiming at hx
  dsimp only at hx
  split at hx
  · exact h.others x (List.mem_of_mem_filter hx)
  · obtain ⟨y, hy, rfl⟩ := List.mem_map.mp hx
    split
    · exact h.published
    · exact h.others y hy

structure Ready (s : SessionCommit) : Prop where
  timeline : s.session.timeline = s.current.timeline
  xForm : (s.session.ghostXForm == s.current.measurement.xForm) = true
  peerId : s.peer.sessionId = s.current.sessionId
  clientId : s.client.timelineSessionId = s.current.sessionId
  current : s.current.timeline.Clamped
  others : ∀ x ∈ s.others, x.timeline.Clamped

section Installs

variable {s : SessionCommit}

theorem Ready.publishDiscovery (h : s.Ready) :
    s.publishDiscovery.Coherent ∧ s.publishDiscovery.Clamped := by
  refine ⟨⟨⟨h.timeline, h.xForm, rfl, rfl, rfl, h.peerId, h.clientId, rfl, ?_⟩, rfl⟩,
    ⟨h.timeline ▸ h.current, h.current, h.current, h.others⟩⟩
  intro p hp
  obtain ⟨p, -, rfl⟩ := Option.map_eq_some_iff.mp hp
  rfl

theorem Ready.invalidateCurrent (h : s.Ready) : s.invalidateCurrent.Ready :=
  ⟨h.timeline, h.xForm, h.peerId, h.clientId, h.current, h.others⟩

theorem clamped_map_editRevision {others : List Session} {key : SessionKey}
    {revision : Option Nat} (h : ∀ x ∈ others, x.timeline.Clamped) :
    ∀ x ∈ others.map fun other =>
        if key.matches other then { other with editRevision := revision } else other,
      x.timeline.Clamped := by
  intro x hx
  obtain ⟨y, hy, rfl⟩ := List.mem_map.mp hx
  split
  · exact h y hy
  · exact h y hy

theorem Ready.invalidateClientCaptures (h : s.Ready) : s.invalidateClientCaptures.Ready :=
  ⟨h.timeline, h.xForm, h.peerId, h.clientId, h.current, clamped_map_editRevision h.others⟩

theorem Ready.editStartStop (h : s.Ready) (key : SessionKey) (state : ClientStartStopState)
    (proposed : Option StartStopState) : (s.editStartStop key state proposed).Ready := by
  cases proposed with
  | none =>
    exact ⟨h.timeline, h.xForm, h.peerId, h.clientId, h.current,
      clamped_map_editRevision h.others⟩
  | some mapped =>
    exact ⟨h.timeline, h.xForm, h.peerId, h.clientId, h.current,
      clamped_map_editRevision h.others⟩

theorem ready_editTimeline (h : s.Clamped) (key : SessionKey) {target : Timeline}
    {session : SessionState} {client client' : ClientState} {now : Duration}
    (clamped : target.Clamped)
    (timed : Timed s.session client target s.session.ghostXForm now s.current.sessionId session
      client') (peerId : s.peer.sessionId = s.current.sessionId)
    (xForm : (s.session.ghostXForm == s.current.measurement.xForm) = true) :
    (s.editTimeline key target session client').Ready := by
  have kept : session.ghostXForm = s.session.ghostXForm := timed.keptXForm.elim id id
  have moved := s.current.timeline_setTimeline s.supply clamped
  refine ⟨(timed.timeline.trans clamped).trans moved.symm, ?_, ?_, ?_, ?_, fun x hx => ?_⟩
  · show (session.ghostXForm == (s.current.setTimeline target s.supply).1.measurement.xForm) = true
    rwa [Session.measurement_setTimeline, kept]
  · exact peerId.trans (s.current.sessionId_setTimeline target s.supply).symm
  · exact timed.sessionId.trans (s.current.sessionId_setTimeline target s.supply).symm
  · exact moved.symm ▸ clamped
  · obtain ⟨y, hy, rfl⟩ := List.mem_map.mp hx
    split
    · exact clamped
    · exact h.others y hy

theorem coherent_installReset (h : s.Anchored) {node : NodeId} {timeline : Timeline}
    {xForm : GhostXForm} {now hostTime : Duration} {session : SessionState} {client : ClientState}
    (timed : Timed { s.session with startStopState := default } s.client timeline xForm now
      ⟨node⟩ session client) (tempo : timeline.tempo = s.session.timeline.tempo) :
    (s.installReset node timeline xForm hostTime session client).Coherent ∧
      (s.installReset node timeline xForm hostTime session client).Clamped := by
  have clamped : timeline.Clamped := h.toClamped.session.of_tempo tempo
  refine Ready.publishDiscovery ⟨timed.timeline.trans clamped, timed.xForm, rfl, timed.sessionId,
    clamped, fun x hx => ?_⟩
  exact absurd hx List.not_mem_nil

theorem coherent_installTiming (h : s.Clamped) {sessionState session : SessionState}
    {client : ClientState} {now : Duration}
    (timed : Timed sessionState s.client s.current.timeline s.current.measurement.xForm now
      s.current.sessionId session client) (peerId : s.peer.sessionId = s.current.sessionId) :
    (s.installTiming session client).Coherent ∧ (s.installTiming session client).Clamped := by
  have ready : Ready { s with session, client } :=
    ⟨timed.timeline.trans h.current, timed.xForm, peerId, timed.sessionId, h.current, h.others⟩
  unfold installTiming
  dsimp only
  split
  · exact ready.invalidateClientCaptures.publishDiscovery
  · exact ready.publishDiscovery

theorem coherent_installStartStop (h : s.Clamped) {sessionState session : SessionState}
    {client : ClientState} {now : Duration}
    (timed : Timed sessionState s.client s.current.timeline s.current.measurement.xForm now
      s.current.sessionId session client) (settled : s.pending = false)
    (observation : ClientStartStopState) :
    (s.installStartStop session { client with startStopState := observation }).Coherent ∧
      (s.installStartStop session { client with startStopState := observation }).Clamped := by
  have peerId := (s.pending_eq_false.mp settled).2.1.symm
  exact Ready.publishDiscovery ⟨timed.timeline.trans h.current, timed.xForm, peerId,
    timed.sessionId, h.current, clamped_map_editRevision h.others⟩

theorem coherent_installEdit_none (h : s.Anchored) (settled : s.pending = false)
    (same : (s.current.timeline == s.session.timeline) = true)
    (startStop : Option ClientStartStopState) (proposed : Option StartStopState) :
    (s.installEdit none startStop proposed).Coherent ∧
      (s.installEdit none startStop proposed).Clamped := by
  obtain ⟨incarnation, peerId, xForm⟩ := s.pending_eq_false.mp settled
  have clientId : s.client.timelineSessionId = s.current.sessionId :=
    h.clientId.trans (congrArg SessionKey.sessionId (Session.matches_iff.mp incarnation))
  have ready : s.Ready :=
    ⟨(h.toClamped.session.eq_of_beq same).symm, GhostXForm.beq_symm xForm, peerId.symm, clientId,
      h.current, h.others⟩
  cases startStop with
  | none => exact ready.publishDiscovery
  | some state =>
    exact (ready.invalidateCurrent.editStartStop _ state proposed).publishDiscovery

theorem coherent_installEdit_some (h : s.Anchored) (settled : s.pending = false)
    {timeline target : Timeline} {session : SessionState} {client : ClientState} {now : Duration}
    (tempo : target = s.current.timeline ∨ target.tempo = (clampTempo timeline).tempo)
    (timed : Timed s.session { s.client with timeline := clampTempo timeline } target
      s.session.ghostXForm now s.current.sessionId session client)
    (startStop : Option ClientStartStopState) (proposed : Option StartStopState) :
    (s.installEdit (some (target, session, client)) startStop proposed).Coherent ∧
      (s.installEdit (some (target, session, client)) startStop proposed).Clamped := by
  obtain ⟨-, peerId, xForm⟩ := s.pending_eq_false.mp settled
  have clamped : target.Clamped := by
    rcases tempo with rfl | same
    · exact h.current
    · exact (clamped_clampTempo timeline).of_tempo same
  have old : s.invalidateCurrent.Clamped :=
    ⟨h.toClamped.session, h.toClamped.published, h.current, h.others⟩
  have ready := ready_editTimeline old s.current.key clamped timed peerId.symm
    (GhostXForm.beq_symm xForm)
  cases startStop with
  | none => exact ready.publishDiscovery
  | some state => exact (ready.editStartStop _ state proposed).publishDiscovery

end Installs

/-! Along a run. -/

theorem coherent_withCounter {s : SessionCommit} (h : s.Coherent ∧ s.Clamped) (counter : Nat) :
    Coherent { s with counter } ∧ Clamped { s with counter } :=
  ⟨⟨⟨h.1.timeline, h.1.xForm, h.1.peerTimeline, h.1.peerStartStop, h.1.responderId, h.1.peerId,
      h.1.clientId, h.1.responderForm, h.1.gateway⟩, h.1.published⟩,
    ⟨h.2.session, h.2.published, h.2.current, h.2.others⟩⟩

theorem coherent_join {s : SessionCommit} (h : s.Anchored) {sessionState session : SessionState}
    {client : ClientState} {now : Duration}
    (timed : Timed sessionState s.client s.current.timeline s.current.measurement.xForm now
      s.current.sessionId session client) (counter : Nat) :
    Coherent { s.withSession.installTiming session client with counter } ∧
      Clamped { s.withSession.installTiming session client with counter } := by
  have clamped : s.withSession.Clamped :=
    ⟨h.toClamped.session, h.toClamped.published, h.current, h.others⟩
  exact coherent_withCounter (coherent_installTiming (s := s.withSession) clamped timed rfl) counter

theorem Anchored.rejectPendingTiming {s : SessionCommit} (h : s.Anchored) :
    s.rejectPendingTiming.Coherent ∧ s.rejectPendingTiming.Clamped :=
  ⟨⟨⟨h.timeline, h.xForm, h.peerTimeline, h.peerStartStop, h.responderId, h.peerId, h.clientId,
    h.responderForm, h.gateway⟩, rfl⟩, clamped_rejectPendingTiming h.toClamped⟩

theorem Anchored.moved {s : SessionCommit} (h : s.Anchored) {sessions : Sessions}
    (moved : s.toSessions.Local sessions) (counter : Nat) (syncEnabled : Bool) :
    Anchored { s with toSessions := sessions, counter, syncEnabled } := by
  have published := moved.published
  have clamped : ∀ x ∈ sessions.current :: sessions.others, x.timeline.Clamped := by
    intro x hx
    rcases moved.timelines x hx with new | ⟨y, hy, same⟩
    · exact new
    · rw [same]
      rcases List.mem_cons.mp hy with rfl | hy
      · exact h.current
      · exact h.others y hy
  refine ⟨⟨?_, ?_, h.peerTimeline, h.peerStartStop, h.responderId, ?_, ?_, h.responderForm,
    h.gateway⟩, ⟨h.toClamped.session, ?_, clamped _ (List.mem_cons_self ..),
      fun x hx => clamped x (List.mem_cons_of_mem _ hx)⟩⟩
  · exact published ▸ h.timeline
  · exact published ▸ h.xForm
  · exact published ▸ h.peerId
  · exact published ▸ h.clientId
  · exact published ▸ h.toClamped.published

theorem Outcome.settles {s s' : SessionCommit} {op : Op} (outcome : Outcome s op s')
    (h : s.Anchored) : (s'.Coherent ∧ s'.Clamped) ∨
      (s'.Anchored ∧ s'.published = s.published ∧ s'.session = s.session ∧
        ∀ q, op = .quiet q → s'.current = s.current) := by
  cases outcome with
  | moved moved quiet => exact .inr ⟨h.moved moved _ _, moved.published, rfl, quiet⟩
  | rejected => exact .inl h.rejectPendingTiming
  | reset _ _ timed tempo => exact .inl (coherent_installReset h timed tempo)
  | timing _ timed _ => exact .inl (coherent_join h timed _)
  | startStop _ settled _ _ timed _ =>
    exact .inl (coherent_installStartStop h.toClamped timed settled _)
  | clientStartStop _ settled same _ =>
    exact .inl (coherent_installEdit_none h settled same ..)
  | clientTimeline _ settled _ tempo timed =>
    exact .inl (coherent_installEdit_some h settled tempo timed ..)

theorem Outcome.anchored {s s' : SessionCommit} {op : Op} (outcome : Outcome s op s')
    (h : s.Anchored) : s'.Anchored := by
  rcases outcome.settles h with settled | ⟨anchored, -⟩
  · exact settled.1.anchored settled.2
  · exact anchored

theorem anchored_run {s : SessionCommit} (h : s.Anchored) (ops : List Op) :
    (run step s ops).Anchored :=
  run_keeps (fun s op => (s.step_outcome op).anchored) ops h

/-- The operations that publish: an edit that completes, a newer start/stop state that is
accepted, a join of the current incarnation, a refresh of the published one, and a reset. -/
def publishes (s : SessionCommit) : Op → Prop
  | .join queued clock fresh =>
    queued.key.matches s.current = true ∧ (s.join queued clock fresh).1.isOk = true
  | .refreshTiming clock =>
    s.published.matches s.current = true ∧ (s.refreshTiming clock).1.isOk = true
  | .quiet (.clientEdit incoming clock origin) =>
    ∃ changed, (s.clientEditFromOrigin incoming clock origin).1 = .complete changed
  | .quiet (.receivedStartStop source advertised incoming clock) =>
    s.session.startStopState.timestamp < incoming.timestamp ∧
      (s.receivedStartStop source advertised incoming clock).2.session.startStopState = incoming
  | .quiet (.reset clock fresh expected) =>
    s.resetIfPeerless clock fresh expected = s.reset clock fresh ∧
      (s.reset clock fresh).1.isOk = true
  | _ => False

theorem coherent_reset {s : SessionCommit} (h : s.Anchored) (clock : Clock) (fresh : NodeId) :
    (s.reset clock fresh).2.Coherent ∧ (s.reset clock fresh).2.Clamped := by
  rcases s.reset_cases clock fresh with ⟨_, eq⟩ | ⟨_, _, _, _, _, _, _, timed, tempo, eq⟩
  · rw [eq]
    exact h.rejectPendingTiming
  · rw [eq]
    exact coherent_installReset h timed tempo

theorem coherent_of_join {s : SessionCommit} (h : s.Anchored) {queued : Session}
    (own : queued.key.matches s.current = true) (clock : Clock) (fresh : NodeId) :
    (s.join queued clock fresh).2.Coherent ∧ (s.join queued clock fresh).2.Clamped := by
  rcases s.join_cases clock fresh queued with
    ⟨-, foreign⟩ | ⟨-, ⟨-, eq⟩ | ⟨_, eq⟩ | ⟨_, _, _, _, _, timed, -, eq⟩⟩
  · exact absurd (own.symm.trans foreign) (by decide)
  · rw [eq]
    exact coherent_reset h clock fresh
  · rw [eq]
    exact h.rejectPendingTiming
  · rw [eq]
    exact coherent_join h timed _

theorem coherent_of_refresh {s : SessionCommit} (h : s.Anchored)
    (own : s.published.matches s.current = true) (clock : Clock) :
    (s.refreshTiming clock).2.Coherent ∧ (s.refreshTiming clock).2.Clamped := by
  -- The published incarnation is the one the node is a member of, so no refresh is skipped.
  have member : s.current.sessionId = s.peer.sessionId :=
    (h.peerId.trans (congrArg SessionKey.sessionId (Session.matches_iff.mp own))).symm
  rcases s.refreshTiming_cases clock with
    ⟨-, foreign | foreign⟩ | ⟨-, -, ⟨_, eq⟩ | ⟨_, _, _, timed, eq⟩⟩
  · exact absurd (own.symm.trans foreign) (by decide)
  · exact absurd member foreign
  · rw [eq]
    exact h.rejectPendingTiming
  · rw [eq]
    exact coherent_installTiming h.toClamped timed member.symm

theorem coherent_of_publishes {s : SessionCommit} (h : s.Anchored) {op : Op}
    (publishes : s.publishes op) : (s.step op).Coherent ∧ (s.step op).Clamped := by
  cases op with
  | join queued clock fresh => exact coherent_of_join h publishes.1 clock fresh
  | refreshTiming clock => exact coherent_of_refresh h publishes.1 clock
  | sighting => exact publishes.elim
  | commitMeasurement => exact publishes.elim
  | quiet op =>
    cases op with
    | clientEdit incoming clock origin =>
      show (s.clientEditFromOrigin incoming clock origin).2.Coherent ∧
        (s.clientEditFromOrigin incoming clock origin).2.Clamped
      obtain ⟨changed, complete⟩ := publishes
      rcases s.clientEdit_cases clock incoming origin with
        ⟨refused, -⟩ | ⟨_, edit, _, settled, -, eq, accepted⟩
      · exact absurd complete (refused changed)
      · rw [eq]
        cases edit with
        | none => exact coherent_installEdit_none h settled accepted ..
        | some edit =>
          obtain ⟨_, tempo, timed⟩ := accepted
          exact coherent_installEdit_some h settled tempo timed ..
    | receivedStartStop source advertised incoming clock =>
      show (s.receivedStartStop source advertised incoming clock).2.Coherent ∧
        (s.receivedStartStop source advertised incoming clock).2.Clamped
      obtain ⟨later, installed⟩ := publishes
      rcases s.receivedStartStop_cases clock source advertised incoming with
        same | ⟨_, _, _, _, settled, rfl, -, -, timed, -, eq⟩
      · rw [same] at installed
        rw [installed] at later
        exact absurd later (Int.lt_irrefl _)
      · rw [eq]
        exact coherent_installStartStop h.toClamped timed settled _
    | reset clock fresh expected =>
      show (s.resetIfPeerless clock fresh expected).2.Coherent ∧
        (s.resetIfPeerless clock fresh expected).2.Clamped
      rw [publishes.1]
      exact coherent_reset h clock fresh
    | _ => exact publishes.elim

/-- Publication coherence.  From a coherent start, whatever sightings, measurements and other
operations come before it, an operation that publishes leaves everything the node announces in
agreement with the session it is in. -/
theorem coherent_after_publication {s : SessionCommit} (start : s.Coherent) (clamped : s.Clamped)
    (ops : List Op) (op : Op) (publishes : (run step s ops).publishes op) :
    (step (run step s ops) op).Coherent ∧
      ((step (run step s ops) op).session.timeline ==
        (step (run step s ops) op).current.timeline) = true := by
  have coherent := coherent_of_publishes (anchored_run (start.anchored clamped) ops) publishes
  refine ⟨coherent.1, ?_⟩
  rw [coherent.1.timeline]
  exact coherent.2.current.beq_self

theorem coherent_newOnIo (tempo : Tempo) (node : NodeId) (start timestamp : Duration)
    (supply : Supply) : (newOnIo tempo node start timestamp supply).Coherent ∧
      (newOnIo tempo node start timestamp supply).Clamped := by
  have timeline := clamped_clampTempo { tempo, beatOrigin := default, timeOrigin := .zero }
  have slope : ((1.0 : Float) == 1.0) = true := by decide
  refine ⟨⟨⟨rfl, GhostXForm.beq_iff.mpr ⟨slope, rfl⟩, rfl, rfl, rfl, rfl, rfl, rfl,
    fun p hp => absurd hp (Option.not_mem_none p)⟩, rfl⟩,
    ⟨timeline, timeline, timeline, fun x hx => ?_⟩⟩
  rw [List.mem_singleton.mp hx]
  exact timeline

theorem coherent_after_publication_soloNode :
    let announced : Timeline := ⟨⟨90.0⟩, ⟨2000000⟩, .zero⟩
    let sighting : Op := .sighting ⟨soloNode.peer.ident⟩ announced false
    let refresh : Op := .refreshTiming ⟨.zero, .zero, .zero⟩
    (run step soloNode [sighting]).current.timeline ≠
        (run step soloNode [sighting]).session.timeline ∧
      (run step soloNode [sighting, refresh]).Coherent := by
  intro announced sighting refresh
  have start := coherent_newOnIo ⟨120.0⟩ soloNode.peer.ident .zero .zero ⟨0, 1⟩
  refine ⟨by decide, (coherent_after_publication start.1 start.2 [sighting] refresh ?_).1⟩
  exact ⟨by decide, by decide +kernel⟩

end SessionCommit

end AbletonLink.Link
