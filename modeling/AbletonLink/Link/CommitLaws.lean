import AbletonLink.Link.Commit

namespace AbletonLink.Link

open Library Library.MachineInt

namespace SessionCommit

/-! Fields the write halves install. -/

section Installs

variable (s : SessionCommit)

@[simp] theorem client_installTiming (session : SessionState) (client : ClientState) :
    (s.installTiming session client).client = client := by
  unfold installTiming
  dsimp only
  split <;> rfl

@[simp] theorem session_installTiming (session : SessionState) (client : ClientState) :
    (s.installTiming session client).session = session := by
  unfold installTiming
  dsimp only
  split <;> rfl

@[simp] theorem sessionId_installTiming (session : SessionState) (client : ClientState) :
    (s.installTiming session client).peer.sessionId = s.peer.sessionId := by
  unfold installTiming
  dsimp only
  split <;> rfl

@[simp] theorem client_installStartStop (session : SessionState) (client : ClientState) :
    (s.installStartStop session client).client = client := rfl
@[simp] theorem session_installStartStop (session : SessionState) (client : ClientState) :
    (s.installStartStop session client).session = session := rfl

end Installs

/-- The node as a join sees it: already a member of the current session. -/
def withSession (s : SessionCommit) : SessionCommit :=
  { s with
    peer := { s.peer with
      nodeState := { s.peer.nodeState with sessionId := s.current.sessionId } } }

/-! What each operation can do.  Every result is the state itself, its rollback, or an
installation of an accepted timing update. -/

theorem pending_eq_false (s : SessionCommit) :
    s.pending = false ↔ s.published.matches s.current = true ∧
      s.current.sessionId = s.peer.sessionId ∧
      (s.current.measurement.xForm == s.session.ghostXForm) = true := by
  simp [pending, bne, and_assoc]

/-- An accepted start/stop edit is newer than the client's, and what it installs in the session
is newer than the session's. -/
structure Proposal (s : SessionCommit) (startStop : Option ClientStartStopState)
    (proposed : Option StartStopState) : Prop where
  newer : ∀ state ∈ startStop, s.client.startStopState.timestamp < state.timestamp
  later : ∀ mapped ∈ proposed, s.session.startStopState.timestamp < mapped.timestamp

theorem proposeStartStop_ok {s : SessionCommit} {startStop : Option ClientStartStopState}
    {timeline : Timeline} {proposed : Option StartStopState}
    (h : s.proposeStartStop startStop timeline = .ok proposed) : Proposal s startStop proposed := by
  unfold proposeStartStop at h
  split at h
  · cases h
    exact ⟨by simp, by simp⟩
  · rename_i state
    split at h
    · cases h
    · rename_i fresh
      have newer : s.client.startStopState.timestamp < state.timestamp := Int.lt_of_not_ge fresh
      split at h
      · split at h
        · cases h
        · rename_i successor next
          cases h
          refine ⟨by simpa using newer, ?_⟩
          rintro mapped ⟨⟩
          exact Duration.lt_successor next (le_max_right_i64 _ _)
      · cases h
        exact ⟨by simpa using newer, by simp⟩

section Cases

variable (s : SessionCommit) (clock : Clock) (fresh : NodeId)

theorem reset_cases :
    (∃ error, s.reset clock fresh = (.error error, s.rejectPendingTiming)) ∨
      ∃ changed node timeline xForm hostTime session client,
        Timed { s.session with startStopState := default } s.client timeline xForm clock.now
          ⟨node⟩ session client ∧ timeline.tempo = s.session.timeline.tempo ∧
        s.reset clock fresh =
          (.ok changed, s.installReset node timeline xForm hostTime session client) := by
  unfold reset
  dsimp only
  split
  · exact .inl ⟨_, rfl⟩
  · rename_i changed session client updated
    exact .inr ⟨_, _, _, _, _, _, _, updateTimingGuarded_ok updated, rfl, rfl⟩

theorem resetIfPeerless_cases (expected : Option SessionId) :
    s.resetIfPeerless clock fresh expected = (.ok none, s) ∨
      (∀ id ∈ expected, s.current.sessionId = id ∧ s.peer.sessionId = id ∧
        countSessionPeers id s.peers s.peer.ident = 0) ∧
      s.resetIfPeerless clock fresh expected = s.reset clock fresh := by
  unfold resetIfPeerless
  split
  · split
    · exact .inl rfl
    · rename_i expected peerless
      obtain ⟨current, member, alone⟩ : s.current.sessionId = expected ∧
          s.peer.sessionId = expected ∧
          countSessionPeers expected s.peers s.peer.ident = 0 := by
        simpa only [not_or, not_not] using peerless
      refine .inr ⟨?_, rfl⟩
      rintro _ ⟨⟩
      exact ⟨current, member, alone⟩
  · exact .inr ⟨by simp, rfl⟩

theorem refreshTiming_cases :
    (s.refreshTiming clock = (.ok none, s) ∧
        (s.published.matches s.current = false ∨ s.current.sessionId ≠ s.peer.sessionId)) ∨
      s.published.matches s.current = true ∧ s.current.sessionId = s.peer.sessionId ∧
        ((∃ error, s.refreshTiming clock = (.error error, s.rejectPendingTiming)) ∨
          ∃ changed session client,
            Timed s.session s.client s.current.timeline s.current.measurement.xForm clock.now
              s.current.sessionId session client ∧
            s.refreshTiming clock = (.ok changed, s.installTiming session client)) := by
  unfold refreshTiming
  split
  · rename_i skip
    refine .inl ⟨rfl, ?_⟩
    simpa using skip
  · rename_i proceed
    simp only [Bool.or_eq_true, Bool.not_eq_true', decide_eq_true_eq, not_or, Bool.not_eq_false,
      not_not] at proceed
    refine .inr ⟨proceed.1, proceed.2, ?_⟩
    split
    · rename_i error session client failed
      obtain ⟨rfl, rfl⟩ := updateTimingGuarded_error failed
      exact .inl ⟨_, rfl⟩
    · rename_i changed session client updated
      exact .inr ⟨_, _, _, updateTimingGuarded_ok updated, rfl⟩

theorem join_cases (queued : Session) :
    (s.join queued clock fresh = (.ok none, s) ∧ queued.key.matches s.current = false) ∨
      queued.key.matches s.current = true ∧
        (((s.current.sessionId.node ≠ s.peer.ident ∧
              countSessionPeers s.current.sessionId s.peers s.peer.ident = 0) ∧
            s.join queued clock fresh = s.reset clock fresh) ∨
          (∃ error, s.join queued clock fresh = (.error error, s.rejectPendingTiming)) ∨
          ∃ changed sessionState session client count,
            Timed sessionState s.client s.current.timeline s.current.measurement.xForm clock.now
              s.current.sessionId session client ∧
            (s.peer.sessionId = s.current.sessionId → sessionState = s.session) ∧
            s.join queued clock fresh =
              (.ok changed,
                { s.withSession.installTiming session client with counter := count })) := by
  unfold join
  split
  · rename_i foreign
    exact .inl ⟨rfl, by simpa using foreign⟩
  · rename_i own
    refine .inr ⟨by simpa using own, ?_⟩
    dsimp only
    split
    · rename_i alone
      exact .inl ⟨alone, rfl⟩
    · split
      · exact .inr (.inl ⟨_, rfl⟩)
      · rename_i changed session client updated
        refine .inr (.inr ⟨_, _, _, _, _, updateTimingGuarded_ok updated, ?_, rfl⟩)
        intro same
        rw [if_neg (not_not.mpr same)]

theorem receivedStartStop_cases (source : SessionId) (advertised : Timeline)
    (incoming : StartStopState) :
    (s.receivedStartStop source advertised incoming clock).2 = s ∨
      ∃ changed session client observation,
        s.pending = false ∧ source = s.current.sessionId ∧
        (s.current.timeline == s.session.timeline) = true ∧
        s.session.startStopState.timestamp < incoming.timestamp ∧
        Timed { s.session with startStopState := incoming } s.client s.current.timeline
          s.current.measurement.xForm clock.now source session client ∧
        s.client.startStopState.timestamp ≤ observation.timestamp ∧
        s.receivedStartStop source advertised incoming clock =
          (.complete changed,
            s.installStartStop session { client with startStopState := observation }) := by
  unfold receivedStartStop
  split
  · exact .inl rfl
  split
  · exact .inl rfl
  split
  · exact .inl rfl
  split
  · exact .inl rfl
  split
  · exact .inl rfl
  · rename_i source_eq settled _ newer _ changed session client updated
    have timed := updateTimingGuarded_ok updated
    simp only [Bool.or_eq_true, not_or, bne, Bool.not_eq_true', Bool.not_eq_false,
      decide_eq_true_eq, not_not] at settled source_eq
    obtain ⟨⟨⟨hm, hp⟩, hx⟩, ht⟩ := settled
    have newer : s.session.startStopState.timestamp < incoming.timestamp := Int.lt_of_not_ge newer
    have settled := s.pending_eq_false.mpr ⟨hm, source_eq.symm.trans hp.symm, hx⟩
    dsimp only
    split
    · refine .inr ⟨_, _, client, _, settled, source_eq, ht, newer, timed, ?_, rfl⟩
      show s.client.startStopState.timestamp ≤ clock.observation.max _
      rw [← timed.timestamp]
      exact Duration.le_max_right _ _
    · refine .inr ⟨_, _, client, client.startStopState, settled, source_eq, ht, newer, timed, ?_,
        rfl⟩
      rw [timed.timestamp]
      exact Int.le_refl _

theorem clientEdit_cases (incoming : IncomingClientState) (origin : Option SessionEditOrigin) :
    ((∀ changed, (s.clientEditFromOrigin incoming clock origin).1 ≠ .complete changed) ∧
        (s.clientEditFromOrigin incoming clock origin).2 = s) ∨
      (∃ changed edit proposed,
        s.pending = false ∧ Proposal s incoming.startStopState proposed ∧
        s.clientEditFromOrigin incoming clock origin =
          (.complete changed, s.installEdit edit incoming.startStopState proposed) ∧
        match edit with
        | none => (s.current.timeline == s.session.timeline) = true
        | some (target, session, client) =>
          ∃ timeline, (target = s.current.timeline ∨ target.tempo = (clampTempo timeline).tempo) ∧
            Timed s.session { s.client with timeline := clampTempo timeline } target
              s.session.ghostXForm clock.now s.current.sessionId session client) := by
  unfold clientEditFromOrigin
  split
  · exact .inl ⟨by simp, rfl⟩
  split
  · exact .inl ⟨by simp, rfl⟩
  rename_i settled
  simp only [Bool.or_eq_true, not_or, Bool.and_eq_true, not_and, bne, Bool.not_eq_true',
    Bool.not_eq_true, Bool.not_eq_false] at settled
  obtain ⟨settled, same⟩ := settled
  split
  · rename_i timeline htimeline
    split
    · exact .inl ⟨by simp, rfl⟩
    · rename_i target htarget
      split
      · exact .inl ⟨by simp, rfl⟩
      · rename_i proposed hproposed
        split
        · exact .inl ⟨by simp, rfl⟩
        · rename_i changed session client updated
          exact .inr ⟨_, some (target, session, client), _, settled,
            proposeStartStop_ok hproposed, rfl, timeline,
            updateSessionTimelineFromClient_ok htarget, updateTimingGuarded_ok updated⟩
  · rename_i htimeline
    split
    · exact .inl ⟨by simp, rfl⟩
    · rename_i proposed hproposed
      exact .inr ⟨_, none, _, settled, proposeStartStop_ok hproposed, rfl,
        same (by simp [htimeline])⟩

theorem clientEdit_waiting {s : SessionCommit} {clock : Clock} {incoming : IncomingClientState}
    {origin : Option SessionEditOrigin}
    (h : (s.clientEditFromOrigin incoming clock origin).1 = .waitingForPublication) :
    s.pending = true ∨ (s.current.timeline != s.session.timeline) = true := by
  by_contra settled
  obtain ⟨settled, same⟩ := not_or.mp settled
  have condition : ¬ ((s.pending || (incoming.timeline.isNone &&
      s.current.timeline != s.session.timeline)) = true) := by simp [settled, same]
  unfold clientEditFromOrigin at h
  rw [if_neg condition] at h
  split at h
  · cases h
  split at h
  · split at h
    · cases h
    split at h
    · cases h
    split at h <;> cases h
  · split at h <;> cases h

end Cases

end SessionCommit

end AbletonLink.Link
