import AbletonLink.Link.Node

namespace AbletonLink.Link

open Library Library.Run

def Op.clock : Op → Option Clock
  | .join _ clock _ => some clock
  | .refreshTiming clock => some clock
  | .sighting .. => none
  | .commitMeasurement .. => none
  | .quiet (.clientEdit _ clock _) => some clock
  | .quiet (.receivedStartStop _ _ _ clock) => some clock
  | .quiet (.reset clock _ _) => some clock
  | .quiet _ => none

def Op.isClientEdit : Op → Bool
  | .quiet (.clientEdit ..) => true
  | _ => false

namespace SessionCommit

def resets (s : SessionCommit) : Op → Prop
  | .join queued clock fresh => queued.key.matches s.current = true ∧
      s.current.sessionId.node ≠ s.peer.ident ∧
      countSessionPeers s.current.sessionId s.peers s.peer.ident = 0 ∧
      ∃ changed, (s.reset clock fresh).1 = .ok changed
  | .quiet (.reset clock fresh expected) =>
    (∀ id ∈ expected, s.current.sessionId = id ∧ s.peer.sessionId = id ∧
      countSessionPeers id s.peers s.peer.ident = 0) ∧
      ∃ changed, (s.reset clock fresh).1 = .ok changed
  | _ => False

/-- What a step can do: move sessions around without publishing, roll back, or install an
accepted update. -/
inductive Outcome (s : SessionCommit) : Op → SessionCommit → Prop
  | moved {op : Op} {sessions : Sessions} {counter : Nat} {syncEnabled : Bool}
      (moved : s.toSessions.Local sessions)
      (quiet : ∀ q, op = .quiet q → sessions.current = s.current) :
      Outcome s op { s with toSessions := sessions, counter, syncEnabled }
  | rejected {op : Op} : Outcome s op s.rejectPendingTiming
  | reset {op : Op} {clock : Clock} {node : NodeId} {timeline : Timeline} {xForm : GhostXForm}
      {hostTime : Duration} {session : SessionState} {client : ClientState}
      (reads : op.clock = some clock) (resets : s.resets op)
      (timed : Timed { s.session with startStopState := default } s.client timeline xForm
        clock.now ⟨node⟩ session client)
      (tempo : timeline.tempo = s.session.timeline.tempo) :
      Outcome s op (s.installReset node timeline xForm hostTime session client)
  | timing {op : Op} {clock : Clock} {sessionState session : SessionState} {client : ClientState}
      {count : Nat} (reads : op.clock = some clock)
      (timed : Timed sessionState s.client s.current.timeline s.current.measurement.xForm
        clock.now s.current.sessionId session client)
      (same : s.peer.sessionId = s.current.sessionId → sessionState = s.session) :
      Outcome s op { s.withSession.installTiming session client with counter := count }
  | startStop {op : Op} {clock : Clock} {incoming : StartStopState} {session : SessionState}
      {client : ClientState} {observation : ClientStartStopState}
      (reads : op.clock = some clock) (settled : s.pending = false)
      (same : (s.current.timeline == s.session.timeline) = true)
      (later : s.session.startStopState.timestamp < incoming.timestamp)
      (timed : Timed { s.session with startStopState := incoming } s.client s.current.timeline
        s.current.measurement.xForm clock.now s.current.sessionId session client)
      (observed : s.client.startStopState.timestamp ≤ observation.timestamp) :
      Outcome s op (s.installStartStop session { client with startStopState := observation })
  | clientStartStop {op : Op} {startStop : Option ClientStartStopState}
      {proposed : Option StartStopState} (own : op.isClientEdit = true)
      (settled : s.pending = false)
      (same : (s.current.timeline == s.session.timeline) = true)
      (proposal : Proposal s startStop proposed) :
      Outcome s op (s.installEdit none startStop proposed)
  | clientTimeline {op : Op} {clock : Clock} {timeline target : Timeline}
      {session : SessionState} {client : ClientState} {startStop : Option ClientStartStopState}
      {proposed : Option StartStopState} (own : op.isClientEdit = true)
      (settled : s.pending = false) (proposal : Proposal s startStop proposed)
      (tempo : target = s.current.timeline ∨ target.tempo = (clampTempo timeline).tempo)
      (timed : Timed s.session { s.client with timeline := clampTempo timeline } target
        s.session.ghostXForm clock.now s.current.sessionId session client) :
      Outcome s op (s.installEdit (some (target, session, client)) startStop proposed)

variable (s : SessionCommit)

theorem Outcome.unchanged {s : SessionCommit} {op : Op} : Outcome s op s :=
  .moved (.refl s.toSessions) fun _ _ => rfl

theorem reset_outcome {op : Op} {clock : Clock} (fresh : NodeId) (reads : op.clock = some clock)
    (resets : (∃ changed, (s.reset clock fresh).1 = .ok changed) → s.resets op) :
    Outcome s op (s.reset clock fresh).2 := by
  rcases s.reset_cases clock fresh with ⟨_, h⟩ | ⟨changed, _, _, _, _, _, _, timed, tempo, h⟩
  · rw [h]
    exact .rejected
  · have takes : s.resets op := resets ⟨changed, by rw [h]⟩
    rw [h]
    exact .reset reads takes timed tempo

theorem join_outcome (queued : Session) (clock : Clock) (fresh : NodeId) :
    Outcome s (.join queued clock fresh) (s.join queued clock fresh).2 := by
  rcases s.join_cases clock fresh queued with
    ⟨h, -⟩ | ⟨own, ⟨alone, h⟩ | ⟨_, h⟩ | ⟨_, _, _, _, _, timed, same, h⟩⟩
  · rw [h]
    exact .unchanged
  · rw [h]
    exact s.reset_outcome fresh rfl fun accepted => ⟨own, alone.1, alone.2, accepted⟩
  · rw [h]
    exact .rejected
  · rw [h]
    exact .timing rfl timed same

theorem withSession_eq (h : s.current.sessionId = s.peer.sessionId) : s.withSession = s := by
  simp only [withSession, h, PeerState.sessionId]

theorem refreshTiming_outcome (clock : Clock) :
    Outcome s (.refreshTiming clock) (s.refreshTiming clock).2 := by
  rcases s.refreshTiming_cases clock with
    ⟨h, -⟩ | ⟨-, member, ⟨_, h⟩ | ⟨_, session, client, timed, h⟩⟩
  · rw [h]
    exact .unchanged
  · rw [h]
    exact .rejected
  · have outcome : Outcome s (.refreshTiming clock)
        { s.withSession.installTiming session client with
          counter := (s.installTiming session client).counter } := .timing rfl timed fun _ => rfl
    rw [s.withSession_eq member] at outcome
    rw [h]
    exact outcome

theorem receivedStartStop_outcome (source : SessionId) (advertised : Timeline)
    (incoming : StartStopState) (clock : Clock) :
    Outcome s (.quiet (.receivedStartStop source advertised incoming clock))
      (s.receivedStartStop source advertised incoming clock).2 := by
  rcases s.receivedStartStop_cases clock source advertised incoming with
    h | ⟨_, _, _, _, settled, rfl, same, later, timed, observed, h⟩
  · rw [h]
    exact .unchanged
  · rw [h]
    exact .startStop rfl settled same later timed observed

theorem clientEdit_outcome (incoming : IncomingClientState) (clock : Clock)
    (origin : Option SessionEditOrigin) :
    Outcome s (.quiet (.clientEdit incoming clock origin))
      (s.clientEditFromOrigin incoming clock origin).2 := by
  rcases s.clientEdit_cases clock incoming origin with
    ⟨-, h⟩ | ⟨_, edit, _, settled, proposal, h, accepted⟩
  · rw [h]
    exact .unchanged
  · rw [h]
    cases edit with
    | none => exact .clientStartStop rfl settled accepted proposal
    | some edit =>
      obtain ⟨_, tempo, timed⟩ := accepted
      exact .clientTimeline rfl settled proposal tempo timed

theorem step_outcome (op : Op) : Outcome s op (s.step op) := by
  cases op with
  | join queued clock fresh => exact s.join_outcome queued clock fresh
  | refreshTiming clock => exact s.refreshTiming_outcome clock
  | sighting id timeline slot =>
    exact .moved (s.toSessions.trySighting_local id timeline slot) fun _ h => Op.noConfusion h
  | commitMeasurement decision now =>
    exact .moved (s.toSessions.commitMeasurement_local decision now) fun _ h => Op.noConfusion h
  | quiet op =>
    cases op with
    | clientEdit incoming clock origin => exact s.clientEdit_outcome incoming clock origin
    | receivedStartStop source advertised incoming clock =>
      exact s.receivedStartStop_outcome source advertised incoming clock
    | reset clock fresh expected =>
      show Outcome s _ (s.resetIfPeerless clock fresh expected).2
      rcases s.resetIfPeerless_cases clock fresh expected with h | ⟨peerless, h⟩
      · rw [h]
        exact .unchanged
      · rw [h]
        exact s.reset_outcome fresh rfl fun accepted => ⟨peerless, accepted⟩
    | decideMeasurement key xForm timestamp now =>
      refine .moved (s.toSessions.decideMeasurement_local key xForm timestamp now) fun _ _ => ?_
      rcases s.toSessions.decideMeasurement_cases key xForm timestamp now with h | ⟨-, _, -, -, h⟩
      · rw [h]
      · rw [h]
    | failedMeasurement key =>
      refine .moved (s.toSessions.handleFailedMeasurement_local key) fun _ _ => ?_
      rcases s.toSessions.handleFailedMeasurement_cases key with h | ⟨-, _, h⟩
      · rw [h]
      · rw [h]
    | admitOwnedRequest key after =>
      refine .moved (s.toSessions.admitOwnedRequest_local key after) fun _ _ => ?_
      cases s.toSessions.admitOwnedRequest_cases key after with
      | inl h => rw [h]
      | inr h => rw [h]
    | observePeers peers =>
      exact .moved (.of_subset rfl rfl (.refl _) (List.filter_subset_self _)) fun _ _ => rfl
    | refreshPeerCount => exact .moved (.refl s.toSessions) fun _ _ => rfl
    | setStartStopSync enabled => exact .moved (.refl s.toSessions) fun _ _ => rfl
    | elsewhere =>
      refine .moved (.of_subset rfl rfl ?_ (List.Subset.refl _)) fun _ _ => rfl
      exact Session.new_extends default default default s.supply

end SessionCommit

end AbletonLink.Link
