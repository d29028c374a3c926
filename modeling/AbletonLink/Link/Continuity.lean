import AbletonLink.Link.NodeLaws

/-! What an operation leaves alone: a refused one everything, one from the network the client's
beat, and either the order of starts and stops. -/

namespace AbletonLink.Link

open Library Library.Run

namespace SessionCommit

/-! Refused commits. -/

structure RolledBack (s s' : SessionCommit) : Prop where
  session : s'.session = s.session
  client : s'.client = s.client
  peer : s'.peer = s.peer
  peers : s'.peers = s.peers
  counter : s'.counter = s.counter
  responderId : s'.responderId = s.responderId
  responderForm : s'.responderForm = s.responderForm
  gatewayPeer : s'.gatewayPeer = s.gatewayPeer
  published : s'.published = s.published
  current : s'.current = s.published
  dropped : s.published.matches s.current = false →
    s'.others = s.others.filter fun other =>
      !s.published.matches other && !s.current.matches other
  restored : s.published.matches s.current = true →
    s'.others.length = s.others.length ∧
      s'.others = s.others.map fun other =>
        if s.published.matches other then s.published else other

theorem rolledBack_rejectPendingTiming (s : SessionCommit) :
    s.RolledBack s.rejectPendingTiming := by
  refine ⟨rfl, rfl, rfl, rfl, rfl, rfl, rfl, rfl, rfl, rfl, fun apart => ?_, fun same => ?_⟩
  · unfold rejectPendingTiming
    dsimp only
    rw [if_pos (by simp [apart])]
  · unfold rejectPendingTiming
    dsimp only
    rw [if_neg (by simp [same])]
    exact ⟨List.length_map .., rfl⟩

theorem reset_error {s : SessionCommit} {clock : Clock} {fresh : NodeId} {error : CommitError}
    (h : (s.reset clock fresh).1 = .error error) :
    (s.reset clock fresh).2 = s.rejectPendingTiming := by
  rcases s.reset_cases clock fresh with ⟨_, eq⟩ | ⟨_, _, _, _, _, _, _, -, -, eq⟩
  · rw [eq]
  · rw [eq] at h
    cases h

/-- Refused commits leave the state intact: an edit or a received start/stop that is rejected or
has to wait changes nothing, and a join, refresh or reset that fails only rolls back. -/
theorem refused_leaves_state (s : SessionCommit) :
    (∀ incoming clock origin,
      (∃ error, (s.clientEditFromOrigin incoming clock origin).1 = .rejected error) ∨
        (s.clientEditFromOrigin incoming clock origin).1 = .waitingForPublication →
      (s.clientEditFromOrigin incoming clock origin).2 = s) ∧
    (∀ source advertised incoming clock,
      (∃ error, (s.receivedStartStop source advertised incoming clock).1 = .rejected error) ∨
        (s.receivedStartStop source advertised incoming clock).1 = .waitingForPublication →
      (s.receivedStartStop source advertised incoming clock).2 = s) ∧
    (∀ queued clock fresh error, (s.join queued clock fresh).1 = .error error →
      s.RolledBack (s.join queued clock fresh).2) ∧
    (∀ clock error, (s.refreshTiming clock).1 = .error error →
      s.RolledBack (s.refreshTiming clock).2) ∧
    ∀ clock fresh error, (s.reset clock fresh).1 = .error error →
      s.RolledBack (s.reset clock fresh).2 := by
  refine ⟨?_, ?_, ?_, ?_, ?_⟩
  · intro incoming clock origin refused
    rcases s.clientEdit_cases clock incoming origin with ⟨-, same⟩ | ⟨_, _, _, -, -, eq, -⟩
    · exact same
    · rw [eq] at refused
      simp at refused
  · intro source advertised incoming clock refused
    rcases s.receivedStartStop_cases clock source advertised incoming with
      same | ⟨_, _, _, _, -, -, -, -, -, -, eq⟩
    · exact same
    · rw [eq] at refused
      simp at refused
  · intro queued clock fresh error failed
    rcases s.join_cases clock fresh queued with
      ⟨eq, -⟩ | ⟨-, ⟨-, eq⟩ | ⟨_, eq⟩ | ⟨_, _, _, _, _, -, -, eq⟩⟩
    · rw [eq] at failed
      cases failed
    · rw [eq] at failed ⊢
      rw [reset_error failed]
      exact s.rolledBack_rejectPendingTiming
    · rw [eq]
      exact s.rolledBack_rejectPendingTiming
    · rw [eq] at failed
      cases failed
  · intro clock error failed
    rcases s.refreshTiming_cases clock with
      ⟨eq, -⟩ | ⟨-, -, ⟨_, eq⟩ | ⟨_, _, _, -, eq⟩⟩
    · rw [eq] at failed
      cases failed
    · rw [eq]
      exact s.rolledBack_rejectPendingTiming
    · rw [eq] at failed
      cases failed
  · intro clock fresh error failed
    rw [reset_error failed]
    exact s.rolledBack_rejectPendingTiming

/-! The client's beat. -/

def KeepsBeat (s : SessionCommit) (op : Op) (s' : SessionCommit) : Prop :=
  (∀ clock, op.clock = some clock →
      s'.client.timeline.microbeatsAt clock.now = s.client.timeline.microbeatsAt clock.now) ∧
    (op.clock = none → s'.client = s.client)

theorem keepsBeat_of_client {s s' : SessionCommit} {op : Op} (same : s'.client = s.client) :
    s.KeepsBeat op s' := by
  refine ⟨fun clock _ => ?_, fun _ => same⟩
  rw [same]

theorem keepsBeat_of_timed {s s' : SessionCommit} {op : Op} {clock : Clock}
    (reads : op.clock = some clock)
    (beat : s'.client.timeline.microbeatsAt clock.now =
      s.client.timeline.microbeatsAt clock.now) : s.KeepsBeat op s' := by
  refine ⟨fun other same => ?_, fun none => ?_⟩
  · rw [← Option.some.inj (reads.symm.trans same)]
    exact beat
  · rw [reads] at none
    cases none

theorem Outcome.keepsBeat {s s' : SessionCommit} {op : Op} (outcome : Outcome s op s')
    (network : op.isClientEdit = false) : s.KeepsBeat op s' := by
  cases outcome with
  | moved _ _ => exact keepsBeat_of_client rfl
  | rejected => exact keepsBeat_of_client rfl
  | reset reads _ timed _ => exact keepsBeat_of_timed reads timed.beat
  | timing reads timed _ =>
    refine keepsBeat_of_timed reads ?_
    rw [← timed.beat, client_installTiming]
  | startStop reads _ _ _ timed _ =>
    refine keepsBeat_of_timed reads ?_
    rw [← timed.beat, client_installStartStop]
  | clientStartStop own _ _ _ => exact absurd (own.symm.trans network) (by decide)
  | clientTimeline own _ _ _ _ => exact absurd (own.symm.trans network) (by decide)

/-- Network events never move the client's beat: a join, a refresh, a reset and a received
start/stop state keep it exactly, accepted or not, and along every run only the client's own edits
can make it jump. -/
theorem network_keeps_beat (s : SessionCommit) :
    (∀ queued clock fresh,
      (s.join queued clock fresh).2.client.timeline.microbeatsAt clock.now =
        s.client.timeline.microbeatsAt clock.now) ∧
    (∀ clock,
      (s.refreshTiming clock).2.client.timeline.microbeatsAt clock.now =
        s.client.timeline.microbeatsAt clock.now) ∧
    (∀ clock fresh,
      (s.reset clock fresh).2.client.timeline.microbeatsAt clock.now =
        s.client.timeline.microbeatsAt clock.now) ∧
    (∀ source advertised incoming clock,
      (s.receivedStartStop source advertised incoming clock).2.client.timeline.microbeatsAt
          clock.now =
        s.client.timeline.microbeatsAt clock.now) ∧
    ∀ ops, Along step (fun s op => op.isClientEdit = false → s.KeepsBeat op (s.step op)) s ops := by
  refine ⟨fun queued clock fresh => ?_, fun clock => ?_, fun clock fresh => ?_,
    fun source advertised incoming clock => ?_, fun ops => ?_⟩
  · exact ((s.join_outcome queued clock fresh).keepsBeat rfl).1 clock rfl
  · exact ((s.refreshTiming_outcome clock).keepsBeat rfl).1 clock rfl
  · have outcome : Outcome s (.quiet (.reset clock fresh none)) (s.reset clock fresh).2 :=
      s.reset_outcome fresh rfl fun accepted => ⟨by simp, accepted⟩
    exact (outcome.keepsBeat rfl).1 clock rfl
  · exact ((s.receivedStartStop_outcome source advertised incoming clock).keepsBeat rfl).1 clock rfl
  · exact along_of_forall (fun s op network => (s.step_outcome op).keepsBeat network) s ops

/-! The order of starts and stops. -/

def changesSession (s : SessionCommit) (op : Op) : Prop :=
  s.resets op ∨ (s.step op).peer.sessionId ≠ s.peer.sessionId

theorem client_timestamp_installEdit {s : SessionCommit}
    {edit : Option (Timeline × SessionState × ClientState)}
    {startStop : Option ClientStartStopState} {proposed : Option StartStopState}
    (proposal : Proposal s startStop proposed)
    (kept : ∀ e ∈ edit,
      e.2.2.startStopState.timestamp = s.client.startStopState.timestamp) :
    s.client.startStopState.timestamp ≤
      (s.installEdit edit startStop proposed).client.startStopState.timestamp := by
  cases startStop with
  | some state => exact Int.le_of_lt (proposal.newer state rfl)
  | none =>
    cases edit with
    | none => exact Int.le_refl _
    | some edit => exact Int.le_of_eq (congrArg Duration.nanos (kept edit rfl).symm)

theorem Outcome.client_timestamp {s s' : SessionCommit} {op : Op} (outcome : Outcome s op s') :
    s.client.startStopState.timestamp ≤ s'.client.startStopState.timestamp := by
  cases outcome with
  | moved _ _ => exact Int.le_refl _
  | rejected => exact Int.le_refl _
  | reset _ _ timed _ => exact Int.le_of_eq (congrArg Duration.nanos timed.timestamp.symm)
  | timing _ timed _ =>
    rw [← timed.timestamp, client_installTiming]
    exact Int.le_refl _
  | startStop _ _ _ _ _ observed => exact observed
  | clientStartStop _ _ _ proposal => exact client_timestamp_installEdit proposal (by simp)
  | clientTimeline _ _ proposal _ timed =>
    refine client_timestamp_installEdit proposal ?_
    rintro _ ⟨⟩
    exact timed.timestamp

def Follows (a b : StartStopState) : Prop := b = a ∨ a.timestamp < b.timestamp

theorem Follows.trans {a b c : StartStopState} (h : Follows a b) (h' : Follows b c) :
    Follows a c := by
  rcases h with rfl | h
  · exact h'
  · rcases h' with rfl | h'
    · exact .inr h
    · exact .inr (Int.lt_trans h h')

theorem follows_installEdit {s : SessionCommit}
    {edit : Option (Timeline × SessionState × ClientState)}
    {startStop : Option ClientStartStopState} {proposed : Option StartStopState}
    (proposal : Proposal s startStop proposed)
    (kept : ∀ e ∈ edit, e.2.1.startStopState = s.session.startStopState) :
    Follows s.session.startStopState
      (s.installEdit edit startStop proposed).session.startStopState := by
  cases edit with
  | none =>
    cases startStop with
    | none => exact .inl rfl
    | some state =>
      cases proposed with
      | none => exact .inl rfl
      | some mapped => exact .inr (proposal.later mapped rfl)
  | some edit =>
    cases startStop with
    | none => exact .inl (kept edit rfl)
    | some state =>
      cases proposed with
      | none => exact .inl (kept edit rfl)
      | some mapped => exact .inr (proposal.later mapped rfl)

theorem Outcome.follows {s s' : SessionCommit} {op : Op} (outcome : Outcome s op s')
    (stays : ¬ s.resets op) (member : s'.peer.sessionId = s.peer.sessionId) :
    Follows s.session.startStopState s'.session.startStopState := by
  cases outcome with
  | moved _ _ => exact .inl rfl
  | rejected => exact .inl rfl
  | reset _ resets _ _ => exact absurd resets stays
  | timing _ timed same =>
    refine .inl ?_
    rw [sessionId_installTiming] at member
    rw [session_installTiming, timed.startStop, same member.symm]
  | startStop _ _ _ later timed _ =>
    refine .inr ?_
    rw [session_installStartStop, timed.startStop]
    exact later
  | clientStartStop _ _ _ proposal => exact follows_installEdit proposal (by simp)
  | clientTimeline _ _ proposal _ timed =>
    refine follows_installEdit proposal ?_
    rintro _ ⟨⟩
    exact timed.startStop

theorem follows_step (s : SessionCommit) (op : Op) (stays : ¬ s.changesSession op) :
    Follows s.session.startStopState (s.step op).session.startStopState := by
  obtain ⟨resets, member⟩ := not_or.mp stays
  exact (s.step_outcome op).follows resets (not_not.mp member)

/-- Start/stop order over whole runs: the client's observation order never goes back, and while
the node stays in one session every change of the session's start/stop state is strictly later. -/
theorem startStop_ordered (s : SessionCommit) (before ops : List Op) :
    (run step s before).client.startStopState.timestamp ≤
        (run step s (before ++ ops)).client.startStopState.timestamp ∧
      Along step (fun s op => ¬ s.changesSession op →
        (s.step op).session.startStopState ≠ s.session.startStopState →
          s.session.startStopState.timestamp < (s.step op).session.startStopState.timestamp)
        (run step s before) ops ∧
      (Along step (fun s op => ¬ s.changesSession op) (run step s before) ops →
        (run step s (before ++ ops)).session.startStopState ≠
            (run step s before).session.startStopState →
          (run step s before).session.startStopState.timestamp <
            (run step s (before ++ ops)).session.startStopState.timestamp) := by
  rw [run_append]
  refine ⟨?_, ?_, fun stays changed => ?_⟩
  · exact run_keeps (I := fun later : SessionCommit =>
        (run step s before).client.startStopState.timestamp ≤
          later.client.startStopState.timestamp)
      (fun s op earlier => Int.le_trans earlier (s.step_outcome op).client_timestamp) ops
      (Int.le_refl _)
  · exact along_of_forall
      (fun s op stays changed => (s.follows_step op stays).resolve_left changed) _ ops
  · have follows : Follows (run step s before).session.startStopState
        (run step (run step s before) ops).session.startStopState :=
      run_relates (R := fun a b : SessionCommit =>
          Follows a.session.startStopState b.session.startStopState)
        (fun _ => .inl rfl) Follows.trans follows_step stays
    exact follows.resolve_left changed

end SessionCommit

end AbletonLink.Link
