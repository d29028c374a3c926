import AbletonLink.Library.Register
import AbletonLink.Link.Publication

/-! Nodes of one session, each hearing the same announcements in its own order. -/

namespace AbletonLink.Link

open Library Library.Run Library.Register

def beatKey (t : Timeline) : Int := t.beatOrigin.value.toInt

def startStopKey (s : StartStopState) : Int := s.timestamp.nanos

namespace Sessions

def hear (id : SessionId) (s : Sessions) (timeline : Timeline) : Sessions :=
  (s.trySighting id timeline false).2.2

theorem hear_current {s : Sessions} {id : SessionId} (own : s.current.sessionId = id)
    (timeline : Timeline) :
    (hear id s timeline).current.sessionId = id ∧
      (hear id s timeline).current.timeline =
        keep beatKey s.current.timeline (clampTempo timeline) := by
  unfold hear
  rcases s.trySighting_cases id timeline false with ⟨-, _, h⟩ | ⟨foreign, -⟩ | ⟨foreign, -⟩
  · rw [h, keep]
    rcases updateTimeline_cases s.current timeline s.supply with ⟨older, u⟩ | ⟨newer, u⟩
    · have older : ¬ beatKey s.current.timeline < beatKey (clampTempo timeline) :=
        mt Beats.lt_iff.mpr older
      rw [u, if_neg older]
      exact ⟨own, rfl⟩
    · have newer : beatKey s.current.timeline < beatKey (clampTempo timeline) :=
        Beats.lt_iff.mp newer
      rw [u, if_pos newer]
      exact ⟨own, rfl⟩
  · exact absurd own foreign
  · exact absurd own foreign

theorem run_hear {s : Sessions} {id : SessionId} (own : s.current.sessionId = id)
    (timelines : List Timeline) :
    (run (hear id) s timelines).current.timeline =
      latest beatKey s.current.timeline (timelines.map clampTempo) := by
  induction timelines generalizing s with
  | nil => rfl
  | cons timeline timelines ih =>
    obtain ⟨stays, kept⟩ := hear_current own timeline
    rw [run_cons, ih stays, kept]
    rfl

end Sessions

namespace SessionCommit

def receive (id : SessionId) (s : SessionCommit) (received : StartStopState × Clock) :
    SessionCommit :=
  (s.receivedStartStop id s.session.timeline received.1 received.2).2

theorem updateTimingGuarded_coherent {s : SessionCommit} (h : s.Coherent) (clamped : s.Clamped)
    (incoming : StartStopState) (now : Duration) (sync : Bool) :
    updateTimingGuarded { s.session with startStopState := incoming } s.client
        s.current.timeline s.current.measurement.xForm now sync s.current.sessionId =
      if s.session.timeline.timeOrigin.numMicroseconds.isNone then
        (.error .timelineOriginExhausted, { s.session with startStopState := incoming }, s.client)
      else (.ok none, { s.session with startStopState := incoming },
        { s.client with timelineSessionId := s.current.sessionId }) := by
  have fixed : clampTempo s.current.timeline = s.session.timeline :=
    clamped.current.trans h.timeline.symm
  have same := clamped.session.beq_self
  have tempo : (s.session.timeline.tempo == s.session.timeline.tempo) = true :=
    (Timeline.beq_iff.mp same).1
  unfold updateTimingGuarded
  dsimp only
  rw [fixed]
  simp [bne, same, h.xForm, tempo]

theorem advertises_self {s : SessionCommit} (h : s.session.timeline.Clamped) :
    s.advertises s.session.timeline = true := by
  have fixed : clampTempo s.session.timeline = s.session.timeline := h
  simp [advertises, fixed]

theorem receive_session {s : SessionCommit} (h : s.Coherent) (clamped : s.Clamped)
    {id : SessionId} (own : s.current.sessionId = id) (received : StartStopState × Clock) :
    (receive id s received).session = { s.session with
      startStopState :=
        if s.session.timeline.timeOrigin.numMicroseconds.isNone then s.session.startStopState
        else keep startStopKey s.session.startStopState received.1 } := by
  obtain ⟨incoming, clock⟩ := received
  have settled : ¬ (!s.published.matches s.current || s.peer.sessionId ≠ id ||
      s.current.measurement.xForm != s.session.ghostXForm ||
      s.current.timeline != s.session.timeline) = true := by
    have same : (s.current.timeline == s.session.timeline) = true := by
      rw [h.timeline]
      exact clamped.current.beq_self
    have published : s.published.matches s.current = true := by
      rw [h.published]
      exact Session.matches_iff.mpr rfl
    simp [bne, published, h.peerId.trans own, GhostXForm.beq_symm h.xForm, same]
  unfold receive receivedStartStop
  rw [if_neg (not_not.mpr own.symm), if_neg settled,
    if_neg (by simp [advertises_self clamped.session])]
  subst own
  by_cases older : incoming.timestamp ≤ s.session.startStopState.timestamp
  · have kept : keep startStopKey s.session.startStopState incoming = s.session.startStopState :=
      if_neg (Int.not_lt.mpr older)
    rw [if_pos older]
    simp only [kept, ite_self]
  · have taken : keep startStopKey s.session.startStopState incoming = incoming :=
      if_pos (Int.not_le.mp older)
    simp only [if_neg older, updateTimingGuarded_coherent h clamped, taken]
    by_cases range : s.session.timeline.timeOrigin.numMicroseconds.isNone = true
    · simp only [if_pos range]
    · simp only [if_neg range]
      split <;> rfl

theorem receive_coherent {s : SessionCommit} (h : s.Coherent) (clamped : s.Clamped)
    (id : SessionId) (received : StartStopState × Clock) :
    ((receive id s received).Coherent ∧ (receive id s received).Clamped) ∧
      (receive id s received).current.sessionId = s.current.sessionId := by
  unfold receive
  rcases s.receivedStartStop_cases received.2 id s.session.timeline received.1 with
    same | ⟨_, _, _, observation, settled, rfl, -, -, timed, -, eq⟩
  · rw [same]
    exact ⟨⟨h, clamped⟩, rfl⟩
  · rw [eq]
    exact ⟨coherent_installStartStop clamped timed settled observation, rfl⟩

theorem run_receive {s : SessionCommit} (h : s.Coherent) (clamped : s.Clamped) {id : SessionId}
    (own : s.current.sessionId = id) (received : List (StartStopState × Clock)) :
    (run (receive id) s received).session.startStopState =
      if s.session.timeline.timeOrigin.numMicroseconds.isNone then s.session.startStopState
      else latest startStopKey s.session.startStopState (received.map Prod.fst) := by
  induction received generalizing s with
  | nil => exact (ite_self _).symm
  | cons next received ih =>
    obtain ⟨⟨coherent, clamped'⟩, stays⟩ := receive_coherent h clamped id next
    rw [run_cons, ih coherent clamped' (stays.trans own), receive_session h clamped own next]
    by_cases range : s.session.timeline.timeOrigin.numMicroseconds.isNone = true
    · simp only [if_pos range]
    · simp only [if_neg range]
      rfl

/-- Nodes of one session agree whatever the order: however often and in whatever order they hear the
same announcements, two nodes end on the same beat origin, and on the same timeline if no two
different announcements tie for it; and likewise for start/stop states and their timestamps. -/
theorem receivers_agree (id : SessionId) :
    (∀ a b : Sessions, a.current.sessionId = id → b.current.sessionId = id →
      a.current.timeline = b.current.timeline →
      ∀ xs ys : List Timeline, (∀ t, t ∈ xs ↔ t ∈ ys) →
        (run (Sessions.hear id) a xs).current.timeline.beatOrigin =
            (run (Sessions.hear id) b ys).current.timeline.beatOrigin ∧
          (Untied beatKey a.current.timeline (xs.map clampTempo) →
            (run (Sessions.hear id) a xs).current.timeline =
              (run (Sessions.hear id) b ys).current.timeline)) ∧
    ∀ a b : SessionCommit, a.Coherent → a.Clamped → b.Coherent → b.Clamped →
      a.current.sessionId = id → b.current.sessionId = id →
      a.session.timeline = b.session.timeline →
      a.session.startStopState = b.session.startStopState →
      ∀ xs ys : List (StartStopState × Clock),
        (∀ x, x ∈ xs.map Prod.fst ↔ x ∈ ys.map Prod.fst) →
        (run (receive id) a xs).session.startStopState.timestamp =
            (run (receive id) b ys).session.startStopState.timestamp ∧
          (Untied startStopKey a.session.startStopState (xs.map Prod.fst) →
            (run (receive id) a xs).session.startStopState =
              (run (receive id) b ys).session.startStopState) := by
  constructor
  · intro a b ownA ownB timeline xs ys same
    have members (t : Timeline) : t ∈ xs.map clampTempo ↔ t ∈ ys.map clampTempo := by
      simp only [List.mem_map, same]
    rw [Sessions.run_hear ownA, Sessions.run_hear ownB, ← timeline]
    exact ⟨Beats.ext (key_latest_eq beatKey members), latest_eq beatKey members⟩
  · intro a b coherentA clampedA coherentB clampedB ownA ownB timeline startStop xs ys same
    rw [run_receive coherentA clampedA ownA, run_receive coherentB clampedB ownB, ← timeline,
      ← startStop]
    split
    · exact ⟨rfl, fun _ => rfl⟩
    · exact ⟨Duration.ext (key_latest_eq startStopKey same), latest_eq startStopKey same⟩

theorem receivers_disagree_soloNode :
    let id := soloNode.peer.sessionId
    let slow : Timeline := ⟨⟨90.0⟩, ⟨5000000⟩, .zero⟩
    let fast : Timeline := ⟨⟨100.0⟩, ⟨5000000⟩, .zero⟩
    let start : StartStopState × Clock := (⟨true, ⟨0⟩, .microseconds 1⟩, ⟨.zero, .zero, .zero⟩)
    let stop : StartStopState × Clock := (⟨false, ⟨0⟩, .microseconds 1⟩, ⟨.zero, .zero, .zero⟩)
    (run (Sessions.hear id) soloNode.toSessions [slow, fast]).current.timeline ≠
        (run (Sessions.hear id) soloNode.toSessions [fast, slow]).current.timeline ∧
      (run (receive id) soloNode [start, stop]).session.startStopState ≠
        (run (receive id) soloNode [stop, start]).session.startStopState := by
  decide +kernel

end SessionCommit

end AbletonLink.Link
