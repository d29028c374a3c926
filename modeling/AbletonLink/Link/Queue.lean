import AbletonLink.Link.Publication

/-! The join queue of an enabled node: whatever still separates the published session from the
current one has a queued step that settles it. -/

namespace AbletonLink.Link

open Library Library.Run

namespace Sessions

theorem trySighting_current (s : Sessions) (id : SessionId) (timeline : Timeline) (slot : Bool) :
    (s.trySighting id timeline slot).2.2.current.key = s.current.key ∧
      (s.trySighting id timeline slot).2.2.current.measurement = s.current.measurement ∧
      ((s.trySighting id timeline slot).2.2.current = s.current ∨
        ∃ adopted, (s.trySighting id timeline slot).1 = .complete adopted) := by
  rcases s.trySighting_cases id timeline slot with
    ⟨-, t, h⟩ | ⟨-, _, _, -, h⟩ | ⟨-, -, h | ⟨_, _, h⟩⟩
  · rw [h]
    rcases updateTimeline_cases s.current timeline s.supply with ⟨-, u⟩ | ⟨-, u⟩
    · rw [u]
      exact ⟨rfl, rfl, .inl rfl⟩
    · rw [u]
      exact ⟨rfl, rfl, .inr ⟨t, rfl⟩⟩
  · rw [h]
    exact ⟨rfl, rfl, .inl rfl⟩
  · rw [h]
    exact ⟨rfl, rfl, .inl rfl⟩
  · rw [h]
    exact ⟨rfl, rfl, .inl rfl⟩

end Sessions

namespace Node

def Queued (n : Node) : Prop := ∃ queued ∈ n.joins, queued.key.matches n.commit.current = true

structure Draining (n : Node) : Prop where
  anchored : n.commit.Anchored
  identity : (n.commit.published.matches n.commit.current = true ∧
    (n.commit.current.measurement.xForm == n.commit.session.ghostXForm) = true) ∨ n.Queued
  timeline : n.commit.current.timeline = n.commit.session.timeline ∨ n.Queued ∨ 0 < n.refreshes

theorem draining_of_coherent {n : Node} (h : n.commit.Coherent ∧ n.commit.Clamped) :
    n.Draining := by
  refine ⟨h.1.anchored h.2, .inl ⟨?_, GhostXForm.beq_symm h.1.xForm⟩, .inl h.1.timeline.symm⟩
  rw [h.1.published]
  exact Session.matches_iff.mpr rfl

theorem Draining.of_current {n n' : Node} (h : n.Draining) (anchored : n'.commit.Anchored)
    (published : n'.commit.published = n.commit.published)
    (current : n'.commit.current = n.commit.current)
    (session : n'.commit.session = n.commit.session) (queued : n.Queued → n'.Queued)
    (refreshes : n.refreshes ≤ n'.refreshes) : n'.Draining := by
  refine ⟨anchored, ?_, ?_⟩
  · rw [published, current, session]
    exact h.identity.imp_right queued
  · rw [current, session]
    exact h.timeline.imp_right (Or.imp queued fun more => Nat.lt_of_lt_of_le more refreshes)

theorem Draining.join {n : Node} (h : n.Draining) (clock : Clock) (fresh : NodeId) :
    (n.step (.join clock fresh)).Draining := by
  unfold step
  dsimp only
  split
  · exact h
  · rename_i queued joins hjoins
    by_cases own : queued.key.matches n.commit.current = true
    · exact draining_of_coherent (SessionCommit.coherent_of_join h.anchored own clock fresh)
    · -- A join of another incarnation is dropped; the one that matters is further back.
      have dropped : n.commit.step (.join queued clock fresh) = n.commit := by
        show (n.commit.join queued clock fresh).2 = n.commit
        unfold SessionCommit.join
        rw [if_pos (by simpa using own)]
      rw [dropped]
      refine h.of_current h.anchored rfl rfl rfl ?_ (Nat.le_refl _)
      rintro ⟨q, hq, matched⟩
      rw [hjoins] at hq
      rcases List.mem_cons.mp hq with rfl | hq
      · exact absurd matched own
      · exact ⟨q, hq, matched⟩

theorem Draining.refresh {n : Node} (h : n.Draining) (clock : Clock) :
    (n.step (.refresh clock)).Draining := by
  unfold step
  dsimp only
  split
  · exact h
  · by_cases own : n.commit.published.matches n.commit.current = true
    · exact draining_of_coherent (SessionCommit.coherent_of_refresh h.anchored own clock)
    · -- The refresh leaves a pending promotion to its join, which is queued.
      have skipped : n.commit.step (.refreshTiming clock) = n.commit := by
        show (n.commit.refreshTiming clock).2 = n.commit
        unfold SessionCommit.refreshTiming
        rw [if_pos (by simp [own])]
      have queued : n.Queued := h.identity.resolve_left fun same => own same.1
      rw [skipped]
      exact ⟨h.anchored, .inr queued, .inr (.inl queued)⟩

theorem Draining.announce {n : Node} (h : n.Draining) (id : SessionId) (timeline : Timeline)
    (slot : Bool) : (n.step (.announce id timeline slot)).Draining := by
  have anchored := (n.commit.step_outcome (.sighting id timeline slot)).anchored h.anchored
  have published := (n.commit.toSessions.trySighting_local id timeline slot).published
  obtain ⟨key, measurement, moved⟩ := n.commit.toSessions.trySighting_current id timeline slot
  have queued : n.Queued → (n.step (.announce id timeline slot)).Queued := by
    rintro ⟨q, hq, matched⟩
    exact ⟨q, hq, SessionKey.matches_iff.mpr ((SessionKey.matches_iff.mp matched).trans key.symm)⟩
  rcases moved with same | ⟨adopted, complete⟩
  · refine h.of_current anchored published same rfl queued ?_
    unfold step
    dsimp only
    split
    · exact Nat.le_refl _
    · exact Nat.le_succ _
  · refine ⟨anchored, ?_, .inr (.inr ?_)⟩
    · refine h.identity.imp (fun same => ⟨?_, ?_⟩) queued
      · exact Session.matches_iff.mpr ((congrArg _ published).trans
          ((Session.matches_iff.mp same.1).trans key.symm))
      · have same := same.2
        rw [← measurement] at same
        exact same
    · unfold step
      dsimp only
      rw [complete]
      exact Nat.succ_pos _

theorem Draining.measured {n : Node} (h : n.Draining) (decision : Decision) (now : Duration) :
    (n.step (.measured decision now)).Draining := by
  have anchored := (n.commit.step_outcome (.commitMeasurement decision now)).anchored h.anchored
  rcases n.commit.toSessions.commitMeasurement_current decision now with sent | ⟨none, same⟩
  · have queued : (n.step (.measured decision now)).Queued := by
      refine ⟨(n.commit.toSessions.commitMeasurement decision now).2.current, ?_,
        SessionKey.matches_iff.mpr rfl⟩
      show _ ∈ n.joins ++ (n.commit.toSessions.commitMeasurement decision now).1.toList
      rw [sent]
      exact List.mem_append_right _ (List.mem_singleton.mpr rfl)
    exact ⟨anchored, .inr queued, .inr (.inl queued)⟩
  · have published := (n.commit.toSessions.commitMeasurement_local decision now).published
    refine h.of_current anchored published same rfl ?_ (Nat.le_refl _)
    rintro ⟨q, hq, matched⟩
    refine ⟨q, List.mem_append_left _ hq, ?_⟩
    show q.key.matches (n.commit.toSessions.commitMeasurement decision now).2.current = true
    rw [same]
    exact matched

theorem Draining.quiet {n : Node} (h : n.Draining) (op : Quiet) :
    (n.step (.quiet op)).Draining := by
  have outcome := n.commit.step_outcome (.quiet op)
  show Draining { n with commit := n.commit.step (.quiet op) }
  generalize n.commit.step (.quiet op) = s at outcome
  rcases outcome.settles h.anchored with settled | ⟨anchored, published, session, current⟩
  · exact draining_of_coherent settled
  · refine h.of_current anchored published (current op rfl) session ?_ (Nat.le_refl _)
    rintro ⟨q, hq, matched⟩
    refine ⟨q, hq, ?_⟩
    show q.key.matches s.current = true
    rw [current op rfl]
    exact matched

theorem Draining.step {n : Node} (h : n.Draining) (event : Event) : (n.step event).Draining := by
  cases event with
  | join clock fresh => exact h.join clock fresh
  | refresh clock => exact h.refresh clock
  | announce id timeline slot => exact h.announce id timeline slot
  | measured decision now => exact h.measured decision now
  | quiet op => exact h.quiet op

/-- No stuck publication.  In every reachable state what keeps a client edit waiting has its join
queued or its refresh outstanding, and that step settles the node. -/
theorem publication_not_stuck (start : Node) (coherent : start.commit.Coherent)
    (clamped : start.commit.Clamped) (events : List Event) :
    let n := run Node.step start events
    (n.commit.published.matches n.commit.current = false ∨
        n.commit.peer.sessionId ≠ n.commit.current.sessionId ∨
        (n.commit.current.measurement.xForm != n.commit.session.ghostXForm) = true →
      ∃ queued ∈ n.joins, queued.key.matches n.commit.current = true) ∧
    ((n.commit.current.timeline != n.commit.session.timeline) = true →
      (∃ queued ∈ n.joins, queued.key.matches n.commit.current = true) ∨ 0 < n.refreshes) ∧
    (∀ incoming clock origin,
      (n.commit.clientEditFromOrigin incoming clock origin).1 = .waitingForPublication →
      (∃ queued ∈ n.joins, queued.key.matches n.commit.current = true ∧
          ∀ clock fresh, (n.commit.step (.join queued clock fresh)).Coherent) ∨
        0 < n.refreshes ∧ ∀ clock, (n.commit.step (.refreshTiming clock)).Coherent) := by
  intro n
  have h : n.Draining :=
    run_keeps (fun _ event h => h.step event) events (draining_of_coherent ⟨coherent, clamped⟩)
  have identity : n.commit.published.matches n.commit.current = false ∨
      n.commit.peer.sessionId ≠ n.commit.current.sessionId ∨
      (n.commit.current.measurement.xForm != n.commit.session.ghostXForm) = true → n.Queued := by
    rintro apart
    refine h.identity.resolve_left fun same => ?_
    rcases apart with apart | apart | apart
    · exact absurd (same.1.symm.trans apart) (by decide)
    · exact apart (h.anchored.peerId.trans
        (congrArg SessionKey.sessionId (Session.matches_iff.mp same.1)))
    · simp [bne, same.2] at apart
  have timeline : (n.commit.current.timeline != n.commit.session.timeline) = true →
      n.Queued ∨ 0 < n.refreshes := by
    intro apart
    refine h.timeline.resolve_left fun same => ?_
    rw [same, bne, h.anchored.toClamped.session.beq_self] at apart
    exact absurd apart (by decide)
  refine ⟨identity, timeline, fun incoming clock origin waiting => ?_⟩
  have later : n.Queued ∨ 0 < n.refreshes := by
    cases SessionCommit.clientEdit_waiting waiting with
    | inl pending =>
      simp only [SessionCommit.pending, Bool.or_eq_true, Bool.not_eq_true', decide_eq_true_eq,
        or_assoc] at pending
      exact .inl (identity (pending.imp_right (Or.imp_left Ne.symm)))
    | inr apart => exact timeline apart
  rcases h.identity with ⟨own, -⟩ | ⟨queued, member, own⟩
  · rcases later with ⟨queued, member, matched⟩ | outstanding
    · exact .inl ⟨queued, member, matched, fun clock fresh =>
        (SessionCommit.coherent_of_join h.anchored matched clock fresh).1⟩
    · exact .inr ⟨outstanding, fun clock =>
        (SessionCommit.coherent_of_refresh h.anchored own clock).1⟩
  · exact .inl ⟨queued, member, own, fun clock fresh =>
      (SessionCommit.coherent_of_join h.anchored own clock fresh).1⟩

theorem publication_not_stuck_soloNode :
    let other : NodeId := ⟨#v[66, 66, 66, 66, 66, 66, 66, 66]⟩
    let first : Timeline := ⟨⟨120.0⟩, ⟨0⟩, .zero⟩
    let ahead : SessionMeasurement := ⟨⟨1.0, .microseconds 1000000⟩, .zero⟩
    let events : List Event :=
      [.quiet (.observePeers [soloPeer other first]), .announce ⟨other⟩ first true,
        .measured ⟨⟨⟨other⟩, 1⟩, ahead, false⟩ .zero]
    let n := run Node.step ⟨soloNode, [], 0⟩ events
    n.commit.published.matches n.commit.current = false ∧
      ∃ queued ∈ n.joins, queued.key.matches n.commit.current = true := by
  intro other first ahead events n
  have start := SessionCommit.coherent_newOnIo ⟨120.0⟩ soloNode.peer.ident .zero .zero ⟨0, 1⟩
  have apart : n.commit.published.matches n.commit.current = false := by decide +kernel
  exact ⟨apart, (publication_not_stuck ⟨soloNode, [], 0⟩ start.1 start.2 events).1
    (.inl apart)⟩

end Node

end AbletonLink.Link
