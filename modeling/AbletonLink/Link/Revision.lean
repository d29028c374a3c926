import AbletonLink.Library.Optimistic
import AbletonLink.Link.NodeLaws

/-! Edits against a captured client state.  The revision sits on the session, which is cloned,
promoted and rolled back, while the state it guards sits beside it. -/

namespace AbletonLink.Link

open Library Library.Run

/-- The client state is guarded by the revisions of the current and the published session. -/
def clientGuard : Guard SessionCommit ClientState where
  value := SessionCommit.client
  stamps s := {n | s.current.editRevision = some n ∨ s.published.editRevision = some n}
  next s := s.supply.revisions

theorem Timed.client_eq {sessionState session : SessionState} {before client : ClientState}
    {timeline : Timeline} {xForm : GhostXForm} {now : Duration} {id : SessionId}
    (timed : Timed sessionState before timeline xForm now id session client)
    (same : (client == before) = true) : client = before := by
  obtain ⟨timelines, ids, startStop⟩ := ClientState.beq_iff.mp same
  have timelines : client.timeline = before.timeline := by
    cases timed.tempo with
    | inl h => exact h
    | inr h => exact ((clamped_clampTempo timeline).of_tempo h).eq_of_beq_left timelines
  cases client
  cases before
  simp_all

namespace SessionCommit

theorem respects_of_kept {s s' : SessionCommit} (supply : s.supply.Extends s'.supply)
    (client : s'.client = s.client)
    (current : s'.current.editRevision = s.current.editRevision ∨
      s'.current.editRevision = s.published.editRevision ∨
      s.supply.Drawn s'.supply s'.current.editRevision)
    (published : s'.published.editRevision = s.current.editRevision ∨
      s'.published.editRevision = s.published.editRevision) : clientGuard.Respects s s' := by
  refine ⟨supply.revisions, ?_, .inl client⟩
  rintro n (hn | hn)
  · rcases current with h | h | h
    · exact .inl (.inl (h ▸ hn))
    · exact .inl (.inr (h ▸ hn))
    · exact .inr (h n hn)
  · cases published with
    | inl h => exact .inl (.inl (h ▸ hn))
    | inr h => exact .inl (.inr (h ▸ hn))

theorem respects_of_drawn {s s' : SessionCommit} (supply : s.supply.Extends s'.supply)
    (published : s'.published = s'.current)
    (drawn : s.supply.Drawn s'.supply s'.current.editRevision) : clientGuard.Respects s s' := by
  have all : ∀ n ∈ clientGuard.stamps s', s.supply.revisions ≤ n ∧ n < s'.supply.revisions := by
    rintro n (hn | hn)
    · exact drawn n hn
    · exact drawn n (published ▸ hn)
  exact ⟨supply.revisions, fun n hn => .inr (all n hn), .inr fun n hn => (all n hn).1⟩

section Installs

variable (s : SessionCommit)

theorem respects_rejectPendingTiming : clientGuard.Respects s s.rejectPendingTiming :=
  respects_of_kept (.refl _) rfl (.inr (.inl rfl)) (.inr rfl)

theorem respects_installReset (node : NodeId) (timeline : Timeline) (xForm : GhostXForm)
    (hostTime : Duration) (session : SessionState) (client : ClientState) :
    clientGuard.Respects s (s.installReset node timeline xForm hostTime session client) :=
  respects_of_drawn
    (Session.new_extends ⟨node⟩ timeline ⟨xForm, hostTime⟩ s.supply) rfl
    s.supply.newEditRevision_drawn

theorem respects_installTiming {sessionState session : SessionState} {client : ClientState}
    {timeline : Timeline} {xForm : GhostXForm} {now : Duration} {id : SessionId}
    (timed : Timed sessionState s.client timeline xForm now id session client) :
    clientGuard.Respects s (s.installTiming session client) := by
  unfold installTiming
  dsimp only
  split
  · exact respects_of_drawn s.supply.newEditRevision_extends rfl s.supply.newEditRevision_drawn
  · rename_i equal
    have same : client = s.client := timed.client_eq (by simpa [bne] using equal)
    exact respects_of_kept (.refl _) same (.inl rfl) (.inl rfl)

theorem respects_installStartStop (session : SessionState) (client : ClientState) :
    clientGuard.Respects s (s.installStartStop session client) :=
  respects_of_drawn s.supply.newEditRevision_extends rfl s.supply.newEditRevision_drawn

theorem respects_installEdit_none (startStop : Option ClientStartStopState)
    (proposed : Option StartStopState) :
    clientGuard.Respects s (s.installEdit none startStop proposed) := by
  cases startStop with
  | none => exact respects_of_kept (.refl _) rfl (.inl rfl) (.inl rfl)
  | some state =>
    exact respects_of_drawn s.supply.newEditRevision_extends rfl s.supply.newEditRevision_drawn

theorem setTimeline_drawn (x : Session) (timeline : Timeline) {supply between : Supply}
    (grown : supply.Extends between) (drawn : supply.Drawn between x.editRevision) :
    supply.Extends (x.setTimeline timeline between).2 ∧
      supply.Drawn (x.setTimeline timeline between).2
        (x.setTimeline timeline between).1.editRevision := by
  unfold Session.setTimeline
  split
  · exact ⟨grown.trans between.newEditRevision_extends,
      .mono grown between.newEditRevision_drawn⟩
  · exact ⟨grown, drawn⟩

theorem respects_installEdit_some (target : Timeline) (session : SessionState)
    (client : ClientState) (startStop : Option ClientStartStopState)
    (proposed : Option StartStopState) :
    clientGuard.Respects s
      (s.installEdit (some (target, session, client)) startStop proposed) := by
  have drawn := setTimeline_drawn (s.current.invalidateEditOrigin s.supply).1 target
    s.supply.newEditRevision_extends s.supply.newEditRevision_drawn
  cases startStop with
  | none => exact respects_of_drawn drawn.1 rfl drawn.2
  | some state => exact respects_of_drawn drawn.1 rfl drawn.2

theorem Outcome.respects {s s' : SessionCommit} {op : Op} (h : Outcome s op s') :
    clientGuard.Respects s s' := by
  cases h with
  | moved moved _ =>
    exact respects_of_kept moved.supply rfl (moved.revision.imp_right .inr)
      (.inr (congrArg _ moved.published))
  | rejected => exact s.respects_rejectPendingTiming
  | reset _ _ _ _ => exact s.respects_installReset ..
  | timing _ timed _ =>
    have h := s.withSession.respects_installTiming timed
    exact ⟨h.next, h.drawn, h.value⟩
  | startStop _ _ _ _ _ _ => exact s.respects_installStartStop ..
  | clientStartStop _ _ _ _ => exact s.respects_installEdit_none ..
  | clientTimeline _ _ _ _ _ => exact s.respects_installEdit_some ..

theorem respects_step (op : Op) : clientGuard.Respects s (s.step op) :=
  (s.step_outcome op).respects

end Installs

theorem captureClientState_some {s : SessionCommit} {client : ClientState}
    {origin : SessionEditOrigin} (h : s.captureClientState = some (client, origin)) :
    client = s.client ∧ s.current.editRevision = some origin.revision := by
  unfold captureClientState at h
  split at h
  · obtain ⟨o, ho, hpair⟩ := Option.map_eq_some_iff.mp h
    obtain ⟨revision, hrevision, rfl⟩ := Option.map_eq_some_iff.mp ho
    cases hpair
    exact ⟨rfl, hrevision⟩
  · cases h

theorem SessionEditOrigin.revision_of_matches {origin : SessionEditOrigin} {x : Session}
    (h : origin.matches x = true) : x.editRevision = some origin.revision := by
  simp only [SessionEditOrigin.matches, Bool.and_eq_true, decide_eq_true_eq] at h
  exact h.1.1.2.symm

/-- No lost update.  An edit against a captured origin that is not refused for its origin edits
the captured client state; if a step in between changed that state, the edit is refused and
changes nothing. -/
theorem clientEdit_edits_captured {s : SessionCommit} (fresh : clientGuard.Fresh s)
    (before between : List Op) {client : ClientState} {origin : SessionEditOrigin}
    (captured : (run step s before).captureClientState = some (client, origin))
    (incoming : IncomingClientState) (clock : Clock) :
    let now := run step s (before ++ between)
    (origin.matches now.current = true → now.client = client) ∧
      ((now.clientEditFromOrigin incoming clock (some origin)).1 ≠ .rejected .staleClientState →
        now.client = client) ∧
      ∀ earlier op later, between = earlier ++ op :: later →
        (step (run step s (before ++ earlier)) op).client ≠
          (run step s (before ++ earlier)).client →
        now.clientEditFromOrigin incoming clock (some origin) =
          (.rejected .staleClientState, now) := by
  intro now
  obtain ⟨rfl, stamp⟩ := captureClientState_some captured
  have start := Guard.run_fresh respects_step fresh before
  have old : origin.revision < clientGuard.next (run step s before) := start _ (.inl stamp)
  have now_eq : now = run step (run step s before) between := run_append ..
  have refused (foreign : origin.matches now.current = false) :
      now.clientEditFromOrigin incoming clock (some origin) =
        (.rejected .staleClientState, now) := by
    unfold clientEditFromOrigin
    exact if_pos (by simp [foreign])
  have edits : origin.matches now.current = true → now.client = (run step s before).client := by
    intro own
    rw [now_eq] at own ⊢
    exact Guard.value_run respects_step old between
      (.inl (SessionEditOrigin.revision_of_matches own))
  refine ⟨edits, fun accepted => edits ?_, ?_⟩
  · by_contra foreign
    exact accepted (by rw [refused (by simpa using foreign)])
  · rintro earlier op later rfl change
    refine refused (Bool.eq_false_iff.mpr fun own => ?_)
    rw [run_append] at change
    refine Guard.notMem_of_change respects_step old change later ?_
    rw [← now_eq]
    exact .inl (SessionEditOrigin.revision_of_matches own)

theorem fresh_newOnIo (tempo : Tempo) (node : NodeId) (start timestamp : Duration)
    (supply : Supply) : clientGuard.Fresh (newOnIo tempo node start timestamp supply) := by
  rintro n (hn | hn)
  · exact (supply.newEditRevision_drawn n hn).2
  · exact (supply.newEditRevision_drawn n hn).2

theorem clientEdit_edits_captured_soloNode :
    let start : IncomingClientState :=
      { timeline := none
        startStopState := some ⟨true, .zero, .microseconds 1⟩
        timelineTimestamp := .zero }
    let edit : Op := .quiet (.clientEdit start ⟨.zero, .zero, .zero⟩ none)
    ∃ origin, soloNode.captureClientState = some (soloNode.client, origin) ∧
      (step soloNode edit).client ≠ soloNode.client ∧
      (step soloNode edit).clientEditFromOrigin start ⟨.zero, .zero, .zero⟩ (some origin) =
        (.rejected .staleClientState, step soloNode edit) := by
  intro start edit
  have captured : soloNode.captureClientState =
      some (soloNode.client, ⟨⟨soloNode.peer.ident⟩, 1, soloNode.session.timeline,
        soloNode.session.ghostXForm⟩) := by decide
  have change : (step soloNode edit).client ≠ soloNode.client := by decide
  refine ⟨_, captured, change, ?_⟩
  have fresh : clientGuard.Fresh soloNode := fresh_newOnIo _ _ _ _ _
  exact (clientEdit_edits_captured fresh [] [edit] captured start _).2.2 [] edit [] rfl change

end SessionCommit

end AbletonLink.Link
