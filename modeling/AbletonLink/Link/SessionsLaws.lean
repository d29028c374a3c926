import AbletonLink.Link.Sessions

namespace AbletonLink.Link

open Library

/-! Identity supply. -/

/-- `revision` was drawn after `supply` and before `next`, or the counter had run out. -/
def Supply.Drawn (supply next : Supply) (revision : Option Nat) : Prop :=
  ∀ n ∈ revision, supply.revisions ≤ n ∧ n < next.revisions

structure Supply.Extends (supply next : Supply) : Prop where
  revisions : supply.revisions ≤ next.revisions
  incarnations : supply.incarnations ≤ next.incarnations

theorem Supply.Extends.refl (supply : Supply) : supply.Extends supply :=
  ⟨Nat.le_refl _, Nat.le_refl _⟩

theorem Supply.Extends.trans {a b c : Supply} (h : a.Extends b) (h' : b.Extends c) :
    a.Extends c :=
  ⟨h.revisions.trans h'.revisions, h.incarnations.trans h'.incarnations⟩

theorem Supply.Drawn.mono {a b c : Supply} {revision : Option Nat} (h : a.Extends b)
    (drawn : b.Drawn c revision) : a.Drawn c revision := fun n hn =>
  ⟨h.revisions.trans (drawn n hn).1, (drawn n hn).2⟩

theorem Supply.newEditRevision_drawn (supply : Supply) :
    supply.Drawn supply.newEditRevision.2 supply.newEditRevision.1 := by
  intro n hn
  by_cases room : supply.revisions + 1 < 2 ^ 64
  · by_cases first : supply.revisions = 0
    · simp [newEditRevision, allocateEditRevision, first] at hn
    · simp only [newEditRevision, allocateEditRevision, if_pos room, if_neg first,
        Option.mem_def, Option.some.injEq] at hn ⊢
      omega
  · simp only [newEditRevision, allocateEditRevision, if_neg room] at hn
    cases hn

theorem Supply.newEditRevision_extends (supply : Supply) :
    supply.Extends supply.newEditRevision.2 := by
  refine ⟨?_, Nat.le_refl _⟩
  by_cases room : supply.revisions + 1 < 2 ^ 64
  · simp only [newEditRevision, allocateEditRevision, if_pos room]
    exact Nat.le_succ _
  · simp only [newEditRevision, allocateEditRevision, if_neg room]
    exact Nat.le_refl _

theorem SessionKey.matches_iff {key : SessionKey} {s : Session} :
    key.matches s = true ↔ key = s.key := by
  cases key
  simp [SessionKey.matches, Session.key]

theorem Session.matches_iff {a b : Session} : a.matches b = true ↔ a.key = b.key := by
  simp [Session.matches, Session.key]

section SetTimeline

variable (x : Session) (timeline : Timeline) (supply : Supply)

@[simp] theorem Session.sessionId_setTimeline :
    (x.setTimeline timeline supply).1.sessionId = x.sessionId := by
  unfold setTimeline
  split <;> rfl

@[simp] theorem Session.incarnation_setTimeline :
    (x.setTimeline timeline supply).1.incarnation = x.incarnation := by
  unfold setTimeline
  split <;> rfl

@[simp] theorem Session.measurement_setTimeline :
    (x.setTimeline timeline supply).1.measurement = x.measurement := by
  unfold setTimeline
  split <;> rfl

theorem Session.timeline_setTimeline {timeline : Timeline} (h : timeline.Clamped) :
    (x.setTimeline timeline supply).1.timeline = timeline := by
  unfold setTimeline
  split
  · rfl
  · rename_i same
    exact h.eq_of_beq (by simpa [bne] using same)

end SetTimeline

theorem updateTimeline_cases (s : Session) (timeline : Timeline) (supply : Supply) :
    (¬ s.timeline.beatOrigin < timeline.beatOrigin ∧
        updateTimeline s timeline supply = (s, supply)) ∨
      s.timeline.beatOrigin < timeline.beatOrigin ∧
        updateTimeline s timeline supply =
          ({ s with timeline := clampTempo timeline, editRevision := supply.newEditRevision.1 },
            supply.newEditRevision.2) := by
  unfold updateTimeline
  dsimp only
  split
  · rename_i newer
    refine .inr ⟨newer, ?_⟩
    have differ : (s.timeline != clampTempo timeline) = true := by
      simp only [bne, Bool.not_eq_true']
      by_contra same
      have eq := (Timeline.beq_iff.mp (by simpa using same)).2.1
      rw [beatOrigin_clampTempo] at eq
      rw [beatOrigin_clampTempo, eq] at newer
      exact absurd (Beats.lt_iff.mp newer) (Int.lt_irrefl _)
    simp [Session.setTimeline, differ, Session.invalidateEditOrigin]
  · rename_i older
    exact .inl ⟨older, rfl⟩

theorem updateTimeline_local (x : Session) (timeline : Timeline) (supply : Supply) :
    supply.Extends (updateTimeline x timeline supply).2 ∧
      ((updateTimeline x timeline supply).1.editRevision = x.editRevision ∨
        supply.Drawn (updateTimeline x timeline supply).2
          (updateTimeline x timeline supply).1.editRevision) ∧
      ((updateTimeline x timeline supply).1.timeline.Clamped ∨
        (updateTimeline x timeline supply).1.timeline = x.timeline) := by
  rcases updateTimeline_cases x timeline supply with ⟨-, h⟩ | ⟨-, h⟩
  · rw [h]
    exact ⟨.refl _, .inl rfl, .inr rfl⟩
  · rw [h]
    exact ⟨supply.newEditRevision_extends, .inr supply.newEditRevision_drawn,
      .inl (clamped_clampTempo _)⟩

theorem Session.new_extends (id : SessionId) (timeline : Timeline)
    (measurement : SessionMeasurement) (supply : Supply) :
    supply.Extends (Session.new id timeline measurement supply).2 :=
  ⟨supply.newEditRevision_extends.revisions, Nat.le_succ _⟩

namespace Sessions

theorem trySighting_cases (s : Sessions) (id : SessionId) (timeline : Timeline) (slot : Bool) :
    (s.current.sessionId = id ∧ ∃ t, (s.trySighting id timeline slot) =
        (.complete t, none,
          { s with
            current := (updateTimeline s.current timeline s.supply).1
            supply := (updateTimeline s.current timeline s.supply).2
            hasJoined := true })) ∨
      (s.current.sessionId ≠ id ∧ ∃ t x, s.others.find? (fun o => o.sessionId = id) = some x ∧
        (s.trySighting id timeline slot) =
          (.complete t, none,
            { s with
              others := replaceFirst (fun o => o.sessionId = id)
                (updateTimeline x timeline s.supply).1 s.others
              supply := (updateTimeline x timeline s.supply).2 })) ∨
      (s.current.sessionId ≠ id ∧ (∀ o ∈ s.others, o.sessionId ≠ id) ∧
        ((s.trySighting id timeline slot).2.2 = s ∨ ∃ t request,
          (s.trySighting id timeline slot) =
            (.complete t, some request,
              { s with
                others := s.others ++ [(Session.new id (clampTempo timeline) default s.supply).1]
                supply := (Session.new id (clampTempo timeline) default s.supply).2 }))) := by
  have twice (x : Session) :
      updateTimeline x (clampTempo timeline) s.supply = updateTimeline x timeline s.supply := by
    simp [updateTimeline]
  unfold trySighting
  dsimp only
  split
  · rename_i own
    exact .inl ⟨own, _, by rw [twice]⟩
  · rename_i foreign
    split
    · rename_i x found
      exact .inr (.inl ⟨foreign, _, x, found, by rw [twice]⟩)
    · rename_i absent
      refine .inr (.inr ⟨foreign, fun o ho => ?_, ?_⟩)
      · simpa using List.find?_eq_none.mp absent o ho
      · split
        · exact .inl rfl
        · split
          · exact .inr ⟨_, _, rfl⟩
          · exact .inl rfl

theorem decideMeasurement_cases (s : Sessions) (key : SessionKey) (xForm : GhostXForm)
    (timestamp now : Duration) :
    (s.decideMeasurement key xForm timestamp now).2 = s ∨
      key.matches s.current = false ∧ ∃ x, s.others.find? key.matches = some x ∧
        x.measurement.timestamp ≤ timestamp ∧
        s.decideMeasurement key xForm timestamp now =
          (none, { s with
            others := replaceFirst key.matches { x with measurement := ⟨xForm, timestamp⟩ }
              s.others }) := by
  unfold decideMeasurement
  dsimp only
  split
  · exact .inl rfl
  · rename_i foreign
    split
    · exact .inl rfl
    · rename_i x found
      split
      · exact .inl rfl
      · rename_i recent
        split
        · exact .inr ⟨by simpa using foreign, x, found, Int.le_of_not_gt recent, rfl⟩
        · exact .inl rfl

def promoted (s : Sessions) (d : Decision) (now : Duration) : Option Session :=
  if d.wasCurrent || d.key.matches s.current then none
  else
    (s.others.find? d.key.matches).filter fun candidate =>
      candidate.measurement.timestamp ≤ d.measurement.timestamp &&
        measurementWins s.current d.key.sessionId d.measurement now

/-- A commit does nothing, re-measures the current session, re-measures a losing candidate, or
promotes a winning one. -/
theorem commitMeasurement_cases (s : Sessions) (d : Decision) (now : Duration) :
    (s.promoted d now = none ∧ (s.commitMeasurement d now = (none, s) ∨
      (d.key.matches s.current = true ∧
        s.current.measurement.timestamp ≤ d.measurement.timestamp ∧ ∃ revision supply,
        s.commitMeasurement d now =
          (some { s.current with editRevision := revision, measurement := d.measurement },
            { s with
              current := { s.current with editRevision := revision, measurement := d.measurement }
              supply }) ∧
        s.supply.Extends supply ∧
        (revision = s.current.editRevision ∨ s.supply.Drawn supply revision)) ∨
      ∃ x, s.others.find? d.key.matches = some x ∧ d.wasCurrent = false ∧
        d.key.matches s.current = false ∧
        x.measurement.timestamp ≤ d.measurement.timestamp ∧
        s.commitMeasurement d now =
          (none, { s with
            others := replaceFirst d.key.matches { x with measurement := d.measurement }
              s.others }))) ∨
      ∃ x, s.promoted d now = some x ∧ s.others.find? d.key.matches = some x ∧
        d.wasCurrent = false ∧ d.key.matches s.current = false ∧
        x.measurement.timestamp ≤ d.measurement.timestamp ∧
        s.commitMeasurement d now =
          (some { x with
              measurement := d.measurement, editRevision := s.supply.newEditRevision.1 },
            { s with
              current := { x with
                measurement := d.measurement, editRevision := s.supply.newEditRevision.1 }
              others := replaceFirst d.key.matches s.current s.others
              supply := s.supply.newEditRevision.2 }) := by
  obtain ⟨key, measurement, wasCurrent⟩ := d
  unfold commitMeasurement promoted
  dsimp only
  cases own : key.matches s.current with
  | true =>
    refine .inl ⟨if_pos (by simp), ?_⟩
    rw [if_neg (by simp), if_pos rfl]
    split
    · exact .inl rfl
    · rename_i recent
      refine .inr (.inl ⟨rfl, Int.le_of_not_gt recent, ?_⟩)
      split
      · exact ⟨_, _, rfl, s.supply.newEditRevision_extends, .inr s.supply.newEditRevision_drawn⟩
      · exact ⟨_, _, rfl, .refl _, .inl rfl⟩
  | false =>
    cases wasCurrent with
    | true => exact .inl ⟨rfl, .inl rfl⟩
    | false =>
      rw [if_neg (by simp), if_neg (by simp), if_neg (by simp)]
      cases found : s.others.find? key.matches with
      | none => exact .inl ⟨rfl, .inl rfl⟩
      | some x =>
        dsimp only
        split
        · rename_i older
          refine .inl ⟨?_, .inl rfl⟩
          have stale : ¬ x.measurement.timestamp ≤ measurement.timestamp := Int.not_le.mpr older
          simp [stale]
        · rename_i recent
          have recent : x.measurement.timestamp ≤ measurement.timestamp := Int.le_of_not_gt recent
          split
          · rename_i wins
            exact .inr ⟨x, by simp [recent, wins], rfl, rfl, rfl, recent, rfl⟩
          · rename_i loses
            refine .inl ⟨by simp [loses], .inr (.inr ?_)⟩
            exact ⟨x, rfl, rfl, rfl, recent, rfl⟩

theorem commitMeasurement_current (s : Sessions) (d : Decision) (now : Duration) :
    (s.commitMeasurement d now).1 = some (s.commitMeasurement d now).2.current ∨
      (s.commitMeasurement d now).1 = none ∧ (s.commitMeasurement d now).2.current = s.current := by
  rcases s.commitMeasurement_cases d now with
    ⟨-, h | ⟨-, -, _, _, h, -, -⟩ | ⟨_, -, -, -, -, h⟩⟩ | ⟨_, -, -, -, -, -, h⟩
  · rw [h]
    exact .inr ⟨rfl, rfl⟩
  · rw [h]
    exact .inl rfl
  · rw [h]
    exact .inr ⟨rfl, rfl⟩
  · rw [h]
    exact .inl rfl

theorem handleFailedMeasurement_cases (s : Sessions) (key : SessionKey) :
    (s.handleFailedMeasurement key).2 = s ∨
      key.matches s.current = false ∧ ∃ peers, s.handleFailedMeasurement key =
        (none, { s with others := s.others.filter fun o => !key.matches o, peers }) := by
  unfold handleFailedMeasurement
  split
  · exact .inl rfl
  · rename_i foreign
    split
    · exact .inr ⟨by simpa using foreign, _, rfl⟩
    · exact .inl rfl

theorem admitOwnedRequest_cases (s : Sessions) (key : SessionKey) (after : Option NodeId) :
    (s.admitOwnedRequest key after).2.2 = s ∨
      (s.admitOwnedRequest key after).2.2 =
        { s with others := s.others.filter fun o => !key.matches o } := by
  unfold admitOwnedRequest
  dsimp only
  split
  · exact .inl rfl
  · split
    · exact .inl rfl
    · split
      · exact .inl rfl
      · exact .inr rfl

/-! What every one of these operations respects. -/

/-- Nothing published changes, a changed current revision is freshly drawn, and timelines are
old ones or clamped. -/
structure Local (s s' : Sessions) : Prop where
  published : s'.published = s.published
  supply : s.supply.Extends s'.supply
  revision : s'.current.editRevision = s.current.editRevision ∨
    s.supply.Drawn s'.supply s'.current.editRevision
  timelines : ∀ x ∈ s'.current :: s'.others,
    x.timeline.Clamped ∨ ∃ y ∈ s.current :: s.others, x.timeline = y.timeline

theorem Local.refl (s : Sessions) : s.Local s :=
  ⟨rfl, .refl _, .inl rfl, fun x hx => .inr ⟨x, hx, rfl⟩⟩

theorem Local.of_subset {s s' : Sessions} (published : s'.published = s.published)
    (current : s'.current = s.current) (supply : s.supply.Extends s'.supply)
    (others : s'.others ⊆ s.others) : s.Local s' := by
  refine ⟨published, supply, .inl (congrArg _ current), fun x hx => .inr ⟨x, ?_, rfl⟩⟩
  rcases List.mem_cons.mp hx with rfl | hx
  · exact List.mem_cons.mpr (.inl current)
  · exact List.mem_cons_of_mem _ (others hx)

theorem trySighting_local (s : Sessions) (id : SessionId) (timeline : Timeline) (slot : Bool) :
    s.Local (s.trySighting id timeline slot).2.2 := by
  rcases s.trySighting_cases id timeline slot with
    ⟨-, _, h⟩ | ⟨-, _, x, found, h⟩ | ⟨-, -, h | ⟨_, _, h⟩⟩
  · obtain ⟨supply, revision, kept⟩ := updateTimeline_local s.current timeline s.supply
    rw [h]
    refine ⟨rfl, supply, revision, fun y hy => ?_⟩
    rcases List.mem_cons.mp hy with rfl | hy
    · exact kept.imp_right fun eq => ⟨s.current, List.mem_cons_self .., eq⟩
    · exact .inr ⟨y, List.mem_cons_of_mem _ hy, rfl⟩
  · obtain ⟨supply, -, kept⟩ := updateTimeline_local x timeline s.supply
    rw [h]
    refine ⟨rfl, supply, .inl rfl, fun y hy => ?_⟩
    rcases List.mem_cons.mp hy with rfl | hy
    · exact .inr ⟨s.current, List.mem_cons_self .., rfl⟩
    · rcases mem_replaceFirst found hy with rfl | hy
      · exact kept.imp_right fun eq =>
          ⟨x, List.mem_cons_of_mem _ (List.mem_of_find?_eq_some found), eq⟩
      · exact .inr ⟨y, List.mem_cons_of_mem _ hy, rfl⟩
  · rw [h]
    exact .refl s
  · rw [h]
    refine ⟨rfl, Session.new_extends id (clampTempo timeline) default _, .inl rfl, fun y hy => ?_⟩
    rcases List.mem_cons.mp hy with rfl | hy
    · exact .inr ⟨s.current, List.mem_cons_self .., rfl⟩
    · cases List.mem_append.mp hy with
      | inl hy => exact .inr ⟨y, List.mem_cons_of_mem _ hy, rfl⟩
      | inr hy =>
        rw [List.mem_singleton.mp hy]
        exact .inl (clamped_clampTempo _)

theorem Local.of_replace {s : Sessions} {p : Session → Bool} {x y : Session}
    (found : s.others.find? p = some x) (same : y.timeline = x.timeline) :
    s.Local { s with others := replaceFirst p y s.others } := by
  refine ⟨rfl, .refl _, .inl rfl, fun z hz => .inr ?_⟩
  rcases List.mem_cons.mp hz with rfl | hz
  · exact ⟨s.current, List.mem_cons_self .., rfl⟩
  · rcases mem_replaceFirst found hz with rfl | hz
    · exact ⟨x, List.mem_cons_of_mem _ (List.mem_of_find?_eq_some found), same⟩
    · exact ⟨z, List.mem_cons_of_mem _ hz, rfl⟩

theorem decideMeasurement_local (s : Sessions) (key : SessionKey) (xForm : GhostXForm)
    (timestamp now : Duration) : s.Local (s.decideMeasurement key xForm timestamp now).2 := by
  rcases s.decideMeasurement_cases key xForm timestamp now with h | ⟨-, x, found, -, h⟩
  · rw [h]
    exact .refl s
  · rw [h]
    exact .of_replace found rfl

theorem commitMeasurement_local (s : Sessions) (d : Decision) (now : Duration) :
    s.Local (s.commitMeasurement d now).2 := by
  rcases s.commitMeasurement_cases d now with
    ⟨-, h | ⟨-, -, revision, supply, h, grown, drawn⟩ | ⟨x, found, -, -, -, h⟩⟩ |
      ⟨x, -, found, -, -, -, h⟩
  · rw [h]
    exact .refl s
  · rw [h]
    refine ⟨rfl, grown, drawn, fun y hy => .inr ?_⟩
    rcases List.mem_cons.mp hy with rfl | hy
    · exact ⟨s.current, List.mem_cons_self .., rfl⟩
    · exact ⟨y, List.mem_cons_of_mem _ hy, rfl⟩
  · rw [h]
    exact .of_replace found rfl
  · rw [h]
    refine ⟨rfl, s.supply.newEditRevision_extends, .inr s.supply.newEditRevision_drawn,
      fun y hy => .inr ?_⟩
    rcases List.mem_cons.mp hy with rfl | hy
    · exact ⟨x, List.mem_cons_of_mem _ (List.mem_of_find?_eq_some found), rfl⟩
    · rcases mem_replaceFirst found hy with rfl | hy
      · exact ⟨s.current, List.mem_cons_self .., rfl⟩
      · exact ⟨y, List.mem_cons_of_mem _ hy, rfl⟩

theorem handleFailedMeasurement_local (s : Sessions) (key : SessionKey) :
    s.Local (s.handleFailedMeasurement key).2 := by
  rcases s.handleFailedMeasurement_cases key with h | ⟨-, _, h⟩
  · rw [h]
    exact .refl s
  · rw [h]
    exact .of_subset rfl rfl (.refl _) (List.filter_subset_self _)

theorem admitOwnedRequest_local (s : Sessions) (key : SessionKey) (after : Option NodeId) :
    s.Local (s.admitOwnedRequest key after).2.2 := by
  cases s.admitOwnedRequest_cases key after with
  | inl h =>
    rw [h]
    exact .refl s
  | inr h =>
    rw [h]
    exact .of_subset rfl rfl (.refl _) (List.filter_subset_self _)

end Sessions

end AbletonLink.Link
