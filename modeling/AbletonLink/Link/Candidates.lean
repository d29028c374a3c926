import AbletonLink.Link.NodeLaws

/-! The known sessions: the current one and the candidates.  Candidates are inserted by wire id and
promoted, retired and rolled back by incarnation. -/

namespace AbletonLink.Link

open Library Library.Run

namespace Sessions

def known (s : Sessions) : List Session := s.current :: s.others

/-! Measurement results. -/

structure Later (x y : Session) : Prop where
  key : y.key = x.key
  timeline : y.timeline = x.timeline
  timestamp : x.measurement.timestamp ≤ y.measurement.timestamp

theorem Later.refl (x : Session) : Later x x := ⟨rfl, rfl, Int.le_refl _⟩

def Remeasured (s s' : Sessions) : Prop :=
  ∃ sessions, sessions.Perm s'.known ∧ List.Forall₂ Later s.known sessions

theorem Remeasured.of_forall₂ {s s' : Sessions} (h : List.Forall₂ Later s.known s'.known) :
    s.Remeasured s' := ⟨_, .refl _, h⟩

theorem Remeasured.refl (s : Sessions) : s.Remeasured s :=
  .of_forall₂ (List.forall₂_same.mpr fun x _ => .refl x)

theorem keys_of_later {xs ys : List Session} (h : List.Forall₂ Later xs ys) :
    ys.map Session.key = xs.map Session.key := by
  induction h with
  | nil => rfl
  | cons head _ ih => rw [List.map_cons, List.map_cons, head.key, ih]

theorem Remeasured.keys {s s' : Sessions} (h : s.Remeasured s') :
    (s'.known.map Session.key).Perm (s.known.map Session.key) := by
  obtain ⟨sessions, perm, later⟩ := h
  rw [← keys_of_later later]
  exact (perm.map _).symm

theorem Remeasured.forth {s s' : Sessions} (h : s.Remeasured s') {x : Session}
    (hx : x ∈ s.known) : ∃ y ∈ s'.known, Later x y := by
  obtain ⟨_, perm, later⟩ := h
  obtain ⟨y, hy, hxy⟩ := exists_right_of_forall₂ later hx
  exact ⟨y, perm.mem_iff.mp hy, hxy⟩

theorem Remeasured.back {s s' : Sessions} (h : s.Remeasured s') {y : Session}
    (hy : y ∈ s'.known) : ∃ x ∈ s.known, Later x y := by
  obtain ⟨_, perm, later⟩ := h
  exact exists_left_of_forall₂ later (perm.mem_iff.mpr hy)

theorem remeasured_others {s : Sessions} {p : Session → Bool} {x y : Session}
    (found : s.others.find? p = some x) (later : Later x y) :
    s.Remeasured { s with others := replaceFirst p y s.others } :=
  .of_forall₂ (.cons (.refl _) (replaceFirst_forall₂ .refl found later))

theorem decideMeasurement_remeasured (s : Sessions) (key : SessionKey) (xForm : GhostXForm)
    (timestamp now : Duration) :
    s.Remeasured (s.decideMeasurement key xForm timestamp now).2 := by
  rcases s.decideMeasurement_cases key xForm timestamp now with h | ⟨-, x, found, recent, h⟩
  · rw [h]
    exact .refl s
  · rw [h]
    exact remeasured_others found ⟨rfl, rfl, recent⟩

theorem commitMeasurement_remeasured (s : Sessions) (d : Decision) (now : Duration) :
    s.Remeasured (s.commitMeasurement d now).2 := by
  rcases s.commitMeasurement_cases d now with
    ⟨-, h | ⟨-, recent, _, _, h, -, -⟩ | ⟨x, found, -, -, recent, h⟩⟩ |
      ⟨x, -, found, -, -, recent, h⟩
  · rw [h]
    exact .refl s
  · rw [h]
    exact .of_forall₂ (.cons ⟨rfl, rfl, recent⟩ (List.forall₂_same.mpr fun x _ => .refl x))
  · rw [h]
    exact remeasured_others found ⟨rfl, rfl, recent⟩
  · rw [h]
    -- Undoing the exchange puts the winner back into the slot it was measured in.
    refine ⟨_, replaceFirst_swap found s.current _, .cons (.refl _) ?_⟩
    exact replaceFirst_forall₂ .refl found ⟨rfl, rfl, recent⟩

theorem commitMeasurement_promotes {s : Sessions} {d : Decision} {now : Duration}
    {joined : Session} (sent : (s.commitMeasurement d now).1 = some joined)
    (foreign : d.key.matches s.current = false) :
    joined = (s.commitMeasurement d now).2.current ∧ joined.key = d.key ∧
      ∃ before x after, s.others = before ++ x :: after ∧ x.key = d.key ∧
        (s.commitMeasurement d now).2.others = before ++ s.current :: after := by
  rcases s.commitMeasurement_cases d now with
    ⟨-, h | ⟨own, -⟩ | ⟨_, -, -, -, -, h⟩⟩ | ⟨x, -, found, -, -, -, h⟩
  · rw [h] at sent
    cases sent
  · exact absurd (own.symm.trans foreign) (by decide)
  · rw [h] at sent
    cases sent
  · rw [h] at sent ⊢
    cases sent
    obtain ⟨matched, before, after, split, -, replaced⟩ := find?_split found
    have key := (SessionKey.matches_iff.mp matched).symm
    exact ⟨rfl, key, before, x, after, split, key, replaced _⟩

theorem commitMeasurement_retired {s : Sessions} {d : Decision} (now : Duration)
    (foreign : d.key.matches s.current = false)
    (absent : d.wasCurrent = true ∨ ∀ x ∈ s.others, d.key.matches x = false) :
    s.commitMeasurement d now = (none, s) := by
  have unknown {x : Session} (candidate : d.wasCurrent = false)
      (found : s.others.find? d.key.matches = some x) : False := by
    cases absent with
    | inl current => exact absurd (current.symm.trans candidate) (by decide)
    | inr gone =>
      have matched := (find?_split found).1
      exact absurd (matched.symm.trans (gone x (List.mem_of_find?_eq_some found))) (by decide)
  rcases s.commitMeasurement_cases d now with
    ⟨-, h | ⟨own, -⟩ | ⟨x, found, candidate, -⟩⟩ | ⟨x, -, found, candidate, -⟩
  · exact h
  · exact absurd (own.symm.trans foreign) (by decide)
  · exact (unknown candidate found).elim
  · exact (unknown candidate found).elim

theorem decideMeasurement_some {s : Sessions} {key : SessionKey} {xForm : GhostXForm}
    {timestamp now : Duration} {d : Decision}
    (h : (s.decideMeasurement key xForm timestamp now).1 = some d) :
    d.key = key ∧ d.wasCurrent = key.matches s.current := by
  unfold decideMeasurement at h
  dsimp only at h
  split at h
  · rename_i own
    cases h
    exact ⟨rfl, own.symm⟩
  · rename_i foreign
    split at h
    · cases h
    · split at h
      · cases h
      · split at h
        · cases h
        · cases h
          exact ⟨rfl, (Bool.not_eq_true _ ▸ foreign).symm⟩

/-- What a failed measurement does: nothing to the current incarnation, and otherwise it retires
exactly its own, with the peers only that incarnation had. -/
structure Retired (s : Sessions) (key : SessionKey) (s' : Sessions) : Prop where
  current : s'.current = s.current
  own : key.matches s.current = true → s' = s
  others : key.matches s.current = false →
    s'.others = s.others.filter fun other => !key.matches other
  peers : s'.peers.Sublist s.peers
  removed : ∀ peer ∈ s.peers, peer ∉ s'.peers →
    peer.peerState.sessionId = key.sessionId ∧ s.current.sessionId ≠ key.sessionId ∧
      ∀ other ∈ s'.others, other.sessionId ≠ key.sessionId

theorem handleFailedMeasurement_retired (s : Sessions) (key : SessionKey) :
    s.Retired key (s.handleFailedMeasurement key).2 := by
  unfold handleFailedMeasurement
  split
  · rename_i own
    exact ⟨rfl, fun _ => rfl, fun foreign => absurd (own.symm.trans foreign) (by decide),
      .refl _, fun _ member gone => absurd member gone⟩
  · rename_i foreign
    split
    · dsimp only
      split
      · rename_i alone
        refine ⟨rfl, fun own => absurd own foreign, fun _ => rfl, List.filter_sublist, ?_⟩
        intro peer member gone
        refine ⟨?_, alone.1, ?_⟩
        · by_contra other
          exact gone (List.mem_filter.mpr ⟨member, by simpa using other⟩)
        · simpa using alone.2
      · exact ⟨rfl, fun own => absurd own foreign, fun _ => rfl, .refl _,
          fun _ member gone => absurd member gone⟩
    · rename_i absent
      refine ⟨rfl, fun own => absurd own foreign, fun _ => ?_, .refl _,
        fun _ member gone => absurd member gone⟩
      refine (List.filter_eq_self.mpr fun other member => ?_).symm
      simp only [List.any_eq_true, not_exists, not_and, Bool.not_eq_true] at absent
      simp [absent other member]

/-- Measurement results act only on the incarnation that asked for them.  Between the decision and
the commit anything may happen; a retired incarnation, or one that was current and no longer is,
commits nothing, the current session changes only with the join that is sent, a promotion exchanges
two slots and sends one join, no incarnation is measured backwards, and a failure retires only its
own incarnation, never the current one. -/
theorem measurement_acts_on_incarnation (s : SessionCommit) (key : SessionKey)
    (xForm : GhostXForm) (timestamp decided committed : Duration) (between : List Op) :
    let decision := s.toSessions.decideMeasurement key xForm timestamp decided
    let later := (run SessionCommit.step { s with toSessions := decision.2 } between).toSessions
    s.toSessions.Remeasured decision.2 ∧
      (∀ d, decision.1 = some d →
        (key.matches later.current = false → (∀ x ∈ later.others, key.matches x = false) →
          later.commitMeasurement d committed = (none, later)) ∧
        (key.matches s.current = true → key.matches later.current = false →
          later.commitMeasurement d committed = (none, later)) ∧
        ((later.commitMeasurement d committed).1 =
            some (later.commitMeasurement d committed).2.current ∨
          (later.commitMeasurement d committed).1 = none ∧
            (later.commitMeasurement d committed).2.current = later.current) ∧
        (∀ joined, (later.commitMeasurement d committed).1 = some joined →
          key.matches later.current = false →
          joined = (later.commitMeasurement d committed).2.current ∧ joined.key = key ∧
            ((later.commitMeasurement d committed).2.known.map Session.key).Perm
              (later.known.map Session.key) ∧
            ∃ before x after, later.others = before ++ x :: after ∧ x.key = key ∧
              (later.commitMeasurement d committed).2.others =
                before ++ later.current :: after) ∧
        later.Remeasured (later.commitMeasurement d committed).2) ∧
      later.Retired key (later.handleFailedMeasurement key).2 := by
  intro decision later
  refine ⟨s.toSessions.decideMeasurement_remeasured .., fun d hd => ?_,
    later.handleFailedMeasurement_retired key⟩
  obtain ⟨rfl, wasCurrent⟩ := decideMeasurement_some hd
  have remeasured := later.commitMeasurement_remeasured d committed
  refine ⟨fun foreign gone => commitMeasurement_retired committed foreign (.inr gone),
    fun own foreign => commitMeasurement_retired committed foreign (.inl (wasCurrent.trans own)),
    later.commitMeasurement_current d committed, fun joined sent foreign => ?_, remeasured⟩
  obtain ⟨current, own, slot⟩ := commitMeasurement_promotes sent foreign
  exact ⟨current, own, remeasured.keys, slot⟩

theorem handleFailedMeasurement_keeps_current :
    let s := soloNode.toSessions
    (s.handleFailedMeasurement s.current.key).2.others ≠
      s.others.filter fun other => !s.current.key.matches other := by
  decide

end Sessions

end AbletonLink.Link
