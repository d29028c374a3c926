import AbletonLink.Link.Candidates

/-! The greatest beat origin wins, copy by copy.  A sighting reaches the first copy of a wire id and
a promotion takes the first copy of an incarnation, so the copies can drift apart. -/

namespace AbletonLink.Link

open Library Library.Run

inductive Discovery
  | sighting (sessionId : SessionId) (timeline : Timeline) (slot : Bool)
  | decide (key : SessionKey) (xForm : GhostXForm) (timestamp now : Duration)
  | commit (decision : Decision) (now : Duration)
  deriving DecidableEq

namespace Sessions

def discover (s : Sessions) : Discovery → Sessions
  | .sighting sessionId timeline slot => (s.trySighting sessionId timeline slot).2.2
  | .decide key xForm timestamp now => (s.decideMeasurement key xForm timestamp now).2
  | .commit decision now => (s.commitMeasurement decision now).2

def adopted (s : Sessions) : Discovery → Option (SessionId × Beats)
  | .sighting sessionId timeline _ =>
    if s.current.sessionId = sessionId then
      if timeline.beatOrigin > s.current.timeline.beatOrigin then
        some (sessionId, timeline.beatOrigin)
      else none
    else
      match s.others.find? fun session => session.sessionId = sessionId with
      | some session =>
        if timeline.beatOrigin > session.timeline.beatOrigin then
          some (sessionId, timeline.beatOrigin)
        else none
      | none => none
  | _ => none

def promotesNewest (s : Sessions) : Discovery → Prop
  | .commit decision now => ∀ candidate ∈ s.promoted decision now, ∀ copy ∈ s.known,
      copy.sessionId = candidate.sessionId →
        copy.timeline.beatOrigin ≤ candidate.timeline.beatOrigin
  | _ => True

structure Carries (s : Sessions) (adopted : Option (SessionId × Beats)) (s' : Sessions) :
    Prop where
  forth : ∀ x ∈ s.known, ∃ y ∈ s'.known, y.sessionId = x.sessionId ∧
    x.timeline.beatOrigin ≤ y.timeline.beatOrigin
  back : ∀ y ∈ s'.known,
    (∃ x ∈ s.known, x.sessionId = y.sessionId ∧
      x.timeline.beatOrigin ≤ y.timeline.beatOrigin ∧
      (y.timeline.beatOrigin = x.timeline.beatOrigin ∨
        adopted = some (y.sessionId, y.timeline.beatOrigin))) ∨
    ∀ z ∈ s'.known, z.sessionId = y.sessionId → z = y
  adopts : ∀ a ∈ adopted, ∃ y ∈ s'.known, y.sessionId = a.1 ∧ y.timeline.beatOrigin = a.2

theorem Carries.refl (s : Sessions) : s.Carries none s :=
  ⟨fun x hx => ⟨x, hx, rfl, Int64.le_refl _⟩,
    fun y hy => .inl ⟨y, hy, rfl, Int64.le_refl _, .inl rfl⟩, by simp⟩

theorem carries_update {s s' : Sessions} {x : Session} {timeline : Timeline}
    (member : x ∈ s.known)
    (updated : (updateTimeline x timeline s.supply).1 ∈ s'.known)
    (forth : ∀ z ∈ s.known, z = x ∨ z ∈ s'.known)
    (back : ∀ z ∈ s'.known, z = (updateTimeline x timeline s.supply).1 ∨ z ∈ s.known) :
    s.Carries (if timeline.beatOrigin > x.timeline.beatOrigin then
      some (x.sessionId, timeline.beatOrigin) else none) s' := by
  rcases updateTimeline_cases x timeline s.supply with ⟨older, h⟩ | ⟨newer, h⟩
  · rw [h] at updated back
    rw [if_neg older]
    refine ⟨fun z hz => ⟨z, ?_, rfl, Int64.le_refl _⟩,
      fun y hy => .inl ⟨y, ?_, rfl, Int64.le_refl _, .inl rfl⟩, by simp⟩
    · rcases forth z hz with rfl | hz
      · exact updated
      · exact hz
    · rcases back y hy with rfl | hy
      · exact member
      · exact hy
  · rw [h] at updated back
    rw [if_pos newer]
    have grown : x.timeline.beatOrigin ≤ timeline.beatOrigin := Int64.le_of_lt newer
    refine ⟨fun z hz => ?_, fun y hy => .inl ?_, ?_⟩
    · rcases forth z hz with rfl | hz
      · exact ⟨_, updated, rfl, grown⟩
      · exact ⟨z, hz, rfl, Int64.le_refl _⟩
    · rcases back y hy with rfl | hy
      · exact ⟨x, member, rfl, grown, .inr rfl⟩
      · exact ⟨y, hy, rfl, Int64.le_refl _, .inl rfl⟩
    · rintro _ ⟨⟩
      exact ⟨_, updated, rfl, rfl⟩

theorem sighting_carries (s : Sessions) (id : SessionId) (timeline : Timeline) (slot : Bool) :
    s.Carries (s.adopted (.sighting id timeline slot))
      (s.discover (.sighting id timeline slot)) := by
  show s.Carries (s.adopted (.sighting id timeline slot)) (s.trySighting id timeline slot).2.2
  unfold adopted
  dsimp only
  rcases s.trySighting_cases id timeline slot with
    ⟨rfl, _, h⟩ | ⟨foreign, _, x, found, h⟩ | ⟨foreign, absent, h⟩
  · rw [h, if_pos rfl]
    refine carries_update (List.mem_cons_self ..) (List.mem_cons_self ..) (fun z hz => ?_)
      fun z hz => ?_
    · exact (List.mem_cons.mp hz).imp_right (List.mem_cons_of_mem _)
    · exact (List.mem_cons.mp hz).imp_right (List.mem_cons_of_mem _)
  · have id_eq : x.sessionId = id := by simpa using (find?_split found).1
    rw [h, if_neg foreign, found]
    subst id_eq
    refine carries_update (List.mem_cons_of_mem _ (List.mem_of_find?_eq_some found))
      (List.mem_cons_of_mem _ (mem_replaceFirst_self found _)) (fun z hz => ?_) fun z hz => ?_
    · rcases List.mem_cons.mp hz with rfl | hz
      · exact .inr (List.mem_cons_self ..)
      · exact (mem_replaceFirst_of_mem found hz _).imp_right (List.mem_cons_of_mem _)
    · rcases List.mem_cons.mp hz with rfl | hz
      · exact .inr (List.mem_cons_self ..)
      · exact (mem_replaceFirst found hz).imp_right (List.mem_cons_of_mem _)
  · have unknown : s.others.find? (fun session => session.sessionId = id) = none :=
      List.find?_eq_none.mpr fun x hx => by simpa using absent x hx
    rw [if_neg foreign, unknown]
    rcases h with h | ⟨_, _, h⟩
    · rw [h]
      exact .refl s
    · rw [h]
      have known_iff (z new : Session) :
          z ∈ s.current :: (s.others ++ [new]) ↔ z ∈ s.known ∨ z = new := by
        simp [known, or_assoc]
      have fresh (z : Session) (hz : z ∈ s.known) : z.sessionId ≠ id :=
        (List.mem_cons.mp hz).elim (fun eq => eq ▸ foreign) (absent z)
      refine ⟨fun x hx => ⟨x, (known_iff ..).mpr (.inl hx), rfl, Int64.le_refl _⟩,
        fun y hy => ?_, by simp⟩
      rcases (known_iff ..).mp hy with hy | rfl
      · exact .inl ⟨y, hy, rfl, Int64.le_refl _, .inl rfl⟩
      · refine .inr fun z hz same => ?_
        exact ((known_iff ..).mp hz).resolve_left fun hz => fresh z hz same

theorem carries_of_remeasured {s s' : Sessions} (h : s.Remeasured s') : s.Carries none s' := by
  refine ⟨fun x hx => ?_, fun y hy => .inl ?_, by simp⟩
  · obtain ⟨y, hy, later⟩ := h.forth hx
    refine ⟨y, hy, congrArg SessionKey.sessionId later.key, ?_⟩
    rw [later.timeline]
    exact Int64.le_refl _
  · obtain ⟨x, hx, later⟩ := h.back hy
    refine ⟨x, hx, congrArg SessionKey.sessionId later.key.symm, ?_⟩
    rw [later.timeline]
    exact ⟨Int64.le_refl _, .inl rfl⟩

theorem discover_carries (s : Sessions) (op : Discovery) :
    s.Carries (s.adopted op) (s.discover op) := by
  cases op with
  | sighting id timeline slot => exact s.sighting_carries id timeline slot
  | decide key xForm timestamp now =>
    exact carries_of_remeasured (s.decideMeasurement_remeasured key xForm timestamp now)
  | commit decision now =>
    exact carries_of_remeasured (s.commitMeasurement_remeasured decision now)

theorem adopted_id {s : Sessions} {id : SessionId} {timeline : Timeline} {slot : Bool}
    {a : SessionId × Beats} (h : a ∈ s.adopted (.sighting id timeline slot)) : a.1 = id := by
  unfold adopted at h
  dsimp only at h
  split at h
  · split at h
    · cases h
      rfl
    · cases h
  · split at h
    · split at h
      · cases h
        rfl
      · cases h
    · cases h

/-- Only a promotion changes which session is current, and it takes the promoted candidate's
timeline; any other step keeps the current session and adopts for it if it adopts for its id. -/
theorem discover_current (s : Sessions) (op : Discovery) :
    (∃ decision now candidate, op = .commit decision now ∧
        s.promoted decision now = some candidate ∧
        (s.discover op).current.sessionId = candidate.sessionId ∧
        (s.discover op).current.timeline = candidate.timeline) ∨
      (s.promotesNewest op ∧ (s.discover op).current.sessionId = s.current.sessionId ∧
        s.current.timeline.beatOrigin ≤ (s.discover op).current.timeline.beatOrigin ∧
        ∀ a ∈ s.adopted op, a.1 = s.current.sessionId →
          a.2 ≤ (s.discover op).current.timeline.beatOrigin) := by
  cases op with
  | sighting id timeline slot =>
    refine .inr ⟨trivial, ?_⟩
    show (s.trySighting id timeline slot).2.2.current.sessionId = _ ∧
      _ ≤ (s.trySighting id timeline slot).2.2.current.timeline.beatOrigin ∧
      ∀ a ∈ s.adopted (.sighting id timeline slot), _ →
        a.2 ≤ (s.trySighting id timeline slot).2.2.current.timeline.beatOrigin
    -- An adoption for another wire id says nothing about the current session.
    have other {a : SessionId × Beats} (ha : a ∈ s.adopted (.sighting id timeline slot))
        (own : a.1 = s.current.sessionId) : s.current.sessionId = id :=
      own.symm.trans (adopted_id ha)
    rcases s.trySighting_cases id timeline slot with
      ⟨rfl, _, h⟩ | ⟨foreign, _, _, -, h⟩ | ⟨foreign, -, h | ⟨_, _, h⟩⟩
    · rw [h]
      unfold adopted
      dsimp only
      rw [if_pos rfl]
      rcases updateTimeline_cases s.current timeline s.supply with ⟨older, u⟩ | ⟨newer, u⟩
      · rw [u, if_neg older]
        exact ⟨rfl, Int64.le_refl _, by simp⟩
      · rw [u, if_pos newer]
        refine ⟨rfl, Int64.le_of_lt newer, ?_⟩
        rintro _ ⟨⟩ -
        exact Int64.le_refl _
    · rw [h]
      exact ⟨rfl, Int64.le_refl _, fun a ha own => absurd (other ha own) foreign⟩
    · rw [h]
      exact ⟨rfl, Int64.le_refl _, fun a ha own => absurd (other ha own) foreign⟩
    · rw [h]
      exact ⟨rfl, Int64.le_refl _, fun a ha own => absurd (other ha own) foreign⟩
  | decide key xForm timestamp now =>
    refine .inr ⟨trivial, ?_⟩
    show (s.decideMeasurement key xForm timestamp now).2.current.sessionId = _ ∧
      _ ≤ (s.decideMeasurement key xForm timestamp now).2.current.timeline.beatOrigin ∧ _
    rcases s.decideMeasurement_cases key xForm timestamp now with h | ⟨-, _, -, -, h⟩
    · rw [h]
      exact ⟨rfl, Int64.le_refl _, by simp [adopted]⟩
    · rw [h]
      exact ⟨rfl, Int64.le_refl _, by simp [adopted]⟩
  | commit decision now =>
    rcases s.commitMeasurement_cases decision now with ⟨stays, h⟩ | ⟨x, promoted, -, -, -, -, h⟩
    · refine .inr ⟨fun x hx => by simp [stays] at hx, ?_⟩
      show (s.commitMeasurement decision now).2.current.sessionId = _ ∧
        _ ≤ (s.commitMeasurement decision now).2.current.timeline.beatOrigin ∧ _
      rcases h with h | ⟨-, -, _, _, h, -, -⟩ | ⟨_, -, -, -, -, h⟩
      · rw [h]
        exact ⟨rfl, Int64.le_refl _, by simp [adopted]⟩
      · rw [h]
        exact ⟨rfl, Int64.le_refl _, by simp [adopted]⟩
      · rw [h]
        exact ⟨rfl, Int64.le_refl _, by simp [adopted]⟩
    · refine .inl ⟨decision, now, x, rfl, promoted, ?_⟩
      show (s.commitMeasurement decision now).2.current.sessionId = _ ∧
        (s.commitMeasurement decision now).2.current.timeline = _
      rw [h]
      exact ⟨rfl, rfl⟩

end Sessions

structure Trace where
  sessions : Sessions
  adoptions : List (SessionId × Beats)

namespace Trace

open Sessions

def step (t : Trace) (op : Discovery) : Trace :=
  ⟨t.sessions.discover op, t.adoptions ++ (t.sessions.adopted op).toList⟩

def NeverRegressed (t : Trace) : Prop :=
  ∀ a ∈ t.adoptions, t.sessions.current.sessionId = a.1 →
    a.2 ≤ t.sessions.current.timeline.beatOrigin

structure Accounted (t : Trace) : Prop where
  held : ∀ a ∈ t.adoptions, ∃ y ∈ t.sessions.known, y.sessionId = a.1 ∧
    a.2 ≤ y.timeline.beatOrigin
  recorded : ∀ x ∈ t.sessions.known, ∀ y ∈ t.sessions.known, x.sessionId = y.sessionId →
    x.timeline.beatOrigin < y.timeline.beatOrigin →
      (y.sessionId, y.timeline.beatOrigin) ∈ t.adoptions

theorem Accounted.step {t : Trace} (h : t.Accounted) (op : Discovery) : (t.step op).Accounted := by
  have carries := t.sessions.discover_carries op
  constructor
  · intro a ha
    cases List.mem_append.mp ha with
    | inl old =>
      obtain ⟨x, hx, id, le⟩ := h.held a old
      obtain ⟨y, hy, same, grown⟩ := carries.forth x hx
      exact ⟨y, hy, same.trans id, Int64.le_trans le grown⟩
    | inr new =>
      obtain ⟨y, hy, id, beat⟩ := carries.adopts a (Option.mem_toList.mp new)
      exact ⟨y, hy, id, beat ▸ Int64.le_refl _⟩
  · intro x hx y hy id lt
    have distinct : x ≠ y := by
      rintro rfl
      exact Int64.lt_irrefl lt
    rcases carries.back y hy with ⟨y', hy', idy, -, same | adopted⟩ | alone
    · rcases carries.back x hx with ⟨x', hx', idx, grown, -⟩ | alone
      · rw [same, ← idy]
        refine List.mem_append_left _ (h.recorded x' hx' y' hy' (idx.trans (id.trans idy.symm)) ?_)
        rw [same] at lt
        exact Int64.lt_of_le_of_lt grown lt
      · exact absurd (alone y hy id.symm).symm distinct
    · exact List.mem_append_right _ (Option.mem_toList.mpr adopted)
    · exact absurd (alone x hx id) distinct

theorem neverRegressed_step {t : Trace} (h : t.Accounted) (good : t.NeverRegressed)
    (op : Discovery) : (t.step op).NeverRegressed ↔ t.sessions.promotesNewest op := by
  rcases t.sessions.discover_current op with
    ⟨decision, now, x, rfl, promoted, id, timeline⟩ | ⟨newest, id, grown, adopted⟩
  · have member : x ∈ t.sessions.known := by
      rcases t.sessions.commitMeasurement_cases decision now with ⟨none, -⟩ | ⟨y, some, found, -⟩
      · rw [none] at promoted
        cases promoted
      · cases some.symm.trans promoted
        exact List.mem_cons_of_mem _ (List.mem_of_find?_eq_some found)
    have regressed : (t.step (.commit decision now)).NeverRegressed ↔
        ∀ a ∈ t.adoptions, x.sessionId = a.1 → a.2 ≤ x.timeline.beatOrigin := by
      simp only [NeverRegressed, step, Sessions.adopted, Option.toList_none, List.append_nil]
      rw [id, timeline]
    rw [regressed]
    constructor
    · intro kept candidate hc copy hcopy same
      cases promoted.symm.trans hc
      by_contra behind
      have ahead : x.timeline.beatOrigin < copy.timeline.beatOrigin := Int64.not_le.mp behind
      have recorded := h.recorded x member copy hcopy same.symm ahead
      have reached := kept _ recorded same.symm
      exact behind reached
    · intro newest a ha own
      obtain ⟨y, hy, idy, le⟩ := h.held a ha
      exact Int64.le_trans le (newest x promoted y hy (idy.trans own.symm))
  · refine ⟨fun _ => newest, fun _ a ha own => ?_⟩
    have own : t.sessions.current.sessionId = a.1 := id.symm.trans own
    cases List.mem_append.mp ha with
    | inl old => exact Int64.le_trans (good a old own) grown
    | inr new => exact adopted a (Option.mem_toList.mp new) own.symm

/-- From a new coordinator on, the current session's beat origin never falls behind one adopted for
its wire id exactly if every promotion takes the newest copy of its wire id. -/
theorem neverRegressed_iff_promotesNewest (init : Session) (peers : List ControllerPeer)
    (supply : Supply) (ops : List Discovery) :
    (∀ before, before <+: ops →
        (run step ⟨withDispatchGate init peers supply, []⟩ before).NeverRegressed) ↔
      Along step (fun t op => t.sessions.promotesNewest op)
        ⟨withDispatchGate init peers supply, []⟩ ops := by
  have start : Accounted ⟨withDispatchGate init peers supply, []⟩ := by
    refine ⟨by simp, fun x hx y hy _ lt => ?_⟩
    -- Both entries are clones of `init`.
    have copies {z : Session} (hz : z ∈ (withDispatchGate init peers supply).known) :
        z = init := by simpa [known, withDispatchGate] using hz
    rw [copies hx, copies hy] at lt
    exact absurd lt Int64.lt_irrefl
  exact prefix_iff_along (A := Accounted) (G := NeverRegressed) (fun _ op h => h.step op)
    (fun _ op h good => neverRegressed_step h good op) start (by simp [NeverRegressed]) ops

theorem regresses_soloNode :
    let own : SessionId := soloNode.peer.sessionId
    let other : NodeId := ⟨#v[66, 66, 66, 66, 66, 66, 66, 66]⟩
    let first : Timeline := ⟨⟨120.0⟩, ⟨0⟩, .zero⟩
    let start : Sessions :=
      withDispatchGate soloNode.current [soloPeer other first] soloNode.supply
    let ahead (seconds : Int64) : GhostXForm := ⟨1.0, .microseconds (seconds * 1000000)⟩
    let away : Decision := ⟨⟨⟨other⟩, 1⟩, ⟨ahead 1, .zero⟩, false⟩
    let back : Decision := ⟨⟨own, 0⟩, ⟨ahead 2, .zero⟩, false⟩
    let sightings : List Discovery :=
      [.sighting own ⟨⟨120.0⟩, ⟨5000000⟩, .zero⟩ false, .sighting ⟨other⟩ first true]
    let leave : List Discovery :=
      sightings ++ [.decide away.key away.measurement.xForm .zero .zero, .commit away .zero]
    let home : List Discovery :=
      leave ++ [.decide back.key back.measurement.xForm .zero .zero, .commit back .zero]
    ((run step ⟨start, []⟩ sightings).sessions.decideMeasurement away.key (ahead 1) .zero .zero).1 =
        some away ∧
      ((run step ⟨start, []⟩ leave).sessions.decideMeasurement back.key (ahead 2) .zero .zero).1 =
        some back ∧
      ¬ (run step ⟨start, []⟩ home).NeverRegressed := by
  intro own other first start ahead away back sightings leave home
  have adopted : (own, ⟨5000000⟩) ∈ (run step ⟨start, []⟩ home).adoptions := by decide +kernel
  have current : (run step ⟨start, []⟩ home).sessions.current.sessionId = own := by
    decide +kernel
  have behind : ¬ ⟨5000000⟩ ≤ (run step ⟨start, []⟩ home).sessions.current.timeline.beatOrigin := by
    decide +kernel
  refine ⟨by decide +kernel, by decide +kernel, fun kept => ?_⟩
  have reached := kept _ adopted current
  exact behind reached

end Trace

end AbletonLink.Link
