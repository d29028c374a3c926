import AbletonLink.Link.Tempo
import AbletonLink.Link.GhostXForm

namespace AbletonLink.Link

open Library Library.MachineInt

inductive CommitError
  | timelineOriginExhausted
  | startStopTimestampExhausted
  | staleClientState
  deriving DecidableEq

structure Timeline where
  tempo : Tempo
  beatOrigin : Beats
  timeOrigin : Duration
  deriving DecidableEq

namespace Timeline

instance : BEq Timeline :=
  ⟨fun a b => a.tempo == b.tempo && a.beatOrigin == b.beatOrigin && a.timeOrigin == b.timeOrigin⟩
instance : Inhabited Timeline := ⟨⟨default, default, Duration.zero⟩⟩

def microbeatsAtNanos (t : Timeline) (nanos : Int) : Int :=
  let elapsed := saturate (nanos - t.timeOrigin.nanos)
  saturate (t.tempo.microbeatsFromNanos elapsed + t.beatOrigin.value.toInt)

def microbeatsAt (t : Timeline) (time : Duration) : Int := t.microbeatsAtNanos time.nanos

def toBeats (t : Timeline) (time : Duration) : Beats := ⟨narrow (t.microbeatsAt time)⟩

def nanosAtMicrobeats (t : Timeline) (beats : Int) : Int :=
  let difference := beats - t.beatOrigin.value.toInt
  let elapsed := t.tempo.nanosFromMicrobeats difference
  saturate (t.timeOrigin.nanos + elapsed)

def timeAtMicrobeats (t : Timeline) (beats : Int) : Duration :=
  durationFromNanos (t.nanosAtMicrobeats beats)

end Timeline

def clampTempo (timeline : Timeline) : Timeline :=
  let bpm := timeline.tempo.bpm
  { tempo := ⟨if bpm.isNaN then 120.0 else Binary64.clamp bpm 20.0 999.0⟩
    beatOrigin := timeline.beatOrigin
    timeOrigin := timeline.timeOrigin }

/-- Preserve the mapped session-zero phase boundary and the current beat. -/
def updateClientTimelineFromSession (curClient session : Timeline) (atTime : Duration)
    (xForm : GhostXForm) : Except CommitError Timeline :=
  match xForm.checkedGhostNanosToHost (session.nanosAtMicrobeats 0) with
  | none => .error .timelineOriginExhausted
  | some hostBeatZero =>
    let elapsed := hostBeatZero.nanos - atTime.nanos
    match (checked (curClient.microbeatsAt atTime +
        session.tempo.microbeatsFromNanos elapsed)).bind tryI64 with
    | none => .error .timelineOriginExhausted
    | some beatOrigin =>
      let timeline : Timeline :=
        { tempo := session.tempo, beatOrigin := ⟨beatOrigin⟩, timeOrigin := hostBeatZero }
      if timeline.microbeatsAt atTime ≠ curClient.microbeatsAt atTime then
        .error .timelineOriginExhausted
      else .ok timeline

def updateSessionTimelineFromClient (curSession client : Timeline) (atTime : Duration)
    (xForm : GhostXForm) : Except CommitError Timeline :=
  let ghostBeat0 := xForm.hostToGhostWideNanos client.timeOrigin
  if curSession.nanosAtMicrobeats 0 = ghostBeat0 ∧ (client.tempo == curSession.tempo) = true then
    .ok curSession
  else
    match checkedAddI64 curSession.beatOrigin.value 1 with
    | none => .error .timelineOriginExhausted
    | some successor =>
      let newBeatOrigin : Beats :=
        ⟨max (narrow (curSession.microbeatsAtNanos (xForm.hostToGhostWideNanos atTime))) successor⟩
      match checked (ghostBeat0 + client.tempo.nanosFromMicrobeats newBeatOrigin.value.toInt) with
      | none => .error .timelineOriginExhausted
      | some nanos =>
        let timeOrigin := durationFromNanos nanos
        if timeOrigin.nanos ≠ nanos then .error .timelineOriginExhausted
        else .ok { tempo := client.tempo, beatOrigin := newBeatOrigin, timeOrigin }

namespace Timeline

/-- The tempo lies inside the range the code admits, so clamping changes nothing. -/
def Clamped (t : Timeline) : Prop := clampTempo t = t

theorem beq_iff {a b : Timeline} :
    (a == b) = true ↔ (a.tempo.value == b.tempo.value) = true ∧ a.beatOrigin = b.beatOrigin ∧
      a.timeOrigin = b.timeOrigin := by
  show (_ && _ && _) = true ↔ _
  simp only [Bool.and_eq_true, beq_iff_eq, and_assoc]
  exact Iff.rfl

end Timeline

theorem clamp_cases (x : Float) :
    Binary64.clamp x 20.0 999.0 = 20.0 ∨ Binary64.clamp x 20.0 999.0 = 999.0 ∨
      (Binary64.clamp x 20.0 999.0 = x ∧ ¬ x < 20.0 ∧ ¬ 999.0 < x) := by
  unfold Binary64.clamp
  have apart : ¬ (999.0 : Float) < 20.0 := by decide
  by_cases low : x < 20.0
  · rw [if_pos low]
    exact .inl (if_neg apart)
  · rw [if_neg low]
    by_cases high : 999.0 < x
    · exact .inr (.inl (if_pos high))
    · exact .inr (.inr ⟨if_neg high, low, high⟩)

theorem tempo_clampTempo (t : Timeline) :
    (clampTempo t).tempo.value.isNaN = false ∧
      Binary64.clamp (clampTempo t).tempo.value 20.0 999.0 = (clampTempo t).tempo.value ∧
      ¬ (clampTempo t).tempo.value < 20.0 := by
  have at20 : (20.0 : Float).isNaN = false ∧ Binary64.clamp 20.0 20.0 999.0 = 20.0 ∧
    ¬ (20.0 : Float) < 20.0 := by decide
  have at999 : (999.0 : Float).isNaN = false ∧ Binary64.clamp 999.0 20.0 999.0 = 999.0 ∧
    ¬ (999.0 : Float) < 20.0 := by decide
  have at120 : (120.0 : Float).isNaN = false ∧ Binary64.clamp 120.0 20.0 999.0 = 120.0 ∧
    ¬ (120.0 : Float) < 20.0 := by decide
  simp only [clampTempo]
  by_cases nan : t.tempo.bpm.isNaN = true
  · rw [if_pos nan]
    exact at120
  · rw [if_neg nan]
    rcases clamp_cases t.tempo.bpm with h | h | ⟨h, low, high⟩
    · rw [h]
      exact at20
    · rw [h]
      exact at999
    · rw [h]
      exact ⟨by simpa using nan, h, low⟩

@[simp] theorem clampTempo_clampTempo (t : Timeline) :
    clampTempo (clampTempo t) = clampTempo t := by
  obtain ⟨nan, fix, -⟩ := tempo_clampTempo t
  generalize clampTempo t = c at nan fix
  cases c
  simp only [clampTempo, Tempo.bpm, nan, fix, Bool.false_eq_true, if_false]

theorem clamped_clampTempo (t : Timeline) : (clampTempo t).Clamped := clampTempo_clampTempo t

@[simp] theorem beatOrigin_clampTempo (t : Timeline) :
    (clampTempo t).beatOrigin = t.beatOrigin := rfl

namespace Timeline

theorem Clamped.isNaN {t : Timeline} (h : t.Clamped) : t.tempo.value.isNaN = false := by
  have := (tempo_clampTempo t).1
  rwa [h] at this

theorem Clamped.ne_of_lt {t : Timeline} (h : t.Clamped) {x : Float} (hx : x < 20.0) :
    t.tempo.value ≠ x := by
  have low := (tempo_clampTempo t).2.2
  rw [h] at low
  intro same
  exact low (same ▸ hx)

theorem Clamped.beq_self {t : Timeline} (h : t.Clamped) : (t == t) = true :=
  beq_iff.mpr ⟨Binary64.beq_self h.isNaN, rfl, rfl⟩

theorem Clamped.eq_of_beq {a b : Timeline} (hb : b.Clamped) (h : (a == b) = true) : a = b := by
  obtain ⟨ht, hbeat, htime⟩ := beq_iff.mp h
  have ht := Binary64.eq_of_beq ht (hb.ne_of_lt (by decide)) (hb.ne_of_lt (by decide))
  cases a
  cases b
  simp_all [Tempo.ext_iff]

theorem Clamped.eq_of_beq_left {a b : Timeline} (ha : a.Clamped) (h : (a == b) = true) :
    a = b := by
  obtain ⟨ht, hbeat, htime⟩ := beq_iff.mp h
  exact (ha.eq_of_beq (beq_iff.mpr ⟨Binary64.beq_symm ht, hbeat.symm, htime.symm⟩)).symm

theorem Clamped.of_tempo {a b : Timeline} (ha : a.Clamped) (h : b.tempo = a.tempo) :
    b.Clamped := by
  have fix : (clampTempo a).tempo = a.tempo := congrArg Timeline.tempo ha
  cases a
  cases b
  cases h
  simp_all [Clamped, clampTempo]

end Timeline

/-- What a successful composition returns: the session's tempo and the client's own beat at the
instant of the update. -/
theorem updateClientTimelineFromSession_ok {client session t : Timeline} {now : Duration}
    {f : GhostXForm} (h : updateClientTimelineFromSession client session now f = .ok t) :
    t.tempo = session.tempo ∧ t.microbeatsAt now = client.microbeatsAt now ∧
      (f == f) = true := by
  unfold updateClientTimelineFromSession at h
  split at h
  · cases h
  · rename_i zero hzero
    dsimp only at h
    split at h
    · cases h
    · split at h
      · cases h
      · rename_i same
        cases h
        exact ⟨rfl, not_not.mp same, GhostXForm.beq_self_of_checked hzero⟩

theorem updateSessionTimelineFromClient_ok {session client t : Timeline} {now : Duration}
    {f : GhostXForm} (h : updateSessionTimelineFromClient session client now f = .ok t) :
    t = session ∨ t.tempo = client.tempo := by
  unfold updateSessionTimelineFromClient at h
  simp only at h
  split at h
  · cases h
    exact .inl rfl
  · split at h
    · cases h
    · split at h
      · cases h
      · split at h
        · cases h
        · cases h
          exact .inr rfl

end AbletonLink.Link
