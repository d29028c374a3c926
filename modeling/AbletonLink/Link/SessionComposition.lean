import AbletonLink.Link.GhostForward
import AbletonLink.Link.TempoRange

/-! A client's timeline committed to the session keeps the client's beat zero. -/

namespace AbletonLink.Link

open Library Library.MachineInt

theorem GhostXForm.fits_hostToGhostWideNanos (f : GhostXForm) (h : Duration) :
    FitsI128 (f.hostToGhostWideNanos h) := by
  by_cases finite : f.slope.isFinite = true
  · rw [f.hostToGhostWideNanos_exact finite]
    exact fits_saturate _
  · unfold hostToGhostWideNanos
    rw [if_pos (.inr finite)]
    exact (f.hostToGhost h).fits.i128

section Update

variable (session client : Timeline) (range : client.tempo.InRange) (atTime : Duration)
  (f : GhostXForm)

def requiredBeat : Int :=
  max (narrow (session.microbeatsAtNanos (f.hostToGhostWideNanos atTime))).toInt
    (session.beatOrigin.value.toInt + 1)

def requiredOrigin : Int :=
  f.hostToGhostWideNanos client.timeOrigin +
    roundHalfAway ((requiredBeat session atTime f : ℚ) * client.tempo.periodMicros / 1000)

def SessionAgrees : Prop :=
  session.nanosAtMicrobeats 0 = f.hostToGhostWideNanos client.timeOrigin ∧
    client.tempo = session.tempo

theorem requiredBeat_small : (requiredBeat session atTime f).natAbs ≤ 2 ^ 63 := by
  have beat := i64_bounds (narrow (session.microbeatsAtNanos (f.hostToGhostWideNanos atTime)))
  have origin := i64_bounds session.beatOrigin.value
  unfold requiredBeat
  unfold i64Min i64Max at *
  omega

variable {session client f}

include range

theorem updateSessionTimelineFromClient_agrees (agrees : SessionAgrees session client f) :
    updateSessionTimelineFromClient session client atTime f = .ok session :=
  if_pos ⟨agrees.1, range.beq_iff.mpr agrees.2⟩

theorem updateSessionTimelineFromClient_differs (differs : ¬SessionAgrees session client f) :
    (session.beatOrigin.value.toInt = i64Max ∨
        ¬FitsDuration (requiredOrigin session client atTime f)) ∧
      updateSessionTimelineFromClient session client atTime f =
        .error .timelineOriginExhausted ∨
    (session.beatOrigin.value.toInt ≠ i64Max ∧
        FitsDuration (requiredOrigin session client atTime f)) ∧
      ∃ t, updateSessionTimelineFromClient session client atTime f = .ok t ∧
        t.tempo = client.tempo ∧ t.beatOrigin.value.toInt = requiredBeat session atTime f ∧
        t.timeOrigin.nanos = requiredOrigin session client atTime f := by
  unfold SessionAgrees at differs
  rw [← range.beq_iff] at differs
  unfold updateSessionTimelineFromClient
  dsimp only
  rw [if_neg differs]
  obtain ⟨none, last⟩ | ⟨successor, some, next⟩ := checkedAddI64_one session.beatOrigin.value
  · rw [none]
    exact .inl ⟨.inl last, rfl⟩
  · have last : session.beatOrigin.value.toInt ≠ i64Max := by
      have := (i64_bounds successor).2
      omega
    have beat : (max (narrow (session.microbeatsAtNanos (f.hostToGhostWideNanos atTime)))
        successor).toInt = requiredBeat session atTime f := by
      rw [toInt_max_i64, next]
      rfl
    have exact := (range.nanosFromMicrobeats (requiredBeat_small session atTime f)).1
    have origin : f.hostToGhostWideNanos client.timeOrigin +
        client.tempo.nanosFromMicrobeats (requiredBeat session atTime f) =
        requiredOrigin session client atTime f := by
      rw [exact]
      rfl
    rw [some]
    simp only [beat, origin]
    by_cases fits : FitsDuration (requiredOrigin session client atTime f)
    · rw [checked_of_fits fits.i128]
      simp only [nanos_durationFromNanos fits, ne_eq, not_true_eq_false, if_false]
      exact .inr ⟨⟨last, fits⟩, _, rfl, rfl, beat, nanos_durationFromNanos fits⟩
    · refine .inl ⟨.inr fits, ?_⟩
      cases sum : checked (requiredOrigin session client atTime f) with
      | none => rfl
      | some nanos =>
        obtain ⟨-, rfl⟩ := checked_eq_some sum
        exact if_pos (mt nanos_durationFromNanos_iff.mp fits)

theorem agrees_of_required {t : Timeline} (tempo : t.tempo = client.tempo)
    (beat : t.beatOrigin.value.toInt = requiredBeat session atTime f)
    (origin : t.timeOrigin.nanos = requiredOrigin session client atTime f) :
    SessionAgrees t client f := by
  refine ⟨?_, tempo.symm⟩
  have small := requiredBeat_small session atTime f
  have fits := f.fits_hostToGhostWideNanos client.timeOrigin
  show saturate (t.timeOrigin.nanos +
    t.tempo.nanosFromMicrobeats (0 - t.beatOrigin.value.toInt)) = _
  rw [tempo, beat, origin, zero_sub, range.nanosFromMicrobeats_neg small,
    (range.nanosFromMicrobeats small).1, requiredOrigin, add_neg_cancel_right,
    saturate_of_fits fits]

end Update

/-- Committing a client's timeline leaves a session that agrees as it is. Any other result takes
the client's tempo and beat zero at a later origin, and stays under the same client; it is missing
only where there is no such origin. -/
theorem updateSessionTimelineFromClient_exact (session client : Timeline)
    (range : client.tempo.InRange) (atTime : Duration) (f : GhostXForm) :
    let zero := f.hostToGhostWideNanos client.timeOrigin
    let unchanged := session.nanosAtMicrobeats 0 = zero ∧ client.tempo = session.tempo
    let beat := max (narrow (session.microbeatsAtNanos (f.hostToGhostWideNanos atTime))).toInt
      (session.beatOrigin.value.toInt + 1)
    let origin := zero + roundHalfAway ((beat : ℚ) * client.tempo.periodMicros / 1000)
    (updateSessionTimelineFromClient session client atTime f = .ok session ↔ unchanged) ∧
    (∀ t, updateSessionTimelineFromClient session client atTime f = .ok t → t ≠ session →
      t.tempo = client.tempo ∧ session.beatOrigin < t.beatOrigin ∧
        t.nanosAtMicrobeats 0 = zero) ∧
    (∀ t, updateSessionTimelineFromClient session client atTime f = .ok t →
      ∀ later, updateSessionTimelineFromClient t client later f = .ok t) ∧
    ((∃ e, updateSessionTimelineFromClient session client atTime f = .error e) ↔
      ¬unchanged ∧ (session.beatOrigin.value.toInt = i64Max ∨ ¬FitsDuration origin)) := by
  intro zero unchanged beat origin
  by_cases agrees : SessionAgrees session client f
  · have same := updateSessionTimelineFromClient_agrees range atTime agrees
    rw [same]
    refine ⟨iff_of_true rfl agrees, ?_, ?_, ?_⟩
    · rintro t ⟨⟩ other
      exact absurd rfl other
    · rintro t ⟨⟩ later
      exact updateSessionTimelineFromClient_agrees range later agrees
    · constructor
      · rintro ⟨e, ⟨⟩⟩
      · intro ⟨differs, _⟩
        exact absurd agrees differs
  · obtain ⟨missing, error⟩ | ⟨⟨last, fits⟩, t, ok, tempo, value, nanos⟩ :=
      updateSessionTimelineFromClient_differs range atTime agrees
    · rw [error]
      refine ⟨iff_of_false (by rintro ⟨⟩) agrees, ?_, ?_, iff_of_true ⟨_, rfl⟩ ⟨agrees, missing⟩⟩
      · rintro t ⟨⟩
      · rintro t ⟨⟩
    · have greater : session.beatOrigin < t.beatOrigin := by
        rw [Beats.lt_iff, value]
        unfold requiredBeat
        omega
      have kept := agrees_of_required range atTime tempo value nanos
      have other : t ≠ session := by
        rintro rfl
        exact agrees kept
      rw [ok]
      refine ⟨iff_of_false (fun same => other (Except.ok.inj same)) agrees, ?_, ?_, ?_⟩
      · rintro _ ⟨⟩ _
        exact ⟨tempo, greater, kept.1⟩
      · rintro _ ⟨⟩ later
        exact updateSessionTimelineFromClient_agrees range later kept
      · refine iff_of_false (by rintro ⟨e, ⟨⟩⟩) ?_
        rintro ⟨_, full | beyond⟩
        · exact last full
        · exact beyond fits

theorem updateSessionTimelineFromClient_exact_fractional :
    let session : Timeline := ⟨⟨120.0⟩, ⟨0⟩, Duration.zero⟩
    let client : Timeline := ⟨⟨120.0⟩, ⟨0⟩, ⟨200, by decide, by decide⟩⟩
    let f : GhostXForm := ⟨1.0, Duration.zero⟩
    let zero := f.hostToGhostWideNanos client.timeOrigin
    let unchanged := session.nanosAtMicrobeats 0 = zero ∧ client.tempo = session.tempo
    let beat := max (narrow (session.microbeatsAtNanos
      (f.hostToGhostWideNanos Duration.zero))).toInt (session.beatOrigin.value.toInt + 1)
    let origin := zero + roundHalfAway ((beat : ℚ) * client.tempo.periodMicros / 1000)
    (updateSessionTimelineFromClient session client Duration.zero f = .ok session ↔ unchanged) ∧
    (∀ t, updateSessionTimelineFromClient session client Duration.zero f = .ok t → t ≠ session →
      t.tempo = client.tempo ∧ session.beatOrigin < t.beatOrigin ∧
        t.nanosAtMicrobeats 0 = zero) ∧
    (∀ t, updateSessionTimelineFromClient session client Duration.zero f = .ok t →
      ∀ later, updateSessionTimelineFromClient t client later f = .ok t) ∧
    ((∃ e, updateSessionTimelineFromClient session client Duration.zero f = .error e) ↔
      ¬unchanged ∧ (session.beatOrigin.value.toInt = i64Max ∨ ¬FitsDuration origin)) :=
  updateSessionTimelineFromClient_exact _ _ (by decide +kernel) _ _

end AbletonLink.Link
