import AbletonLink.Link.GhostInverse
import AbletonLink.Link.TimelineLaws

/-! A session's timeline mapped to the client keeps the session's beat zero and the client's
beat. -/

namespace AbletonLink.Link

open Library Library.MachineInt

namespace GhostXForm

def Invertible (f : GhostXForm) : Prop := (f.slope == 0.0) = false ∧ f.slope.isFinite = true

def hostImage (f : GhostXForm) (difference : ℤ) : ℤ :=
  roundHalfAway (difference / Binary64.value f.slope)

end GhostXForm

section Update

variable (client session : Timeline) (now : Duration) (f : GhostXForm)

def continuedBeat (origin : ℤ) : ℤ :=
  client.microbeatsAt now + session.tempo.microbeatsFromNanos (origin - now.nanos)

def Acceptable (origin : ℤ) : Prop :=
  FitsDuration origin ∧ FitsI64 (continuedBeat client session now origin)

def computedZero : ℤ :=
  f.hostImage (saturate (session.nanosAtMicrobeats 0 - f.intercept.nanos))

variable {session} (nonzero : session.tempo.periodMicros ≠ 0)

include nonzero

theorem updateClientTimelineFromSession_cases :
    ¬(f.Invertible ∧ Acceptable client session now (computedZero session f)) ∧
      updateClientTimelineFromSession client session now f = .error .timelineOriginExhausted ∨
    (f.Invertible ∧ Acceptable client session now (computedZero session f)) ∧
      ∃ t, updateClientTimelineFromSession client session now f = .ok t ∧
        t.tempo = session.tempo ∧ t.timeOrigin.nanos = computedZero session f ∧
        t.beatOrigin.value.toInt =
          continuedBeat client session now (computedZero session f) ∧
        t.microbeatsAt now = client.microbeatsAt now := by
  have mapped := f.checkedGhostNanosToHost_iff (session.nanosAtMicrobeats 0)
  unfold updateClientTimelineFromSession
  cases image : f.checkedGhostNanosToHost (session.nanosAtMicrobeats 0) with
  | none =>
    refine .inl ⟨?_, rfl⟩
    intro ⟨invertible, fits, _⟩
    have found := (mapped _).mpr ⟨invertible, nanos_durationFromNanos fits⟩
    rw [image] at found
    cases found
  | some zero =>
    obtain ⟨invertible, value⟩ := (mapped zero).mp image
    have value : zero.nanos = computedZero session f := value
    rw [← value]
    dsimp only
    obtain ⟨outside, none⟩ | ⟨inside, beat, some, whole⟩ :=
      checked_bind_tryI64 (continuedBeat client session now zero.nanos)
    · unfold continuedBeat at none
      rw [none]
      exact .inl ⟨fun ⟨_, _, inside⟩ => outside inside, rfl⟩
    · have same := Timeline.microbeatsAt_continued ⟨session.tempo, ⟨beat⟩, zero⟩ nonzero whole
      unfold continuedBeat at some
      rw [some]
      dsimp only
      rw [if_neg (not_not.mpr same)]
      exact .inr ⟨⟨invertible, zero.fits, inside⟩, _, rfl, rfl, rfl, whole, same⟩

theorem updateClientTimelineFromSession_error_iff :
    (∃ e, updateClientTimelineFromSession client session now f = .error e) ↔
      ¬(f.Invertible ∧ Acceptable client session now (computedZero session f)) := by
  obtain ⟨missing, error⟩ | ⟨accepted, t, ok, -⟩ :=
    updateClientTimelineFromSession_cases client now f nonzero
  · exact iff_of_true ⟨_, error⟩ missing
  · refine iff_of_false ?_ (not_not.mpr accepted)
    rintro ⟨e, error⟩
    rw [ok] at error
    cases error

theorem updateClientTimelineFromSession_of_ok {t : Timeline}
    (ok : updateClientTimelineFromSession client session now f = .ok t) :
    (f.Invertible ∧ Acceptable client session now (computedZero session f)) ∧
      t.tempo = session.tempo ∧ t.timeOrigin.nanos = computedZero session f ∧
      t.beatOrigin.value.toInt = continuedBeat client session now (computedZero session f) ∧
      t.microbeatsAt now = client.microbeatsAt now := by
  obtain ⟨-, error⟩ | ⟨accepted, t', ok', mapped⟩ :=
    updateClientTimelineFromSession_cases client now f nonzero
  · rw [ok] at error
    cases error
  · obtain rfl : t = t' := Except.ok.inj (ok.symm.trans ok')
    exact ⟨accepted, mapped⟩

theorem updateClientTimelineFromSession_again {t : Timeline}
    (ok : updateClientTimelineFromSession client session now f = .ok t) :
    updateClientTimelineFromSession t session now f = .ok t := by
  obtain ⟨⟨invertible, fits, whole⟩, tempo, origin, beat, kept⟩ :=
    updateClientTimelineFromSession_of_ok client now f nonzero ok
  have same : continuedBeat t session now (computedZero session f) =
      continuedBeat client session now (computedZero session f) := by
    unfold continuedBeat
    rw [kept]
  obtain ⟨missing, -⟩ | ⟨-, again, ok', tempo', origin', beat', -⟩ :=
    updateClientTimelineFromSession_cases t now f nonzero
  · exact absurd ⟨invertible, fits, same ▸ whole⟩ missing
  · have equal : again = t := by
      cases t
      cases again
      obtain rfl := tempo'.trans tempo.symm
      obtain rfl := Duration.ext (origin'.trans origin.symm)
      obtain rfl := Beats.ext ((beat'.trans same).trans beat.symm)
      rfl
    rw [ok', equal]

theorem updateClientTimelineFromSession_exact_of_zero (zero : ℤ) :
    ((∀ t, updateClientTimelineFromSession client session now f = .ok t →
        t.tempo = session.tempo ∧ t.timeOrigin.nanos = zero ∧
        t.microbeatsAt now = client.microbeatsAt now ∧
        updateClientTimelineFromSession t session now f = .ok t) ∧
      ((∃ e, updateClientTimelineFromSession client session now f = .error e) ↔
        ¬f.Invertible ∨ ¬FitsDuration zero ∨
          ¬FitsI64 (continuedBeat client session now zero))) ↔
    ¬f.Invertible ∨ computedZero session f = zero ∨
      ¬Acceptable client session now (computedZero session f) ∧
        ¬Acceptable client session now zero := by
  have rejected : (¬f.Invertible ∨ ¬FitsDuration zero ∨
      ¬FitsI64 (continuedBeat client session now zero)) ↔
        ¬(f.Invertible ∧ Acceptable client session now zero) := by
    unfold Acceptable
    tauto
  rw [updateClientTimelineFromSession_error_iff client now f nonzero, rejected]
  constructor
  · rintro ⟨exact, errors⟩
    by_cases accepted : f.Invertible ∧ Acceptable client session now (computedZero session f)
    · obtain ⟨missing, -⟩ | ⟨-, t, ok, -, origin, -⟩ :=
        updateClientTimelineFromSession_cases client now f nonzero
      · exact absurd accepted missing
      · exact .inr (.inl (origin.symm.trans (exact t ok).2.1))
    · tauto
  · intro holds
    constructor
    · intro t ok
      obtain ⟨accepted, tempo, origin, -, kept⟩ :=
        updateClientTimelineFromSession_of_ok client now f nonzero ok
      have same : computedZero session f = zero := by tauto
      exact ⟨tempo, origin.trans same, kept,
        updateClientTimelineFromSession_again client now f nonzero ok⟩
    · obtain singular | same | neither := holds
      · tauto
      · rw [same]
      · tauto

end Update

/-- Mapping a session's timeline keeps its beat zero and fails only without an origin, exactly
where the difference to the intercept is not cut off, where the cut does not show in the rounded
quotient, or where neither quotient can be an origin. -/
theorem updateClientTimelineFromSession_exact_iff (client session : Timeline)
    (nonzero : session.tempo.periodMicros ≠ 0) (now : Duration) (f : GhostXForm) :
    let difference := session.nanosAtMicrobeats 0 - f.intercept.nanos
    let zero := f.hostImage difference
    let limit := if difference < 0 then i128Min else i128Max
    ((∀ t, updateClientTimelineFromSession client session now f = .ok t →
        t.tempo = session.tempo ∧ t.timeOrigin.nanos = zero ∧
        t.microbeatsAt now = client.microbeatsAt now ∧
        updateClientTimelineFromSession t session now f = .ok t) ∧
      ((∃ e, updateClientTimelineFromSession client session now f = .error e) ↔
        ¬f.Invertible ∨ ¬FitsDuration zero ∨
          ¬FitsI64 (continuedBeat client session now zero))) ↔
    ¬f.Invertible ∨ FitsI128 difference ∨ f.hostImage limit = zero ∨
      ¬Acceptable client session now (f.hostImage limit) ∧
        ¬Acceptable client session now zero := by
  intro difference zero limit
  rw [updateClientTimelineFromSession_exact_of_zero client now f nonzero zero]
  by_cases fits : FitsI128 difference
  · have whole : computedZero session f = zero := congrArg f.hostImage (saturate_of_fits fits)
    exact iff_of_true (.inr (.inl whole)) (.inr (.inl fits))
  · have cut : computedZero session f = f.hostImage limit := by
      refine congrArg f.hostImage ?_
      unfold limit saturate
      unfold FitsI128 at fits
      unfold i128Min i128Max at *
      split <;> omega
    rw [cut, iff_false_intro fits, false_or]

theorem updateClientTimelineFromSession_exact_iff_default :
    let client : Timeline := ⟨⟨120.0⟩, ⟨0⟩, Duration.zero⟩
    let f : GhostXForm := ⟨1.0, Duration.zero⟩
    let difference := client.nanosAtMicrobeats 0 - f.intercept.nanos
    let zero := f.hostImage difference
    let limit := if difference < 0 then i128Min else i128Max
    ((∀ t, updateClientTimelineFromSession client client Duration.zero f = .ok t →
        t.tempo = client.tempo ∧ t.timeOrigin.nanos = zero ∧
        t.microbeatsAt Duration.zero = client.microbeatsAt Duration.zero ∧
        updateClientTimelineFromSession t client Duration.zero f = .ok t) ∧
      ((∃ e, updateClientTimelineFromSession client client Duration.zero f = .error e) ↔
        ¬f.Invertible ∨ ¬FitsDuration zero ∨
          ¬FitsI64 (continuedBeat client client Duration.zero zero))) ↔
    ¬f.Invertible ∨ FitsI128 difference ∨ f.hostImage limit = zero ∨
      ¬Acceptable client client Duration.zero (f.hostImage limit) ∧
        ¬Acceptable client client Duration.zero zero :=
  updateClientTimelineFromSession_exact_iff _ _ (by decide +kernel) _ _

theorem updateClientTimelineFromSession_moved :
    let client : Timeline := ⟨⟨120.0⟩, ⟨0⟩, Duration.zero⟩
    let session : Timeline := ⟨⟨1e-32⟩, ⟨-1000⟩, Duration.zero⟩
    let f : GhostXForm := ⟨Float.ofBits 0x43B0000000000000, ⟨-2 ^ 71, by decide, by decide⟩⟩
    session.tempo.periodMicros ≠ 0 ∧
      f.hostImage (session.nanosAtMicrobeats 0 - f.intercept.nanos) = 2 ^ 67 + 2 ^ 11 ∧
      updateClientTimelineFromSession client session Duration.zero f =
        .ok ⟨⟨1e-32⟩, ⟨0⟩, ⟨2 ^ 67, by decide, by decide⟩⟩ := by
  intro client session f
  have difference : session.nanosAtMicrobeats 0 - f.intercept.nanos = 2 ^ 127 - 1 + 2 ^ 71 := by
    decide +kernel
  have value : Binary64.value f.slope = 2 ^ 60 := by
    rw [Binary64.value_eq
      (show Binary64.integerDecode f.slope = (2 ^ 52, 8, 1) by decide +kernel)]
    norm_num
  refine ⟨by decide +kernel, ?_, ?_⟩
  · unfold GhostXForm.hostImage
    rw [difference, value]
    apply roundHalfAway_eq_of_near <;> norm_num
  · decide +kernel

end AbletonLink.Link
