import AbletonLink.Link.Sessions
import AbletonLink.Link.TempoRange

/-! The session state an application captures and edits. -/

namespace AbletonLink.Link

open Library Library.MachineInt

structure ApiStartStopState where
  isPlaying : Bool
  time : Duration
  deriving DecidableEq

structure ApiState where
  timeline : Timeline
  timelineSessionId : SessionId
  startStopState : ApiStartStopState
  deriving DecidableEq

namespace Api

structure SessionState where
  originalState : ApiState
  state : ApiState
  respectQuantum : Bool
  origin : Option SessionEditOrigin

namespace SessionState

def new (state : ApiState) (respectQuantum : Bool) : SessionState :=
  { originalState := state, state, respectQuantum, origin := none }

def requestedTempo (self : SessionState) (bpm : Float) : Tempo :=
  (clampTempo { self.state.timeline with tempo := ⟨bpm⟩ }).tempo

/-- The beats from a time back to the origin, which the new tempo is to keep. -/
def originDifference (self : SessionState) (atTime : Duration) : Int :=
  saturate (self.state.timeline.beatOrigin.value.toInt - self.state.timeline.microbeatsAt atTime)

def setTempo (self : SessionState) (bpm : Float) (atTime : Duration) : SessionState :=
  let tempo := self.requestedTempo bpm
  if tempo == self.state.timeline.tempo then self
  else
    let timeOrigin := durationFromNanos
      (saturate (atTime.nanos + tempo.nanosFromMicrobeats (self.originDifference atTime)))
    { self with state.timeline := { self.state.timeline with tempo, timeOrigin } }

end SessionState

end Api

theorem Timeline.microbeatsAt_retimed (t : Timeline) (slow : 1000 ≤ t.tempo.periodMicros.natAbs)
    {now : Duration} {beat : ℤ} (small : (t.beatOrigin.value.toInt - beat).natAbs ≤ 2 ^ 101)
    (origin : t.timeOrigin.nanos =
      now.nanos + t.tempo.nanosFromMicrobeats (t.beatOrigin.value.toInt - beat)) :
    t.microbeatsAt now = beat := by
  have fits : FitsI128 (roundHalfAway
      (((t.beatOrigin.value.toInt - beat : ℤ) : ℚ) * t.tempo.periodMicros / 1000)) := by
    have inside := t.timeOrigin.fits
    have time := now.fits
    rw [origin, t.tempo.nanosFromMicrobeats_eq] at inside
    generalize roundHalfAway _ = exact at inside
    unfold FitsDuration Duration.minNanos Duration.maxNanos at inside time
    unfold FitsI128
    unfold saturate i128Min i128Max at *
    omega
  apply t.microbeatsAt_continued (by omega)
  rw [origin, add_sub_cancel_left, t.tempo.microbeatsFromNanos_nanosFromMicrobeats slow fits,
    saturate_of_fits (by unfold FitsI128 i128Min i128Max; omega)]
  omega

namespace Api.SessionState

variable (s : SessionState)

theorem originDifference_exact (nonzero : s.state.timeline.tempo.periodMicros ≠ 0)
    (atTime : Duration) :
    s.originDifference atTime =
        s.state.timeline.beatOrigin.value.toInt - s.state.timeline.microbeatsAt atTime ∧
      (s.originDifference atTime).natAbs ≤ 2 ^ 101 := by
  have small := (s.state.timeline.microbeatsAt_exact nonzero atTime).2
  have bounds := i64_bounds s.state.timeline.beatOrigin.value
  unfold originDifference
  unfold i64Min i64Max at bounds
  unfold saturate i128Min i128Max
  omega

theorem requestedTempo_inRange (bpm : Float) : (s.requestedTempo bpm).InRange :=
  (clamped_clampTempo { s.state.timeline with tempo := ⟨bpm⟩ }).inRange

theorem setTempo_same {bpm : Float} (same : s.requestedTempo bpm = s.state.timeline.tempo)
    (atTime : Duration) : s.setTempo bpm atTime = s :=
  if_pos ((s.requestedTempo_inRange bpm).beq_iff.mpr same)

theorem setTempo_other {bpm : Float} (other : s.requestedTempo bpm ≠ s.state.timeline.tempo)
    (atTime : Duration) :
    (s.setTempo bpm atTime).state.timeline = ⟨s.requestedTempo bpm, s.state.timeline.beatOrigin,
      durationFromNanos (saturate (atTime.nanos +
        (s.requestedTempo bpm).nanosFromMicrobeats (s.originDifference atTime)))⟩ := by
  unfold setTempo
  dsimp only
  rw [if_neg (mt (s.requestedTempo_inRange bpm).beq_iff.mp other)]

theorem setTempo_other_keeps (clamped : s.state.timeline.Clamped) {bpm : Float}
    (other : s.requestedTempo bpm ≠ s.state.timeline.tempo) {atTime : Duration}
    (fits : FitsDuration (atTime.nanos + (s.requestedTempo bpm).nanosFromMicrobeats
      (s.state.timeline.beatOrigin.value.toInt - s.state.timeline.microbeatsAt atTime))) :
    (s.setTempo bpm atTime).state.timeline.microbeatsAt atTime =
      s.state.timeline.microbeatsAt atTime := by
  have slow : 1000 ≤ (s.requestedTempo bpm).periodMicros.natAbs := by
    obtain ⟨least, -⟩ := s.requestedTempo_inRange bpm
    omega
  have nonzero : s.state.timeline.tempo.periodMicros ≠ 0 := by
    obtain ⟨least, -⟩ := clamped.inRange
    omega
  obtain ⟨exact, small⟩ := s.originDifference_exact nonzero atTime
  have timeline := s.setTempo_other other atTime
  rw [exact] at timeline small
  rw [saturate_of_fits fits.i128] at timeline
  rw [timeline]
  apply Timeline.microbeatsAt_retimed
  · exact slow
  · exact small
  · exact nanos_durationFromNanos fits

/-- Setting the tempo keeps the beat at the time of the edit and the beat origin, where the new
origin is a duration; setting the same tempo changes nothing. -/
theorem setTempo_keeps_beat (clamped : s.state.timeline.Clamped) (bpm : Float)
    (atTime : Duration) :
    let tempo := s.requestedTempo bpm
    let difference := s.state.timeline.beatOrigin.value.toInt - s.state.timeline.microbeatsAt atTime
    let edited := s.setTempo bpm atTime
    (tempo = s.state.timeline.tempo → edited = s) ∧
    (FitsDuration (atTime.nanos + tempo.nanosFromMicrobeats difference) →
      edited.state.timeline.microbeatsAt atTime = s.state.timeline.microbeatsAt atTime ∧
      edited.state.timeline.beatOrigin = s.state.timeline.beatOrigin ∧
      edited.state.timeline.tempo = tempo) := by
  intro tempo difference edited
  refine ⟨fun same => s.setTempo_same same atTime, fun fits => ?_⟩
  by_cases same : tempo = s.state.timeline.tempo
  · have kept : edited = s := s.setTempo_same same atTime
    rw [kept]
    exact ⟨rfl, rfl, same.symm⟩
  · have timeline := s.setTempo_other same atTime
    refine ⟨s.setTempo_other_keeps clamped same fits, ?_, ?_⟩
    · show (s.setTempo bpm atTime).state.timeline.beatOrigin = _
      rw [timeline]
    · show (s.setTempo bpm atTime).state.timeline.tempo = _
      rw [timeline]

theorem setTempo_keeps_beat_halved :
    let s := SessionState.new ⟨⟨⟨120.0⟩, ⟨7⟩, Duration.zero⟩, default, ⟨false, Duration.zero⟩⟩ true
    let atTime : Duration := ⟨10000000000, by decide, by decide⟩
    let tempo := s.requestedTempo 60.0
    let difference := s.state.timeline.beatOrigin.value.toInt - s.state.timeline.microbeatsAt atTime
    let edited := s.setTempo 60.0 atTime
    (tempo = s.state.timeline.tempo → edited = s) ∧
    (FitsDuration (atTime.nanos + tempo.nanosFromMicrobeats difference) →
      edited.state.timeline.microbeatsAt atTime = s.state.timeline.microbeatsAt atTime ∧
      edited.state.timeline.beatOrigin = s.state.timeline.beatOrigin ∧
      edited.state.timeline.tempo = tempo) ∧
    FitsDuration (atTime.nanos + tempo.nanosFromMicrobeats difference) := by
  intro s atTime tempo difference edited
  obtain ⟨same, keeps⟩ :=
    s.setTempo_keeps_beat (show clampTempo _ = _ by decide +kernel) 60.0 atTime
  exact ⟨same, keeps, by decide +kernel⟩

end Api.SessionState

end AbletonLink.Link
