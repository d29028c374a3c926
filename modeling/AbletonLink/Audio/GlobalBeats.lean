import AbletonLink.Audio.SinkBuffers
import AbletonLink.Link.PhaseMatch

/-! Global beats: what a peer makes of its local beats does not depend on its own origin and
quantum. -/

namespace AbletonLink.Audio

open Library Library.MachineInt Link

def beatAtGlobalBeat (timeline : Timeline) (globalBeat quantum : Beats) : Beats :=
  globalBeat + toPhaseEncodedBeats timeline timeline.timeOrigin quantum

def beatsDiff (timeline : Timeline) (quantum : Beats) : Int :=
  toPhaseEncodedMicrobeats timeline timeline.timeOrigin quantum

/-- No step from the time to the global beat saturates. -/
structure Unsaturated (timeline : Timeline) (time : Duration) (quantum : Beats) : Prop where
  encoded : FitsI64 (toPhaseEncodedMicrobeats timeline time quantum)
  diff : FitsI64 (beatsDiff timeline quantum)
  global : FitsI64 (toPhaseEncodedMicrobeats timeline time quantum - beatsDiff timeline quantum)

section Difference

variable {timeline : Timeline} {time : Duration} {quantum : Beats}

theorem saturate_of_i64 {x : Int} (fits : FitsI64 (saturate x)) : saturate x = x := by
  apply saturate_of_fits
  unfold FitsI64 saturate i64Min i64Max at fits
  unfold FitsI128
  unfold i128Min i128Max at *
  omega

theorem microbeatsFromNanos_zero (tempo : Tempo) : tempo.microbeatsFromNanos 0 = 0 := by
  by_cases zero : tempo.periodMicros = 0
  · unfold Tempo.microbeatsFromNanos
    rw [if_pos zero, zero]
    rfl
  · have small := tempo.microbeatsFromNanos_le zero 0
    omega

theorem encoded_eq (fits : FitsI64 (toPhaseEncodedMicrobeats timeline time quantum)) :
    toPhaseEncodedMicrobeats timeline time quantum =
      timeline.tempo.microbeatsFromNanos (time.nanos - timeline.timeOrigin.nanos) +
        timeline.beatOrigin.value.toInt +
          quantumShift (-timeline.beatOrigin.value.toInt) quantum := by
  have shift := quantumShift_le quantum (-timeline.beatOrigin.value.toInt)
  rw [toPhaseEncodedMicrobeats_eq] at fits ⊢
  have outer := saturate_of_i64 fits
  rw [outer] at fits ⊢
  have beat : timeline.microbeatsAt time = saturate
      (timeline.tempo.microbeatsFromNanos (time.nanos - timeline.timeOrigin.nanos) +
        timeline.beatOrigin.value.toInt) := by
    unfold Timeline.microbeatsAt Timeline.microbeatsAtNanos
    rw [Timeline.saturate_elapsed]
  have inner : timeline.microbeatsAt time = _ := beat.trans (saturate_of_fits (by
    rw [beat] at fits
    unfold FitsI64 saturate i64Min i64Max at fits
    unfold FitsI128
    unfold i128Min i128Max at *
    omega))
  rw [inner]

theorem beatsDiff_eq (fits : FitsI64 (beatsDiff timeline quantum)) :
    beatsDiff timeline quantum = timeline.beatOrigin.value.toInt +
      quantumShift (-timeline.beatOrigin.value.toInt) quantum := by
  have encoded := encoded_eq fits
  rwa [sub_self, microbeatsFromNanos_zero, zero_add] at encoded

theorem beatsDiff_congruent (fits : FitsI64 (beatsDiff timeline quantum))
    (nonzero : quantum.value.toInt ≠ 0) :
    beatsDiff timeline quantum ≡ 0 [ZMOD quantum.value.toInt.natAbs] := by
  have shift := Int.bmod_emod (x := -timeline.beatOrigin.value.toInt)
    (m := quantum.value.toInt.natAbs)
  rw [beatsDiff_eq fits, quantumShift, if_neg nonzero]
  have sum := Int.ModEq.add_left timeline.beatOrigin.value.toInt shift
  rwa [add_neg_cancel] at sum

end Difference

section Conversions

variable {timeline : Timeline} {quantum : Beats}

theorem toInt_narrow {x : Int} (fits : FitsI64 x) : (narrowBeats x).value.toInt = x :=
  narrow_of_fits fits.1 fits.2

theorem toInt_globalBeatAtBeat {beat : Beats} (diff : FitsI64 (beatsDiff timeline quantum))
    (fits : FitsI64 (beat.value.toInt - beatsDiff timeline quantum)) :
    (globalBeatAtBeat timeline beat quantum).value.toInt =
      beat.value.toInt - beatsDiff timeline quantum := by
  have own : (toPhaseEncodedBeats timeline timeline.timeOrigin quantum).value.toInt =
      beatsDiff timeline quantum := toInt_narrow diff
  rw [← own] at fits ⊢
  exact toInt_narrow fits

theorem toInt_globalBeat_at {time : Duration} (h : Unsaturated timeline time quantum) :
    (globalBeatAtBeat timeline (toPhaseEncodedBeats timeline time quantum) quantum).value.toInt =
      timeline.tempo.microbeatsFromNanos (time.nanos - timeline.timeOrigin.nanos) := by
  have encoded : (toPhaseEncodedBeats timeline time quantum).value.toInt =
      toPhaseEncodedMicrobeats timeline time quantum := toInt_narrow h.encoded
  rw [toInt_globalBeatAtBeat h.diff (encoded ▸ h.global), encoded, encoded_eq h.encoded,
    beatsDiff_eq h.diff]
  ring

theorem beatAtGlobalBeat_globalBeatAtBeat {beat : Beats}
    (fits : FitsI64 (beat.value.toInt -
      (toPhaseEncodedBeats timeline timeline.timeOrigin quantum).value.toInt)) :
    beatAtGlobalBeat timeline (globalBeatAtBeat timeline beat quantum) quantum = beat := by
  have global : (globalBeatAtBeat timeline beat quantum).value.toInt = _ := toInt_narrow fits
  refine Beats.ext ((toInt_narrow ?_).trans ?_) <;> rw [global, sub_add_cancel]
  exact i64_bounds beat.value

theorem phase_globalBeatAtBeat {beat : Beats} (diff : FitsI64 (beatsDiff timeline quantum))
    (fits : FitsI64 (beat.value.toInt - beatsDiff timeline quantum)) :
    phase (globalBeatAtBeat timeline beat quantum) quantum = phase beat quantum := by
  by_cases zero : quantum.value.toInt = 0
  · exact phase_zero zero _ _
  · refine phase_congr ?_
    rw [toInt_globalBeatAtBeat diff fits]
    have sum := Int.ModEq.sub_left beat.value.toInt (beatsDiff_congruent diff zero)
    rwa [sub_zero] at sum

end Conversions

/-- Peers that share tempo and time origin compute the same global beat, whatever their own origin
and quantum; the way back is exact and keeps the phase. -/
theorem global_beats_agree :
    (∀ timeline time quantum, Unsaturated timeline time quantum →
      (globalBeatAtBeat timeline (toPhaseEncodedBeats timeline time quantum) quantum).value.toInt =
        timeline.tempo.microbeatsFromNanos (time.nanos - timeline.timeOrigin.nanos)) ∧
    (∀ a b time qa qb, Unsaturated a time qa → Unsaturated b time qb → a.tempo = b.tempo →
      a.timeOrigin = b.timeOrigin →
      globalBeatAtBeat a (toPhaseEncodedBeats a time qa) qa =
        globalBeatAtBeat b (toPhaseEncodedBeats b time qb) qb) ∧
    (∀ timeline beat quantum,
      FitsI64 (beat.value.toInt -
        (toPhaseEncodedBeats timeline timeline.timeOrigin quantum).value.toInt) →
      beatAtGlobalBeat timeline (globalBeatAtBeat timeline beat quantum) quantum = beat) ∧
    ∀ timeline beat quantum, FitsI64 (beatsDiff timeline quantum) →
      FitsI64 (beat.value.toInt - beatsDiff timeline quantum) →
      phase (globalBeatAtBeat timeline beat quantum) quantum = phase beat quantum := by
  refine ⟨fun _ _ _ => toInt_globalBeat_at, ?_,
    fun _ _ _ => beatAtGlobalBeat_globalBeatAtBeat, fun _ _ _ => phase_globalBeatAtBeat⟩
  intro a b time qa qb ha hb tempo origin
  refine Beats.ext ?_
  rw [toInt_globalBeat_at ha, toInt_globalBeat_at hb, tempo, origin]

theorem global_beats_agree_twoPeers :
    let a : Timeline := ⟨⟨120.0⟩, ⟨3000001⟩, .microseconds 1000000⟩
    let b : Timeline := ⟨⟨120.0⟩, ⟨-7⟩, .microseconds 1000000⟩
    let time := Duration.microseconds 2000000
    globalBeatAtBeat a (toPhaseEncodedBeats a time ⟨-2000000⟩) ⟨-2000000⟩ =
      globalBeatAtBeat b (toPhaseEncodedBeats b time ⟨0⟩) ⟨0⟩ := by
  intro a b time
  have first : Unsaturated a time ⟨-2000000⟩ :=
    ⟨by decide +kernel, by decide +kernel, by decide +kernel⟩
  have second : Unsaturated b time ⟨0⟩ :=
    ⟨by decide +kernel, by decide +kernel, by decide +kernel⟩
  exact global_beats_agree.2.1 a b time ⟨-2000000⟩ ⟨0⟩ first second rfl rfl

end AbletonLink.Audio
