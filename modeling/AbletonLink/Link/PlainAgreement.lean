import AbletonLink.Link.FastAnchor
import AbletonLink.Link.PlainLaws

/-! For the period of a tempo the checked arithmetic gives what the unbounded one does. -/

namespace AbletonLink.Link

open Library Library.MachineInt

namespace Plain

theorem agrees_checkedRoundRatio {n d : ℤ} : Agrees (checkedRoundRatio n d) (roundRatio n d) := by
  unfold checkedRoundRatio
  by_cases zero : d = 0
  · rw [if_pos zero]
    exact Agrees.pure
  · unfold roundRatio
    rw [if_neg zero, if_neg zero]
    refine Agrees.bind agrees_checked ?_
    exact agrees_checked.ite Agrees.pure

section Tempo

variable (t : Tempo)

theorem agrees_microbeatsFromNanos (nanos : ℤ) :
    Agrees (microbeatsFromNanos t.periodMicros nanos) (t.microbeatsFromNanos nanos) :=
  Agrees.of_eq (t.checkedMicrobeatsFromNanos_eq nanos)

theorem agrees_scaledFromMicrobeats (scale period beats : ℤ) :
    Agrees (scaledFromMicrobeats scale period beats)
      (saturate (saturate (saturate (beats.tdiv scale * period) +
          saturate (beats.tmod scale * period.tdiv scale)) +
        roundRatio (beats.tmod scale * period.tmod scale) scale)) := by
  refine Agrees.bind agrees_checkedDiv ?_
  refine Agrees.bind agrees_checkedRem ?_
  refine Agrees.bind agrees_checkedDiv ?_
  refine Agrees.bind agrees_checkedRem ?_
  refine Agrees.bind agrees_checked ?_
  refine Agrees.bind agrees_checkedRoundRatio ?_
  exact Agrees.pure

theorem agrees_microsFromMicrobeats (beats : ℤ) :
    Agrees (microsFromMicrobeats t.periodMicros beats) (t.microsFromMicrobeats beats) :=
  agrees_scaledFromMicrobeats _ _ _

theorem agrees_nanosFromMicrobeats (beats : ℤ) :
    Agrees (nanosFromMicrobeats t.periodMicros beats) (t.nanosFromMicrobeats beats) :=
  agrees_scaledFromMicrobeats _ _ _

end Tempo

theorem agrees_durationNanos {d : Duration} : Agrees (durationNanos d) d.nanos :=
  (ends_durationNanos d).agrees

theorem agrees_durationFromNanos {nanos : ℤ} :
    Agrees (durationFromNanos nanos) (Link.durationFromNanos nanos) :=
  (ends_durationFromNanos nanos).agrees

section Timeline

variable (t : Timeline)

theorem agrees_microbeatsAtNanos (nanos : ℤ) :
    Agrees (microbeatsAtNanos t.withPeriod nanos) (t.microbeatsAtNanos nanos) := by
  refine Agrees.bind agrees_durationNanos ?_
  refine Agrees.bind (agrees_microbeatsFromNanos t.tempo _) ?_
  exact Agrees.pure

theorem agrees_microbeatsAt (time : Duration) :
    Agrees (microbeatsAt t.withPeriod time) (t.microbeatsAt time) := by
  refine Agrees.bind agrees_durationNanos ?_
  exact agrees_microbeatsAtNanos t _

theorem agrees_nanosAtMicrobeats (beats : ℤ) :
    Agrees (nanosAtMicrobeats t.withPeriod beats) (t.nanosAtMicrobeats beats) := by
  refine Agrees.bind agrees_checked ?_
  refine Agrees.bind (agrees_nanosFromMicrobeats t.tempo _) ?_
  refine Agrees.bind agrees_durationNanos ?_
  exact Agrees.pure

theorem agrees_timeAtMicrobeats (beats : ℤ) :
    Agrees (timeAtMicrobeats t.withPeriod beats) (t.timeAtMicrobeats beats) := by
  refine Agrees.bind (agrees_nanosAtMicrobeats t beats) ?_
  exact agrees_durationFromNanos

end Timeline

section Phase

theorem agrees_phaseWide {beats quantum : ℤ} :
    Agrees (phaseWide beats quantum) (Link.phaseWide beats quantum) := by
  unfold phaseWide Link.phaseWide
  refine Agrees.pure.ite ?_
  refine Agrees.bind agrees_checkedAbs ?_
  exact agrees_checkedRemEuclid

theorem agrees_matchOffset {x target quantum : ℤ} :
    Agrees (matchOffset x target quantum)
      (Link.phaseWide (Link.phaseWide target quantum - Link.phaseWide x quantum) quantum) := by
  refine Agrees.bind agrees_phaseWide ?_
  refine Agrees.bind agrees_phaseWide ?_
  refine Agrees.bind agrees_checked ?_
  exact agrees_phaseWide

theorem agrees_nextPhaseMatchWide {x target quantum : ℤ} :
    Agrees (nextPhaseMatchWide x target quantum) (Link.nextPhaseMatchWide x target quantum) := by
  refine Agrees.bind agrees_matchOffset ?_
  exact Agrees.pure

theorem agrees_closestPhaseMatchWide {x target quantum : ℤ} :
    Agrees (closestPhaseMatchWide x target quantum)
      (Link.closestPhaseMatchWide x target quantum) := by
  refine Agrees.bind agrees_checkedAbs ?_
  refine Agrees.pure.ite ?_
  refine Agrees.bind agrees_matchOffset ?_
  refine Agrees.bind agrees_checked ?_
  refine Agrees.bind (agrees_checked.ite Agrees.pure) ?_
  exact Agrees.pure

end Phase

section Encoding

variable (t : Timeline)

theorem agrees_toPhaseEncodedMicrobeats (time : Duration) (quantum : Beats) :
    Agrees (toPhaseEncodedMicrobeats t.withPeriod time quantum)
      (Link.toPhaseEncodedMicrobeats t time quantum) := by
  refine Agrees.bind (agrees_microbeatsAt t time) ?_
  refine Agrees.bind agrees_phaseWide ?_
  refine Agrees.bind agrees_phaseWide ?_
  refine Agrees.bind agrees_checked ?_
  exact agrees_closestPhaseMatchWide

theorem agrees_fromPhaseEncodedBeats (beat quantum : Beats) :
    Agrees (fromPhaseEncodedBeats t.withPeriod beat quantum)
      (Link.fromPhaseEncodedBeats t beat quantum) := by
  refine Agrees.bind agrees_checkedAbs ?_
  refine Agrees.bind agrees_checked ?_
  refine Agrees.bind agrees_phaseWide ?_
  refine Agrees.bind agrees_checked ?_
  refine Agrees.bind agrees_checked ?_
  refine Agrees.bind agrees_phaseWide ?_
  refine Agrees.bind agrees_checked ?_
  refine Agrees.bind agrees_closestPhaseMatchWide ?_
  refine Agrees.bind agrees_checked ?_
  refine Agrees.bind agrees_checked ?_
  refine Agrees.bind agrees_checked ?_
  exact agrees_timeAtMicrobeats t _

theorem agrees_shiftedTimeOriginNanos (shift : ℤ) :
    Agrees (shiftedTimeOriginNanos t.withPeriod shift) (Link.shiftedTimeOriginNanos t shift) := by
  refine Agrees.bind agrees_checkedRem ?_
  refine Agrees.bind agrees_checkedDiv ?_
  refine Agrees.bind agrees_checked ?_
  refine Agrees.bind agrees_checked ?_
  refine Agrees.bind agrees_checkedRoundRatio ?_
  refine Agrees.bind agrees_checked ?_
  refine Agrees.bind agrees_checked ?_
  refine Agrees.bind agrees_checkedRoundRatio ?_
  refine Agrees.bind agrees_checked ?_
  refine Agrees.bind agrees_durationNanos ?_
  exact Agrees.pure

theorem agrees_shiftClientTimeline (shift : Beats) :
    Agrees (shiftClientTimeline t.withPeriod shift)
      (Link.shiftClientTimeline t shift).withPeriod := by
  refine Agrees.bind (agrees_shiftedTimeOriginNanos t _) ?_
  refine Agrees.bind agrees_durationFromNanos ?_
  exact Agrees.pure

end Encoding

section FastAnchor

variable (t : Timeline) (beat : Beats) (time : Duration) (quantum : Beats)

theorem agrees_euclidNext {s : Euclid} : Agrees (euclidNext s) s.next := by
  refine Agrees.bind agrees_checkedDiv ?_
  refine Agrees.bind agrees_checked ?_
  refine Agrees.bind agrees_checked ?_
  refine Agrees.bind agrees_checked ?_
  refine Agrees.bind agrees_checked ?_
  exact Agrees.pure

theorem agrees_euclidLoop (fuel : ℕ) (s : Euclid) : Agrees (euclidLoop fuel s) s.loop := by
  induction fuel generalizing s with
  | zero =>
    intro _ same
    cases same
  | succ fuel ih =>
    unfold euclidLoop Euclid.loop
    refine Agrees.pure.ite ?_
    refine Agrees.bind agrees_euclidNext ?_
    exact ih s.next

variable {t beat time quantum}

theorem agrees_fastAnchorAt
    {magnitude divisor modulus inverse minimum maximum span direction sign residue : ℤ} :
    Agrees (fastAnchorAt t.withPeriod beat time quantum magnitude divisor modulus inverse minimum
        maximum span direction sign residue)
      ((Link.fastAnchorAt t beat time quantum magnitude divisor modulus inverse minimum maximum span
        direction sign residue).map Timeline.withPeriod) := by
  unfold Link.fastAnchorAt
  refine Agrees.bind agrees_checked ?_
  refine Agrees.bind agrees_checkedRoundRatio ?_
  generalize roundRatio (1000 * residue) magnitude = rounded
  refine Agrees.bind agrees_checked ?_
  refine Agrees.bind agrees_checked ?_
  refine Agrees.bind agrees_checkedRemEuclid ?_
  dsimp only
  simp only [apply_ite (Option.map Timeline.withPeriod), Option.map_none, Option.map_some]
  refine Agrees.pure.ite ?_
  refine Agrees.bind agrees_checkedDiv ?_
  refine Agrees.bind agrees_checkedRemEuclid ?_
  refine Agrees.bind agrees_checked ?_
  refine Agrees.bind agrees_checkedRemEuclid ?_
  refine Agrees.bind agrees_checked ?_
  refine Agrees.bind agrees_checked ?_
  refine Agrees.bind agrees_checkedDivEuclid ?_
  refine Agrees.bind agrees_checked ?_
  refine Agrees.bind agrees_checkedDivEuclid ?_
  refine Agrees.bind agrees_checked ?_
  refine Agrees.bind agrees_checkedDiv ?_
  refine Agrees.bind agrees_checked ?_
  refine Agrees.bind agrees_checkedRemEuclid ?_
  refine Agrees.bind agrees_checked ?_
  refine Agrees.pure.ite ?_
  generalize max ((minimum - rounded + 999) / 1000) 0 + _ % modulus = cycles
  refine Agrees.bind agrees_checked ?_
  refine Agrees.bind agrees_checked ?_
  refine Agrees.bind agrees_checked ?_
  refine Agrees.bind agrees_checked ?_
  refine Agrees.bind agrees_checkedAbs ?_
  refine Agrees.bind agrees_closestPhaseMatchWide ?_
  refine Agrees.pure.ite ?_
  refine Agrees.bind agrees_checked ?_
  refine Agrees.bind agrees_checked ?_
  refine Agrees.bind agrees_checked ?_
  refine Agrees.bind agrees_durationNanos ?_
  refine Agrees.bind agrees_checked ?_
  refine Agrees.bind agrees_durationFromNanos ?_
  refine Agrees.bind (agrees_toPhaseEncodedMicrobeats
    { t with beatOrigin := narrowBeats _, timeOrigin := _ } time quantum) ?_
  exact Agrees.pure

theorem agrees_firstWithin {span : ℤ} {anchorAt : ℤ → Option (Option PeriodTimeline)}
    {anchorAt' : ℤ → Option Timeline}
    (each : ∀ residue, Agrees (anchorAt residue) ((anchorAt' residue).map Timeline.withPeriod))
    (residues : List ℕ) :
    Agrees (firstWithin span anchorAt residues)
      ((Link.firstWithin span anchorAt' residues).map Timeline.withPeriod) := by
  induction residues with
  | nil => exact Agrees.pure
  | cons residue residues ih =>
    unfold firstWithin Link.firstWithin
    rw [apply_ite (Option.map Timeline.withPeriod)]
    refine Agrees.pure.ite ?_
    refine Agrees.bind (each residue) ?_
    cases anchorAt' residue with
    | none => exact ih
    | some anchored => exact Agrees.pure

theorem agrees_anchorTowards (direction : ℤ) :
    Agrees (anchorTowards t.withPeriod beat time quantum t.tempo.periodMicros.natAbs
        (Link.closestPhaseMatchWide i64Min 0 quantum.value.toInt.natAbs)
        (Link.closestPhaseMatchWide i64Max 0 quantum.value.toInt.natAbs)
        (anchorLoop quantum).divisor (anchorModulus quantum)
        ((anchorLoop quantum).inverse % anchorModulus quantum) direction)
      ((Link.anchorTowards t beat time quantum direction).map Timeline.withPeriod) := by
  have bounds : anchorBounds beat quantum (direction * t.tempo.periodMicros.sign) =
    (if direction * t.tempo.periodMicros.sign > 0 then
        beat.value.toInt - Link.closestPhaseMatchWide i64Max 0 quantum.value.toInt.natAbs
      else Link.closestPhaseMatchWide i64Min 0 quantum.value.toInt.natAbs - beat.value.toInt,
      if direction * t.tempo.periodMicros.sign > 0 then
        beat.value.toInt - Link.closestPhaseMatchWide i64Min 0 quantum.value.toInt.natAbs
      else Link.closestPhaseMatchWide i64Max 0 quantum.value.toInt.natAbs - beat.value.toInt) := by
    unfold anchorBounds
    split <;> rfl
  unfold Link.anchorTowards
  rw [bounds]
  refine Agrees.bind agrees_checked ?_
  refine Agrees.bind (agrees_checked.ite agrees_checked) ?_
  refine Agrees.bind (agrees_checked.ite agrees_checked) ?_
  rw [apply_ite (Option.map Timeline.withPeriod)]
  refine Agrees.pure.ite ?_
  refine Agrees.bind agrees_durationNanos ?_
  refine Agrees.bind agrees_durationNanos ?_
  refine Agrees.bind agrees_durationNanos ?_
  refine Agrees.bind (agrees_checked.ite agrees_checked) ?_
  refine agrees_firstWithin ?_ _
  intro residue
  unfold anchorOf
  dsimp only
  rw [bounds]
  exact agrees_fastAnchorAt

theorem agrees_exactFastAnchor :
    Agrees (exactFastAnchor t.withPeriod beat time quantum)
      ((Link.exactFastAnchor t beat time quantum).map Timeline.withPeriod) := by
  refine Agrees.bind agrees_checkedAbs ?_
  rw [Timeline.period_withPeriod]
  by_cases slow : ¬(1 ≤ (t.tempo.periodMicros.natAbs : ℤ) ∧
    (t.tempo.periodMicros.natAbs : ℤ) < 1000) ∨ (quantum.value.toInt.natAbs : ℤ) = 0
  · unfold Link.exactFastAnchor
    rw [if_pos slow, if_pos slow]
    exact Agrees.pure
  · rw [exactFastAnchor_eq t beat time quantum (by omega) (by omega) (by omega), if_neg slow]
    refine Agrees.bind agrees_closestPhaseMatchWide ?_
    refine Agrees.bind agrees_closestPhaseMatchWide ?_
    refine Agrees.bind (agrees_euclidLoop _ _) ?_
    refine Agrees.bind agrees_checkedDiv ?_
    refine Agrees.bind agrees_checkedRemEuclid ?_
    refine Agrees.bind (agrees_anchorTowards 1) ?_
    rw [List.findSome?_cons]
    cases Link.anchorTowards t beat time quantum 1 with
    | none =>
      rw [List.findSome?_singleton]
      exact agrees_anchorTowards (-1)
    | some anchored => exact Agrees.pure

end FastAnchor

section ForceBeat

variable {t : Timeline} {beat : Beats} {time : Duration} {quantum : Beats}

theorem agrees_anchoredAt {precise : Bool} {boundary : ℤ} :
    Agrees (anchoredAt t.withPeriod beat time quantum precise boundary)
      ((Link.anchoredAt t beat time quantum precise boundary).map Timeline.withPeriod) := by
  unfold Link.anchoredAt
  refine Agrees.bind agrees_closestPhaseMatchWide ?_
  dsimp only
  simp only [apply_ite (Option.map Timeline.withPeriod), Option.map_none, Option.map_some]
  refine Agrees.pure.ite ?_
  refine Agrees.bind agrees_checked ?_
  cases precise with
  | true =>
    refine Agrees.bind (agrees_nanosFromMicrobeats t.tempo _) ?_
    refine Agrees.bind agrees_durationNanos ?_
    refine Agrees.bind agrees_durationNanos ?_
    refine Agrees.bind agrees_durationNanos ?_
    rw [if_pos (.inl rfl), if_pos (.inl rfl)]
    refine Agrees.bind agrees_durationFromNanos ?_
    refine Agrees.bind (agrees_toPhaseEncodedMicrobeats
      { t with beatOrigin := narrowBeats boundary, timeOrigin := _ } time quantum) ?_
    simp only [Bool.true_eq_false, false_or]
    exact Agrees.pure
  | false =>
    refine Agrees.bind ((agrees_microsFromMicrobeats t.tempo _).bind Agrees.pure) ?_
    refine Agrees.bind agrees_durationNanos ?_
    refine Agrees.bind agrees_durationNanos ?_
    refine Agrees.bind agrees_durationNanos ?_
    refine Agrees.ite ?_ Agrees.pure
    refine Agrees.bind agrees_durationFromNanos ?_
    rw [if_neg Bool.false_ne_true, if_pos (.inl rfl)]
    exact Agrees.pure

theorem agrees_anchoredAtEither {precise : Bool} {boundary next : ℤ} :
    Agrees (anchoredAtEither t.withPeriod beat time quantum precise boundary next)
      (([boundary, next].findSome? (Link.anchoredAt t beat time quantum precise)).map
        Timeline.withPeriod) := by
  refine Agrees.bind agrees_anchoredAt ?_
  rw [List.findSome?_cons, List.findSome?_singleton]
  cases Link.anchoredAt t beat time quantum precise boundary with
  | none => exact agrees_anchoredAt
  | some anchored => exact Agrees.pure

theorem agrees_forceBeatAtTimeImpl :
    Agrees (forceBeatAtTimeImpl t.withPeriod beat time quantum)
      (Link.forceBeatAtTimeImpl t beat time quantum).withPeriod := by
  refine Agrees.bind (agrees_toPhaseEncodedMicrobeats t time quantum) ?_
  refine Agrees.bind agrees_closestPhaseMatchWide ?_
  refine Agrees.bind agrees_checked ?_
  refine Agrees.bind (agrees_shiftedTimeOriginNanos t _) ?_
  refine Agrees.bind agrees_checked ?_
  refine Agrees.bind agrees_durationNanos ?_
  refine Agrees.bind agrees_durationNanos ?_
  refine Agrees.bind agrees_durationFromNanos ?_
  unfold Link.forceBeatAtTimeImpl
  dsimp only
  rw [Timeline.beatOrigin_withPeriod]
  generalize Link.closestPhaseMatchWide (Link.toPhaseEncodedMicrobeats t time quantum) _ _ = closest
  generalize Link.shiftedTimeOriginNanos t _ = nanos
  generalize saturate (_ - closest) = beatOrigin
  refine Agrees.bind (x := decide ((¬(i64Min ≤ beatOrigin ∧ beatOrigin ≤ i64Max) ∨
    ¬(Duration.MIN.nanos ≤ nanos ∧ nanos ≤ Duration.MAX.nanos)) ∨ Link.toPhaseEncodedMicrobeats
      { t with beatOrigin := narrowBeats beatOrigin, timeOrigin := Link.durationFromNanos nanos }
      time quantum ≠ beat.value.toInt)) ?_ ?_
  · by_cases out : ¬(i64Min ≤ beatOrigin ∧ beatOrigin ≤ i64Max) ∨
      ¬(Duration.MIN.nanos ≤ nanos ∧ nanos ≤ Duration.MAX.nanos)
    · rw [if_pos out, decide_eq_true (.inl out)]
      exact Agrees.pure
    · rw [if_neg out]
      refine Agrees.bind (agrees_toPhaseEncodedMicrobeats
        { t with beatOrigin := narrowBeats beatOrigin, timeOrigin := Link.durationFromNanos nanos }
        time quantum) ?_
      simp only [out, false_or]
      exact Agrees.pure
  · simp only [decide_eq_true_eq]
    rw [apply_ite Timeline.withPeriod]
    refine Agrees.ite ?_ Agrees.pure
    refine Agrees.bind agrees_phaseWide ?_
    refine Agrees.bind agrees_checked ?_
    refine Agrees.bind agrees_checkedAbs ?_
    refine Agrees.bind agrees_checked ?_
    refine Agrees.bind agrees_anchoredAtEither ?_
    cases List.findSome? (Link.anchoredAt t beat time quantum true) _ with
    | some anchored => exact Agrees.pure
    | none =>
      refine Agrees.bind agrees_exactFastAnchor ?_
      cases Link.exactFastAnchor t beat time quantum with
      | some anchored => exact Agrees.pure
      | none =>
        dsimp only [Option.map]
        rw [apply_ite Timeline.withPeriod]
        refine Agrees.ite ?_ Agrees.pure
        refine Agrees.bind agrees_anchoredAtEither ?_
        rw [← Option.getD_map Timeline.withPeriod]
        exact Agrees.pure

end ForceBeat

section Updates

variable {atTime : Duration} {xForm : GhostXForm}

theorem agrees_updateClientTimelineFromSession {curClient session : Timeline} :
    Agrees (updateClientTimelineFromSession atTime xForm curClient.withPeriod session.withPeriod)
      ((Link.updateClientTimelineFromSession curClient session atTime xForm).map
        Timeline.withPeriod) := by
  unfold Link.updateClientTimelineFromSession
  refine Agrees.bind (agrees_nanosAtMicrobeats session 0) ?_
  cases xForm.checkedGhostNanosToHost (session.nanosAtMicrobeats 0) with
  | none => exact Agrees.pure
  | some hostBeatZero =>
    refine Agrees.bind agrees_durationNanos ?_
    refine Agrees.bind agrees_durationNanos ?_
    refine Agrees.bind agrees_checked ?_
    refine Agrees.bind (agrees_microbeatsAt curClient atTime) ?_
    refine Agrees.bind (agrees_microbeatsFromNanos session.tempo _) ?_
    dsimp only
    cases (checked (curClient.microbeatsAt atTime + session.tempo.microbeatsFromNanos
      (hostBeatZero.nanos - atTime.nanos))).bind tryI64 with
    | none => exact Agrees.pure
    | some beatOrigin =>
      refine Agrees.bind (agrees_microbeatsAt
        { tempo := session.tempo, beatOrigin := ⟨beatOrigin⟩, timeOrigin := hostBeatZero }
        atTime) ?_
      dsimp only
      rw [apply_ite (Except.map Timeline.withPeriod)]
      exact Agrees.pure.ite Agrees.pure

theorem agrees_updateSessionTimelineFromClient {curSession client : Timeline} :
    Agrees (updateSessionTimelineFromClient atTime xForm curSession.withPeriod client.withPeriod
        (client.tempo == curSession.tempo))
      ((Link.updateSessionTimelineFromClient curSession client atTime xForm).map
        Timeline.withPeriod) := by
  unfold Link.updateSessionTimelineFromClient
  refine Agrees.bind (Agrees.of_eq (xForm.checkedHostToGhostWideNanos_eq _)) ?_
  refine Agrees.bind (agrees_nanosAtMicrobeats curSession 0) ?_
  dsimp only
  rw [apply_ite (Except.map Timeline.withPeriod)]
  refine Agrees.pure.ite ?_
  rw [Timeline.beatOrigin_withPeriod]
  cases checkedAddI64 curSession.beatOrigin.value 1 with
  | none => exact Agrees.pure
  | some successor =>
    refine Agrees.bind (Agrees.of_eq (xForm.checkedHostToGhostWideNanos_eq _)) ?_
    refine Agrees.bind (agrees_microbeatsAtNanos curSession _) ?_
    refine Agrees.bind (agrees_nanosFromMicrobeats client.tempo _) ?_
    rw [Timeline.timeOrigin_withPeriod]
    dsimp only
    cases checked (xForm.hostToGhostWideNanos client.timeOrigin +
      client.tempo.nanosFromMicrobeats
        (max (narrow (curSession.microbeatsAtNanos (xForm.hostToGhostWideNanos atTime)))
          successor).toInt) with
    | none => exact Agrees.pure
    | some nanos =>
      refine Agrees.bind agrees_durationFromNanos ?_
      refine Agrees.bind agrees_durationNanos ?_
      dsimp only
      rw [apply_ite (Except.map Timeline.withPeriod)]
      exact Agrees.pure.ite Agrees.pure

end Updates

section Results

/-- Whatever the period of the tempo, no operation overflows or divides by zero. -/
theorem arithmetic_ends (tl other : PeriodTimeline) (beat target shift quantum : Beats)
    (time : Duration) (xForm : GhostXForm) (sameTempo : Bool) :
    (microbeatsAt tl time).isSome = true ∧
    (timeAtMicrobeats tl beat.value.toInt).isSome = true ∧
    (toPhaseEncodedBeats tl time quantum).isSome = true ∧
    (fromPhaseEncodedBeats tl beat quantum).isSome = true ∧
    (nextPhaseMatch beat target quantum).isSome = true ∧
    (closestPhaseMatch beat target quantum).isSome = true ∧
    (forceBeatAtTimeImpl tl beat time quantum).isSome = true ∧
    (exactFastAnchor tl beat time quantum).isSome = true ∧
    (shiftClientTimeline tl shift).isSome = true ∧
    (updateClientTimelineFromSession time xForm tl other).isSome = true ∧
    (updateSessionTimelineFromClient time xForm tl other sameTempo).isSome = true := by
  have bounds := i64_bounds beat.value
  have size := quantum_le quantum
  unfold i64Min i64Max at bounds
  refine ⟨(ends_microbeatsAt tl time).isSome, (ends_timeAtMicrobeats tl (by omega)).isSome, ?_,
    (ends_fromPhaseEncodedBeats tl quantum beat).isSome, ?_, ?_,
    (ends_forceBeatAtTimeImpl tl beat time quantum).isSome,
    (ends_exactFastAnchor tl beat time quantum).isSome, (ends_shiftClientTimeline tl shift).isSome,
    (ends_updateClientTimelineFromSession time xForm tl other).isSome,
    (ends_updateSessionTimelineFromClient time xForm tl other sameTempo).isSome⟩
  · obtain ⟨encoded, same, -⟩ := ends_toPhaseEncodedMicrobeats tl quantum time
    unfold toPhaseEncodedBeats
    rw [same]
    rfl
  · obtain ⟨found, same, -⟩ := ends_nextPhaseMatchWide size beat.value.toInt target.value.toInt
    unfold nextPhaseMatch
    rw [same]
    rfl
  · obtain ⟨found, same, -⟩ := ends_closestPhaseMatchWide size beat.value.toInt target.value.toInt
    unfold closestPhaseMatch
    rw [same]
    rfl

theorem arithmetic_agrees (t other : Timeline) (beat target shift quantum : Beats)
    (time : Duration) (xForm : GhostXForm) :
    microbeatsAt t.withPeriod time = some (t.microbeatsAt time) ∧
    timeAtMicrobeats t.withPeriod beat.value.toInt = some (t.timeAtMicrobeats beat.value.toInt) ∧
    toPhaseEncodedBeats t.withPeriod time quantum =
      some (Link.toPhaseEncodedBeats t time quantum) ∧
    fromPhaseEncodedBeats t.withPeriod beat quantum =
      some (Link.fromPhaseEncodedBeats t beat quantum) ∧
    nextPhaseMatch beat target quantum = some (Link.nextPhaseMatch beat target quantum) ∧
    closestPhaseMatch beat target quantum = some (Link.closestPhaseMatch beat target quantum) ∧
    forceBeatAtTimeImpl t.withPeriod beat time quantum =
      some (Link.forceBeatAtTimeImpl t beat time quantum).withPeriod ∧
    exactFastAnchor t.withPeriod beat time quantum =
      some ((Link.exactFastAnchor t beat time quantum).map Timeline.withPeriod) ∧
    shiftClientTimeline t.withPeriod shift =
      some (Link.shiftClientTimeline t shift).withPeriod ∧
    updateClientTimelineFromSession time xForm t.withPeriod other.withPeriod =
      some ((Link.updateClientTimelineFromSession t other time xForm).map Timeline.withPeriod) ∧
    updateSessionTimelineFromClient time xForm t.withPeriod other.withPeriod
        (other.tempo == t.tempo) =
      some ((Link.updateSessionTimelineFromClient t other time xForm).map Timeline.withPeriod) := by
  have bounds := i64_bounds beat.value
  have size := quantum_le quantum
  unfold i64Min i64Max at bounds
  refine ⟨(ends_microbeatsAt _ time).eq_some (agrees_microbeatsAt t time),
    (ends_timeAtMicrobeats _ (by omega)).eq_some (agrees_timeAtMicrobeats t _), ?_,
    (ends_fromPhaseEncodedBeats _ quantum beat).eq_some (agrees_fromPhaseEncodedBeats t beat _),
    ?_, ?_, (ends_forceBeatAtTimeImpl _ beat time quantum).eq_some agrees_forceBeatAtTimeImpl,
    (ends_exactFastAnchor _ beat time quantum).eq_some agrees_exactFastAnchor,
    (ends_shiftClientTimeline _ shift).eq_some (agrees_shiftClientTimeline t shift),
    (ends_updateClientTimelineFromSession time xForm _ _).eq_some
      agrees_updateClientTimelineFromSession,
    (ends_updateSessionTimelineFromClient time xForm _ _ _).eq_some
      agrees_updateSessionTimelineFromClient⟩
  · unfold toPhaseEncodedBeats
    rw [(ends_toPhaseEncodedMicrobeats _ quantum time).eq_some
      (agrees_toPhaseEncodedMicrobeats t time quantum)]
    rfl
  · unfold nextPhaseMatch
    rw [(ends_nextPhaseMatchWide size _ _).eq_some agrees_nextPhaseMatchWide]
    rfl
  · unfold closestPhaseMatch
    rw [(ends_closestPhaseMatchWide size _ _).eq_some agrees_closestPhaseMatchWide]
    rfl

end Results

end Plain

end AbletonLink.Link
