import AbletonLink.Link.ClientComposition
import AbletonLink.Link.SessionComposition
import AbletonLink.Link.Node

/-! A commit gives the client its own timeline back. -/

namespace AbletonLink.Link

open Library Library.MachineInt

section Returns

variable {client target : Timeline} {f : GhostXForm} (range : client.tempo.InRange)

include range

theorem updateSessionTimelineFromClient_agrees_of_ok {session : Timeline} {atTime : Duration}
    (ok : updateSessionTimelineFromClient session client atTime f = .ok target) :
    SessionAgrees target client f := by
  by_cases agrees : SessionAgrees session client f
  · rw [updateSessionTimelineFromClient_agrees range atTime agrees] at ok
    cases ok
    exact agrees
  · obtain ⟨-, error⟩ | ⟨-, t, ok', tempo, beat, origin⟩ :=
      updateSessionTimelineFromClient_differs range atTime agrees
    · rw [ok] at error
      cases error
    · rw [ok] at ok'
      cases ok'
      exact agrees_of_required range atTime tempo beat origin

variable (finite : f.slope.isFinite = true) (grows : 1 ≤ |Binary64.value f.slope|)
  (agrees : SessionAgrees target client f)

include finite grows agrees

theorem computedZero_of_agrees : computedZero target f = client.timeOrigin.nanos := by
  obtain ⟨zero, tempo⟩ := agrees
  have small := (target.nanosAtMicrobeats_wide (tempo ▸ range) (show FitsI64 0 by decide)).2
  have intercept := f.intercept.fits
  have exact : target.nanosAtMicrobeats 0 - f.intercept.nanos =
      roundHalfAway (client.timeOrigin.nanos * Binary64.value f.slope) := by
    have wide := zero.trans (f.hostToGhostWideNanos_exact finite client.timeOrigin)
    rw [wide] at small ⊢
    unfold FitsDuration Duration.minNanos Duration.maxNanos at intercept
    unfold saturate i128Min i128Max at *
    omega
  have fits : FitsI128 (target.nanosAtMicrobeats 0 - f.intercept.nanos) := by
    unfold FitsDuration Duration.minNanos Duration.maxNanos at intercept
    unfold FitsI128 i128Min i128Max
    omega
  unfold computedZero GhostXForm.hostImage
  rw [saturate_of_fits fits, exact, roundHalfAway_round_trip _ grows]

theorem updateClientTimelineFromSession_returns {now : Duration} {t : Timeline}
    (ok : updateClientTimelineFromSession client target now f = .ok t) : t = client := by
  have nonzero : client.tempo.periodMicros ≠ 0 := by
    obtain ⟨least, -⟩ := range
    omega
  obtain ⟨-, tempo, origin, beat, -⟩ :=
    updateClientTimelineFromSession_of_ok client now f (agrees.2 ▸ nonzero) ok
  rw [computedZero_of_agrees range finite grows agrees] at origin beat
  have back : continuedBeat client target now client.timeOrigin.nanos =
      client.beatOrigin.value.toInt := by
    have small : (now.nanos - client.timeOrigin.nanos).natAbs ≤ 2 ^ 90 := by
      have ht := client.timeOrigin.fits
      have hn := now.fits
      unfold FitsDuration Duration.minNanos Duration.maxNanos at ht hn
      omega
    have odd := client.tempo.microbeatsFromNanos_neg nonzero small
    rw [neg_sub] at odd
    unfold continuedBeat
    rw [(client.microbeatsAt_exact nonzero now).1, ← agrees.2, odd]
    ring
  cases t
  cases client
  obtain rfl := tempo.trans agrees.2.symm
  obtain rfl := Duration.ext origin
  obtain rfl := Beats.ext (beat.trans back)
  rfl

end Returns

theorem updateTimingGuarded_returns {session session' : SessionState}
    {client client' : ClientState} {target : Timeline} {f : GhostXForm} {now : Duration}
    {syncEnabled : Bool} {sessionId : SessionId} {changed : Option Tempo}
    (ok : updateTimingGuarded session client target f now syncEnabled sessionId =
      (.ok changed, session', client')) (clamped : client.timeline.Clamped)
    (finite : f.slope.isFinite = true) (grows : 1 ≤ |Binary64.value f.slope|)
    (agrees : SessionAgrees target client.timeline f) : client'.timeline = client.timeline := by
  have same : clampTempo target = target := clamped.of_tempo agrees.2.symm
  unfold updateTimingGuarded at ok
  dsimp only at ok
  rw [same] at ok
  split at ok
  · cases ok
  · split at ok
    · split at ok
      · cases ok
      · rename_i mapped
        have returned := updateClientTimelineFromSession_returns clamped.inRange finite grows
          agrees mapped
        obtain ⟨-, -, rfl⟩ := Prod.mk.injEq .. ▸ ok
        split <;> exact returned
    · cases ok
      rfl

namespace SessionCommit

theorem timeline_installEdit (s : SessionCommit) (target : Timeline) (session : SessionState)
    (client : ClientState) (startStop : Option ClientStartStopState)
    (proposed : Option StartStopState) :
    (s.installEdit (some (target, session, client)) startStop proposed).client.timeline =
      client.timeline := by
  cases startStop <;> rfl

theorem clientEdit_complete_cases {s s' : SessionCommit} {incoming : IncomingClientState}
    {timeline : Timeline} (edited : incoming.timeline = some timeline) {clock : Clock}
    {origin : Option SessionEditOrigin} {changed : Option Tempo}
    (complete : s.clientEditFromOrigin incoming clock origin = (.complete changed, s')) :
    ∃ target session client proposed,
      SessionAgrees target (clampTempo timeline) s.session.ghostXForm ∧
      updateTimingGuarded s.session { s.client with timeline := clampTempo timeline } target
        s.session.ghostXForm clock.now s.syncEnabled s.current.sessionId =
          (.ok changed, session, client) ∧
      s' = s.installEdit (some (target, session, client)) incoming.startStopState proposed := by
  unfold clientEditFromOrigin at complete
  rw [edited] at complete
  dsimp only at complete
  split at complete
  · cases complete
  split at complete
  · cases complete
  split at complete
  · cases complete
  rename_i target accepted
  have agrees :=
    updateSessionTimelineFromClient_agrees_of_ok (clamped_clampTempo timeline).inRange accepted
  split at complete
  · cases complete
  split at complete
  · cases complete
  rename_i changed session client updated
  cases complete
  exact ⟨target, session, client, _, agrees, updated, rfl⟩

/-- A commit of a timeline leaves the client with that timeline, clamped. -/
theorem clientEdit_returns_timeline (s : SessionCommit)
    (finite : s.session.ghostXForm.slope.isFinite = true)
    (grows : 1 ≤ |Binary64.value s.session.ghostXForm.slope|)
    (incoming : IncomingClientState) {timeline : Timeline}
    (edited : incoming.timeline = some timeline) (clock : Clock)
    (origin : Option SessionEditOrigin) {changed : Option Tempo}
    (complete : (s.clientEditFromOrigin incoming clock origin).1 = .complete changed) :
    (s.clientEditFromOrigin incoming clock origin).2.client.timeline = clampTempo timeline := by
  obtain ⟨s', result⟩ :
      ∃ s', s.clientEditFromOrigin incoming clock origin = (.complete changed, s') :=
    ⟨_, Prod.ext complete rfl⟩
  obtain ⟨target, session, client, proposed, agrees, updated, rfl⟩ :=
    clientEdit_complete_cases edited result
  rw [result, timeline_installEdit]
  exact updateTimingGuarded_returns updated (clamped_clampTempo timeline) finite grows agrees

theorem clientEdit_returns_timeline_soloNode :
    let timeline : Timeline := ⟨⟨1200.0⟩, ⟨-3⟩, ⟨-1700, by decide, by decide⟩⟩
    let incoming : IncomingClientState := ⟨some timeline, none, ⟨5000000, by decide, by decide⟩⟩
    let clock : Clock := ⟨.zero, ⟨9000001, by decide, by decide⟩, .zero⟩
    (∃ changed, (soloNode.clientEditFromOrigin incoming clock none).1 = .complete changed) ∧
      (soloNode.clientEditFromOrigin incoming clock none).2.current.timeline.beatOrigin.value > 0 ∧
      (soloNode.clientEditFromOrigin incoming clock none).2.client.timeline =
        clampTempo timeline := by
  intro timeline incoming clock
  have unit : Binary64.value soloNode.session.ghostXForm.slope = 1 := by
    rw [Binary64.value_eq
      (show Binary64.integerDecode soloNode.session.ghostXForm.slope = (2 ^ 52, -52, 1) by decide)]
    norm_num
  have complete : (soloNode.clientEditFromOrigin incoming clock none).1 =
      .complete (some ⟨999.0⟩) := by
    decide +kernel
  have grows : 1 ≤ |Binary64.value soloNode.session.ghostXForm.slope| := by
    rw [unit]
    norm_num
  exact ⟨⟨_, complete⟩, by decide +kernel,
    soloNode.clientEdit_returns_timeline (by decide) grows incoming rfl clock none complete⟩

end SessionCommit

end AbletonLink.Link
