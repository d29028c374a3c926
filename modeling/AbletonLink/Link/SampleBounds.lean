import AbletonLink.Link.GhostForward
import AbletonLink.Link.PingChain

/-! How far the samples of a measurement lie from the offset of an honest responder. -/

namespace AbletonLink.Link.Measurement

open Library Library.MachineInt Library.Run Wire PingResponder

def pongSamplesOver {α : Type} (ofInt : Int → α) (half : α → α)
    (host previousHost ghost previousGhost : Duration) : Option (List (α × α)) :=
  if ghost = .zero ∨ previousHost = .zero then some []
  else do
    let host := (← host.numMicroseconds).toInt
    let previousHost := (← previousHost.numMicroseconds).toInt
    let ghost := (← ghost.numMicroseconds).toInt
    let previousGhost := (← previousGhost.numMicroseconds).toInt
    let sumHost := host + previousHost
    let second :=
      if previousGhost ≠ 0 then
        [(ofInt previousHost, half (ofInt (ghost + previousGhost - 2 * previousHost)))]
      else []
    return (half (ofInt sumHost), half (ofInt (2 * ghost - sumHost))) :: second

theorem pongSamples_eq : pongSamples = pongSamplesOver Float.ofInt (· * 0.5) := rfl

def exactSamples : Duration → Duration → Duration → Duration → Option (List (ℚ × ℚ)) :=
  pongSamplesOver (fun n => (n : ℚ)) (· / 2)

section Function

variable {α : Type} {ofInt : Int → α} {half : α → α}
  {host previousHost ghost previousGhost : Duration}

theorem pongSamplesOver_outside (outside : host.numMicroseconds = none ∨
      previousHost.numMicroseconds = none ∨ ghost.numMicroseconds = none ∨
      previousGhost.numMicroseconds = none) :
    pongSamplesOver ofInt half host previousHost ghost previousGhost =
      if ghost = .zero ∨ previousHost = .zero then some [] else none := by
  unfold pongSamplesOver
  split
  · rfl
  · cases a : host.numMicroseconds with
    | none => rfl
    | some _ =>
      cases b : previousHost.numMicroseconds with
      | none => rfl
      | some _ =>
        cases c : ghost.numMicroseconds with
        | none => rfl
        | some _ =>
          cases d : previousGhost.numMicroseconds with
          | none => rfl
          | some _ => simp [a, b, c, d] at outside

theorem pongSamplesOver_inside {h p g q : Int64} (hostIs : host.numMicroseconds = some h)
    (previousHostIs : previousHost.numMicroseconds = some p)
    (ghostIs : ghost.numMicroseconds = some g)
    (previousGhostIs : previousGhost.numMicroseconds = some q) {samples : List (α × α)}
    (found : pongSamplesOver ofInt half host previousHost ghost previousGhost = some samples) :
    (∀ s ∈ samples.head?, s.2 = half (ofInt (2 * g.toInt - (h.toInt + p.toInt)))) ∧
      ∀ s ∈ samples[1]?, s.2 = half (ofInt (g.toInt + q.toInt - 2 * p.toInt)) := by
  unfold pongSamplesOver at found
  split at found
  · obtain rfl := Option.some.inj found
    simp
  · simp only [hostIs, previousHostIs, ghostIs, previousGhostIs, Option.bind_eq_bind,
      Option.bind_some, Option.pure_def, Option.some.injEq] at found
    subst found
    constructor
    · simp
    · split <;> simp

end Function

theorem firstSample_bracket {host previousHost ghost offset answered : Int}
    (clock : ghost = answered + offset) (sent : previousHost ≤ answered)
    (received : answered ≤ host) :
    |2 * (((2 * ghost - (host + previousHost) : Int) : ℚ) / 2) - 2 * offset| ≤
      ((host - previousHost : Int) : ℚ) := by
  have exact : 2 * (((2 * ghost - (host + previousHost) : Int) : ℚ) / 2) - 2 * offset =
      ((2 * answered - host - previousHost : Int) : ℚ) := by
    rw [clock]
    push_cast
    ring
  rw [exact, ← Int.cast_abs, Int.cast_le]
  exact abs_le.mpr ⟨by omega, by omega⟩

theorem secondSample_bracket {previousHost ghost previousGhost offset answered triggered : Int}
    (clock : ghost = answered + offset) (previous : previousGhost = triggered + offset)
    (before : triggered ≤ previousHost) (sent : previousHost ≤ answered) :
    |2 * (((ghost + previousGhost - 2 * previousHost : Int) : ℚ) / 2) - 2 * offset| ≤
      ((ghost - previousGhost : Int) : ℚ) := by
  have exact : 2 * (((ghost + previousGhost - 2 * previousHost : Int) : ℚ) / 2) - 2 * offset =
      ((answered + triggered - 2 * previousHost : Int) : ℚ) := by
    rw [clock, previous]
    push_cast
    ring
  rw [exact, clock, previous, ← Int.cast_abs, Int.cast_le]
  exact abs_le.mpr ⟨by omega, by omega⟩

def SentPong.ghostMicros (a : SentPong) : Int :=
  (a.form.hostToGhost (.microseconds a.clock)).micros.toInt

def Honest (offset t : Int) : Op → Prop
  | .ping clock | .receive _ clock _ => clock.toInt = t
  | .answer _ form clock => (form.hostToGhost (.microseconds clock)).micros.toInt = t + offset
  | .clear | .retire => True

theorem honest_slopeOne {intercept clock : Int64} {offset t : Int}
    (sum : clock.toInt + intercept.toInt = t + offset) (fits : FitsI64 (t + offset)) (ping : Nat) :
    Honest offset t (.answer ping ⟨1.0, .microseconds intercept⟩ clock) := by
  have one : Binary64.value 1.0 = 1 := by
    rw [Binary64.value_eq (show Binary64.integerDecode 1.0 = (2 ^ 52, -52, 1) by decide +kernel)]
    norm_num
  have finite : (1.0 : Float).isFinite = true := by decide +kernel
  have exact := GhostXForm.hostToGhost_exact ⟨1.0, .microseconds intercept⟩ finite
    (.microseconds clock)
  rw [one, Duration.nanos_microseconds, Duration.nanos_microseconds] at exact
  have whole : roundHalfAway (((clock.toInt * 1000 : Int) : ℚ) * 1 / 1000) = clock.toInt := by
    rw [show ((clock.toInt * 1000 : Int) : ℚ) * 1 / 1000 = (clock.toInt : ℚ) by push_cast; ring,
      roundHalfAway_intCast]
  have time : (⟨1.0, .microseconds intercept⟩ : GhostXForm).hostToGhost (.microseconds clock) =
      .microseconds (Int64.ofInt (t + offset)) := by
    rw [exact, whole, ← durationFromNanos_nanos (.microseconds _), Duration.nanos_microseconds,
      toInt_ofInt fits.1 fits.2, ← sum]
    congr 1
    ring
  show (GhostXForm.hostToGhost _ _).micros.toInt = _
  rw [time, Duration.micros_microseconds, toInt_ofInt fits.1 fits.2]

def timedRun (m : Measurement) (ops : List (Int × Op)) : Measurement :=
  run step m (ops.map Prod.snd)

/-- What is in flight was sent by now, an answer after its PING and a follow-up after the PONG
that triggered it. -/
structure Timed (offset now : Int) (m : Measurement) : Prop where
  pings : ∀ p ∈ m.pings, p.clock.toInt ≤ now
  pongs : ∀ a ∈ m.pongs, ∃ p answered, m.pings[a.ping]? = some p ∧ p.clock.toInt ≤ answered ∧
    answered ≤ now ∧ a.ghostMicros = answered + offset
  triggers : ∀ p ∈ m.pings, ∀ j ∈ p.trigger, ∃ t answered, m.pongs[j]? = some t ∧
    answered ≤ p.clock.toInt ∧ t.ghostMicros = answered + offset

namespace Timed

variable {offset now final : Int} {m : Measurement}

theorem later (h : m.Timed offset now) (passes : now ≤ final) : m.Timed offset final where
  pings p member := (h.pings p member).trans passes
  pongs a member := by
    obtain ⟨p, answered, sent, before, by_, clock⟩ := h.pongs a member
    exact ⟨p, answered, sent, before, by_.trans passes, clock⟩
  triggers := h.triggers

theorem sendPing (h : m.Timed offset now) {clock : Int64} (reads : clock.toInt = now)
    {trigger : Option Nat} (triggers : ∀ j ∈ trigger, ∃ t ∈ m.pongs[j]?, True)
    (payload : Payload) : (m.sendPing clock trigger payload).Timed offset now := by
  unfold Measurement.sendPing
  split
  · refine ⟨?_, ?_, ?_⟩
    · intro p member
      cases List.mem_append.mp member with
      | inl old => exact h.pings p old
      | inr fresh =>
        obtain rfl := List.mem_singleton.mp fresh
        exact reads.le
    · intro a member
      obtain ⟨p, answered, sent, times⟩ := h.pongs a member
      exact ⟨p, answered,
        (List.getElem?_append_left (List.getElem?_eq_some_iff.mp sent).1).trans sent, times⟩
    · intro p member j triggered
      cases List.mem_append.mp member with
      | inl old => exact h.triggers p old j triggered
      | inr fresh =>
        obtain rfl := List.mem_singleton.mp fresh
        obtain ⟨t, found, -⟩ := triggers j triggered
        obtain ⟨_, answered, -, -, by_, clock⟩ := h.pongs t (List.mem_of_getElem? found)
        exact ⟨t, answered, found, by_.trans reads.ge, clock⟩
  · exact h

theorem answer (h : m.Timed offset now) {ping : Nat} {form : GhostXForm} {clock : Int64}
    (honest : (form.hostToGhost (.microseconds clock)).micros.toInt = now + offset) :
    (m.answer ping form clock).Timed offset now := by
  unfold Measurement.answer
  cases sent : m.pings[ping]? with
  | none => exact h
  | some p =>
    dsimp only
    split
    · refine ⟨h.pings, ?_, ?_⟩
      · intro a member
        cases List.mem_append.mp member with
        | inl old => exact h.pongs a old
        | inr fresh =>
          obtain rfl := List.mem_singleton.mp fresh
          exact ⟨p, now, sent, h.pings p (List.mem_of_getElem? sent), le_refl _, honest⟩
      · intro p member j triggered
        obtain ⟨t, answered, found, times⟩ := h.triggers p member j triggered
        exact ⟨t, answered,
          (List.getElem?_append_left (List.getElem?_eq_some_iff.mp found).1).trans found, times⟩
    · exact h

theorem receive (h : m.Timed offset now) (pong : Nat) {clock : Int64} (reads : clock.toInt = now)
    (current : Bool) : (m.receive pong clock current).Timed offset now := by
  unfold Measurement.receive
  cases sent : m.pongs[pong]? with
  | none => exact h
  | some a =>
    dsimp only
    cases pongFields a.bytes with
    | none => exact h
    | some fields =>
      dsimp only
      split
      · have followUp : (m.sendPing clock (some pong) (followUpPayload clock fields)).Timed offset
            now := h.sendPing reads (fun j own => ⟨a, Option.some.inj own ▸ sent, trivial⟩) _
        split
        · unfold append
          split <;> exact ⟨followUp.pings, followUp.pongs, followUp.triggers⟩
        · exact followUp
      · exact h

theorem step (h : m.Timed offset now) {op : Op} (honest : Honest offset now op) :
    (m.step op).Timed offset now := by
  cases op with
  | ping clock => exact h.sendPing honest (fun _ none => by cases none) _
  | answer ping form clock => exact h.answer honest
  | receive pong clock current =>
    simp only [Measurement.step]
    split
    · exact h.receive pong honest current
    · exact h
  | clear => exact ⟨h.pings, h.pongs, h.triggers⟩
  | retire => exact ⟨h.pings, h.pongs, h.triggers⟩

theorem timedRun {ops : List (Int × Op)} (h : m.Timed offset now)
    (ordered : ops.Pairwise fun a b => a.1 ≤ b.1) (after : ∀ op ∈ ops, now ≤ op.1)
    (before : ∀ op ∈ ops, op.1 ≤ final) (passes : now ≤ final)
    (honest : ∀ op ∈ ops, Honest offset op.1 op.2) :
    (m.timedRun ops).Timed offset final := by
  induction ops generalizing m now with
  | nil => exact h.later passes
  | cons op ops ih =>
    obtain ⟨first, rest⟩ := List.pairwise_cons.mp ordered
    obtain ⟨here, others⟩ := List.forall_mem_cons.mp honest
    obtain ⟨reached, through⟩ := List.forall_mem_cons.mp before
    have stepped := (h.later (after op (List.mem_cons_self ..))).step here
    exact ih stepped rest first through reached others

theorem timedRun_new (sessionId : SessionId) {ops : List (Int × Op)}
    (ordered : ops.Pairwise fun a b => a.1 ≤ b.1) (before : ∀ op ∈ ops, op.1 ≤ final)
    (honest : ∀ op ∈ ops, Honest offset op.1 op.2) :
    ((new sessionId).timedRun ops).Timed offset final := by
  have start (now : Int) : (new sessionId).Timed offset now := by
    constructor <;> simp [Measurement.new]
  cases ops with
  | nil => exact start final
  | cons op ops =>
    refine (start op.1).timedRun ordered ?_ before (before op (List.mem_cons_self ..)) honest
    exact List.forall_mem_cons.mpr ⟨le_refl _, (List.pairwise_cons.mp ordered).1⟩

end Timed

theorem numMicroseconds_ghostTime (a : SentPong) :
    (ghostTime a.form a.clock).numMicroseconds = some (ghostTime a.form a.clock).micros ∧
      (ghostTime a.form a.clock).micros.toInt = a.ghostMicros := by
  simp [ghostTime, SentPong.ghostMicros]

/-- Every PONG that is delivered, at whatever time and however often, gives samples around the
offset of the responder: the first within the round trip, a second one within the time between the
two answers if the previous ghost time is that of the PONG that triggered the PING. -/
theorem samples_bracket :
    (∀ (sessionId : SessionId) (offset now : Int) (ops : List (Int × Op)) (pong : Nat)
      (clock : Int64) (current : Bool),
      (ops ++ [(now, Op.receive pong clock current)]).Pairwise (fun a b => a.1 ≤ b.1) →
      (∀ op ∈ ops ++ [(now, Op.receive pong clock current)], Honest offset op.1 op.2) →
      let m := (new sessionId).timedRun ops
      ∀ a, m.pongs[pong]? = some a → ∃ fields, pongFields a.bytes = some fields ∧
        (∀ samples, exactSamples (.microseconds clock) fields.prevHostTime fields.ghostTime
            fields.prevGhostTime = some samples →
          ∀ s ∈ samples.head?, |2 * s.2 - 2 * (offset : ℚ)| ≤
            ((clock.toInt - fields.prevHostTime.micros.toInt : Int) : ℚ)) ∧
        ∀ p t before j, m.pings[a.ping]? = some p → p.trigger = some j → m.pongs[j]? = some t →
          pongFields t.bytes = some before →
          ∀ previousGhost samples, previousGhost = before.ghostTime →
            exactSamples (.microseconds clock) fields.prevHostTime fields.ghostTime
              previousGhost = some samples →
            ∀ s ∈ samples[1]?, |2 * s.2 - 2 * (offset : ℚ)| ≤
              ((fields.ghostTime.micros.toInt - previousGhost.micros.toInt : Int) : ℚ)) ∧
    ∀ host previousHost ghost previousGhost : Duration,
      (host.numMicroseconds = none ∨ previousHost.numMicroseconds = none ∨
        ghost.numMicroseconds = none ∨ previousGhost.numMicroseconds = none) →
      pongSamples host previousHost ghost previousGhost =
        if ghost = .zero ∨ previousHost = .zero then some [] else none := by
  refine ⟨?_, ?_⟩
  · intro sessionId offset now ops pong clock current ordered honest m a delivered
    obtain ⟨earlier, -, last⟩ := List.pairwise_append.mp ordered
    have timed : m.Timed offset now := Timed.timedRun_new sessionId earlier
      (fun op member => last op member _ (List.mem_singleton_self _))
      fun op member => honest op (List.mem_append_left _ member)
    have unchained : m.Unchained := Unchained.run sessionId _
    have reads : clock.toInt = now :=
      honest (now, .receive pong clock current)
        (List.mem_append_right _ (List.mem_singleton_self _))
    obtain ⟨p, answered, sent, after, by_, ghost⟩ := timed.pongs a (List.mem_of_getElem? delivered)
    obtain ⟨p', sent', fields⟩ := unchained.pongs a (List.mem_of_getElem? delivered)
    obtain rfl : p = p' := Option.some.inj (sent.symm.trans sent')
    obtain ⟨ghostIs, ghostReads⟩ := numMicroseconds_ghostTime a
    refine ⟨_, fields, ?_, ?_⟩
    · intro samples found s first
      have exact := (pongSamplesOver_inside (Duration.numMicroseconds_microseconds _)
        (Duration.numMicroseconds_microseconds _) ghostIs rfl found).1 s first
      rw [exact, ghostReads, Duration.micros_microseconds]
      exact firstSample_bracket ghost after (by_.trans reads.ge)
    · intro p' t before j sent' triggered found' earlierFields previousGhost samples previous found
        s second
      obtain rfl : p = p' := Option.some.inj (sent.symm.trans sent')
      obtain ⟨t', triggeredAt, at_, before', clock'⟩ :=
        timed.triggers p (List.mem_of_getElem? sent) j triggered
      obtain rfl : t = t' := Option.some.inj (found'.symm.trans at_)
      obtain ⟨_, _, theirs⟩ := unchained.pongs t (List.mem_of_getElem? found')
      obtain rfl := Option.some.inj (theirs.symm.trans earlierFields)
      obtain ⟨previousIs, previousReads⟩ := numMicroseconds_ghostTime t
      subst previous
      have exact := (pongSamplesOver_inside (Duration.numMicroseconds_microseconds _)
        (Duration.numMicroseconds_microseconds _) ghostIs previousIs found).2 s second
      rw [exact, ghostReads, previousReads]
      exact secondSample_bracket ghost clock' before' after
  · intro host previousHost ghost previousGhost outside
    rw [pongSamples_eq]
    exact pongSamplesOver_outside outside

theorem samples_bracket_roundTrip :
    let m := (new ⟨⟨#v[1, 2, 3, 4, 5, 6, 7, 8]⟩⟩).timedRun
      [(1000, .ping 1000), (1100, .answer 0 ⟨1.0, .microseconds 5000⟩ 600)]
    m.pongs.map (fun a => (pongFields a.bytes).map fun fields =>
      (fields.prevHostTime.micros, fields.ghostTime.micros)) = [some (1000, 5600)] ∧
    ∀ a, m.pongs[0]? = some a → ∃ fields, pongFields a.bytes = some fields ∧
      ∀ samples, exactSamples (.microseconds 1200) fields.prevHostTime fields.ghostTime
          fields.prevGhostTime = some samples →
        ∀ s ∈ samples.head?, |2 * s.2 - 2 * ((4500 : Int) : ℚ)| ≤
          (((1200 : Int64).toInt - fields.prevHostTime.micros.toInt : Int) : ℚ) := by
  intro m
  refine ⟨by decide +kernel, fun a delivered => ?_⟩
  have ordered : ([(1000, .ping 1000), (1100, .answer 0 ⟨1.0, .microseconds 5000⟩ 600),
      (1200, .receive 0 1200 true)] : List (Int × Op)).Pairwise fun a b => a.1 ≤ b.1 := by
    simp
  have honest : ∀ op ∈ ([(1000, .ping 1000), (1100, .answer 0 ⟨1.0, .microseconds 5000⟩ 600),
      (1200, .receive 0 1200 true)] : List (Int × Op)), Honest 4500 op.1 op.2 := by
    simp only [List.forall_mem_cons]
    exact ⟨rfl, honest_slopeOne (by decide) (by decide) 0, rfl, List.forall_mem_nil _⟩
  obtain ⟨fields, parsed, first, -⟩ := samples_bracket.1 ⟨⟨#v[1, 2, 3, 4, 5, 6, 7, 8]⟩⟩ 4500 1200
    [(1000, .ping 1000), (1100, .answer 0 ⟨1.0, .microseconds 5000⟩ 600)] 0 1200 true ordered honest
    a delivered
  exact ⟨fields, parsed, first⟩

end AbletonLink.Link.Measurement
