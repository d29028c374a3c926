import AbletonLink.Link.Measurement

/-! The previous ghost time along a chain of PINGs and PONGs. -/

namespace AbletonLink.Link.Measurement

open Library Library.Bytes Library.Run Wire PingResponder

def AnswersFollowUp (m : Measurement) (t : SentPong) (p : SentPing) (a : SentPong) : Prop :=
  a ∈ m.pongs ∧ m.pings[a.ping]? = some p ∧ ∃ j, p.trigger = some j ∧ m.pongs[j]? = some t

/-- Every PONG that answers a follow-up carries the ghost time of the PONG that triggered it, and
with all times nonzero it contributes the second sample that needs it. -/
structure ChainIntact (m : Measurement) : Prop where
  carried : ∀ t p a, m.AnswersFollowUp t p a → ∃ before after,
    pongFields t.bytes = some before ∧ pongFields a.bytes = some after ∧
      after.prevGhostTime = before.ghostTime
  twoSamples : ∀ t p a, m.AnswersFollowUp t p a → ∀ before after,
    pongFields t.bytes = some before → pongFields a.bytes = some after →
    before.ghostTime ≠ .zero → after.ghostTime ≠ .zero → p.clock ≠ 0 →
    ∀ c ∈ m.contributions, m.pongs[c.pong]? = some a → ∃ first, c.samples =
      [first, (Float.ofInt p.clock.toInt,
        Float.ofInt (after.ghostTime.micros.toInt + before.ghostTime.micros.toInt -
          2 * p.clock.toInt) * 0.5)]

def SentPing.payload (p : SentPing) : Payload :=
  .hostTime (.microseconds p.clock) :: if p.trigger.isSome then [.prevGhostTime .zero] else []

structure Unchained (m : Measurement) : Prop where
  pings : ∀ p ∈ m.pings, Ping.encodeMessage Ping.ping p.payload = .ok p.bytes
  pongs : ∀ a ∈ m.pongs, ∃ p, m.pings[a.ping]? = some p ∧ pongFields a.bytes =
    some ⟨m.sessionId, ghostTime a.form a.clock, .zero, .microseconds p.clock⟩
  contributions : ∀ c ∈ m.contributions, c.samples.length ≤ 1

theorem pongFields_pong {payload : Payload} {bytes : Bytes}
    (sent : Ping.encodeMessage Ping.pong payload = .ok bytes) :
    pongFields bytes = some (payload.canonical.foldl PongFields.note default) := by
  have parsed := (Ping.encodeMessage_roundTrips Ping.pong).payload payload bytes sent
  have header := (Ping.encodeMessage_roundTrips Ping.pong).header payload bytes sent
  simp only [pongFields, header, if_true, parsed]

theorem microseconds_zero : Duration.microseconds 0 = .zero := rfl

namespace SentPing

theorem canonical_payload (p : SentPing) : p.payload.canonical = p.payload := by
  have zero : Duration.zero.micros = 0 := rfl
  unfold payload
  split <;> simp [Payload.canonical, PayloadEntry.canonical, zero, microseconds_zero]

theorem wireSize_payload (p : SentPing) : p.payload.wireSize ≤ 32 := by
  unfold payload
  split <;> simp [Payload.wireSize, PayloadEntry.kind, EntryKind.size]

theorem encodable_payload (p : SentPing) : ∀ entry ∈ p.payload, entry.Encodable := by
  have zero : Duration.zero.numMicroseconds = some 0 := rfl
  unfold payload
  split <;> simp [PayloadEntry.Encodable, zero]

theorem repeated_payload (p : SentPing) : p.payload.filter repeated = p.payload := by
  unfold payload
  split <;> rfl

theorem fields_payload (p : SentPing) (sessionId : SessionId) (form : GhostXForm) (clock : Int64) :
    (pongPayload sessionId form clock p.payload).canonical.foldl PongFields.note default =
      ⟨sessionId, ghostTime form clock, .zero, .microseconds p.clock⟩ := by
  have ghost : Duration.microseconds (ghostTime form clock).micros = ghostTime form clock := by
    simp [ghostTime]
  have same := p.canonical_payload
  rw [pongPayload, p.repeated_payload, Payload.canonical, List.map_append, ← Payload.canonical,
    same, List.foldl_append]
  unfold payload
  split
  · simp [PayloadEntry.canonical, PongFields.note, ghost]
  · simp [PayloadEntry.canonical, PongFields.note, ghost]
    rfl

end SentPing

theorem pongMessage_unchained {p : SentPing}
    (sent : Ping.encodeMessage Ping.ping p.payload = .ok p.bytes) (sessionId : SessionId)
    (form : GhostXForm) (clock : Int64) :
    ∃ bytes, pongMessage ⟨some sessionId, some form⟩ clock p.bytes = some bytes ∧
      pongFields bytes =
        some ⟨sessionId, ghostTime form clock, .zero, .microseconds p.clock⟩ := by
  have small := p.wireSize_payload
  have wire : (pongPayload sessionId form clock p.payload).wireSize = p.payload.wireSize + 32 := by
    rw [pongPayload, p.repeated_payload]
    simp [Payload.wireSize, PayloadEntry.kind, EntryKind.size]
  have encodable : ∀ entry ∈ pongPayload sessionId form clock p.payload, entry.Encodable := by
    rw [pongPayload, p.repeated_payload]
    intro entry member
    cases List.mem_append.mp member with
    | inl front => exact p.encodable_payload entry front
    | inr back =>
      simp only [List.mem_cons, List.not_mem_nil, or_false] at back
      cases back with
      | inl session => subst session; trivial
      | inr ghost => subst ghost; simp [PayloadEntry.Encodable, ghostTime]
  obtain ⟨bytes, pong⟩ := encodeMessage_fits Ping.pong (by omega) encodable
  refine ⟨bytes, ?_, ?_⟩
  · rw [pongMessage_ping sessionId form clock sent (by omega), p.canonical_payload, pong]
    rfl
  · rw [pongFields_pong pong, p.fields_payload]

theorem length_pongSamples {host previousHost ghost : Duration} {samples : List (Float × Float)}
    (h : pongSamples host previousHost ghost .zero = some samples) : samples.length ≤ 1 := by
  have zero : Duration.zero.numMicroseconds = some 0 := rfl
  unfold pongSamples at h
  split at h
  · obtain rfl := Option.some.inj h
    simp
  · simp only [zero, Option.bind_eq_bind, Option.bind_eq_some_iff, Option.pure_def,
      Option.some.injEq] at h
    obtain ⟨_, -, _, -, _, -, _, rfl, rfl⟩ := h
    simp

namespace Unchained

variable {m : Measurement}

theorem new (sessionId : SessionId) : (Measurement.new sessionId).Unchained := by
  constructor <;> simp [Measurement.new]

theorem sendPing (h : m.Unchained) {clock : Int64} {trigger : Option Nat} {payload : Payload}
    (same : payload = SentPing.payload ⟨[], clock, trigger⟩) :
    (m.sendPing clock trigger payload).Unchained := by
  subst same
  have small := SentPing.wireSize_payload ⟨[], clock, trigger⟩
  obtain ⟨bytes, encoded⟩ := encodeMessage_fits Ping.ping (by omega)
    (SentPing.encodable_payload ⟨[], clock, trigger⟩)
  rw [Measurement.sendPing, encoded]
  refine ⟨fun p member => ?_, fun a member => ?_, h.contributions⟩
  · cases List.mem_append.mp member with
    | inl old => exact h.pings p old
    | inr fresh =>
      obtain rfl := List.mem_singleton.mp fresh
      exact encoded
  · obtain ⟨p, answered, fields⟩ := h.pongs a member
    exact ⟨p, (List.getElem?_append_left (List.getElem?_eq_some_iff.mp answered).1).trans answered,
      fields⟩

theorem answer (h : m.Unchained) (ping : Nat) (form : GhostXForm) (clock : Int64) :
    (m.answer ping form clock).Unchained := by
  unfold Measurement.answer
  cases sent : m.pings[ping]? with
  | none => exact h
  | some p =>
    obtain ⟨bytes, replied, fields⟩ := pongMessage_unchained
      (h.pings p (List.mem_of_getElem? sent)) m.sessionId form clock
    simp only [replied]
    refine ⟨h.pings, fun a member => ?_, h.contributions⟩
    cases List.mem_append.mp member with
    | inl old => exact h.pongs a old
    | inr fresh =>
      obtain rfl := List.mem_singleton.mp fresh
      exact ⟨p, sent, fields⟩

theorem append (h : m.Unchained) (pong : Nat) (current : Bool) {samples : List (Float × Float)}
    (few : samples.length ≤ 1) : (m.append pong current samples).Unchained := by
  unfold Measurement.append
  split
  · refine ⟨h.pings, h.pongs, fun c member => ?_⟩
    cases List.mem_append.mp member with
    | inl old => exact h.contributions c old
    | inr fresh =>
      obtain rfl := List.mem_singleton.mp fresh
      exact few
  · exact ⟨h.pings, h.pongs, h.contributions⟩

theorem receive (h : m.Unchained) (pong : Nat) (clock : Int64) (current : Bool) :
    (m.receive pong clock current).Unchained := by
  unfold Measurement.receive
  cases sent : m.pongs[pong]? with
  | none => exact h
  | some a =>
    obtain ⟨p, -, fields⟩ := h.pongs a (List.mem_of_getElem? sent)
    simp only [fields, if_true]
    have followUp : (m.sendPing clock (some pong) (followUpPayload clock
        ⟨m.sessionId, ghostTime a.form a.clock, .zero, .microseconds p.clock⟩)).Unchained :=
      h.sendPing rfl
    split
    next samples found => exact followUp.append pong current (length_pongSamples found)
    next => exact followUp

theorem step (h : m.Unchained) (op : Op) : (m.step op).Unchained := by
  cases op with
  | ping clock => exact h.sendPing rfl
  | answer ping form clock => exact h.answer ping form clock
  | receive pong clock current =>
    simp only [Measurement.step]
    split
    · exact h.receive pong clock current
    · exact h
  | clear => exact ⟨h.pings, h.pongs, h.contributions⟩
  | retire => exact ⟨h.pings, h.pongs, h.contributions⟩

theorem run (sessionId : SessionId) (ops : List Op) :
    (Run.run Measurement.step (Measurement.new sessionId) ops).Unchained :=
  run_keeps (fun _ op h => h.step op) ops (new sessionId)

end Unchained

/-- A follow-up repeats the previous ghost time of the PONG that triggered it and not that PONG's
ghost time, so no PONG of any run has one but zero: a chain is intact exactly where the ghost
clocks at its links read zero. -/
theorem chainIntact_iff (sessionId : SessionId) (ops : List Op) :
    (Run.run step (new sessionId) ops).ChainIntact ↔
      ∀ t p a, (Run.run step (new sessionId) ops).AnswersFollowUp t p a →
        (t.form.hostToGhost (.microseconds t.clock)).micros = 0 := by
  have unchained := Unchained.run sessionId ops
  generalize Run.run step (new sessionId) ops = m at *
  have micros (time : Duration) : Duration.microseconds time.micros = .zero ↔ time.micros = 0 := by
    refine ⟨fun h => ?_, fun h => by rw [h, microseconds_zero]⟩
    rw [← Duration.micros_microseconds time.micros, h]
    rfl
  constructor
  · intro intact t p a chain
    obtain ⟨before, after, first, second, same⟩ := intact.carried t p a chain
    obtain ⟨answers, -, j, -, trigger⟩ := chain
    obtain ⟨_, _, carried⟩ := unchained.pongs a answers
    obtain ⟨_, _, sent⟩ := unchained.pongs t (List.mem_of_getElem? trigger)
    rw [carried, Option.some.injEq] at second
    rw [sent, Option.some.injEq] at first
    subst first second
    exact (micros _).mp same.symm
  · intro zero
    have links {t p a} (chain : m.AnswersFollowUp t p a) : ∃ q : SentPing, pongFields t.bytes =
        some ⟨m.sessionId, .zero, .zero, .microseconds q.clock⟩ := by
      obtain ⟨q, -, sent⟩ := unchained.pongs t (List.mem_of_getElem? chain.2.2.choose_spec.2)
      rw [ghostTime, (micros _).mpr (zero t p a chain)] at sent
      exact ⟨q, sent⟩
    constructor
    · intro t p a chain
      obtain ⟨q, sent⟩ := links chain
      obtain ⟨r, -, carried⟩ := unchained.pongs a chain.1
      exact ⟨_, _, sent, carried, rfl⟩
    · intro t p a chain before after first _ nonzero
      obtain ⟨q, sent⟩ := links chain
      rw [sent, Option.some.injEq] at first
      subst first
      exact absurd rfl nonzero

def followedUp : Measurement :=
  Run.run step (new ⟨⟨#v[1, 2, 3, 4, 5, 6, 7, 8]⟩⟩)
    [.ping 1000, .answer 0 ⟨1.0, .microseconds 5000⟩ 600, .receive 0 1200 true,
      .answer 1 ⟨1.0, .microseconds 5000⟩ 700, .receive 1 1400 true]

theorem followedUp_not_intact : ¬followedUp.ChainIntact := by
  have triggered : followedUp.pongs[0]?.map (fun t => (pongFields t.bytes).map fun fields =>
      fields.ghostTime.micros) = some (some 5600) := by
    decide +kernel
  have answering : followedUp.pongs[1]?.map (fun a => (a.ping,
      (pongFields a.bytes).map fun fields => fields.prevGhostTime.micros)) = some (1, some 0) := by
    decide +kernel
  have followUp : followedUp.pings[1]?.map (·.trigger) = some (some 0) := by
    decide +kernel
  obtain ⟨t, first, ghost⟩ := Option.map_eq_some_iff.mp triggered
  obtain ⟨a, second, carries⟩ := Option.map_eq_some_iff.mp answering
  obtain ⟨p, sent, trigger⟩ := Option.map_eq_some_iff.mp followUp
  obtain ⟨ping, previous⟩ := Prod.mk.inj carries
  intro intact
  have chain : followedUp.AnswersFollowUp t p a :=
    ⟨List.mem_of_getElem? second, by rw [ping, sent], 0, trigger, first⟩
  obtain ⟨before, after, ofFirst, ofSecond, same⟩ := intact.carried t p a chain
  rw [ofFirst, Option.map_some, Option.some.injEq] at ghost
  rw [ofSecond, Option.map_some, Option.some.injEq, same, ghost] at previous
  exact absurd previous (by decide)

end AbletonLink.Link.Measurement
