import AbletonLink.Library.Run
import AbletonLink.Link.PingResponder

/-! Every datagram is answered in bounds or not at all, and the answer quotes a session and a ghost
time that were installed together. -/

namespace AbletonLink.Wire

open Library Library.Bytes Link

theorem EntryKind.kind_entry (body : Bytes) (kind : EntryKind) :
    (kind.entry body).kind = kind := by
  cases kind <;> rfl

theorem Frame.wireSize_entry {f : Frame} (accepted : f.Accepted) :
    Payload.wireSize f.entry.toList ≤ f.bytes.length := by
  have length : f.bytes.length = 8 + f.body.length := by
    simp only [Frame.bytes, List.length_append, length_encodeU32]
  rw [length, Frame.entry]
  cases known : f.kind with
  | none => exact Nat.zero_le _
  | some kind =>
    have size := (accepted kind known).1
    simp [Payload.wireSize, EntryKind.kind_entry, size]

theorem Payload.wireSize_append (a b : Payload) :
    Payload.wireSize (a ++ b) = a.wireSize + b.wireSize := by
  simp [Payload.wireSize]

theorem Framed.wireSize_entries {data rest : Bytes} {frames : List Frame}
    (h : Framed data frames rest) : (entries frames).wireSize ≤ data.length := by
  induction frames generalizing data with
  | nil => exact Nat.zero_le _
  | cons f frames ih =>
    obtain ⟨here, later⟩ := List.forall_mem_cons.mp h.accepted
    have tail := ih ⟨rfl, later⟩
    have head := f.wireSize_entry here
    rw [entries_cons, Payload.wireSize_append, h.data, List.flatMap_cons, List.append_assoc,
      List.length_append]
    omega

theorem wireSize_parsed {data : Bytes} {payload : Payload}
    (parsed : parsePayload data = some (.ok payload)) : payload.wireSize ≤ data.length := by
  obtain ⟨frames, ⟨_, framed, _⟩, rfl⟩ := ((decode_iff_grammar [] data).2 payload).mp parsed
  exact framed.wireSize_entries

theorem parsePayload_total (data : Bytes) :
    ∃ result, parsePayload data = some result ∧ result ≠ .panicked := by
  obtain ⟨found, result, decoded, calm, -⟩ := (decode_iff_grammar [] data).1
  unfold parsePayload
  rw [decoded]
  cases result with
  | ok => exact ⟨_, rfl, nofun⟩
  | error => exact ⟨_, rfl, nofun⟩
  | panicked => exact absurd rfl calm

end AbletonLink.Wire

namespace AbletonLink.Link.PingResponder

open Library Library.Bytes Library.Run Wire

def pingOf (body : Bytes) : Bytes := Ping.protocolHeader ++ Ping.ping :: body

def Acceptable (data : Bytes) (payload : Payload) : Prop :=
  ∃ body, data = pingOf body ∧ body.length ≤ maxPayloadSize ∧
    parsePayload body = some (.ok payload)

section Reply

variable {sessionId : SessionId} {form : GhostXForm} {clock : Int64} {data : Bytes}
  {payload : Payload}

theorem exists_pingOf (long : ¬data.length < protocolHeaderSize + Ping.messageHeaderSize)
    (start : Ping.protocolHeader.isPrefixOf data = true)
    (type : data[protocolHeaderSize]? = some Ping.ping) : ∃ body, data = pingOf body := by
  obtain ⟨rest, rfl⟩ := List.isPrefixOf_iff_prefix.mp start
  cases rest with
  | nil => cases long (by decide)
  | cons head body =>
    obtain rfl : head = Ping.ping := by simpa [Ping.protocolHeader, protocolHeaderSize] using type
    exact ⟨body, rfl⟩

theorem pongMessage_acceptable (accepted : Acceptable data payload) :
    pongMessage ⟨some sessionId, some form⟩ clock data =
      (Ping.encodeMessage Ping.pong (pongPayload sessionId form clock payload)).toOption := by
  obtain ⟨body, rfl, fits, parsed⟩ := accepted
  have long : ¬((pingOf body).length < protocolHeaderSize + Ping.messageHeaderSize ∨
      ¬Ping.protocolHeader.isPrefixOf (pingOf body) ∨
      (pingOf body)[protocolHeaderSize]? ≠ some Ping.ping) := by
    simp [pingOf, Ping.protocolHeader, protocolHeaderSize, Ping.messageHeaderSize]
  have header : Ping.parseMessageHeader (pingOf body) = .ok (⟨Ping.ping⟩, 9) :=
    Ping.parseMessageHeader_append Ping.ping body
  have drop : (pingOf body).drop 9 = body := rfl
  rw [pongMessage, if_neg long]
  simp only [header, drop, parsed, if_neg (Nat.not_lt.mpr fits)]
  rfl

theorem acceptable_of_reply {reply : Bytes} {responder : PingResponder}
    (replied : responder.pongMessage clock data = some reply) :
    ∃ payload, Acceptable data payload := by
  unfold pongMessage at replied
  split at replied
  case isTrue => cases replied
  case isFalse valid =>
    simp only [not_or, not_not] at valid
    obtain ⟨body, rfl⟩ := exists_pingOf valid.1 valid.2.1 valid.2.2
    have header : Ping.parseMessageHeader (pingOf body) = .ok (⟨Ping.ping⟩, 9) :=
      Ping.parseMessageHeader_append Ping.ping body
    have drop : (pingOf body).drop 9 = body := rfl
    simp only [header, drop] at replied
    split at replied
    case isTrue => cases replied
    case isFalse fits =>
      split at replied
      case h_1 payload parsed => exact ⟨payload, body, rfl, Nat.not_lt.mp fits, parsed⟩
      case h_2 => cases replied

theorem repeated_parsed {body : Bytes} (parsed : parsePayload body = some (.ok payload)) :
    ∀ entry ∈ payload.filter repeated, entry.Encodable ∧ entry.canonical = entry := by
  obtain ⟨frames, -, rfl⟩ := ((decode_iff_grammar [] body).2 payload).mp parsed
  intro entry member
  obtain ⟨inside, repeats⟩ := List.mem_filter.mp member
  obtain ⟨f, -, read⟩ := List.mem_filterMap.mp inside
  obtain ⟨kind, -, rfl⟩ := Option.map_eq_some_iff.mp read
  cases kind with
  | hostTime | prevGhostTime =>
    simp [EntryKind.entry, PayloadEntry.Encodable, PayloadEntry.canonical]
  | _ => cases repeats

theorem wireSize_filter (payload : Payload) :
    Payload.wireSize (payload.filter repeated) ≤ payload.wireSize :=
  (List.filter_sublist.map _).sum_le_sum fun _ _ => Nat.zero_le _

theorem encodeMessage_pongPayload (sessionId : SessionId) (form : GhostXForm) (clock : Int64)
    (accepted : Acceptable data payload) :
    ∃ reply, Ping.encodeMessage Ping.pong (pongPayload sessionId form clock payload) = .ok reply ∧
      reply.length ≤ 81 ∧ Ping.parseMessageHeader reply = .ok (⟨Ping.pong⟩, 9) ∧
      parsePayload (reply.drop 9) = some (.ok (pongPayload sessionId form clock payload)) := by
  obtain ⟨body, rfl, fits, parsed⟩ := accepted
  have own := repeated_parsed parsed
  have size : (pongPayload sessionId form clock payload).wireSize ≤ 72 := by
    have read := wireSize_parsed parsed
    have kept := wireSize_filter payload
    have added : Payload.wireSize
        [.sessionMembership sessionId, .ghostTime (ghostTime form clock)] = 32 := rfl
    rw [pongPayload, Payload.wireSize_append, added]
    unfold maxPayloadSize at fits
    omega
  have times : ∀ entry ∈ pongPayload sessionId form clock payload,
      entry.Encodable ∧ entry.canonical = entry := by
    intro entry member
    cases List.mem_append.mp member with
    | inl kept => exact own entry kept
    | inr added =>
      simp only [List.mem_cons, List.not_mem_nil, or_false] at added
      obtain rfl | rfl := added <;>
        simp [ghostTime, PayloadEntry.Encodable, PayloadEntry.canonical]
  obtain ⟨reply, encoded⟩ := encodeMessage_fits Ping.pong (by omega) fun entry member =>
    (times entry member).1
  have trips := Ping.encodeMessage_roundTrips Ping.pong
  have same : (pongPayload sessionId form clock payload).canonical =
      pongPayload sessionId form clock payload :=
    (List.map_congr_left fun entry member => (times entry member).2).trans (List.map_id _)
  refine ⟨reply, encoded, ?_, trips.header _ _ encoded, ?_⟩
  · have length := trips.length _ _ encoded (by omega)
    rw [Payload.size_eq (by omega)] at length
    omega
  · rw [trips.payload _ _ encoded, same]

end Reply

/-! The two mutexes. -/

/-- How far the task that holds the session id is: `update_node_state` writes both values under
both guards, `pong_message` reads them. -/
inductive Phase
  | id
  | both
  | wrote
  | read (sessionId : SessionId)

structure Shared where
  sessionId : SessionId
  ghostXForm : GhostXForm
  holder : Option (Nat × Phase)
  installed : List (SessionId × GhostXForm)
  snapshots : List (SessionId × GhostXForm)

inductive Access
  | tryId
  | tryForm (free : Bool)
  | writeId (sessionId : SessionId)
  | writeForm (form : GhostXForm)
  | readId
  | readForm

namespace Shared

def start (sessionId : SessionId) (form : GhostXForm) : Shared :=
  { sessionId
    ghostXForm := form
    holder := none
    installed := [(sessionId, form)]
    snapshots := [] }

def step (s : Shared) : Nat × Access → Shared
  | (task, access) =>
    match s.holder with
    | none =>
      match access with
      | .tryId => { s with holder := some (task, .id) }
      | _ => s
    | some (owner, phase) =>
      if owner ≠ task then s
      else
        match phase, access with
        | .id, .tryForm free => { s with holder := if free then some (task, .both) else none }
        | .both, .writeId sessionId => { s with sessionId, holder := some (task, .wrote) }
        | .wrote, .writeForm form =>
          { s with
            ghostXForm := form
            holder := none
            installed := s.installed ++ [(s.sessionId, form)] }
        | .both, .readId => { s with holder := some (task, .read s.sessionId) }
        | .read sessionId, .readForm =>
          { s with holder := none, snapshots := s.snapshots ++ [(sessionId, s.ghostXForm)] }
        | _, _ => s

structure Coherent (s : Shared) : Prop where
  present : (∀ task, s.holder ≠ some (task, .wrote)) → (s.sessionId, s.ghostXForm) ∈ s.installed
  reading : ∀ task sessionId, s.holder = some (task, .read sessionId) → sessionId = s.sessionId
  taken : s.snapshots ⊆ s.installed

theorem Coherent.step {s : Shared} (h : s.Coherent) (op : Nat × Access) : (s.step op).Coherent := by
  obtain ⟨task, access⟩ := op
  unfold Shared.step
  dsimp only
  cases held : s.holder with
  | none =>
    have present := h.present (by simp [held])
    cases access with
    | tryId => exact ⟨fun _ => present, by simp, h.taken⟩
    | _ => exact h
  | some holder =>
    obtain ⟨owner, phase⟩ := holder
    dsimp only
    by_cases other : owner ≠ task
    · rw [if_pos other]
      exact h
    · rw [if_neg other]
      cases phase with
      | id =>
        have present := h.present (by simp [held])
        cases access with
        | tryForm free =>
          refine ⟨fun _ => present, ?_, h.taken⟩
          cases free <;> simp
        | _ => exact h
      | both =>
        have present := h.present (by simp [held])
        cases access with
        | writeId sessionId => exact ⟨fun free => absurd rfl (free task), by simp, h.taken⟩
        | readId => exact ⟨fun _ => present, by simp, h.taken⟩
        | _ => exact h
      | wrote =>
        cases access with
        | writeForm form =>
          exact ⟨fun _ => List.mem_append_right _ (List.mem_singleton_self _), by simp,
            fun pair old => List.mem_append_left _ (h.taken old)⟩
        | _ => exact h
      | read sessionId =>
        have present := h.present (by simp [held])
        cases access with
        | readForm =>
          refine ⟨fun _ => present, by simp, List.append_subset.mpr ⟨h.taken, ?_⟩⟩
          obtain rfl := h.reading owner sessionId held
          exact List.cons_subset.mpr ⟨present, List.nil_subset _⟩
        | _ => exact h

theorem snapshot_installed (sessionId : SessionId) (form : GhostXForm)
    (ops : List (Nat × Access)) :
    let s := run step (start sessionId form) ops
    s.snapshots ⊆ s.installed := by
  refine (run_keeps (I := Coherent) (fun _ op h => h.step op) ops ?_).taken
  exact ⟨fun _ => List.mem_singleton_self _, nofun, List.nil_subset _⟩

end Shared

/-- A reply is sent exactly for an acceptable PING.  It keeps far below the size of a message, has
the header of a PONG and is parsed to the repeated entries, the session and its ghost time, both
from a pair that was installed together. -/
theorem pongMessage_wellFormed :
    (∀ (sessionId : SessionId) (form : GhostXForm) (clock : Int64) (data : Bytes),
      (∀ reply, pongMessage ⟨some sessionId, some form⟩ clock data = some reply →
        ∃ body payload, data = pingOf body ∧ body.length ≤ maxPayloadSize ∧
          parsePayload body = some (.ok payload) ∧ reply.length ≤ maxMessageSize ∧
          Ping.encodeMessage Ping.pong (pongPayload sessionId form clock payload) = .ok reply ∧
          Ping.parseMessageHeader reply = .ok (⟨Ping.pong⟩, 9) ∧
          parsePayload (reply.drop 9) = some (.ok (payload.filter repeated ++
            [.sessionMembership sessionId, .ghostTime (ghostTime form clock)]))) ∧
      (pongMessage ⟨some sessionId, some form⟩ clock data = none ↔
        ¬∃ body payload, data = pingOf body ∧ body.length ≤ maxPayloadSize ∧
          parsePayload body = some (.ok payload))) ∧
    (∀ body, ∃ result, parsePayload body = some result ∧ result ≠ .panicked) ∧
    ∀ (sessionId : SessionId) (form : GhostXForm) (ops : List (Nat × Access)),
      let s := run Shared.step (Shared.start sessionId form) ops
      s.snapshots ⊆ s.installed := by
  refine ⟨fun sessionId form clock data => ⟨?_, ?_⟩, parsePayload_total, Shared.snapshot_installed⟩
  · intro reply replied
    obtain ⟨payload, accepted⟩ := acceptable_of_reply replied
    rw [pongMessage_acceptable accepted] at replied
    obtain ⟨bytes, encoded, small, header, parsed⟩ :=
      encodeMessage_pongPayload sessionId form clock accepted
    rw [encoded] at replied
    obtain rfl := Option.some.inj replied
    obtain ⟨body, rfl, fits, read⟩ := accepted
    exact ⟨body, payload, rfl, fits, read, small.trans (by decide), encoded, header, parsed⟩
  · constructor
    · rintro none ⟨body, payload, accepted⟩
      obtain ⟨bytes, encoded, -⟩ := encodeMessage_pongPayload sessionId form clock
        ⟨body, accepted⟩
      rw [pongMessage_acceptable ⟨body, accepted⟩, encoded] at none
      cases none
    · intro refused
      refine Option.eq_none_iff_forall_ne_some.mpr fun reply replied => refused ?_
      obtain ⟨payload, body, accepted⟩ := acceptable_of_reply replied
      exact ⟨body, payload, accepted⟩

theorem pongMessage_wellFormed_hostTime :
    let form : GhostXForm := ⟨1.0, .microseconds 40⟩
    let body := Payload.bytes [.hostTime (.microseconds 7), .sessionMembership default]
    ∃ reply, pongMessage ⟨some default, some form⟩ 3 (pingOf body) = some reply ∧
      parsePayload (reply.drop 9) = some (.ok [.hostTime (.microseconds 7),
        .sessionMembership default, .ghostTime (ghostTime form 3)]) := by
  intro form body
  have parsed : parsePayload body =
      some (.ok [.hostTime (.microseconds 7), .sessionMembership default]) := by
    rw [Payload.parse_bytes]
    simp [Payload.canonical, PayloadEntry.canonical]
  have fits : body.length ≤ maxPayloadSize := by
    rw [Payload.length_bytes]
    decide
  obtain ⟨answers, silent⟩ := pongMessage_wellFormed.1 default form 3 (pingOf body)
  have replies := mt silent.mp (not_not.mpr ⟨body, _, rfl, fits, parsed⟩)
  obtain ⟨reply, replied⟩ := Option.ne_none_iff_exists'.mp replies
  obtain ⟨body', payload, same, -, read, -, -, -, echoed⟩ := answers reply replied
  obtain rfl : body = body' :=
    (List.cons.inj (List.append_cancel_left (show Ping.protocolHeader ++ _ = _ from same))).2
  obtain rfl := Outcome.ok.inj (Option.some.inj (read.symm.trans parsed))
  exact ⟨reply, replied, echoed⟩

end AbletonLink.Link.PingResponder
