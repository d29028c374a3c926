import AbletonLink.Discovery.Observations
import AbletonLink.Wire.RoundTrip

/-! Announcements: a peer's state is reconstructed from the message that announces it. -/

namespace AbletonLink.Discovery

open Link Library Library.Bytes Wire

def canonicalNodeState (state : NodeState) : NodeState :=
  { state with
    timeline :=
      { tempo := .fromPeriod (.microseconds state.timeline.tempo.microsPerBeat.micros)
        beatOrigin := state.timeline.beatOrigin
        timeOrigin := .microseconds state.timeline.timeOrigin.micros }
    startStopState :=
      { state.startStopState with
        timestamp := .microseconds state.startStopState.timestamp.micros } }

def announced (state : PeerState) (ttl : UInt8) (now : Instant) : PeerStateMessage :=
  { nodeState := canonicalNodeState state.nodeState
    ttl
    expiresAt := some (now + seconds ttl.toNat)
    observation := none
    measurementEndpoint := state.measurementEndpoint.filter fun e => e.ip ≠ 0 ∨ e.port ≠ 0
    audioEndpoint := state.audioEndpoint.filter fun e => e.ip ≠ 0 ∧ e.port ≠ 0 }

theorem wireSize_peerState (state : PeerState) : (payloadFromPeerState state).wireSize ≤ 101 := by
  unfold payloadFromPeerState Payload.wireSize
  split <;> split <;> simp [PayloadEntry.kind, EntryKind.size]

theorem encodable_peerState (state : PeerState) :
    ∀ entry ∈ payloadFromPeerState state, entry.Encodable := by
  unfold payloadFromPeerState
  split <;> split <;> simp [PayloadEntry.Encodable]

theorem nodeState_announced (state : PeerState) :
    nodeStateFromPayload state.nodeState.nodeId (payloadFromPeerState state).canonical =
      canonicalNodeState state.nodeState := by
  unfold payloadFromPeerState
  split <;> split <;> rfl

theorem findSome_announced (state : PeerState) (f : PayloadEntry → Option SocketAddrV4)
    (timeline : ∀ tl, f (.timeline tl) = none) (session : ∀ id, f (.sessionMembership id) = none)
    (startStop : ∀ s, f (.startStopState s) = none)
    (noMeasurement : f (.measurementEndpointV4 none) = none)
    (noAudio : f (.audioEndpointV4 none) = none) :
    (payloadFromPeerState state).canonical.findSome? f =
      (f (PayloadEntry.canonical (.measurementEndpointV4 state.measurementEndpoint))).or
        (f (PayloadEntry.canonical (.audioEndpointV4 state.audioEndpoint))) := by
  have single (entry : PayloadEntry) : [entry].findSome? f = f entry := by
    cases found : f entry <;> simp [found]
  rw [payloadFromPeerState, Payload.canonical, List.map_append, List.map_append,
    List.findSome?_append, List.findSome?_append]
  have front : ([.timeline state.nodeState.timeline, .sessionMembership state.nodeState.sessionId,
      .startStopState state.nodeState.startStopState].map PayloadEntry.canonical).findSome? f =
      none := by
    simp [PayloadEntry.canonical, timeline, session, startStop]
  rw [front, Option.none_or]
  congr 1
  · cases state.measurementEndpoint with
    | none => exact noMeasurement.symm
    | some e => exact single _
  · cases state.audioEndpoint with
    | none => exact noAudio.symm
    | some e => exact single _

theorem peerStateEvent_announced {state : PeerState} {header : MessageHeader} {buf : Bytes}
    (now : Instant) (sender : header.ident = state.nodeState.nodeId)
    (parsed : parsePayload buf = some (.ok (payloadFromPeerState state).canonical)) :
    Messenger.peerStateEvent header buf now = some (announced state header.ttl now) := by
  rw [Messenger.peerStateEvent, parsed]
  dsimp only
  rw [findSome_announced, findSome_announced, sender, nodeState_announced]
  · simp [announced, PayloadEntry.canonical]
  all_goals first | exact fun _ => rfl | rfl

/-- Discovery messages, ping messages and the announcements of a peer all round-trip. -/
theorem messages_round_trip :
    (∀ (sender : NodeId) (ttl messageType : UInt8) (groupId : UInt16), messageType.toNat < 4 →
      RoundTrips 20 (fun payload => encodeMessage sender ttl messageType payload groupId)
        fun bytes => parseMessageHeader bytes = .ok (⟨messageType, ttl, groupId, sender⟩, 20)) ∧
    (∀ messageType : UInt8,
      RoundTrips 9 (Ping.encodeMessage messageType)
        fun bytes => Ping.parseMessageHeader bytes = .ok (⟨messageType⟩, 9)) ∧
    ∀ (state : PeerState) (ttl messageType : UInt8) (groupId : UInt16) (now : Instant),
      messageType.toNat < 4 →
      ∃ bytes header,
        encodeMessage state.ident ttl messageType (payloadFromPeerState state) groupId =
          .ok bytes ∧ parseMessageHeader bytes = .ok (header, 20) ∧
        Messenger.peerStateEvent header (bytes.drop 20) now = some (announced state ttl now) := by
  refine ⟨fun sender ttl _ groupId known => encodeMessage_roundTrips sender ttl groupId known,
    Ping.encodeMessage_roundTrips, fun state ttl messageType groupId now known => ?_⟩
  have small := wireSize_peerState state
  have size : (payloadFromPeerState state).size.toNat = _ := Payload.size_eq (by omega)
  have trips := encodeMessage_roundTrips state.ident ttl groupId known
  obtain ⟨bytes, encoded⟩ := (trips.inRange (payloadFromPeerState state) (by omega)).mpr
    (encodable_peerState state)
  exact ⟨bytes, _, encoded, trips.header _ _ encoded,
    peerStateEvent_announced now rfl (trips.payload _ _ encoded)⟩

def slowTimeline : Timeline :=
  { tempo := ⟨1.8080963834212812e-08⟩, beatOrigin := ⟨0⟩, timeOrigin := .zero }

theorem slowTimeline_drifts :
    slowTimeline.tempo.microsPerBeat.micros ≠ (Tempo.fromPeriod
      (.microseconds slowTimeline.tempo.microsPerBeat.micros)).microsPerBeat.micros := by
  decide +kernel

theorem period_timeline (tl : Timeline) :
    readI64 (((Payload.bytes [.timeline tl]).drop 8).take 8) = tl.tempo.microsPerBeat.micros := by
  have header : (PayloadEntryHeader.encode ⟨timelineHeaderKey, timelineSize⟩).length = 8 :=
    PayloadEntryHeader.length_encode _
  have bytes : Payload.bytes [.timeline tl] =
      PayloadEntryHeader.encode ⟨timelineHeaderKey, timelineSize⟩ ++
        (encodeI64 tl.tempo.microsPerBeat.micros ++
          (encodeI64 tl.beatOrigin.value ++ encodeI64 tl.timeOrigin.micros)) := by
    simp [Payload.bytes, PayloadEntry.frame, Frame.bytes, PayloadEntry.body,
      PayloadEntryHeader.encode, Timeline.encodeTo]
    rfl
  rw [bytes, List.drop_left' header, List.take_left' (length_encodeI64 _), readI64_encode]

theorem wireSize_replicate (n : Nat) (entry : PayloadEntry) :
    Payload.wireSize (List.replicate n entry) = n * (8 + entry.kind.size) := by
  simp [Payload.wireSize]

theorem messages_not_stable :
    (¬∀ payload bytes,
      encodeMessage ⟨Vector.replicate 8 0⟩ 5 messageTypeAlive payload 0 = .ok bytes →
      bytes.length = 20 + payload.size.toNat) ∧
    ¬∀ payload bytes parsed,
      encodeMessage ⟨Vector.replicate 8 0⟩ 5 messageTypeAlive payload 0 = .ok bytes →
      (∀ e, PayloadEntry.audioEndpointV4 (some e) ∈ payload → (e.ip = 0 ↔ e.port = 0)) →
      parsePayload (bytes.drop 20) = some (.ok parsed) →
      encodeMessage ⟨Vector.replicate 8 0⟩ 5 messageTypeAlive parsed 0 = .ok bytes := by
  have ok {payload : Payload} {bytes : Bytes} :
      encodeMessage ⟨Vector.replicate 8 0⟩ 5 messageTypeAlive payload 0 = .ok bytes ↔ _ :=
    ok_of_front fun payload => encodeMessage_eq ..
  constructor
  · intro all
    have wide : Payload.wireSize (List.replicate (2 ^ 28) (.hostTime .zero)) = 2 ^ 32 := by
      rw [wireSize_replicate]
      rfl
    have size : (Payload.size (List.replicate (2 ^ 28) (.hostTime .zero))).toNat = 0 := by
      rw [Payload.toNat_size, wide]
      rfl
    have length := all (List.replicate (2 ^ 28) (.hostTime .zero)) _
      (ok.mpr ⟨by rw [size]; decide, fun entry member => by
        rw [List.eq_of_mem_replicate member]
        show Duration.zero.numMicroseconds.isSome = true
        decide, rfl⟩)
    rw [List.length_append, Payload.length_bytes, wide, size] at length
    simp [protocolHeader] at length
  · intro all
    have encoded : encodeMessage ⟨Vector.replicate 8 0⟩ 5 messageTypeAlive
        [.timeline slowTimeline] 0 = .ok _ :=
      ok.mpr ⟨by decide, by simp [PayloadEntry.Encodable], rfl⟩
    have again := all _ _ (Payload.canonical [.timeline slowTimeline]) encoded (by simp) (by
      rw [List.drop_left' (by simp [protocolHeader]), Payload.parse_bytes])
    have same := List.append_cancel_left (ok.mp again).2.2
    have periods := congrArg (fun bytes => readI64 ((bytes.drop 8).take 8)) same
    simp only [Payload.canonical, List.map_cons, List.map_nil, PayloadEntry.canonical,
      period_timeline] at periods
    exact slowTimeline_drifts periods.symm

end AbletonLink.Discovery
