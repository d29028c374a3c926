import AbletonLink.Audio.Engine
import AbletonLink.Library.Leases

/-! Who receives the audio of a sink, and the flag that lets its writer produce any. -/

namespace AbletonLink.Audio

open Library Library.Bytes Library.Run Link

namespace Receiver

def dueAt (r : Receiver) : Instant := r.expiresAt + prunePadding

end Receiver

namespace Receivers

abbrev Event := Leases.Event Receiver Id Instant

variable (self : Receivers)

def apply (event : Event) : Receivers :=
  ⟨Leases.apply Receiver.peerId Receiver.dueAt self.receivers event⟩

theorem receiveChannelRequest_eq (request : ChannelRequest) (ttl : UInt8)
    (endpoint : Option SocketAddrV4) (now : Instant) :
    self.receiveChannelRequest request ttl endpoint now =
      self.apply (.grant ⟨request.peerId, endpoint, now.after ttl⟩) := by
  simp only [receiveChannelRequest, apply, Leases.apply, Leases.insert, Receiver.dueAt,
    Nat.add_le_add_iff_right]

theorem receiveChannelStopRequest_eq (request : ChannelStopRequest) :
    self.receiveChannelStopRequest request = self.apply (.release request.peerId) := rfl

end Receivers

/-- What of a sink the peers and the writer see. -/
structure Audience where
  id : Id
  isConnected : Bool
  receivers : Receivers

def Audience.on (event : Receivers.Event) (a : Audience) : Audience :=
  let receivers := a.receivers.apply event
  { a with receivers, isConnected := !receivers.isEmpty }

def SinkEntry.audience (entry : SinkEntry) : Audience :=
  ⟨entry.sink.id, entry.sink.isConnected, entry.receivers⟩

inductive AudienceChange
  | keep
  | add (id : Id)
  | remove (id : Id)
  | request (id : Id) (receiver : Receiver)
  | stop (id : Id) (peer : Id)
  | prune (peers : List Id)
  | expire (now : Instant)

def Audience.update (id : Id) (event : Receivers.Event) (as : List Audience) : List Audience :=
  let isSink := fun a : Audience => decide (a.id = id)
  match as.find? isSink with
  | none => as
  | some a => replaceFirst isSink (a.on event) as

namespace AudienceChange

def apply (as : List Audience) : AudienceChange → List Audience
  | keep => as
  | add id => as ++ [⟨id, false, .new⟩]
  | remove id => as.filter fun a => a.id ≠ id
  | request id receiver => Audience.update id (.grant receiver) as
  | stop id peer => Audience.update id (.release peer) as
  | prune peers => as.map (Audience.on (.retain peers.contains))
  | expire now => as.map (Audience.on (.expire now))

def Ends (id : Id) (receiver : Receiver) : AudienceChange → Prop
  | keep | add _ => False
  | remove other => other = id
  | request other receiver' => other = id ∧ receiver'.peerId = receiver.peerId
  | stop other peer => other = id ∧ peer = receiver.peerId
  | prune peers => receiver.peerId ∉ peers
  | expire now => receiver.expiresAt + prunePadding ≤ now

end AudienceChange

def MessageHeader.audienceChange (header : MessageHeader) (payload : Bytes) (source : SocketAddrV4)
    (now : Instant) : AudienceChange :=
  if header.messageType = typeChannelRequest then
    match ChannelRequest.fromPayload header.ident payload with
    | .error _ => .keep
    | .ok request =>
      .request request.channelId ⟨request.peerId, some source, now.after header.ttl⟩
  else if header.messageType = typeStopChannelRequest then
    match ChannelStopRequest.fromPayload header.ident payload with
    | .error _ => .keep
    | .ok request => .stop request.channelId request.peerId
  else .keep

def EngineOp.audienceChange (engine : AudioEngine) : EngineOp → AudienceChange
  | .addSink id _ => .add id
  | .removeSink id => .remove id
  | .endPeerSync => .prune []
  | .updateSessionPeersAt epoch peers =>
    if engine.epochIsCurrent epoch then .prune peers else .keep
  | .handleMessage epoch data source now _ =>
    match parseMessageHeader data with
    | .error _ => .keep
    | .ok (header, payloadOffset) =>
      if engine.sendEpoch ≠ some epoch then .keep
      else if header.ident = engine.state.nodeId then .keep
      else header.audienceChange (data.drop payloadOffset) source now
  | .process epoch now => if engine.sendEpoch ≠ some epoch then .keep else .expire now
  | _ => .keep

/-- The engine's operations and those of its teardown, which prunes only if it gets the lock. -/
inductive TeardownOp
  | engine (op : EngineOp)
  | markShutdown
  | bumpEpoch
  | tryEndPeerSync

namespace TeardownOp

def step (engine : AudioEngine) : TeardownOp → AudioEngine
  | .engine op => op.step engine
  | markShutdown => { engine with shutdown := true }
  | bumpEpoch => { engine with syncEpoch := engine.syncEpoch + 1 }
  | tryEndPeerSync => { engine with state := (engine.state.prunePeers []).1 }

def audienceChange (engine : AudioEngine) : TeardownOp → AudienceChange
  | .engine op => op.audienceChange engine
  | markShutdown | bumpEpoch => .keep
  | tryEndPeerSync => .prune []

end TeardownOp

def EngineState.audiences (state : EngineState) : List Audience :=
  state.sinks.map SinkEntry.audience

namespace EngineState

variable (state : EngineState)

theorem audience_setReceivers (entry : SinkEntry) (event : Receivers.Event) :
    (entry.setReceivers (entry.receivers.apply event)).audience = entry.audience.on event := rfl

theorem audiences_prunePeers (peers : List NodeId) :
    (state.prunePeers peers).1.audiences =
      state.audiences.map (Audience.on (.retain peers.contains)) := by
  unfold audiences prunePeers
  rw [List.map_map, List.map_map]
  rfl

theorem audiences_discardSinkBuffers : state.discardSinkBuffers.audiences = state.audiences := by
  unfold audiences discardSinkBuffers
  rw [List.map_map]
  rfl

theorem audiences_process (now : Instant) :
    (state.process now).1.audiences = state.audiences.map (Audience.on (.expire now)) := by
  unfold audiences process
  rw [List.map_map, List.map_map, List.map_map]
  rfl

theorem find?_audiences (id : Id) :
    state.audiences.find? (fun a => a.id = id) =
      (state.sinks.find? fun entry => entry.sink.id = id).map SinkEntry.audience :=
  List.find?_map

theorem audiences_updateSink (id : Id) {f : Receivers → Receivers} {event : Receivers.Event}
    (same : ∀ receivers, f receivers = receivers.apply event) :
    (state.updateSink id f).audiences = Audience.update id event state.audiences := by
  have sink : ((fun a : Audience => decide (a.id = id)) ∘ SinkEntry.audience) =
    fun entry => decide (entry.sink.id = id) := rfl
  unfold updateSink Audience.update
  dsimp only
  rw [find?_audiences]
  cases state.sinks.find? fun entry => entry.sink.id = id with
  | none => rfl
  | some entry =>
    dsimp only [Option.map, audiences]
    rw [same, ← audience_setReceivers, ← map_replaceFirst_comp, sink]

theorem audiences_receiveAnnouncement (peerId : NodeId) (payload : Bytes) (source : SocketAddrV4)
    (ttl : UInt8) (now : Instant) :
    (state.receiveAnnouncement peerId payload source ttl now).1.audiences = state.audiences := by
  unfold receiveAnnouncement
  split
  · rfl
  · split <;> rfl

theorem audiences_receiveChannelByes (payload : Bytes) :
    (state.receiveChannelByes payload).1.audiences = state.audiences := by
  unfold receiveChannelByes
  dsimp only
  split <;> rfl

theorem audiences_receivePong (payload : Bytes) (source : SocketAddrV4) (nowMicros : Int64) :
    (state.receivePong payload source nowMicros).audiences = state.audiences := by
  unfold receivePong
  split
  · rfl
  · dsimp only
    split <;> rfl

theorem audiences_receiveAudioBuffer (payload : Bytes) :
    (state.receiveAudioBuffer payload).1.audiences = state.audiences := by
  unfold receiveAudioBuffer
  split
  · rfl
  · dsimp only
    split <;> rfl

theorem audiences_dispatch (header : MessageHeader) (payload : Bytes) (source : SocketAddrV4)
    (now : Instant) (nowMicros : Int64) :
    (state.dispatch header payload source now nowMicros).1.audiences =
      (header.audienceChange payload source now).apply state.audiences := by
  unfold dispatch MessageHeader.audienceChange
  by_cases request : header.messageType = typeChannelRequest
  · rw [if_neg (by rw [request]; decide), if_neg (by rw [request]; decide),
      if_neg (by rw [request]; decide), if_pos request, if_pos request]
    unfold receiveChannelRequest
    cases ChannelRequest.fromPayload header.ident payload with
    | error _ => rfl
    | ok request =>
      exact state.audiences_updateSink _ fun receivers =>
        receivers.receiveChannelRequest_eq request header.ttl (some source) now
  · rw [if_neg request]
    by_cases stop : header.messageType = typeStopChannelRequest
    · rw [if_neg (by rw [stop]; decide), if_neg (by rw [stop]; decide),
        if_neg (by rw [stop]; decide), if_neg request, if_pos stop, if_pos stop]
      unfold receiveChannelStopRequest
      cases ChannelStopRequest.fromPayload header.ident payload with
      | error _ => rfl
      | ok request =>
        exact state.audiences_updateSink _ fun receivers =>
          receivers.receiveChannelStopRequest_eq request
    · rw [if_neg request, if_neg stop, if_neg stop]
      split
      · exact state.audiences_receiveAnnouncement ..
      · split
        · exact state.audiences_receiveChannelByes payload
        · split
          · exact state.audiences_receivePong ..
          · split
            · exact state.audiences_receiveAudioBuffer payload
            · rfl

end EngineState

theorem audiences_step (engine : AudioEngine) (op : TeardownOp) :
    (op.step engine).state.audiences =
      (op.audienceChange engine).apply engine.state.audiences := by
  cases op with
  | markShutdown => rfl
  | bumpEpoch => rfl
  | tryEndPeerSync => exact engine.state.audiences_prunePeers []
  | engine op =>
    cases op with
    | addSink id name => exact List.map_append
    | removeSink id =>
      show (engine.state.sinks.filter _).map SinkEntry.audience = (List.map _ _).filter _
      rw [List.filter_map]
      rfl
    | addSource channelId => rfl
    | removeSource channelId => rfl
    | releaseBuffer id buffer =>
      show (engine.state.sinks.map _).map SinkEntry.audience = _
      rw [List.map_map]
      refine List.map_congr_left ?_
      intro entry _
      rw [Function.comp_apply]
      split <;> rfl
    | beginPeerSync =>
      show engine.beginPeerSync.1.state.audiences = _
      unfold AudioEngine.beginPeerSync
      split
      · rfl
      · exact engine.state.audiences_discardSinkBuffers
    | stopSharing => rfl
    | stopSending => rfl
    | endPeerSync =>
      show (engine.state.discardSinkBuffers.prunePeers []).1.audiences = _
      rw [EngineState.audiences_prunePeers, EngineState.audiences_discardSinkBuffers]
      rfl
    | setIdentityAt epoch nodeId sessionId =>
      show (engine.setIdentityAt epoch nodeId sessionId).state.audiences = _
      unfold AudioEngine.setIdentityAt
      split <;> rfl
    | sawLinkAudioEndpointAt epoch peerId endpoint =>
      show (engine.sawLinkAudioEndpointAt epoch peerId endpoint).state.audiences = _
      unfold AudioEngine.sawLinkAudioEndpointAt
      split
      · split
        · split <;> rfl
        · rfl
      · rfl
    | updateSessionPeersAt epoch peers =>
      show (engine.updateSessionPeersAt epoch peers).1.state.audiences =
        (if engine.epochIsCurrent epoch then _ else _ : AudienceChange).apply _
      unfold AudioEngine.updateSessionPeersAt
      split
      · exact engine.state.audiences_prunePeers peers
      · rfl
    | handleMessage epoch data source now nowMicros =>
      dsimp only [TeardownOp.step, EngineOp.step, TeardownOp.audienceChange,
        EngineOp.audienceChange, AudioEngine.handleMessage]
      cases parseMessageHeader data with
      | error _ => rfl
      | ok parsed =>
        dsimp only
        split
        · rfl
        · split
          · rfl
          · exact engine.state.audiences_dispatch ..
    | process epoch now =>
      dsimp only [TeardownOp.step, EngineOp.step, TeardownOp.audienceChange,
        EngineOp.audienceChange, AudioEngine.process]
      split
      · rfl
      · exact engine.state.audiences_process now

namespace Audience

/-- Requests reach the first sink with an id, so another one has no receivers. -/
structure Good (as : List Audience) : Prop where
  wellFormed : ∀ a ∈ as,
    Leases.WellFormed Receiver.peerId Receiver.dueAt a.receivers.receivers
  flag : ∀ a ∈ as, a.isConnected = !a.receivers.isEmpty
  first : as.Pairwise fun a b => a.id = b.id → b.receivers = .new

def Holds (id : Id) (receiver : Receiver) (as : List Audience) : Prop :=
  ∃ a, as.find? (fun a => a.id = id) = some a ∧ receiver ∈ a.receivers.receivers

variable {as : List Audience} {id : Id} {receiver : Receiver}

theorem mem_apply {receivers : Receivers} {event : Receivers.Event} :
    receiver ∈ (receivers.apply event).receivers ↔
      event = .grant receiver ∨
        receiver ∈ receivers.receivers ∧ ¬event.Ends Receiver.peerId Receiver.dueAt receiver :=
  Leases.mem_apply

theorem good_nil : Good [] := ⟨nofun, nofun, List.Pairwise.nil⟩

theorem Good.map (good : Good as) {event : Receivers.Event}
    (still : Receivers.new.apply event = .new) : Good (as.map (on event)) where
  wellFormed := by
    rintro _ member
    obtain ⟨a, there, rfl⟩ := List.mem_map.mp member
    exact (good.wellFormed a there).apply event
  flag := by
    rintro _ member
    obtain ⟨a, -, rfl⟩ := List.mem_map.mp member
    rfl
  first := by
    refine List.pairwise_map.mpr (good.first.imp ?_)
    intro a b none same
    show b.receivers.apply event = .new
    rw [none same, still]

theorem Good.update (good : Good as) (id : Id) (event : Receivers.Event) :
    Good (update id event as) := by
  unfold Audience.update
  dsimp only
  split
  · exact good
  next a found =>
    have member := List.mem_of_find?_eq_some found
    obtain ⟨here, before, after, rfl, others, replaced⟩ := find?_split found
    constructor
    · intro b there
      obtain rfl | old := mem_replaceFirst found there
      · exact (good.wellFormed a member).apply event
      · exact good.wellFormed b old
    · intro b there
      obtain rfl | old := mem_replaceFirst found there
      · rfl
      · exact good.flag b old
    · rw [replaced]
      have first := good.first
      rw [List.pairwise_append, List.pairwise_cons] at first ⊢
      obtain ⟨front, ⟨from_here, back⟩, across⟩ := first
      refine ⟨front, ⟨from_here, back⟩, ?_⟩
      intro b earlier c later same
      obtain rfl | later := List.mem_cons.mp later
      · -- No sink before the first one has its id.
        have here : b.id = id := same.trans (of_decide_eq_true here)
        exact absurd here (of_decide_eq_false (others b earlier))
      · exact across b earlier c (List.mem_cons_of_mem _ later) same

theorem Good.apply (good : Good as) (change : AudienceChange) : Good (change.apply as) := by
  cases change with
  | keep => exact good
  | add id =>
    constructor
    · refine List.forall_mem_append.mpr ⟨good.wellFormed, ?_⟩
      exact List.forall_mem_singleton.mpr Leases.wellFormed_nil
    · refine List.forall_mem_append.mpr ⟨good.flag, ?_⟩
      exact List.forall_mem_singleton.mpr rfl
    · refine List.pairwise_append.mpr ⟨good.first, List.pairwise_singleton .., ?_⟩
      rintro a - b new same
      rw [List.mem_singleton.mp new]
  | remove id =>
    refine ⟨?_, ?_, good.first.filter _⟩
    · exact fun a member => good.wellFormed a (List.mem_of_mem_filter member)
    · exact fun a member => good.flag a (List.mem_of_mem_filter member)
  | request id receiver => exact good.update ..
  | stop id peer => exact good.update ..
  | prune peers => exact good.map rfl
  | expire now => exact good.map rfl

theorem id_of_find {a : Audience} (found : as.find? (fun a => a.id = id) = some a) : a.id = id := by
  have same := List.find?_some found
  exact of_decide_eq_true same

theorem present_iff :
    (∃ a ∈ as, a.id = id) ↔ ∃ a, as.find? (fun a => a.id = id) = some a := by
  rw [← Option.isSome_iff_exists, List.find?_isSome]
  simp only [decide_eq_true_eq]

theorem holds_update {other : Id} {event : Receivers.Event} :
    Holds id receiver (update other event as) ↔
      (∃ a ∈ as, a.id = id) ∧ other = id ∧ event = .grant receiver ∨
        Holds id receiver as ∧
          ¬(other = id ∧ event.Ends Receiver.peerId Receiver.dueAt receiver) := by
  rw [present_iff]
  unfold Holds Audience.update
  dsimp only
  by_cases same : other = id
  · subst same
    cases found : as.find? fun a => a.id = other with
    | none => simp [found]
    | some a =>
      have kept : decide ((a.on event).id = other) = true :=
        decide_eq_true (show a.id = other from id_of_find found)
      dsimp only
      rw [find?_replaceFirst found kept]
      simp [on, mem_apply]
  · cases found : as.find? fun a => a.id = other with
    | none => simp [same]
    | some a =>
      have apart : decide (a.id = id) = false := decide_eq_false (by rwa [id_of_find found])
      dsimp only
      rw [find?_replaceFirst_of_not (y := a.on event) found apart apart]
      simp [same]

theorem holds_map {event : Receivers.Event} (quiet : event ≠ .grant receiver) :
    Holds id receiver (as.map (on event)) ↔
      Holds id receiver as ∧ ¬event.Ends Receiver.peerId Receiver.dueAt receiver := by
  have sink : ((fun a : Audience => decide (a.id = id)) ∘ on event) =
    fun a => decide (a.id = id) := rfl
  unfold Holds
  rw [List.find?_map, sink]
  cases as.find? fun a => a.id = id with
  | none => simp
  | some a => simp [on, mem_apply, quiet]

theorem holds_apply (change : AudienceChange) :
    Holds id receiver (change.apply as) ↔
      (∃ a ∈ as, a.id = id) ∧ change = .request id receiver ∨
        Holds id receiver as ∧ ¬change.Ends id receiver := by
  cases change with
  | keep => simp [AudienceChange.apply, AudienceChange.Ends]
  | add other =>
    simp only [reduceCtorEq, and_false, false_or, AudienceChange.Ends, not_false_eq_true, and_true]
    unfold Holds AudienceChange.apply
    rw [List.find?_append]
    cases as.find? fun a => a.id = id with
    | some a => rfl
    | none =>
      -- A new sink has no receivers.
      refine iff_of_false ?_ ?_
      · rintro ⟨a, found, member⟩
        have new := List.mem_of_find?_eq_some found
        rw [List.mem_singleton.mp new] at member
        exact List.not_mem_nil member
      · rintro ⟨a, ⟨⟩, -⟩
  | remove other =>
    simp only [reduceCtorEq, and_false, false_or, AudienceChange.Ends]
    unfold Holds AudienceChange.apply
    rw [List.find?_filter]
    by_cases same : other = id
    · subst same
      refine iff_of_false ?_ fun h => h.2 rfl
      rintro ⟨a, found, -⟩
      have both := List.find?_some found
      simp at both
    · have here : (fun a : Audience => decide (decide (a.id ≠ other) = true ∧
          decide (a.id = id) = true)) = fun a => decide (a.id = id) := by
        funext a
        by_cases there : a.id = id
        · simp [there, Ne.symm same]
        · simp [there]
      rw [here]
      simp only [same, not_false_eq_true, and_true]
  | request other receiver' =>
    refine holds_update.trans ?_
    simp [Leases.Event.Ends, AudienceChange.Ends]
  | stop other peer =>
    refine holds_update.trans ?_
    simp [Leases.Event.Ends, AudienceChange.Ends]
  | prune peers =>
    have quiet : (.retain peers.contains : Receivers.Event) ≠ .grant receiver := by rintro ⟨⟩
    refine (holds_map quiet).trans ?_
    simp [Leases.Event.Ends, AudienceChange.Ends]
  | expire now =>
    have quiet : (.expire now : Receivers.Event) ≠ .grant receiver := by rintro ⟨⟩
    refine (holds_map quiet).trans ?_
    simp [Leases.Event.Ends, AudienceChange.Ends, Receiver.dueAt]

end Audience

namespace TeardownOp

theorem good_run (addr : UInt32) (nodeId : NodeId) (sessionId : SessionId)
    (ops : List TeardownOp) :
    Audience.Good (run step (.new addr nodeId sessionId) ops).state.audiences := by
  refine run_keeps (I := fun engine : AudioEngine => Audience.Good engine.state.audiences) ?_ ops
    Audience.good_nil
  intro engine op good
  rw [audiences_step]
  exact good.apply _

def Requests (id : Id) (receiver : Receiver) (engine : AudioEngine) (op : TeardownOp) : Prop :=
  (∃ entry ∈ engine.state.sinks, entry.sink.id = id) ∧
    op.audienceChange engine = .request id receiver

/-- The engine lets something through that ends such a request: a later request of the peer, its
stop, a pruning without the peer, a round of the processor after the padding, or the removal of the
sink. -/
def Ends (id : Id) (receiver : Receiver) (engine : AudioEngine) (op : TeardownOp) : Prop :=
  (op.audienceChange engine).Ends id receiver

/-- Receivers are unique and sorted and the flag says whether there are any, in every sink and
after every run; and the receivers of a sink are the peers that requested it since nothing ended
the request, as they did so last. -/
theorem audience_exact (addr : UInt32) (nodeId : NodeId) (sessionId : SessionId)
    (ops : List TeardownOp) :
    let engine := run step (.new addr nodeId sessionId) ops
    (∀ entry ∈ engine.state.sinks,
      (entry.receivers.receivers.map Receiver.peerId).Nodup ∧
      entry.receivers.receivers.Pairwise (fun a b => a.expiresAt ≤ b.expiresAt) ∧
      entry.sink.isConnected = !entry.receivers.isEmpty) ∧
    (∀ id entry, engine.state.sinks.find? (fun entry => entry.sink.id = id) = some entry →
      ∀ receiver, receiver ∈ entry.receivers.receivers ↔
        Since step (Requests id receiver) (Ends id receiver) (.new addr nodeId sessionId) ops) ∧
    engine.state.sinks.Pairwise fun a b => a.sink.id = b.sink.id → b.receivers = .new := by
  intro engine
  have good : Audience.Good engine.state.audiences := good_run addr nodeId sessionId ops
  refine ⟨?_, ?_, List.pairwise_map.mp good.first⟩
  · intro entry member
    have there : entry.audience ∈ engine.state.audiences := List.mem_map_of_mem member
    have wellFormed := good.wellFormed _ there
    refine ⟨wellFormed.unique, wellFormed.sorted.imp ?_, good.flag _ there⟩
    intro a b order
    exact Nat.le_of_add_le_add_right order
  · intro id entry found receiver
    have here : receiver ∈ entry.receivers.receivers ↔
        Audience.Holds id receiver engine.state.audiences := by
      unfold Audience.Holds
      rw [EngineState.find?_audiences, found]
      simp only [Option.map_some, Option.some.injEq, exists_eq_left', SinkEntry.audience]
    rw [here]
    refine since_iff (I := fun _ => True) (G := fun engine : AudioEngine =>
      Audience.Holds id receiver engine.state.audiences) (fun _ _ _ => trivial) ?_ trivial ?_ ops
    · intro engine op _
      have present : (∃ a ∈ engine.state.audiences, a.id = id) ↔
          ∃ entry ∈ engine.state.sinks, entry.sink.id = id := by
        simp [EngineState.audiences, SinkEntry.audience]
      rw [audiences_step, Audience.holds_apply, present]
      exact Iff.rfl
    · rintro ⟨a, ⟨⟩, -⟩

end TeardownOp

end AbletonLink.Audio
