import AbletonLink.Audio.Captured
import AbletonLink.Audio.Messages

/-! Engines that exchange datagrams.  A datagram that was sent may arrive anywhere, late, several
times or never; what else arrives is no audio. -/

universe u

namespace AbletonLink.Audio

open Library Library.Bytes Library.Run Link Wire

/-- `wire` are the audio messages ever sent, `captured` the buffers released at each node to the
sinks of a channel. -/
structure AudioNetwork (Node : Type u) where
  engines : Node → AudioEngine
  wire : List Bytes
  captured : Node → Id → List Buffer

def isAudio (data : Bytes) : Bool :=
  match parseMessageHeader data with
  | .ok (header, _) => header.messageType = typeAudioBuffer
  | .error _ => false

def AudioEngine.audioMessages (engine : AudioEngine) (epoch : UInt64) (now : Instant) :
    List Bytes :=
  (engine.process epoch now).2.1.filterMap fun message =>
    (audioBufferMessage engine.state.nodeId message.1.encodeRaw).toOption

namespace AudioNetwork

variable {Node : Type u}

def start (engines : Node → AudioEngine) : AudioNetwork Node := ⟨engines, [], fun _ _ => []⟩

variable [DecidableEq Node]

def sends (engine : AudioEngine) : EngineOp → List Bytes
  | .process epoch now => engine.audioMessages epoch now
  | _ => []

def captures (captured : Id → List Buffer) : EngineOp → Id → List Buffer
  | .releaseBuffer id buffer => Function.update captured id (captured id ++ [buffer])
  | _ => captured

@[simp] theorem captures_release (captured : Id → List Buffer) (id : Id) (buffer : Buffer) :
    captures captured (.releaseBuffer id buffer) =
      Function.update captured id (captured id ++ [buffer]) := rfl

def step (net : AudioNetwork Node) (op : Node × EngineOp) : AudioNetwork Node where
  engines := Function.update net.engines op.1 (op.2.step (net.engines op.1))
  wire := net.wire ++ sends (net.engines op.1) op.2
  captured := Function.update net.captured op.1 (captures (net.captured op.1) op.2)

/-- An engine hears what was sent, or something that is no audio message; the application releases
buffers whose frames are all there. -/
def Admitted (net : AudioNetwork Node) : Node × EngineOp → Prop
  | (_, .handleMessage _ data _ _ _) => data ∈ net.wire ∨ isAudio data = false
  | (_, .releaseBuffer _ buffer) => buffer.audible = true → buffer.Playable
  | _ => True

end AudioNetwork

def Heard (captured : List Buffer) (handle : BufferCallbackHandle) : Prop :=
  ∃ buffers, buffers <:+: captured ∧
    handle.samples <:+: (buffers.filter Buffer.audible).flatMap Buffer.used

theorem Heard.more {captured : List Buffer} {handle : BufferCallbackHandle}
    (h : Heard captured handle) (more : List Buffer) : Heard (captured ++ more) handle := by
  obtain ⟨buffers, part, samples⟩ := h
  exact ⟨buffers, part.trans (List.prefix_append captured more).isInfix, samples⟩

namespace EngineState

theorem played_of_dispatch (state : EngineState) {header : MessageHeader} {payload : Bytes}
    {source : SocketAddrV4} {now : Instant} {nowMicros : Int64} {id : Id}
    {handle : BufferCallbackHandle}
    (played : .played id handle ∈ (state.dispatch header payload source now nowMicros).2.2) :
    header.messageType = typeAudioBuffer ∧
      .played id handle ∈ (state.receiveAudioBuffer payload).2 := by
  unfold dispatch at played
  split at played
  · dsimp only [receivePing] at played
    split at played
    · rcases List.mem_singleton.mp played with ⟨⟩
    · cases played
  · split at played
    · cases played
    · split at played
      · cases played
      · split at played
        · cases played
        · split at played
          · cases played
          · split at played
            next audio => exact ⟨audio, played⟩
            next => cases played

theorem played_of_receive (state : EngineState) {channelId : Id} {block : Block}
    (sound : block.Sound .decodable MAX_AUDIO_BYTES) {id : Id} {handle : BufferCallbackHandle}
    (played : .played id handle ∈
      (state.receiveAudioBuffer (block.buffer channelId).encodeRaw).2) :
    id = channelId ∧ handle.samples <:+: block.samples := by
  unfold receiveAudioBuffer at played
  rw [AudioBuffer.decodeRaw_encodeRaw (sound.acceptable (by decide) channelId)] at played
  dsimp only at played
  split at played
  · cases played
  next entry found =>
    obtain ⟨heard, member, same⟩ := List.mem_map.mp played
    cases same
    have test := List.find?_some found
    refine ⟨of_decide_eq_true test, ?_⟩
    have samples := PcmDecoder.decode_buffer sound entry.decoder
      (show (block.buffer channelId).received.codec = .pcmI16 from rfl) rfl
      (by simp [framesOf, AudioBuffer.received, Block.buffer, Function.comp_def]) rfl
    rw [← samples]
    exact infix_flatMap_of_mem member

end EngineState

def AllFollow (captured : Id → List Buffer) (sinks : List SinkEntry) : Prop :=
  ∀ entry ∈ sinks, entry.Follows (captured entry.sink.id)

namespace AllFollow

variable {captured : Id → List Buffer} {sinks : List SinkEntry}

theorem mono {sinks' : List SinkEntry} (h : AllFollow captured sinks)
    (sub : ∀ entry ∈ sinks', entry ∈ sinks) : AllFollow captured sinks' :=
  fun entry member => h entry (sub entry member)

theorem map (h : AllFollow captured sinks) {f : SinkEntry → SinkEntry}
    (follows : ∀ entry, entry.Follows (captured entry.sink.id) →
      (f entry).Follows (captured (f entry).sink.id)) : AllFollow captured (sinks.map f) := by
  intro entry member
  obtain ⟨before, inside, rfl⟩ := List.mem_map.mp member
  exact follows before (h before inside)

theorem setReceivers (h : AllFollow captured sinks) (f : SinkEntry → Receivers) :
    AllFollow captured (sinks.map fun entry => entry.setReceivers (f entry)) :=
  h.map fun _ follows => follows

theorem discard (captured : Id → List Buffer) (sinks : List SinkEntry) :
    AllFollow captured (sinks.map SinkEntry.discardBuffers) := by
  intro entry member
  obtain ⟨before, -, rfl⟩ := List.mem_map.mp member
  exact SinkEntry.follows_of_discarded _ rfl rfl

theorem prunePeers {state : EngineState} (h : AllFollow captured state.sinks)
    (peers : List NodeId) : AllFollow captured (state.prunePeers peers).1.sinks :=
  h.setReceivers fun entry => entry.receivers.retainPeers peers

theorem updateSink {state : EngineState} (h : AllFollow captured state.sinks) (id : Id)
    (f : Receivers → Receivers) : AllFollow captured (state.updateSink id f).sinks := by
  unfold EngineState.updateSink
  dsimp only
  split
  · exact h
  next entry found =>
    intro other member
    rcases mem_replaceFirst found member with rfl | old
    · exact h entry (List.mem_of_find?_eq_some found)
    · exact h other old

theorem dispatch {state : EngineState} (h : AllFollow captured state.sinks)
    (header : MessageHeader) (payload : Bytes) (source : SocketAddrV4) (now : Instant)
    (nowMicros : Int64) :
    AllFollow captured (state.dispatch header payload source now nowMicros).1.sinks := by
  refine state.dispatch_cases (P := fun state' _ => AllFollow captured state'.sinks) h ?_ ?_ ?_ ?_
    ?_ header payload source now nowMicros
  · intro peerId payload source ttl now
    unfold EngineState.receiveAnnouncement
    split
    · exact h
    · split <;> exact h
  · intro payload
    unfold EngineState.receiveChannelByes
    dsimp only
    split <;> exact h
  · intro payload source nowMicros
    unfold EngineState.receivePong
    split
    · exact h
    · dsimp only
      split <;> exact h
  · exact fun id f => h.updateSink id f
  · intro payload
    unfold EngineState.receiveAudioBuffer
    split
    · exact h
    · dsimp only
      split <;> exact h

theorem release (h : AllFollow captured sinks) (id : Id) (buffer : Buffer) :
    AllFollow (Function.update captured id (captured id ++ [buffer]))
      (sinks.map fun entry => if entry.sink.id = id then
        { entry with pending := entry.pending ++ [buffer] } else entry) := by
  intro entry member
  obtain ⟨before, inside, rfl⟩ := List.mem_map.mp member
  have follows := h before inside
  by_cases mine : before.sink.id = id
  · rw [if_pos mine]
    subst mine
    dsimp only
    rw [Function.update_self]
    exact follows.release buffer
  · rw [if_neg mine, Function.update_of_ne mine]
    exact follows

end AllFollow

theorem AllFollow.engine {captured : Id → List Buffer} {engine : AudioEngine}
    (h : AllFollow captured engine.state.sinks)
    (playable : ∀ id, ∀ buffer ∈ captured id, buffer.audible = true → buffer.Playable)
    (op : EngineOp) :
    AllFollow (AudioNetwork.captures captured op) (op.step engine).state.sinks := by
  cases op with
  | addSink id name =>
    intro entry member
    rcases List.mem_append.mp member with old | new
    · exact h entry old
    · rw [List.mem_singleton.mp new]
      exact SinkEntry.follows_of_discarded _ rfl rfl
  | removeSink id => exact h.mono fun entry member => List.mem_of_mem_filter member
  | addSource channelId => exact h
  | removeSource channelId => exact h
  | releaseBuffer id buffer => exact h.release id buffer
  | beginPeerSync =>
    unfold EngineOp.step AudioEngine.beginPeerSync
    dsimp only
    split
    · exact h
    · exact AllFollow.discard captured _
  | stopSharing => exact h
  | stopSending => exact h
  | endPeerSync =>
    have discarded : AllFollow captured engine.state.discardSinkBuffers.sinks :=
      AllFollow.discard captured engine.state.sinks
    exact discarded.prunePeers []
  | setIdentityAt epoch nodeId sessionId =>
    unfold EngineOp.step AudioEngine.setIdentityAt
    dsimp only
    split <;> exact h
  | sawLinkAudioEndpointAt epoch peerId endpoint =>
    unfold EngineOp.step AudioEngine.sawLinkAudioEndpointAt
    dsimp only
    split
    · split
      · split <;> exact h
      · exact h
    · exact h
  | updateSessionPeersAt epoch peers =>
    unfold EngineOp.step AudioEngine.updateSessionPeersAt
    dsimp only
    split
    · exact h.prunePeers peers
    · exact h
  | handleMessage epoch data source now nowMicros =>
    exact engine.handleMessage_cases (P := fun state _ => AllFollow captured state.sinks) h
      (fun header payload => h.dispatch header payload source now nowMicros) epoch data
  | process epoch now =>
    unfold EngineOp.step AudioEngine.process
    dsimp only
    split
    · exact h
    · show AllFollow captured ((engine.state.sinks.map fun entry => entry.process now).map Prod.fst)
      rw [List.map_map]
      exact h.map fun entry follows => (follows.process (playable entry.sink.id) now).1

theorem AllFollow.sends {captured : Id → List Buffer} {engine : AudioEngine}
    (h : AllFollow captured engine.state.sinks)
    (playable : ∀ id, ∀ buffer ∈ captured id, buffer.audible = true → buffer.Playable)
    (op : EngineOp) :
    ∀ data ∈ AudioNetwork.sends engine op, ∃ id sent, CarriesOf (captured id) id sent ∧
      audioBufferMessage engine.state.nodeId sent.encodeRaw = .ok data := by
  intro data member
  cases op with
  | process epoch now =>
    obtain ⟨message, sent, encoded⟩ := List.mem_filterMap.mp member
    have carried : ∃ entry ∈ engine.state.sinks, message ∈ (entry.process now).2 := by
      unfold AudioEngine.process at sent
      split at sent
      · cases sent
      · obtain ⟨result, inside, here⟩ := List.mem_flatMap.mp sent
        obtain ⟨entry, member, rfl⟩ := List.mem_map.mp inside
        exact ⟨entry, member, here⟩
    obtain ⟨entry, inside, here⟩ := carried
    have follows := (h entry inside).process (playable entry.sink.id) now
    refine ⟨entry.sink.id, message.1, follows.2 message here, ?_⟩
    cases built : audioBufferMessage engine.state.nodeId message.1.encodeRaw with
    | error error =>
      rw [built] at encoded
      cases encoded
    | ok bytes =>
      rw [built] at encoded
      cases encoded
      rfl
  | _ => cases member

namespace AudioNetwork

variable {Node : Type u} [DecidableEq Node]

structure Genuine (net : AudioNetwork Node) : Prop where
  playable : ∀ node id, ∀ buffer ∈ net.captured node id,
    buffer.audible = true → buffer.Playable
  sinks : ∀ node, AllFollow (net.captured node) (net.engines node).state.sinks
  wire : ∀ data ∈ net.wire, ∃ node self id sent, CarriesOf (net.captured node id) id sent ∧
    audioBufferMessage self sent.encodeRaw = .ok data
  played : ∀ node id handle, .played id handle ∈ (net.engines node).outputs →
    ∃ sender, Heard (net.captured sender id) handle

variable {net : AudioNetwork Node}

theorem captured_step (net : AudioNetwork Node) (op : Node × EngineOp) (node : Node) (id : Id) :
    ∃ more, (net.step op).captured node id = net.captured node id ++ more := by
  obtain ⟨actor, op⟩ := op
  show ∃ more, Function.update net.captured actor (captures (net.captured actor) op) node id = _
  by_cases same : node = actor
  · subst same
    rw [Function.update_self]
    cases op with
    | releaseBuffer channel buffer =>
      rw [captures_release]
      by_cases mine : id = channel
      · subst mine
        exact ⟨[buffer], Function.update_self ..⟩
      · exact ⟨[], by rw [Function.update_of_ne mine, List.append_nil]⟩
    | _ => exact ⟨[], (List.append_nil _).symm⟩
  · rw [Function.update_of_ne same]
    exact ⟨[], (List.append_nil _).symm⟩

theorem Genuine.playable_step (h : net.Genuine) {op : Node × EngineOp} (admitted : net.Admitted op)
    (node : Node) (id : Id) :
    ∀ buffer ∈ (net.step op).captured node id, buffer.audible = true → buffer.Playable := by
  obtain ⟨actor, op⟩ := op
  show ∀ buffer ∈ Function.update net.captured actor (captures (net.captured actor) op) node id, _
  by_cases same : node = actor
  · subst same
    rw [Function.update_self]
    cases op with
    | releaseBuffer channel buffer =>
      rw [captures_release]
      by_cases mine : id = channel
      · subst mine
        rw [Function.update_self]
        intro other member
        rcases List.mem_append.mp member with old | new
        · exact h.playable node id other old
        · rw [List.mem_singleton.mp new]
          exact admitted
      · rw [Function.update_of_ne mine]
        exact h.playable node id
    | _ => exact h.playable node id
  · rw [Function.update_of_ne same]
    exact h.playable node id

theorem played_of_step {engine : AudioEngine} {op : EngineOp} {id : Id}
    {handle : BufferCallbackHandle} (played : .played id handle ∈ (op.step engine).outputs) :
    .played id handle ∈ engine.outputs ∨
      ∃ epoch data source now nowMicros header offset,
        op = .handleMessage epoch data source now nowMicros ∧
        parseMessageHeader data = .ok (header, offset) ∧ header.messageType = typeAudioBuffer ∧
        .played id handle ∈ (engine.state.receiveAudioBuffer (data.drop offset)).2 := by
  cases op with
  | handleMessage epoch data source now nowMicros =>
    unfold EngineOp.step AudioEngine.handleMessage at played
    dsimp only at played
    cases parsed : parseMessageHeader data with
    | error error =>
      rw [parsed] at played
      exact .inl played
    | ok front =>
      obtain ⟨header, offset⟩ := front
      rw [parsed] at played
      dsimp only at played
      split at played
      · exact .inl played
      · split at played
        · exact .inl played
        · rcases List.mem_append.mp played with old | new
          · exact .inl old
          · obtain ⟨audio, here⟩ := engine.state.played_of_dispatch new
            exact .inr ⟨epoch, data, source, now, nowMicros, header, offset, rfl, parsed, audio,
              here⟩
  | beginPeerSync =>
    unfold EngineOp.step AudioEngine.beginPeerSync at played
    dsimp only at played
    split at played <;> exact .inl played
  | setIdentityAt epoch nodeId sessionId =>
    unfold EngineOp.step AudioEngine.setIdentityAt at played
    dsimp only at played
    split at played <;> exact .inl played
  | sawLinkAudioEndpointAt epoch peerId endpoint =>
    unfold EngineOp.step AudioEngine.sawLinkAudioEndpointAt at played
    dsimp only at played
    split at played
    · split at played
      · split at played <;> exact .inl played
      · exact .inl played
    · exact .inl played
  | updateSessionPeersAt epoch peers =>
    unfold EngineOp.step AudioEngine.updateSessionPeersAt at played
    dsimp only at played
    split at played <;> exact .inl played
  | process epoch now =>
    unfold EngineOp.step AudioEngine.process at played
    dsimp only at played
    split at played <;> exact .inl played
  | addSink id name => exact .inl played
  | removeSink id => exact .inl played
  | addSource channelId => exact .inl played
  | removeSource channelId => exact .inl played
  | releaseBuffer id buffer => exact .inl played
  | stopSharing => exact .inl played
  | stopSending => exact .inl played
  | endPeerSync => exact .inl played

omit [DecidableEq Node] in
theorem Genuine.heard (h : net.Genuine) {data : Bytes} (sent : data ∈ net.wire)
    {header : MessageHeader} {offset : Nat}
    (parsed : parseMessageHeader data = .ok (header, offset)) {state : EngineState} {id : Id}
    {handle : BufferCallbackHandle}
    (played : .played id handle ∈ (state.receiveAudioBuffer (data.drop offset)).2) :
    ∃ sender, Heard (net.captured sender id) handle := by
  obtain ⟨sender, self, channelId, buffer, ⟨block, rfl, sound, buffers, part, samples⟩, built⟩ :=
    h.wire data sent
  obtain ⟨front, payload⟩ := parseMessageHeader_encodeMessage built
  rw [parsed] at front
  cases front
  rw [payload] at played
  obtain ⟨rfl, inside⟩ := state.played_of_receive sound played
  exact ⟨sender, buffers, part, inside.trans samples⟩

theorem Genuine.step (h : net.Genuine) {op : Node × EngineOp} (admitted : net.Admitted op) :
    (net.step op).Genuine where
  playable := h.playable_step admitted
  sinks node := by
    show AllFollow (Function.update net.captured op.1 (captures (net.captured op.1) op.2) node)
      (Function.update net.engines op.1 (op.2.step (net.engines op.1)) node).state.sinks
    by_cases same : node = op.1
    · subst same
      rw [Function.update_self, Function.update_self]
      exact (h.sinks op.1).engine (h.playable op.1) op.2
    · rw [Function.update_of_ne same, Function.update_of_ne same]
      exact h.sinks node
  wire data member := by
    rcases List.mem_append.mp member with old | new
    · obtain ⟨node, self, id, sent, carries, built⟩ := h.wire data old
      obtain ⟨more, grown⟩ := net.captured_step op node id
      refine ⟨node, self, id, sent, ?_, built⟩
      rw [grown]
      exact carries.more more
    · obtain ⟨id, sent, carries, built⟩ := (h.sinks op.1).sends (h.playable op.1) op.2 data new
      obtain ⟨more, grown⟩ := net.captured_step op op.1 id
      refine ⟨op.1, _, id, sent, ?_, built⟩
      rw [grown]
      exact carries.more more
  played node id handle played := by
    have heard : ∃ sender, Heard (net.captured sender id) handle := by
      by_cases same : node = op.1
      · subst same
        have here : (net.step op).engines op.1 = op.2.step (net.engines op.1) :=
          Function.update_self ..
        rw [here] at played
        rcases played_of_step played with old | ⟨epoch, data, source, now, nowMicros, header,
          offset, is_message, parsed, audio, new⟩
        · exact h.played op.1 id handle old
        · have listened : data ∈ net.wire ∨ isAudio data = false := by
            obtain ⟨actor, op⟩ := op
            dsimp only at is_message
            subst is_message
            exact admitted
          rcases listened with sent | other
          · exact h.heard sent parsed new
          · unfold isAudio at other
            rw [parsed] at other
            exact absurd audio (of_decide_eq_false other)
      · have there : (net.step op).engines node = net.engines node := Function.update_of_ne same ..
        rw [there] at played
        exact h.played node id handle played
    obtain ⟨sender, heard⟩ := heard
    obtain ⟨more, grown⟩ := net.captured_step op sender id
    refine ⟨sender, ?_⟩
    rw [grown]
    exact heard.more more

omit [DecidableEq Node] in
theorem genuine_start (addr : Node → UInt32) (nodeId : Node → NodeId)
    (sessionId : Node → SessionId) :
    (start fun node => AudioEngine.new (addr node) (nodeId node) (sessionId node)).Genuine where
  playable := by
    intro node id buffer member
    cases member
  sinks := by
    intro node entry member
    cases member
  wire := by
    intro data member
    cases member
  played := by
    intro node id handle member
    cases member

/-- However datagrams are lost, repeated and reordered between any number of engines, every block
played for a channel is a stretch without a gap of what one node captured for that channel. -/
theorem played_was_captured (addr : Node → UInt32) (nodeId : Node → NodeId)
    (sessionId : Node → SessionId) (ops : List (Node × EngineOp))
    (admitted : Along step Admitted
      (start fun node => AudioEngine.new (addr node) (nodeId node) (sessionId node)) ops) :
    let net := run step
      (start fun node => AudioEngine.new (addr node) (nodeId node) (sessionId node)) ops
    ∀ node id handle, .played id handle ∈ (net.engines node).outputs →
      ∃ sender, Heard (net.captured sender id) handle :=
  (run_invariant (fun _ _ genuine admitted => genuine.step admitted)
    (genuine_start addr nodeId sessionId) admitted).played

theorem played_was_captured_requested :
    let listener : NodeId := ⟨Vector.replicate 8 1⟩
    let nodeId := fun node : Bool => if node then listener else default
    let channel := encodeU32 channelIdKey ++ encodeU32 8 ++ NodeId.encodeTo default
    let request := ((encodeMessage listener 5 typeChannelRequest channel).toOption).getD []
    let before : List (Bool × EngineOp) :=
      [(false, .addSink default "drums"), (true, .addSource default),
        (false, .handleMessage 1 request ⟨2, 20809⟩ 0 0),
        (false, .releaseBuffer default stereoBuffer),
        (false, .releaseBuffer default { stereoBuffer with sampleRate := 44100 }),
        (false, .process 1 0)]
    let engines := start fun node => AudioEngine.new 0 (nodeId node) default
    let data := ((run step engines before).wire.head?).getD []
    let ops := before ++ [(true, .handleMessage 1 data ⟨1, 20809⟩ 0 0)]
    let net := run step engines ops
    (net.engines true).outputs.length = 1 ∧
      ∀ node id handle, .played id handle ∈ (net.engines node).outputs →
        ∃ sender, Heard (net.captured sender id) handle := by
  intro listener nodeId channel request before engines data ops net
  have sounding : Sounding stereoBuffer.tempo := by
    unfold Sounding
    decide +kernel
  have playable : ∀ rate : UInt32, rate ≠ 0 →
      Buffer.Playable { stereoBuffer with sampleRate := rate } := fun rate some =>
    ⟨.inr rfl, some, sounding, Nat.le_succ 6, show 6 < 2 ^ 32 by decide⟩
  have quiet : isAudio request = false := by decide +kernel
  have sent : data ∈ (run step engines before).wire := by decide +kernel
  have admitted : Along step Admitted engines ops :=
    along_concat.mpr ⟨⟨trivial, trivial, .inr quiet, fun _ => playable 48000 (by decide),
      fun _ => playable 44100 (by decide), trivial, trivial⟩, .inl sent⟩
  have once : (net.engines true).outputs.length = 1 := by decide +kernel
  exact ⟨once, played_was_captured (fun _ => 0) nodeId (fun _ => default) ops admitted⟩

end AudioNetwork

end AbletonLink.Audio
