import AbletonLink.Audio.ChannelView
import AbletonLink.Audio.MessageSplit
import AbletonLink.Audio.Messages

/-! An engine that announces its channels to another one while its sinks come and go.  The network
may lose, repeat and reorder its messages; what the listener hears of others and does by itself
comes in between. -/

namespace AbletonLink.Audio

open Library Library.Bytes Library.Run Link Wire AudioBuffer

def TTL : UInt8 := 5

def messageTo (sender : NodeId) (messageType : UInt8) (payload : Bytes) : Option Bytes :=
  (encodeMessage sender TTL messageType payload).toOption

/-- An engine with the announce task: `unsent` are the messages of a round that are still to be
sent to the listener, in the epoch of the round. -/
structure Announcer where
  engine : AudioEngine
  peerName : String
  announcedChannels : List ChannelAnnouncement
  epoch : UInt64
  unsent : List Bytes

namespace Announcer

def reaches (announcer : Announcer) (there : SocketAddrV4) : Bool :=
  announcer.engine.state.peers.any fun p => p.endpoint = there

def active (announcer : Announcer) : Bool :=
  !announcer.engine.shutdown && announcer.engine.sharingActive &&
    announcer.engine.sendEpoch.isSome

def current (announcer : Announcer) : List ChannelAnnouncement :=
  (announcer.engine.state.announcements announcer.peerName).flatMap PeerAnnouncement.channels

def departed (announcer : Announcer) : List Id :=
  (announcer.announcedChannels.filter fun previous =>
    !announcer.current.any fun channel => channel.id = previous.id).map ChannelAnnouncement.id

def byes (announcer : Announcer) (ids : List Id) : List Bytes :=
  (splitByes ids).filterMap fun byes =>
    messageTo announcer.engine.state.nodeId typeChannelByes (Entry.encode byes)

def greetings (announcer : Announcer) (ping : HostTime) : List Bytes :=
  let message := messageTo announcer.engine.state.nodeId typePeerAnnouncement
  match announcer.engine.state.announcements announcer.peerName with
  | [] => []
  | first :: others =>
    (message (first.toPayload ++ Entry.encode ping)).toList ++
      others.filterMap fun announcement => message announcement.toPayload

def round (announcer : Announcer) (there : SocketAddrV4) (ping : HostTime) : Announcer :=
  match announcer.engine.sendEpoch with
  | none => announcer
  | some epoch =>
    if announcer.active then
      { announcer with
        announcedChannels := announcer.current
        epoch
        unsent :=
          if announcer.reaches there then
            announcer.byes announcer.departed ++ announcer.greetings ping
          else [] }
    else announcer

def renameSink (announcer : Announcer) (id : Id) (name : String) : Announcer :=
  let rename := fun entry : SinkEntry =>
    if entry.sink.id = id then { entry with sink := { entry.sink with name := truncateName name } }
    else entry
  let state := announcer.engine.state
  { announcer with
    engine :=
      { announcer.engine with state := { state with sinks := state.sinks.map rename } } }

def farewell (announcer : Announcer) (there : SocketAddrV4) : EngineOp → List Bytes
  | .removeSink id =>
    if (announcer.engine.state.sinks.any fun entry => entry.sink.id = id) &&
        announcer.reaches there then
      announcer.byes [id]
    else []
  | _ => []

end Announcer

/-- `wire` are the messages that were ever sent to the listener. -/
structure Directory where
  announcer : Announcer
  wire : List Bytes
  listener : AudioEngine

inductive DirectoryOp
  | announcer (op : EngineOp)
  | renameSink (id : Id) (name : String)
  | setPeerName (name : String)
  | round (ping : HostTime)
  | send
  | deliver (index : Nat) (now : Instant) (nowMicros : Int64)
  | listener (op : EngineOp)

namespace Directory

def start (announcer listener : AudioEngine) (peerName : String) : Directory where
  announcer :=
    { engine := announcer
      peerName := truncateName peerName
      announcedChannels := []
      epoch := 0
      unsent := [] }
  wire := []
  listener

section Steps

variable (here there : SocketAddrV4)

/-- The announcer is at `here`, the listener at `there`.  A message arrives at any time and any
number of times, or never. -/
def step (d : Directory) : DirectoryOp → Directory
  | .announcer op =>
    { d with
      announcer := { d.announcer with engine := op.step d.announcer.engine }
      wire := d.wire ++ d.announcer.farewell there op }
  | .renameSink id name => { d with announcer := d.announcer.renameSink id name }
  | .setPeerName name =>
    { d with announcer := { d.announcer with peerName := truncateName name } }
  | .round ping => { d with announcer := d.announcer.round there ping }
  | .send =>
    match d.announcer.unsent with
    | [] => d
    | message :: unsent =>
      { d with
        announcer := { d.announcer with unsent }
        wire :=
          if d.announcer.engine.sendEpoch = some d.announcer.epoch then d.wire ++ [message]
          else d.wire }
  | .deliver index now nowMicros =>
    match d.wire[index]?, d.listener.sendEpoch with
    | some message, some epoch =>
      { d with listener := (d.listener.handleMessage epoch message here now nowMicros).1 }
    | _, _ => d
  | .listener op => { d with listener := op.step d.listener }

end Steps

end Directory

/-! What an engine does to its own channels. -/

namespace EngineState

theorem channelAnnouncements_dispatch (state : EngineState) (header : MessageHeader)
    (payload : Bytes) (source : SocketAddrV4) (now : Instant) (nowMicros : Int64) :
    (state.dispatch header payload source now nowMicros).1.channelAnnouncements =
      state.channelAnnouncements := by
  refine state.dispatch_cases (P := fun after _ =>
    after.channelAnnouncements = state.channelAnnouncements) rfl ?_ ?_ ?_ ?_ ?_ header payload
    source now nowMicros
  · intro peerId payload source ttl now
    unfold receiveAnnouncement
    split
    · rfl
    · split <;> rfl
  · intro payload
    unfold receiveChannelByes
    dsimp only
    split <;> rfl
  · intro payload source nowMicros
    unfold receivePong
    split
    · rfl
    · dsimp only
      split <;> rfl
  · intro id f
    unfold updateSink
    dsimp only
    split
    · rfl
    next entry found => exact map_replaceFirst found rfl
  · intro payload
    unfold receiveAudioBuffer
    split
    · rfl
    · dsimp only
      split <;> rfl

end EngineState

theorem EngineOp.channelAnnouncements_step (engine : AudioEngine) (op : EngineOp) :
    (op.step engine).state.channelAnnouncements = match op with
      | .addSink id name => engine.state.channelAnnouncements ++ [⟨name, id⟩]
      | .removeSink id => engine.state.channelAnnouncements.filter fun channel => channel.id ≠ id
      | _ => engine.state.channelAnnouncements := by
  have mapped {state : EngineState} {f : SinkEntry → SinkEntry}
      (sinks : state.sinks = engine.state.sinks.map f)
      (same : ∀ entry, (f entry).sink.id = entry.sink.id ∧ (f entry).sink.name = entry.sink.name) :
      state.channelAnnouncements = engine.state.channelAnnouncements := by
    unfold EngineState.channelAnnouncements
    rw [sinks, List.map_map]
    exact List.map_congr_left fun entry _ => by
      rw [Function.comp_apply, (same entry).1, (same entry).2]
  cases op with
  | addSink id name =>
    unfold step AudioEngine.addSink EngineState.channelAnnouncements
    dsimp only
    rw [List.map_append]
    rfl
  | removeSink id =>
    unfold step AudioEngine.removeSink EngineState.channelAnnouncements
    dsimp only
    rw [List.filter_map]
    rfl
  | addSource channelId => rfl
  | removeSource channelId => rfl
  | releaseBuffer id buffer =>
    refine mapped rfl fun entry => ?_
    split <;> exact ⟨rfl, rfl⟩
  | beginPeerSync =>
    unfold step AudioEngine.beginPeerSync
    dsimp only
    split
    · rfl
    · exact mapped rfl fun entry => ⟨rfl, rfl⟩
  | stopSharing => rfl
  | stopSending => rfl
  | endPeerSync =>
    refine mapped (f := fun entry => entry.discardBuffers.setReceivers
      (entry.discardBuffers.receivers.retainPeers [])) ?_ fun entry => ⟨rfl, rfl⟩
    exact List.map_map
  | setIdentityAt epoch nodeId sessionId =>
    show (engine.setIdentityAt epoch nodeId sessionId).state.channelAnnouncements = _
    unfold AudioEngine.setIdentityAt
    split <;> rfl
  | sawLinkAudioEndpointAt epoch peerId endpoint =>
    unfold step AudioEngine.sawLinkAudioEndpointAt
    dsimp only
    split
    · split
      · split <;> rfl
      · rfl
    · rfl
  | updateSessionPeersAt epoch peers =>
    unfold step AudioEngine.updateSessionPeersAt
    dsimp only
    split
    · exact mapped rfl fun entry => ⟨rfl, rfl⟩
    · rfl
  | handleMessage epoch data source now nowMicros =>
    exact engine.handleMessage_cases
      (P := fun state _ => state.channelAnnouncements = engine.state.channelAnnouncements) rfl
      (fun header payload =>
        engine.state.channelAnnouncements_dispatch header payload source now nowMicros)
      epoch data
  | process epoch now =>
    unfold step AudioEngine.process
    dsimp only
    split
    · rfl
    · refine mapped (f := fun entry => (entry.process now).1) ?_ fun entry => ⟨rfl, rfl⟩
      exact List.map_map

/-! What the messages of the announcer tell. -/

theorem noteOf_messageTo (sender : NodeId) (messageType : UInt8) {payload : Bytes}
    (fits : payload.length ≤ maxPayloadSize) :
    ∃ data, messageTo sender messageType payload = some data ∧
      noteOf data = EngineState.note ⟨messageType, TTL, 0, sender⟩ payload := by
  have limit : protocolHeaderSize + messageHeaderSize + maxPayloadSize ≤ maxMessageSize := by decide
  have room : protocolHeaderSize + messageHeaderSize + payload.length ≤ maxMessageSize := by omega
  obtain ⟨data, built, -⟩ := encodeMessage_of_fits sender TTL messageType room
  obtain ⟨parsed, same⟩ := parseMessageHeader_encodeMessage built
  refine ⟨data, ?_, ?_⟩
  · unfold messageTo
    rw [built]
    rfl
  · unfold noteOf
    rw [parsed]
    dsimp only
    rw [same]

theorem map_filterMap_of_forall {α β γ : Type} {f : α → Option β} {g : β → γ} {g' : α → γ}
    {l : List α} (each : ∀ a ∈ l, ∃ b, f a = some b ∧ g b = g' a) :
    (l.filterMap f).map g = l.map g' := by
  induction l with
  | nil => rfl
  | cons a l ih =>
    obtain ⟨⟨b, found, same⟩, rest⟩ := List.forall_mem_cons.mp each
    rw [List.filterMap_cons_some found, List.map_cons, List.map_cons, same, ih rest]

namespace Announcer

variable (announcer : Announcer)

theorem noteOf_byes (ids : List Id) :
    (announcer.byes ids).map noteOf = (splitByes ids).map fun ids => ⟨ids, []⟩ := by
  refine map_filterMap_of_forall fun part member => ?_
  have fits := (length_splitByes member).2
  obtain ⟨data, built, told⟩ := noteOf_messageTo announcer.engine.state.nodeId typeChannelByes fits
  refine ⟨data, built, told.trans ?_⟩
  show (⟨byesOf (Entry.encode part), []⟩ : Note Id Channel) = _
  rw [byesOf_encode fits]

theorem current_eq : announcer.current = announcer.engine.state.channelAnnouncements :=
  announcements_channels ..

def channels : List Channel :=
  announcer.engine.state.channelAnnouncements.map fun channel =>
    { id := channel.id
      name := channel.name
      peerId := announcer.engine.state.nodeId
      peerName := truncateName announcer.peerName
      sessionId := announcer.engine.state.sessionId }

theorem map_channels_id : announcer.channels.map Channel.id =
    announcer.engine.state.channelAnnouncements.map ChannelAnnouncement.id := by
  unfold channels
  rw [List.map_map]
  rfl

def listings : List (List Channel) :=
  (announcer.engine.state.announcements announcer.peerName).map fun announcement =>
    announcement.listed announcer.engine.state.nodeId

theorem flatten_listings : announcer.listings.flatten = announcer.channels := by
  have base : ∀ announcement ∈ announcer.engine.state.announcements announcer.peerName,
      announcement.peerInfo = PeerInfo.new announcer.peerName ∧
        announcement.sessionId = announcer.engine.state.sessionId := by
    intro announcement member
    obtain ⟨i, found⟩ := List.getElem?_of_mem member
    rw [EngineState.announcements_eq] at found
    refine good_of_nextFit _ _ _ (fun _ (announcement : PeerAnnouncement) =>
      announcement.peerInfo = PeerInfo.new announcer.peerName ∧
        announcement.sessionId = announcer.engine.state.sessionId) _ ⟨rfl, rfl⟩ ?_ ?_ found
    · exact fun _ _ _ _ good _ => good
    · exact fun _ _ _ _ _ => ⟨rfl, rfl⟩
  unfold listings channels
  rw [← announcements_channels announcer.engine.state announcer.peerName, List.map_flatMap,
    ← List.flatMap_def]
  refine List.flatMap_congr fun announcement member => ?_
  obtain ⟨info, session⟩ := base announcement member
  unfold PeerAnnouncement.listed
  rw [info, session]
  rfl

theorem noteOf_greetings
    (named : ∀ channel ∈ announcer.engine.state.channelAnnouncements, channel.Named)
    (ping : HostTime) :
    (announcer.greetings ping).map noteOf =
      announcer.listings.map fun channels => ⟨[], channels⟩ := by
  -- A message of one announcement, whatever follows its payload.
  have tells {i : Nat} {announcement : PeerAnnouncement} {payload : Bytes}
      (found : (announcer.engine.state.announcements announcer.peerName)[i]? = some announcement)
      (fits : payload.length ≤ maxPayloadSize)
      (read : PeerAnnouncement.fromPayload announcement.nodeId payload = .ok announcement) :
      ∃ data, messageTo announcer.engine.state.nodeId typePeerAnnouncement payload = some data ∧
        noteOf data = ⟨[], announcement.listed announcer.engine.state.nodeId⟩ := by
    have good := EngineState.announced announcer.peerName named found
    obtain ⟨data, built, told⟩ :=
      noteOf_messageTo announcer.engine.state.nodeId typePeerAnnouncement fits
    refine ⟨data, built, told.trans ?_⟩
    rw [good.nodeId] at read
    unfold EngineState.note
    rw [if_pos rfl, read]
  unfold greetings listings
  cases messages : announcer.engine.state.announcements announcer.peerName with
  | nil => exact absurd messages (announcements_ne_nil _ _)
  | cons first others =>
    rw [messages] at tells
    have front : (first :: others)[0]? = some first := rfl
    have good := EngineState.announced announcer.peerName named
      (show (announcer.engine.state.announcements announcer.peerName)[0]? = some first by
        rw [messages, front])
    have room := good.room
    rw [if_pos rfl] at room
    obtain ⟨data, built, told⟩ := tells front
      (by rwa [List.length_append, first.length_toPayload, length_encode_ping])
      (good.fits.fromPayload_ping ping)
    dsimp only
    rw [built, List.map_cons, List.map_cons]
    show noteOf data :: _ = _
    rw [told, List.map_map]
    refine congrArg (_ :: ·) (map_filterMap_of_forall fun announcement member => ?_)
    obtain ⟨i, found⟩ := List.getElem?_of_mem member
    have later : (first :: others)[i + 1]? = some announcement := found
    have good := EngineState.announced announcer.peerName named
      (show (announcer.engine.state.announcements announcer.peerName)[i + 1]? =
        some announcement by rw [messages, later])
    have read := good.fits.fromPayload [] (by simp) (by simp)
    rw [List.flatMap_nil, List.append_nil] at read
    exact tells later (by rw [announcement.length_toPayload]; exact good.fits.small) read

structure Owns (owned : Id → Prop) (announcer : Announcer) : Prop where
  distinct : (announcer.engine.state.channelAnnouncements.map ChannelAnnouncement.id).Nodup
  named : ∀ channel ∈ announcer.engine.state.channelAnnouncements, channel.Named
  own : ∀ channel ∈ announcer.engine.state.channelAnnouncements, owned channel.id

end Announcer

namespace Directory

section Ledgers

variable (owned : Id → Prop) (here there : SocketAddrV4)

def announced (d : Directory) : DirectoryOp → List Channel
  | .round _ =>
    if d.announcer.active && d.announcer.reaches there then d.announcer.channels else []
  | _ => []

def heard (d : Directory) : DirectoryOp → List Bytes
  | .deliver index _ _ => d.wire[index]?.toList.filter (d.listener.attends here)
  | _ => []

def Admitted (d : Directory) : DirectoryOp → Prop
  | .announcer (.addSink id name) => owned id ∧ (∃ given, name = truncateName given) ∧
    ∀ entry ∈ d.announcer.engine.state.sinks, entry.sink.id ≠ id
  | .listener op => op.Elsewhere owned
  | _ => True

def Quiet (messages : List Bytes) (kept : Set Channel) (d : Directory) : DirectoryOp → Prop
  | .deliver index _ _ => ∀ message ∈ d.wire[index]?, message ∈ messages
  | .listener op => op.Retains kept d.listener
  | _ => True

end Ledgers

end Directory

section Announcer

variable {announcer : Announcer} {owned : Id → Prop} {there : SocketAddrV4}

theorem Announcer.engine_round (announcer : Announcer) (there : SocketAddrV4) (ping : HostTime) :
    (announcer.round there ping).engine = announcer.engine := by
  unfold Announcer.round
  split
  · rfl
  · split <;> rfl

theorem Announcer.unsent_round (announces : (announcer.active && announcer.reaches there) = true)
    (ping : HostTime) :
    (announcer.round there ping).unsent =
      announcer.byes announcer.departed ++ announcer.greetings ping := by
  obtain ⟨active, reaches⟩ := Bool.and_eq_true_iff.mp announces
  unfold Announcer.round
  split
  next none =>
    unfold Announcer.active at active
    simp [none] at active
  next epoch _ => rw [if_pos active, if_pos reaches]

theorem Announcer.unsent_round_subset
    (silent : (announcer.active && announcer.reaches there) = false) (ping : HostTime) :
    (announcer.round there ping).unsent ⊆ announcer.unsent := by
  unfold Announcer.round
  split
  · exact List.Subset.refl _
  · split
    next active =>
      rw [active, Bool.true_and] at silent
      rw [silent]
      exact List.nil_subset _
    · exact List.Subset.refl _

namespace Announcer.Owns

theorem of_channelAnnouncements (h : announcer.Owns owned) {announcer' : Announcer}
    (same : announcer'.engine.state.channelAnnouncements =
      announcer.engine.state.channelAnnouncements) : announcer'.Owns owned where
  distinct := by
    rw [same]
    exact h.distinct
  named := by
    rw [same]
    exact h.named
  own := by
    rw [same]
    exact h.own

theorem step (h : announcer.Owns owned) (op : EngineOp)
    (admitted : ∀ id name, op = .addSink id name → owned id ∧ (∃ given, name = truncateName given) ∧
      ∀ entry ∈ announcer.engine.state.sinks, entry.sink.id ≠ id) :
    Announcer.Owns owned { announcer with engine := op.step announcer.engine } := by
  have channels := op.channelAnnouncements_step announcer.engine
  cases op with
  | addSink id name =>
    obtain ⟨mine, ⟨given, rfl⟩, fresh⟩ := admitted id name rfl
    dsimp only at channels
    refine ⟨?_, ?_, ?_⟩
    · dsimp only
      rw [channels]
      refine nodup_map_concat h.distinct fun channel member => ?_
      obtain ⟨entry, inside, rfl⟩ := List.mem_map.mp member
      exact fresh entry inside
    · dsimp only
      rw [channels]
      intro channel member
      rcases List.mem_append.mp member with old | new
      · exact h.named channel old
      · rw [List.mem_singleton.mp new]
        exact utf8ByteSize_truncateName given
    · dsimp only
      rw [channels]
      intro channel member
      rcases List.mem_append.mp member with old | new
      · exact h.own channel old
      · rw [List.mem_singleton.mp new]
        exact mine
  | removeSink id =>
    dsimp only at channels
    refine ⟨?_, ?_, ?_⟩
    · dsimp only
      rw [channels]
      exact h.distinct.sublist (List.filter_sublist.map _)
    · dsimp only
      rw [channels]
      exact fun channel member => h.named channel (List.mem_of_mem_filter member)
    · dsimp only
      rw [channels]
      exact fun channel member => h.own channel (List.mem_of_mem_filter member)
  | _ => exact h.of_channelAnnouncements channels

theorem renameSink (h : announcer.Owns owned) (id : Id) (name : String) :
    (announcer.renameSink id name).Owns owned := by
  have renamed : (announcer.renameSink id name).engine.state.channelAnnouncements =
      announcer.engine.state.channelAnnouncements.map fun channel =>
        if channel.id = id then { channel with name := truncateName name } else channel := by
    unfold EngineState.channelAnnouncements Announcer.renameSink
    dsimp only
    rw [List.map_map, List.map_map]
    refine List.map_congr_left fun entry _ => ?_
    dsimp only [Function.comp_apply]
    split <;> rfl
  have ids : (announcer.renameSink id name).engine.state.channelAnnouncements.map
      ChannelAnnouncement.id =
        announcer.engine.state.channelAnnouncements.map ChannelAnnouncement.id := by
    rw [renamed, List.map_map]
    refine List.map_congr_left fun channel _ => ?_
    dsimp only [Function.comp_apply]
    split <;> rfl
  refine ⟨ids ▸ h.distinct, ?_, ?_⟩
  · intro channel member
    rw [renamed] at member
    obtain ⟨old, inside, rfl⟩ := List.mem_map.mp member
    split
    · exact utf8ByteSize_truncateName name
    · exact h.named old inside
  · intro channel member
    rw [renamed] at member
    obtain ⟨old, inside, rfl⟩ := List.mem_map.mp member
    have mine := h.own old inside
    split <;> exact mine

theorem own_channels (h : announcer.Owns owned) {channel : Channel}
    (member : channel ∈ announcer.channels) : owned channel.id := by
  obtain ⟨entry, inside, rfl⟩ := List.mem_map.mp member
  exact h.own entry inside

theorem injOn_channels (h : announcer.Owns owned) :
    Set.InjOn Channel.id {channel | channel ∈ announcer.channels} := by
  have distinct := h.distinct
  rw [← announcer.map_channels_id] at distinct
  exact fun _ first _ second same => List.inj_on_of_nodup_map distinct first second same

end Announcer.Owns

theorem Announcer.Owns.notes (h : announcer.Owns owned) (ids : List Id) (ping : HostTime)
    {message : Bytes} (member : message ∈ announcer.byes ids ++ announcer.greetings ping) :
    (∃ part ∈ splitByes ids, noteOf message = ⟨part, []⟩) ∨
      ∃ part ∈ announcer.listings, noteOf message = ⟨[], part⟩ := by
  rcases List.mem_append.mp member with bye | greeting
  · have told := List.mem_map_of_mem (f := noteOf) bye
    rw [announcer.noteOf_byes] at told
    obtain ⟨part, inside, same⟩ := List.mem_map.mp told
    exact .inl ⟨part, inside, same.symm⟩
  · have told := List.mem_map_of_mem (f := noteOf) greeting
    rw [announcer.noteOf_greetings h.named] at told
    obtain ⟨part, inside, same⟩ := List.mem_map.mp told
    exact .inr ⟨part, inside, same.symm⟩

end Announcer

namespace Directory

variable {owned : Id → Prop} {here there : SocketAddrV4} {d : Directory} {past : List Channel}

structure Tells (owned : Id → Prop) (past : List Channel) (message : Bytes) : Prop where
  distinct : ((noteOf message).adds.map Channel.id).Nodup
  told : ∀ channel ∈ (noteOf message).adds, channel ∈ past ∧ owned channel.id

theorem Tells.later {message : Bytes} (h : Tells owned past message) (more : List Channel) :
    Tells owned (past ++ more) message where
  distinct := h.distinct
  told channel added := (h.told channel added).imp_left (List.mem_append_left more)

/-- What the listener can have heard of the announcer. -/
structure Authentic (owned : Id → Prop) (past : List Channel) (d : Directory) : Prop where
  owns : d.announcer.Owns owned
  registered : d.listener.state.Registered
  unsent : ∀ message ∈ d.announcer.unsent, Tells owned past message
  wire : ∀ message ∈ d.wire, Tells owned past message
  listed : d.listener.state.listedOf owned ⊆ {channel | channel ∈ past}

theorem Authentic.later (h : Authentic owned past d) (more : List Channel) :
    Authentic owned (past ++ more) d where
  owns := h.owns
  registered := h.registered
  unsent message member := (h.unsent message member).later more
  wire message member := (h.wire message member).later more
  listed := h.listed.trans fun _ member => List.mem_append_left more member

theorem tells_round (owns : d.announcer.Owns owned)
    (announces : (d.announcer.active && d.announcer.reaches there) = true) (ping : HostTime)
    {message : Bytes} (member : message ∈ (d.announcer.round there ping).unsent) :
    Tells owned d.announcer.channels message := by
  rw [Announcer.unsent_round announces] at member
  rcases owns.notes _ ping member with ⟨part, -, note⟩ | ⟨part, inside, note⟩
  · constructor <;> rw [note]
    · exact List.nodup_nil
    · rintro _ ⟨⟩
  · have sub : part.Sublist d.announcer.channels := by
      rw [← d.announcer.flatten_listings]
      exact List.sublist_flatten_of_mem inside
    constructor <;> rw [note]
    · have distinct := owns.distinct
      rw [← d.announcer.map_channels_id] at distinct
      exact distinct.sublist (sub.map _)
    · exact fun channel added => ⟨sub.subset added, owns.own_channels (sub.subset added)⟩

theorem tells_byes (announcer : Announcer) (ids : List Id) {message : Bytes}
    (member : message ∈ announcer.byes ids) : Tells owned past message := by
  have told := List.mem_map_of_mem (f := noteOf) member
  rw [announcer.noteOf_byes] at told
  obtain ⟨part, -, note⟩ := List.mem_map.mp told
  constructor <;> rw [← note]
  · exact List.nodup_nil
  · rintro _ ⟨⟩

theorem Authentic.deliver (h : Authentic owned past d) (index : Nat) (now : Instant)
    (nowMicros : Int64) :
    Authentic owned past (d.step here there (.deliver index now nowMicros)) := by
  unfold Directory.step
  dsimp only
  split
  next message epoch sent sending =>
    obtain ⟨registered, taken⟩ :=
      AudioEngine.listed_handleMessage h.registered epoch message here now nowMicros
    refine { h with registered, listed := ?_ }
    rcases taken with takes | ignored
    · have tells := h.wire message (List.mem_of_getElem? sent)
      show EngineState.listedOf owned _ ⊆ _
      rw [takes.listedOf tells.distinct fun channel added => (tells.told channel added).2]
      exact Note.apply_subset h.listed fun channel added => (tells.told channel added).1
    · exact fun channel listed => h.listed ⟨ignored.1.subset listed.1, listed.2⟩
  next => exact h

theorem Authentic.step (h : Authentic owned past d) (op : DirectoryOp)
    (admitted : d.Admitted owned op) :
    Authentic owned (past ++ d.announced there op) (d.step here there op) := by
  cases op with
  | announcer op =>
    refine Authentic.later (d := d.step here there (.announcer op))
      { h with owns := h.owns.step op ?_, wire := ?_ } _
    · rintro id name rfl
      exact admitted
    · intro message member
      rcases List.mem_append.mp member with sent | bye
      · exact h.wire message sent
      · unfold Announcer.farewell at bye
        split at bye
        · split at bye
          · exact tells_byes d.announcer _ bye
          · cases bye
        · cases bye
  | renameSink id name =>
    exact Authentic.later (d := d.step here there (.renameSink id name))
      { h with owns := h.owns.renameSink id name } _
  | setPeerName name =>
    exact Authentic.later (d := d.step here there (.setPeerName name))
      { h with owns := h.owns.of_channelAnnouncements rfl } _
  | round ping =>
    have owns : (d.announcer.round there ping).Owns owned :=
      h.owns.of_channelAnnouncements (by rw [Announcer.engine_round])
    refine { h.later _ with owns, unsent := fun message member => ?_ }
    by_cases announces : (d.announcer.active && d.announcer.reaches there) = true
    · have recorded : d.announced there (.round ping) = d.announcer.channels := if_pos announces
      have tells := tells_round h.owns announces ping member
      refine ⟨tells.distinct, fun channel added => ?_⟩
      rw [recorded]
      exact (tells.told channel added).imp_left (List.mem_append_right past)
    · have silent := Bool.eq_false_of_not_eq_true announces
      exact (h.unsent message (Announcer.unsent_round_subset silent ping member)).later _
  | send =>
    refine Authentic.later ?_ _
    unfold Directory.step
    dsimp only
    split
    · exact h
    next message unsent waiting =>
      have all := h.unsent
      rw [waiting] at all
      obtain ⟨here, rest⟩ := List.forall_mem_cons.mp all
      refine ⟨h.owns.of_channelAnnouncements rfl, h.registered, rest, ?_, h.listed⟩
      dsimp only
      split
      · intro other member
        rcases List.mem_append.mp member with sent | new
        · exact h.wire other sent
        · rwa [List.mem_singleton.mp new]
      · exact h.wire
  | deliver index now nowMicros => exact (h.deliver index now nowMicros).later _
  | listener op =>
    obtain ⟨registered, fewer, -⟩ :=
      EngineOp.listed_step h.registered op admitted ∅
    exact Authentic.later (d := d.step here there (.listener op))
      { h with registered, listed := fewer.trans h.listed } _

section Runs

variable {addr addr' : UInt32} {nodeId nodeId' : NodeId} {sessionId sessionId' : SessionId}
  {peerName : String}

theorem authentic_start : Authentic owned []
    (start (.new addr nodeId sessionId) (.new addr' nodeId' sessionId') peerName) where
  owns := ⟨List.nodup_nil, by rintro _ ⟨⟩, by rintro _ ⟨⟩⟩
  registered := ⟨List.nodup_nil, by rintro _ ⟨⟩⟩
  unsent := by rintro _ ⟨⟩
  wire := by rintro _ ⟨⟩
  listed := by rintro _ ⟨⟨⟩, -⟩

theorem authentic_run {ops : List DirectoryOp}
    (admitted : Along (step here there) (Admitted owned)
      (start (.new addr nodeId sessionId) (.new addr' nodeId' sessionId') peerName) ops) :
    let first := start (.new addr nodeId sessionId) (.new addr' nodeId' sessionId') peerName
    Authentic owned (logged (step here there) (announced there) first ops)
      (run (step here there) first ops) :=
  run_logged (I := Authentic owned) (fun _ _ op h admitted => h.step op admitted) authentic_start
    admitted

/-- Whatever is lost, repeated or overtaken on the way, the listener lists under the announcer's ids
nothing but channels of rounds, as they were announced. -/
theorem listed_announced {ops : List DirectoryOp}
    (admitted : Along (step here there) (Admitted owned)
      (start (.new addr nodeId sessionId) (.new addr' nodeId' sessionId') peerName) ops) :
    let first := start (.new addr nodeId sessionId) (.new addr' nodeId' sessionId') peerName
    ∀ channel ∈ (run (step here there) first ops).listener.state.channels.allChannels,
      owned channel.id → ∃ before ping after, ops = before ++ .round ping :: after ∧
        channel ∈ (run (step here there) first before).announced there (.round ping) := by
  intro first channel member mine
  have h := authentic_run admitted
  have recorded := h.listed ⟨(h.registered.mem_allChannels channel).mp member, mine⟩
  obtain ⟨before, op, after, split, told⟩ := mem_logged.mp recorded
  cases op with
  | round ping => exact ⟨before, ping, after, split, told⟩
  | _ => cases told

abbrev pair : Directory :=
  start (.new 1 default default) (.new 2 ⟨Vector.replicate 8 1⟩ default) "peer"

def overtaken : List DirectoryOp :=
  [.announcer (.sawLinkAudioEndpointAt 1 ⟨Vector.replicate 8 1⟩ (some ⟨2, 20809⟩)),
    .listener (.sawLinkAudioEndpointAt 1 default (some ⟨1, 20809⟩)),
    .announcer (.addSink default "drums"),
    .announcer (.addSink ⟨Vector.replicate 8 2⟩ "bass"), .round ⟨.zero⟩, .send,
    .announcer (.removeSink ⟨Vector.replicate 8 2⟩), .deliver 0 0 0, .deliver 1 0 0, .deliver 0 1 1]

theorem truncateName_of_short (name : String) (fits : name.utf8ByteSize ≤ maxNameSize) :
    ∃ given, name = truncateName given := ⟨name, (if_pos fits).symm⟩

theorem listed_announced_overtaken :
    let d := run (step ⟨1, 20809⟩ ⟨2, 20809⟩) pair overtaken
    d.listener.state.channels.allChannels.map Channel.name = ["drums", "bass"] ∧
      d.announcer.current.map ChannelAnnouncement.name = ["drums"] ∧
      ∀ channel ∈ d.listener.state.channels.allChannels,
        ∃ before ping after, overtaken = before ++ .round ping :: after ∧
          channel ∈ (run (step ⟨1, 20809⟩ ⟨2, 20809⟩) pair before).announced ⟨2, 20809⟩
            (.round ping) := by
  have admitted : Along (step ⟨1, 20809⟩ ⟨2, 20809⟩) (Admitted fun _ => True) pair overtaken := by
    refine ⟨trivial, trivial, ⟨trivial, truncateName_of_short "drums" (by decide), ?_⟩,
      ⟨trivial, truncateName_of_short "bass" (by decide), ?_⟩, trivial, trivial, trivial, trivial,
      trivial, trivial, trivial⟩
    · rintro _ ⟨⟩
    · decide +kernel
  exact ⟨by decide +kernel, by decide +kernel,
    fun channel member => listed_announced admitted channel member trivial⟩

theorem notes_round (owns : d.announcer.Owns owned)
    (announces : (d.announcer.active && d.announcer.reaches there) = true) (ping : HostTime) :
    let messages := (d.announcer.round there ping).unsent
    (∀ message ∈ messages,
      (noteOf message).Agrees Channel.id {channel | channel ∈ d.announcer.channels}) ∧
      (∀ channel ∈ d.announcer.channels,
        ∃ message ∈ messages, channel ∈ (noteOf message).adds) ∧
      ∀ id ∈ d.announcer.departed, ∃ message ∈ messages, id ∈ (noteOf message).drops := by
  have byes := d.announcer.noteOf_byes d.announcer.departed
  have greetings := d.announcer.noteOf_greetings owns.named ping
  intro messages
  have sent : messages = _ := Announcer.unsent_round announces ping
  rw [sent]
  refine ⟨fun message member => ?_, fun channel member => ?_, fun id member => ?_⟩
  · rcases owns.notes _ ping member with ⟨part, inside, note⟩ | ⟨part, inside, note⟩
    · rw [note]
      refine Note.agrees_drop fun channel mine gone => ?_
      have departed : channel.id ∈ d.announcer.departed := by
        rw [← flatten_splitByes d.announcer.departed]
        exact List.mem_flatten.mpr ⟨part, inside, gone⟩
      obtain ⟨previous, left, same⟩ := List.mem_map.mp departed
      have absent := (List.mem_filter.mp left).2
      rw [Bool.not_eq_true', List.any_eq_false, d.announcer.current_eq] at absent
      obtain ⟨entry, current, rfl⟩ := List.mem_map.mp mine
      exact absent entry current (decide_eq_true same.symm)
    · rw [note]
      refine Note.agrees_add owns.injOn_channels fun channel added => ?_
      show channel ∈ d.announcer.channels
      rw [← d.announcer.flatten_listings]
      exact List.mem_flatten.mpr ⟨part, inside, added⟩
  · rw [← d.announcer.flatten_listings] at member
    obtain ⟨part, inside, added⟩ := List.mem_flatten.mp member
    have told : (⟨[], part⟩ : Note Id Channel) ∈ (d.announcer.greetings ping).map noteOf := by
      rw [greetings]
      exact List.mem_map_of_mem inside
    obtain ⟨message, greeting, note⟩ := List.mem_map.mp told
    exact ⟨message, List.mem_append_right _ greeting, by rwa [note]⟩
  · rw [← flatten_splitByes d.announcer.departed] at member
    obtain ⟨part, inside, gone⟩ := List.mem_flatten.mp member
    have told : (⟨part, []⟩ : Note Id Channel) ∈
        (d.announcer.byes d.announcer.departed).map noteOf := by
      rw [byes]
      exact List.mem_map_of_mem inside
    obtain ⟨message, bye, note⟩ := List.mem_map.mp told
    exact ⟨message, List.mem_append_left _ bye, by rwa [note]⟩

theorem settling_step {current before : Set Channel} {messages past : List Bytes}
    (agrees : ∀ message ∈ messages, (noteOf message).Agrees Channel.id current)
    (tells : ∀ message ∈ messages, ∃ all, Tells owned all message) {d : Directory}
    (registered : d.listener.state.Registered)
    (settling : Settling Channel.id current before (past.map noteOf)
      (d.listener.state.listedOf owned)) (op : DirectoryOp) (admitted : d.Admitted owned op)
    (quiet : d.Quiet messages current op) :
    (d.step here there op).listener.state.Registered ∧
      Settling Channel.id current before ((past ++ d.heard here op).map noteOf)
        ((d.step here there op).listener.state.listedOf owned) := by
  have silent {s : Directory} (same : s.listener = d.listener) (none : d.heard here op = []) :
      s.listener.state.Registered ∧ Settling Channel.id current before
        ((past ++ d.heard here op).map noteOf) (s.listener.state.listedOf owned) := by
    rw [same, none, List.append_nil]
    exact ⟨registered, settling⟩
  cases op with
  | announcer op => exact silent rfl rfl
  | renameSink id name => exact silent rfl rfl
  | setPeerName name => exact silent rfl rfl
  | round ping => exact silent rfl rfl
  | send =>
    refine silent ?_ rfl
    unfold Directory.step
    dsimp only
    split <;> rfl
  | deliver index now nowMicros =>
    unfold Directory.step heard
    dsimp only
    cases sent : d.wire[index]? with
    | none =>
      dsimp only [Option.toList_none, List.filter_nil]
      rw [List.append_nil]
      exact ⟨registered, settling⟩
    | some message =>
      have ours := quiet message sent
      cases sending : d.listener.sendEpoch with
      | none =>
        have deaf : d.listener.attends here message = false := by
          unfold AudioEngine.attends
          split
          · rfl
          · simp [sending]
        rw [Option.toList_some, List.filter_singleton, deaf]
        exact ⟨registered, by simpa using settling⟩
      | some epoch =>
        obtain ⟨next, taken⟩ :=
          AudioEngine.listed_handleMessage registered epoch message here now nowMicros
        refine ⟨next, ?_⟩
        have agree := agrees message ours
        obtain ⟨all, tell⟩ := tells message ours
        rw [Option.toList_some, List.filter_singleton]
        cases attends : d.listener.attends here message with
        | true =>
          rcases taken with takes | ignored
          · dsimp only
            rw [takes.listedOf tell.distinct fun channel added => (tell.told channel added).2,
              List.map_append]
            exact settling.hear agree
          · exact absurd (ignored.2 sending) (by rw [attends]; decide)
        | false =>
          rcases taken with takes | ignored
          · dsimp only
            rw [takes.listedOf tell.distinct fun channel added => (tell.told channel added).2]
            simpa using settling.overhear agree
          · have same : (d.listener.handleMessage epoch message here now nowMicros).1.state.listedOf
                owned = d.listener.state.listedOf owned := by
              unfold EngineState.listedOf
              rw [ignored.1]
            dsimp only
            rw [same]
            simpa using settling
  | listener op =>
    obtain ⟨next, fewer, kept⟩ := EngineOp.listed_step registered op admitted current
    refine ⟨next, ?_⟩
    show Settling _ _ _ ((past ++ []).map noteOf) _
    rw [List.append_nil]
    exact settling.lose fewer (kept quiet)

/-- Once the messages of a round have arrived, in any order, and none of another round in between,
the listener lists the sinks of that round.  Under other ids of the announcer it lists at most what
it did before and what the round did not say goodbye to. -/
theorem listed_settles {before after : List DirectoryOp} {ping : HostTime}
    (admitted : Along (step here there) (Admitted owned)
      (start (.new addr nodeId sessionId) (.new addr' nodeId' sessionId') peerName)
      (before ++ .round ping :: after)) :
    let d := run (step here there)
      (start (.new addr nodeId sessionId) (.new addr' nodeId' sessionId') peerName) before
    let started := d.step here there (.round ping)
    let messages := started.announcer.unsent
    let channels := (run (step here there) started after).listener.state.channels.allChannels
    d.announcer.active = true → d.announcer.reaches there = true →
      Along (step here there) (Quiet messages {channel | channel ∈ d.announcer.channels}) started
        after →
      (∀ message ∈ messages, message ∈ logged (step here there) (heard here) started after) →
        (∀ channel ∈ d.announcer.channels, channel ∈ channels) ∧
          ∀ channel ∈ channels, owned channel.id → channel ∈ d.announcer.channels ∨
            channel ∈ d.listener.state.channels.allChannels ∧
              channel.id ∉ d.announcer.channels.map Channel.id ∧
              channel.id ∉ d.announcer.departed := by
  intro d started messages channels active reaches quiet arrived
  obtain ⟨first, -, rest⟩ := along_append.mp admitted
  have authentic := authentic_run first
  have announces : (d.announcer.active && d.announcer.reaches there) = true := by
    rw [active, reaches, Bool.true_and]
  obtain ⟨agrees, all, gone⟩ := notes_round authentic.owns announces ping
  have held : d.listener.state.Registered := authentic.registered
  have along : Along (step here there) (fun d' op => d'.Admitted owned op ∧
      d'.Quiet messages {channel | channel ∈ d.announcer.channels} op) started after :=
    along_and.mpr ⟨rest, quiet⟩
  have settles (past : List Bytes) (d' : Directory) (op : DirectoryOp)
      (h : d'.listener.state.Registered ∧ Settling Channel.id
        {channel | channel ∈ d.announcer.channels} (d.listener.state.listedOf owned)
        (past.map noteOf) (d'.listener.state.listedOf owned))
      (both : d'.Admitted owned op ∧
        d'.Quiet messages {channel | channel ∈ d.announcer.channels} op) :
      (d'.step here there op).listener.state.Registered ∧ Settling Channel.id
        {channel | channel ∈ d.announcer.channels} (d.listener.state.listedOf owned)
        ((past ++ d'.heard here op).map noteOf)
        ((d'.step here there op).listener.state.listedOf owned) :=
    settling_step agrees
      (fun _ member => ⟨_, tells_round authentic.owns announces ping member⟩) h.1 h.2 op both.1
      both.2
  have fresh : started.listener.state.Registered ∧ Settling Channel.id
      {channel | channel ∈ d.announcer.channels} (d.listener.state.listedOf owned)
      (([] : List Bytes).map noteOf) (started.listener.state.listedOf owned) := ⟨held, .start ..⟩
  obtain ⟨registered, settling⟩ := run_logged settles fresh along
  rw [List.nil_append] at settling
  have heardAll {message : Bytes} (member : message ∈ messages) :
      noteOf message ∈ (logged (step here there) (heard here) started after).map noteOf :=
    List.mem_map_of_mem (arrived message member)
  obtain ⟨lists, keeps⟩ := settling.settled fun channel mine =>
    let ⟨message, member, added⟩ := all channel mine
    ⟨_, heardAll member, added⟩
  refine ⟨fun channel mine => (registered.mem_allChannels channel).mpr (lists mine).1, ?_⟩
  intro channel member mine
  refine (keeps channel ⟨(registered.mem_allChannels channel).mp member, mine⟩).imp_right ?_
  rintro ⟨old, unheard⟩
  refine ⟨(held.mem_allChannels channel).mpr old.1, fun named => ?_, fun departed => ?_⟩
  · obtain ⟨other, current, same⟩ := List.mem_map.mp named
    obtain ⟨message, member, added⟩ := all other current
    refine unheard _ (heardAll member) (List.mem_append_right _ ?_)
    rw [← same]
    exact List.mem_map_of_mem added
  · obtain ⟨message, member, dropped⟩ := gone _ departed
    exact unheard _ (heardAll member) (List.mem_append_left _ dropped)

theorem quiet_deliver {messages : List Bytes} {kept : Set Channel} {index : Nat} {now : Instant}
    {nowMicros : Int64} (ours : (d.wire[index]?.all messages.contains) = true) :
    d.Quiet messages kept (.deliver index now nowMicros) := by
  intro message sent
  rw [sent] at ours
  exact List.contains_iff_mem.mp ours

theorem quiet_process {messages : List Bytes} {kept : Set Channel} {epoch : UInt64} {now : Instant}
    (fresh : (d.listener.state.channels.channels.all fun info =>
      now < info.expiresAt + prunePadding) = true) :
    d.Quiet messages kept (.listener (.process epoch now)) :=
  fun info member _ => of_decide_eq_true (List.all_eq_true.mp fresh info member)

def renamed : List DirectoryOp :=
  [.announcer (.sawLinkAudioEndpointAt 1 ⟨Vector.replicate 8 1⟩ (some ⟨2, 20809⟩)),
    .listener (.sawLinkAudioEndpointAt 1 default (some ⟨1, 20809⟩)),
    .announcer (.addSink default "drums"),
    .announcer (.addSink ⟨Vector.replicate 8 2⟩ "bass"), .round ⟨.zero⟩, .send, .deliver 0 0 0,
    .announcer (.removeSink ⟨Vector.replicate 8 2⟩), .renameSink default "kit"]

def reordered : List DirectoryOp :=
  [.send, .send, .deliver 3 7 7, .listener (.process 1 8), .deliver 2 9 9, .deliver 3 9 9]

theorem listed_settles_renamed :
    let d := run (step ⟨1, 20809⟩ ⟨2, 20809⟩) pair renamed
    let d' := run (step ⟨1, 20809⟩ ⟨2, 20809⟩) (d.step ⟨1, 20809⟩ ⟨2, 20809⟩ (.round ⟨.zero⟩))
      reordered
    d.listener.state.channels.allChannels.map Channel.name = ["drums", "bass"] ∧
      d'.listener.state.channels.allChannels.map Channel.name = ["kit"] ∧
      (∀ channel ∈ d.announcer.channels, channel ∈ d'.listener.state.channels.allChannels) ∧
      ∀ channel ∈ d'.listener.state.channels.allChannels, channel ∈ d.announcer.channels ∨
        channel ∈ d.listener.state.channels.allChannels ∧
          channel.id ∉ d.announcer.channels.map Channel.id ∧
          channel.id ∉ d.announcer.departed := by
  intro d d'
  have admitted : Along (step ⟨1, 20809⟩ ⟨2, 20809⟩) (Admitted fun _ => True) pair
      (renamed ++ .round ⟨.zero⟩ :: reordered) := by
    refine ⟨trivial, trivial, ⟨trivial, truncateName_of_short "drums" (by decide), ?_⟩,
      ⟨trivial, truncateName_of_short "bass" (by decide), ?_⟩, trivial, trivial, trivial, trivial,
      trivial, trivial, trivial, trivial, trivial, trivial, trivial, trivial, trivial⟩
    · rintro _ ⟨⟩
    · decide +kernel
  have settles := listed_settles admitted
  dsimp only at settles
  rw [show run _ _ renamed = d from rfl, show run _ _ reordered = d' from rfl] at settles
  obtain ⟨lists, keeps⟩ := settles (by decide +kernel) (by decide +kernel)
    ⟨trivial, trivial, quiet_deliver (by decide +kernel), quiet_process (by decide +kernel),
      quiet_deliver (by decide +kernel), quiet_deliver (by decide +kernel), trivial⟩
    (by decide +kernel)
  exact ⟨by decide +kernel, by decide +kernel, lists,
    fun channel member => keeps channel member trivial⟩

end Runs

end Directory

end AbletonLink.Audio
