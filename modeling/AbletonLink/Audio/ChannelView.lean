import AbletonLink.Audio.ChannelList
import AbletonLink.Audio.Engine
import AbletonLink.Library.Replica

/-! What an engine lists, and how messages and the engine's own steps change it. -/

namespace AbletonLink.Audio

open Library Library.Bytes Library.Run Link

def PeerAnnouncement.listed (announcement : PeerAnnouncement) (peerId : Id) : List Channel :=
  announcement.channels.map fun announced =>
    { id := announced.id
      name := announced.name
      peerId
      peerName := announcement.peerInfo.name
      sessionId := announcement.sessionId }

namespace Channels

/-- The entries of one gateway. -/
structure Registered (gatewayAddr : UInt32) (channels : List ChannelInfo) : Prop where
  keys : (channels.map key).Nodup
  gateway : ∀ info ∈ channels, info.gatewayAddr = gatewayAddr

variable {gatewayAddr : UInt32} {channels : List ChannelInfo}

theorem Registered.fewer {fewer : List ChannelInfo} (h : Registered gatewayAddr channels)
    (sub : fewer.Sublist channels) : Registered gatewayAddr fewer where
  keys := h.keys.sublist (sub.map key)
  gateway info member := h.gateway info (sub.subset member)

theorem Registered.ids (h : Registered gatewayAddr channels) :
    (channels.map fun info => info.channel.id).Nodup := by
  have keys : channels.map key =
      (channels.map fun info => info.channel.id).map fun id => (id, gatewayAddr) := by
    rw [List.map_map]
    exact List.map_congr_left fun info member => by simp [key, h.gateway info member]
  have distinct := h.keys
  rw [keys] at distinct
  exact distinct.of_map _

theorem mem_sawChannel (h : Registered gatewayAddr channels) (channel : Channel)
    (expiresAt : Instant) (other : Channel) :
    other ∈ (sawChannel channel gatewayAddr expiresAt channels).1.map ChannelInfo.channel ↔
      other = channel ∨ other ∈ channels.map ChannelInfo.channel ∧ other.id ≠ channel.id := by
  unfold sawChannel
  dsimp only
  split
  next info found =>
    obtain ⟨test, before, after, split, -, replaced⟩ := find?_split found
    have same : info.channel.id = channel.id := (of_decide_eq_true test).1
    have ids := h.ids
    rw [split, List.map_append, List.map_cons, List.nodup_middle, List.nodup_cons,
      ← List.map_append] at ids
    have apart : ∀ entry ∈ before ++ after, entry.channel.id ≠ channel.id := by
      intro entry member here
      refine ids.1 ?_
      rw [same, ← here]
      exact List.mem_map_of_mem (f := fun info => info.channel.id) member
    dsimp only
    rw [replaced]
    constructor
    · intro member
      obtain ⟨entry, inside, rfl⟩ := List.mem_map.mp member
      rcases List.mem_append.mp inside with left | right
      · refine .inr ⟨List.mem_map_of_mem ?_, apart entry (List.mem_append_left after left)⟩
        rw [split]
        exact List.mem_append_left _ left
      · rcases List.mem_cons.mp right with rfl | right
        · exact .inl rfl
        · refine .inr ⟨List.mem_map_of_mem ?_, apart entry (List.mem_append_right before right)⟩
          rw [split]
          exact List.mem_append_right _ (List.mem_cons_of_mem _ right)
    · rintro (rfl | ⟨member, different⟩)
      · exact List.mem_map.mpr ⟨{ info with channel := other, expiresAt }, by simp, rfl⟩
      · obtain ⟨entry, inside, rfl⟩ := List.mem_map.mp member
        refine List.mem_map_of_mem ?_
        rw [split] at inside
        rcases List.mem_append.mp inside with left | right
        · exact List.mem_append_left _ left
        · rcases List.mem_cons.mp right with rfl | right
          · exact absurd same different
          · exact List.mem_append_right _ (List.mem_cons_of_mem _ right)
  next absent =>
    rw [List.map_append, List.mem_append, List.map_singleton, List.mem_singleton]
    constructor
    · rintro (old | new)
      · refine .inr ⟨old, fun same => ?_⟩
        obtain ⟨entry, inside, rfl⟩ := List.mem_map.mp old
        have missed := List.find?_eq_none.mp absent entry inside
        simp [same, h.gateway entry inside] at missed
      · exact .inl new
    · rintro (new | old)
      · exact .inr new
      · exact .inl old.1

theorem Registered.sawChannel (h : Registered gatewayAddr channels) (channel : Channel)
    (expiresAt : Instant) :
    Registered gatewayAddr (Channels.sawChannel channel gatewayAddr expiresAt channels).1 where
  keys := nodup_sawChannel h.keys channel
  gateway info member := by
    unfold Channels.sawChannel at member
    dsimp only at member
    split at member
    next first found =>
      rcases mem_replaceFirst found member with rfl | old
      · exact h.gateway first (List.mem_of_find?_eq_some found)
      · exact h.gateway info old
    next =>
      rcases List.mem_append.mp member with old | new
      · exact h.gateway info old
      · rw [List.mem_singleton.mp new]

section Announced

variable {peerId : Id} {peerName : String} {sessionId : SessionId} {expiresAt : Instant}

theorem Registered.sawChannels (h : Registered gatewayAddr channels)
    (announced : List ChannelAnnouncement) :
    Registered gatewayAddr (Channels.sawChannels peerId peerName sessionId gatewayAddr expiresAt
      announced channels).1 := by
  induction announced generalizing channels with
  | nil => exact h
  | cons first others ih => exact ih (h.sawChannel _ expiresAt)

theorem mem_sawChannels_of_not_announced (h : Registered gatewayAddr channels)
    {announced : List ChannelAnnouncement} {channel : Channel}
    (other : channel.id ∉ announced.map ChannelAnnouncement.id) :
    channel ∈ (sawChannels peerId peerName sessionId gatewayAddr expiresAt announced
      channels).1.map ChannelInfo.channel ↔ channel ∈ channels.map ChannelInfo.channel := by
  induction announced generalizing channels with
  | nil => rfl
  | cons first others ih =>
    rw [List.map_cons, List.mem_cons, not_or] at other
    refine (ih (h.sawChannel _ expiresAt) other.2).trans ?_
    rw [mem_sawChannel h]
    constructor
    · rintro (rfl | old)
      · exact absurd rfl other.1
      · exact old.1
    · exact fun old => .inr ⟨old, other.1⟩

theorem mem_sawChannels_of_announced (h : Registered gatewayAddr channels)
    {announced : List ChannelAnnouncement}
    (distinct : (announced.map ChannelAnnouncement.id).Nodup) {channel : Channel}
    (here : channel.id ∈ announced.map ChannelAnnouncement.id) :
    channel ∈ (sawChannels peerId peerName sessionId gatewayAddr expiresAt announced
      channels).1.map ChannelInfo.channel ↔
      ∃ entry ∈ announced, channel = ⟨entry.id, entry.name, peerId, peerName, sessionId⟩ := by
  induction announced generalizing channels with
  | nil => cases here
  | cons first others ih =>
    rw [List.map_cons, List.nodup_cons] at distinct
    by_cases later : channel.id ∈ others.map ChannelAnnouncement.id
    · refine (ih (h.sawChannel _ expiresAt) distinct.2 later).trans ?_
      simp only [List.exists_mem_cons_iff]
      refine ⟨.inr, fun either => either.resolve_left ?_⟩
      rintro rfl
      exact distinct.1 later
    · have same : channel.id = first.id := by
        rw [List.map_cons, List.mem_cons] at here
        exact here.resolve_right later
      refine (mem_sawChannels_of_not_announced (h.sawChannel _ expiresAt) later).trans ?_
      rw [mem_sawChannel h, List.exists_mem_cons_iff]
      constructor
      · rintro (new | ⟨-, different⟩)
        · exact .inl new
        · exact absurd same different
      · rintro (new | ⟨entry, member, rfl⟩)
        · exact .inl new
        · exact absurd (List.mem_map_of_mem member) later

theorem mem_sawChannels (h : Registered gatewayAddr channels)
    (announced : List ChannelAnnouncement) (channel : Channel)
    (distinct : channel.id ∈ announced.map ChannelAnnouncement.id →
      (announced.map ChannelAnnouncement.id).Nodup) :
    channel ∈ (sawChannels peerId peerName sessionId gatewayAddr expiresAt announced
      channels).1.map ChannelInfo.channel ↔
      (∃ entry ∈ announced, channel = ⟨entry.id, entry.name, peerId, peerName, sessionId⟩) ∨
        channel ∈ channels.map ChannelInfo.channel ∧
          channel.id ∉ announced.map ChannelAnnouncement.id := by
  by_cases here : channel.id ∈ announced.map ChannelAnnouncement.id
  · rw [mem_sawChannels_of_announced h (distinct here) here]
    exact ⟨.inl, fun either => either.resolve_right fun old => old.2 here⟩
  · rw [mem_sawChannels_of_not_announced h here]
    constructor
    · exact fun old => .inr ⟨old, here⟩
    · rintro (⟨entry, member, rfl⟩ | old)
      · exact absurd (List.mem_map_of_mem member) here
      · exact old.1

end Announced

theorem mem_allChannels {self : Channels} (h : Registered gatewayAddr self.channels)
    (channel : Channel) :
    channel ∈ self.allChannels ↔ channel ∈ self.channels.map ChannelInfo.channel := by
  have pushed (result channels : List Channel) (distinct : ((result ++ channels).map
      Channel.id).Nodup) : channels.foldl pushChannel result = result ++ channels := by
    induction channels generalizing result with
    | nil => exact (List.append_nil result).symm
    | cons first others ih =>
      have fresh : pushChannel result first = result ++ [first] := by
        refine if_neg fun found => ?_
        obtain ⟨other, member, same⟩ := List.any_eq_true.mp found
        rw [List.map_append, List.map_cons, List.nodup_append] at distinct
        exact distinct.2.2 _ (List.mem_map_of_mem member) _ List.mem_cons_self
          (of_decide_eq_true same)
      rw [List.foldl_cons, fresh, ih _ (by rwa [List.append_assoc, List.singleton_append]),
        List.append_assoc, List.singleton_append]
  have ids : ((self.channels.map ChannelInfo.channel).map Channel.id).Nodup := by
    rw [List.map_map]
    exact h.ids
  rw [allChannels_eq, pushed [] _ ids, List.nil_append]

end Channels

theorem Channels.channels_sawAnnouncement (self : Channels) (peerId : Id) (peerName : String)
    (sessionId : SessionId) (announced : List ChannelAnnouncement) (gatewayAddr : UInt32)
    (source : SocketAddrV4) (networkQuality : Float) (ttl : UInt8) (now : Instant) :
    (self.sawAnnouncement peerId peerName sessionId announced gatewayAddr source networkQuality ttl
      now).1.channels =
      (sawChannels peerId peerName sessionId gatewayAddr (now.after ttl) announced
        self.channels).1 := by
  unfold sawAnnouncement
  dsimp only
  split
  · split <;> rfl
  · rfl

theorem Channels.channels_retain_eq (self : Channels) (keep : ChannelInfo → Bool) :
    (self.retain keep).1.channels = self.channels.filter keep := by
  unfold retain
  dsimp only
  split <;> rfl

namespace EngineState

variable {state : EngineState}

theorem gatewayAddr_dispatch (header : MessageHeader) (payload : Bytes) (source : SocketAddrV4)
    (now : Instant) (nowMicros : Int64) :
    (state.dispatch header payload source now nowMicros).1.gatewayAddr = state.gatewayAddr := by
  refine state.dispatch_cases (P := fun after _ => after.gatewayAddr = state.gatewayAddr) rfl ?_ ?_
    ?_ ?_ ?_ header payload source now nowMicros
  · intro peerId payload source ttl now
    unfold receiveAnnouncement
    split
    · rfl
    · split <;> rfl
  · intro payload
    unfold receiveChannelByes
    dsimp only
    split <;> rfl
  · intro payload source nowMicros
    unfold receivePong
    split
    · rfl
    · dsimp only
      split <;> rfl
  · intro id f
    unfold updateSink
    dsimp only
    split <;> rfl
  · intro payload
    unfold receiveAudioBuffer
    split
    · rfl
    · dsimp only
      split <;> rfl

theorem channels_receiveChannelByes (payload : Bytes) :
    (state.receiveChannelByes payload).1.channels.channels = state.channels.channels.filter
      fun info => !(info.gatewayAddr = state.gatewayAddr &&
        (byesOf payload).contains info.channel.id) := by
  unfold receiveChannelByes
  dsimp only
  split
  next none =>
    rw [List.isEmpty_iff.mp none]
    simp
  next => exact state.channels.channels_retain_eq _

theorem channels_receiveAnnouncement {peerId : NodeId} {payload : Bytes} {source : SocketAddrV4}
    {announcement : PeerAnnouncement} (known : state.peers.any fun p => p.endpoint = source)
    (read : PeerAnnouncement.fromPayload peerId payload = .ok announcement) (ttl : UInt8)
    (now : Instant) :
    (state.receiveAnnouncement peerId payload source ttl now).1.channels.channels =
      (Channels.sawChannels peerId announcement.peerInfo.name announcement.sessionId
        state.gatewayAddr (now.after ttl) announcement.channels state.channels.channels).1 := by
  unfold receiveAnnouncement
  split
  next absent =>
    obtain ⟨peer, member, here⟩ := List.any_eq_true.mp known
    exact absurd here (by simpa using List.find?_eq_none.mp absent peer member)
  next peer found =>
    rw [read]
    exact state.channels.channels_sawAnnouncement ..

def note (header : MessageHeader) (payload : Bytes) : Note Id Channel :=
  if header.messageType = typePeerAnnouncement then
    match PeerAnnouncement.fromPayload header.ident payload with
    | .error _ => ⟨[], []⟩
    | .ok announcement => ⟨[], announcement.listed header.ident⟩
  else if header.messageType = typeChannelByes then ⟨byesOf payload, []⟩
  else ⟨[], []⟩

def Registered (state : EngineState) : Prop :=
  Channels.Registered state.gatewayAddr state.channels.channels

def listed (state : EngineState) : Set Channel :=
  {channel | channel ∈ state.channels.channels.map ChannelInfo.channel}

def listedOf (owned : Id → Prop) (state : EngineState) : Set Channel :=
  {channel | channel ∈ state.listed ∧ owned channel.id}

theorem Registered.mem_allChannels (h : state.Registered) (channel : Channel) :
    channel ∈ state.channels.allChannels ↔ channel ∈ state.listed :=
  Channels.mem_allChannels h channel

theorem listed_congr {after : EngineState}
    (same : after.channels.channels = state.channels.channels) : after.listed = state.listed := by
  unfold listed
  rw [same]

theorem Registered.fewer (h : state.Registered) {after : EngineState}
    (gateway : after.gatewayAddr = state.gatewayAddr)
    (sub : after.channels.channels.Sublist state.channels.channels) :
    after.Registered ∧ after.listed ⊆ state.listed := by
  refine ⟨?_, fun channel member => (sub.map _).subset member⟩
  unfold Registered
  rw [gateway]
  exact Channels.Registered.fewer h sub

/-- A note was taken, except for channels that it adds twice. -/
def Takes (state : EngineState) (note : Note Id Channel) (after : EngineState) : Prop :=
  ∀ channel, (channel.id ∈ note.adds.map Channel.id → (note.adds.map Channel.id).Nodup) →
    (channel ∈ after.listed ↔ channel ∈ note.apply Channel.id state.listed)

theorem Takes.listedOf {owned : Id → Prop} {note : Note Id Channel} {after : EngineState}
    (takes : state.Takes note after) (distinct : (note.adds.map Channel.id).Nodup)
    (own : ∀ channel ∈ note.adds, owned channel.id) :
    after.listedOf owned = note.apply Channel.id (state.listedOf owned) := by
  ext channel
  constructor
  · rintro ⟨member, mine⟩
    rcases (takes channel fun _ => distinct).mp member with added | ⟨old, other⟩
    · exact .inl added
    · exact .inr ⟨⟨old, mine⟩, other⟩
  · rintro (added | ⟨⟨old, mine⟩, other⟩)
    · exact ⟨(takes channel fun _ => distinct).mpr (.inl added), own channel added⟩
    · exact ⟨(takes channel fun _ => distinct).mpr (.inr ⟨old, other⟩), mine⟩

theorem takes_nothing {after : EngineState} (same : after.listed = state.listed) :
    state.Takes ⟨[], []⟩ after := by
  intro channel _
  rw [same]
  exact ⟨fun held => .inr ⟨held, List.not_mem_nil⟩, fun either =>
    (either.resolve_left List.not_mem_nil).1⟩

theorem Registered.takes_announcement (h : state.Registered) {after : EngineState} {sender : NodeId}
    {announcement : PeerAnnouncement} {expiresAt : Instant}
    (seen : after.channels.channels = (Channels.sawChannels sender announcement.peerInfo.name
      announcement.sessionId state.gatewayAddr expiresAt announcement.channels
      state.channels.channels).1) :
    state.Takes ⟨[], announcement.listed sender⟩ after := by
  have ids : (announcement.listed sender).map Channel.id =
      announcement.channels.map ChannelAnnouncement.id := by
    unfold PeerAnnouncement.listed
    rw [List.map_map]
    rfl
  have named (channel : Channel) : channel ∈ announcement.listed sender ↔
      ∃ entry ∈ announcement.channels, channel = ⟨entry.id, entry.name, sender,
        announcement.peerInfo.name, announcement.sessionId⟩ := by
    unfold PeerAnnouncement.listed
    rw [List.mem_map]
    exact exists_congr fun entry => and_congr_right fun _ => eq_comm
  intro channel distinct
  dsimp only at distinct
  rw [ids] at distinct
  show channel ∈ after.channels.channels.map ChannelInfo.channel ↔
    channel ∈ announcement.listed sender ∨ channel ∈ state.listed ∧
      channel.id ∉ [] ++ (announcement.listed sender).map Channel.id
  rw [seen, Channels.mem_sawChannels h announcement.channels channel distinct, named, ids,
    List.nil_append]
  rfl

theorem Registered.takes_byes (h : state.Registered) (payload : Bytes) :
    state.Takes ⟨byesOf payload, []⟩ (state.receiveChannelByes payload).1 := by
  intro channel _
  show channel ∈ (state.receiveChannelByes payload).1.channels.channels.map ChannelInfo.channel ↔
    channel ∈ [] ∨ channel ∈ state.channels.channels.map ChannelInfo.channel ∧
      channel.id ∉ byesOf payload ++ []
  rw [state.channels_receiveChannelByes payload, List.append_nil]
  constructor
  · intro found
    obtain ⟨info, inside, rfl⟩ := List.mem_map.mp found
    obtain ⟨member, kept⟩ := List.mem_filter.mp inside
    refine .inr ⟨List.mem_map_of_mem member, fun bye => ?_⟩
    simp [bye, h.gateway info member] at kept
  · rintro (⟨⟨⟩⟩ | ⟨member, stays⟩)
    obtain ⟨info, inside, rfl⟩ := List.mem_map.mp member
    exact List.mem_map_of_mem (List.mem_filter.mpr ⟨inside, by simp [stays]⟩)

theorem Registered.dispatch (h : state.Registered) (header : MessageHeader) (payload : Bytes)
    (source : SocketAddrV4) (now : Instant) (nowMicros : Int64) :
    let after := (state.dispatch header payload source now nowMicros).1
    after.Registered ∧ (state.Takes (note header payload) after ∨
      after.listed = state.listed ∧ ¬(state.peers.any fun p => p.endpoint = source) = true) := by
  intro after
  have gateway : after.gatewayAddr = state.gatewayAddr :=
    state.gatewayAddr_dispatch header payload source now nowMicros
  have same (unchanged : after.channels.channels = state.channels.channels) :
      after.Registered ∧ after.listed = state.listed :=
    ⟨(h.fewer gateway (by rw [unchanged])).1, listed_congr unchanged⟩
  have idle (unchanged : after.channels.channels = state.channels.channels)
      (silent : note header payload = ⟨[], []⟩) :
      after.Registered ∧ (state.Takes (note header payload) after ∨ after.listed = state.listed ∧
        ¬(state.peers.any fun p => p.endpoint = source) = true) := by
    rw [silent]
    exact ⟨(same unchanged).1, .inl (takes_nothing (same unchanged).2)⟩
  have sink (id : Id) (f : Receivers → Receivers) :
      (state.updateSink id f).channels.channels = state.channels.channels :=
    congrArg Channels.channels (state.updateSink_frame id f).2
  by_cases announces : header.messageType = typePeerAnnouncement
  · have received : after =
        (state.receiveAnnouncement header.ident payload source header.ttl now).1 :=
      congrArg Prod.fst (if_pos announces)
    by_cases known : (state.peers.any fun p => p.endpoint = source) = true
    · cases read : PeerAnnouncement.fromPayload header.ident payload with
      | error error =>
        refine idle ?_ (by unfold note; rw [if_pos announces, read])
        rw [received]
        unfold receiveAnnouncement
        split
        · rfl
        · rw [read]
      | ok announcement =>
        have seen := channels_receiveAnnouncement known read header.ttl now
        rw [← received] at seen
        have told : note header payload = ⟨[], announcement.listed header.ident⟩ := by
          unfold note
          rw [if_pos announces, read]
        rw [told]
        refine ⟨?_, .inl (h.takes_announcement seen)⟩
        unfold Registered
        rw [gateway, seen]
        exact Channels.Registered.sawChannels h announcement.channels
    · have unchanged : after.channels.channels = state.channels.channels := by
        rw [received]
        unfold receiveAnnouncement
        split
        · rfl
        next peer found =>
          exact absurd (List.any_eq_true.mpr ⟨peer, List.mem_of_find?_eq_some found,
            List.find?_some found⟩) known
      exact ⟨(same unchanged).1, .inr ⟨(same unchanged).2, known⟩⟩
  · by_cases leaves : header.messageType = typeChannelByes
    · have received : after = (state.receiveChannelByes payload).1 := by
        show (state.dispatch header payload source now nowMicros).1 = _
        unfold EngineState.dispatch
        rw [if_neg announces, if_pos leaves]
      have told : note header payload = ⟨byesOf payload, []⟩ := by
        unfold note
        rw [if_neg announces, if_pos leaves]
      rw [told]
      refine ⟨(h.fewer gateway ?_).1, .inl ?_⟩
      · rw [received, state.channels_receiveChannelByes payload]
        exact List.filter_sublist
      · rw [received]
        exact h.takes_byes payload
    · refine idle ?_ (by unfold note; rw [if_neg announces, if_neg leaves])
      show (state.dispatch header payload source now nowMicros).1.channels.channels = _
      unfold EngineState.dispatch
      rw [if_neg announces, if_neg leaves]
      split
      · exact congrArg Channels.channels (state.channels_receivePong payload source nowMicros)
      · split
        · unfold receiveChannelRequest
          split
          · rfl
          · exact sink ..
        · split
          · unfold receiveChannelStopRequest
            split
            · rfl
            · exact sink ..
          · split
            · exact congrArg Channels.channels (state.receiveAudioBuffer_frame payload).2
            · rfl

end EngineState

def noteOf (data : Bytes) : Note Id Channel :=
  match parseMessageHeader data with
  | .error _ => ⟨[], []⟩
  | .ok (header, payloadOffset) => EngineState.note header (data.drop payloadOffset)

namespace AudioEngine

/-- The engine would take what this datagram from there tells. -/
def attends (engine : AudioEngine) (source : SocketAddrV4) (data : Bytes) : Bool :=
  match parseMessageHeader data with
  | .error _ => false
  | .ok (header, _) =>
    header.ident ≠ engine.state.nodeId && engine.sendEpoch.isSome &&
      engine.state.peers.any fun p => p.endpoint = source

theorem listed_handleMessage {engine : AudioEngine} (h : engine.state.Registered) (epoch : UInt64)
    (data : Bytes) (source : SocketAddrV4) (now : Instant) (nowMicros : Int64) :
    let after := (engine.handleMessage epoch data source now nowMicros).1.state
    after.Registered ∧ (engine.state.Takes (noteOf data) after ∨
      after.listed = engine.state.listed ∧
        (engine.sendEpoch = some epoch → engine.attends source data = false)) := by
  unfold handleMessage noteOf attends
  cases parsed : parseMessageHeader data with
  | error error => exact ⟨h, .inl (EngineState.takes_nothing rfl)⟩
  | ok front =>
    obtain ⟨header, offset⟩ := front
    dsimp only
    split
    next stale => exact ⟨h, .inr ⟨rfl, fun here => absurd here stale⟩⟩
    next =>
      split
      next own => exact ⟨h, .inr ⟨rfl, fun _ => by simp [own]⟩⟩
      next =>
        obtain ⟨registered, taken⟩ := h.dispatch header (data.drop offset) source now nowMicros
        refine ⟨registered, taken.imp_right fun ignored => ⟨ignored.1, fun _ => ?_⟩⟩
        rw [Bool.eq_false_of_not_eq_true ignored.2, Bool.and_false]

end AudioEngine

namespace EngineOp

/-- What an engine hears says nothing of channels with these ids. -/
def Elsewhere (owned : Id → Prop) : EngineOp → Prop
  | .handleMessage _ data _ _ _ => ∀ id ∈ (noteOf data).keys Channel.id, ¬owned id
  | _ => True

def Retains (kept : Set Channel) (engine : AudioEngine) : EngineOp → Prop
  | .process _ now => ∀ info ∈ engine.state.channels.channels, info.channel ∈ kept →
    now < info.expiresAt + prunePadding
  | .endPeerSync => False
  | .updateSessionPeersAt _ peers => ∀ channel ∈ kept, channel.peerId ∈ peers
  | _ => True

variable {owned : Id → Prop} {engine : AudioEngine}

theorem listed_step (h : engine.state.Registered) (op : EngineOp) (elsewhere : op.Elsewhere owned)
    (kept : Set Channel) :
    (op.step engine).state.Registered ∧
      (op.step engine).state.listedOf owned ⊆ engine.state.listedOf owned ∧
      (op.Retains kept engine → ∀ channel ∈ kept, channel ∈ engine.state.listedOf owned →
        channel ∈ (op.step engine).state.listedOf owned) := by
  have same {after : EngineState} (gateway : after.gatewayAddr = engine.state.gatewayAddr)
      (channels : after.channels.channels = engine.state.channels.channels) :
      after.Registered ∧ after.listedOf owned ⊆ engine.state.listedOf owned ∧
        (op.Retains kept engine → ∀ channel ∈ kept, channel ∈ engine.state.listedOf owned →
          channel ∈ after.listedOf owned) := by
    refine ⟨(h.fewer gateway (by rw [channels])).1, ?_⟩
    unfold EngineState.listedOf
    rw [EngineState.listed_congr channels]
    exact ⟨subset_rfl, fun _ _ _ member => member⟩
  have filtered {after : EngineState} (gateway : after.gatewayAddr = engine.state.gatewayAddr)
      {keep : ChannelInfo → Bool}
      (channels : after.channels.channels = engine.state.channels.channels.filter keep)
      (stays : op.Retains kept engine → ∀ info ∈ engine.state.channels.channels,
        info.channel ∈ kept → keep info = true) :
      after.Registered ∧ after.listedOf owned ⊆ engine.state.listedOf owned ∧
        (op.Retains kept engine → ∀ channel ∈ kept, channel ∈ engine.state.listedOf owned →
          channel ∈ after.listedOf owned) := by
    obtain ⟨registered, fewer⟩ := h.fewer gateway (by rw [channels]; exact List.filter_sublist)
    refine ⟨registered, fun channel listed => ⟨fewer listed.1, listed.2⟩, ?_⟩
    rintro retains channel mine ⟨member, own⟩
    obtain ⟨info, inside, rfl⟩ := List.mem_map.mp member
    refine ⟨?_, own⟩
    show info.channel ∈ after.channels.channels.map ChannelInfo.channel
    rw [channels]
    exact List.mem_map_of_mem (List.mem_filter.mpr ⟨inside, stays retains info inside mine⟩)
  cases op with
  | addSink id name => exact same rfl rfl
  | removeSink id => exact same rfl rfl
  | addSource channelId => exact same rfl rfl
  | removeSource channelId => exact same rfl rfl
  | releaseBuffer id buffer => exact same rfl rfl
  | beginPeerSync =>
    unfold step AudioEngine.beginPeerSync
    dsimp only
    split <;> exact same rfl rfl
  | stopSharing => exact same rfl rfl
  | stopSending => exact same rfl rfl
  | endPeerSync =>
    exact filtered rfl (show _ = engine.state.channels.channels.filter
      fun info => ([] : List NodeId).contains info.channel.peerId from rfl)
      fun retains => retains.elim
  | setIdentityAt epoch nodeId sessionId =>
    unfold step AudioEngine.setIdentityAt
    dsimp only
    split <;> exact same rfl rfl
  | sawLinkAudioEndpointAt epoch other endpoint =>
    unfold step AudioEngine.sawLinkAudioEndpointAt
    dsimp only
    split
    · split
      · split <;> exact same rfl rfl
      · exact same rfl rfl
    · exact same rfl rfl
  | updateSessionPeersAt epoch peers =>
    unfold step AudioEngine.updateSessionPeersAt
    dsimp only
    split
    · refine filtered rfl (show _ = engine.state.channels.channels.filter
        fun info => peers.contains info.channel.peerId from rfl) ?_
      exact fun retains info _ mine => List.contains_iff_mem.mpr (retains info.channel mine)
    · exact same rfl rfl
  | handleMessage epoch data source now nowMicros =>
    obtain ⟨registered, taken⟩ := AudioEngine.listed_handleMessage h epoch data source now nowMicros
    have others : (engine.handleMessage epoch data source now nowMicros).1.state.listedOf owned =
        engine.state.listedOf owned := by
      ext channel
      refine and_congr_left fun mine => ?_
      have absent : channel.id ∉ (noteOf data).keys Channel.id :=
        fun found => elsewhere channel.id found mine
      have added : channel.id ∉ (noteOf data).adds.map Channel.id :=
        fun found => absent (List.mem_append_right _ found)
      rcases taken with taken | ignored
      · refine (taken channel fun found => absurd found added).trans ?_
        exact ⟨fun either => (either.resolve_left fun found =>
          added (List.mem_map_of_mem found)).1, fun old => .inr ⟨old, absent⟩⟩
      · rw [ignored.1]
    exact ⟨registered, others.subset, fun _ channel _ member => others.symm.subset member⟩
  | process epoch now =>
    unfold step AudioEngine.process
    dsimp only
    split
    · exact same rfl rfl
    · refine filtered rfl (engine.state.channels.channels_retain_eq
        fun info => info.expiresAt + prunePadding > now) ?_
      exact fun retains info inside mine => decide_eq_true (retains info inside mine)

end EngineOp

end AbletonLink.Audio
