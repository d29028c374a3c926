import AbletonLink.Audio.Channels
import AbletonLink.Library.Run

/-! The channels an application is shown: what the list is computed from, and which operations of
the registry report that it changed. -/

namespace AbletonLink.Audio

open Library Library.Run Link

namespace Channels

def gatewayClosed (self : Channels) (gatewayAddr : UInt32) : Channels × Bool :=
  self.retain fun info => info.gatewayAddr ≠ gatewayAddr

/-- Of channels known through several gateways the first is shown. -/
def pushChannel (result : List Channel) (channel : Channel) : List Channel :=
  if result.any fun c => c.id = channel.id then result else result ++ [channel]

def sessionChannels (self : Channels) (sessionId : SessionId) : List Channel :=
  self.channels.foldl (fun result info =>
    if info.channel.sessionId = sessionId then pushChannel result info.channel else result) []

def allChannels (self : Channels) : List Channel :=
  self.channels.foldl (fun result info => pushChannel result info.channel) []

def peerEndpoint (self : Channels) (peerId : Id) : Option SocketAddrV4 :=
  (self.handlerOf peerId).map PeerSendHandler.endpoint

def channelEndpoint (self : Channels) (channelId : Id) : Option SocketAddrV4 :=
  match self.channels.find? fun info => info.channel.id = channelId with
  | some info => self.peerEndpoint info.channel.peerId
  | none => none

end Channels

/-- The operations of the registry, each with the flag it returns. -/
inductive ChannelsOp
  | sawAnnouncement (peerId : Id) (peerName : String) (sessionId : SessionId)
      (announced : List ChannelAnnouncement) (gatewayAddr : UInt32) (source : SocketAddrV4)
      (networkQuality : Float) (ttl : UInt8) (now : Instant)
  | channelsLeft (gatewayAddr : UInt32) (byes : List Id)
  | gatewayClosed (gatewayAddr : UInt32)
  | prunePeerChannels (connectedPeers : List Id)
  | pruneExpired (now : Instant)

def ChannelsOp.apply (self : Channels) : ChannelsOp → Channels × Bool
  | .sawAnnouncement peerId peerName sessionId announced gatewayAddr source networkQuality ttl
      now =>
    self.sawAnnouncement peerId peerName sessionId announced gatewayAddr source networkQuality ttl
      now
  | .channelsLeft gatewayAddr byes => self.channelsLeft gatewayAddr byes
  | .gatewayClosed gatewayAddr => self.gatewayClosed gatewayAddr
  | .prunePeerChannels connectedPeers => self.prunePeerChannels connectedPeers
  | .pruneExpired now => self.pruneExpired now

def ChannelsOp.step (self : Channels) (op : ChannelsOp) : Channels := (op.apply self).1

namespace Channels

section Visible

variable {self after : Channels}

theorem allChannels_eq : self.allChannels =
    (self.channels.map ChannelInfo.channel).foldl pushChannel [] := List.foldl_map.symm

theorem listed_congr
    (same : after.channels.map ChannelInfo.channel = self.channels.map ChannelInfo.channel) :
    after.allChannels = self.allChannels ∧
      ∀ sessionId, after.sessionChannels sessionId = self.sessionChannels sessionId := by
  have bySession (channels : Channels) (sessionId : SessionId) :
      channels.sessionChannels sessionId = (channels.channels.map ChannelInfo.channel).foldl
        (fun result channel =>
          if channel.sessionId = sessionId then pushChannel result channel else result) [] := by
    rw [List.foldl_map]
    rfl
  refine ⟨by rw [allChannels_eq, allChannels_eq, same], fun sessionId => ?_⟩
  rw [bySession, bySession, same]

theorem nodup_pushChannel {result : List Channel} (h : (result.map Channel.id).Nodup)
    (channel : Channel) : ((pushChannel result channel).map Channel.id).Nodup := by
  unfold pushChannel
  split
  case isTrue => exact h
  case isFalse absent =>
    refine nodup_map_concat h fun other member same => absent ?_
    exact List.any_eq_true.mpr ⟨other, member, by simpa using same⟩

theorem nodup_allChannels (self : Channels) : (self.allChannels.map Channel.id).Nodup := by
  have pushed (channels : List Channel) {result : List Channel}
      (h : (result.map Channel.id).Nodup) :
      ((channels.foldl pushChannel result).map Channel.id).Nodup := by
    induction channels generalizing result with
    | nil => exact h
    | cons channel channels ih => exact ih (nodup_pushChannel h channel)
  rw [allChannels_eq]
  exact pushed _ List.nodup_nil

theorem mem_pushChannel {result : List Channel} {channel other : Channel}
    (h : other ∈ pushChannel result channel) : other ∈ result ∨ other = channel := by
  unfold pushChannel at h
  split at h
  · exact .inl h
  · exact (List.mem_append.mp h).imp_right List.mem_singleton.mp

theorem mem_of_mem_allChannels {channel : Channel} (h : channel ∈ self.allChannels) :
    ∃ info ∈ self.channels, info.channel = channel := by
  have pushed (channels : List Channel) {result : List Channel}
      (h : channel ∈ channels.foldl pushChannel result) :
      channel ∈ result ∨ channel ∈ channels := by
    induction channels generalizing result with
    | nil => exact .inl h
    | cons first channels ih =>
      rcases ih h with old | new
      · rw [List.mem_cons]
        exact (mem_pushChannel old).imp_right .inl
      · exact .inr (List.mem_cons_of_mem _ new)
  rw [allChannels_eq] at h
  rcases pushed _ h with none | member
  · cases none
  · exact List.mem_map.mp member

end Visible

def key (info : ChannelInfo) : Id × UInt32 := (info.channel.id, info.gatewayAddr)

/-- Each channel is there once for a gateway, and each of their peers can be reached. -/
structure WellFormed (registry : Channels) : Prop where
  keys : (registry.channels.map key).Nodup
  handled : ∀ info ∈ registry.channels, (registry.handlerOf info.channel.peerId).isSome = true

theorem wellFormed_new : new.WellFormed := ⟨List.nodup_nil, fun _ none => nomatch none⟩

section SawAnnouncement

variable {peerId : Id} {peerName : String} {sessionId : SessionId} {gatewayAddr : UInt32}
  {expiresAt : Instant}

theorem nodup_sawChannel {channels : List ChannelInfo} (h : (channels.map key).Nodup)
    (channel : Channel) :
    ((sawChannel channel gatewayAddr expiresAt channels).1.map key).Nodup := by
  unfold sawChannel
  dsimp only
  split
  next info found =>
    have same : info.channel.id = channel.id ∧ info.gatewayAddr = gatewayAddr := by
      simpa using List.find?_some found
    rw [map_replaceFirst found (by simp [key, same.1])]
    exact h
  next absent =>
    refine nodup_map_concat h fun info held same => ?_
    simp only [key, Prod.mk.injEq] at same
    simpa [same.1, same.2] using List.find?_eq_none.mp absent info held

theorem map_sawChannel {channels : List ChannelInfo} {channel : Channel}
    (unchanged : (sawChannel channel gatewayAddr expiresAt channels).2 = false) :
    (sawChannel channel gatewayAddr expiresAt channels).1.map ChannelInfo.channel =
      channels.map ChannelInfo.channel := by
  unfold sawChannel at unchanged ⊢
  dsimp only at unchanged ⊢
  split
  next info found =>
    rw [found] at unchanged
    have same : info.channel = channel := by simpa using unchanged
    exact map_replaceFirst found same.symm
  next absent =>
    rw [absent] at unchanged
    cases unchanged

theorem peer_of_mem_sawChannel {channels : List ChannelInfo} {channel : Channel}
    {info : ChannelInfo}
    (h : info ∈ (sawChannel channel gatewayAddr expiresAt channels).1) :
    info.channel = channel ∨ info ∈ channels := by
  unfold sawChannel at h
  dsimp only at h
  split at h
  next found =>
    rcases mem_replaceFirst found h with rfl | old
    · exact .inl rfl
    · exact .inr old
  next =>
    rcases List.mem_append.mp h with old | last
    · exact .inr old
    · exact .inl (congrArg ChannelInfo.channel (List.mem_singleton.mp last))

theorem nodup_sawChannels (announced : List ChannelAnnouncement) {channels : List ChannelInfo}
    (h : (channels.map key).Nodup) :
    ((sawChannels peerId peerName sessionId gatewayAddr expiresAt announced channels).1.map
      key).Nodup := by
  induction announced generalizing channels with
  | nil => exact h
  | cons announced others ih => exact ih (nodup_sawChannel h _)

theorem map_sawChannels {announced : List ChannelAnnouncement} {channels : List ChannelInfo}
    (unchanged :
      (sawChannels peerId peerName sessionId gatewayAddr expiresAt announced channels).2 = false) :
    (sawChannels peerId peerName sessionId gatewayAddr expiresAt announced channels).1.map
      ChannelInfo.channel = channels.map ChannelInfo.channel := by
  induction announced generalizing channels with
  | nil => rfl
  | cons announced others ih =>
    obtain ⟨here, there⟩ := Bool.or_eq_false_iff.mp unchanged
    exact (ih there).trans (map_sawChannel here)

theorem peer_of_mem_sawChannels {announced : List ChannelAnnouncement}
    {channels : List ChannelInfo} {info : ChannelInfo}
    (h : info ∈
      (sawChannels peerId peerName sessionId gatewayAddr expiresAt announced channels).1) :
    info.channel.peerId = peerId ∨ info ∈ channels := by
  induction announced generalizing channels with
  | nil => exact .inr h
  | cons announced others ih =>
    rcases ih h with own | old
    · exact .inl own
    · exact (peer_of_mem_sawChannel old).imp_left fun same => congrArg Channel.peerId same

end SawAnnouncement

theorem handlerOf_insertHandler (self : Channels) (peerId other : Id) (handler : PeerSendHandler) :
    (self.insertHandler peerId handler).handlerOf other =
      if other = peerId then some handler else self.handlerOf other := by
  unfold handlerOf insertHandler
  split
  case isTrue same => simp [same]
  case isFalse different =>
    rw [List.find?_cons_of_neg (by simpa using Ne.symm different), List.find?_filter]
    congr 2
    funext binding
    by_cases here : binding.1 = other
    · simp [here, different]
    · simp [here]

theorem handlerOf_filter (self : Channels) {after : Channels} {keep : Id → Bool}
    (kept : after.peerSendHandlers = self.peerSendHandlers.filter fun binding => keep binding.1)
    {peerId : Id} (stays : keep peerId = true) :
    after.handlerOf peerId = self.handlerOf peerId := by
  unfold handlerOf
  rw [kept, List.find?_filter]
  congr 2
  funext binding
  by_cases here : binding.1 = peerId
  · simp [here, stays]
  · simp [here]

theorem WellFormed.sawAnnouncement {self : Channels} (h : self.WellFormed) (peerId : Id)
    (peerName : String) (sessionId : SessionId) (announced : List ChannelAnnouncement)
    (gatewayAddr : UInt32) (source : SocketAddrV4) (networkQuality : Float) (ttl : UInt8)
    (now : Instant) :
    (self.sawAnnouncement peerId peerName sessionId announced gatewayAddr source networkQuality ttl
      now).1.WellFormed := by
  have keys : ((sawChannels peerId peerName sessionId gatewayAddr (now.after ttl) announced
      self.channels).1.map key).Nodup := nodup_sawChannels announced h.keys
  let seen : Channels :=
    { self with
      channels := (sawChannels peerId peerName sessionId gatewayAddr (now.after ttl) announced
        self.channels).1 }
  have entered : (seen.insertHandler peerId ⟨source, networkQuality⟩).WellFormed := by
    refine ⟨keys, fun info member => ?_⟩
    rw [handlerOf_insertHandler]
    split
    next => rfl
    next other => exact h.handled info ((peer_of_mem_sawChannels member).resolve_left other)
  unfold Channels.sawAnnouncement
  dsimp only
  split
  next existing found =>
    split
    -- The way to the peer that is known stays.
    · refine ⟨keys, fun info member => ?_⟩
      rcases peer_of_mem_sawChannels member with own | old
      · rw [own]
        exact Option.isSome_iff_exists.mpr ⟨existing, found⟩
      · exact h.handled info old
    · exact entered
  next => exact entered

theorem WellFormed.retain {self : Channels} (h : self.WellFormed) (keep : ChannelInfo → Bool) :
    (self.retain keep).1.WellFormed := by
  have keys : ((self.channels.filter keep).map key).Nodup :=
    h.keys.sublist (List.filter_sublist.map key)
  unfold Channels.retain
  dsimp only
  split
  · refine ⟨keys, fun info member => ?_⟩
    have peer : ((self.channels.filter keep).map fun info => info.channel.peerId).contains
        info.channel.peerId = true :=
      List.contains_iff_mem.mpr (List.mem_map.mpr ⟨info, member, rfl⟩)
    rw [handlerOf_filter self rfl peer]
    exact h.handled info (List.mem_filter.mp member).1
  · exact ⟨keys, fun info member => h.handled info (List.mem_filter.mp member).1⟩

theorem WellFormed.prunePeerChannels {self : Channels} (h : self.WellFormed)
    (connectedPeers : List Id) : (self.prunePeerChannels connectedPeers).1.WellFormed where
  keys := h.keys.sublist (List.filter_sublist.map key)
  handled info member := by
    obtain ⟨old, connected⟩ := List.mem_filter.mp member
    rw [handlerOf_filter self rfl connected]
    exact h.handled info old

theorem WellFormed.step {self : Channels} (h : self.WellFormed) (op : ChannelsOp) :
    (op.step self).WellFormed := by
  cases op with
  | sawAnnouncement => exact h.sawAnnouncement ..
  | channelsLeft => exact h.retain _
  | gatewayClosed => exact h.retain _
  | prunePeerChannels connectedPeers => exact h.prunePeerChannels connectedPeers
  | pruneExpired => exact h.retain _

theorem wellFormed_run (ops : List ChannelsOp) : (run ChannelsOp.step new ops).WellFormed :=
  run_keeps (I := WellFormed) (fun _ op h => h.step op) ops wellFormed_new

theorem filter_of_length {channels : List ChannelInfo} {keep : ChannelInfo → Bool}
    (unchanged : decide ((channels.filter keep).length ≠ channels.length) = false) :
    channels.filter keep = channels :=
  List.filter_sublist.eq_of_length (by simpa using unchanged)

theorem channels_retain {self : Channels} {keep : ChannelInfo → Bool}
    (unchanged : (self.retain keep).2 = false) : (self.retain keep).1.channels = self.channels := by
  unfold retain
  dsimp only
  split <;> exact filter_of_length unchanged

theorem map_apply {self : Channels} {op : ChannelsOp} (unchanged : (op.apply self).2 = false) :
    (op.apply self).1.channels.map ChannelInfo.channel =
      self.channels.map ChannelInfo.channel := by
  cases op with
  | sawAnnouncement =>
    have same := map_sawChannels unchanged
    simp only [ChannelsOp.apply, sawAnnouncement]
    split
    · split <;> exact same
    · exact same
  | channelsLeft => exact congrArg _ (channels_retain unchanged)
  | gatewayClosed => exact congrArg _ (channels_retain unchanged)
  | prunePeerChannels => exact congrArg _ (filter_of_length unchanged)
  | pruneExpired => exact congrArg _ (channels_retain unchanged)

theorem WellFormed.channelEndpoint {self : Channels} (h : self.WellFormed) {channel : Channel}
    (listed : channel ∈ self.allChannels) : (self.channelEndpoint channel.id).isSome = true := by
  obtain ⟨info, member, rfl⟩ := mem_of_mem_allChannels listed
  unfold Channels.channelEndpoint
  split
  next first found =>
    rw [peerEndpoint, Option.isSome_map]
    exact h.handled first (List.mem_of_find?_eq_some found)
  next absent => simpa using List.find?_eq_none.mp absent info member

end Channels

end AbletonLink.Audio
