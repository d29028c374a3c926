import AbletonLink.Audio.ChannelList
import AbletonLink.Audio.Engine

/-! The published copy of the channel list: how it catches up with the registry when the steps and
the publications of several threads interleave. -/

namespace AbletonLink.Audio

open Library Library.Bytes Library.Run Link

def EngineOp.reports (engine : AudioEngine) : EngineOp → Bool
  | .endPeerSync => engine.endPeerSync.2
  | .updateSessionPeersAt epoch peers => (engine.updateSessionPeersAt epoch peers).2
  | .handleMessage epoch data source now nowMicros =>
    (engine.handleMessage epoch data source now nowMicros).2
  | .process epoch now => (engine.process epoch now).2.2
  | _ => false

structure ChannelPublisher where
  engine : AudioEngine
  apiChannels : List Channel
  pending : Nat

/-- `registry` is a change of the registry by a section the engine has no other operation for, such
as the teardown. -/
inductive PublisherOp
  | engine (op : EngineOp)
  | registry (op : ChannelsOp)
  | publish

namespace ChannelPublisher

def new (addr : UInt32) (nodeId : NodeId) (sessionId : SessionId) : ChannelPublisher where
  engine := .new addr nodeId sessionId
  apiChannels := []
  pending := 0

def ordered (state : EngineState) : List Channel :=
  let channels := state.channels.allChannels
  channels.filter (fun c => c.sessionId = state.sessionId) ++
    channels.filter fun c => c.sessionId ≠ state.sessionId

def publish (self : ChannelPublisher) : ChannelPublisher :=
  let ordered := ordered self.engine.state
  { self with
    apiChannels := if self.apiChannels = ordered then self.apiChannels else ordered
    pending := self.pending - 1 }

def owe (self : ChannelPublisher) (changed : Bool) : ChannelPublisher :=
  if changed then { self with pending := self.pending + 1 } else self

end ChannelPublisher

def PublisherOp.step (self : ChannelPublisher) : PublisherOp → ChannelPublisher
  | .engine op =>
    ({ self with engine := op.step self.engine } : ChannelPublisher).owe (op.reports self.engine)
  | .registry op =>
    let (channels, changed) := op.apply self.engine.state.channels
    ({ self with
        engine :=
          { self.engine with state := { self.engine.state with channels } } } :
      ChannelPublisher).owe changed
  | .publish => self.publish

def Registered (before after : Channels) (changed : Bool) : Prop :=
  after = before ∧ changed = false ∨ ∃ op : ChannelsOp, op.apply before = (after, changed)

theorem Registered.refl (channels : Channels) : Registered channels channels false :=
  .inl ⟨rfl, rfl⟩

theorem Registered.allChannels {before after : Channels} (h : Registered before after false) :
    after.allChannels = before.allChannels := by
  rcases h with ⟨rfl, -⟩ | ⟨op, applied⟩
  · rfl
  · have same := Channels.map_apply (congrArg Prod.snd applied)
    rw [applied] at same
    exact (Channels.listed_congr same).1

namespace EngineState

variable (state : EngineState)

theorem registered_receiveAnnouncement (peerId : NodeId) (payload : Bytes) (source : SocketAddrV4)
    (ttl : UInt8) (now : Instant) :
    Registered state.channels (state.receiveAnnouncement peerId payload source ttl now).1.channels
      (state.receiveAnnouncement peerId payload source ttl now).2 := by
  unfold receiveAnnouncement
  split
  · exact .refl _
  · split
    · exact .refl _
    · exact .inr ⟨.sawAnnouncement _ _ _ _ _ _ _ _ _, rfl⟩

theorem registered_receiveChannelByes (payload : Bytes) :
    Registered state.channels (state.receiveChannelByes payload).1.channels
      (state.receiveChannelByes payload).2 := by
  unfold receiveChannelByes
  dsimp only
  split
  · exact .refl _
  · exact .inr ⟨.channelsLeft _ _, rfl⟩

theorem registered_dispatch (header : MessageHeader) (payload : Bytes) (source : SocketAddrV4)
    (now : Instant) (nowMicros : Int64) :
    Registered state.channels (state.dispatch header payload source now nowMicros).1.channels
      (state.dispatch header payload source now nowMicros).2.1 :=
  state.dispatch_cases
    (P := fun after changed => Registered state.channels after.channels changed) (.refl _)
    (fun _ _ _ _ _ => state.registered_receiveAnnouncement ..)
    (fun _ => state.registered_receiveChannelByes _)
    (fun _ _ _ => .inl ⟨state.channels_receivePong .., rfl⟩)
    (fun _ _ => .inl ⟨(state.updateSink_frame ..).2, rfl⟩)
    (fun _ => .inl ⟨(state.receiveAudioBuffer_frame _).2, rfl⟩) header payload source now nowMicros

end EngineState

theorem registered_step (engine : AudioEngine) (op : EngineOp) :
    Registered engine.state.channels (op.step engine).state.channels (op.reports engine) := by
  cases op with
  | beginPeerSync =>
    refine .inl ⟨?_, rfl⟩
    simp only [EngineOp.step, AudioEngine.beginPeerSync]
    split <;> rfl
  | endPeerSync => exact .inr ⟨.prunePeerChannels [], rfl⟩
  | setIdentityAt epoch nodeId sessionId =>
    refine .inl ⟨?_, rfl⟩
    simp only [EngineOp.step, AudioEngine.setIdentityAt]
    split <;> rfl
  | sawLinkAudioEndpointAt epoch peerId endpoint =>
    refine .inl ⟨?_, rfl⟩
    simp only [EngineOp.step, AudioEngine.sawLinkAudioEndpointAt]
    split
    · cases endpoint with
      | none => rfl
      | some endpoint => dsimp only; split <;> rfl
    · rfl
  | updateSessionPeersAt epoch peers =>
    simp only [EngineOp.step, EngineOp.reports, AudioEngine.updateSessionPeersAt]
    split
    · exact .inr ⟨.prunePeerChannels peers, rfl⟩
    · exact .refl _
  | handleMessage epoch data source now nowMicros =>
    exact engine.handleMessage_cases
      (P := fun after changed => Registered engine.state.channels after.channels changed) (.refl _)
      (fun _ _ => engine.state.registered_dispatch ..) epoch data
  | process epoch now =>
    simp only [EngineOp.step, EngineOp.reports, AudioEngine.process]
    split
    · exact .refl _
    · exact .inr ⟨.pruneExpired now, rfl⟩
  | _ => exact .inl ⟨rfl, rfl⟩

namespace ChannelPublisher

variable {self : ChannelPublisher}

def Settled (self : ChannelPublisher) : Prop :=
  self.pending = 0 → self.apiChannels.Perm self.engine.state.channels.allChannels

theorem ordered_perm (state : EngineState) : (ordered state).Perm state.channels.allChannels := by
  have swapped := List.filter_append_perm
    (fun c : Channel => decide (c.sessionId = state.sessionId)) state.channels.allChannels
  simpa only [ordered, ne_eq, decide_not] using swapped

theorem apiChannels_publish : self.publish.apiChannels = ordered self.engine.state := by
  simp only [publish]
  split
  · assumption
  · rfl

theorem Settled.owe (h : self.Settled) {engine : AudioEngine} {changed : Bool}
    (registered : Registered self.engine.state.channels engine.state.channels changed) :
    (({ self with engine } : ChannelPublisher).owe changed).Settled := by
  cases changed with
  | true => exact fun none => nomatch none
  | false =>
    intro none
    change self.apiChannels.Perm engine.state.channels.allChannels
    rw [registered.allChannels]
    exact h none

theorem Settled.step (h : self.Settled) (op : PublisherOp) : (op.step self).Settled := by
  cases op with
  | engine op => exact h.owe (registered_step self.engine op)
  | registry op => exact h.owe (.inr ⟨op, rfl⟩)
  | publish =>
    intro _
    change self.publish.apiChannels.Perm self.engine.state.channels.allChannels
    rw [apiChannels_publish]
    exact ordered_perm self.engine.state

theorem settled_run (addr : UInt32) (nodeId : NodeId) (sessionId : SessionId)
    (ops : List PublisherOp) : (run PublisherOp.step (new addr nodeId sessionId) ops).Settled :=
  run_keeps (I := Settled) (fun _ op h => h.step op) ops fun _ => .nil

end ChannelPublisher

/-- The registry keeps its entries apart and reachable and reports every visible change; with no
publication pending, the application sees the registry's channels. -/
theorem channel_list_follows :
    (∀ ops : List ChannelsOp,
      let channels := run ChannelsOp.step .new ops
      (channels.channels.map Channels.key).Nodup ∧
      (∀ op : ChannelsOp, (op.apply channels).2 = false →
        (op.step channels).allChannels = channels.allChannels ∧
        ∀ sessionId, (op.step channels).sessionChannels sessionId =
          channels.sessionChannels sessionId) ∧
      ∀ channel ∈ channels.allChannels, (channels.channelEndpoint channel.id).isSome = true) ∧
    ∀ addr nodeId sessionId (ops : List PublisherOp),
      let publisher := run PublisherOp.step (.new addr nodeId sessionId) ops
      publisher.pending = 0 →
        publisher.apiChannels.Perm publisher.engine.state.channels.allChannels ∧
        (publisher.apiChannels.map Channel.id).Nodup := by
  constructor
  · intro ops channels
    have wellFormed := Channels.wellFormed_run ops
    exact ⟨wellFormed.keys,
      fun op unchanged => Channels.listed_congr (Channels.map_apply unchanged),
      fun channel listed => wellFormed.channelEndpoint listed⟩
  · intro addr nodeId sessionId ops publisher none
    have perm := ChannelPublisher.settled_run addr nodeId sessionId ops none
    exact ⟨perm, (perm.map Channel.id).nodup_iff.mpr (Channels.nodup_allChannels _)⟩

theorem channel_list_follows_takeover :
    let id := fun n : UInt8 => (⟨.replicate 8 n⟩ : NodeId)
    let saw := fun peer => PublisherOp.registry
      (.sawAnnouncement (id peer) "peer" ⟨id 9⟩ [⟨"drums", id 7⟩] 0 ⟨1, 20808⟩ 1.0 5 0)
    let publisher := run PublisherOp.step (.new 0 (id 1) ⟨id 2⟩) [saw 3, saw 4, .publish, .publish]
    publisher.apiChannels.Perm publisher.engine.state.channels.allChannels ∧
      publisher.apiChannels.map Channel.peerId = [id 4] := by
  intro id saw publisher
  have follows := channel_list_follows.2 0 (id 1) ⟨id 2⟩ [saw 3, saw 4, .publish, .publish]
    (by decide +kernel)
  exact ⟨follows.1, by decide +kernel⟩

end AbletonLink.Audio
