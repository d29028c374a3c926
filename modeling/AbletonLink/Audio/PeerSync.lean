import AbletonLink.Audio.Engine

/-! Epochs fence the writes of the audio engine.  What an earlier run of peer synchronisation
sends late is discarded, whichever of the three variables of the guard it is checked against. -/

namespace AbletonLink.Audio

open Library Library.Bytes Library.Run Link

def EngineOp.epoch : EngineOp → Option UInt64
  | .setIdentityAt epoch _ _ => some epoch
  | .sawLinkAudioEndpointAt epoch _ _ => some epoch
  | .updateSessionPeersAt epoch _ => some epoch
  | .handleMessage epoch _ _ _ _ => some epoch
  | .process epoch _ => some epoch
  | _ => none

def SinkEntry.Silent (entry : SinkEntry) : Prop :=
  entry.receivers = .new ∧ entry.sink.isConnected = false

@[simp] theorem SinkEntry.silent_setReceivers_new (entry : SinkEntry) :
    (entry.setReceivers .new).Silent := ⟨rfl, rfl⟩

/-- No peer, no channel and no receiver, under the given identity. -/
structure EngineState.Withdrawn (state : EngineState) (nodeId : NodeId) (sessionId : SessionId) :
    Prop where
  peers : state.peers = []
  channels : state.channels = .new
  silent : ∀ entry ∈ state.sinks, entry.Silent
  nodeId : state.nodeId = nodeId
  sessionId : state.sessionId = sessionId

theorem EngineState.withdrawn_prunePeers (state : EngineState) :
    (state.discardSinkBuffers.prunePeers []).1.Withdrawn state.nodeId state.sessionId where
  peers := by simp [prunePeers]
  channels := by simp [prunePeers]
  silent := by
    intro entry mem
    simp only [prunePeers, List.mem_map, Receivers.retainPeers_nil] at mem
    obtain ⟨entry, -, rfl⟩ := mem
    simp
  nodeId := rfl
  sessionId := rfl

namespace AudioEngine

variable (engine : AudioEngine)

def gates : Option UInt64 × UInt64 × Bool × Bool :=
  (engine.sendEpoch, engine.syncEpoch, engine.sharingActive, engine.shutdown)

@[simp] theorem gates_setIdentityAt (epoch : UInt64) (nodeId : NodeId) (sessionId : SessionId) :
    (engine.setIdentityAt epoch nodeId sessionId).gates = engine.gates := by
  unfold setIdentityAt
  split <;> rfl

@[simp] theorem gates_sawLinkAudioEndpointAt (epoch : UInt64) (peerId : NodeId)
    (endpoint : Option SocketAddrV4) :
    (engine.sawLinkAudioEndpointAt epoch peerId endpoint).gates = engine.gates := by
  unfold sawLinkAudioEndpointAt
  split
  · cases endpoint with
    | none => rfl
    | some endpoint => simp only; split <;> rfl
  · rfl

@[simp] theorem gates_updateSessionPeersAt (epoch : UInt64) (peers : List NodeId) :
    (engine.updateSessionPeersAt epoch peers).1.gates = engine.gates := by
  unfold updateSessionPeersAt
  split <;> rfl

@[simp] theorem gates_handleMessage (epoch : UInt64) (data : Bytes) (source : SocketAddrV4)
    (now : Instant) (nowMicros : Int64) :
    (engine.handleMessage epoch data source now nowMicros).1.gates = engine.gates := by
  unfold handleMessage
  split
  · rfl
  · split
    · rfl
    · split <;> rfl

@[simp] theorem gates_process (epoch : UInt64) (now : Instant) :
    (engine.process epoch now).1.gates = engine.gates := by
  unfold process
  split <;> rfl

theorem gates_step_of_epoch {op : EngineOp} {epoch : UInt64} (quoted : op.epoch = some epoch) :
    (op.step engine).gates = engine.gates := by
  cases op with
  | setIdentityAt epoch nodeId sessionId => simp [EngineOp.step]
  | sawLinkAudioEndpointAt epoch peerId endpoint => simp [EngineOp.step]
  | updateSessionPeersAt epoch peers => simp [EngineOp.step]
  | handleMessage epoch data source now nowMicros => simp [EngineOp.step]
  | process epoch now => simp [EngineOp.step]
  | _ => cases quoted

theorem epochIsCurrent_liveEpoch :
    engine.epochIsCurrent engine.liveEpoch = (engine.sharingActive && !engine.shutdown) := by
  cases sharing : engine.sharingActive with
  | false => simp [epochIsCurrent, sharing]
  | true =>
    cases down : engine.shutdown with
    | false => simp [epochIsCurrent, liveEpoch, sharing, down]
    | true => simp [epochIsCurrent, sharing, down]

theorem step_eq_self {engine : AudioEngine} {op : EngineOp} {epoch : UInt64}
    (quoted : op.epoch = some epoch) (ended : engine.epochIsCurrent epoch = false)
    (muted : engine.sendEpoch ≠ some epoch) : op.step engine = engine := by
  cases op with
  | setIdentityAt quotedEpoch nodeId sessionId =>
    cases quoted
    simp [EngineOp.step, setIdentityAt, ended]
  | sawLinkAudioEndpointAt quotedEpoch peerId endpoint =>
    cases quoted
    simp [EngineOp.step, sawLinkAudioEndpointAt, ended]
  | updateSessionPeersAt quotedEpoch peers =>
    cases quoted
    simp [EngineOp.step, updateSessionPeersAt, ended]
  | handleMessage quotedEpoch data source now nowMicros =>
    cases quoted
    simp only [EngineOp.step, handleMessage, if_pos muted]
    split <;> rfl
  | process quotedEpoch now =>
    cases quoted
    simp [EngineOp.step, process, muted]
  | _ => cases quoted

/-- Peer synchronisation has ended, and the session is forgotten but for the identity. -/
structure Paused (nodeId : NodeId) (sessionId : SessionId) : Prop where
  sharing : engine.sharingActive = false
  sending : engine.sendEpoch = none
  withdrawn : engine.state.Withdrawn nodeId sessionId

theorem paused_endPeerSync :
    engine.endPeerSync.1.Paused engine.state.nodeId engine.state.sessionId :=
  ⟨rfl, rfl, engine.state.withdrawn_prunePeers⟩

variable {engine} {nodeId : NodeId} {sessionId : SessionId}

theorem Paused.setSinks (h : engine.Paused nodeId sessionId) {sinks : List SinkEntry}
    (silent : ∀ entry ∈ sinks, entry.Silent) :
    { engine with state := { engine.state with sinks } }.Paused nodeId sessionId :=
  { h with withdrawn := { h.withdrawn with silent } }

theorem Paused.step (h : engine.Paused nodeId sessionId) {op : EngineOp}
    (stays : op ≠ .beginPeerSync) : (op.step engine).Paused nodeId sessionId := by
  have late {epoch : UInt64} (quoted : op.epoch = some epoch) : op.step engine = engine :=
    step_eq_self quoted (by simp [epochIsCurrent, h.sharing]) (by simp [h.sending])
  cases op with
  | addSink id name =>
    refine h.setSinks fun entry mem => ?_
    rcases List.mem_append.mp mem with old | new
    · exact h.withdrawn.silent entry old
    · rw [List.mem_singleton.mp new]
      exact ⟨rfl, rfl⟩
  | removeSink id =>
    exact h.setSinks fun entry mem => h.withdrawn.silent entry (List.mem_filter.mp mem).1
  | addSource channelId => exact { h with withdrawn := { h.withdrawn with } }
  | removeSource channelId => exact { h with withdrawn := { h.withdrawn with } }
  | releaseBuffer id buffer =>
    refine h.setSinks fun entry mem => ?_
    obtain ⟨entry, old, rfl⟩ := List.mem_map.mp mem
    have silent := h.withdrawn.silent entry old
    split
    · exact silent
    · exact silent
  | beginPeerSync => exact absurd rfl stays
  | stopSharing => exact { h with sharing := rfl }
  | stopSending => exact { h with sending := rfl }
  | endPeerSync =>
    have again := engine.paused_endPeerSync
    rwa [h.withdrawn.nodeId, h.withdrawn.sessionId] at again
  | setIdentityAt epoch nodeId sessionId => rwa [late rfl]
  | sawLinkAudioEndpointAt epoch peerId endpoint => rwa [late rfl]
  | updateSessionPeersAt epoch peers => rwa [late rfl]
  | handleMessage epoch data source now nowMicros => rwa [late rfl]
  | process epoch now => rwa [late rfl]

structure Fenced (engine : AudioEngine) (epoch : UInt64) : Prop where
  sync : engine.syncEpoch = epoch
  send : engine.sendEpoch = none ∨ engine.sendEpoch = some epoch

variable {epoch : UInt64}

theorem Fenced.of_gates {after : AudioEngine} (h : engine.Fenced epoch)
    (same : after.gates = engine.gates) : after.Fenced epoch := by
  simp only [gates, Prod.mk.injEq] at same
  exact ⟨same.2.1.trans h.sync, by rw [same.1]; exact h.send⟩

theorem fenced_beginPeerSync (running : engine.shutdown = false) :
    engine.beginPeerSync.1.Fenced engine.beginPeerSync.2 := by
  rw [beginPeerSync, if_neg (by simp [running])]
  exact ⟨rfl, .inr rfl⟩

theorem Fenced.step (h : engine.Fenced epoch) {op : EngineOp} (noBegin : op ≠ .beginPeerSync)
    (noEnd : op ≠ .endPeerSync) : (op.step engine).Fenced epoch := by
  cases quoted : op.epoch with
  | some quotedEpoch => exact h.of_gates (engine.gates_step_of_epoch quoted)
  | none =>
    cases op with
    | beginPeerSync => exact absurd rfl noBegin
    | endPeerSync => exact absurd rfl noEnd
    | stopSending => exact ⟨h.sync, .inl rfl⟩
    | addSink id name => exact ⟨h.sync, h.send⟩
    | removeSink id => exact ⟨h.sync, h.send⟩
    | addSource channelId => exact ⟨h.sync, h.send⟩
    | removeSource channelId => exact ⟨h.sync, h.send⟩
    | releaseBuffer id buffer => exact ⟨h.sync, h.send⟩
    | stopSharing => exact ⟨h.sync, h.send⟩
    | _ => cases quoted

theorem Fenced.step_eq_self (h : engine.Fenced epoch) {op : EngineOp} {other : UInt64}
    (quoted : op.epoch = some other) (stale : other ≠ epoch) : op.step engine = engine := by
  refine AudioEngine.step_eq_self quoted ?_ ?_
  · simp [epochIsCurrent, h.sync, stale.symm]
  · rcases h.send with muted | sent
    · simp [muted]
    · simp [sent, stale.symm]

theorem shutdown_step (op : EngineOp) : (op.step engine).shutdown = engine.shutdown := by
  cases quoted : op.epoch with
  | some epoch =>
    have same := engine.gates_step_of_epoch quoted
    simp only [gates, Prod.mk.injEq] at same
    exact same.2.2.2
  | none =>
    cases op with
    | beginPeerSync =>
      simp only [EngineOp.step, beginPeerSync]
      split <;> rfl
    | _ => first | rfl | cases quoted

theorem shutdown_run (ops : List EngineOp) :
    (run EngineOp.step engine ops).shutdown = engine.shutdown :=
  run_keeps (I := fun other : AudioEngine => other.shutdown = engine.shutdown)
    (fun _ op same => (shutdown_step op).trans same) ops rfl

theorem paused_run (h : engine.Paused nodeId sessionId) {ops : List EngineOp}
    (stays : ∀ op ∈ ops, op ≠ .beginPeerSync) :
    (run EngineOp.step engine ops).Paused nodeId sessionId :=
  run_invariant (I := fun engine : AudioEngine => engine.Paused nodeId sessionId)
    (fun _ _ paused stays => paused.step stays) h (along_of_mem stays engine)

theorem fenced_run (h : engine.Fenced epoch) {ops : List EngineOp}
    (stays : ∀ op ∈ ops, op ≠ .beginPeerSync ∧ op ≠ .endPeerSync) :
    (run EngineOp.step engine ops).Fenced epoch :=
  run_invariant (I := fun engine : AudioEngine => engine.Fenced epoch)
    (fun _ _ fenced stays => fenced.step stays.1 stays.2) h (along_of_mem stays engine)

/-- Whatever is delivered late, an ended synchronisation stays withdrawn until the next one
begins, and a synchronisation hears only its own epoch. -/
theorem late_writes_discarded (addr : UInt32) (nodeId : NodeId) (sessionId : SessionId)
    (before after : List EngineOp) :
    let engine := run EngineOp.step (new addr nodeId sessionId) before
    ((∀ op ∈ after, op ≠ .beginPeerSync) →
      (run EngineOp.step engine.endPeerSync.1 after).state.Withdrawn engine.state.nodeId
        engine.state.sessionId) ∧
    ((∀ op ∈ after, op ≠ .beginPeerSync ∧ op ≠ .endPeerSync) →
      ∀ (op : EngineOp) (epoch : UInt64), op.epoch = some epoch → epoch ≠ engine.beginPeerSync.2 →
        op.step (run EngineOp.step engine.beginPeerSync.1 after) =
          run EngineOp.step engine.beginPeerSync.1 after) := by
  intro engine
  constructor
  · intro paused
    exact (paused_run engine.paused_endPeerSync paused).withdrawn
  · intro within op epoch quoted stale
    have running : engine.shutdown = false := shutdown_run before
    exact (fenced_run (fenced_beginPeerSync running) within).step_eq_self quoted stale

theorem late_writes_discarded_request :
    let id := fun n : UInt8 => (⟨.replicate 8 n⟩ : NodeId)
    let engine :=
      run EngineOp.step (new 0 (id 1) ⟨id 2⟩) [.addSink (id 3) "drums", .beginPeerSync]
    let request := protocolHeader ++ [typeChannelRequest, 5, 0, 0] ++ List.replicate 8 4 ++
      [0x63, 0x68, 0x69, 0x64, 0, 0, 0, 8] ++ List.replicate 8 3
    let late : List EngineOp :=
      [.handleMessage 2 request ⟨0, 20808⟩ 0 0, .setIdentityAt 2 (id 5) ⟨id 6⟩]
    (run EngineOp.step engine.endPeerSync.1 late).state.Withdrawn engine.state.nodeId
        engine.state.sessionId ∧
      EngineOp.step (run EngineOp.step engine.beginPeerSync.1 late)
          (.handleMessage 2 request ⟨0, 20808⟩ 0 0) =
        run EngineOp.step engine.beginPeerSync.1 late ∧
      (engine.handleMessage 2 request ⟨0, 20808⟩ 0 0).1.state.sinks.map
        (fun entry => entry.sink.isConnected) = [true] := by
  intro id engine request late
  obtain ⟨ended, begun⟩ :=
    late_writes_discarded 0 (id 1) ⟨id 2⟩ [.addSink (id 3) "drums", .beginPeerSync] late
  exact ⟨ended (by simp [late]), begun (by simp [late]) _ 2 rfl (by decide), by decide⟩

end AudioEngine

end AbletonLink.Audio
