import AbletonLink.Audio.PeerSync
import AbletonLink.Library.Roster

/-! Rounds of peer synchronisation: when the peers audio is announced to are the ones Link
discovery advertises. -/

namespace AbletonLink.Audio

open Library Library.Bytes Library.Run Link

abbrev Discovered := List (NodeId × Option SocketAddrV4)

def syncRound (epoch : UInt64) (discovered : Discovered) : List EngineOp :=
  discovered.map (fun line => .sawLinkAudioEndpointAt epoch line.1 line.2) ++
    [.updateSessionPeersAt epoch (discovered.map Prod.fst)]

def EngineOp.touchesPeers : EngineOp → Bool
  | .beginPeerSync => true
  | .stopSharing => true
  | .endPeerSync => true
  | .sawLinkAudioEndpointAt _ _ _ => true
  | .updateSessionPeersAt _ _ => true
  | _ => false

/-- The writes of a round among whatever else happens meanwhile. -/
structure SyncRound (epoch : UInt64) where
  discovered : Discovered
  ops : List EngineOp
  distinct : Roster.Distinct discovered
  writes : ops.filter EngineOp.touchesPeers = syncRound epoch discovered

def SyncRound.alone (epoch : UInt64) {discovered : Discovered}
    (distinct : Roster.Distinct discovered) : SyncRound epoch where
  discovered
  ops := syncRound epoch discovered
  distinct
  writes := by
    refine List.filter_eq_self.mpr fun op write => ?_
    rcases List.mem_append.mp write with line | last
    · obtain ⟨line, -, rfl⟩ := List.mem_map.mp line
      rfl
    · rw [List.mem_singleton.mp last]
      rfl

namespace EngineState

variable (state : EngineState)

def roster : List (NodeId × SocketAddrV4) := state.peers.map fun p => (p.peerId, p.endpoint)

def announceTo : List SocketAddrV4 := state.peers.map PeerReceiver.endpoint

def accepts (source : SocketAddrV4) : Bool :=
  (state.peers.find? fun p => p.endpoint = source).isSome

/-- The peers are the advertised endpoints, for what is sent and for what is received. -/
structure Follows (discovered : Discovered) : Prop where
  peers : state.roster.Perm (Roster.advertised discovered)
  sent : ∀ endpoint, endpoint ∈ state.announceTo ↔ ∃ peer, (peer, some endpoint) ∈ discovered
  accepted : ∀ source, state.accepts source = true ↔ ∃ peer, (peer, some source) ∈ discovered

theorem follows_iff {discovered : Discovered} :
    state.Follows discovered ↔ state.roster.Perm (Roster.advertised discovered) := by
  refine ⟨Follows.peers, fun perm => ?_⟩
  have listed (endpoint : SocketAddrV4) :
      (∃ p ∈ state.peers, p.endpoint = endpoint) ↔
        ∃ peer, (peer, some endpoint) ∈ discovered := by
    have known : (∃ p ∈ state.peers, p.endpoint = endpoint) ↔
        ∃ peer, (peer, endpoint) ∈ state.roster := by
      simp [roster]
    simp only [known, perm.mem_iff, Roster.mem_advertised]
  exact
    { peers := perm
      sent := fun endpoint => by rw [announceTo, List.mem_map, listed]
      accepted := fun source => by
        rw [accepts, List.find?_isSome, ← listed]
        simp }

theorem roster_receivePong (payload : Bytes) (source : SocketAddrV4) (nowMicros : Int64) :
    (state.receivePong payload source nowMicros).roster = state.roster := by
  unfold receivePong
  split
  · rfl
  · dsimp only
    split
    · rfl
    next found => exact map_replaceFirst found rfl

theorem roster_congr {after : EngineState} (same : after.peers = state.peers) :
    after.roster = state.roster := by
  rw [roster, same]
  rfl

theorem roster_dispatch (header : MessageHeader) (payload : Bytes) (source : SocketAddrV4)
    (now : Instant) (nowMicros : Int64) :
    (state.dispatch header payload source now nowMicros).1.roster = state.roster :=
  state.dispatch_cases (P := fun after _ => after.roster = state.roster) rfl
    (fun _ _ _ _ _ => state.roster_congr (state.peers_receiveAnnouncement ..))
    (fun _ => state.roster_congr (state.peers_receiveChannelByes _))
    (fun _ _ _ => state.roster_receivePong ..)
    (fun _ _ => state.roster_congr (state.updateSink_frame ..).1)
    (fun _ => state.roster_congr (state.receiveAudioBuffer_frame _).1) header payload source now
    nowMicros

end EngineState

namespace AudioEngine

variable {engine : AudioEngine} {epoch : UInt64}

theorem epochIsCurrent_of_gates {after : AudioEngine} (same : after.gates = engine.gates)
    (epoch : UInt64) : after.epochIsCurrent epoch = engine.epochIsCurrent epoch := by
  simp only [gates, Prod.mk.injEq] at same
  rw [epochIsCurrent, epochIsCurrent, same.2.1, same.2.2.1, same.2.2.2]

theorem step_of_not_touchesPeers {op : EngineOp} (quiet : op.touchesPeers = false) :
    (op.step engine).state.roster = engine.state.roster ∧
      ∀ epoch, (op.step engine).epochIsCurrent epoch = engine.epochIsCurrent epoch := by
  cases op with
  | setIdentityAt epoch nodeId sessionId =>
    refine ⟨?_, epochIsCurrent_of_gates (engine.gates_setIdentityAt ..)⟩
    simp only [EngineOp.step, setIdentityAt]
    split <;> rfl
  | handleMessage epoch data source now nowMicros =>
    refine ⟨?_, epochIsCurrent_of_gates (engine.gates_handleMessage ..)⟩
    exact engine.handleMessage_cases (P := fun after _ => after.roster = engine.state.roster) rfl
      (fun _ _ => engine.state.roster_dispatch ..) epoch data
  | process epoch now =>
    refine ⟨?_, epochIsCurrent_of_gates (engine.gates_process ..)⟩
    simp only [EngineOp.step, process]
    split <;> rfl
  | beginPeerSync => cases quiet
  | stopSharing => cases quiet
  | endPeerSync => cases quiet
  | sawLinkAudioEndpointAt epoch peerId endpoint => cases quiet
  | updateSessionPeersAt epoch peers => cases quiet
  | _ => exact ⟨rfl, fun _ => rfl⟩

theorem roster_sawLinkAudioEndpointAt (current : engine.epochIsCurrent epoch = true)
    (peerId : NodeId) (endpoint : Option SocketAddrV4) :
    (engine.sawLinkAudioEndpointAt epoch peerId endpoint).state.roster =
      Roster.saw engine.state.roster (peerId, endpoint) := by
  unfold sawLinkAudioEndpointAt
  rw [if_pos current]
  cases endpoint with
  | some endpoint =>
    have taken : (engine.state.roster.any fun p => p.2 = endpoint) =
        engine.state.peers.any fun p => p.endpoint = endpoint := List.any_map
    simp only [Roster.saw, taken]
    split
    · rfl
    · simp [EngineState.roster]
  | none => simp [Roster.saw, EngineState.roster, List.filter_map, Function.comp_def]

theorem roster_updateSessionPeersAt (current : engine.epochIsCurrent epoch = true)
    (peers : List NodeId) :
    (engine.updateSessionPeersAt epoch peers).1.state.roster =
      engine.state.roster.filter fun p => peers.contains p.1 := by
  rw [updateSessionPeersAt, if_pos current]
  simp [EngineState.prunePeers, EngineState.roster, List.filter_map, Function.comp_def]

theorem nodup_roster_step (op : EngineOp) (h : (engine.state.roster.map Prod.snd).Nodup) :
    ((op.step engine).state.roster.map Prod.snd).Nodup := by
  cases quiet : op.touchesPeers with
  | false => rwa [(step_of_not_touchesPeers quiet).1]
  | true =>
    cases op with
    | beginPeerSync =>
      simp only [EngineOp.step, beginPeerSync]
      split <;> exact h
    | stopSharing => exact h
    | endPeerSync =>
      have none_left : engine.endPeerSync.1.state.roster = [] :=
        congrArg (List.map _) engine.state.withdrawn_prunePeers.peers
      simp only [EngineOp.step, none_left, List.map_nil, List.nodup_nil]
    | sawLinkAudioEndpointAt epoch peerId endpoint =>
      cases current : engine.epochIsCurrent epoch with
      | true =>
        rw [EngineOp.step, roster_sawLinkAudioEndpointAt current]
        exact Roster.nodup_saw h _
      | false => simpa [EngineOp.step, sawLinkAudioEndpointAt, current] using h
    | updateSessionPeersAt epoch peers =>
      cases current : engine.epochIsCurrent epoch with
      | true =>
        rw [EngineOp.step, roster_updateSessionPeersAt current]
        exact h.sublist (List.filter_sublist.map _)
      | false => simpa [EngineOp.step, updateSessionPeersAt, current] using h
    | _ => cases quiet

structure Synced (engine : AudioEngine) (epoch : UInt64) (roster : List (NodeId × SocketAddrV4)) :
    Prop where
  current : engine.epochIsCurrent epoch = true
  roster : engine.state.roster = roster

variable {roster : List (NodeId × SocketAddrV4)}

theorem Synced.quiet (h : engine.Synced epoch roster) {op : EngineOp}
    (quiet : op.touchesPeers = false) : (op.step engine).Synced epoch roster :=
  have same := @step_of_not_touchesPeers engine op quiet
  ⟨(same.2 epoch).trans h.current, same.1.trans h.roster⟩

theorem Synced.saw (h : engine.Synced epoch roster) (line : NodeId × Option SocketAddrV4) :
    (EngineOp.step engine (.sawLinkAudioEndpointAt epoch line.1 line.2)).Synced epoch
      (Roster.saw roster line) where
  current :=
    (epochIsCurrent_of_gates (engine.gates_sawLinkAudioEndpointAt ..) epoch).trans h.current
  roster := h.roster ▸ roster_sawLinkAudioEndpointAt h.current line.1 line.2

theorem Synced.update (h : engine.Synced epoch roster) (peers : List NodeId) :
    (EngineOp.step engine (.updateSessionPeersAt epoch peers)).Synced epoch
      (roster.filter fun p => peers.contains p.1) where
  current :=
    (epochIsCurrent_of_gates (engine.gates_updateSessionPeersAt ..) epoch).trans h.current
  roster := h.roster ▸ roster_updateSessionPeersAt h.current peers

theorem Synced.run_quiet (h : engine.Synced epoch roster) {ops : List EngineOp}
    (quiet : ops.filter EngineOp.touchesPeers = []) :
    (run EngineOp.step engine ops).Synced epoch roster :=
  run_invariant (P := fun _ op => op.touchesPeers = false)
    (I := fun engine : AudioEngine => engine.Synced epoch roster) (fun _ _ h quiet => h.quiet quiet)
    h (along_of_mem (fun op mem => by simpa using List.filter_eq_nil_iff.mp quiet op mem) engine)

theorem Synced.run_writes (h : engine.Synced epoch roster) {ops : List EngineOp}
    {lines : Discovered} {peers : List NodeId}
    (writes : ops.filter EngineOp.touchesPeers =
      lines.map (fun line => .sawLinkAudioEndpointAt epoch line.1 line.2) ++
        [.updateSessionPeersAt epoch peers]) :
    (run EngineOp.step engine ops).Synced epoch
      ((lines.foldl Roster.saw roster).filter fun p => peers.contains p.1) := by
  induction ops generalizing engine roster lines with
  | nil => simp at writes
  | cons op ops ih =>
    cases quiet : op.touchesPeers with
    | false =>
      rw [List.filter_cons_of_neg (by simp [quiet])] at writes
      exact ih (h.quiet quiet) writes
    | true =>
      rw [List.filter_cons_of_pos quiet] at writes
      cases lines with
      | nil =>
        obtain ⟨rfl, rest⟩ := List.cons.inj writes
        exact (h.update peers).run_quiet rest
      | cons line lines =>
        obtain ⟨rfl, rest⟩ := List.cons.inj writes
        exact ih (h.saw line) rest

theorem Synced.run_round (h : engine.Synced epoch roster) (round : SyncRound epoch) :
    (run EngineOp.step engine round.ops).Synced epoch (Roster.round roster round.discovered) :=
  h.run_writes round.writes

theorem Synced.run_rounds (h : engine.Synced epoch roster) (rounds : List (SyncRound epoch)) :
    (run EngineOp.step engine (rounds.flatMap SyncRound.ops)).Synced epoch
      ((rounds.map SyncRound.discovered).foldl Roster.round roster) := by
  induction rounds generalizing engine roster with
  | nil => exact h
  | cons round rounds ih =>
    rw [List.flatMap_cons, run_append]
    exact ih (h.run_round round)

/-- Whatever the engine has been through, every round of an epoch leaves the peers that discovery
advertises exactly when the rounds are clean: in none of them does a peer change its endpoint
directly, or hand it to a peer other than one that comes after it has withdrawn it. -/
theorem rounds_followed_iff (addr : UInt32) (nodeId : NodeId) (sessionId : SessionId)
    (before : List EngineOp) (epoch : UInt64) (rounds : List (SyncRound epoch)) :
    let engine := run EngineOp.step (new addr nodeId sessionId) before
    engine.epochIsCurrent epoch = true →
    ((∀ (done : List (SyncRound epoch)) round, done ++ [round] <+: rounds →
      (run EngineOp.step engine ((done ++ [round]).flatMap SyncRound.ops)).state.Follows
        round.discovered) ↔
      Roster.CleanRun engine.state.roster (rounds.map SyncRound.discovered)) := by
  intro engine current
  have nodup : (engine.state.roster.map Prod.snd).Nodup :=
    run_keeps (I := fun engine : AudioEngine => (engine.state.roster.map Prod.snd).Nodup)
      (fun _ op h => nodup_roster_step op h) before (by simp [new, EngineState.roster])
  have synced : engine.Synced epoch engine.state.roster := ⟨current, rfl⟩
  have distinct : ∀ s ∈ rounds.map SyncRound.discovered, Roster.Distinct s := by
    intro s member
    obtain ⟨round, -, rfl⟩ := List.mem_map.mp member
    exact round.distinct
  have followed (done : List (SyncRound epoch)) (round : SyncRound epoch) :
      (run EngineOp.step engine ((done ++ [round]).flatMap SyncRound.ops)).state.Follows
          round.discovered ↔
        (Roster.round ((done.map SyncRound.discovered).foldl Roster.round engine.state.roster)
          round.discovered).Perm (Roster.advertised round.discovered) := by
    rw [EngineState.follows_iff, (synced.run_rounds (done ++ [round])).roster, List.map_append,
      List.foldl_append]
    rfl
  rw [← Roster.rounds_perm_iff nodup distinct]
  constructor
  · intro all done discovered shorter
    obtain ⟨rest, split⟩ := shorter
    obtain ⟨front, back, rfl, heads, -⟩ := List.map_eq_append_iff.mp split.symm
    obtain ⟨done, last, rfl, rfl, single⟩ := List.map_eq_append_iff.mp heads
    obtain ⟨round, rfl, rfl⟩ := List.map_eq_singleton_iff.mp single
    exact (followed done round).mp (all done round (List.prefix_append ..))
  · rintro all done round ⟨rest, rfl⟩
    refine (followed done round).mpr (all _ _ ⟨rest.map SyncRound.discovered, ?_⟩)
    simp

theorem rounds_followed_iff_passed :
    let id := fun n : UInt8 => (⟨.replicate 8 n⟩ : NodeId)
    let first : Discovered := [(id 3, some ⟨1, 20808⟩), (id 4, none)]
    let second : Discovered := [(id 3, none), (id 4, some ⟨1, 20808⟩)]
    let engine := new 0 (id 1) ⟨id 2⟩
    (run EngineOp.step engine (syncRound 1 first)).state.Follows first ∧
      (run EngineOp.step engine
        (syncRound 1 first ++ syncRound 1 second)).state.Follows second := by
  intro id first second engine
  have distinct : Roster.Distinct first := ⟨by decide +kernel, by decide +kernel⟩
  have distinct' : Roster.Distinct second := ⟨by decide +kernel, by decide +kernel⟩
  let opening := SyncRound.alone 1 distinct
  let passing := SyncRound.alone 1 distinct'
  have other : id 4 ≠ id 3 := by decide +kernel
  have clean : Roster.CleanRun engine.state.roster [first, second] := by
    refine ⟨⟨fun _ _ _ none => ?_, fun _ _ _ none => ?_⟩, ⟨?_, ?_⟩, trivial⟩
    · exact absurd none List.not_mem_nil
    · exact absurd none List.not_mem_nil
    · intro peer endpoint fresh held line
      obtain ⟨rfl, rfl⟩ : peer = id 3 ∧ endpoint = ⟨1, 20808⟩ := by
        simpa [Roster.mem_advertised, first] using held
      simp [second, other.symm] at line
    · intro holder peer endpoint held line
      obtain ⟨rfl, rfl⟩ : holder = id 3 ∧ endpoint = ⟨1, 20808⟩ := by
        simpa [Roster.mem_advertised, first] using held
      obtain rfl : peer = id 4 := by simpa [second] using line
      refine .inr ⟨[(id 3, none)], [], rfl, fun holder held => ?_⟩
      obtain rfl : holder = id 3 := by simpa [Roster.mem_advertised, first] using held
      exact List.mem_singleton_self _
  have followed :=
    (rounds_followed_iff 0 (id 1) ⟨id 2⟩ [] 1 [opening, passing] (by decide +kernel)).mpr clean
  exact ⟨followed [] opening ⟨[passing], rfl⟩, followed [opening] passing ⟨[], rfl⟩⟩

theorem moved_endpoint_kept :
    let id := fun n : UInt8 => (⟨.replicate 8 n⟩ : NodeId)
    let first : Discovered := [(id 3, some ⟨1, 20808⟩)]
    let second : Discovered := [(id 3, some ⟨1, 20809⟩)]
    let engine := run EngineOp.step (new 0 (id 1) ⟨id 2⟩) (syncRound 1 first)
    engine.epochIsCurrent 1 = true ∧ Roster.Distinct second ∧
      (run EngineOp.step engine (syncRound 1 second)).state.accepts ⟨1, 20808⟩ = true ∧
      ¬(run EngineOp.step engine (syncRound 1 second)).state.Follows second := by
  intro id first second engine
  have kept : (run EngineOp.step engine (syncRound 1 second)).state.accepts ⟨1, 20808⟩ = true := by
    decide +kernel
  refine ⟨by decide +kernel, ⟨by decide +kernel, by decide +kernel⟩, kept, fun followed => ?_⟩
  obtain ⟨peer, line⟩ := (followed.accepted _).mp kept
  simp [second] at line

end AudioEngine

end AbletonLink.Audio
