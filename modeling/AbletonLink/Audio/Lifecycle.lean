import AbletonLink.Audio.PeerSync
import AbletonLink.Link.Dispatch
import AbletonLink.Link.NodeLaws

/-! Enabling and disabling Link and the sharing of audio.  The calls borrow Link mutably, so one at
most is in progress, and its future may be dropped wherever it awaits. -/

namespace AbletonLink.Link

namespace DispatchGate

def prepare (gate : DispatchGate) : DispatchGate :=
  if gate.isOpen then gate
  else { gate with epoch := gate.nextEpoch }.sendReplace (.preparing gate.nextEpoch)

def openPrepared (gate : DispatchGate) : DispatchGate :=
  if gate.isOpen then gate else gate.sendReplace .opened

end DispatchGate

theorem Dispatch.startStep_prepare {T : Type*} (s : Dispatch T) (i : Nat)
    (checked : s.starts i = .checked) (closed : s.gate.isOpen = false) :
    ((s.startStep i).startStep i).gate = s.gate.prepare := by
  have bumped : s.startStep i =
      { s with gate := { s.gate with epoch := s.gate.nextEpoch } }.startAt i
        (.bumped s.gate.nextEpoch) := by
    unfold startStep
    rw [checked]
  have here : (s.startStep i).starts i = .bumped s.gate.nextEpoch := by
    rw [bumped]
    exact Function.update_self ..
  unfold DispatchGate.prepare
  rw [closed, bumped]
  rw [bumped] at here
  unfold startStep
  rw [here]
  rfl

theorem Dispatch.startStep_openPrepared {T : Type*} (s : Dispatch T) (i epoch : Nat)
    (opening : s.starts i = .opening epoch) :
    (s.startStep i).gate.active = s.gate.openPrepared.active := by
  unfold startStep
  rw [opening]
  unfold DispatchGate.openPrepared
  cases opened : s.gate.isOpen with
  | true => exact (of_decide_eq_true opened).symm
  | false => rfl

end AbletonLink.Link

namespace AbletonLink.Audio

open Library.Run Link

/-- Where a call awaits: `checking` and `disabling` the flag, `stopping..` the work in flight behind
a gate, `starting..` the subscribers of one.  `enable` says on whose behalf. -/
inductive LifecycleAt
  | checking
  | disabling
  | stoppingMeasurement (enable : Bool)
  | stoppingDiscovery (enable : Bool)
  | clearingTimeouts (enable : Bool)
  | stoppingDispatch (enable : Bool)
  | clearingCount (enable : Bool)
  | clearingPeers
  | resetting (enable : Bool)
  | startingMeasurement
  | startingDispatch
  | startingDiscovery
  | windingDown
  deriving DecidableEq

/-- `measurement`, `discovery` and `dispatch` are the gates of the controller's stages, `syncTask`
is the epoch that the task for the peers runs in.  `settled` is what the last call asked of Link,
and none since one began that did not return. -/
structure LinkAudio where
  commit : SessionCommit
  enabled : Bool
  measurement : DispatchGate
  discovery : DispatchGate
  dispatch : DispatchGate
  listening : Bool
  engine : AudioEngine
  endpoint : SocketAddrV4
  syncTask : Option UInt64
  audioEnabledByUser : Bool
  place : Option LifecycleAt
  settled : Option Bool

inductive LifecycleCall
  | enable
  | disable
  | enableLinkAudio (enable : Bool)

inductive LifecycleTurn
  | ready (clock : Clock) (fresh : NodeId)
  | blocked
  | drop

inductive LifecycleOp
  | call (call : LifecycleCall)
  | turn (turn : LifecycleTurn)
  | session (op : Op)
  | engine (op : EngineOp)

namespace LinkAudio

def new (commit : SessionCommit) (measurement discovery dispatch : DispatchGate)
    (engine : AudioEngine) (endpoint : SocketAddrV4) : LinkAudio where
  commit := { commit with peer := { commit.peer with audioEndpoint := none } }
  enabled := false
  measurement := measurement
  discovery := discovery
  dispatch := dispatch
  listening := false
  engine := engine.endPeerSync.1
  endpoint := endpoint
  syncTask := none
  audioEnabledByUser := false
  place := none
  settled := none

def setAudioEndpoint (s : LinkAudio) (endpoint : Option SocketAddrV4) : LinkAudio :=
  { s with commit := { s.commit with peer := { s.commit.peer with audioEndpoint := endpoint } } }

def stopAudioSharing (s : LinkAudio) : LinkAudio :=
  { s.setAudioEndpoint none with syncTask := none, engine := s.engine.endPeerSync.1 }

def updateIsLinkAudioEnabled (s : LinkAudio) : LinkAudio :=
  let shouldBeEnabled := s.audioEnabledByUser && s.enabled
  if shouldBeEnabled = s.syncTask.isSome then s
  else if shouldBeEnabled then
    let (engine, epoch) := s.engine.beginPeerSync
    { s.setAudioEndpoint (some s.endpoint) with engine, syncTask := some epoch }
  else s.stopAudioSharing

def settle (s : LinkAudio) (enable : Bool) : LinkAudio :=
  { s with place := none, settled := some enable }

def advance (s : LinkAudio) (clock : Clock) (fresh : NodeId) : LifecycleAt → LinkAudio
  | .checking =>
    if s.enabled then s.updateIsLinkAudioEnabled.settle true
    else
      { s with measurement := s.measurement.close, place := some (.stoppingMeasurement true) }
  | .disabling =>
    { s with
      enabled := false
      measurement := s.measurement.close
      place := some (.stoppingMeasurement false) }
  | .stoppingMeasurement enable =>
    { s with discovery := s.discovery.close, place := some (.stoppingDiscovery enable) }
  | .stoppingDiscovery enable => { s with place := some (.clearingTimeouts enable) }
  | .clearingTimeouts enable =>
    { s with dispatch := s.dispatch.close, place := some (.stoppingDispatch enable) }
  | .stoppingDispatch enable => { s with place := some (.clearingCount enable) }
  | .clearingCount enable =>
    { s with
      commit := { s.commit with counter := 0 }
      place := some (if enable then .resetting true else .clearingPeers) }
  | .clearingPeers =>
    { s with
      commit := { s.commit with toSessions := s.commit.toSessions.observePeers [] }
      place := some (.resetting false) }
  | .resetting enable =>
    let s := { s with commit := (s.commit.reset clock fresh).2 }
    if enable then
      { s with measurement := s.measurement.prepare, place := some .startingMeasurement }
    else { s with place := some .windingDown }
  | .startingMeasurement =>
    { s with
      measurement := s.measurement.openPrepared
      dispatch := s.dispatch.prepare
      place := some .startingDispatch }
  | .startingDispatch =>
    { s with
      dispatch := s.dispatch.openPrepared
      listening := true
      discovery := s.discovery.prepare
      place := some .startingDiscovery }
  | .startingDiscovery =>
    let s := { s with enabled := true, discovery := s.discovery.openPrepared }
    s.updateIsLinkAudioEnabled.settle true
  | .windingDown => s.settle false

def begin_ (s : LinkAudio) : LifecycleCall → LinkAudio
  | .enable => { s with place := some .checking, settled := none }
  | .disable => { s.stopAudioSharing with place := some .disabling, settled := none }
  | .enableLinkAudio enable =>
    if enable = s.audioEnabledByUser then s
    else { s with audioEnabledByUser := enable }.updateIsLinkAudioEnabled

def takeTurn (s : LinkAudio) (p : LifecycleAt) : LifecycleTurn → LinkAudio
  | .ready clock fresh => s.advance clock fresh p
  | .blocked => s
  | .drop => { s with place := none }

def step (s : LinkAudio) : LifecycleOp → LinkAudio
  | .call call =>
    match s.place with
    | none => s.begin_ call
    | some _ => s
  | .turn turn =>
    match s.place with
    | none => s
    | some p => s.takeTurn p turn
  | .session op => { s with commit := s.commit.step op }
  | .engine op => { s with engine := op.step s.engine }

end LinkAudio

namespace LifecycleOp

def ofCall : LifecycleOp → Bool
  | .call _ | .turn _ => true
  | .session _ | .engine _ => false

def waits : LifecycleOp → Bool
  | .call _ | .turn .drop => false
  | _ => true

def resumes : LifecycleOp → Bool
  | .turn (.ready ..) => true
  | _ => false

end LifecycleOp

def EngineOp.fences : EngineOp → Bool
  | .beginPeerSync | .stopSharing | .stopSending | .endPeerSync => true
  | _ => false

theorem AudioEngine.gates_step {engine : AudioEngine} {op : EngineOp} (open_ : op.fences = false) :
    (op.step engine).gates = engine.gates := by
  cases quoted : op.epoch with
  | some epoch => exact engine.gates_step_of_epoch quoted
  | none =>
    cases op with
    | addSink id name => rfl
    | removeSink id => rfl
    | addSource channelId => rfl
    | removeSource channelId => rfl
    | releaseBuffer id buffer => rfl
    | beginPeerSync => cases open_
    | stopSharing => cases open_
    | stopSending => cases open_
    | endPeerSync => cases open_
    | _ => cases quoted

theorem audioEndpoint_reset (commit : SessionCommit) (clock : Clock) (fresh : NodeId) :
    (commit.reset clock fresh).2.peer.audioEndpoint = commit.peer.audioEndpoint := by
  rcases commit.reset_cases clock fresh with ⟨_, eq⟩ | ⟨_, _, _, _, _, _, _, -, -, eq⟩
  · rw [eq]
    rfl
  · rw [eq]
    rfl

theorem audioEndpoint_installEdit (commit : SessionCommit)
    (edit : Option (Timeline × SessionState × ClientState))
    (startStop : Option ClientStartStopState) (proposed : Option StartStopState) :
    (commit.installEdit edit startStop proposed).peer.audioEndpoint =
      commit.peer.audioEndpoint := by
  cases edit <;> cases startStop <;> rfl

theorem audioEndpoint_step (commit : SessionCommit) (op : Op) :
    (commit.step op).peer.audioEndpoint = commit.peer.audioEndpoint := by
  have outcome := commit.step_outcome op
  revert outcome
  generalize commit.step op = after
  intro outcome
  cases outcome with
  | moved => rfl
  | rejected => rfl
  | reset => rfl
  | timing =>
    unfold SessionCommit.installTiming
    split <;> rfl
  | startStop => rfl
  | clientStartStop => exact audioEndpoint_installEdit ..
  | clientTimeline => exact audioEndpoint_installEdit ..

namespace LinkAudio

/-- Whether a task synchronises the peers, the audio endpoint is announced and the engine is live in
the task's epoch are one thing. -/
structure Consistent (s : LinkAudio) : Prop where
  running : s.engine.shutdown = false
  active : ∀ epoch, s.syncTask = some epoch →
    s.commit.peer.audioEndpoint = some s.endpoint ∧
      s.engine.gates = (some epoch, epoch, true, false)
  paused : s.syncTask = none →
    s.commit.peer.audioEndpoint = none ∧ ∃ nodeId sessionId, s.engine.Paused nodeId sessionId

def Ready (s : LinkAudio) : Prop :=
  s.measurement.isOpen = true ∧ s.discovery.isOpen = true ∧ s.dispatch.isOpen = true ∧
    s.listening = true

def Stopped (s : LinkAudio) : Prop :=
  s.measurement.active = .closed ∧ s.discovery.active = .closed ∧ s.dispatch.active = .closed

end LinkAudio

def LifecycleAt.Expects (s : LinkAudio) : LifecycleAt → Prop
  | .checking => True
  | .disabling => s.syncTask = none
  | .stoppingMeasurement _ => s.enabled = false ∧ s.measurement.active = .closed
  | .stoppingDiscovery _ | .clearingTimeouts _ =>
    s.enabled = false ∧ s.measurement.active = .closed ∧ s.discovery.active = .closed
  | .stoppingDispatch _ | .clearingCount _ | .clearingPeers | .resetting _ | .windingDown =>
    s.enabled = false ∧ s.Stopped
  | .startingMeasurement =>
    s.enabled = false ∧ s.discovery.active = .closed ∧ s.dispatch.active = .closed
  | .startingDispatch =>
    s.enabled = false ∧ s.measurement.isOpen = true ∧ s.discovery.active = .closed
  | .startingDiscovery =>
    s.enabled = false ∧ s.measurement.isOpen = true ∧ s.dispatch.isOpen = true ∧
      s.listening = true

namespace LinkAudio

def Settled (s : LinkAudio) : Bool → Prop
  | true => s.enabled = true ∧ s.syncTask.isSome = s.audioEnabledByUser
  | false => s.enabled = false ∧ s.Stopped

structure Coherent (s : LinkAudio) : Prop where
  consistent : s.Consistent
  follows : s.syncTask.isSome = true → (s.audioEnabledByUser && s.enabled) = true
  ready : s.enabled = true → s.Ready
  expects : ∀ p, s.place = some p → p.Expects s
  busy : s.place.isSome = true → s.settled = none
  settled : ∀ enable, s.settled = some enable → s.Settled enable

section Coherent

variable {s : LinkAudio}

theorem isOpen_openPrepared (gate : DispatchGate) : gate.openPrepared.isOpen = true := by
  unfold DispatchGate.openPrepared
  split
  next opened => exact opened
  next => rfl

theorem active_close (gate : DispatchGate) : gate.close.active = .closed := by
  unfold DispatchGate.close
  split
  next closed => exact closed
  next => rfl

theorem Consistent.commit (h : s.Consistent) {commit : SessionCommit}
    (same : commit.peer.audioEndpoint = s.commit.peer.audioEndpoint) :
    { s with commit }.Consistent where
  running := h.running
  active epoch task := ⟨same.trans (h.active epoch task).1, (h.active epoch task).2⟩
  paused idle := ⟨same.trans (h.paused idle).1, (h.paused idle).2⟩

theorem Consistent.flags (h : s.Consistent) {enabled listening audioEnabledByUser : Bool}
    {measurement discovery dispatch : DispatchGate} {place : Option LifecycleAt}
    {settled : Option Bool} :
    { s with enabled, measurement, discovery, dispatch, listening, audioEnabledByUser, place,
             settled }.Consistent where
  running := h.running
  active := h.active
  paused := h.paused

theorem consistent_stopAudioSharing (running : s.engine.shutdown = false) :
    s.stopAudioSharing.Consistent where
  running := running
  active := by rintro _ ⟨⟩
  paused _ := ⟨rfl, _, _, s.engine.paused_endPeerSync⟩

theorem Consistent.update (h : s.Consistent) :
    s.updateIsLinkAudioEnabled.Consistent ∧
      s.updateIsLinkAudioEnabled.syncTask.isSome = (s.audioEnabledByUser && s.enabled) ∧
      ∃ commit engine syncTask,
        s.updateIsLinkAudioEnabled = { s with commit, engine, syncTask } := by
  unfold updateIsLinkAudioEnabled
  dsimp only
  split
  next same => exact ⟨h, same.symm, s.commit, s.engine, s.syncTask, rfl⟩
  next differs =>
    split
    next should =>
      have begins : s.engine.beginPeerSync.1.gates =
          (some s.engine.beginPeerSync.2, s.engine.beginPeerSync.2, true, false) := by
        unfold AudioEngine.beginPeerSync
        rw [if_neg (by rw [h.running]; exact Bool.false_ne_true)]
        unfold AudioEngine.gates
        dsimp only
        rw [h.running]
      have running : s.engine.beginPeerSync.1.shutdown = false := congrArg (·.2.2.2) begins
      refine ⟨⟨running, ?_, by rintro ⟨⟩⟩, should.symm, _, _, _, rfl⟩
      rintro _ ⟨⟩
      exact ⟨rfl, begins⟩
    next should =>
      refine ⟨consistent_stopAudioSharing h.running, ?_, _, _, _, rfl⟩
      exact (Bool.eq_false_of_not_eq_true should).symm

theorem Coherent.idle (h : s.Coherent) (off : s.enabled = false) : s.syncTask = none := by
  by_contra task
  have on := h.follows (Option.isSome_iff_ne_none.mpr task)
  rw [off, Bool.and_false] at on
  cases on

theorem Coherent.unsettled (h : s.Coherent) {p : LifecycleAt} (here : s.place = some p)
    (enable : Bool) : s.settled ≠ some enable := by
  rw [h.busy (by rw [here]; rfl)]
  exact Option.some_ne_none enable |>.symm

theorem Coherent.stage (h : s.Coherent) {p : LifecycleAt} (here : s.place = some p)
    (off : s.enabled = false) {commit : SessionCommit}
    {measurement discovery dispatch : DispatchGate} {listening : Bool} {next : LifecycleAt}
    (same : commit.peer.audioEndpoint = s.commit.peer.audioEndpoint)
    (expects : next.Expects
      { s with commit, measurement, discovery, dispatch, listening, place := some next }) :
    { s with commit, measurement, discovery, dispatch, listening,
             place := some next }.Coherent := by
  have consistent := h.consistent.commit same
  refine ⟨consistent.flags, h.follows, fun on => ?_, ?_,
    fun _ => h.busy (by rw [here]; rfl), fun enable settled => ?_⟩
  · rw [show s.enabled = true from on] at off
    cases off
  · rintro _ ⟨⟩
    exact expects
  · exact absurd settled (h.unsettled here enable)

theorem Coherent.enabled (consistent : s.Consistent) (on : s.enabled = true) (ready : s.Ready) :
    (s.updateIsLinkAudioEnabled.settle true).Coherent := by
  obtain ⟨consistent, shared, commit, engine, syncTask, same⟩ := consistent.update
  rw [same] at consistent shared ⊢
  have task : syncTask.isSome = s.audioEnabledByUser := by
    rw [shared, on, Bool.and_true]
  refine ⟨consistent.flags, ?_, fun _ => ready,
    by rintro _ ⟨⟩, by rintro ⟨⟩, ?_⟩
  · exact fun isSome => shared.symm.trans isSome
  · rintro _ ⟨⟩
    exact ⟨on, task⟩

theorem Coherent.disabled (h : s.Coherent) (here : s.place = some .disabling) :
    { s with enabled := false }.Coherent := by
  have idle : s.syncTask = none := h.expects _ here
  refine ⟨h.consistent.flags, ?_, by rintro ⟨⟩, ?_, h.busy, ?_⟩
  · intro task
    rw [show s.syncTask = none from idle] at task
    cases task
  · rintro _ at_p
    rw [show s.place = some .disabling from here] at at_p
    cases at_p
    exact idle
  · exact fun enable settled => absurd settled (h.unsettled here enable)

theorem Coherent.advance (h : s.Coherent) {p : LifecycleAt} (here : s.place = some p)
    (clock : Clock) (fresh : NodeId) : (s.advance clock fresh p).Coherent := by
  have expects := h.expects p here
  have consistent := h.consistent
  cases p with
  | checking =>
    unfold LinkAudio.advance
    dsimp only
    split
    next on => exact .enabled consistent on (h.ready on)
    next off =>
      have off := Bool.eq_false_of_not_eq_true off
      exact h.stage here off rfl ⟨off, active_close s.measurement⟩
  | disabling =>
    exact (h.disabled here).stage here rfl rfl ⟨rfl, active_close s.measurement⟩
  | stoppingMeasurement enable =>
    exact h.stage here expects.1 rfl ⟨expects.1, expects.2, active_close s.discovery⟩
  | stoppingDiscovery enable => exact h.stage here expects.1 rfl expects
  | clearingTimeouts enable =>
    exact h.stage here expects.1 rfl
      ⟨expects.1, expects.2.1, expects.2.2, active_close s.dispatch⟩
  | stoppingDispatch enable => exact h.stage here expects.1 rfl expects
  | clearingCount enable =>
    cases enable with
    | true => exact h.stage here expects.1 rfl expects
    | false => exact h.stage here expects.1 rfl expects
  | clearingPeers => exact h.stage here expects.1 rfl expects
  | resetting enable =>
    have same := audioEndpoint_reset s.commit clock fresh
    cases enable with
    | true => exact h.stage here expects.1 same ⟨expects.1, expects.2.2.1, expects.2.2.2⟩
    | false => exact h.stage here expects.1 same expects
  | startingMeasurement =>
    exact h.stage here expects.1 rfl ⟨expects.1, isOpen_openPrepared s.measurement, expects.2.1⟩
  | startingDispatch =>
    exact h.stage here expects.1 rfl ⟨expects.1, expects.2.1, isOpen_openPrepared s.dispatch, rfl⟩
  | startingDiscovery =>
    refine .enabled consistent.flags rfl ?_
    exact ⟨expects.2.1, isOpen_openPrepared s.discovery, expects.2.2.1, expects.2.2.2⟩
  | windingDown =>
    refine ⟨consistent.flags, h.follows, h.ready,
      by rintro _ ⟨⟩, by rintro ⟨⟩, ?_⟩
    rintro _ ⟨⟩
    exact expects

theorem Coherent.begin_ (h : s.Coherent) (free : s.place = none) (call : LifecycleCall) :
    (s.begin_ call).Coherent := by
  have consistent := h.consistent
  cases call with
  | enable =>
    refine ⟨consistent.flags, h.follows, h.ready, ?_,
      fun _ => rfl, by rintro _ ⟨⟩⟩
    rintro _ ⟨⟩
    trivial
  | disable =>
    have stopped := consistent_stopAudioSharing consistent.running
    refine ⟨stopped.flags, by rintro ⟨⟩, h.ready, ?_,
      fun _ => rfl, by rintro _ ⟨⟩⟩
    rintro _ ⟨⟩
    rfl
  | enableLinkAudio enable =>
    unfold LinkAudio.begin_
    dsimp only
    split
    · exact h
    · have asked : { s with audioEnabledByUser := enable }.Consistent :=
        consistent.flags
      obtain ⟨updated, shared, commit, engine, syncTask, same⟩ := asked.update
      rw [same] at updated shared ⊢
      refine ⟨updated, fun task => shared.symm.trans task, h.ready, ?_, h.busy, ?_⟩
      · intro p at_p
        rw [show s.place = some p from at_p] at free
        cases free
      · intro settled was
        have before := h.settled settled was
        cases settled with
        | true =>
          refine ⟨before.1, shared.trans ?_⟩
          rw [show s.enabled = true from before.1, Bool.and_true]
        | false => exact before

theorem Coherent.dropped (h : s.Coherent) : { s with place := none }.Coherent :=
  ⟨h.consistent.flags, h.follows, h.ready,
    by rintro _ ⟨⟩, by rintro ⟨⟩, h.settled⟩

def Admitted : LinkAudio → LifecycleOp → Prop
  | _, .engine op => op.fences = false
  | _, _ => True

instance : ∀ (s : LinkAudio) (op : LifecycleOp), Decidable (Admitted s op)
  | _, .call _ => inferInstanceAs (Decidable True)
  | _, .turn _ => inferInstanceAs (Decidable True)
  | _, .session _ => inferInstanceAs (Decidable True)
  | _, .engine op => inferInstanceAs (Decidable (op.fences = false))

theorem Consistent.engine (h : s.Consistent) {op : EngineOp} (open_ : op.fences = false) :
    { s with engine := op.step s.engine }.Consistent where
  running := (AudioEngine.shutdown_step op).trans h.running
  active epoch task :=
    ⟨(h.active epoch task).1, (AudioEngine.gates_step open_).trans (h.active epoch task).2⟩
  paused idle := by
    obtain ⟨announced, nodeId, sessionId, paused⟩ := h.paused idle
    refine ⟨announced, nodeId, sessionId, paused.step ?_⟩
    rintro rfl
    cases open_

theorem Coherent.elsewhere (h : s.Coherent) {commit : SessionCommit} {engine : AudioEngine}
    (consistent : { s with commit, engine }.Consistent) : { s with commit, engine }.Coherent := by
  refine ⟨consistent, h.follows, h.ready, fun p here => ?_, h.busy, fun enable settled => ?_⟩
  · have expects := h.expects p here
    cases p <;> exact expects
  · have settled := h.settled enable settled
    cases enable <;> exact settled

theorem Coherent.step (h : s.Coherent) {op : LifecycleOp} (admitted : s.Admitted op) :
    (s.step op).Coherent := by
  cases op with
  | call call =>
    unfold LinkAudio.step
    cases free : s.place with
    | none => exact h.begin_ free call
    | some p => exact h
  | turn turn =>
    unfold LinkAudio.step
    cases here : s.place with
    | none => exact h
    | some p =>
      cases turn with
      | ready clock fresh => exact h.advance here clock fresh
      | blocked => exact h
      | drop => exact h.dropped
  | session op => exact h.elsewhere (h.consistent.commit (audioEndpoint_step s.commit op))
  | engine op => exact h.elsewhere (h.consistent.engine admitted)

theorem coherent_new (commit : SessionCommit) (measurement discovery dispatch : DispatchGate)
    {engine : AudioEngine} (running : engine.shutdown = false) (endpoint : SocketAddrV4) :
    (new commit measurement discovery dispatch engine endpoint).Coherent where
  consistent := ⟨running, by rintro _ ⟨⟩, fun _ => ⟨rfl, _, _, engine.paused_endPeerSync⟩⟩
  follows := by rintro ⟨⟩
  ready := by rintro ⟨⟩
  expects := by rintro _ ⟨⟩
  busy := by rintro ⟨⟩
  settled := by rintro _ ⟨⟩

end Coherent

section Runs

variable {commit : SessionCommit} {measurement discovery dispatch : DispatchGate}
  {engine : AudioEngine} {endpoint : SocketAddrV4} {ops : List LifecycleOp}

theorem coherent_run (running : engine.shutdown = false)
    (admitted : Along step Admitted (new commit measurement discovery dispatch engine endpoint)
      ops) :
    (run step (new commit measurement discovery dispatch engine endpoint) ops).Coherent :=
  run_invariant (fun _ _ h admitted => h.step admitted)
    (coherent_new commit measurement discovery dispatch running endpoint) admitted

/-- Wherever the futures of the calls are dropped: audio is shared only while Link is enabled and
the user asked for it, and then always, once a call has enabled Link; whoever shares announces the
endpoint and is heard in its own epoch, and whoever does not has withdrawn it and forgotten the
peers. -/
theorem sharing_follows_link (running : engine.shutdown = false)
    (admitted : Along step Admitted (new commit measurement discovery dispatch engine endpoint)
      ops) :
    let s := run step (new commit measurement discovery dispatch engine endpoint) ops
    (∀ epoch, s.syncTask = some epoch → s.audioEnabledByUser = true ∧ s.enabled = true ∧
      s.commit.peer.audioEndpoint = some s.endpoint ∧ s.engine.epochIsCurrent epoch = true ∧
        s.engine.sendEpoch = some epoch) ∧
    (s.syncTask = none → s.commit.peer.audioEndpoint = none ∧ s.engine.sendEpoch = none ∧
      s.engine.state.peers = []) ∧
    (s.settled = some true → s.syncTask.isSome = s.audioEnabledByUser) := by
  intro s
  have h := coherent_run running admitted
  refine ⟨fun epoch task => ?_, fun idle => ?_, fun settled => (h.settled true settled).2⟩
  · obtain ⟨announced, gates⟩ := h.consistent.active epoch task
    have follows := h.follows (by rw [task]; rfl)
    rw [Bool.and_eq_true] at follows
    simp only [AudioEngine.gates, Prod.mk.injEq] at gates
    obtain ⟨sends, current, sharing, up⟩ := gates
    refine ⟨follows.1, follows.2, announced, ?_, sends⟩
    show (s.engine.sharingActive && !s.engine.shutdown && decide (s.engine.syncEpoch = epoch)) =
      true
    rw [sharing, up, current]
    simp
  · obtain ⟨withdrawn, _, _, paused⟩ := h.consistent.paused idle
    exact ⟨withdrawn, paused.sending, paused.withdrawn.peers⟩

theorem advance_session (s : LinkAudio) (clock : Clock) (fresh : NodeId) {p : LifecycleAt}
    (elsewhere : ∀ enable, p ≠ .resetting enable) :
    (s.advance clock fresh p).commit.current = s.commit.current ∧
      (s.advance clock fresh p).commit.session = s.commit.session ∧
      (s.advance clock fresh p).commit.client = s.commit.client := by
  have update (s : LinkAudio) : s.updateIsLinkAudioEnabled.commit.current = s.commit.current ∧
      s.updateIsLinkAudioEnabled.commit.session = s.commit.session ∧
      s.updateIsLinkAudioEnabled.commit.client = s.commit.client := by
    unfold updateIsLinkAudioEnabled
    dsimp only
    split
    · exact ⟨rfl, rfl, rfl⟩
    · split <;> exact ⟨rfl, rfl, rfl⟩
  cases p with
  | checking =>
    unfold advance
    dsimp only
    split
    · exact update s
    · exact ⟨rfl, rfl, rfl⟩
  | startingDiscovery => exact update _
  | resetting enable => exact absurd rfl (elsewhere enable)
  | _ => exact ⟨rfl, rfl, rfl⟩

theorem begin_session (s : LinkAudio) (call : LifecycleCall) :
    (s.begin_ call).commit.current = s.commit.current ∧
      (s.begin_ call).commit.session = s.commit.session ∧
      (s.begin_ call).commit.client = s.commit.client := by
  cases call with
  | enable => exact ⟨rfl, rfl, rfl⟩
  | disable => exact ⟨rfl, rfl, rfl⟩
  | enableLinkAudio enable =>
    unfold begin_ updateIsLinkAudioEnabled
    dsimp only
    split
    · exact ⟨rfl, rfl, rfl⟩
    · split
      · exact ⟨rfl, rfl, rfl⟩
      · split <;> exact ⟨rfl, rfl, rfl⟩

/-- Link is never enabled with a stage closed, and a call resets the session only behind closed
gates. -/
theorem enabled_whole (running : engine.shutdown = false)
    (admitted : Along step Admitted (new commit measurement discovery dispatch engine endpoint)
      ops) :
    let s := run step (new commit measurement discovery dispatch engine endpoint) ops
    (s.enabled = true → s.Ready) ∧
      (∀ enable, s.place = some (.resetting enable) → s.enabled = false ∧ s.Stopped) ∧
      (∀ op, op.ofCall = true →
        (s.step op).commit.current = s.commit.current ∧
            (s.step op).commit.session = s.commit.session ∧
            (s.step op).commit.client = s.commit.client ∨
          (∃ enable, s.place = some (.resetting enable)) ∧ s.enabled = false ∧ s.Stopped) ∧
      (s.settled = some false → s.enabled = false ∧ s.Stopped) := by
  intro s
  have h := coherent_run running admitted
  refine ⟨h.ready, fun enable here => h.expects _ here, fun op ofCall => ?_,
    fun settled => h.settled false settled⟩
  cases op with
  | session op => cases ofCall
  | engine op => cases ofCall
  | call call =>
    refine .inl ?_
    unfold LinkAudio.step
    cases s.place with
    | none => exact s.begin_session call
    | some p => exact ⟨rfl, rfl, rfl⟩
  | turn turn =>
    unfold LinkAudio.step
    cases here : s.place with
    | none => exact .inl ⟨rfl, rfl, rfl⟩
    | some p =>
      by_cases resetting : ∃ enable, p = .resetting enable
      · obtain ⟨enable, rfl⟩ := resetting
        exact .inr ⟨⟨enable, rfl⟩, h.expects _ here⟩
      · refine .inl ?_
        cases turn with
        | ready clock fresh =>
          exact s.advance_session clock fresh fun enable same => resetting ⟨enable, same⟩
        | blocked => exact ⟨rfl, rfl, rfl⟩
        | drop => exact ⟨rfl, rfl, rfl⟩

end Runs

end LinkAudio

def LifecycleAt.aim : LifecycleAt → Bool
  | .checking | .startingMeasurement | .startingDispatch | .startingDiscovery => true
  | .disabling | .clearingPeers | .windingDown => false
  | .stoppingMeasurement enable | .stoppingDiscovery enable | .clearingTimeouts enable
  | .stoppingDispatch enable | .clearingCount enable | .resetting enable => enable

def LifecycleAt.remaining : LifecycleAt → ℕ
  | .checking => 10
  | .disabling => 9
  | .stoppingMeasurement enable => if enable then 9 else 8
  | .stoppingDiscovery enable => if enable then 8 else 7
  | .clearingTimeouts enable => if enable then 7 else 6
  | .stoppingDispatch enable => if enable then 6 else 5
  | .clearingCount enable => if enable then 5 else 4
  | .clearingPeers => 3
  | .resetting enable => if enable then 4 else 2
  | .startingMeasurement => 3
  | .startingDispatch => 2
  | .startingDiscovery => 1
  | .windingDown => 1

theorem LifecycleAt.remaining_pos : ∀ p : LifecycleAt, 0 < p.remaining
  | .checking | .disabling | .clearingPeers | .startingMeasurement | .startingDispatch
  | .startingDiscovery | .windingDown => by decide
  | .stoppingMeasurement enable | .stoppingDiscovery enable | .clearingTimeouts enable
  | .stoppingDispatch enable | .clearingCount enable | .resetting enable => by
    cases enable <;> decide

namespace LinkAudio

theorem advance_goes (s : LinkAudio) (clock : Clock) (fresh : NodeId) (p : LifecycleAt) :
    (s.advance clock fresh p).place = none ∧ (s.advance clock fresh p).settled = some p.aim ∨
      ∃ next, (s.advance clock fresh p).place = some next ∧ next.aim = p.aim ∧
        next.remaining < p.remaining := by
  cases p with
  | checking =>
    unfold advance
    dsimp only
    split
    next => exact .inl ⟨rfl, rfl⟩
    next => exact .inr ⟨_, rfl, rfl, by decide⟩
  | startingDiscovery => exact .inl ⟨rfl, rfl⟩
  | windingDown => exact .inl ⟨rfl, rfl⟩
  | disabling => exact .inr ⟨_, rfl, rfl, by decide⟩
  | clearingPeers => exact .inr ⟨_, rfl, rfl, by decide⟩
  | startingMeasurement => exact .inr ⟨_, rfl, rfl, by decide⟩
  | startingDispatch => exact .inr ⟨_, rfl, rfl, by decide⟩
  | stoppingMeasurement enable => cases enable <;> exact .inr ⟨_, rfl, rfl, by decide⟩
  | stoppingDiscovery enable => cases enable <;> exact .inr ⟨_, rfl, rfl, by decide⟩
  | clearingTimeouts enable => cases enable <;> exact .inr ⟨_, rfl, rfl, by decide⟩
  | stoppingDispatch enable => cases enable <;> exact .inr ⟨_, rfl, rfl, by decide⟩
  | clearingCount enable => cases enable <;> exact .inr ⟨_, rfl, rfl, by decide⟩
  | resetting enable => cases enable <;> exact .inr ⟨_, rfl, rfl, by decide⟩

def Returns (s : LinkAudio) (enable : Bool) (n : ℕ) : Prop :=
  s.place = none ∧ s.settled = some enable ∨
    ∃ p, s.place = some p ∧ p.aim = enable ∧ p.remaining ≤ n

section Returns

variable {s : LinkAudio} {enable : Bool} {n : ℕ}

theorem Returns.mono {m : ℕ} (h : s.Returns enable n) (le : n ≤ m) : s.Returns enable m := by
  rcases h with returned | ⟨p, here, aim, few⟩
  · exact .inl returned
  · exact .inr ⟨p, here, aim, few.trans le⟩

theorem Returns.step {op : LifecycleOp}
    (h : s.Returns enable (n + if op.resumes then 1 else 0)) (waits : op.waits = true) :
    (s.step op).Returns enable n := by
  cases op with
  | call call => cases waits
  | session op => exact h
  | engine op => exact h
  | turn turn =>
    unfold LinkAudio.step
    rcases h with ⟨free, settled⟩ | ⟨p, here, aim, few⟩
    · rw [free]
      exact .inl ⟨free, settled⟩
    · rw [here]
      cases turn with
      | drop => cases waits
      | blocked => exact .inr ⟨p, here, aim, few⟩
      | ready clock fresh =>
        rcases s.advance_goes clock fresh p with ⟨free, settled⟩ | ⟨next, at_next, same, less⟩
        · exact .inl ⟨free, settled.trans (congrArg some aim)⟩
        · exact .inr ⟨next, at_next, same.trans aim, Nat.le_of_lt_succ (less.trans_le few)⟩

theorem Returns.run {ops : List LifecycleOp} (h : s.Returns enable (ops.countP LifecycleOp.resumes))
    (waits : ∀ op ∈ ops, op.waits = true) : (run LinkAudio.step s ops).Returns enable 0 := by
  induction ops generalizing s with
  | nil => exact h
  | cons op ops ih =>
    rw [List.countP_cons] at h
    exact ih (h.step (waits op List.mem_cons_self))
      fun later mem => waits later (List.mem_cons_of_mem op mem)

theorem Returns.returned (h : s.Returns enable 0) : s.place = none ∧ s.settled = some enable := by
  rcases h with returned | ⟨p, -, -, none⟩
  · exact returned
  · exact absurd none (Nat.not_le.mpr p.remaining_pos)

end Returns

/-- Wherever earlier calls were dropped, a call that is not returns within ten awaits, whatever the
session and the engine do meanwhile: `enable` with Link enabled, every stage open and audio shared
exactly if the user asked for it, `disable` with Link disabled, every stage closed and nothing
shared. -/
theorem calls_settle {commit : SessionCommit} {measurement discovery dispatch : DispatchGate}
    {engine : AudioEngine} {endpoint : SocketAddrV4} {ops : List LifecycleOp}
    (running : engine.shutdown = false)
    (admitted : Along step Admitted (new commit measurement discovery dispatch engine endpoint)
      ops) :
    let s := run step (new commit measurement discovery dispatch engine endpoint) ops
    ∀ call rest, s.place = none → Along step Admitted (s.step (.call call)) rest →
      (∀ op ∈ rest, op.waits = true) → 10 ≤ rest.countP LifecycleOp.resumes →
      let s' := run step s (.call call :: rest)
      (call = .enable → s'.place = none ∧ s'.settled = some true ∧ s'.enabled = true ∧ s'.Ready ∧
        s'.syncTask.isSome = s'.audioEnabledByUser) ∧
      (call = .disable → s'.place = none ∧ s'.settled = some false ∧ s'.enabled = false ∧
        s'.Stopped ∧ s'.syncTask = none) := by
  intro s call rest free goesOn waits turns s'
  have h : s.Coherent := coherent_run running admitted
  have begun : s.step (.call call) = s.begin_ call := by
    unfold step
    dsimp only
    rw [free]
  have first : (s.step (.call call)).Coherent := h.step trivial
  have kept : (run step (s.step (.call call)) rest).Coherent :=
    run_invariant (fun _ _ h admitted => h.step admitted) first goesOn
  have returned (enable : Bool) (awaits : (s.begin_ call).Returns enable 10) :
      s'.place = none ∧ s'.settled = some enable := by
    rw [← begun] at awaits
    exact ((awaits.mono turns).run waits).returned
  refine ⟨?_, ?_⟩
  · rintro rfl
    obtain ⟨back, settled⟩ := returned true (.inr ⟨.checking, rfl, rfl, by decide⟩)
    obtain ⟨on, shared⟩ := kept.settled true settled
    exact ⟨back, settled, on, kept.ready on, shared⟩
  · rintro rfl
    obtain ⟨back, settled⟩ := returned false (.inr ⟨.disabling, rfl, rfl, by decide⟩)
    obtain ⟨off, stopped⟩ := kept.settled false settled
    exact ⟨back, settled, off, stopped, kept.idle off⟩

/-- Link is enabled and shares audio; a `disable` that is dropped before it has the flag stops the
sharing alone, and a late write of the task finds its epoch gone. -/
def droppedDisable : List LifecycleOp :=
  [.call (.enableLinkAudio true), .call .enable] ++
    List.replicate 10 (.turn (.ready ⟨.zero, .zero, .zero⟩ default)) ++
    [.call .disable, .turn .blocked, .turn .drop,
      .engine (.sawLinkAudioEndpointAt 3 ⟨.replicate 8 1⟩ (some ⟨2, 20809⟩))]

def freshLink : LinkAudio :=
  new soloNode .newOpen .new .new (.new 0 default default) ⟨1, 20809⟩

theorem sharing_follows_link_dropped :
    let s := run step freshLink droppedDisable
    s.settled = none ∧ s.enabled = true ∧ s.audioEnabledByUser = true ∧ s.syncTask = none ∧
      s.commit.peer.audioEndpoint = none ∧ s.engine.sendEpoch = none ∧
        s.engine.state.peers = [] := by
  intro s
  have admitted : Along step Admitted freshLink droppedDisable := by decide +kernel
  have follows := sharing_follows_link rfl admitted
  have idle : s.syncTask = none := by decide +kernel
  exact ⟨by decide +kernel, by decide +kernel, by decide +kernel, idle, follows.2.1 idle⟩

theorem enabled_whole_dropped :
    let s := run step freshLink droppedDisable
    s.enabled = true ∧ s.Ready := by
  intro s
  have admitted : Along step Admitted freshLink droppedDisable := by decide +kernel
  have on : s.enabled = true := by decide +kernel
  exact ⟨on, (enabled_whole rfl admitted).1 on⟩

theorem calls_settle_dropped :
    let s := run step freshLink droppedDisable
    let rest := (List.replicate 10 [.turn .blocked, .turn (.ready ⟨.zero, .zero, .zero⟩ default),
      .engine (.sawLinkAudioEndpointAt 3 ⟨.replicate 8 1⟩ (some ⟨2, 20809⟩))]).flatten
    let s' := run step s (.call .disable :: rest)
    s.syncTask = none ∧ s.enabled = true ∧
      s'.place = none ∧ s'.settled = some false ∧ s'.enabled = false ∧ s'.Stopped ∧
        s'.syncTask = none := by
  intro s rest s'
  have admitted : Along step Admitted freshLink droppedDisable := by decide +kernel
  have settle := calls_settle rfl admitted .disable rest (by decide +kernel) (by decide +kernel)
    (by decide +kernel) (by decide +kernel)
  exact ⟨by decide +kernel, by decide +kernel, settle.2 rfl⟩

end LinkAudio

end AbletonLink.Audio
