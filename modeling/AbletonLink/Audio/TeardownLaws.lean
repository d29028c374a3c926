import AbletonLink.Audio.Teardown

/-! What reaches the wire while an engine is paused, resumed and shut down, and that a shutdown
returns. -/

universe u v

namespace AbletonLink.Audio

open Library Library.Run Link

namespace Teardown

variable {Task : Type u} {Caller : Type v} [DecidableEq Task] [DecidableEq Caller] [Fintype Task]
  {s s' : Teardown Task Caller} {caller : Caller}

def epochs (s : Teardown Task Caller) : List UInt64 := s.wire.filterMap Prod.fst

/-- No epoch above `high` was ever that of the sends, and the next one will be. -/
structure Fenced (s : Teardown Task Caller) (high : ℕ) : Prop where
  ordered : s.epochs.Pairwise fun epoch later => epoch.toNat ≤ later.toNat
  sent : ∀ epoch ∈ s.epochs, epoch.toNat ≤ high
  captured : ∀ task epoch, (s.tasks task).epoch = some epoch → epoch.toNat ≤ high
  current : ∀ epoch, s.engine.sendEpoch = some epoch → epoch.toNat = high
  counter : high ≤ s.engine.syncEpoch.toNat
  fresh : ∀ caller epoch, s.callers caller = .beginPeerSync (.send epoch) →
    high < epoch.toNat ∧ epoch.toNat ≤ s.engine.syncEpoch.toNat

structure Locked (s : Teardown Task Caller) : Prop where
  held : ∀ caller, (s.callers caller).locked = true → s.lock = some (.inr caller)
  down : ∀ caller, (s.callers caller).down = true → s.engine.shutdown = true
  gated : ∀ caller, s.gate = some caller → ∀ task, (s.tasks task).isIdle = true

theorem wire_step (locked : s.Locked) (op : TeardownAction Task Caller) :
    (s.step op).wire = s.wire ∨ (∃ message, (s.step op).wire = s.wire ++ [(none, message)]) ∨
      ∃ task epoch message, (s.tasks task).epoch = some epoch ∧
        s.engine.sendEpoch = some epoch ∧ (s.step op).wire = s.wire ++ [(some epoch, message)] := by
  cases op with
  | task task work =>
    rcases (taskStep s task work).wire with same | ⟨epoch, message, quoted, current, more⟩
    · exact .inl same
    · exact .inr (.inr ⟨task, epoch, message, quoted, current, more⟩)
  | call caller call =>
    refine .inl ?_
    unfold step
    dsimp only
    split <;> rfl
  | caller caller =>
    exact (callerStep s caller (locked.held caller) (locked.down caller)).wire.imp_right .inl
  | elsewhere op =>
    refine .inl ?_
    unfold step
    dsimp only
    split <;> rfl
  | unfenced message => exact .inr (.inl ⟨message, rfl⟩)

omit [DecidableEq Task] [Fintype Task] in
theorem started {P : CallerAt → Prop} {call : Call} {other : Caller} (first : ¬P call.start)
    (here : P ((s.callerTo caller call.start).callers other)) : P (s.callers other) := by
  have here : P (Function.update s.callers caller call.start other) := here
  by_cases same : other = caller
  · rw [same, Function.update_self] at here
    exact absurd here first
  · rwa [Function.update_of_ne same] at here

theorem Locked.step (h : s.Locked) {op : TeardownAction Task Caller} (admitted : s.Admitted op) :
    (s.step op).Locked := by
  cases op with
  | task task work =>
    have did := taskStep s task work
    have gates := did.gates
    unfold AudioEngine.gates at gates
    injection gates with current gates
    injection gates with counter gates
    injection gates with sharing shutdown
    refine ⟨fun caller locked => did.lock caller (h.held caller ?_),
      fun caller down => shutdown.trans (h.down caller ?_), fun caller gate other => ?_⟩
    · exact did.callers ▸ locked
    · exact did.callers ▸ down
    · have gate := did.gate.symm.trans gate
      by_cases same : other = task
      · cases idle : ((s.stepTask task work).tasks task).isIdle with
        | true => exact same ▸ idle
        | false =>
          have opened := did.enters (h.gated caller gate task) idle
          rw [opened] at gate
          cases gate
      · show ((s.stepTask task work).tasks other).isIdle = true
        rw [did.others other same]
        exact h.gated caller gate other
  | call caller call =>
    unfold Teardown.step
    dsimp only
    split
    next =>
      refine ⟨fun other locked => h.held other (started (P := fun place => place.locked = true) ?_
        locked), fun other down => h.down other (started (P := fun place => place.down = true) ?_
        down), h.gated⟩ <;> cases call <;> rintro ⟨⟩
    next => exact h
  | caller caller =>
    have did := callerStep s caller (h.held caller) (h.down caller)
    refine ⟨fun other locked => ?_, fun other down => ?_, fun other gate task => ?_⟩
    · by_cases same : other = caller
      · rw [same] at locked ⊢
        exact did.holds locked
      · exact did.lock other same (h.held other (did.others other same ▸ locked))
    · by_cases same : other = caller
      · rw [same] at down
        exact did.down down
      · exact did.shutdown (h.down other (did.others other same ▸ down))
    · show ((s.stepCaller caller).tasks task).isIdle = true
      rw [did.tasks]
      rcases did.gate with kept | opened | ⟨free, -⟩
      · exact h.gated other (kept.symm.trans gate) task
      · rw [show (s.stepCaller caller).gate = some other from gate] at opened
        cases opened
      · exact of_decide_eq_true (Bool.and_eq_true_iff.mp free).2 task
  | elsewhere op =>
    unfold Teardown.step
    dsimp only
    split
    next =>
      have gates : (op.step s.engine).gates = s.engine.gates := admitted
      unfold AudioEngine.gates at gates
      injection gates with current gates
      injection gates with counter gates
      injection gates with sharing shutdown
      exact ⟨h.held, fun caller down => shutdown.trans (h.down caller down), h.gated⟩
    next => exact h
  | unfenced message => exact ⟨h.held, h.down, h.gated⟩

omit [DecidableEq Task] [DecidableEq Caller] [Fintype Task] in
theorem epochs_unfenced {message : Datagram} (more : s'.wire = s.wire ++ [(none, message)]) :
    s'.epochs = s.epochs := by
  unfold epochs
  rw [more, List.filterMap_append]
  exact List.append_nil _

omit [DecidableEq Task] [DecidableEq Caller] [Fintype Task] in
theorem epochs_fenced {epoch : UInt64} {message : Datagram}
    (more : s'.wire = s.wire ++ [(some epoch, message)]) : s'.epochs = s.epochs ++ [epoch] := by
  unfold epochs
  rw [more, List.filterMap_append]
  rfl

omit [DecidableEq Task] [DecidableEq Caller] [Fintype Task] in
theorem Fenced.quiet {high : ℕ} (h : s.Fenced high) (epochs : s'.epochs = s.epochs)
    (captured : ∀ task epoch, (s'.tasks task).epoch = some epoch → epoch.toNat ≤ high)
    (current : s'.engine.sendEpoch = s.engine.sendEpoch ∨ s'.engine.sendEpoch = none)
    (counter : s.engine.syncEpoch.toNat ≤ s'.engine.syncEpoch.toNat)
    (fresh : ∀ caller epoch, s'.callers caller = .beginPeerSync (.send epoch) →
      s.callers caller = .beginPeerSync (.send epoch) ∨
        high < epoch.toNat ∧ epoch.toNat ≤ s'.engine.syncEpoch.toNat) : s'.Fenced high where
  ordered := epochs ▸ h.ordered
  sent := epochs ▸ h.sent
  captured := captured
  current epoch here := by
    rcases current with same | none
    · exact h.current epoch (same.symm.trans here)
    · rw [none] at here
      cases here
  counter := h.counter.trans counter
  fresh caller epoch here := by
    rcases fresh caller epoch here with before | issued
    · exact (h.fresh caller epoch before).imp_right counter.trans'
    · exact issued

omit [DecidableEq Caller] [Fintype Task] in
theorem Fenced.stepTask {high : ℕ} (h : s.Fenced high) {task : Task}
    (did : TaskStep s s' task) : s'.Fenced high := by
  have gates := did.gates
  unfold AudioEngine.gates at gates
  injection gates with current gates
  injection gates with counter gates
  have captured : ∀ other epoch, (s'.tasks other).epoch = some epoch → epoch.toNat ≤ high := by
    intro other epoch here
    by_cases same : other = task
    · rcases did.epoch epoch (same ▸ here) with before | now
      · exact h.captured task epoch before
      · exact (h.current epoch now).le
    · exact h.captured other epoch (did.others other same ▸ here)
  have fresh : ∀ caller epoch, s'.callers caller = .beginPeerSync (.send epoch) →
      high < epoch.toNat ∧ epoch.toNat ≤ s'.engine.syncEpoch.toNat := by
    intro caller epoch here
    rw [counter]
    exact h.fresh caller epoch (did.callers ▸ here)
  rcases did.wire with same | ⟨epoch, message, -, now, more⟩
  · exact h.quiet (congrArg (List.filterMap Prod.fst) same) captured (.inl current)
      (congrArg UInt64.toNat counter).ge fun caller epoch here => .inr (fresh caller epoch here)
  · have epochs := epochs_fenced more
    have high := (h.current epoch now)
    refine ⟨?_, ?_, captured, ?_, h.counter.trans (congrArg UInt64.toNat counter).ge, fresh⟩
    · rw [epochs]
      refine List.pairwise_append.mpr ⟨h.ordered, List.pairwise_singleton .., ?_⟩
      intro earlier member later last
      rw [List.mem_singleton.mp last, high]
      exact h.sent earlier member
    · rw [epochs]
      intro sent member
      rcases List.mem_append.mp member with before | last
      · exact h.sent sent before
      · rw [List.mem_singleton.mp last]
        exact high.le
    · rw [current]
      exact h.current

omit [DecidableEq Task] [DecidableEq Caller] in
theorem CallerStep.epochs (did : CallerStep s s' caller) : s'.epochs = s.epochs := by
  rcases did.wire with same | ⟨message, more⟩
  · exact congrArg (List.filterMap Prod.fst) same
  · exact epochs_unfenced more

omit [DecidableEq Task] [DecidableEq Caller] in
theorem CallerStep.grows (did : CallerStep s s' caller)
    (room : (s.callers caller).bumps = true → s.engine.syncEpoch.toNat + 1 < 2 ^ 64) :
    s.engine.syncEpoch.toNat ≤ s'.engine.syncEpoch.toNat := by
  rcases did.counter with same | ⟨bumps, bumped⟩
  · exact (congrArg UInt64.toNat same).ge
  · rw [bumped, UInt64.toNat_add]
    have room := room bumps
    exact (Nat.le_succ _).trans (Nat.mod_eq_of_lt room).ge

omit [DecidableEq Task] in
theorem Fenced.stepCaller {high : ℕ} (h : s.Fenced high) (locked : s.Locked)
    (did : CallerStep s s' caller)
    (room : (s.callers caller).bumps = true → s.engine.syncEpoch.toNat + 1 < 2 ^ 64) :
    ∃ high', high ≤ high' ∧ s'.Fenced high' ∧ ∀ epoch, epoch.toNat ≤ high →
      s'.engine.sendEpoch = some epoch → s.engine.sendEpoch = some epoch := by
  have grows := did.grows room
  have captured : ∀ task epoch, (s'.tasks task).epoch = some epoch → epoch.toNat ≤ high := by
    rw [did.tasks]
    exact h.captured
  have quiet (current : s'.engine.sendEpoch = s.engine.sendEpoch ∨ s'.engine.sendEpoch = none) :
      s'.Fenced high := by
    refine h.quiet did.epochs captured current grows fun other epoch here => ?_
    by_cases same : other = caller
    · rw [same] at here
      obtain ⟨bump, next, now⟩ := did.fresh epoch here
      refine .inr ⟨?_, (congrArg UInt64.toNat now).ge⟩
      have bumps : (s.callers caller).bumps = true := by
        rw [bump]
        rfl
      have room := room bumps
      rw [← next, UInt64.toNat_add]
      exact h.counter.trans_lt ((Nat.lt_succ_self _).trans_le (Nat.mod_eq_of_lt room).ge)
    · exact .inl (did.others other same ▸ here)
  rcases did.current with same | none | ⟨epoch, place, issued⟩
  · exact ⟨high, le_rfl, quiet (.inl same), fun _ _ here => same.symm.trans here⟩
  · refine ⟨high, le_rfl, quiet (.inr none), fun _ _ here => ?_⟩
    rw [none] at here
    cases here
  · obtain ⟨above, below⟩ := h.fresh caller epoch place
    refine ⟨epoch.toNat, above.le, ⟨did.epochs ▸ h.ordered, ?_, ?_, ?_, below.trans grows, ?_⟩, ?_⟩
    · rw [did.epochs]
      exact fun sent member => (h.sent sent member).trans above.le
    · exact fun task quoted here => (captured task quoted here).trans above.le
    · intro other here
      rw [issued] at here
      cases here
      rfl
    · intro other later here
      by_cases same : other = caller
      · obtain ⟨bump, -⟩ := did.fresh later (same ▸ here)
        rw [place] at bump
        cases bump
      -- Two calls that are about to fence would both have the lock.
      · have mine := locked.held caller (by rw [place]; rfl)
        have theirs := locked.held other (by rw [← did.others other same, here]; rfl)
        rw [mine] at theirs
        cases theirs
        exact absurd rfl same
    · intro other old here
      rw [issued] at here
      cases here
      exact absurd old (Nat.not_le.mpr above)

theorem Fenced.step {high : ℕ} (h : s.Fenced high) (locked : s.Locked)
    {op : TeardownAction Task Caller} (admitted : s.Admitted op) :
    ∃ high', high ≤ high' ∧ (s.step op).Fenced high' ∧ ∀ epoch, epoch.toNat ≤ high →
      (s.step op).engine.sendEpoch = some epoch → s.engine.sendEpoch = some epoch := by
  cases op with
  | task task work =>
    have did := taskStep s task work
    refine ⟨high, le_rfl, h.stepTask did, fun epoch _ here => ?_⟩
    exact (congrArg Prod.fst did.gates).symm.trans here
  | call caller call =>
    unfold Teardown.step
    dsimp only
    split
    next =>
      refine ⟨high, le_rfl, ?_, fun _ _ => id⟩
      refine h.quiet rfl h.captured (.inl rfl) le_rfl fun other epoch here => .inl ?_
      refine started (P := fun place => place = .beginPeerSync (.send epoch)) ?_ here
      cases call <;> rintro ⟨⟩
    next => exact ⟨high, le_rfl, h, fun _ _ => id⟩
  | caller caller =>
    have did := callerStep s caller (locked.held caller) (locked.down caller)
    exact h.stepCaller locked did admitted
  | elsewhere op =>
    unfold Teardown.step
    dsimp only
    split
    next =>
      have gates : (op.step s.engine).gates = s.engine.gates := admitted
      have current := congrArg Prod.fst gates
      have counter := congrArg (fun gates => gates.2.1) gates
      refine ⟨high, le_rfl, ?_, fun _ _ => current.symm.trans⟩
      exact h.quiet rfl h.captured (.inl current) (congrArg UInt64.toNat counter).ge
        fun _ _ => .inl
    next => exact ⟨high, le_rfl, h, fun _ _ => id⟩
  | unfenced message =>
    refine ⟨high, le_rfl, ?_, fun _ _ => id⟩
    exact h.quiet (epochs_unfenced rfl) h.captured (.inl rfl) le_rfl fun _ _ => .inl

def Retired (s : Teardown Task Caller) (epoch : UInt64) : Prop :=
  s.Locked ∧ (∃ high, s.Fenced high ∧ epoch.toNat ≤ high) ∧ s.engine.sendEpoch ≠ some epoch

def sentIn (s : Teardown Task Caller) (epoch : UInt64) : List (Option UInt64 × Datagram) :=
  s.wire.filter fun sent => sent.1 = some epoch

theorem Retired.step {epoch : UInt64} (h : s.Retired epoch) {op : TeardownAction Task Caller}
    (admitted : s.Admitted op) :
    (s.step op).Retired epoch ∧ (s.step op).sentIn epoch = s.sentIn epoch := by
  obtain ⟨locked, ⟨high, fenced, used⟩, retired⟩ := h
  obtain ⟨high', grows, fenced', returns⟩ := fenced.step locked admitted
  refine ⟨⟨locked.step admitted, ⟨high', fenced', used.trans grows⟩,
    fun back => retired (returns epoch used back)⟩, ?_⟩
  unfold sentIn
  rcases wire_step locked op with same | ⟨message, more⟩ | ⟨_, other, message, -, current, more⟩
  · rw [same]
  · rw [more, List.filter_append]
    exact List.append_nil _
  · have apart : other ≠ epoch := by
      rintro rfl
      exact retired current
    rw [more, List.filter_append, List.filter_cons_of_neg (by simpa using apart)]
    exact List.append_nil _

theorem Retired.run {epoch : UInt64} (h : s.Retired epoch) {ops : List (TeardownAction Task Caller)}
    (admitted : Along Teardown.step Admitted s ops) :
    (Run.run Teardown.step s ops).sentIn epoch = s.sentIn epoch := by
  refine (run_invariant (I := fun s' : Teardown Task Caller =>
    s'.Retired epoch ∧ s'.sentIn epoch = s.sentIn epoch) ?_ ⟨h, rfl⟩ admitted).2
  exact fun _ _ ⟨retired, same⟩ admitted =>
    ⟨(retired.step admitted).1, (retired.step admitted).2.trans same⟩

structure Drained (s : Teardown Task Caller) : Prop where
  locked : s.Locked
  shutdown : s.engine.shutdown = true
  early : ∀ task, (s.tasks task).early = true

omit [DecidableEq Task] [DecidableEq Caller] [Fintype Task] in
theorem epoch_of_early {place : TaskAt} (early : place.early = true) : place.epoch = none := by
  cases place with
  | idle => rfl
  | entered => rfl
  | _ => cases early

theorem Drained.step (h : s.Drained) {op : TeardownAction Task Caller} (admitted : s.Admitted op) :
    (s.step op).Drained ∧ (s.step op).epochs = s.epochs := by
  have locked := h.locked.step admitted
  refine ⟨?_, ?_⟩
  · cases op with
    | task task work =>
      have did := taskStep s task work
      have shutdown := congrArg (fun gates => gates.2.2.2) did.gates
      refine ⟨locked, Eq.trans shutdown h.shutdown, fun other => ?_⟩
      by_cases same : other = task
      · exact same ▸ did.halts h.shutdown (h.early task)
      · show ((s.stepTask task work).tasks other).early = true
        rw [did.others other same]
        exact h.early other
    | call caller call =>
      unfold Teardown.step at locked ⊢
      dsimp only at locked ⊢
      split at locked
      · exact ⟨locked, h.shutdown, h.early⟩
      · exact h
    | caller caller =>
      have did := callerStep s caller (h.locked.held caller) (h.locked.down caller)
      refine ⟨locked, did.shutdown h.shutdown, fun task => ?_⟩
      show ((s.stepCaller caller).tasks task).early = true
      rw [did.tasks]
      exact h.early task
    | elsewhere op =>
      unfold Teardown.step at locked ⊢
      dsimp only at locked ⊢
      split at locked
      next free =>
        have gates : (op.step s.engine).gates = s.engine.gates := admitted
        have shutdown := congrArg (fun gates => gates.2.2.2) gates
        rw [if_pos free]
        exact ⟨locked, Eq.trans shutdown h.shutdown, h.early⟩
      next taken =>
        rw [if_neg taken]
        exact h
    | unfenced message => exact ⟨locked, h.shutdown, h.early⟩
  · rcases wire_step h.locked op with same | ⟨message, more⟩ | ⟨task, epoch, _, quoted, -, -⟩
    · exact congrArg (List.filterMap Prod.fst) same
    · exact epochs_unfenced more
    · rw [epoch_of_early (h.early task)] at quoted
      cases quoted

section Runs

variable {addr : UInt32} {nodeId : NodeId} {sessionId : SessionId}

omit [DecidableEq Task] [DecidableEq Caller] [Fintype Task] in
theorem locked_start : (start (.new addr nodeId sessionId) : Teardown Task Caller).Locked :=
  ⟨by rintro _ ⟨⟩, by rintro _ ⟨⟩, by rintro _ ⟨⟩⟩

omit [DecidableEq Task] [DecidableEq Caller] [Fintype Task] in
theorem fenced_start : (start (.new addr nodeId sessionId) : Teardown Task Caller).Fenced 1 where
  ordered := .nil
  sent := by rintro _ ⟨⟩
  captured := by rintro _ _ ⟨⟩
  current := by
    rintro _ ⟨⟩
    rfl
  counter := le_rfl
  fresh := by rintro _ _ ⟨⟩

theorem fenced_run {ops : List (TeardownAction Task Caller)}
    (admitted : Along step Admitted (start (.new addr nodeId sessionId)) ops) :
    (run step (start (.new addr nodeId sessionId)) ops).Locked ∧
      ∃ high, (run step (start (.new addr nodeId sessionId)) ops).Fenced high := by
  refine run_invariant (I := fun s : Teardown Task Caller => s.Locked ∧ ∃ high, s.Fenced high) ?_
    ⟨locked_start, 1, fenced_start⟩ admitted
  rintro s op ⟨locked, high, fenced⟩ admitted
  obtain ⟨high', -, fenced', -⟩ := fenced.step locked admitted
  exact ⟨locked.step admitted, high', fenced'⟩

/-- Whatever is paused, resumed or shut down in between, the tasks send in the order of the epochs,
and an iteration whose epoch has been current once and no longer is sends nothing from then on. -/
theorem generations_apart {before after : List (TeardownAction Task Caller)}
    (admitted : Along step Admitted (start (.new addr nodeId sessionId)) (before ++ after)) :
    let s := run step (start (.new addr nodeId sessionId)) before
    let s' := run step s after
    (s'.epochs.Pairwise fun epoch later => epoch.toNat ≤ later.toNat) ∧
      ∀ task epoch, (s.tasks task).epoch = some epoch → s.engine.sendEpoch ≠ some epoch →
        s'.sentIn epoch = s.sentIn epoch := by
  intro s s'
  obtain ⟨first, rest⟩ := along_append.mp admitted
  obtain ⟨-, high, fenced⟩ := fenced_run admitted
  rw [run_append] at fenced
  obtain ⟨locked, high', here⟩ := fenced_run first
  refine ⟨fenced.ordered, fun task epoch quoted retired => ?_⟩
  exact Retired.run ⟨locked, ⟨high', here, here.captured task epoch quoted⟩, retired⟩ rest

theorem generations_apart_resumed :
    let peer : NodeId := ⟨Vector.replicate 8 1⟩
    let bass : Id := ⟨Vector.replicate 8 2⟩
    let turn (task : Fin 2) (n : ℕ) : List (TeardownAction (Fin 2) Unit) :=
      List.replicate n (.task task (.announce "peer" ⟨.zero⟩))
    let calls (call : Call) (n : ℕ) : List (TeardownAction (Fin 2) Unit) :=
      .call () call :: List.replicate n (.caller ())
    let before := [.elsewhere (.sawLinkAudioEndpointAt 1 peer (some ⟨2, 20809⟩)),
      .elsewhere (.sawLinkAudioEndpointAt 1 bass (some ⟨3, 20809⟩))] ++ turn 0 7 ++
        calls .endPeerSync 59
    let after := calls .beginPeerSync 5 ++
      .elsewhere (.sawLinkAudioEndpointAt 3 peer (some ⟨2, 20809⟩)) :: (turn 0 3 ++ turn 1 9)
    let s := run step (start (.new 0 default default)) before
    let s' := run step s after
    s.epochs = [1] ∧ s'.epochs = [1, 3] ∧ s'.sentIn 1 = s.sentIn 1 := by
  intro peer bass turn calls before after s s'
  have admitted : Along step Admitted (start (.new 0 default default)) (before ++ after) := by
    decide +kernel
  have apart := generations_apart admitted
  rw [show run step (start (.new 0 default default)) before = s from rfl] at apart
  dsimp only at apart
  rw [show run step s after = s' from rfl] at apart
  exact ⟨by decide +kernel, by decide +kernel, apart.2 0 1 (by decide +kernel) (by decide +kernel)⟩

/-- Once a shutdown has closed the gate, the tasks put nothing more on the wire: the byes come last,
whatever else is going on. -/
theorem byes_last {before after : List (TeardownAction Task Caller)}
    (admitted : Along step Admitted (start (.new addr nodeId sessionId)) (before ++ after)) :
    let s := run step (start (.new addr nodeId sessionId)) before
    ∀ caller, s.gate = some caller → (s.callers caller).down = true →
      (run step s after).epochs = s.epochs := by
  intro s caller gate down
  obtain ⟨first, rest⟩ := along_append.mp admitted
  obtain ⟨locked, -⟩ := fenced_run first
  have drained : s.Drained := by
    refine ⟨locked, locked.down caller down, fun task => ?_⟩
    have idle := locked.gated caller gate task
    cases here : s.tasks task with
    | idle => rfl
    | _ =>
      rw [here] at idle
      cases idle
  refine (run_invariant (I := fun s' : Teardown Task Caller =>
    s'.Drained ∧ s'.epochs = s.epochs) ?_ ⟨drained, rfl⟩ rest).2
  exact fun _ _ ⟨drained, same⟩ admitted =>
    ⟨(drained.step admitted).1, (drained.step admitted).2.trans same⟩

theorem byes_last_woken :
    let peer : NodeId := ⟨Vector.replicate 8 1⟩
    let turn : List (TeardownAction (Fin 1) Unit) :=
      List.replicate 8 (.task 0 (.announce "peer" ⟨.zero⟩))
    let before := [.elsewhere (.sawLinkAudioEndpointAt 1 peer (some ⟨2, 20809⟩)),
      .elsewhere (.addSink default "drums")] ++ turn ++
        .call () .shutdown :: List.replicate 5 (.caller ())
    let after := turn ++ List.replicate 9 (.caller ()) ++ turn
    let s := run step (start (.new 0 default default)) before
    let s' := run step s after
    s.epochs = [1] ∧ s'.wire.map Prod.fst = [some 1, none] ∧ s'.epochs = s.epochs := by
  intro peer turn before after s s'
  have admitted : Along step Admitted (start (.new 0 default default)) (before ++ after) := by
    decide +kernel
  have last := byes_last admitted
  rw [show run step (start (.new 0 default default)) before = s from rfl] at last
  dsimp only at last
  rw [show run step s after = s' from rfl] at last
  exact ⟨by decide +kernel, by decide +kernel, last () (by decide +kernel) (by decide +kernel)⟩

end Runs

theorem engine_beginPeerSync (s : Teardown Task Caller) (caller : Caller)
    (idle : s.callers caller = .idle) (free : s.lock = none) :
    (run step s (.call caller .beginPeerSync :: List.replicate 5 (.caller caller))).engine =
      s.engine.beginPeerSync.1 := by
  unfold AudioEngine.beginPeerSync
  cases down : s.engine.shutdown with
  | true =>
    simp [step, idle, Call.start, stepCaller, callerTo, stepBegin, free, unlock, down]
  | false =>
    simp [step, idle, Call.start, stepCaller, callerTo, stepBegin, free, unlock, setEngine, down]

theorem engine_endPeerSync (s : Teardown Task Caller) (caller : Caller)
    (idle : s.callers caller = .idle) (free : s.lock = none) (opened : s.free = true) :
    (run step s (.call caller .endPeerSync :: List.replicate 9 (.caller caller))).engine =
      s.engine.endPeerSync.1 := by
  unfold Teardown.free at opened
  simp [step, idle, Call.start, stepCaller, callerTo, stepEnd, closeSendGate, ATTEMPTS, free,
    unlock, setEngine, Teardown.free, opened, openGate, AudioEngine.endPeerSync]

/-! A shutdown that runs while everything else stands still, be it below this very call. -/

def Leads (s : Teardown Task Caller) (caller : Caller) (n : ℕ) (P : Teardown Task Caller → Prop) :
    Prop :=
  ∃ k ≤ n, P (run step s (List.replicate k (.caller caller)))

theorem Leads.here {P : Teardown Task Caller → Prop} (h : P s) : s.Leads caller 0 P :=
  ⟨0, le_rfl, h⟩

theorem Leads.next {n : ℕ} {P : Teardown Task Caller → Prop} {s' : Teardown Task Caller}
    (steps : s.stepCaller caller = s') (h : s'.Leads caller n P) : s.Leads caller (n + 1) P := by
  obtain ⟨k, few, reached⟩ := h
  refine ⟨k + 1, Nat.succ_le_succ few, ?_⟩
  rw [List.replicate_succ, run_cons]
  show P (run step (s.stepCaller caller) _)
  rwa [steps]

theorem Leads.mono {m n : ℕ} {P : Teardown Task Caller → Prop} (le : m ≤ n)
    (h : s.Leads caller m P) : s.Leads caller n P :=
  h.imp fun _ => And.imp_left le.trans'

structure Down (s : Teardown Task Caller) : Prop where
  shutdown : s.engine.shutdown = true
  sharing : s.engine.sharingActive = false
  sending : s.engine.sendEpoch = none

/-- The call is over, has left no gate closed and has sent `byes`. -/
structure Ended (caller : Caller) (wire : List (Option UInt64 × Datagram))
    (s : Teardown Task Caller) : Prop where
  idle : s.callers caller = .idle
  down : s.Down
  gate : s.gate ≠ some caller
  wire : s.wire = wire

omit [DecidableEq Task] [Fintype Task] in
@[simp] theorem callers_callerTo (s : Teardown Task Caller) (caller : Caller) (place : CallerAt) :
    (s.callerTo caller place).callers caller = place := Function.update_self ..

theorem stepCaller_shutdown {place : ShutdownAt} (here : s.callers caller = .shutdown place) :
    s.stepCaller caller = s.stepShutdown caller place := by
  unfold stepCaller
  rw [here]

theorem leads_release (down : s.Down) (here : s.callers caller = .shutdown .release) :
    s.Leads caller 1 (Ended caller s.wire) := by
  refine .next (stepCaller_shutdown here) (.here ⟨callers_callerTo .., ?_, ?_, rfl⟩)
  · exact ⟨down.shutdown, down.sharing, down.sending⟩
  · show (if s.gate = some caller then none else s.gate) ≠ some caller
    split
    · rintro ⟨⟩
    next other => exact other

theorem leads_prune (attempts : ℕ) (down : s.Down)
    (here : s.callers caller = .shutdown (.prune attempts)) :
    s.Leads caller (attempts + 2) (Ended caller s.wire) := by
  induction attempts generalizing s with
  | zero =>
    refine .next (stepCaller_shutdown here) (leads_release ?_ (callers_callerTo ..))
    exact ⟨down.shutdown, down.sharing, down.sending⟩
  | succ attempts ih =>
    by_cases free : s.lock = none
    · refine .mono (m := 2) (by omega) (.next ((stepCaller_shutdown here).trans (if_pos free)) ?_)
      exact leads_release ⟨down.shutdown, down.sharing, down.sending⟩ (callers_callerTo ..)
    · refine .next ((stepCaller_shutdown here).trans (if_neg free)) (ih ?_ (callers_callerTo ..))
      exact ⟨down.shutdown, down.sharing, down.sending⟩

theorem leads_unsync (down : s.Down) (here : s.callers caller = .shutdown .unsync) :
    s.Leads caller (ATTEMPTS + 3) (Ended caller s.wire) := by
  refine .next (stepCaller_shutdown here) (leads_prune ATTEMPTS ?_ (callers_callerTo ..))
  exact ⟨down.shutdown, down.sharing, down.sending⟩

theorem leads_sending (messages : List Datagram) (down : s.Down)
    (here : s.callers caller = .shutdown (.sending messages)) :
    s.Leads caller (messages.length + (ATTEMPTS + 4))
      (Ended caller (s.wire ++ messages.map fun message => (none, message))) := by
  induction messages generalizing s with
  | nil =>
    rw [List.map_nil, List.append_nil, List.length_nil, Nat.zero_add]
    refine .next (stepCaller_shutdown here) (leads_unsync ?_ (callers_callerTo ..))
    exact ⟨down.shutdown, down.sharing, down.sending⟩
  | cons message messages ih =>
    rw [List.map_cons, List.append_cons, List.length_cons, Nat.succ_add]
    refine .next (stepCaller_shutdown here) (ih ?_ (callers_callerTo ..))
    exact ⟨down.shutdown, down.sharing, down.sending⟩

theorem leads_sinks_taken (attempts : ℕ) (taken : s.lock ≠ none) (down : s.Down)
    (here : s.callers caller = .shutdown (.sinks attempts)) :
    s.Leads caller (attempts + (ATTEMPTS + 4)) (Ended caller s.wire) := by
  induction attempts generalizing s with
  | zero =>
    refine .mono (m := ATTEMPTS + 4) (by omega) (.next (stepCaller_shutdown here) ?_)
    exact leads_unsync ⟨down.shutdown, down.sharing, down.sending⟩ (callers_callerTo ..)
  | succ attempts ih =>
    rw [Nat.succ_add]
    refine .next ((stepCaller_shutdown here).trans (if_neg taken)) (ih taken ?_
      (callers_callerTo ..))
    exact ⟨down.shutdown, down.sharing, down.sending⟩

def byes (s : Teardown Task Caller) : List Datagram :=
  if s.lock = none then s.engine.state.farewells else []

theorem leads_sinks (attempts : ℕ) (down : s.Down)
    (here : s.callers caller = .shutdown (.sinks (attempts + 1))) :
    s.Leads caller (attempts + s.byes.length + (ATTEMPTS + 6))
      (Ended caller (s.wire ++ s.byes.map fun message => (none, message))) := by
  have still : ∀ place, (s.callerTo caller place).Down := fun _ =>
    ⟨down.shutdown, down.sharing, down.sending⟩
  unfold byes
  by_cases free : s.lock = none
  · rw [if_pos free]
    have taken := (stepCaller_shutdown here).trans (if_pos free)
    cases none : (s.engine.state.sinks.map fun entry => entry.sink.id).isEmpty with
    | true =>
      have silent : s.engine.state.farewells = [] := by
        unfold EngineState.farewells
        rw [List.isEmpty_iff.mp none]
        rfl
      rw [silent, List.map_nil, List.append_nil, List.length_nil]
      refine .mono (m := ATTEMPTS + 4) (by omega) (.next taken ?_)
      rw [none]
      exact leads_unsync (still _) (callers_callerTo ..)
    | false =>
      refine .mono (m := s.engine.state.farewells.length + (ATTEMPTS + 4) + 1 + 1) (by omega)
        (.next taken ?_)
      rw [none]
      refine .next ((stepCaller_shutdown (callers_callerTo ..)).trans (if_pos free)) ?_
      exact leads_sending _ ⟨down.shutdown, down.sharing, down.sending⟩ (callers_callerTo ..)
  · rw [if_neg free, List.map_nil, List.append_nil, List.length_nil]
    exact .mono (m := attempts + 1 + (ATTEMPTS + 4)) (by omega) (leads_sinks_taken _ free down here)

theorem leads_gate_past (closed : s.stepCaller caller = s') (wire : s'.wire = s.wire)
    (byes : s'.byes = s.byes) (down : s'.Down)
    (there : s'.callers caller = .shutdown (.sinks ATTEMPTS)) :
    s.Leads caller (s.byes.length + (2 * ATTEMPTS + 6))
      (Ended caller (s.wire ++ s.byes.map fun message => (none, message))) := by
  have ended := leads_sinks (ATTEMPTS - 1) down there
  rw [wire, byes] at ended
  refine .mono ?_ (.next closed ended)
  unfold ATTEMPTS
  omega

theorem leads_gate (attempts : ℕ) (down : s.Down)
    (here : s.callers caller = .shutdown (.gate attempts)) :
    s.Leads caller (attempts + (s.byes.length + (2 * ATTEMPTS + 6)))
      (Ended caller (s.wire ++ s.byes.map fun message => (none, message))) := by
  induction attempts generalizing s with
  | zero =>
    rw [Nat.zero_add]
    refine leads_gate_past (stepCaller_shutdown here) rfl rfl ?_ (callers_callerTo ..)
    exact ⟨down.shutdown, down.sharing, down.sending⟩
  | succ attempts ih =>
    by_cases free : s.free = true
    · have closed := (stepCaller_shutdown here).trans (if_pos free)
      refine .mono (Nat.le_add_left ..) (leads_gate_past closed rfl rfl ?_ (callers_callerTo ..))
      exact ⟨down.shutdown, down.sharing, down.sending⟩
    · rw [Nat.succ_add]
      refine .next ((stepCaller_shutdown here).trans (if_neg free)) (ih ?_ (callers_callerTo ..))
      exact ⟨down.shutdown, down.sharing, down.sending⟩

/-- A shutdown returns, whatever the tasks and the other calls stand still with: the lock of the
state, the gate, or both below a callback that shuts the engine down.  If the lock is free, it says
goodbye to every peer for every sink. -/
theorem shutdown_returns (s : Teardown Task Caller) (caller : Caller)
    (idle : s.callers caller = .idle) (running : s.engine.shutdown = false) :
    ∃ n ≤ 3 * ATTEMPTS + 10 + s.byes.length,
      let s' := run step s (.call caller .shutdown :: List.replicate n (.caller caller))
      s'.callers caller = .idle ∧ s'.Down ∧ s'.gate ≠ some caller ∧
        s'.wire = s.wire ++ s.byes.map fun message => (none, message) := by
  have begins : s.step (.call caller .shutdown) = s.callerTo caller (.shutdown .swap) := by
    unfold step
    dsimp only
    rw [idle]
    rfl
  have leads : (s.callerTo caller (.shutdown .swap)).Leads caller
      (3 * ATTEMPTS + 10 + s.byes.length)
      (Ended caller (s.wire ++ s.byes.map fun message => (none, message))) := by
    refine .mono (m := ATTEMPTS + (s.byes.length + (2 * ATTEMPTS + 6)) + 1 + 1 + 1 + 1)
      (by omega) ?_
    refine .next ((stepCaller_shutdown (callers_callerTo ..)).trans (if_neg ?_)) ?_
    · show ¬s.engine.shutdown = true
      rw [running]
      exact Bool.false_ne_true
    refine .next (stepCaller_shutdown (callers_callerTo ..)) ?_
    refine .next (stepCaller_shutdown (callers_callerTo ..)) ?_
    refine .next (stepCaller_shutdown (callers_callerTo ..)) ?_
    exact leads_gate ATTEMPTS ⟨rfl, rfl, rfl⟩ (callers_callerTo ..)
  obtain ⟨n, few, ended⟩ := leads
  refine ⟨n, few, ?_⟩
  intro s'
  have same : s' = run step (s.callerTo caller (.shutdown .swap))
      (List.replicate n (.caller caller)) := by
    show run step s (.call caller .shutdown :: _) = _
    rw [run_cons, begins]
  rw [same]
  exact ⟨ended.idle, ended.down, ended.gate, ended.wire⟩

theorem shutdown_returns_below :
    let s : Teardown (Fin 1) Unit := run step (start (.new 0 default default))
      (.elsewhere (.addSink default "drums") :: List.replicate 5 (.task 0 (.process 0)))
    s.lock = some (.inl 0) ∧ s.free = false ∧
      ∃ n ≤ 3 * ATTEMPTS + 10 + s.byes.length,
        let s' := run step s (.call () .shutdown :: List.replicate n (.caller ()))
        s'.callers () = .idle ∧ s'.Down ∧ s'.gate ≠ some () ∧
          s'.wire = s.wire ++ s.byes.map fun message => (none, message) := by
  intro s
  have idle : s.callers () = .idle := by rfl
  exact ⟨by decide +kernel, by decide +kernel, shutdown_returns s () idle (by decide +kernel)⟩

end Teardown

end AbletonLink.Audio
