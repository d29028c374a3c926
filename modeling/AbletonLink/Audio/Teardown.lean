import AbletonLink.Audio.Rounds
import Mathlib.Data.Fintype.Basic

/-! The tasks of an audio engine against the calls that begin, end and shut down what they do: each
lock, each atomic and each datagram is a step of its own.  The calls wait for the tasks with bounded
patience only. -/

universe u v

namespace AbletonLink.Audio

open Library Library.Run Link

/-- Where an iteration of a task is.  From `entered` on it has the read side of the gate; a task
that has returned or was aborted stays idle. -/
inductive TaskAt
  | idle
  | entered
  | admitted
  | active
  | locking (epoch : UInt64)
  | locked (epoch : UInt64)
  | sending (epoch : UInt64) (messages : List Datagram)

def TaskAt.epoch : TaskAt → Option UInt64
  | .locking epoch => some epoch
  | .locked epoch => some epoch
  | .sending epoch _ => some epoch
  | _ => none

def TaskAt.isIdle : TaskAt → Bool
  | .idle => true
  | _ => false

inductive BeginAt
  | lock
  | check
  | bump
  | send (epoch : UInt64)
  | share

inductive EndAt
  | share
  | send
  | gate (attempts : Nat)
  | lock
  | shareLocked
  | sendLocked
  | bump
  | prune
  | release

inductive ShutdownAt
  | swap
  | share
  | send
  | bump
  | gate (attempts : Nat)
  | sinks (attempts : Nat)
  | byes (ids : List Id)
  | sending (messages : List Datagram)
  | unsync
  | prune (attempts : Nat)
  | release

inductive CallerAt
  | idle
  | beginPeerSync (place : BeginAt)
  | endPeerSync (place : EndAt)
  | shutdown (place : ShutdownAt)

def CallerAt.locked : CallerAt → Bool
  | .beginPeerSync .lock => false
  | .beginPeerSync _ => true
  | .endPeerSync .shareLocked => true
  | .endPeerSync .sendLocked => true
  | .endPeerSync .bump => true
  | .endPeerSync .prune => true
  | _ => false

def CallerAt.bumps : CallerAt → Bool
  | .beginPeerSync .bump => true
  | .endPeerSync .bump => true
  | .shutdown .bump => true
  | .shutdown .unsync => true
  | _ => false

inductive Call
  | beginPeerSync
  | endPeerSync
  | shutdown

def Call.start : Call → CallerAt
  | .beginPeerSync => .beginPeerSync .lock
  | .endPeerSync => .endPeerSync .share
  | .shutdown => .shutdown .swap

def ATTEMPTS : Nat := 50

/-- `lock` is the lock of the state, `gate` the call with the write side of the gate.  `wire` is
what was sent, with the epoch it was fenced by if it was. -/
structure Teardown (Task : Type u) (Caller : Type v) where
  engine : AudioEngine
  announced : List ChannelAnnouncement
  lock : Option (Task ⊕ Caller)
  gate : Option Caller
  tasks : Task → TaskAt
  callers : Caller → CallerAt
  wire : List (Option UInt64 × Datagram)

/-- `elsewhere` are the other critical sections of the state, `unfenced` the messages that
`remove_sink` and `remove_source` send. -/
inductive TeardownAction (Task : Type u) (Caller : Type v)
  | task (task : Task) (work : Work)
  | call (caller : Caller) (call : Call)
  | caller (caller : Caller)
  | elsewhere (op : EngineOp)
  | unfenced (message : Datagram)

namespace Teardown

variable {Task : Type u} {Caller : Type v} [DecidableEq Task] [DecidableEq Caller]

def start (engine : AudioEngine) : Teardown Task Caller where
  engine
  announced := []
  lock := none
  gate := none
  tasks := fun _ => .idle
  callers := fun _ => .idle
  wire := []

def taskTo (s : Teardown Task Caller) (task : Task) (place : TaskAt) : Teardown Task Caller :=
  { s with tasks := Function.update s.tasks task place }

def callerTo (s : Teardown Task Caller) (caller : Caller) (place : CallerAt) :
    Teardown Task Caller :=
  { s with callers := Function.update s.callers caller place }

def unlock (s : Teardown Task Caller) (owner : Task ⊕ Caller) : Teardown Task Caller :=
  { s with lock := if s.lock = some owner then none else s.lock }

def openGate (s : Teardown Task Caller) (caller : Caller) : Teardown Task Caller :=
  { s with gate := if s.gate = some caller then none else s.gate }

def setEngine (s : Teardown Task Caller) (engine : AudioEngine) : Teardown Task Caller :=
  { s with engine }

def stepTask (s : Teardown Task Caller) (task : Task) (work : Work) : Teardown Task Caller :=
  match s.tasks task with
  | .idle => if s.gate = none then s.taskTo task .entered else s
  | .entered => s.taskTo task (if s.engine.shutdown then .idle else .admitted)
  | .admitted => s.taskTo task (if s.engine.sharingActive then .active else .idle)
  | .active => s.taskTo task (s.engine.sendEpoch.elim .idle .locking)
  | .locking epoch =>
    if s.lock = none then { s with lock := some (.inl task) }.taskTo task (.locked epoch) else s
  | .locked epoch =>
    let (engine, announced, messages) := work.perform s.engine s.announced epoch
    let s := { s with engine, announced }.taskTo task (.sending epoch messages)
    if work.answers then s else s.unlock (.inl task)
  | .sending _ [] => (s.unlock (.inl task)).taskTo task .idle
  | .sending epoch (message :: messages) =>
    let s := s.taskTo task (.sending epoch messages)
    if s.engine.sendEpoch = some epoch then { s with wire := s.wire ++ [(some epoch, message)] }
    else s

def stepBegin (s : Teardown Task Caller) (caller : Caller) : BeginAt → Teardown Task Caller
  | .lock =>
    if s.lock = none then
      { s with lock := some (.inr caller) }.callerTo caller (.beginPeerSync .check)
    else s
  | .check =>
    if s.engine.shutdown then (s.unlock (.inr caller)).callerTo caller .idle
    else s.callerTo caller (.beginPeerSync .bump)
  | .bump =>
    let epoch := s.engine.syncEpoch + 1
    let state := s.engine.state.discardSinkBuffers
    (s.setEngine { s.engine with state, syncEpoch := epoch }).callerTo caller
      (.beginPeerSync (.send epoch))
  | .send epoch =>
    (s.setEngine { s.engine with sendEpoch := some epoch }).callerTo caller (.beginPeerSync .share)
  | .share =>
    ((s.setEngine { s.engine with sharingActive := true }).unlock (.inr caller)).callerTo caller
      .idle

section Closing

variable [Fintype Task]

def free (s : Teardown Task Caller) : Bool :=
  s.gate.isNone && decide (∀ task, (s.tasks task).isIdle = true)

def closeSendGate (s : Teardown Task Caller) (caller : Caller) (again : Nat → CallerAt)
    (next : CallerAt) : Nat → Teardown Task Caller
  | 0 => s.callerTo caller next
  | attempts + 1 =>
    if s.free then { s with gate := some caller }.callerTo caller next
    else s.callerTo caller (again attempts)

def stepEnd (s : Teardown Task Caller) (caller : Caller) : EndAt → Teardown Task Caller
  | .share =>
    (s.setEngine { s.engine with sharingActive := false }).callerTo caller (.endPeerSync .send)
  | .send =>
    (s.setEngine { s.engine with sendEpoch := none }).callerTo caller
      (.endPeerSync (.gate ATTEMPTS))
  | .gate attempts =>
    s.closeSendGate caller (fun attempts => .endPeerSync (.gate attempts)) (.endPeerSync .lock)
      attempts
  | .lock =>
    if s.lock = none then
      { s with lock := some (.inr caller) }.callerTo caller (.endPeerSync .shareLocked)
    else s
  | .shareLocked =>
    (s.setEngine { s.engine with sharingActive := false }).callerTo caller
      (.endPeerSync .sendLocked)
  | .sendLocked =>
    (s.setEngine { s.engine with sendEpoch := none }).callerTo caller (.endPeerSync .bump)
  | .bump =>
    (s.setEngine { s.engine with syncEpoch := s.engine.syncEpoch + 1 }).callerTo caller
      (.endPeerSync .prune)
  | .prune =>
    let state := (s.engine.state.discardSinkBuffers.prunePeers []).1
    ((s.setEngine { s.engine with state }).unlock (.inr caller)).callerTo caller
      (.endPeerSync .release)
  | .release => (s.openGate caller).callerTo caller .idle

/-- `shutdown`.  `try_with_state` gives up after as many attempts as `close_send_gate`. -/
def stepShutdown (s : Teardown Task Caller) (caller : Caller) :
    ShutdownAt → Teardown Task Caller
  | .swap =>
    if s.engine.shutdown then s.callerTo caller .idle
    else (s.setEngine { s.engine with shutdown := true }).callerTo caller (.shutdown .share)
  | .share =>
    (s.setEngine { s.engine with sharingActive := false }).callerTo caller (.shutdown .send)
  | .send =>
    (s.setEngine { s.engine with sendEpoch := none }).callerTo caller (.shutdown .bump)
  | .bump =>
    (s.setEngine { s.engine with syncEpoch := s.engine.syncEpoch + 1 }).callerTo caller
      (.shutdown (.gate ATTEMPTS))
  | .gate attempts =>
    s.closeSendGate caller (fun attempts => .shutdown (.gate attempts))
      (.shutdown (.sinks ATTEMPTS)) attempts
  | .sinks 0 => s.callerTo caller (.shutdown .unsync)
  | .sinks (attempts + 1) =>
    if s.lock = none then
      let ids := s.engine.state.sinks.map fun entry => entry.sink.id
      s.callerTo caller (.shutdown (if ids.isEmpty then .unsync else .byes ids))
    else s.callerTo caller (.shutdown (.sinks attempts))
  | .byes ids =>
    if s.lock = none then
      s.callerTo caller (.shutdown (.sending (s.engine.state.channelByes ids)))
    else s
  | .sending [] => s.callerTo caller (.shutdown .unsync)
  | .sending (message :: messages) =>
    { s with wire := s.wire ++ [(none, message)] }.callerTo caller (.shutdown (.sending messages))
  | .unsync =>
    (s.setEngine { s.engine with syncEpoch := s.engine.syncEpoch + 1 }).callerTo caller
      (.shutdown (.prune ATTEMPTS))
  | .prune 0 => s.callerTo caller (.shutdown .release)
  | .prune (attempts + 1) =>
    if s.lock = none then
      (s.setEngine { s.engine with state := (s.engine.state.prunePeers []).1 }).callerTo caller
        (.shutdown .release)
    else s.callerTo caller (.shutdown (.prune attempts))
  | .release => (s.openGate caller).callerTo caller .idle

def stepCaller (s : Teardown Task Caller) (caller : Caller) : Teardown Task Caller :=
  match s.callers caller with
  | .idle => s
  | .beginPeerSync place => s.stepBegin caller place
  | .endPeerSync place => s.stepEnd caller place
  | .shutdown place => s.stepShutdown caller place

def step (s : Teardown Task Caller) : TeardownAction Task Caller → Teardown Task Caller
  | .task task work => s.stepTask task work
  | .call caller call =>
    match s.callers caller with
    | .idle => s.callerTo caller call.start
    | _ => s
  | .caller caller => s.stepCaller caller
  | .elsewhere op => if s.lock = none then s.setEngine (op.step s.engine) else s
  | .unfenced message => { s with wire := s.wire ++ [(none, message)] }

def Admitted (s : Teardown Task Caller) : TeardownAction Task Caller → Prop
  | .caller caller => (s.callers caller).bumps = true → s.engine.syncEpoch.toNat + 1 < 2 ^ 64
  | .elsewhere op => (op.step s.engine).gates = s.engine.gates
  | _ => True

instance decidableAdmitted (s : Teardown Task Caller) (op : TeardownAction Task Caller) :
    Decidable (s.Admitted op) := by
  unfold Admitted
  split <;> infer_instance

end Closing

end Teardown

def TaskAt.early : TaskAt → Bool
  | .idle => true
  | .entered => true
  | _ => false

def CallerAt.down : CallerAt → Bool
  | .shutdown .swap => false
  | .shutdown _ => true
  | _ => false

namespace Teardown

variable {Task : Type u} {Caller : Type v} [DecidableEq Task] [DecidableEq Caller]
  {s s' : Teardown Task Caller} {task : Task} {caller : Caller}

structure TaskStep (s s' : Teardown Task Caller) (task : Task) : Prop where
  gates : s'.engine.gates = s.engine.gates
  callers : s'.callers = s.callers
  gate : s'.gate = s.gate
  lock : ∀ caller, s.lock = some (.inr caller) → s'.lock = some (.inr caller)
  others : ∀ other, other ≠ task → s'.tasks other = s.tasks other
  epoch : ∀ epoch, (s'.tasks task).epoch = some epoch →
    (s.tasks task).epoch = some epoch ∨ s.engine.sendEpoch = some epoch
  enters : (s.tasks task).isIdle = true → (s'.tasks task).isIdle = false → s.gate = none
  halts : s.engine.shutdown = true → (s.tasks task).early = true → (s'.tasks task).early = true
  wire : s'.wire = s.wire ∨ ∃ epoch message, (s.tasks task).epoch = some epoch ∧
    s.engine.sendEpoch = some epoch ∧ s'.wire = s.wire ++ [(some epoch, message)]

omit [DecidableEq Caller] in
theorem taskStep_to {place : TaskAt} {engine : AudioEngine} {announced : List ChannelAnnouncement}
    {lock : Option (Task ⊕ Caller)} (gates : engine.gates = s.engine.gates)
    (kept : ∀ caller, s.lock = some (.inr caller) → lock = some (.inr caller))
    (epoch : ∀ epoch, place.epoch = some epoch →
      (s.tasks task).epoch = some epoch ∨ s.engine.sendEpoch = some epoch)
    (enters : (s.tasks task).isIdle = true → place.isIdle = false → s.gate = none)
    (halts : s.engine.shutdown = true → (s.tasks task).early = true → place.early = true) :
    TaskStep s ({ s with engine, announced, lock }.taskTo task place) task := by
  have here : Function.update s.tasks task place task = place := Function.update_self ..
  refine ⟨gates, rfl, rfl, kept, fun other apart => Function.update_of_ne apart .., ?_, ?_, ?_,
    .inl rfl⟩
  · show ∀ epoch, (Function.update s.tasks task place task).epoch = some epoch → _
    rw [here]
    exact epoch
  · show _ → (Function.update s.tasks task place task).isIdle = false → _
    rw [here]
    exact enters
  · show _ → _ → (Function.update s.tasks task place task).early = true
    rw [here]
    exact halts

omit [DecidableEq Caller] in
theorem taskStep_past {place : TaskAt} {engine : AudioEngine}
    {announced : List ChannelAnnouncement} {lock : Option (Task ⊕ Caller)}
    (past : (s.tasks task).early = false) (gates : engine.gates = s.engine.gates)
    (kept : ∀ caller, s.lock = some (.inr caller) → lock = some (.inr caller))
    (epoch : ∀ epoch, place.epoch = some epoch →
      (s.tasks task).epoch = some epoch ∨ s.engine.sendEpoch = some epoch) :
    TaskStep s ({ s with engine, announced, lock }.taskTo task place) task := by
  refine taskStep_to gates kept epoch (fun idle _ => ?_) (fun _ early => ?_)
  · cases here : s.tasks task with
    | idle =>
      rw [here] at past
      cases past
    | _ =>
      rw [here] at idle
      cases idle
  · rw [past] at early
    cases early

omit [DecidableEq Task] [DecidableEq Caller] in
theorem TaskStep.refl (s : Teardown Task Caller) (task : Task) : TaskStep s s task where
  gates := rfl
  callers := rfl
  gate := rfl
  lock _ held := held
  others _ _ := rfl
  epoch _ here := .inl here
  enters idle busy := by
    rw [idle] at busy
    cases busy
  halts _ early := early
  wire := .inl rfl

theorem kept_unlock {owner other : Task ⊕ Caller} (apart : other ≠ owner)
    (held : s.lock = some other) : (s.unlock owner).lock = some other := by
  unfold unlock
  dsimp only
  rw [held, if_neg fun same => apart (Option.some.inj same)]

theorem taskStep (s : Teardown Task Caller) (task : Task) (work : Work) :
    TaskStep s (s.stepTask task work) task := by
  unfold stepTask
  cases here : s.tasks task with
  | idle =>
    dsimp only
    split
    next opened =>
      refine taskStep_to rfl (fun _ held => held) (by rintro _ ⟨⟩) (fun _ _ => opened) ?_
      exact fun _ _ => rfl
    next => exact .refl s task
  | entered =>
    refine taskStep_to rfl (fun _ held => held) ?_ ?_ ?_
    · split <;> rintro _ ⟨⟩
    · rw [here]
      rintro ⟨⟩
    · intro down _
      rw [if_pos down]
      rfl
  | admitted =>
    refine taskStep_past ?_ rfl (fun _ held => held) ?_
    · rw [here]
      rfl
    · split <;> rintro _ ⟨⟩
  | active =>
    refine taskStep_past ?_ rfl (fun _ held => held) ?_
    · rw [here]
      rfl
    · cases sent : s.engine.sendEpoch with
      | none => rintro _ ⟨⟩
      | some epoch => exact fun _ => .inr
  | locking epoch =>
    dsimp only
    split
    next unlocked =>
      refine taskStep_past ?_ rfl (fun caller held => ?_) ?_
      · rw [here]
        rfl
      · rw [unlocked] at held
        cases held
      · rw [here]
        exact fun _ => .inl
    next => exact .refl s task
  | locked epoch =>
    have past : (s.tasks task).early = false := by
      rw [here]
      rfl
    have quoted (messages : List Datagram) (other : UInt64)
        (same : (TaskAt.sending epoch messages).epoch = some other) :
        (s.tasks task).epoch = some other ∨ s.engine.sendEpoch = some other := by
      rw [here]
      exact .inl same
    have gates := work.gates_perform s.engine s.announced epoch
    dsimp only
    split
    · exact taskStep_past past gates (fun _ held => held) (quoted _)
    · exact taskStep_past past gates (fun _ => kept_unlock (by rintro ⟨⟩)) (quoted _)
  | sending epoch messages =>
    have past : (s.tasks task).early = false := by
      rw [here]
      rfl
    cases messages with
    | nil => exact taskStep_past past rfl (fun _ => kept_unlock (by rintro ⟨⟩)) (by rintro _ ⟨⟩)
    | cons message messages =>
      have goes : TaskStep s (s.taskTo task (.sending epoch messages)) task := by
        refine taskStep_past past rfl (fun _ held => held) ?_
        rw [here]
        exact fun _ => .inl
      dsimp only
      split
      next sent =>
        refine { goes with wire := .inr ⟨epoch, message, ?_, sent, rfl⟩ }
        rw [here]
        rfl
      next => exact goes

variable [Fintype Task]

/-- All that a step of a call can do, if it has the lock where it should. -/
structure CallerStep (s s' : Teardown Task Caller) (caller : Caller) : Prop where
  tasks : s'.tasks = s.tasks
  others : ∀ other, other ≠ caller → s'.callers other = s.callers other
  wire : s'.wire = s.wire ∨ ∃ message, s'.wire = s.wire ++ [(none, message)]
  shutdown : s.engine.shutdown = true → s'.engine.shutdown = true
  lock : ∀ other, other ≠ caller → s.lock = some (.inr other) → s'.lock = some (.inr other)
  holds : (s'.callers caller).locked = true → s'.lock = some (.inr caller)
  gate : s'.gate = s.gate ∨ s'.gate = none ∨ s.free = true ∧ s'.gate = some caller
  counter : s'.engine.syncEpoch = s.engine.syncEpoch ∨
    (s.callers caller).bumps = true ∧ s'.engine.syncEpoch = s.engine.syncEpoch + 1
  current : s'.engine.sendEpoch = s.engine.sendEpoch ∨ s'.engine.sendEpoch = none ∨
    ∃ epoch, s.callers caller = .beginPeerSync (.send epoch) ∧ s'.engine.sendEpoch = some epoch
  fresh : ∀ epoch, s'.callers caller = .beginPeerSync (.send epoch) →
    s.callers caller = .beginPeerSync .bump ∧ s.engine.syncEpoch + 1 = epoch ∧
      s'.engine.syncEpoch = epoch
  down : (s'.callers caller).down = true → s'.engine.shutdown = true

omit [DecidableEq Task] in
theorem callerStep_to {place : CallerAt} {engine : AudioEngine} {lock : Option (Task ⊕ Caller)}
    {gate : Option Caller} {wire : List (Option UInt64 × Datagram)}
    (wires : wire = s.wire ∨ ∃ message, wire = s.wire ++ [(none, message)])
    (shutdown : s.engine.shutdown = true → engine.shutdown = true)
    (locks : ∀ other, other ≠ caller → s.lock = some (.inr other) → lock = some (.inr other))
    (holds : place.locked = true → lock = some (.inr caller))
    (gates : gate = s.gate ∨ gate = none ∨ s.free = true ∧ gate = some caller)
    (counter : engine.syncEpoch = s.engine.syncEpoch ∨
      (s.callers caller).bumps = true ∧ engine.syncEpoch = s.engine.syncEpoch + 1)
    (current : engine.sendEpoch = s.engine.sendEpoch ∨ engine.sendEpoch = none ∨
      ∃ epoch, s.callers caller = .beginPeerSync (.send epoch) ∧ engine.sendEpoch = some epoch)
    (fresh : ∀ epoch, place = .beginPeerSync (.send epoch) →
      s.callers caller = .beginPeerSync .bump ∧ s.engine.syncEpoch + 1 = epoch ∧
        engine.syncEpoch = epoch)
    (down : place.down = true → engine.shutdown = true) :
    CallerStep s ({ s with engine, lock, gate, wire }.callerTo caller place) caller := by
  have here : Function.update s.callers caller place caller = place := Function.update_self ..
  refine ⟨rfl, fun other apart => Function.update_of_ne apart .., wires, shutdown, locks, ?_, gates,
    counter, current, ?_, ?_⟩
  · show (Function.update s.callers caller place caller).locked = true → _
    rw [here]
    exact holds
  · show ∀ epoch, Function.update s.callers caller place caller = _ → _
    rw [here]
    exact fresh
  · show (Function.update s.callers caller place caller).down = true → _
    rw [here]
    exact down

omit [DecidableEq Task] in
theorem callerStep_past {place : CallerAt} {engine : AudioEngine}
    {wire : List (Option UInt64 × Datagram)} (gates : engine.gates = s.engine.gates)
    (wires : wire = s.wire ∨ ∃ message, wire = s.wire ++ [(none, message)])
    (holds : place.locked = true → s.lock = some (.inr caller))
    (fresh : ∀ epoch, place ≠ .beginPeerSync (.send epoch))
    (down : place.down = true → s.engine.shutdown = true) :
    CallerStep s ({ s with engine, wire }.callerTo caller place) caller := by
  unfold AudioEngine.gates at gates
  injection gates with current gates
  injection gates with counter gates
  injection gates with sharing shutdown
  refine callerStep_to wires shutdown.trans (fun _ _ held => held) holds (.inl rfl) (.inl counter)
    (.inl current) (fun epoch here => absurd here (fresh epoch)) fun here => ?_
  exact shutdown.trans (down here)

omit [DecidableEq Task] [DecidableEq Caller] in
theorem CallerStep.refl (held : (s.callers caller).locked = true → s.lock = some (.inr caller))
    (fresh : ∀ epoch, s.callers caller ≠ .beginPeerSync (.send epoch))
    (down : (s.callers caller).down = true → s.engine.shutdown = true) :
    CallerStep s s caller where
  tasks := rfl
  others _ _ := rfl
  wire := .inl rfl
  shutdown := id
  lock _ _ held := held
  holds := held
  gate := .inl rfl
  counter := .inl rfl
  current := .inl rfl
  fresh epoch here := absurd here (fresh epoch)
  down := down

omit [DecidableEq Task] in
theorem closeSendGate_spec {again : Nat → CallerAt} {next : CallerAt} (attempts : Nat)
    (waits : ∀ attempts, (again attempts).locked = false ∧
      (∀ epoch, again attempts ≠ .beginPeerSync (.send epoch)) ∧
        ((again attempts).down = true → s.engine.shutdown = true))
    (goes : next.locked = false ∧ (∀ epoch, next ≠ .beginPeerSync (.send epoch)) ∧
      (next.down = true → s.engine.shutdown = true)) :
    CallerStep s (s.closeSendGate caller again next attempts) caller := by
  have unlocked {place : CallerAt} (apart : place.locked = false) :
      place.locked = true → s.lock = some (.inr caller) := by
    rw [apart]
    rintro ⟨⟩
  cases attempts with
  | zero => exact callerStep_past rfl (.inl rfl) (unlocked goes.1) goes.2.1 goes.2.2
  | succ attempts =>
    unfold closeSendGate
    dsimp only
    split
    next free =>
      exact callerStep_to (.inl rfl) id (fun _ _ held => held) (unlocked goes.1)
        (.inr (.inr ⟨free, rfl⟩)) (.inl rfl) (.inl rfl)
        (fun epoch here => absurd here (goes.2.1 epoch)) goes.2.2
    next =>
      obtain ⟨locked, fresh, down⟩ := waits attempts
      exact callerStep_past rfl (.inl rfl) (unlocked locked) fresh down

theorem stepBegin_spec (s : Teardown Task Caller) {caller : Caller} {place : BeginAt}
    (here : s.callers caller = .beginPeerSync place)
    (held : (s.callers caller).locked = true → s.lock = some (.inr caller)) :
    CallerStep s (s.stepBegin caller place) caller := by
  rw [here] at held
  have others : ∀ other, other ≠ caller → s.lock = some (.inr other) →
      (s.unlock (.inr caller)).lock = some (.inr other) := fun other apart =>
    kept_unlock fun same => apart (Sum.inr.inj same)
  unfold stepBegin
  cases place with
  | lock =>
    dsimp only
    split
    next unlocked =>
      refine callerStep_to (.inl rfl) id (fun other _ held => ?_) (fun _ => rfl) (.inl rfl)
        (.inl rfl) (.inl rfl) (by rintro _ ⟨⟩) (by rintro ⟨⟩)
      rw [unlocked] at held
      cases held
    next =>
      refine .refl ?_ ?_ ?_ <;> rw [here]
      · exact held
      · rintro _ ⟨⟩
      · rintro ⟨⟩
  | check =>
    dsimp only
    split
    next =>
      exact callerStep_to (.inl rfl) id others (by rintro ⟨⟩) (.inl rfl)
        (.inl rfl) (.inl rfl) (by rintro _ ⟨⟩) (by rintro ⟨⟩)
    next =>
      exact callerStep_past rfl (.inl rfl) (fun _ => held rfl) (by rintro _ ⟨⟩) (by rintro ⟨⟩)
  | bump =>
    refine callerStep_to (.inl rfl) id (fun _ _ held => held) (fun _ => held rfl) (.inl rfl)
      (.inr ⟨?_, rfl⟩) (.inl rfl) ?_ (by rintro ⟨⟩)
    · rw [here]
      rfl
    · rintro epoch ⟨⟩
      exact ⟨here, rfl, rfl⟩
  | send epoch =>
    exact callerStep_to (.inl rfl) id (fun _ _ held => held) (fun _ => held rfl) (.inl rfl)
      (.inl rfl) (.inr (.inr ⟨epoch, here, rfl⟩)) (by rintro _ ⟨⟩) (by rintro ⟨⟩)
  | share =>
    exact callerStep_to (.inl rfl) id others (by rintro ⟨⟩) (.inl rfl)
      (.inl rfl) (.inl rfl) (by rintro _ ⟨⟩) (by rintro ⟨⟩)

theorem stepEnd_spec (s : Teardown Task Caller) {caller : Caller} {place : EndAt}
    (here : s.callers caller = .endPeerSync place)
    (held : (s.callers caller).locked = true → s.lock = some (.inr caller)) :
    CallerStep s (s.stepEnd caller place) caller := by
  rw [here] at held
  have others : ∀ other, other ≠ caller → s.lock = some (.inr other) →
      (s.unlock (.inr caller)).lock = some (.inr other) := fun other apart =>
    kept_unlock fun same => apart (Sum.inr.inj same)
  unfold stepEnd
  cases place with
  | share =>
    exact callerStep_to (.inl rfl) id (fun _ _ held => held) (by rintro ⟨⟩) (.inl rfl) (.inl rfl)
      (.inl rfl) (by rintro _ ⟨⟩) (by rintro ⟨⟩)
  | send =>
    exact callerStep_to (.inl rfl) id (fun _ _ held => held) (by rintro ⟨⟩) (.inl rfl) (.inl rfl)
      (.inr (.inl rfl)) (by rintro _ ⟨⟩) (by rintro ⟨⟩)
  | gate attempts =>
    exact closeSendGate_spec attempts (fun _ => ⟨rfl, by rintro _ ⟨⟩, by rintro ⟨⟩⟩)
      ⟨rfl, by rintro _ ⟨⟩, by rintro ⟨⟩⟩
  | lock =>
    dsimp only
    split
    next unlocked =>
      refine callerStep_to (.inl rfl) id (fun other _ held => ?_) (fun _ => rfl) (.inl rfl)
        (.inl rfl) (.inl rfl) (by rintro _ ⟨⟩) (by rintro ⟨⟩)
      rw [unlocked] at held
      cases held
    next =>
      refine .refl ?_ ?_ ?_ <;> rw [here]
      · exact held
      · rintro _ ⟨⟩
      · rintro ⟨⟩
  | shareLocked =>
    exact callerStep_to (.inl rfl) id (fun _ _ held => held) (fun _ => held rfl) (.inl rfl)
      (.inl rfl) (.inl rfl) (by rintro _ ⟨⟩) (by rintro ⟨⟩)
  | sendLocked =>
    exact callerStep_to (.inl rfl) id (fun _ _ held => held) (fun _ => held rfl) (.inl rfl)
      (.inl rfl) (.inr (.inl rfl)) (by rintro _ ⟨⟩) (by rintro ⟨⟩)
  | bump =>
    refine callerStep_to (.inl rfl) id (fun _ _ held => held) (fun _ => held rfl) (.inl rfl)
      (.inr ⟨?_, rfl⟩) (.inl rfl) (by rintro _ ⟨⟩) (by rintro ⟨⟩)
    rw [here]
    rfl
  | prune =>
    exact callerStep_to (.inl rfl) id others (by rintro ⟨⟩) (.inl rfl) (.inl rfl) (.inl rfl)
      (by rintro _ ⟨⟩) (by rintro ⟨⟩)
  | release =>
    refine callerStep_to (.inl rfl) id (fun _ _ held => held) (by rintro ⟨⟩) ?_ (.inl rfl)
      (.inl rfl) (by rintro _ ⟨⟩) (by rintro ⟨⟩)
    exact (ite_eq_or_eq ..).symm.imp_right .inl

omit [DecidableEq Task] in
theorem stepShutdown_spec (s : Teardown Task Caller) {caller : Caller} {place : ShutdownAt}
    (here : s.callers caller = .shutdown place)
    (down : (s.callers caller).down = true → s.engine.shutdown = true) :
    CallerStep s (s.stepShutdown caller place) caller := by
  have waits : CallerStep s s caller := by
    refine .refl ?_ ?_ down <;> rw [here]
    · rintro ⟨⟩
    · rintro _ ⟨⟩
  rw [here] at down
  have goes (next : ShutdownAt) (down : next ≠ .swap → s.engine.shutdown = true) :
      CallerStep s (s.callerTo caller (.shutdown next)) caller := by
    refine callerStep_past rfl (.inl rfl) (by rintro ⟨⟩) (by rintro _ ⟨⟩) fun isDown => down ?_
    rintro rfl
    cases isDown
  unfold stepShutdown
  cases place with
  | swap =>
    dsimp only
    split
    next =>
      exact callerStep_past rfl (.inl rfl) (by rintro ⟨⟩) (by rintro _ ⟨⟩) (by rintro ⟨⟩)
    next =>
      exact callerStep_to (.inl rfl) (fun _ => rfl) (fun _ _ held => held) (by rintro ⟨⟩)
        (.inl rfl) (.inl rfl) (.inl rfl) (by rintro _ ⟨⟩) (fun _ => rfl)
  | share =>
    exact callerStep_to (.inl rfl) id (fun _ _ held => held) (by rintro ⟨⟩) (.inl rfl) (.inl rfl)
      (.inl rfl) (by rintro _ ⟨⟩) (fun _ => down rfl)
  | send =>
    exact callerStep_to (.inl rfl) id (fun _ _ held => held) (by rintro ⟨⟩) (.inl rfl) (.inl rfl)
      (.inr (.inl rfl)) (by rintro _ ⟨⟩) (fun _ => down rfl)
  | bump =>
    refine callerStep_to (.inl rfl) id (fun _ _ held => held) (by rintro ⟨⟩) (.inl rfl)
      (.inr ⟨?_, rfl⟩) (.inl rfl) (by rintro _ ⟨⟩) (fun _ => down rfl)
    rw [here]
    rfl
  | gate attempts =>
    exact closeSendGate_spec attempts (fun _ => ⟨rfl, by rintro _ ⟨⟩, fun _ => down rfl⟩)
      ⟨rfl, by rintro _ ⟨⟩, fun _ => down rfl⟩
  | sinks attempts =>
    cases attempts with
    | zero => exact goes .unsync fun _ => down rfl
    | succ attempts =>
      dsimp only
      split
      · exact goes _ fun _ => down rfl
      · exact goes _ fun _ => down rfl
  | byes ids =>
    dsimp only
    split
    · exact goes _ fun _ => down rfl
    · exact waits
  | sending messages =>
    cases messages with
    | nil => exact goes .unsync fun _ => down rfl
    | cons message messages =>
      exact callerStep_past rfl (.inr ⟨message, rfl⟩) (by rintro ⟨⟩) (by rintro _ ⟨⟩)
        (fun _ => down rfl)
  | unsync =>
    refine callerStep_to (.inl rfl) id (fun _ _ held => held) (by rintro ⟨⟩) (.inl rfl)
      (.inr ⟨?_, rfl⟩) (.inl rfl) (by rintro _ ⟨⟩) (fun _ => down rfl)
    rw [here]
    rfl
  | prune attempts =>
    cases attempts with
    | zero => exact goes .release fun _ => down rfl
    | succ attempts =>
      dsimp only
      split
      · exact callerStep_past rfl (.inl rfl) (by rintro ⟨⟩) (by rintro _ ⟨⟩) (fun _ => down rfl)
      · exact goes _ fun _ => down rfl
  | release =>
    refine callerStep_to (.inl rfl) id (fun _ _ held => held) (by rintro ⟨⟩) ?_ (.inl rfl)
      (.inl rfl) (by rintro _ ⟨⟩) (by rintro ⟨⟩)
    exact (ite_eq_or_eq ..).symm.imp_right .inl

theorem callerStep (s : Teardown Task Caller) (caller : Caller)
    (held : (s.callers caller).locked = true → s.lock = some (.inr caller))
    (down : (s.callers caller).down = true → s.engine.shutdown = true) :
    CallerStep s (s.stepCaller caller) caller := by
  unfold stepCaller
  cases here : s.callers caller with
  | idle =>
    refine .refl held ?_ down
    rw [here]
    rintro _ ⟨⟩
  | beginPeerSync place => exact s.stepBegin_spec here held
  | endPeerSync place => exact s.stepEnd_spec here held
  | shutdown place => exact s.stepShutdown_spec here down

end Teardown

end AbletonLink.Audio
