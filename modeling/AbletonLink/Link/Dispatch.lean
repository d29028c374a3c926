import AbletonLink.Library.Run

/-! The dispatch gate between two lifecycles of a controller, with its consumers.  Every access to
the watch, the epoch counter, the permits, the registrations or a channel is one step, so the
tasks interleave inside `start`, `gated_recv` and `run_in_epoch` too.

`published`, `sentIn`, `subscribedIn` and `drainedIn` only record when something happened, counted
in published preparations or begun epochs, and no operation reads them. -/

universe u

namespace AbletonLink.Link

open Library.Run

inductive DispatchState
  | closed
  | preparing (epoch : Nat)
  | opened
  deriving DecidableEq

inductive Task
  | consumer (id : Nat)
  | worker (id : Nat)
  deriving DecidableEq

structure DispatchGate where
  active : DispatchState
  version : Nat
  inFlight : List Task
  subscribers : List Nat
  locked : Bool
  epoch : Nat

namespace DispatchGate

def new : DispatchGate :=
  { active := .closed, version := 0, inFlight := [], subscribers := [], locked := false,
    epoch := 0 }

def newOpen : DispatchGate := { new with active := .opened, version := 1 }

def isOpen (gate : DispatchGate) : Bool := gate.active = .opened

def sendReplace (gate : DispatchGate) (state : DispatchState) : DispatchGate :=
  { gate with active := state, version := gate.version + 1 }

def close (gate : DispatchGate) : DispatchGate :=
  if gate.active = .closed then gate else gate.sendReplace .closed

def nextEpoch (gate : DispatchGate) : Nat := (gate.epoch + 1) % 2 ^ 64

end DispatchGate

inductive Permit
  | keep
  | acquire
  | drop

def Permit.apply (task : Task) (held : List Task) : Permit → List Task
  | .keep => held
  | .acquire => task :: held
  | .drop => held.filter (· ≠ task)

structure Item (T : Type u) where
  value : T
  sentIn : Nat

inductive ConsumerAt (T : Type u)
  | looping
  | draining (state : DispatchState)
  | drained (state : DispatchState)
  | waiting
  | receiving
  | admitting
  | checking
  | checked
  | parked (epoch : Nat)
  | polling (epoch : Nat)
  | discarding (epoch : Nat)
  | returned (epoch : Nat) (item : Item T)

structure Consumer (T : Type u) where
  preparedEpoch : Nat
  seen : Nat
  place : ConsumerAt T
  subscribedIn : Nat
  drainedIn : Nat

namespace Consumer

variable {T : Type u}

def at_ (x : Consumer T) (place : ConsumerAt T) : Consumer T := { x with place }

/-- The next action of `gated_recv`, then of the dispatch that ends with dropping the permit.
Both `select!` are biased: they poll the watch first and the channel only after that. -/
def step (gate : DispatchGate) (published : Nat) (queue : List (Item T)) (x : Consumer T) :
    Consumer T × List (Item T) × Permit :=
  match x.place with
  | .looping =>
    if gate.isOpen then ({ x with seen := gate.version, place := .admitting }, queue, .keep)
    else ({ x with seen := gate.version, place := .draining gate.active }, queue, .keep)
  | .draining state =>
    match queue with
    | [] => ({ x with place := .drained state, drainedIn := published }, [], .keep)
    | _ :: rest => (x, rest, .keep)
  | .drained (.preparing epoch) =>
    ({ x with preparedEpoch := epoch, place := .waiting }, queue, .keep)
  | .drained _ => (x.at_ .waiting, queue, .keep)
  | .waiting =>
    if x.seen = gate.version then (x.at_ .receiving, queue, .keep)
    else ({ x with seen := gate.version, place := .looping }, queue, .keep)
  | .receiving =>
    match queue with
    | [] => (x.at_ .waiting, [], .keep)
    | _ :: rest => (x.at_ .looping, rest, .keep)
  | .admitting => (x.at_ .checking, queue, .acquire)
  | .checking =>
    if gate.isOpen then (x.at_ .checked, queue, .keep) else (x.at_ .looping, queue, .drop)
  | .checked => (x.at_ (.parked gate.epoch), queue, .keep)
  | .parked epoch =>
    if gate.isOpen then (x.at_ (.polling epoch), queue, .keep)
    else (x.at_ (.discarding epoch), queue, .keep)
  | .polling epoch =>
    match queue with
    | [] => (x.at_ (.parked epoch), [], .keep)
    | item :: rest => (x.at_ (.returned epoch item), rest, .keep)
  | .discarding _ =>
    match queue with
    | [] => ({ x with place := .looping, drainedIn := published }, [], .drop)
    | _ :: rest => (x, rest, .keep)
  | .returned _ _ => (x.at_ .looping, queue, .drop)

def cancel (x : Consumer T) : Consumer T × Permit :=
  match x.place with
  | .waiting | .admitting => (x.at_ .looping, .keep)
  | .parked _ => (x.at_ .looping, .drop)
  | _ => (x, .keep)

end Consumer

inductive WorkerAt
  | idle
  | requested (epoch : Nat)
  | checking (epoch : Nat)
  | comparing (epoch : Nat)
  | running (epoch : Nat)
  | polling (epoch : Nat)
  deriving DecidableEq

namespace WorkerAt

def step (gate : DispatchGate) (finished : Bool) : WorkerAt → WorkerAt × Permit
  | .idle => (.idle, .keep)
  | .requested epoch => (.checking epoch, .acquire)
  | .checking epoch => if gate.isOpen then (.comparing epoch, .keep) else (.idle, .drop)
  | .comparing epoch => if gate.epoch = epoch then (.running epoch, .keep) else (.idle, .drop)
  | .running epoch => if gate.isOpen then (.polling epoch, .keep) else (.idle, .drop)
  | .polling epoch => if finished then (.idle, .drop) else (.running epoch, .keep)

def cancel : WorkerAt → WorkerAt × Permit
  | .requested _ => (.idle, .keep)
  | .running _ => (.idle, .drop)
  | worker => (worker, .keep)

end WorkerAt

/-- Where a call of `start` stands; from `checked` on it has seen that the gate is not open. -/
inductive StartAt
  | idle
  | checked
  | bumped (epoch : Nat)
  | preparing (epoch : Nat)
  | opening (epoch : Nat)
  deriving DecidableEq

structure Dispatch (T : Type u) where
  gate : DispatchGate
  starts : Nat → StartAt
  stopping : Bool
  consumers : Nat → Option (Consumer T)
  queues : Nat → List (Item T)
  workers : Nat → WorkerAt
  published : Nat

inductive DispatchOp (T : Type u)
  | start (i : Nat)
  | startStep (i : Nat)
  | publishFails (i : Nat)
  | startCancel (i : Nat)
  | stop
  | stopReturn
  | subscribe (c : Nat)
  | unsubscribe (c : Nat)
  | send (c : Nat) (value : T)
  | consumerStep (c : Nat)
  | consumerCancel (c : Nat)
  | runInEpoch (w : Nat) (epoch : Nat)
  | workerStep (w : Nat) (finished : Bool)
  | workerCancel (w : Nat)

namespace Dispatch

variable {T : Type u}

def new (gate : DispatchGate) : Dispatch T :=
  { gate
    starts := fun _ => .idle
    stopping := false
    consumers := fun _ => none
    queues := fun _ => []
    workers := fun _ => .idle
    published := 0 }

def live (s : Dispatch T) : List Nat := s.gate.subscribers.filter fun c => (s.consumers c).isSome

def allReady (s : Dispatch T) (epoch : Nat) : Bool :=
  s.live.all fun c => (s.consumers c).all fun x => epoch ≤ x.preparedEpoch

def startAt (s : Dispatch T) (i : Nat) (place : StartAt) : Dispatch T :=
  { s with starts := Function.update s.starts i place }

/-- The next action of `start_with_retry` after it has found the gate not open.  The scan of the
registrations and the opening hold one lock. -/
def startStep (s : Dispatch T) (i : Nat) : Dispatch T :=
  match s.starts i with
  | .idle => s
  | .checked =>
    { s with gate := { s.gate with epoch := s.gate.nextEpoch } }.startAt i
      (.bumped s.gate.nextEpoch)
  | .bumped epoch =>
    { s with
      gate := s.gate.sendReplace (.preparing epoch)
      published := max s.published epoch }.startAt i (.preparing epoch)
  | .preparing epoch =>
    if s.gate.locked then s
    else if s.allReady epoch then
      { s with gate := { s.gate with subscribers := s.live, locked := true } }.startAt i
        (.opening epoch)
    else { s with gate := { s.gate with subscribers := s.live } }
  | .opening _ =>
    { s with gate := { s.gate.sendReplace .opened with locked := false } }.startAt i .idle

def setConsumer (s : Dispatch T) (c : Nat) (x : Option (Consumer T)) (permit : Permit) :
    Dispatch T :=
  { s with
    gate := { s.gate with inFlight := permit.apply (.consumer c) s.gate.inFlight }
    consumers := Function.update s.consumers c x }

def setWorker (s : Dispatch T) (w : Nat) (result : WorkerAt × Permit) : Dispatch T :=
  { s with
    gate := { s.gate with inFlight := result.2.apply (.worker w) s.gate.inFlight }
    workers := Function.update s.workers w result.1 }

def stopReturn (s : Dispatch T) : Dispatch T :=
  if s.gate.inFlight = [] then { s with stopping := false } else s

def subscribe (s : Dispatch T) (c : Nat) : Dispatch T :=
  match s.consumers c, s.gate.locked with
  | none, false =>
    { s with
      gate := { s.gate with subscribers := s.live ++ [c] }
      consumers := Function.update s.consumers c (some
        { preparedEpoch := 0, seen := s.gate.version, place := .looping,
          subscribedIn := s.gate.epoch, drainedIn := 0 }) }
  | _, _ => s

def consumerStep (s : Dispatch T) (c : Nat) : Dispatch T :=
  match s.consumers c with
  | none => s
  | some x =>
    let result := x.step s.gate s.published (s.queues c)
    { s with queues := Function.update s.queues c result.2.1 }.setConsumer c (some result.1)
      result.2.2

def step (s : Dispatch T) : DispatchOp T → Dispatch T
  | .start i => if s.gate.isOpen ∨ s.starts i ≠ .idle then s else s.startAt i .checked
  | .startStep i => s.startStep i
  | .publishFails i =>
    match s.starts i with
    | .opening epoch =>
      { s with gate := { s.gate with locked := false } }.startAt i (.preparing epoch)
    | _ => s
  | .startCancel i =>
    match s.starts i with
    | .preparing _ => s.startAt i .idle
    | _ => s
  | .stop => { s with gate := s.gate.close, stopping := true }
  | .stopReturn => s.stopReturn
  | .subscribe c => s.subscribe c
  | .unsubscribe c => s.setConsumer c none .drop
  | .send c value =>
    { s with queues := Function.update s.queues c (s.queues c ++ [⟨value, s.published⟩]) }
  | .consumerStep c => s.consumerStep c
  | .consumerCancel c =>
    match s.consumers c with
    | none => s
    | some x => s.setConsumer c (some x.cancel.1) x.cancel.2
  | .runInEpoch w epoch =>
    if s.workers w = .idle then s.setWorker w (.requested epoch, .keep) else s
  | .workerStep w finished => s.setWorker w ((s.workers w).step s.gate finished)
  | .workerCancel w => s.setWorker w (s.workers w).cancel

end Dispatch

end AbletonLink.Link
