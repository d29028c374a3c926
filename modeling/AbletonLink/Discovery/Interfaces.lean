import AbletonLink.Library.Bindings
import AbletonLink.Library.Run

/-! The interface sockets of discovery: one registration an adapter, filed under its address, and
the multicast memberships they share. -/

namespace AbletonLink.Discovery

open Library Library.Run

structure Ipv4Interface where
  addr : UInt32
  index : UInt32
  name : String
  deriving DecidableEq

structure Registration where
  identity : Ipv4Interface
  cancel : Nat
  generation : UInt64
  deriving DecidableEq

structure InterfaceSocket where
  root : Registration
  siblings : List Registration
  deriving DecidableEq

def InterfaceSocket.registrations (group : InterfaceSocket) : List Registration :=
  group.root :: group.siblings

structure Interfaces where
  sockets : Bindings UInt32 InterfaceSocket
  memberships : List UInt32
  tokens : Nat
  cancelled : List Nat

/-- What the system answers while an interface is added: whether a socket is created and the group
joined, and what the topology monitor checks to, where there is one. -/
structure Setup where
  created : Bool
  topology : Option (Option UInt64)
  joined : Bool

/-- The last two are "interface is already registered" and "interface topology changed during
registration"; the others are errors of the system. -/
inductive AddError
  | socket
  | topology
  | membership
  | alreadyExists
  | notConnected
  deriving DecidableEq

def Registration.isCurrent (entry : Registration) (cancelled : List Nat)
    (topology : Option (Option UInt64)) : Option Bool :=
  if entry.cancel ∈ cancelled then some false
  else
    match topology with
    | none => some true
    | some checked => checked.map fun generation => generation = entry.generation

def registrationsOf (sockets : Bindings UInt32 InterfaceSocket) : List Registration :=
  sockets.entries.flatMap fun binding => binding.2.registrations

namespace Interfaces

def new : Interfaces where
  sockets := ∅
  memberships := []
  tokens := 0
  cancelled := []

variable (self : Interfaces)

def registrations : List Registration := registrationsOf self.sockets

def file (entry : Registration) : Interfaces :=
  let group : InterfaceSocket :=
    match self.sockets.lookup entry.identity.addr with
    | some group => { group with siblings := group.siblings ++ [entry] }
    | none => ⟨entry, []⟩
  { self with sockets := self.sockets.insert entry.identity.addr group }

def addInterface (identity : Ipv4Interface) (generation : UInt64) (setup : Setup) :
    Interfaces × Except AddError Registration :=
  if !setup.created then (self, .error .socket)
  else
    let entry : Registration := { identity, cancel := self.tokens, generation }
    let self := { self with tokens := self.tokens + 1 }
    if self.registrations.any fun other => other.identity = identity then
      (self, .error .alreadyExists)
    else
      match entry.isCurrent self.cancelled setup.topology with
      | none => (self, .error .topology)
      | some false => (self, .error .notConnected)
      | some true =>
        if self.registrations.any fun other => other.identity.index = identity.index then
          (self.file entry, .ok entry)
        else if !setup.joined then (self, .error .membership)
        else
          ({ self with memberships := identity.index :: self.memberships }.file entry, .ok entry)

def leave (sockets : Bindings UInt32 InterfaceSocket) (entry : Registration) : Interfaces :=
  let index := entry.identity.index
  { self with
    sockets
    cancelled := entry.cancel :: self.cancelled
    memberships :=
      if (registrationsOf sockets).any fun other => other.identity.index = index then
        self.memberships
      else self.memberships.filter fun joined => joined ≠ index }

def removeInterface (identity : Ipv4Interface) : Interfaces :=
  match self.sockets.lookup identity.addr with
  | none => self
  | some group =>
    let others := self.sockets.erase identity.addr
    if group.root.identity = identity then
      -- The sibling registered last becomes the root.
      match group.siblings.getLast? with
      | none => self.leave others group.root
      | some replacement =>
        self.leave (others.insert identity.addr ⟨replacement, group.siblings.dropLast⟩) group.root
    else
      match group.siblings.findIdx? fun entry => entry.identity = identity with
      | none => { self with sockets := others.insert identity.addr group }
      | some position =>
        match group.siblings[position]? with
        | none => self
        | some removed =>
          let siblings := group.siblings.eraseIdx position
          self.leave (others.insert identity.addr { group with siblings }) removed

def addInterfaces (generation : UInt64) :
    List Ipv4Interface → (Nat → Setup) → Interfaces → Interfaces × List (Ipv4Interface × AddError)
  | [], _, self => (self, [])
  | identity :: others, setups, self =>
    let (self, added) := self.addInterface identity generation (setups 0)
    let (self, failures) := addInterfaces generation others (fun n => setups (n + 1)) self
    match added with
    | .ok _ => (self, failures)
    | .error error => (self, (identity, error) :: failures)

def stale (current : List Ipv4Interface) (generation : UInt64) : List Ipv4Interface :=
  (self.registrations.filter fun entry =>
    !current.contains entry.identity || entry.generation ≠ generation).map Registration.identity

def reconcileInterfaces (current : List Ipv4Interface) (generation : UInt64)
    (setups : Nat → Setup) : Interfaces × List (Ipv4Interface × AddError) :=
  let known := self.registrations.map Registration.identity
  let stale := self.stale current generation
  let added := current.filter fun identity => !known.contains identity || stale.contains identity
  addInterfaces generation added setups (stale.foldl removeInterface self)

end Interfaces

inductive InterfaceOp
  | add (identity : Ipv4Interface) (generation : UInt64) (setup : Setup)
  | remove (identity : Ipv4Interface)
  | reconcile (current : List Ipv4Interface) (generation : UInt64) (setups : Nat → Setup)
  | rehash (order : Bindings UInt32 InterfaceSocket)

def InterfaceOp.step (self : Interfaces) : InterfaceOp → Interfaces
  | .add identity generation setup => (self.addInterface identity generation setup).1
  | .remove identity => self.removeInterface identity
  | .reconcile current generation setups => (self.reconcileInterfaces current generation setups).1
  | .rehash order => { self with sockets := order.rehash self.sockets }

end AbletonLink.Discovery
