import AbletonLink.Discovery.Interfaces
import AbletonLink.Discovery.Registry
import Mathlib.Data.List.MinMax

/-! The cache of measurement routes: through which registration a node's endpoint was last heard. -/

namespace AbletonLink.Discovery

open Library Library.Run Link

/-- A lease of a registration; `topology` names its monitor. -/
structure MeasurementRoute where
  entry : Registration
  topology : Option Nat
  deriving DecidableEq

/-- What one call reads of the leases: the cancelled tokens, and the generations of the monitors,
each checked once. -/
structure TopologySnapshot where
  cancelled : List Nat
  generations : Nat → Option UInt64

def currentInSnapshot (snapshot : TopologySnapshot) (route : MeasurementRoute) : Bool :=
  !snapshot.cancelled.contains route.entry.cancel &&
    route.topology.all fun monitor => snapshot.generations monitor = some route.entry.generation

structure RouteHint where
  expires : Instant
  observed : Instant
  route : MeasurementRoute
  deriving DecidableEq

abbrev MeasurementRouteMap := Bindings (NodeId × SocketAddrV4) RouteHint

namespace MeasurementRoutes

def maxMeasurementRoutes : Nat := 1024

def maxRoutesPerPeer : Nat := 16

def sweep (now : Instant) (snapshot : TopologySnapshot) (routes : MeasurementRouteMap) :
    MeasurementRouteMap :=
  routes.retain fun _ hint => hint.expires > now && currentInSnapshot snapshot hint.route

def withdraw (peer : NodeId) (observed : Instant) (routes : MeasurementRouteMap) :
    MeasurementRouteMap :=
  routes.retain fun key hint => key.1 ≠ peer || hint.observed > observed

def countOf (peer : NodeId) (routes : MeasurementRouteMap) : Nat :=
  routes.keys.countP fun key => key.1 = peer

def evict (admitted : NodeId × SocketAddrV4 → Bool) (routes : MeasurementRouteMap) :
    MeasurementRouteMap :=
  match (routes.entries.filter fun binding => admitted binding.1).argmin
      fun binding => binding.2.expires with
  | some old => routes.erase old.1
  | none => routes

def makeRoom (peer : NodeId) (routes : MeasurementRouteMap) : MeasurementRouteMap :=
  let routes :=
    if countOf peer routes ≥ maxRoutesPerPeer then evict (fun key => key.1 = peer) routes
    else routes
  if routes.entries.length ≥ maxMeasurementRoutes then evict (fun _ => true) routes else routes

def recordReceived (now : Instant) (snapshot : TopologySnapshot) (peer : NodeId)
    (endpoint : Option SocketAddrV4) (observed expires : Instant) (route : MeasurementRoute)
    (existingOnly : Bool) (routes : MeasurementRouteMap) : MeasurementRouteMap :=
  let routes := sweep now snapshot routes
  if !currentInSnapshot snapshot route then routes
  else
    match endpoint with
    | some endpoint =>
      let key := (peer, endpoint)
      if (routes.lookup key).any fun hint => hint.observed > observed then routes
      else if expires ≤ now then routes.erase key
      else if existingOnly && key ∉ routes then routes
      else
        let routes := if key ∉ routes then makeRoom peer routes else routes
        routes.insert key { expires, observed, route }
    | none => withdraw peer observed routes

def resolve (now : Instant) (snapshot : TopologySnapshot) (peer : NodeId)
    (endpoint : Option SocketAddrV4) (routes : MeasurementRouteMap) :
    MeasurementRouteMap × Option MeasurementRoute :=
  match endpoint with
  | none => (routes, none)
  | some endpoint =>
    let routes := sweep now snapshot routes
    (routes, (routes.lookup (peer, endpoint)).map RouteHint.route)

end MeasurementRoutes

inductive RouteOp
  | record (now : Instant) (snapshot : TopologySnapshot) (peer : NodeId)
      (endpoint : Option SocketAddrV4) (observed expires : Instant) (route : MeasurementRoute)
      (existingOnly : Bool)
  | withdraw (peer : NodeId) (received : Instant)
  | sweep (now : Instant) (snapshot : TopologySnapshot)
  | resolve (now : Instant) (snapshot : TopologySnapshot) (peer : NodeId)
      (endpoint : Option SocketAddrV4)
  | rehash (order : MeasurementRouteMap)

namespace RouteOp

open MeasurementRoutes

def step (routes : MeasurementRouteMap) : RouteOp → MeasurementRouteMap
  | .record now snapshot peer endpoint observed expires route existingOnly =>
    recordReceived now snapshot peer endpoint observed expires route existingOnly routes
  | .withdraw peer received => MeasurementRoutes.withdraw peer received routes
  | .sweep now snapshot => MeasurementRoutes.sweep now snapshot routes
  | .resolve now snapshot peer endpoint =>
    (MeasurementRoutes.resolve now snapshot peer endpoint routes).1
  | .rehash order => order.rehash routes

def live (routes : MeasurementRouteMap) : RouteOp → MeasurementRouteMap
  | .record now snapshot _ _ _ _ _ _ => MeasurementRoutes.sweep now snapshot routes
  | .sweep now snapshot => MeasurementRoutes.sweep now snapshot routes
  | .resolve now snapshot _ (some _) => MeasurementRoutes.sweep now snapshot routes
  | _ => routes

def withdraws (node : NodeId) : RouteOp → Option Instant
  | .withdraw peer received => if peer = node then some received else none
  | .record _ snapshot peer none observed _ route _ =>
    if peer = node && currentInSnapshot snapshot route then some observed else none
  | _ => none

end RouteOp

end AbletonLink.Discovery
