import Courier.Dispatch.Fleet
import Courier.Named
import Courier.Provider.Script

/-!
# Sessions on a bus

A party on the bus that gives names to the streams it reads, to the deliveries it
has not settled, and to the dispatchers it has started.
-/

namespace Courier
namespace Dispatch

open Bus (ConsumerRef Copy Settlement Subscription)
open Json (Document)
open Provider (Adapter Roster)

structure Session where
  fleet : Fleet
  streams : Named ConsumerRef := []
  deliveries : Named (ConsumerRef × Copy) := []
  /-- The provider keys of the dispatchers started, by name. -/
  rosters : Named (List String) := []

namespace Session

def withBroker (s : Session) (b : Bus.Broker) : Session :=
  { s with fleet := { s.fleet with broker := b } }

/-- Opens a stream; one of the same name is closed when the new one is there. -/
def openStream (s : Session) (name : String) (sub : Subscription) :
    Except Bus.TopologyError Session :=
  (s.fleet.broker.subscribe sub).map fun (source, b) =>
    let b := (s.streams.lookup name).elim b b.unsubscribe
    { s.withBroker b with streams := s.streams.put name source }

def closeStream (s : Session) (name : String) : Bool × Session :=
  match s.streams.lookup name with
  | none => (false, s)
  | some source =>
    (true,
      { s.withBroker (s.fleet.broker.unsubscribe source) with streams := s.streams.forget name })

def publish (s : Session) (p : Bus.Parcel) : Session :=
  s.withBroker (s.fleet.broker.publish p)

def next (s : Session) (stream name : String) : Option Bus.Broker.Taken × Session :=
  match s.streams.lookup stream with
  | none => (none, s)
  | some source =>
    let (taken, b) := s.fleet.broker.take source
    let s := s.withBroker b
    match taken with
    | .copy c => (some taken, { s with deliveries := s.deliveries.put name (source, c) })
    | _ => (some taken, s)

def settle (s : Session) (name : String) (how : Settlement) :
    Option (Except Bus.Error Unit) × Session :=
  match s.deliveries.lookup name with
  | none => (none, s)
  | some (source, copy) =>
    let s := { s with deliveries := s.deliveries.forget name }
    match s.fleet.broker.settle source.queue copy.parcel how with
    | .ok b => (some (.ok ()), s.withBroker b)
    | .error e => (some (.error e), s)

def forgetDelivery (s : Session) (name : String) : Bool × Session :=
  ((s.deliveries.lookup name).isSome, { s with deliveries := s.deliveries.forget name })

def collect (s : Session) : List Bus.Parcel × Session :=
  let (parcels, b) := s.fleet.broker.collect
  (parcels, s.withBroker b)

def queuesOf (s : Session) (name : String) : List String :=
  ((s.fleet.node? name).map fun n => n.pipelines.map fun p => p.source.queue).getD []

def start (s : Session) (name exchange instanceId : String) (roster : Roster)
    (settings : Settings) (sink : Sink) : Except Bus.TopologyError (List String) × Session :=
  let node : Node :=
    { name := some name, registry := roster.registry, adapters := roster.adapters
      settings := settings, sink := sink }
  let (fault, fleet) := s.fleet.start exchange instanceId node
  let s := { s with fleet := fleet }
  match fault with
  | some e => (.error e, s)
  | none => (.ok (s.queuesOf name), { s with rosters := s.rosters.put name roster.keys })

def adaptersOf? (s : Session) (name : String) : Option (List String × List Adapter) := do
  return (← s.rosters.lookup name, (← s.fleet.node? name).adapters)

def extend (script : List Document) (a : Adapter) : Adapter :=
  { a with script := a.script ++ Provider.Act.ofScript a.kind script }

def addScript (s : Session) (name key : String) (script : List Document) : Bool × Session :=
  match s.adaptersOf? name with
  | none => (false, s)
  | some (keys, adapters) =>
    let place := keys.idxOf key
    if adapters[place]?.any fun a => a.kind != .logging then
      (true,
        { s with
          fleet := s.fleet.updateNode name fun n =>
            { n with adapters := n.adapters.modify place (extend script) } })
    else (false, s)

/-- Shuts a dispatcher down, once; whether it stopped in time. -/
def shutdown (s : Session) (name : String) (grace : Nat) : Option Bool × Session :=
  if (s.fleet.node? name).any fun n => !n.shutDown then
    let (stopped, fleet) := s.fleet.shutdown name grace
    (some stopped, { s with fleet := fleet })
  else (none, s)

def sleep (s : Session) (ms : Nat) : Session :=
  { s with fleet := s.fleet.sleep ms }

def dropBus (s : Session) : Session :=
  { s with fleet := s.fleet.dropBus }

end Session
end Dispatch
end Courier
