import SharedGraph.Failover.Topology
import SharedGraph.Record.Shipment

/-!
# Passives in memory

Passives that live in the same process are registered by name.  Each keeps what it has
received, in order.  A passive that is partitioned off answers like a host that cannot
be reached.
-/

namespace SharedGraph

structure Passive where
  inbox : List Delivery := []
  partitioned : Bool := false

structure Passives where
  byName : SortedMap String Passive := ∅

namespace Passives

/-- Registers a passive; one that is registered keeps what it has. -/
def register (passives : Passives) (name : String) : Except Failure Passives :=
  if Text.blank name then .error .blankPassive
  else if passives.byName.contains name then .ok passives
  else .ok ⟨passives.byName.insert name {}⟩

def registerAll (passives : Passives) : List String → Except Failure Passives
  | [] => .ok passives
  | name :: rest =>
    match passives.register name with
    | .error failure => .error failure
    | .ok passives => registerAll passives rest

def isolate (passives : Passives) (name : String) (cut : Bool) : Except Failure Passives :=
  match passives.byName.get? name with
  | none => .error (.notRegistered name)
  | some passive => .ok ⟨passives.byName.insert name { passive with partitioned := cut }⟩

def inbox (passives : Passives) (name : String) : Except Failure (List Delivery) :=
  match passives.byName.get? name with
  | none => .error (.notRegistered name)
  | some passive => .ok passive.inbox

def laterOf (first second : Option GlobalId) : Option GlobalId :=
  match first, second with
  | some first, some second => some (if first ≤ second then second else first)
  | first, none => first
  | none, second => second

def latest (passives : Passives) (name : String) : Except Failure (Option GlobalId) :=
  (passives.inbox name).map fun inbox =>
    inbox.foldl (fun last delivery => laterOf last delivery.globalId) none

def deliver (passives : Passives) (name : String) (delivery : Delivery) :
    Except Failure Unit × Passives :=
  match passives.byName.get? name with
  | none => (.error (.notRegistered name), passives)
  | some passive =>
    if passive.partitioned then (.error (.partitioned name), passives)
    else
      let inbox := passive.inbox ++ [delivery]
      (.ok (), ⟨passives.byName.insert name { passive with inbox }⟩)

end Passives
end SharedGraph
