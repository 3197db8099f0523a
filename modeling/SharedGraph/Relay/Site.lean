import SharedGraph.Relay.InFlight

/-!
# Sites and their histories

A site is the active's side of a group: the group, a relay with its calls in flight, and
what has come of them so far.  Anything may happen at any moment that is possible then:
a call starts, a drain takes a step, a call is settled, somebody declares what a passive
holds, an election or a reconfiguration takes place.  A request that the group refuses
happens too, and changes nothing.
-/

namespace SharedGraph

structure Site where
  group : FailoverGroup
  inFlight : InFlight := {}
  /-- The ids that passives have applied, oldest first. -/
  applied : List (String × GlobalId) := []
  /-- The passives that a handled reconfiguration has removed. -/
  removed : List String := []

inductive Happening where
  | start (transaction : Sequenced)
  | move (call drain : Nat) (move : DrainMove)
  | settle (call : Nat)
  | declareHeld (passive : String) (objects : SortedSet ObjectId)
  | widenHeld (passive : String) (objects : List ObjectId)
  | operate (operation : FailoverGroup.Operation)
  | follow (change : MemberChange)

namespace Site

def appliedBy (site : Site) (passive : String) : List GlobalId :=
  (site.applied.filter fun entry => entry.1 == passive).map Prod.snd

def onRelay (site : Site) (change : Relay → Relay) : Site :=
  { site with inFlight := { site.inFlight with relay := change site.inFlight.relay } }

/-- What a drain would apply if the front of its lane landed now. -/
def front (site : Site) (call drain : Nat) : List (String × GlobalId) :=
  match site.inFlight.drain? call drain with
  | none => []
  | some (_, found) =>
    ((site.inFlight.lane found.lane).head?.map fun entry =>
      (found.target.node.name, entry.id)).toList

def start (site : Site) (transaction : Sequenced) : Site :=
  { site with inFlight := site.inFlight.start site.group transaction }

def move? (site : Site) (call drain : Nat) (move : DrainMove) : Option Site :=
  (site.inFlight.moveDrain? call drain move).map fun inFlight =>
    match move with
    | .land => { site with inFlight, applied := site.applied ++ site.front call drain }
    | _ => { site with inFlight }

def after? (site : Site) : Happening → Option Site
  | .start transaction => some (site.start transaction)
  | .move call drain move => site.move? call drain move
  | .settle call =>
    (site.inFlight.settleCall? site.group.id call).map fun inFlight => { site with inFlight }
  | .declareHeld passive objects =>
    some (site.onRelay fun relay => relay.declareHeld passive objects)
  | .widenHeld passive objects =>
    some (site.onRelay fun relay => relay.widenHeld passive objects)
  | .operate operation => some { site with group := operation.perform site.group }
  | .follow change =>
    some { site with
      inFlight := (site.inFlight.follow change).2
      removed := site.removed ++ change.removed.map Node.name }

def run? (site : Site) : List Happening → Option Site
  | [] => some site
  | happening :: rest => (site.after? happening).bind fun site => site.run? rest

/-- The shipments that are on their way to a passive. -/
def shipments (site : Site) (passive : String) : Nat :=
  site.inFlight.drains.countP fun drain =>
    drain.target.node.name == passive &&
      (match drain.phase with
      | .shipping _ => true
      | .waiting | .holding | .done _ => false)

theorem run?_append (site : Site) (first second : List Happening) :
    site.run? (first ++ second) = (site.run? first).bind fun site => site.run? second := by
  induction first generalizing site with
  | nil => rfl
  | cons happening rest ih =>
    rw [List.cons_append, run?, run?]
    cases site.after? happening with
    | none => rfl
    | some next => exact ih next

end Site
end SharedGraph
