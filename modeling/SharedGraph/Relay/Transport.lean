import SharedGraph.Relay.Passives

/-!
# Transports

A transport takes a delivery to a node.  It is first dispatched, which settles whether
and when an answer will come, and it arrives when that time is over; a delivery that is
given up before has no effect.  Besides passives in memory, which answer at once, there
are links that follow a script.
-/

namespace SharedGraph

inductive Prospect where
  | arrives (delay : Nat)
  /-- It fails at once. -/
  | fails (failure : Failure)
  | hangs
deriving DecidableEq

/-- A way to take deliveries to nodes. -/
class Transport (τ : Type) where
  dispatch : Node → Delivery → τ → Prospect × τ
  arrive : Node → Delivery → τ → Except Failure Unit × τ

namespace Passives

/-- Passives in memory answer at once. -/
instance : Transport Passives where
  dispatch _ _ passives := (.arrives 0, passives)
  arrive node delivery passives := passives.deliver node.name delivery

end Passives

/-- Links to passives in memory whose answers follow a script per node. -/
structure ScriptedLinks where
  passives : Passives := {}
  /-- What the next deliveries to a node will meet; after the script they arrive at once. -/
  scripts : SortedMap String (List Prospect) := ∅

namespace ScriptedLinks

def script (links : ScriptedLinks) (name : String) (prospects : List Prospect) : ScriptedLinks :=
  { links with scripts := links.scripts.insert name prospects }

def dispatch (links : ScriptedLinks) (name : String) : Prospect × ScriptedLinks :=
  match (links.scripts.get? name).getD [] with
  | [] => (.arrives 0, links)
  | prospect :: rest => (prospect, links.script name rest)

def arrive (links : ScriptedLinks) (name : String) (delivery : Delivery) :
    Except Failure Unit × ScriptedLinks :=
  match links.passives.deliver name delivery with
  | (answer, passives) => (answer, { links with passives })

instance : Transport ScriptedLinks where
  dispatch node _ links := links.dispatch node.name
  arrive node delivery links := links.arrive node.name delivery

end ScriptedLinks

namespace Transport

variable {τ : Type} [Transport τ]

/-- Takes one delivery to a node within a limit, in milliseconds; tells how long it took.
An answer that is due at the limit still counts. -/
def ship (node : Node) (delivery : Delivery) (limit : UInt64) (transport : τ) :
    Except Failure Unit × Nat × τ :=
  match dispatch node delivery transport with
  | (.fails failure, transport) => (.error failure, 0, transport)
  | (.hangs, transport) => (.error (.noAnswer node.name limit), limit.toNat, transport)
  | (.arrives delay, transport) =>
    if delay ≤ limit.toNat then
      match arrive node delivery transport with
      | (answer, transport) => (answer, delay, transport)
    else (.error (.noAnswer node.name limit), limit.toNat, transport)

end Transport
end SharedGraph
