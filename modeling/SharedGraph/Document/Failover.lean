import SharedGraph.Document.Shape
import SharedGraph.Failover.Topology
import SharedGraph.Relay.Policy

/-!
# Documents of failover configurations

How nodes, groups, topologies and relay policies stand in documents.  A reader
accepts what does not validate; validation is a step of its own.
-/

namespace SharedGraph

namespace FailoverMode

def name : FailoverMode → String
  | .diskBased => "DiskBasedActivePassive"
  | .networked => "NetworkedActivePassive"

def ofName? (name : String) : Option FailoverMode :=
  [diskBased, networked].find? fun mode => mode.name == name

end FailoverMode

namespace FailoverSettings

def toValue (config : FailoverSettings) : Value :=
  .ofFields [("mode", .text config.mode.name),
    ("election_time_secs", .ofUInt64 config.electionSeconds)]

def ofValue? (value : Value) : Option FailoverSettings := do
  let [mode, election] ← value.parts? ["mode", "election_time_secs"] | none
  return {
    mode := ← Value.defaulting .networked (Value.choice? FailoverMode.ofName?) mode
    electionSeconds := ← Value.required Value.asUInt64? election }

end FailoverSettings

namespace Node

def toValue (node : Node) : Value :=
  .ofFields [("name", .text node.name), ("host", .text node.host),
    ("port", .ofUInt64 node.port.toUInt64), ("group_port", .ofUInt64 node.groupPort.toUInt64)]

def ofValue? (value : Value) : Option Node := do
  let [name, host, port, groupPort] ← value.parts? ["name", "host", "port", "group_port"] | none
  return {
    name := ← Value.required Value.asText? name
    host := ← Value.required Value.asText? host
    port := ← Value.required Value.asUInt16? port
    groupPort := ← Value.required Value.asUInt16? groupPort }

end Node

namespace GroupSettings

def toValue (config : GroupSettings) : Value :=
  .ofFields [("group_id", .ofUInt64 config.id.number.toUInt64),
    ("members", .array (config.members.map Value.text)), ("ha", config.ha.toValue)]

def ofValue? (value : Value) : Option GroupSettings := do
  let [id, members, ha] ← value.parts? ["group_id", "members", "ha"] | none
  return {
    id := ⟨← Value.required Value.asUInt32? id⟩
    members := ← Value.required (Value.asList? Value.asText?) members
    ha := ← Value.defaulting {} FailoverSettings.ofValue? ha }

end GroupSettings

namespace Topology

def toValue (topology : Topology) : Value :=
  let servers := topology.servers.toList.map fun entry => (entry.1, entry.2.toValue)
  .ofFields [("groups", .array (topology.groups.map GroupSettings.toValue)),
    ("servers", .ofFields servers)]

def ofValue? (value : Value) : Option Topology := do
  let [groups, servers] ← value.parts? ["groups", "servers"] | none
  return {
    groups := ← Value.defaulting [] (Value.asList? GroupSettings.ofValue?) groups
    servers := ← Value.defaulting ∅ (Value.asMap? Node.ofValue?) servers }

end Topology

namespace RelayMode

def name : RelayMode → String
  | .sync => "Sync"
  | .bestEffort => "BestEffort"

def ofName? (name : String) : Option RelayMode :=
  [sync, bestEffort].find? fun mode => mode.name == name

end RelayMode

namespace RelayPolicy

def toValue (policy : RelayPolicy) : Value :=
  .ofFields [("mode", .text policy.mode.name), ("ship_timeout_ms", .ofUInt64 policy.shipLimit)]

def ofValue? (value : Value) : Option RelayPolicy := do
  let [mode, limit] ← value.parts? ["mode", "ship_timeout_ms"] | none
  return {
    mode := ← Value.defaulting .sync (Value.choice? RelayMode.ofName?) mode
    shipLimit := ← Value.required Value.asUInt64? limit }

end RelayPolicy
end SharedGraph
