import SharedGraph.Document.Failover
import SharedGraph.Document.Record
import SharedGraph.Relay.Basic

/-!
# Documents of relays and elections

How the outcomes of relay calls, reconfigurations and elections stand in documents.
-/

namespace SharedGraph

namespace RelayReport

def toValue (outcome : RelayReport) : Value :=
  .ofFields [("gid", outcome.id.toValue), ("acknowledged", .ofList .text outcome.acknowledged),
    ("failed", .ofList .text outcome.failed), ("pruned", .ofList .text outcome.pruned),
    ("caught_up", .ofList GlobalId.toValue outcome.caughtUp),
    ("released", .bool outcome.released)]

end RelayReport

namespace MemberChange

def toValue (change : MemberChange) : Value :=
  .ofFields [("added", .ofList Node.toValue change.added),
    ("removed", .ofList Node.toValue change.removed), ("empty", .bool change.isEmpty)]

end MemberChange

namespace Election

def toValue (promotion : Election) : Value :=
  .ofFields [("previous", .ofOption .text promotion.previous),
    ("active", promotion.active.toValue), ("epoch", .ofUInt64 (.ofNat promotion.epoch))]

end Election

namespace FailoverGroup

def toValue (group : FailoverGroup) : Value :=
  .ofFields [("members", .ofList .text group.members),
    ("nodes", .ofList (fun node => .text node.name) group.attached),
    ("active", .ofOption (fun node => .text node.name) group.activeNode?),
    ("epoch", .ofUInt64 (.ofNat group.epoch))]

end FailoverGroup
end SharedGraph
