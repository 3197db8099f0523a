import SharedGraph.Document.Record
import SharedGraph.Record.Shipment

/-!
# Documents of shipments

How a shipment stands in documents: in full, with everything that its receiver can ask
for, or as a summary of what travels.
-/

namespace SharedGraph

def ObjectId.setValue (set : SortedSet ObjectId) : Value :=
  .ofList ObjectId.toValue set.toList

namespace Shipment

def marksValue (shipment : Shipment) : Value :=
  .ofOption (.ofList .ofUInt64) shipment.marks?

end Shipment

namespace Delivery

def toValue (delivery : Delivery) : Value :=
  let shipment := delivery.shipment
  let draft := shipment.record.draft
  .ofFields [("stid", .text draft.name.text), ("source", .text draft.name.source),
    ("txn", .ofUInt64 draft.name.number), ("gid", .ofOption GlobalId.toValue delivery.globalId),
    ("sequence", .ofUInt64 draft.sequence), ("batch", .ofUInt64 draft.batch),
    ("changes", .ofList Change.toValue shipment.changes),
    ("locks", .ofList .text draft.locks.toList),
    ("refs", ObjectId.setValue shipment.referenced), ("new", ObjectId.setValue shipment.created),
    ("roots", .ofList (fun root => .array [.text root.1, root.2.toValue]) draft.roots.toList),
    ("notifies", .ofList Notify.toValue draft.notifies.toList),
    ("dmi", .ofList Invocation.toValue draft.invocations),
    ("metadata", .ofList Metadata.toValue draft.metadata),
    ("kind", .text draft.kind.name), ("eviction", .bool (draft.kind == .eviction)),
    ("active", .bool draft.active), ("resent", .bool draft.resent),
    ("search", .bool draft.searchable), ("num_app", .ofUInt64 draft.applications.toUInt64),
    ("hwm", shipment.marksValue), ("ignored", ObjectId.setValue draft.ignored)]

/-- What travels, with each change in three words. -/
def summary (delivery : Delivery) : Value :=
  let shipment := delivery.shipment
  let change (change : Change) : Value :=
    .array [change.object.toValue, .ofUInt64 change.version, .bool change.isNew]
  .ofFields [("pruned", .bool shipment.isNarrowed), ("stid", .text shipment.record.name.text),
    ("gid", .ofOption GlobalId.toValue delivery.globalId),
    ("changes", .ofList change shipment.changes),
    ("refs", ObjectId.setValue shipment.referenced), ("new", ObjectId.setValue shipment.created),
    ("hwm", shipment.marksValue)]

end Delivery
end SharedGraph
