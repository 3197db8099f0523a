import SharedGraph.Document.Record
import SharedGraph.Store.ObjectIndex

/-!
# Documents of stored objects

How objects, their types and the sets of an index stand in documents.
-/

namespace SharedGraph

namespace ObjectKind

def toValue (kind : ObjectKind) : Value :=
  .ofFields [("name", .text kind.name), ("tag", .ofUInt64 kind.tag.toUInt64),
    ("evictable", .bool kind.canEvict), ("collection", .bool kind.isCollection)]

end ObjectKind

namespace StoredObject

def toValue (object : StoredObject) : Value :=
  .ofFields [("id", object.id.toValue), ("type", .text object.kind.name),
    ("version", .ofUInt64 object.version), ("fields", .object object.fields.toList)]

/-- Reads an object; it has version one and no fields unless it says otherwise. -/
def ofValue? (value : Value) : Option StoredObject := do
  let [id, kind, version, fields] ← value.parts? ["id", "type", "version", "fields"] | none
  return {
    id := ← Value.required ObjectId.ofValue? id
    kind := ← Value.required (Value.choice? ObjectKind.ofName?) kind
    version := ← Value.defaulting 1 Value.asUInt64? version
    fields := ← Value.defaulting ∅ (Value.asMap? some) fields }

end StoredObject

namespace ObjectIndex

def toValue (index : ObjectIndex) : Value :=
  let set (objects : SortedSet ObjectId) : Value := .ofList ObjectId.toValue objects.toList
  .ofFields [("live", set index.live), ("evictable", set index.evictable),
    ("collections", set index.collections)]

end ObjectIndex
end SharedGraph
