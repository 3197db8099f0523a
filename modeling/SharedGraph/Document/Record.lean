import SharedGraph.Document.Shape
import SharedGraph.Record.Draft

/-!
# Documents of changes and signals

How actions, changes, signals and the kinds of transactions stand in documents.
-/

namespace SharedGraph

namespace ObjectId

def toValue (id : ObjectId) : Value :=
  .ofUInt64 id.number

def ofValue? (value : Value) : Option ObjectId :=
  value.asUInt64?.map ObjectId.mk

end ObjectId

namespace GlobalId

def toValue (id : GlobalId) : Value :=
  .ofUInt64 id.number

end GlobalId

namespace Action

def toValue : Action → Value
  | .setField field value =>
    .ofFields [("SetField", .ofFields [("field", .text field), ("value", value)])]
  | .collectionPut key value =>
    .ofFields [("CollectionPut", .ofFields [("key", key), ("value", value)])]
  | .collectionRemove key => .ofFields [("CollectionRemove", .ofFields [("key", key)])]
  | .collectionClear => .text "CollectionClear"
  | .setReference field target =>
    .ofFields [("SetReference", .ofFields [("field", .text field), ("target", target.toValue)])]

def content? (names : List String) (content : Option Value) : Option (List (Option Value)) :=
  content.bind fun value => value.namedParts? names

def ofValue? (value : Value) : Option Action := do
  let (name, content) ← value.alternative?
  match name with
  | "SetField" =>
    let [field, held] ← content? ["field", "value"] content | none
    return .setField (← Value.required Value.asText? field) (← held)
  | "CollectionPut" =>
    let [key, held] ← content? ["key", "value"] content | none
    return .collectionPut (← key) (← held)
  | "CollectionRemove" =>
    let [key] ← content? ["key"] content | none
    return .collectionRemove (← key)
  | "CollectionClear" => value.choice? fun _ => some .collectionClear
  | "SetReference" =>
    let [field, target] ← content? ["field", "target"] content | none
    return .setReference (← Value.required Value.asText? field)
      (← Value.required ObjectId.ofValue? target)
  | _ => none

end Action

namespace Change

def toValue (change : Change) : Value :=
  .ofFields [("object_id", change.object.toValue), ("version", .ofUInt64 change.version),
    ("is_new", .bool change.isNew), ("actions", .array (change.actions.map Action.toValue))]

def ofValue? (value : Value) : Option Change := do
  let [object, version, isNew, actions] ←
    value.parts? ["object_id", "version", "is_new", "actions"] | none
  return {
    object := ← Value.required ObjectId.ofValue? object
    version := ← Value.required Value.asUInt64? version
    isNew := ← Value.required Value.asBool? isNew
    actions := ← Value.required (Value.asList? Action.ofValue?) actions }

end Change

namespace Notify

def toValue (notify : Notify) : Value :=
  .ofFields [("lock_id", .text notify.lock), ("waiter", .text notify.waiter),
    ("all", .bool notify.all)]

def ofValue? (value : Value) : Option Notify := do
  let [lock, waiter, all] ← value.parts? ["lock_id", "waiter", "all"] | none
  return {
    lock := ← Value.required Value.asText? lock
    waiter := ← Value.required Value.asText? waiter
    all := ← Value.required Value.asBool? all }

end Notify

namespace Invocation

def toValue (invocation : Invocation) : Value :=
  .ofFields [("receiver", invocation.receiver.toValue), ("method", .text invocation.method),
    ("fault_receiver", .bool invocation.faultReceiver)]

def ofValue? (value : Value) : Option Invocation := do
  let [receiver, method, fault] ←
    value.parts? ["receiver", "method", "fault_receiver"] | none
  return {
    receiver := ← Value.required ObjectId.ofValue? receiver
    method := ← Value.required Value.asText? method
    faultReceiver := ← Value.required Value.asBool? fault }

end Invocation

namespace Metadata

def toValue (metadata : Metadata) : Value :=
  .ofFields [("object_id", metadata.object.toValue),
    ("attributes", .object metadata.attributes.toList)]

def ofValue? (value : Value) : Option Metadata := do
  let [object, attributes] ← value.parts? ["object_id", "attributes"] | none
  return {
    object := ← Value.required ObjectId.ofValue? object
    attributes := ← Value.required (Value.asMap? some) attributes }

end Metadata

namespace Purpose

def name : Purpose → String
  | .normal => "Normal"
  | .concurrent => "Concurrent"
  | .syncWrite => "SyncWrite"
  | .eviction => "Eviction"

def ofName? (name : String) : Option Purpose :=
  [normal, concurrent, syncWrite, eviction].find? fun kind => kind.name == name

end Purpose
end SharedGraph
