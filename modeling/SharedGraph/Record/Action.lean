import SharedGraph.Document.Value
import SharedGraph.Ids

/-!
# Changes to shared objects

A change collects the actions of one transaction on one object, with the version that
the object has afterwards.  What an action stores is opaque here, apart from the objects
that it makes the changed one refer to.
-/

namespace SharedGraph

inductive Action where
  | setField (field : String) (value : Value)
  | collectionPut (key value : Value)
  | collectionRemove (key : Value)
  | collectionClear
  | setReference (field : String) (target : ObjectId)

namespace Action

/-- Sameness of actions; values count as the same up to the sign of a zero. -/
def same : Action → Action → Bool
  | .setField field value, .setField other held => field == other && value.same held
  | .collectionPut key value, .collectionPut other held => key.same other && value.same held
  | .collectionRemove key, .collectionRemove other => key.same other
  | .collectionClear, .collectionClear => true
  | .setReference field target, .setReference other held => field == other && target == held
  | _, _ => false

def target? : Action → Option ObjectId
  | .setReference _ target => some target
  | _ => none

def onCollection : Action → Bool
  | .collectionPut .. | .collectionRemove .. | .collectionClear => true
  | .setField .. | .setReference .. => false

end Action

/-- All actions of a transaction on one object. -/
structure Change where
  object : ObjectId
  /-- The version of the object afterwards. -/
  version : UInt64
  isNew : Bool
  actions : List Action

namespace Change

def updated (object : ObjectId) (version : UInt64) (actions : List Action) : Change :=
  ⟨object, version, false, actions⟩

/-- The creation of an object, with its first version. -/
def created (object : ObjectId) (actions : List Action) : Change :=
  ⟨object, 1, true, actions⟩

def sameActions : List Action → List Action → Bool
  | [], [] => true
  | first :: rest, second :: others => first.same second && sameActions rest others
  | _, _ => false

def same (first second : Change) : Bool :=
  first.object == second.object && first.version == second.version &&
    first.isNew == second.isNew && sameActions first.actions second.actions

/-- The objects that the change refers to, in the order of its actions. -/
def targets (change : Change) : List ObjectId :=
  change.actions.filterMap Action.target?

/-- Whether the change has actions, all of them on the contents of a collection. -/
def onCollection (change : Change) : Bool :=
  !change.actions.isEmpty && change.actions.all Action.onCollection

/-- Whether the first list can be found in the second one, in order and one by one.
Taking the earliest match each time loses nothing. -/
def within : List Change → List Change → Bool
  | [], _ => true
  | _ :: _, [] => false
  | wanted :: rest, change :: others =>
    if change.same wanted then within rest others else within (wanted :: rest) others

end Change
end SharedGraph
