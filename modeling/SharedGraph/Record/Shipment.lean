import SharedGraph.Record.Draft

/-!
# Views and shipments

A view narrows a record for one receiver: it has fewer changes and ids, and falls back
on the record for everything else.  It does not report high-water marks, since it cannot
vouch for a complete order.  A replica that holds only some objects gets the changes to
those and to objects that the transaction creates (`Record.prune`).
-/

namespace SharedGraph

structure View where
  origin : Record
  changes : List Change
  referenced : SortedSet ObjectId
  created : SortedSet ObjectId

/-- Narrows a record to some of its changes and ids. -/
def Record.project (record : Record) (changes : List Change)
    (referenced created : SortedSet ObjectId) : Except Failure View :=
  if !Change.within changes record.changes then
    .error (.changesNotProjected record.name)
  else if !referenced.isSubset record.referenced then
    .error (.referencesNotProjected record.name)
  else if !(created.isSubset record.created && created.isSubset referenced) then
    .error (.newIdsNotProjected record.name)
  else .ok ⟨record, changes, referenced, created⟩

/-- A view never gives its transaction a place in the global order. -/
def View.assign (view : View) (id : GlobalId) : Except Failure Unit :=
  .error (.assignThroughView id view.origin.name)

inductive Shipment where
  | full (record : Record)
  | pruned (view : View)

namespace Shipment

def record : Shipment → Record
  | .full record => record
  | .pruned view => view.origin

def isNarrowed : Shipment → Bool
  | .full _ => false
  | .pruned _ => true

def changes : Shipment → List Change
  | .full record => record.changes
  | .pruned view => view.changes

def referenced : Shipment → SortedSet ObjectId
  | .full record => record.referenced
  | .pruned view => view.referenced

def created : Shipment → SortedSet ObjectId
  | .full record => record.created
  | .pruned view => view.created

/-- The high-water marks, which only a full record can vouch for. -/
def marks? : Shipment → Option (List UInt64)
  | .full record => some record.draft.marks
  | .pruned _ => none

end Shipment

namespace Record

/-- The changes that a replica holding `held` needs. -/
def keptChanges (record : Record) (held : SortedSet ObjectId) : List Change :=
  record.changes.filter fun change => change.isNew || held.contains change.object

/-- The objects of some changes, with those that they refer to as far as the record
references them. -/
def touched (record : Record) (changes : List Change) : SortedSet ObjectId :=
  SortedSet.ofList <| changes.flatMap fun change =>
    change.object :: change.targets.filter record.referenced.contains

/-- Narrows a record for a replica that holds the objects `held`.  Nothing is narrowed
when every change is kept. -/
def prune (record : Record) (held : SortedSet ObjectId) : Except Failure Shipment :=
  let kept := record.keptChanges held
  if kept.length = record.changes.length then .ok (.full record)
  else
    let referenced := record.touched kept
    (record.project kept referenced (referenced.inter record.created)).map .pruned

end Record

/-- A shipment as its receiver sees it, with the place of its record in the global order. -/
structure Delivery where
  globalId : Option GlobalId
  shipment : Shipment

end SharedGraph
