import SharedGraph.Record.Draft
import SharedGraph.Record.Numbering
import SharedGraph.Store.ObjectIndex
import SharedGraph.Store.Objects
import SharedGraph.Store.Store
import SharedGraph.Store.StoreTransaction

/-!
# Commits

A commit turns a draft into a record, writes and deletes objects inside a store
transaction, and gives the record its place in the global order.  Objects are written
one by one, so a refusal in the middle leaves the earlier writes behind, and the store
transaction open.
-/

namespace SharedGraph

/-- Everything that commits act on.  The observers of the object map act on a `σ`, which is
the index alone unless others watch the map too. -/
structure Committer (σ : Type := ObjectIndex) where
  counters : StoreCounters
  objects : ValueMap σ
  /-- The index, with whatever else the observers of the object map act on. -/
  index : σ
  numbering : Numbering := .fresh

namespace Committer

variable {σ : Type}

def mapName : String := "objects"

def ofStore (store : Store σ) (index : σ) (numbering : Numbering) :
    Except Failure (Committer σ) :=
  match store.map? mapName with
  | .error failure => .error failure
  | .ok none => .error (.noObjectMap mapName)
  | .ok (some objects) => .ok { counters := store.counters, objects, index, numbering }

/-- Commits to a fresh store whose object map feeds a fresh index. -/
def fresh (numbering : Numbering) : Committer where
  counters := { phase := .started }
  objects := { name := mapName, observers := [ObjectIndex.observer] }
  index := {}
  numbering := numbering

def strayWrite? (record : Record) (writes : List StoredObject) : Option StoredObject :=
  writes.find? fun object => !record.referenced.contains object.id

/-- Writes and deletes objects in the object map; the first refusal ends it. -/
def apply (committer : Committer σ) (writes : List StoredObject) (deletes : List ObjectId) :
    Except Failure Unit × Committer σ :=
  match committer.objects.putObjects writes committer.index with
  | (.error failure, objects, index) => (.error failure, { committer with objects, index })
  | (.ok (), objects, index) =>
    match objects.removeObjects deletes index with
    | (.error failure, objects, index) => (.error failure, { committer with objects, index })
    | (.ok _, objects, index) => (.ok (), { committer with objects, index })

/-- Writes and deletes inside a store transaction, and gives out the next global id. -/
def sequence (committer : Committer σ) (writes : List StoredObject) (deletes : List ObjectId) :
    Except Failure GlobalId × Committer σ :=
  match StoreTransaction.provide (α := Empty) 0 committer.counters with
  | (.error failure, counters) => (.error failure, { committer with counters })
  | (.ok transaction, counters) =>
    match { committer with counters }.apply writes deletes with
    | (.error failure, committer) => (.error failure, committer)
    | (.ok (), committer) =>
      match transaction.commit 0 committer.counters with
      | (.error failure, _, counters) => (.error failure, { committer with counters })
      | (.ok _, _, counters) =>
        let (id, numbering) := committer.numbering.next
        (.ok id, { committer with counters, numbering })

def commit (committer : Committer σ) (draft : Draft) (writes : List StoredObject)
    (deletes : List ObjectId) : Except Failure Sequenced × Committer σ :=
  match draft.build with
  | .error failure => (.error failure, committer)
  | .ok record =>
    match strayWrite? record writes with
    | some object => (.error (.unreferencedWrite record.name object.id), committer)
    | none =>
      match committer.sequence writes deletes with
      | (.error failure, committer) => (.error failure, committer)
      | (.ok id, committer) => (.ok { record, globalId := some id }, committer)

def resumeAfter (committer : Committer σ) (seen : GlobalId) : Committer σ :=
  { committer with numbering := committer.numbering.resumeAfter seen }

/-- Shuts the store down; the object map stays usable. -/
def shutdown (committer : Committer σ) : Committer σ :=
  { committer with counters := committer.counters.shutdown }

end Committer
end SharedGraph
