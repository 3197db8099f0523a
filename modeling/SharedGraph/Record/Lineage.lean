import SharedGraph.Record.Shipment

/-!
# A transaction and the views made of it

Views are made before and after their transaction gets its place in the global order,
and all of them report the place that it has now.  A lineage therefore keeps that place
once, with the transaction, next to the views made so far.
-/

namespace SharedGraph

/-- A transaction with the views made of it, oldest first. -/
structure Lineage where
  transaction : Sequenced
  views : List View := []

namespace Lineage

def record (lineage : Lineage) : Record :=
  lineage.transaction.record

def globalId (lineage : Lineage) : Option GlobalId :=
  lineage.transaction.globalId

def assign (lineage : Lineage) (id : GlobalId) : Except Failure Lineage :=
  (lineage.transaction.assign id).map fun transaction => { lineage with transaction }

def project (lineage : Lineage) (changes : List Change) (referenced created : SortedSet ObjectId) :
    Except Failure (View × Lineage) :=
  (lineage.record.project changes referenced created).map fun view =>
    (view, { lineage with views := lineage.views ++ [view] })

/-- Narrows the transaction for a replica; a narrowed shipment leaves its view behind. -/
def prune (lineage : Lineage) (held : SortedSet ObjectId) :
    Except Failure (Shipment × Lineage) :=
  (lineage.record.prune held).map fun shipment =>
    match shipment with
    | .full _ => (shipment, lineage)
    | .pruned view => (shipment, { lineage with views := lineage.views ++ [view] })

end Lineage
end SharedGraph
