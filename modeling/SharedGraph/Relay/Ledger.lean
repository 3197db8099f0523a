import SharedGraph.Data.SortedSet
import SharedGraph.Ids

/-!
# The acknowledgement ledger

The ledger holds, for each global id, the passives that still owe an acknowledgement.
An id whose last passive has answered, or left, is released and has no entry any more.
-/

namespace SharedGraph

/-- The passives that still owe an acknowledgement, per global id. -/
structure Ledger where
  entries : SortedMap GlobalId (SortedSet String) := ∅
deriving DecidableEq

namespace Ledger

def waiting (ledger : Ledger) (id : GlobalId) : SortedSet String :=
  (ledger.entries.get? id).getD ∅

/-- Waits for some passives too; for none, nothing changes. -/
def expect (ledger : Ledger) (id : GlobalId) (passives : List String) : Ledger :=
  if passives.isEmpty then ledger
  else ⟨ledger.entries.insert id ((ledger.waiting id).insertAll passives)⟩

/-- Stops waiting for a passive; tells whether that released the id. -/
def settle (ledger : Ledger) (id : GlobalId) (passive : String) : Bool × Ledger :=
  match ledger.entries.get? id with
  | none => (false, ledger)
  | some passives =>
    if !passives.contains passive then (false, ledger)
    else
      let remaining := passives.erase passive
      if remaining.isEmpty then (true, ⟨ledger.entries.erase id⟩)
      else (false, ⟨ledger.entries.insert id remaining⟩)

def acknowledge (ledger : Ledger) (id : GlobalId) (passive : String) : Bool × Ledger :=
  ledger.settle id passive

def withdraw (ledger : Ledger) (id : GlobalId) (passive : String) : Bool × Ledger :=
  ledger.settle id passive

def pending (ledger : Ledger) (id : GlobalId) : List String :=
  (ledger.waiting id).toList

def isSettled (ledger : Ledger) (id : GlobalId) : Bool :=
  !ledger.entries.contains id

/-- The number of ids that are not released. -/
def size (ledger : Ledger) : Nat :=
  ledger.entries.size

/-- What an entry becomes when a passive has left; nothing if it is released. -/
def entryWithout (passive : String) (passives : SortedSet String) : Option (SortedSet String) :=
  let remaining := passives.erase passive
  if remaining.isEmpty then none else some remaining

/-- Stops waiting for a passive altogether; gives the ids that this released. -/
def forget (ledger : Ledger) (passive : String) : List GlobalId × Ledger :=
  (ledger.entries.toList.filterMap fun entry =>
      if (entryWithout passive entry.2).isNone then some entry.1 else none,
    ⟨ledger.entries.filterMap fun _ passives => entryWithout passive passives⟩)

def oldest? (ledger : Ledger) : Option GlobalId :=
  ledger.entries.keys.head?

end Ledger
end SharedGraph
