import SharedGraph.Data.SortedMap
import SharedGraph.Store.Observer

/-!
# Store maps

A store map holds the stored values of objects and tells its observers of every change.
A value is offered to the observers before it is written, and replacing a value counts
as an addition only; a removed value is taken out before they hear of it.
-/

namespace SharedGraph

/-- The values of a map, with those who watch it. -/
structure ValueMap (σ : Type) where
  name : String
  observers : List (Observer σ) := []
  entries : SortedMap ObjectId Bytes := ∅

namespace ValueMap

variable {σ : Type}

def put (map : ValueMap σ) (object : ObjectId) (value : Bytes) (audience : σ) :
    Except Failure Unit × ValueMap σ × σ :=
  match Observer.announce (.added object value) map.observers audience with
  | (.ok (), audience) =>
    (.ok (), { map with entries := map.entries.insert object value }, audience)
  | (.error failure, audience) => (.error failure, map, audience)

/-- Takes a value out; tells whether there was one. -/
def remove (map : ValueMap σ) (object : ObjectId) (audience : σ) :
    Except Failure Bool × ValueMap σ × σ :=
  match map.entries.get? object with
  | none => (.ok false, map, audience)
  | some value =>
    let taken := { map with entries := map.entries.erase object }
    match Observer.announce (.removed object value) map.observers audience with
    | (.ok (), audience) => (.ok true, taken, audience)
    | (.error failure, audience) => (.error failure, taken, audience)

def clear (map : ValueMap σ) (audience : σ) : Except Failure Unit × ValueMap σ × σ :=
  let events := map.entries.toList.map fun entry => .removed entry.1 entry.2
  match Observer.announceAll map.observers events audience with
  | (.ok (), audience) => (.ok (), { map with entries := ∅ }, audience)
  | (.error failure, audience) => (.error failure, { map with entries := ∅ }, audience)

def get? (map : ValueMap σ) (object : ObjectId) : Option Bytes :=
  map.entries.get? object

def contains (map : ValueMap σ) (object : ObjectId) : Bool :=
  map.entries.contains object

def size (map : ValueMap σ) : Nat :=
  map.entries.size

/-- The objects that have a value, in ascending order. -/
def objects (map : ValueMap σ) : List ObjectId :=
  map.entries.keys

end ValueMap
end SharedGraph
