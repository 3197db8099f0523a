import SharedGraph.Store.StoredObject
import SharedGraph.Store.ValueMap

/-!
# Object maps

The typed view of a store map: what is put is encoded, and what is found is decoded.
-/

namespace SharedGraph
namespace ValueMap

variable {σ : Type}

def putObject (map : ValueMap σ) (object : StoredObject) (audience : σ) :
    Except Failure Unit × ValueMap σ × σ :=
  map.put object.id object.encode audience

/-- The object of an id; a value that is no object is a failure. -/
def getObject? (map : ValueMap σ) (id : ObjectId) : Except Failure (Option StoredObject) :=
  match map.get? id with
  | none => .ok none
  | some bytes => (StoredObject.decode bytes).map some

/-- Takes out several objects; tells how many there were.  The first refusal ends it. -/
def removeObjects (map : ValueMap σ) : List ObjectId → σ → Except Failure Nat × ValueMap σ × σ
  | [], audience => (.ok 0, map, audience)
  | id :: rest, audience =>
    match map.remove id audience with
    | (.error failure, map, audience) => (.error failure, map, audience)
    | (.ok present, map, audience) =>
      match removeObjects map rest audience with
      | (.error failure, map, audience) => (.error failure, map, audience)
      | (.ok count, map, audience) => (.ok (if present then count + 1 else count), map, audience)

def putObjects (map : ValueMap σ) :
    List StoredObject → σ → Except Failure Unit × ValueMap σ × σ
  | [], audience => (.ok (), map, audience)
  | object :: rest, audience =>
    match map.putObject object audience with
    | (.error failure, map, audience) => (.error failure, map, audience)
    | (.ok (), map, audience) => putObjects map rest audience

end ValueMap
end SharedGraph
