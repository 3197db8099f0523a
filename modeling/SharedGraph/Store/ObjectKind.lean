/-!
# Object kinds

The kind of state that a shared object holds, with the byte that stands for it in
stored values.
-/

namespace SharedGraph

inductive ObjectKind where
  | physical
  | array
  | list
  | map
  | sortedMap
  | set
  | concurrentMap
  | serverMap
deriving DecidableEq, Inhabited

namespace ObjectKind

def all : List ObjectKind :=
  [.physical, .array, .list, .map, .sortedMap, .set, .concurrentMap, .serverMap]

def tag : ObjectKind → UInt8
  | .physical => 1
  | .array => 2
  | .list => 3
  | .map => 4
  | .sortedMap => 5
  | .set => 6
  | .concurrentMap => 7
  | .serverMap => 8

def ofTag? (tag : UInt8) : Option ObjectKind :=
  all.find? fun kind => kind.tag == tag

def name : ObjectKind → String
  | .physical => "Physical"
  | .array => "Array"
  | .list => "List"
  | .map => "Map"
  | .sortedMap => "SortedMap"
  | .set => "Set"
  | .concurrentMap => "ConcurrentMap"
  | .serverMap => "ServerMap"

def ofName? (name : String) : Option ObjectKind :=
  all.find? fun kind => kind.name == name

/-- Whether the server may evict the contents. -/
def canEvict : ObjectKind → Bool
  | .concurrentMap | .serverMap => true
  | _ => false

/-- Whether the contents are kept apart from the object, so that the server can count
and list them. -/
def isCollection : ObjectKind → Bool
  | .map | .sortedMap | .set | .concurrentMap | .serverMap => true
  | .physical | .array | .list => false

theorem ofTag?_tag (kind : ObjectKind) : ofTag? kind.tag = some kind := by
  cases kind <;> rfl

theorem isCollection_of_canEvict {kind : ObjectKind} (evictable : kind.canEvict = true) :
    kind.isCollection = true := by
  revert evictable
  cases kind <;> decide

end ObjectKind
end SharedGraph
