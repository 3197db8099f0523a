import SharedGraph.Data.SortedSet
import SharedGraph.Store.Observer
import SharedGraph.Store.StoredObject

/-!
# The object index

The index observes the object map and keeps the sets of live, evictable and
collection-typed objects.  A value that cannot be classified is refused, and nothing
changes then.
-/

namespace SharedGraph

structure ObjectIndex where
  live : SortedSet ObjectId := ∅
  evictable : SortedSet ObjectId := ∅
  collections : SortedSet ObjectId := ∅
deriving DecidableEq

namespace ObjectIndex

def keep (kept : Bool) (object : ObjectId) (set : SortedSet ObjectId) : SortedSet ObjectId :=
  if kept then set.insert object else set.erase object

def add (index : ObjectIndex) (object : ObjectId) (kind : ObjectKind) : ObjectIndex where
  live := index.live.insert object
  evictable := keep kind.canEvict object index.evictable
  collections := keep kind.isCollection object index.collections

def drop (index : ObjectIndex) (object : ObjectId) : ObjectIndex where
  live := index.live.erase object
  evictable := index.evictable.erase object
  collections := index.collections.erase object

def notice (event : MapEvent) (index : ObjectIndex) : Except Failure Unit × ObjectIndex :=
  match event with
  | .added object value =>
    match StoredObject.classify object value with
    | .ok kind => (.ok (), index.add object kind)
    | .error failure => (.error failure, index)
  | .removed object _ => (.ok (), index.drop object)

/-- The index as the observer of a map whose audience is the index alone. -/
def observer : Observer ObjectIndex :=
  ⟨notice⟩

theorem mem_keep {kept : Bool} {object other : ObjectId} {set : SortedSet ObjectId} :
    other ∈ keep kept object set ↔ if other = object then kept = true else other ∈ set := by
  by_cases same : other = object
  · cases kept <;> simp [keep, same]
  · cases kept <;> simp [keep, same]

end ObjectIndex
end SharedGraph
