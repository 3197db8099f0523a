import SharedGraph.Data.SortedSet
import SharedGraph.Failure
import SharedGraph.Record.Action

/-!
# Transaction records

A draft collects what a transaction does; a record is a draft whose roots and ignored
broadcasts name only objects that it references.  The referenced and the new objects are
not stored: they follow from the changes and from the objects that were only read, so
they can never disagree with them.
-/

namespace SharedGraph

inductive Purpose where
  | normal
  /-- Under a concurrent lock, so it may be applied out of lock order. -/
  | concurrent
  /-- The client waits until every replica has it. -/
  | syncWrite
  /-- Made by the server when it evicts cached state. -/
  | eviction
deriving DecidableEq, Inhabited

/-- A signal to waiters of a lock, sent after the commit. -/
structure Notify where
  lock : String
  waiter : String
  /-- Whether every waiter is woken, and not only one. -/
  all : Bool
deriving DecidableEq, Inhabited

namespace Notify

/-- The order of signals: by lock, then by waiter, then one before all. -/
def order : Notify → Notify → Ordering :=
  compareLex (compareOn Notify.lock) (compareLex (compareOn Notify.waiter) (compareOn Notify.all))

instance : Ord Notify := ⟨order⟩

instance : Std.TransOrd Notify :=
  inferInstanceAs (Std.TransCmp (compareLex (compareOn Notify.lock)
    (compareLex (compareOn Notify.waiter) (compareOn Notify.all))))

instance : Std.LawfulEqOrd Notify where
  eq_of_compare {first second} same := by
    have same : order first second = .eq := same
    rw [order, compareLex, Ordering.then_eq_eq, compareLex, Ordering.then_eq_eq] at same
    have locks : compare first.lock second.lock = .eq := same.1
    have waiters : compare first.waiter second.waiter = .eq := same.2.1
    have wakes : compare first.all second.all = .eq := same.2.2
    cases first
    cases second
    cases Std.LawfulEqCmp.eq_of_compare locks
    cases Std.LawfulEqCmp.eq_of_compare waiters
    cases Std.LawfulEqCmp.eq_of_compare wakes
    rfl

end Notify

/-- A method to run on other clients after the commit. -/
structure Invocation where
  receiver : ObjectId
  method : String
  /-- Whether clients without the receiver fetch it first. -/
  faultReceiver : Bool
deriving DecidableEq, Inhabited

structure Metadata where
  object : ObjectId
  attributes : SortedMap String Value

/-- What a transaction does, as far as it is known. -/
structure Draft where
  name : TransactionName
  sequence : UInt64 := 0
  batch : UInt64 := 0
  changes : List Change := []
  locks : SortedSet String := ∅
  /-- Objects that the transaction reads without changing them. -/
  reads : SortedSet ObjectId := ∅
  roots : SortedMap String ObjectId := ∅
  notifies : SortedSet Notify := ∅
  invocations : List Invocation := []
  metadata : List Metadata := []
  kind : Purpose := .normal
  active : Bool := true
  resent : Bool := false
  searchable : Bool := false
  applications : UInt32 := 1
  marks : List UInt64 := []
  /-- Objects whose change is not broadcast. -/
  ignored : SortedSet ObjectId := ∅

namespace Draft

/-! ## Collecting -/

def addChange (draft : Draft) (change : Change) : Draft :=
  { draft with changes := draft.changes ++ [change] }

def addLock (draft : Draft) (lock : String) : Draft :=
  { draft with locks := draft.locks.insert lock }

def reference (draft : Draft) (object : ObjectId) : Draft :=
  { draft with reads := draft.reads.insert object }

/-- Lets a root name an object; an earlier object of that name is forgotten. -/
def setRoot (draft : Draft) (name : String) (object : ObjectId) : Draft :=
  { draft with roots := draft.roots.insert name object }

def addNotify (draft : Draft) (notify : Notify) : Draft :=
  { draft with notifies := draft.notifies.insert notify }

def addInvocation (draft : Draft) (invocation : Invocation) : Draft :=
  { draft with invocations := draft.invocations ++ [invocation] }

def addMetadata (draft : Draft) (metadata : Metadata) : Draft :=
  { draft with metadata := draft.metadata ++ [metadata] }

def exempt (draft : Draft) (object : ObjectId) : Draft :=
  { draft with ignored := draft.ignored.insert object }

/-! ## Derived sets -/

def referenced (draft : Draft) : SortedSet ObjectId :=
  draft.reads.insertAll (draft.changes.map Change.object)

def created (draft : Draft) : SortedSet ObjectId :=
  SortedSet.ofList ((draft.changes.filter Change.isNew).map Change.object)

theorem mem_referenced {draft : Draft} {object : ObjectId} :
    object ∈ draft.referenced ↔
      (∃ change ∈ draft.changes, change.object = object) ∨ object ∈ draft.reads := by
  rw [referenced, SortedSet.mem_insertAll, List.mem_map]

theorem mem_created {draft : Draft} {object : ObjectId} :
    object ∈ draft.created ↔
      ∃ change ∈ draft.changes, change.isNew = true ∧ change.object = object := by
  rw [created, SortedSet.mem_ofList, List.mem_map]
  constructor
  · rintro ⟨change, kept, same⟩
    obtain ⟨member, isNew⟩ := List.mem_filter.1 kept
    exact ⟨change, member, isNew, same⟩
  · rintro ⟨change, member, isNew, same⟩
    exact ⟨change, List.mem_filter.2 ⟨member, isNew⟩, same⟩

theorem referenced_of_created {draft : Draft} {object : ObjectId}
    (member : object ∈ draft.created) : object ∈ draft.referenced := by
  obtain ⟨change, inChanges, _, same⟩ := mem_created.1 member
  exact mem_referenced.2 (.inl ⟨change, inChanges, same⟩)

end Draft

/-- A draft whose names are all referenced. -/
structure Record where
  draft : Draft
  rooted : ∀ root ∈ draft.roots.toList, root.2 ∈ draft.referenced
  broadcast : ∀ object ∈ draft.ignored.toList, object ∈ draft.referenced

def Draft.danglingRoot? (draft : Draft) : Option (String × ObjectId) :=
  draft.roots.toList.find? fun root => !draft.referenced.contains root.2

def Draft.strayIgnored? (draft : Draft) : Option ObjectId :=
  draft.ignored.toList.find? fun object => !draft.referenced.contains object

/-- The record of a draft, if its names are all referenced; roots are looked at first. -/
def Draft.build (draft : Draft) : Except Failure Record :=
  match rooted : draft.danglingRoot? with
  | some (root, object) => .error (.danglingRoot root object draft.name)
  | none =>
    match broadcast : draft.strayIgnored? with
    | some object => .error (.strayIgnored object draft.name)
    | none =>
      .ok {
        draft
        rooted := fun root member => by
          have passed := List.find?_eq_none.1 rooted root member
          rw [Bool.not_eq_true, Bool.not_eq_false'] at passed
          exact passed
        broadcast := fun object member => by
          have passed := List.find?_eq_none.1 broadcast object member
          rw [Bool.not_eq_true, Bool.not_eq_false'] at passed
          exact passed }

namespace Record

def name (record : Record) : TransactionName :=
  record.draft.name

def changes (record : Record) : List Change :=
  record.draft.changes

def referenced (record : Record) : SortedSet ObjectId :=
  record.draft.referenced

def created (record : Record) : SortedSet ObjectId :=
  record.draft.created

end Record

/-- A record and its place in the global order, once it has one. -/
structure Sequenced where
  record : Record
  globalId : Option GlobalId := none

namespace Sequenced

/-- Gives the record its place in the global order; that happens once. -/
def assign (transaction : Sequenced) (id : GlobalId) : Except Failure Sequenced :=
  match transaction.globalId with
  | some existing => .error (.alreadySequenced transaction.record.name existing id)
  | none => .ok { transaction with globalId := some id }

end Sequenced
end SharedGraph
