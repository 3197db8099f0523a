import Mathlib.Data.List.Induction
import SharedGraph.Proofs.Store.Observation

/-!
# What an index is told

The sets of an index are exact for stored values if all objects are in them where their values
call for it (`Indexes`).  An index that accepts a notification has then learned the value of one
object (`Indexes.notice`), and one that refuses it has learned nothing.  Whether it accepts is for
the notification to decide, never for what the index was told before (`isOk_notice`).  So of all
that a fresh index is told of an object only the last accepted notification counts, and those of
different objects may come in any order.
-/

namespace SharedGraph

namespace MapEvent

def classified : MapEvent → Bool
  | .added _ value => (StoredObject.kindOf? value).isSome
  | .removed _ _ => true

def value? : MapEvent → Option Bytes
  | .added _ value => some value
  | .removed _ _ => none

theorem value?_eq_some_iff {event : MapEvent} {value : Bytes} :
    event.value? = some value ↔ event = .added event.object value := by
  cases event with
  | added subject added => simp [value?, object]
  | removed subject removed => simp [value?]

end MapEvent

namespace ObjectIndex

variable {index first second : ObjectIndex} {stored : ObjectId → Option Bytes}
variable {event : MapEvent} {events : List MapEvent} {object : ObjectId}

/-!
## What an index says
-/

/-- Whether the sets of an index are those that stored values call for: all objects are live, and
the tag of its value decides whether one is evictable or a collection. -/
structure Indexes (index : ObjectIndex) (stored : ObjectId → Option Bytes) : Prop where
  live : ∀ object, object ∈ index.live ↔ (stored object).isSome = true
  evictable : ∀ object, object ∈ index.evictable ↔
    ∃ kind, (stored object).bind StoredObject.kindOf? = some kind ∧ kind.canEvict = true
  collections : ∀ object, object ∈ index.collections ↔
    ∃ kind, (stored object).bind StoredObject.kindOf? = some kind ∧ kind.isCollection = true

theorem Indexes.evictable_collections (hindexes : index.Indexes stored)
    (hobject : object ∈ index.evictable) : object ∈ index.collections := by
  rcases (hindexes.evictable object).1 hobject with ⟨kind, hkind, hevict⟩
  exact (hindexes.collections object).2
    ⟨kind, hkind, ObjectKind.isCollection_of_canEvict hevict⟩

theorem Indexes.collections_live (hindexes : index.Indexes stored)
    (hobject : object ∈ index.collections) : object ∈ index.live := by
  rcases (hindexes.collections object).1 hobject with ⟨kind, hkind, -⟩
  rcases Option.bind_eq_some_iff.1 hkind with ⟨value, hvalue, -⟩
  rw [hindexes.live, hvalue]
  rfl

theorem indexes_empty : Indexes {} fun _ => none := by
  constructor
  · intro object
    exact iff_of_false (SortedSet.not_mem_empty object) nofun
  · intro object
    exact iff_of_false (SortedSet.not_mem_empty object) nofun
  · intro object
    exact iff_of_false (SortedSet.not_mem_empty object) nofun

theorem Indexes.add {kind : ObjectKind} {value : Bytes} (hindexes : index.Indexes stored)
    (hkind : StoredObject.kindOf? value = some kind) :
    (index.add object kind).Indexes fun other =>
      if other = object then some value else stored other := by
  constructor
  · intro other
    by_cases hsame : other = object
    · simp [ObjectIndex.add, hsame]
    · simp [ObjectIndex.add, hsame, hindexes.live]
  · intro other
    by_cases hsame : other = object
    · simp [ObjectIndex.add, mem_keep, hsame, hkind]
    · simp [ObjectIndex.add, mem_keep, hsame, hindexes.evictable]
  · intro other
    by_cases hsame : other = object
    · simp [ObjectIndex.add, mem_keep, hsame, hkind]
    · simp [ObjectIndex.add, mem_keep, hsame, hindexes.collections]

theorem Indexes.drop (hindexes : index.Indexes stored) (object : ObjectId) :
    (index.drop object).Indexes fun other => if other = object then none else stored other := by
  constructor
  · intro other
    by_cases hsame : other = object
    · simp [ObjectIndex.drop, hsame]
    · simp [ObjectIndex.drop, hsame, hindexes.live]
  · intro other
    by_cases hsame : other = object
    · simp [ObjectIndex.drop, hsame]
    · simp [ObjectIndex.drop, hsame, hindexes.evictable]
  · intro other
    by_cases hsame : other = object
    · simp [ObjectIndex.drop, hsame]
    · simp [ObjectIndex.drop, hsame, hindexes.collections]

theorem Indexes.unique (hfirst : first.Indexes stored) (hsecond : second.Indexes stored) :
    first = second := by
  have hlive : first.live = second.live :=
    SortedSet.ext fun object => (hfirst.live object).trans (hsecond.live object).symm
  have hevictable : first.evictable = second.evictable :=
    SortedSet.ext fun object => (hfirst.evictable object).trans (hsecond.evictable object).symm
  have hcollections : first.collections = second.collections :=
    SortedSet.ext fun object => (hfirst.collections object).trans (hsecond.collections object).symm
  cases first
  cases second
  cases hlive
  cases hevictable
  cases hcollections
  rfl

/-!
## One notification
-/

theorem isOk_notice (index : ObjectIndex) (event : MapEvent) :
    (index.notice event).1.isOk = event.classified := by
  cases event with
  | added object value =>
    rw [notice, MapEvent.classified]
    cases hclass : StoredObject.classify object value with
    | ok kind =>
      rw [StoredObject.classify_eq_ok_iff.1 hclass]
      rfl
    | error failure =>
      rw [StoredObject.kindOf?_of_classify_error hclass]
      rfl
  | removed object value => rfl

theorem notice_of_refused (hrefused : event.classified = false) :
    (index.notice event).2 = index := by
  cases event with
  | added object value =>
    cases hclass : StoredObject.classify object value with
    | ok kind =>
      rw [MapEvent.classified, StoredObject.classify_eq_ok_iff.1 hclass] at hrefused
      cases hrefused
    | error failure => rw [notice, hclass]
  | removed object value => cases hrefused

theorem Indexes.notice (hindexes : index.Indexes stored) (haccepted : event.classified = true) :
    (index.notice event).2.Indexes fun other =>
      if other = event.object then event.value? else stored other := by
  cases event with
  | added object value =>
    rcases Option.isSome_iff_exists.1 haccepted with ⟨kind, hkind⟩
    have hnotice : index.notice (.added object value) = (.ok (), index.add object kind) := by
      rw [ObjectIndex.notice, StoredObject.classify_eq_ok_iff.2 hkind]
    rw [hnotice]
    exact hindexes.add hkind
  | removed object value => exact hindexes.drop object

theorem Indexes.drop_of_not_live (hindexes : index.Indexes stored)
    (hobject : object ∉ index.live) : index.drop object = index := by
  have hsame : (fun other => if other = object then none else stored other) = stored := by
    funext other
    split
    case isTrue hother =>
      rw [hindexes.live, Option.not_isSome_iff_eq_none, ← hother] at hobject
      exact hobject.symm
    case isFalse => rfl
  have hdropped := hindexes.drop object
  rw [hsame] at hdropped
  exact hdropped.unique hindexes

/-!
## Many notifications
-/

def reports (index : ObjectIndex) : List MapEvent → List (MapEvent × Except Failure Unit)
  | [] => []
  | event :: rest => (event, (index.notice event).1) :: (index.notice event).2.reports rest

def after (events : List MapEvent) : ObjectIndex :=
  events.foldl (fun index event => (index.notice event).2) {}

/-- The last notification about an object that was answered with success. -/
def lastAccepted? (events : List MapEvent) (object : ObjectId) : Option MapEvent :=
  (((reports {} events).filter fun report =>
    report.1.object == object && report.2.isOk).getLast?).map Prod.fst

theorem filter_reports (index : ObjectIndex) (events : List MapEvent) (object : ObjectId) :
    ((index.reports events).filter fun report =>
        report.1.object == object && report.2.isOk).map Prod.fst =
      (events.filter (·.object == object)).filter MapEvent.classified := by
  induction events generalizing index with
  | nil => rfl
  | cons event rest ih =>
    rw [reports, List.filter_cons, List.filter_filter, List.filter_cons]
    dsimp only
    rw [isOk_notice, Bool.and_comm]
    split
    case isTrue => rw [List.map_cons, ih, List.filter_filter]
    case isFalse => rw [ih, List.filter_filter]

theorem lastAccepted?_eq (events : List MapEvent) (object : ObjectId) :
    lastAccepted? events object =
      ((events.filter (·.object == object)).filter MapEvent.classified).getLast? := by
  rw [lastAccepted?, ← List.getLast?_map, filter_reports]

theorem object_of_lastAccepted? (hlast : lastAccepted? events object = some event) :
    event.object = object := by
  rw [lastAccepted?_eq] at hlast
  have hown := (List.mem_filter.1 (List.mem_of_getLast? hlast)).1
  exact eq_of_beq (List.mem_filter.1 hown).2

theorem lastAccepted?_concat (events : List MapEvent) (event : MapEvent) (object : ObjectId) :
    lastAccepted? (events ++ [event]) object =
      if object = event.object ∧ event.classified = true then some event
      else lastAccepted? events object := by
  have hnew : ([event].filter (·.object == object)).filter MapEvent.classified =
      if object = event.object ∧ event.classified = true then [event] else [] := by
    rw [List.filter_filter, List.filter_cons, List.filter_nil]
    simp only [Bool.and_eq_true, beq_iff_eq, and_comm, @eq_comm _ object]
  rw [lastAccepted?_eq, lastAccepted?_eq, List.filter_append, List.filter_append, hnew]
  split
  case isTrue => exact List.getLast?_concat
  case isFalse => rw [List.append_nil]

/-- The value that an object has, as far as the index was told. -/
def lastValue? (events : List MapEvent) (object : ObjectId) : Option Bytes :=
  (lastAccepted? events object).bind MapEvent.value?

theorem lastValue?_eq_some_iff {value : Bytes} :
    lastValue? events object = some value ↔
      lastAccepted? events object = some (.added object value) := by
  constructor
  · intro hvalue
    rcases Option.bind_eq_some_iff.1 hvalue with ⟨event, hlast, hevent⟩
    rw [MapEvent.value?_eq_some_iff, object_of_lastAccepted? hlast] at hevent
    rw [hlast, hevent]
  · intro hlast
    rw [lastValue?, hlast]
    rfl

theorem exists_kind_iff {test : ObjectKind → Bool} :
    (∃ kind, (lastValue? events object).bind StoredObject.kindOf? = some kind ∧
        test kind = true) ↔
      ∃ value kind, lastAccepted? events object = some (.added object value) ∧
        StoredObject.kindOf? value = some kind ∧ test kind = true := by
  simp only [Option.bind_eq_some_iff, lastValue?_eq_some_iff]
  constructor
  · intro hfound
    rcases hfound with ⟨kind, ⟨value, hlast, hkind⟩, htest⟩
    exact ⟨value, kind, hlast, hkind, htest⟩
  · intro hfound
    rcases hfound with ⟨value, kind, hlast, hkind, htest⟩
    exact ⟨kind, ⟨value, hlast, hkind⟩, htest⟩

/-- The index of a run is the one that the last accepted notifications call for. -/
theorem indexes_after (events : List MapEvent) : (after events).Indexes (lastValue? events) := by
  induction events using List.reverseRecOn with
  | nil => exact indexes_empty
  | append_singleton events event ih =>
    have hafter : after (events ++ [event]) = ((after events).notice event).2 := by
      rw [after, List.foldl_append]
      rfl
    rw [hafter]
    cases hclass : event.classified with
    | true =>
      have hvalues : lastValue? (events ++ [event]) = fun other =>
          if other = event.object then event.value? else lastValue? events other := by
        funext other
        rw [lastValue?, lastAccepted?_concat, hclass, lastValue?]
        simp only [and_true]
        split <;> rfl
      rw [hvalues]
      exact ih.notice hclass
    | false =>
      have hvalues : lastValue? (events ++ [event]) = lastValue? events := by
        funext other
        rw [lastValue?, lastAccepted?_concat, hclass, lastValue?]
        simp
      rw [hvalues, notice_of_refused hclass]
      exact ih

theorem after_eq_of_filter_eq {others : List MapEvent}
    (hsame : ∀ object, others.filter (·.object == object) = events.filter (·.object == object)) :
    after others = after events := by
  have hvalues : lastValue? others = lastValue? events := by
    funext object
    rw [lastValue?, lastAccepted?_eq, hsame, ← lastAccepted?_eq, ← lastValue?]
  have hothers := indexes_after others
  rw [hvalues] at hothers
  exact hothers.unique (indexes_after events)

/-- An index that was told of events: an object is live if the last notification about it that was
answered with success was an addition, and the tag of the added value decides whether it is
evictable or a collection.  So evictable objects are collections, and collections are live.  A
notification that fails and the removal of an object that is not live change nothing, and
notifications that are about different objects may be made in any order. -/
theorem sets_follow_last_accepted (events : List MapEvent) :
    (∀ object,
        (object ∈ (after events).live ↔
          ∃ value, lastAccepted? events object = some (.added object value)) ∧
        (object ∈ (after events).evictable ↔
          ∃ value kind, lastAccepted? events object = some (.added object value) ∧
            StoredObject.kindOf? value = some kind ∧ kind.canEvict = true) ∧
        (object ∈ (after events).collections ↔
          ∃ value kind, lastAccepted? events object = some (.added object value) ∧
            StoredObject.kindOf? value = some kind ∧ kind.isCollection = true)) ∧
      (∀ event failure, ((after events).notice event).1 = .error failure →
        ((after events).notice event).2 = after events) ∧
      (∀ object value, object ∉ (after events).live →
        (after events).notice (.removed object value) = (.ok (), after events)) ∧
      (after events).evictable.isSubset (after events).collections = true ∧
      (after events).collections.isSubset (after events).live = true ∧
      ∀ others : List MapEvent,
        (∀ object, others.filter (·.object == object) = events.filter (·.object == object)) →
        after others = after events := by
  have hindexes := indexes_after events
  refine ⟨?_, ?_, ?_, ?_, ?_, ?_⟩
  · intro object
    refine ⟨?_, ?_, ?_⟩
    · rw [hindexes.live, Option.isSome_iff_exists]
      simp only [lastValue?_eq_some_iff]
    · rw [hindexes.evictable, exists_kind_iff]
    · rw [hindexes.collections, exists_kind_iff]
  · intro event failure hfailed
    apply notice_of_refused
    rw [← isOk_notice, hfailed]
    rfl
  · intro object value hobject
    exact congrArg (Prod.mk _) (hindexes.drop_of_not_live hobject)
  · exact SortedSet.isSubset_iff.2 fun object => hindexes.evictable_collections
  · exact SortedSet.isSubset_iff.2 fun object => hindexes.collections_live
  · exact fun others => after_eq_of_filter_eq

/-- An evictable collection that is added again as a plain object, after an addition that failed, is
live only. -/
example : after [.added ⟨3⟩ [0, 0, 0, 0, 0, 0, 0, 3, 8], .added ⟨3⟩ [0, 0, 0, 0, 0, 0, 0, 3, 0],
    .added ⟨3⟩ [0, 0, 0, 0, 0, 0, 0, 3, 1]] = { live := SortedSet.ofList [⟨3⟩] } := by
  decide

end ObjectIndex
end SharedGraph
