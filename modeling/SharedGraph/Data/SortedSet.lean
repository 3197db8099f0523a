import SharedGraph.Data.SortedMap

/-!
# Finite sets listed in ascending order

A finite set is a finite map to the one-point type.  Object-id sets, lock sets and the
names that a record still waits for are such sets: membership is all that counts, and a
listing is always ascending and without repetition.
-/

namespace SharedGraph

/-- A finite set, listed in ascending order. -/
structure SortedSet (κ : Type) [Ord κ] where
  members : SortedMap κ Unit
deriving DecidableEq

namespace SortedSet

variable {κ : Type} [Ord κ]

instance : EmptyCollection (SortedSet κ) := ⟨⟨∅⟩⟩

instance : Inhabited (SortedSet κ) := ⟨∅⟩

def contains (set : SortedSet κ) (item : κ) : Bool :=
  set.members.contains item

instance : Membership κ (SortedSet κ) := ⟨fun set item => set.contains item = true⟩

instance (set : SortedSet κ) (item : κ) : Decidable (item ∈ set) :=
  inferInstanceAs (Decidable (set.contains item = true))

def toList (set : SortedSet κ) : List κ :=
  set.members.keys

def size (set : SortedSet κ) : Nat :=
  set.members.size

def isEmpty (set : SortedSet κ) : Bool :=
  set.members.isEmpty

def erase (set : SortedSet κ) (item : κ) : SortedSet κ :=
  ⟨set.members.erase item⟩

def filter (set : SortedSet κ) (test : κ → Bool) : SortedSet κ :=
  ⟨set.members.filterMap fun item _ => if test item then some () else none⟩

def inter (first second : SortedSet κ) : SortedSet κ :=
  first.filter second.contains

def isSubset (first second : SortedSet κ) : Bool :=
  first.toList.all second.contains

section Lawful

variable [Std.TransOrd κ] [Std.LawfulEqOrd κ]

def insert (set : SortedSet κ) (item : κ) : SortedSet κ :=
  ⟨set.members.insert item ()⟩

def insertAll (set : SortedSet κ) (items : List κ) : SortedSet κ :=
  items.foldl insert set

def ofList (items : List κ) : SortedSet κ :=
  insertAll ∅ items

def union (first second : SortedSet κ) : SortedSet κ :=
  first.insertAll second.toList

/-! ## Membership -/

omit [Std.TransOrd κ] [Std.LawfulEqOrd κ] in
@[simp] theorem not_mem_empty (item : κ) : item ∉ (∅ : SortedSet κ) := Bool.false_ne_true

omit [Std.TransOrd κ] [Std.LawfulEqOrd κ] in
theorem not_contains_iff {set : SortedSet κ} {item : κ} :
    (!set.contains item) = true ↔ item ∉ set := by
  rw [Bool.not_eq_true']
  exact Bool.eq_false_iff

@[simp] theorem mem_insert {set : SortedSet κ} {item other : κ} :
    other ∈ set.insert item ↔ other = item ∨ other ∈ set := by
  by_cases same : other = item
  · subst same
    simp [Membership.mem, contains, insert, SortedMap.contains]
  · simp [Membership.mem, contains, insert, SortedMap.contains,
      SortedMap.get?_insert_of_ne _ _ same, same]

@[simp] theorem mem_insertAll {set : SortedSet κ} {items : List κ} {other : κ} :
    other ∈ set.insertAll items ↔ other ∈ items ∨ other ∈ set := by
  induction items generalizing set with
  | nil => simp [insertAll]
  | cons head rest ih =>
    rw [show set.insertAll (head :: rest) = (set.insert head).insertAll rest from rfl, ih,
      mem_insert, List.mem_cons]
    grind

@[simp] theorem mem_ofList {items : List κ} {other : κ} : other ∈ ofList items ↔ other ∈ items := by
  simp [ofList]

omit [Std.TransOrd κ] in
@[simp] theorem mem_erase {set : SortedSet κ} {item other : κ} :
    other ∈ set.erase item ↔ other ≠ item ∧ other ∈ set := by
  by_cases same : other = item
  · subst same
    simp [Membership.mem, contains, erase, SortedMap.contains]
  · simp [Membership.mem, contains, erase, SortedMap.contains,
      SortedMap.get?_erase_of_ne _ same, same]

omit [Std.TransOrd κ] in
@[simp] theorem mem_toList {set : SortedSet κ} {item : κ} : item ∈ set.toList ↔ item ∈ set := by
  have listed : item ∈ set.toList ↔ (item, ()) ∈ set.members.entries := by
    constructor
    · intro member
      obtain ⟨entry, inEntries, rfl⟩ := List.mem_map.1 member
      exact inEntries
    · exact fun member => List.mem_map_of_mem member
  rw [listed, SortedMap.mem_entries_iff]
  simp only [Membership.mem, contains, SortedMap.contains]
  cases set.members.get? item <;> simp

@[simp] theorem mem_union {first second : SortedSet κ} {item : κ} :
    item ∈ first.union second ↔ item ∈ first ∨ item ∈ second := by
  rw [union, mem_insertAll, mem_toList, or_comm]

omit [Std.TransOrd κ] in
@[simp] theorem mem_filter {set : SortedSet κ} {test : κ → Bool} {item : κ} :
    item ∈ set.filter test ↔ item ∈ set ∧ test item = true := by
  simp only [Membership.mem, contains, SortedMap.contains, filter, SortedMap.get?_filterMap]
  cases set.members.get? item <;> cases test item <;> simp

omit [Std.TransOrd κ] in
@[simp] theorem mem_inter {first second : SortedSet κ} {item : κ} :
    item ∈ first.inter second ↔ item ∈ first ∧ item ∈ second :=
  mem_filter

omit [Std.TransOrd κ] in
theorem isSubset_iff {first second : SortedSet κ} :
    first.isSubset second = true ↔ ∀ item ∈ first, item ∈ second := by
  unfold isSubset
  rw [List.all_eq_true]
  simp only [mem_toList]
  rfl

theorem isEmpty_iff {set : SortedSet κ} : set.isEmpty = true ↔ ∀ item, item ∉ set := by
  rw [isEmpty, SortedMap.isEmpty_iff]
  simp [Membership.mem, contains, SortedMap.contains]

theorem ext {first second : SortedSet κ} (same : ∀ item, item ∈ first ↔ item ∈ second) :
    first = second := by
  have members : first.members = second.members := by
    refine SortedMap.ext_get? fun key => ?_
    have here := same key
    simp only [Membership.mem, contains, SortedMap.contains] at here
    cases left : first.members.get? key <;> cases right : second.members.get? key <;>
      simp_all
  cases first
  cases second
  cases members
  rfl

theorem insert_comm (set : SortedSet κ) (first second : κ) :
    (set.insert first).insert second = (set.insert second).insert first := by
  apply ext
  intro item
  simp only [mem_insert]
  exact or_left_comm

end Lawful
end SortedSet
end SharedGraph
