/-!
# Finite maps with ascending keys

A finite map is a list of entries whose keys strictly ascend.  Every listing of the
library (ids, names, roots, pending acknowledgements) shows its keys in this order, so
the order is part of the type.  Two maps with the same lookups are equal (`ext_get?`),
and each operation has one lemma that says what a lookup sees afterwards.
-/

namespace SharedGraph

/-- A finite map from `κ` to `ν`, listed by ascending key. -/
structure SortedMap (κ ν : Type) [Ord κ] where
  entries : List (κ × ν)
  /-- Keys strictly ascend, so no key occurs twice. -/
  ascending : entries.Pairwise fun first second => compare first.1 second.1 = .lt

namespace SortedMap

variable {κ ν μ : Type} [Ord κ]

theorem ext_entries {first second : SortedMap κ ν} (same : first.entries = second.entries) :
    first = second := by
  cases first
  cases second
  cases same
  rfl

instance [DecidableEq κ] [DecidableEq ν] : DecidableEq (SortedMap κ ν) := fun first second =>
  decidable_of_iff (first.entries = second.entries) ⟨ext_entries, fun same => by rw [same]⟩

instance : EmptyCollection (SortedMap κ ν) := ⟨⟨[], .nil⟩⟩

instance : Inhabited (SortedMap κ ν) := ⟨∅⟩

/-! ## Entry lists -/

def lookup (key : κ) : List (κ × ν) → Option ν
  | [] => none
  | (other, value) :: rest => if compare key other = .eq then some value else lookup key rest

def insertEntry (key : κ) (value : ν) : List (κ × ν) → List (κ × ν)
  | [] => [(key, value)]
  | (other, held) :: rest =>
    match compare key other with
    | .lt => (key, value) :: (other, held) :: rest
    | .eq => (key, value) :: rest
    | .gt => (other, held) :: insertEntry key value rest

def addEntry (key : κ) (value : ν) : List (κ × ν) → List (κ × ν)
  | [] => [(key, value)]
  | (other, held) :: rest =>
    match compare key other with
    | .lt => (key, value) :: (other, held) :: rest
    | .eq => (other, held) :: rest
    | .gt => (other, held) :: addEntry key value rest

def eraseEntry (key : κ) (entries : List (κ × ν)) : List (κ × ν) :=
  entries.filter fun entry => compare key entry.1 != .eq

theorem mem_insertEntry {key : κ} {value : ν} {entry : κ × ν} {entries : List (κ × ν)}
    (member : entry ∈ insertEntry key value entries) : entry = (key, value) ∨ entry ∈ entries := by
  induction entries with
  | nil => simpa [insertEntry] using member
  | cons head rest ih =>
    rw [insertEntry] at member
    split at member
    · exact List.mem_cons.1 member
    · exact (List.mem_cons.1 member).imp_right (List.mem_cons_of_mem _)
    · rcases List.mem_cons.1 member with same | later
      · exact .inr (same ▸ List.mem_cons_self)
      · exact (ih later).imp_right (List.mem_cons_of_mem _)

theorem mem_addEntry {key : κ} {value : ν} {entry : κ × ν} {entries : List (κ × ν)}
    (member : entry ∈ addEntry key value entries) : entry = (key, value) ∨ entry ∈ entries := by
  induction entries with
  | nil => simpa [addEntry] using member
  | cons head rest ih =>
    rw [addEntry] at member
    split at member
    · exact List.mem_cons.1 member
    · exact .inr member
    · rcases List.mem_cons.1 member with same | later
      · exact .inr (same ▸ List.mem_cons_self)
      · exact (ih later).imp_right (List.mem_cons_of_mem _)

theorem length_addEntry_le (key : κ) (value : ν) (entries : List (κ × ν)) :
    (addEntry key value entries).length ≤ entries.length + 1 := by
  induction entries with
  | nil => exact Nat.le_refl 1
  | cons head rest ih =>
    rw [addEntry]
    split
    · exact Nat.le_refl _
    · exact Nat.le_add_right _ 1
    · exact Nat.add_le_add_right ih 1

theorem addEntry_of_below {key : κ} {value : ν} {entries : List (κ × ν)}
    (below : ∀ entry ∈ entries, compare key entry.1 = .lt) :
    addEntry key value entries = (key, value) :: entries := by
  cases entries with
  | nil => rfl
  | cons head rest => rw [addEntry, below head List.mem_cons_self]

theorem lookup_eq_none_of_below {key : κ} {entries : List (κ × ν)}
    (below : ∀ entry ∈ entries, compare key entry.1 = .lt) : lookup key entries = none := by
  induction entries with
  | nil => rfl
  | cons head rest ih =>
    have first := below head List.mem_cons_self
    rw [lookup, if_neg (by simp [first]), ih fun entry member =>
      below entry (List.mem_cons_of_mem _ member)]

section Lawful

variable [Std.TransOrd κ] [Std.LawfulEqOrd κ]

theorem insertEntry_ascending (key : κ) (value : ν) {entries : List (κ × ν)}
    (ascending : entries.Pairwise fun first second => compare first.1 second.1 = .lt) :
    (insertEntry key value entries).Pairwise
      fun first second => compare first.1 second.1 = .lt := by
  induction entries with
  | nil => simp [insertEntry]
  | cons head rest ih =>
    have later : ∀ entry ∈ rest, compare head.1 entry.1 = .lt :=
      fun entry member => List.rel_of_pairwise_cons ascending member
    rw [insertEntry]
    split
    · next below =>
      refine ascending.cons fun entry member => ?_
      rcases List.mem_cons.1 member with same | inRest
      · exact same ▸ below
      · exact Std.TransCmp.lt_trans below (later _ inRest)
    · next same =>
      have same := Std.LawfulEqCmp.eq_of_compare same
      exact ascending.of_cons.cons fun entry member => same ▸ later _ member
    · next above =>
      refine (ih ascending.of_cons).cons fun entry member => ?_
      rcases mem_insertEntry member with same | inRest
      · exact same ▸ Std.OrientedCmp.lt_of_gt above
      · exact later _ inRest

theorem lookup_insertEntry (key : κ) (value : ν) (entries : List (κ × ν)) (other : κ) :
    lookup other (insertEntry key value entries) =
      if compare other key = .eq then some value else lookup other entries := by
  induction entries with
  | nil => rfl
  | cons head rest ih =>
    rw [insertEntry]
    split
    · rfl
    · next same =>
      have same := Std.LawfulEqCmp.eq_of_compare same
      subst same
      by_cases hit : compare other head.1 = .eq <;> simp [lookup, hit]
    · next above =>
      by_cases hit : compare other head.1 = .eq
      · have same := Std.LawfulEqCmp.eq_of_compare hit
        subst same
        simp [lookup, Std.OrientedCmp.lt_of_gt above]
      · simp [lookup, hit, ih]

omit [Std.LawfulEqOrd κ] in
theorem addEntry_ascending (key : κ) (value : ν) {entries : List (κ × ν)}
    (ascending : entries.Pairwise fun first second => compare first.1 second.1 = .lt) :
    (addEntry key value entries).Pairwise fun first second => compare first.1 second.1 = .lt := by
  induction entries with
  | nil => simp [addEntry]
  | cons head rest ih =>
    have later : ∀ entry ∈ rest, compare head.1 entry.1 = .lt :=
      fun entry member => List.rel_of_pairwise_cons ascending member
    rw [addEntry]
    split
    · next below =>
      refine ascending.cons fun entry member => ?_
      rcases List.mem_cons.1 member with same | inRest
      · exact same ▸ below
      · exact Std.TransCmp.lt_trans below (later _ inRest)
    · exact ascending
    · next above =>
      refine (ih ascending.of_cons).cons fun entry member => ?_
      rcases mem_addEntry member with same | inRest
      · exact same ▸ Std.OrientedCmp.lt_of_gt above
      · exact later _ inRest

theorem lookup_addEntry (key : κ) (value : ν) {entries : List (κ × ν)} (other : κ)
    (ascending : entries.Pairwise fun first second => compare first.1 second.1 = .lt) :
    lookup other (addEntry key value entries) =
      (lookup other entries).or (if compare other key = .eq then some value else none) := by
  induction entries with
  | nil => rfl
  | cons head rest ih =>
    rw [addEntry]
    split
    · next below =>
      by_cases hit : compare other key = .eq
      · have same := Std.LawfulEqCmp.eq_of_compare hit
        subst same
        have absent : lookup other (head :: rest) = none := by
          apply lookup_eq_none_of_below
          intro entry member
          rcases List.mem_cons.1 member with rfl | later
          · exact below
          · exact Std.TransCmp.lt_trans below (List.rel_of_pairwise_cons ascending later)
        rw [absent]
        simp [lookup]
      · rw [lookup, if_neg hit, if_neg hit, Option.or_none]
    · next same =>
      have same := Std.LawfulEqCmp.eq_of_compare same
      subst same
      by_cases hit : compare other head.1 = .eq <;> simp [lookup, hit]
    · by_cases hit : compare other head.1 = .eq
      · simp [lookup, hit]
      · simp only [lookup, if_neg hit]
        exact ih ascending.of_cons

omit [Std.TransOrd κ] in
theorem lookup_eraseEntry (key : κ) (entries : List (κ × ν)) (other : κ) :
    lookup other (eraseEntry key entries) =
      if compare other key = .eq then none else lookup other entries := by
  induction entries with
  | nil => simp [eraseEntry, lookup]
  | cons head rest ih =>
    rw [eraseEntry] at ih ⊢
    by_cases same : compare key head.1 = .eq
    · rw [List.filter_cons_of_neg (by simp [same]), ih]
      have same := Std.LawfulEqCmp.eq_of_compare same
      subst same
      by_cases hit : compare other head.1 = .eq <;> simp [lookup, hit]
    · rw [List.filter_cons_of_pos (by simp [same])]
      by_cases hit : compare other key = .eq
      · have here := Std.LawfulEqCmp.eq_of_compare hit
        subst here
        simpa [lookup, same] using ih
      · by_cases there : compare other head.1 = .eq <;> simp [lookup, there, ih, hit]

omit [Std.TransOrd κ] in
theorem mem_iff_lookup {key : κ} {value : ν} {entries : List (κ × ν)}
    (ascending : entries.Pairwise fun a b => compare a.1 b.1 = .lt) :
    (key, value) ∈ entries ↔ lookup key entries = some value := by
  induction entries with
  | nil => simp [lookup]
  | cons head rest ih =>
    have later : ∀ entry ∈ rest, compare head.1 entry.1 = .lt :=
      fun entry member => List.rel_of_pairwise_cons ascending member
    rw [List.mem_cons, ih ascending.of_cons, lookup]
    by_cases hit : compare key head.1 = .eq
    · have here := Std.LawfulEqCmp.eq_of_compare hit
      subst here
      rw [if_pos hit, lookup_eq_none_of_below later]
      simp [Prod.ext_iff, eq_comm]
    · rw [if_neg hit]
      constructor
      · rintro (same | found)
        · exact absurd (same ▸ Std.ReflCmp.compare_self) hit
        · exact found
      · exact .inr

omit [Std.TransOrd κ] in
theorem lookup_filterMap {change : κ → ν → Option μ} {entries : List (κ × ν)} (key : κ)
    (ascending : entries.Pairwise fun a b => compare a.1 b.1 = .lt) :
    lookup key (entries.filterMap fun entry => (change entry.1 entry.2).map (entry.1, ·)) =
      (lookup key entries).bind (change key) := by
  induction entries with
  | nil => rfl
  | cons head rest ih =>
    have later := ih ascending.of_cons
    rw [List.filterMap_cons]
    by_cases hit : compare key head.1 = .eq
    · have here := Std.LawfulEqCmp.eq_of_compare hit
      subst here
      cases kept : change head.1 head.2 with
      | none =>
        have absent : lookup head.1 rest = none :=
          lookup_eq_none_of_below fun entry member => List.rel_of_pairwise_cons ascending member
        simp [lookup, kept, later, absent]
      | some value => simp [lookup, kept]
    · cases kept : change head.1 head.2 with
      | none => simp [lookup, hit, later]
      | some value => simp [lookup, hit, later]

omit [Std.LawfulEqOrd κ] in
theorem not_below_of_lookup {key : κ} {value : ν} {head : κ × ν} {rest : List (κ × ν)}
    (ascending : (head :: rest).Pairwise fun a b => compare a.1 b.1 = .lt)
    (found : lookup key (head :: rest) = some value) : compare key head.1 ≠ .lt := by
  intro below
  have absent : lookup key (head :: rest) = none := by
    apply lookup_eq_none_of_below
    intro entry member
    rcases List.mem_cons.1 member with rfl | later
    · exact below
    · exact Std.TransCmp.lt_trans below (List.rel_of_pairwise_cons ascending later)
  rw [absent] at found
  cases found

theorem entries_ext {first second : List (κ × ν)}
    (firstUp : first.Pairwise fun a b => compare a.1 b.1 = .lt)
    (secondUp : second.Pairwise fun a b => compare a.1 b.1 = .lt)
    (same : ∀ key, lookup key first = lookup key second) : first = second := by
  induction first generalizing second with
  | nil =>
    cases second with
    | nil => rfl
    | cons head rest => simpa [lookup, Std.ReflCmp.compare_self] using same head.1
  | cons head rest ih =>
    cases second with
    | nil => simpa [lookup, Std.ReflCmp.compare_self] using same head.1
    | cons other tail =>
      have atHead : lookup head.1 (head :: rest) = some head.2 := by
        simp [lookup, Std.ReflCmp.compare_self]
      have atOther : lookup other.1 (other :: tail) = some other.2 := by
        simp [lookup, Std.ReflCmp.compare_self]
      have keys : head.1 = other.1 := by
        apply Std.compare_eq_iff_eq.1
        have notBelow := not_below_of_lookup secondUp ((same head.1).symm.trans atHead)
        have notAbove := not_below_of_lookup firstUp ((same other.1).trans atOther)
        cases order : compare head.1 other.1 with
        | eq => rfl
        | lt => exact absurd order notBelow
        | gt => exact absurd (Std.OrientedCmp.lt_of_gt order) notAbove
      have values : head.2 = other.2 := by
        have both := (same head.1).symm.trans atHead
        rw [keys, atOther] at both
        exact (Option.some.inj both).symm
      have heads : head = other := Prod.ext keys values
      subst heads
      apply congrArg (head :: ·)
      apply ih firstUp.of_cons secondUp.of_cons
      intro key
      by_cases hit : compare key head.1 = .eq
      · have here := Std.LawfulEqCmp.eq_of_compare hit
        subst here
        rw [lookup_eq_none_of_below fun entry member => List.rel_of_pairwise_cons firstUp member,
          lookup_eq_none_of_below fun entry member => List.rel_of_pairwise_cons secondUp member]
      · simpa [lookup, hit] using same key

end Lawful

/-! ## Operations -/

def get? (map : SortedMap κ ν) (key : κ) : Option ν :=
  lookup key map.entries

def contains (map : SortedMap κ ν) (key : κ) : Bool :=
  (map.get? key).isSome

def insert [Std.TransOrd κ] [Std.LawfulEqOrd κ] (map : SortedMap κ ν) (key : κ) (value : ν) :
    SortedMap κ ν :=
  ⟨insertEntry key value map.entries, insertEntry_ascending key value map.ascending⟩

def erase (map : SortedMap κ ν) (key : κ) : SortedMap κ ν :=
  ⟨eraseEntry key map.entries, map.ascending.filter _⟩

def toList (map : SortedMap κ ν) : List (κ × ν) :=
  map.entries

def keys (map : SortedMap κ ν) : List κ :=
  map.entries.map Prod.fst

def size (map : SortedMap κ ν) : Nat :=
  map.entries.length

def isEmpty (map : SortedMap κ ν) : Bool :=
  map.entries.isEmpty

def insertIfNew [Std.TransOrd κ] [Std.LawfulEqOrd κ] (map : SortedMap κ ν) (key : κ)
    (value : ν) : SortedMap κ ν :=
  ⟨addEntry key value map.entries, addEntry_ascending key value map.ascending⟩

/-- The map of a list of entries; of two entries with one key the later wins.  Working from
the right, entries that already ascend are each placed in one step. -/
def ofList [Std.TransOrd κ] [Std.LawfulEqOrd κ] (entries : List (κ × ν)) : SortedMap κ ν :=
  entries.foldr (fun entry map => map.insertIfNew entry.1 entry.2) ∅

def modify [Std.TransOrd κ] [Std.LawfulEqOrd κ] (map : SortedMap κ ν) (key : κ)
    (change : ν → ν) : SortedMap κ ν :=
  match map.get? key with
  | some value => map.insert key (change value)
  | none => map

/-- Rewrites every value, dropping the keys for which the rewriting gives nothing. -/
def filterMap (map : SortedMap κ ν) (change : κ → ν → Option μ) : SortedMap κ μ where
  entries := map.entries.filterMap fun entry => (change entry.1 entry.2).map (entry.1, ·)
  ascending := by
    refine List.Pairwise.filterMap _ (fun first second order => ?_) map.ascending
    intro kept hkept other hother
    obtain ⟨_, _, rfl⟩ := Option.map_eq_some_iff.1 hkept
    obtain ⟨_, _, rfl⟩ := Option.map_eq_some_iff.1 hother
    exact order

/-! ## What a lookup sees -/

@[simp] theorem get?_empty (key : κ) : (∅ : SortedMap κ ν).get? key = none := rfl

variable [Std.TransOrd κ] [Std.LawfulEqOrd κ]

theorem get?_insert [DecidableEq κ] (map : SortedMap κ ν) (key : κ) (value : ν) (other : κ) :
    (map.insert key value).get? other = if other = key then some value else map.get? other := by
  simp [get?, insert, lookup_insertEntry]

@[simp] theorem get?_insert_self (map : SortedMap κ ν) (key : κ) (value : ν) :
    (map.insert key value).get? key = some value := by
  simp [get?, insert, lookup_insertEntry]

theorem get?_insert_of_ne (map : SortedMap κ ν) {key other : κ} (value : ν)
    (apart : other ≠ key) : (map.insert key value).get? other = map.get? other := by
  simp [get?, insert, lookup_insertEntry, apart]

theorem contains_insert [DecidableEq κ] (map : SortedMap κ ν) (key : κ) (value : ν) (other : κ) :
    (map.insert key value).contains other = true ↔ other = key ∨ map.contains other = true := by
  rw [contains, contains, get?_insert]
  by_cases same : other = key
  · simp [same]
  · simp [same]

theorem get?_insertIfNew [DecidableEq κ] (map : SortedMap κ ν) (key : κ) (value : ν) (other : κ) :
    (map.insertIfNew key value).get? other =
      (map.get? other).or (if other = key then some value else none) := by
  simp [get?, insertIfNew, lookup_addEntry _ _ _ map.ascending]

@[simp] theorem ofList_nil : ofList ([] : List (κ × ν)) = ∅ := rfl

theorem get?_ofList_cons [DecidableEq κ] (entry : κ × ν) (entries : List (κ × ν)) (other : κ) :
    (ofList (entry :: entries)).get? other =
      ((ofList entries).get? other).or (if other = entry.1 then some entry.2 else none) :=
  get?_insertIfNew (ofList entries) entry.1 entry.2 other

theorem entries_ofList {entries : List (κ × ν)}
    (ascending : entries.Pairwise fun first second => compare first.1 second.1 = .lt) :
    (ofList entries).entries = entries := by
  induction entries with
  | nil => rfl
  | cons head rest ih =>
    have inner := ih ascending.of_cons
    change addEntry head.1 head.2 (ofList rest).entries = head :: rest
    rw [inner]
    exact addEntry_of_below fun entry member => List.rel_of_pairwise_cons ascending member

theorem mem_of_mem_ofList {entry : κ × ν} {entries : List (κ × ν)}
    (member : entry ∈ (ofList entries).entries) : entry ∈ entries := by
  induction entries with
  | nil => exact member
  | cons head rest ih =>
    rcases mem_addEntry member with same | later
    · exact same ▸ List.mem_cons_self
    · exact List.mem_cons_of_mem _ (ih later)

theorem size_ofList_le (entries : List (κ × ν)) : (ofList entries).size ≤ entries.length := by
  induction entries with
  | nil => exact Nat.le_refl 0
  | cons head rest ih =>
    exact Nat.le_trans (length_addEntry_le _ _ _) (Nat.add_le_add_right ih 1)

@[simp] theorem ofList_entries (map : SortedMap κ ν) : ofList map.entries = map :=
  ext_entries (entries_ofList map.ascending)

omit [Std.TransOrd κ] in
@[simp] theorem get?_erase_self (map : SortedMap κ ν) (key : κ) :
    (map.erase key).get? key = none := by
  simp [get?, erase, lookup_eraseEntry]

omit [Std.TransOrd κ] in
theorem get?_erase_of_ne (map : SortedMap κ ν) {key other : κ} (apart : other ≠ key) :
    (map.erase key).get? other = map.get? other := by
  simp [get?, erase, lookup_eraseEntry, apart]

omit [Std.TransOrd κ] in
theorem get?_erase [DecidableEq κ] (map : SortedMap κ ν) (key other : κ) :
    (map.erase key).get? other = if other = key then none else map.get? other := by
  simp [get?, erase, lookup_eraseEntry]

omit [Std.TransOrd κ] in
theorem get?_filterMap (map : SortedMap κ ν) (change : κ → ν → Option μ) (key : κ) :
    (map.filterMap change).get? key = (map.get? key).bind (change key) :=
  lookup_filterMap key map.ascending

theorem get?_modify [DecidableEq κ] (map : SortedMap κ ν) (key : κ) (change : ν → ν) (other : κ) :
    (map.modify key change).get? other =
      if other = key then (map.get? key).map change else map.get? other := by
  unfold modify
  cases found : map.get? key with
  | none =>
    by_cases same : other = key
    · rw [if_pos same, same, found]
      rfl
    · rw [if_neg same]
  | some value =>
    rw [get?_insert]
    rfl

omit [Std.TransOrd κ] in
theorem mem_entries_iff {map : SortedMap κ ν} {key : κ} {value : ν} :
    (key, value) ∈ map.entries ↔ map.get? key = some value :=
  mem_iff_lookup map.ascending

omit [Std.TransOrd κ] in
theorem mem_keys_iff {map : SortedMap κ ν} {key : κ} :
    key ∈ map.keys ↔ map.contains key = true := by
  rw [keys, List.mem_map, contains, Option.isSome_iff_exists]
  constructor
  · intro listed
    rcases listed with ⟨entry, member, rfl⟩
    exact ⟨entry.2, mem_entries_iff.1 member⟩
  · intro held
    rcases held with ⟨value, found⟩
    exact ⟨(key, value), mem_entries_iff.2 found, rfl⟩

omit [Std.LawfulEqOrd κ] in
theorem nodup_keys (map : SortedMap κ ν) : map.keys.Nodup := by
  rw [keys, List.Nodup, List.pairwise_map]
  apply map.ascending.imp
  intro first second order same
  rw [same, Std.compare_self] at order
  cases order

/-- Two maps are equal when every lookup gives the same. -/
theorem ext_get? {first second : SortedMap κ ν} (same : ∀ key, first.get? key = second.get? key) :
    first = second :=
  ext_entries (entries_ext first.ascending second.ascending same)

theorem isEmpty_iff {map : SortedMap κ ν} : map.isEmpty = true ↔ ∀ key, map.get? key = none := by
  constructor
  · intro empty key
    have none : map.entries = [] := List.isEmpty_iff.1 empty
    rw [get?, none, lookup]
  · intro absent
    have same : map = ∅ := ext_get? absent
    rw [same]
    rfl

theorem size_eq_zero_iff {map : SortedMap κ ν} : map.size = 0 ↔ ∀ key, map.get? key = none := by
  rw [← isEmpty_iff, isEmpty, List.isEmpty_iff, size, List.length_eq_zero_iff]

end SortedMap
end SharedGraph
