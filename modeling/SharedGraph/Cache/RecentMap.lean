/-!
# Maps that keep what was used last

A bounded map keeps the entries that were used last.  Its entries are listed with the
most recent one first; what no longer fits falls off the end.  Looking without using
(`peek?`) leaves the order alone.  Every map has room for an entry, never holds more than
it has room for, and lists no key twice.
-/

namespace SharedGraph

/-- A map with a bounded number of entries, the most recently used one first. -/
structure RecentMap (κ ν : Type) where
  capacity : Nat
  entries : List (κ × ν)
  positive : 0 < capacity
  bounded : entries.length ≤ capacity
  distinct : (entries.map Prod.fst).Nodup
deriving DecidableEq

namespace RecentMap

variable {κ ν : Type} [DecidableEq κ]

def empty (capacity : Nat) (positive : 0 < capacity) : RecentMap κ ν where
  capacity := capacity
  entries := []
  positive := positive
  bounded := Nat.zero_le _
  distinct := List.nodup_nil

def peek? (map : RecentMap κ ν) (key : κ) : Option ν :=
  map.entries.lookup key

def others (map : RecentMap κ ν) (key : κ) : List (κ × ν) :=
  map.entries.filter fun entry => entry.1 ≠ key

theorem distinct_others (map : RecentMap κ ν) (key : κ) :
    ((map.others key).map Prod.fst).Nodup :=
  List.Pairwise.sublist (List.filter_sublist.map Prod.fst) map.distinct

theorem not_mem_others (map : RecentMap κ ν) (key : κ) :
    key ∉ (map.others key).map Prod.fst := by
  intro member
  obtain ⟨entry, inOthers, same⟩ := List.mem_map.1 member
  have differs := (List.mem_filter.1 inOthers).2
  exact of_decide_eq_true differs same

def put (map : RecentMap κ ν) (key : κ) (value : ν) : RecentMap κ ν where
  capacity := map.capacity
  entries := ((key, value) :: map.others key).take map.capacity
  positive := map.positive
  bounded := List.length_take_le _ _
  distinct :=
    have all : (((key, value) :: map.others key).map Prod.fst).Nodup :=
      List.nodup_cons.2 ⟨map.not_mem_others key, map.distinct_others key⟩
    List.Pairwise.sublist ((List.take_sublist _ _).map Prod.fst) all

def erase (map : RecentMap κ ν) (key : κ) : RecentMap κ ν where
  capacity := map.capacity
  entries := map.others key
  positive := map.positive
  bounded := Nat.le_trans (List.length_filter_le _ _) map.bounded
  distinct := map.distinct_others key

/-- Uses a key, which makes it the most recent one if it has a value. -/
def touch (map : RecentMap κ ν) (key : κ) : RecentMap κ ν :=
  match map.peek? key with
  | some value => map.put key value
  | none => map

def size (map : RecentMap κ ν) : Nat :=
  map.entries.length

end RecentMap
end SharedGraph
