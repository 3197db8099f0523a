import Mathlib.Data.List.Nodup
import Mathlib.Data.List.Perm.Basic
import SharedGraph.Cache.RecentMap

/-!
# What a recent map holds

A recent map holds an entry for each of its keys, in the order of their last uses.  Storing a
value never changes that of another key, but may push another key out; using a key changes
nothing but the order.
-/

namespace SharedGraph
namespace RecentMap

variable {κ ν : Type} [DecidableEq κ] {map : RecentMap κ ν} {key other : κ} {value held : ν}

theorem lookup_eq_some_iff_mem {entries : List (κ × ν)} (hdistinct : (entries.map Prod.fst).Nodup) :
    entries.lookup key = some value ↔ (key, value) ∈ entries := by
  induction entries with
  | nil => exact iff_of_false nofun List.not_mem_nil
  | cons entry rest ih =>
    rw [List.map_cons, List.nodup_cons] at hdistinct
    rw [List.lookup_cons, List.mem_cons]
    by_cases hsame : key = entry.1
    · subst hsame
      have hrest : (entry.1, value) ∉ rest :=
        fun hmem => hdistinct.1 (List.mem_map.2 ⟨_, hmem, rfl⟩)
      simp [hrest, Prod.ext_iff, eq_comm]
    · have hbeq : (key == entry.1) = false := beq_eq_false_iff_ne.2 hsame
      have hne : (key, value) ≠ entry := fun heq => hsame (congrArg Prod.fst heq)
      simp [hbeq, hne, ih hdistinct.2]

theorem peek?_eq_some_iff : map.peek? key = some value ↔ (key, value) ∈ map.entries :=
  lookup_eq_some_iff_mem map.distinct

theorem peek?_eq_none_iff : map.peek? key = none ↔ ∀ value, (key, value) ∉ map.entries := by
  simp only [← peek?_eq_some_iff]
  exact Option.eq_none_iff_forall_ne_some

theorem mem_others {entry : κ × ν} :
    entry ∈ map.others key ↔ entry ∈ map.entries ∧ entry.1 ≠ key := by
  rw [others, List.mem_filter, decide_eq_true_eq]

theorem peek?_put_self : (map.put key value).peek? key = some value := by
  rw [peek?_eq_some_iff]
  obtain ⟨room, hroom⟩ := Nat.exists_eq_succ_of_ne_zero (Nat.ne_of_gt map.positive)
  simp [put, hroom]

theorem peek?_of_peek?_put (hne : other ≠ key)
    (hheld : (map.put key value).peek? other = some held) : map.peek? other = some held := by
  rw [peek?_eq_some_iff] at hheld ⊢
  have hmem := List.mem_of_mem_take hheld
  rcases List.mem_cons.1 hmem with hsame | hothers
  · exact absurd (congrArg Prod.fst hsame) hne
  · exact (mem_others.1 hothers).1

theorem peek?_erase_self : (map.erase key).peek? key = none :=
  peek?_eq_none_iff.2 fun _ hmem => (mem_others.1 hmem).2 rfl

theorem peek?_erase_of_ne (hne : other ≠ key) :
    (map.erase key).peek? other = map.peek? other := by
  apply Option.ext
  intro held
  rw [peek?_eq_some_iff, peek?_eq_some_iff]
  exact mem_others.trans (and_iff_left hne)

theorem perm_cons_others (hheld : map.peek? key = some value) :
    ((key, value) :: map.others key).Perm map.entries := by
  have hmem := peek?_eq_some_iff.1 hheld
  have hfront : ((key, value) :: map.others key).Nodup := by
    refine List.nodup_cons.2 ⟨fun hothers => (mem_others.1 hothers).2 rfl, ?_⟩
    exact (map.distinct_others key).of_map
  refine (List.perm_ext_iff_of_nodup hfront map.distinct.of_map).2 fun entry => ?_
  rw [List.mem_cons, mem_others]
  constructor
  · rintro (rfl | ⟨hentry, -⟩)
    · exact hmem
    · exact hentry
  · intro hentry
    by_cases hsame : entry.1 = key
    · refine Or.inl (Prod.ext hsame ?_)
      have hlookup : map.peek? key = some entry.2 := peek?_eq_some_iff.2 (hsame ▸ hentry)
      exact Option.some.inj (hlookup.symm.trans hheld)
    · exact Or.inr ⟨hentry, hsame⟩

theorem entries_touch (hheld : map.peek? key = some value) :
    (map.touch key).entries = (key, value) :: map.others key := by
  rw [touch, hheld]
  refine List.take_of_length_le ?_
  rw [(perm_cons_others hheld).length_eq]
  exact map.bounded

theorem perm_touch : (map.touch key).entries.Perm map.entries := by
  cases hheld : map.peek? key with
  | none =>
    rw [touch, hheld]
  | some value =>
    rw [entries_touch hheld]
    exact perm_cons_others hheld

theorem peek?_of_perm {reordered : RecentMap κ ν} (hperm : map.entries.Perm reordered.entries) :
    map.peek? key = reordered.peek? key := by
  apply Option.ext
  intro held
  rw [peek?_eq_some_iff, peek?_eq_some_iff, hperm.mem_iff]

theorem peek?_touch : (map.touch key).peek? other = map.peek? other :=
  peek?_of_perm perm_touch

end RecentMap
end SharedGraph
