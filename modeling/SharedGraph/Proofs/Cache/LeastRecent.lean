import Mathlib.Data.List.MinMax
import SharedGraph.Cache.Tier
import SharedGraph.Proofs.Cache.Recency
import SharedGraph.Proofs.Data.History

/-!
# Least recently used

The rule behind the local values, without their representation: every key carries the number of
its last use, and when there are too many keys, the one whose last use is the oldest goes.  A
recent map, which moves entries to the front of a list and cuts the list off, follows this rule
(`Mirrors`).  What such a map shows for a key is what was last written for it, unless the key was
evicted since (`get?_after`).
-/

namespace SharedGraph

structure LruMap where
  capacity : Nat
  uses : Nat := 0
  /-- What is held for each key, after the number of its last use. -/
  held : SortedMap String (Nat × String) := ∅

namespace LruMap

def get? (map : LruMap) (key : String) : Option String :=
  (map.held.get? key).map Prod.snd

def lastUse (map : LruMap) (key : String) : Nat :=
  ((map.held.get? key).map Prod.fst).getD 0

def use (map : LruMap) (key value : String) : LruMap :=
  { map with uses := map.uses + 1, held := map.held.insert key (map.uses, value) }

def oldest? (map : LruMap) : Option String :=
  (map.held.entries.argmin fun entry => entry.2.1).map Prod.fst

def erase (map : LruMap) (key : String) : LruMap :=
  { map with held := map.held.erase key }

def shrink (map : LruMap) : LruMap :=
  if map.held.size ≤ map.capacity then map
  else
    match map.oldest? with
    | some key => map.erase key
    | none => map

def put (map : LruMap) (key value : String) : LruMap :=
  (map.use key value).shrink

def touch (map : LruMap) (key : String) : LruMap :=
  match map.get? key with
  | some value => map.use key value
  | none => map

/-- Carries a call out; a read of a key that is not held has no answer. -/
def perform (map : LruMap) : CacheCall → Option (Option String) × LruMap
  | .get key => ((map.get? key).map some, map.touch key)
  | .put key value => (some (map.get? key), map.put key value)
  | .remove key => (some (map.get? key), map.erase key)

def run (map : LruMap) : List CacheCall → List (Option (Option String)) × LruMap
  | [] => ([], map)
  | call :: rest =>
    let (answer, map) := map.perform call
    let (answers, map) := map.run rest
    (answer :: answers, map)

def after (map : LruMap) (calls : List CacheCall) : LruMap :=
  calls.foldl (fun map call => (map.perform call).2) map

theorem run_state (map : LruMap) (calls : List CacheCall) :
    (map.run calls).2 = map.after calls := by
  induction calls generalizing map with
  | nil => rfl
  | cons call rest ih => exact ih (map.perform call).2

theorem run_append_answers (map : LruMap) (done rest : List CacheCall) :
    (map.run (done ++ rest)).1 = (map.run done).1 ++ ((map.after done).run rest).1 := by
  induction done generalizing map with
  | nil => rfl
  | cons call done ih => exact congrArg (List.cons _) (ih (map.perform call).2)

theorem length_run (map : LruMap) (calls : List CacheCall) :
    (map.run calls).1.length = calls.length := by
  induction calls generalizing map with
  | nil => rfl
  | cons call rest ih => exact congrArg Nat.succ (ih (map.perform call).2)

/-!
## Lists in the order of use
-/

variable {map : LruMap} {entries : List (String × String)} {key value : String}

structure Lists (map : LruMap) (entries : List (String × String)) : Prop where
  distinct : (entries.map Prod.fst).Nodup
  holds : ∀ key value, map.get? key = some value ↔ (key, value) ∈ entries
  ordered : entries.Pairwise fun newer older => map.lastUse older.1 < map.lastUse newer.1
  past : ∀ entry ∈ entries, map.lastUse entry.1 < map.uses

theorem get?_use (map : LruMap) (key value other : String) :
    (map.use key value).get? other = if other = key then some value else map.get? other := by
  rw [get?, use, SortedMap.get?_insert]
  split <;> rfl

theorem lastUse_use (map : LruMap) (key value other : String) :
    (map.use key value).lastUse other = if other = key then map.uses else map.lastUse other := by
  rw [lastUse, use, SortedMap.get?_insert]
  split <;> rfl

theorem get?_erase (map : LruMap) (key other : String) :
    (map.erase key).get? other = if other = key then none else map.get? other := by
  rw [get?, erase, SortedMap.get?_erase]
  split <;> rfl

theorem lastUse_erase_of_ne {other : String} (hne : other ≠ key) :
    (map.erase key).lastUse other = map.lastUse other := by
  rw [lastUse, erase, SortedMap.get?_erase_of_ne _ hne]
  rfl

theorem mem_filter_ne {entry : String × String} :
    (entry ∈ entries.filter fun entry => entry.1 ≠ key) ↔ entry ∈ entries ∧ entry.1 ≠ key := by
  rw [List.mem_filter, decide_eq_true_eq]

theorem filter_ne_of_not_mem (hkey : key ∉ entries.map Prod.fst) :
    (entries.filter fun entry => entry.1 ≠ key) = entries := by
  rw [List.filter_eq_self]
  intro entry hentry
  rw [decide_eq_true_eq]
  rintro rfl
  exact hkey (List.mem_map_of_mem hentry)

theorem ordered_others {later : LruMap} (hlists : map.Lists entries)
    (hsame : ∀ entry ∈ entries.filter fun entry => entry.1 ≠ key,
      later.lastUse entry.1 = map.lastUse entry.1) :
    (entries.filter fun entry => entry.1 ≠ key).Pairwise fun newer older =>
      later.lastUse older.1 < later.lastUse newer.1 := by
  refine (hlists.ordered.sublist List.filter_sublist).imp_of_mem ?_
  intro newer older hnewer holder hlt
  rw [hsame newer hnewer, hsame older holder]
  exact hlt

theorem lists_use (hlists : map.Lists entries) (key value : String) :
    (map.use key value).Lists ((key, value) :: entries.filter fun entry => entry.1 ≠ key) := by
  have hsame : ∀ entry ∈ entries.filter fun entry => entry.1 ≠ key,
      (map.use key value).lastUse entry.1 = map.lastUse entry.1 := by
    intro entry hentry
    rw [lastUse_use, if_neg (mem_filter_ne.1 hentry).2]
  have hnow : (map.use key value).lastUse key = map.uses := by rw [lastUse_use, if_pos rfl]
  constructor
  · rw [List.map_cons, List.nodup_cons]
    refine ⟨?_, hlists.distinct.sublist (List.filter_sublist.map Prod.fst)⟩
    intro hmem
    rcases List.mem_map.1 hmem with ⟨entry, hentry, hkey⟩
    exact (mem_filter_ne.1 hentry).2 hkey
  · intro other held
    rw [get?_use, List.mem_cons, mem_filter_ne, ← hlists.holds]
    by_cases hother : other = key
    · simp [hother, eq_comm]
    · simp [hother]
  · refine List.pairwise_cons.2 ⟨fun entry hentry => ?_, ?_⟩
    · rw [hsame entry hentry, hnow]
      exact hlists.past entry (mem_filter_ne.1 hentry).1
    · exact ordered_others hlists hsame
  · intro entry hentry
    rcases List.mem_cons.1 hentry with rfl | hrest
    · rw [hnow]
      exact Nat.lt_succ_self _
    · rw [hsame entry hrest]
      exact Nat.lt_succ_of_lt (hlists.past entry (mem_filter_ne.1 hrest).1)

theorem lists_erase (hlists : map.Lists entries) (key : String) :
    (map.erase key).Lists (entries.filter fun entry => entry.1 ≠ key) := by
  have hsame : ∀ entry ∈ entries.filter fun entry => entry.1 ≠ key,
      (map.erase key).lastUse entry.1 = map.lastUse entry.1 :=
    fun entry hentry => lastUse_erase_of_ne (mem_filter_ne.1 hentry).2
  constructor
  · exact hlists.distinct.sublist (List.filter_sublist.map Prod.fst)
  · intro other held
    rw [get?_erase, mem_filter_ne, ← hlists.holds]
    by_cases hother : other = key
    · simp [hother]
    · simp [hother]
  · exact ordered_others hlists hsame
  · intro entry hentry
    rw [hsame entry hentry]
    exact hlists.past entry (mem_filter_ne.1 hentry).1

theorem mem_keys_iff : key ∈ map.held.keys ↔ ∃ value, map.get? key = some value := by
  rw [SortedMap.mem_keys_iff, SortedMap.contains, ← Option.isSome_iff_exists, get?,
    Option.isSome_map]

theorem size_eq_length (hlists : map.Lists entries) : map.held.size = entries.length := by
  have hperm : map.held.keys.Perm (entries.map Prod.fst) := by
    refine (List.perm_ext_iff_of_nodup map.held.nodup_keys hlists.distinct).2 fun key => ?_
    rw [mem_keys_iff, List.mem_map]
    constructor
    · rintro ⟨value, hvalue⟩
      exact ⟨(key, value), (hlists.holds _ _).1 hvalue, rfl⟩
    · rintro ⟨entry, hentry, rfl⟩
      exact ⟨entry.2, (hlists.holds _ _).2 hentry⟩
  have hlength := hperm.length_eq
  rwa [SortedMap.keys, List.length_map, List.length_map] at hlength

theorem oldest?_eq_some {front : List (String × String)} {last : String × String}
    (hlists : map.Lists (front ++ [last])) : map.oldest? = some last.1 := by
  have hlast : map.get? last.1 = some last.2 := (hlists.holds _ _).2 (by simp)
  rcases Option.map_eq_some_iff.1 hlast with ⟨used, hused, -⟩
  have hmem : (last.1, used) ∈ map.held.entries := SortedMap.mem_entries_iff.2 hused
  have huse : ∀ {key : String} {used : Nat × String}, (key, used) ∈ map.held.entries →
      map.lastUse key = used.1 := by
    intro key used hentry
    rw [lastUse, SortedMap.mem_entries_iff.1 hentry]
    rfl
  cases hleast : map.held.entries.argmin fun entry => entry.2.1 with
  | none =>
    rw [List.argmin_eq_none.1 hleast] at hmem
    exact absurd hmem List.not_mem_nil
  | some least =>
    obtain ⟨key, leastUsed⟩ := least
    have hleastMem : (key, leastUsed) ∈ map.held.entries := List.argmin_mem hleast
    rw [oldest?, hleast, Option.map_some]
    by_cases hsame : key = last.1
    · rw [hsame]
    · have hheld : map.get? key = some leastUsed.2 := by
        rw [get?, SortedMap.mem_entries_iff.1 hleastMem]
        rfl
      have hfront : (key, leastUsed.2) ∈ front := by
        rcases List.mem_append.1 ((hlists.holds _ _).1 hheld) with hfront | hlater
        · exact hfront
        · exact absurd (congrArg Prod.fst (List.mem_singleton.1 hlater)) hsame
      have hnewer : map.lastUse last.1 < map.lastUse key :=
        (List.pairwise_append.1 hlists.ordered).2.2 _ hfront last (List.mem_singleton_self _)
      have hle := List.le_of_mem_argmin hmem hleast
      rw [huse hmem, huse hleastMem] at hnewer
      exact absurd hnewer (Nat.not_lt.2 hle)

theorem lists_shrink (hlists : map.Lists entries) (hlength : entries.length ≤ map.capacity + 1) :
    map.shrink.Lists (entries.take map.capacity) := by
  by_cases hfits : entries.length ≤ map.capacity
  · rw [shrink, size_eq_length hlists, if_pos hfits, List.take_of_length_le hfits]
    exact hlists
  · have hfull : entries.length = map.capacity + 1 := by omega
    have hne : entries ≠ [] := by
      rintro rfl
      cases hfull
    have hfront : entries.take map.capacity = entries.dropLast := by
      rw [List.dropLast_eq_take, hfull, Nat.add_sub_cancel]
    obtain ⟨front, last, rfl⟩ : ∃ front last, entries = front ++ [last] :=
      ⟨_, _, (List.dropLast_append_getLast hne).symm⟩
    rw [List.dropLast_concat] at hfront
    rw [shrink, size_eq_length hlists, if_neg hfits, oldest?_eq_some hlists, hfront]
    have hrest : ((front ++ [last]).filter fun entry => entry.1 ≠ last.1) = front := by
      have hdistinct := hlists.distinct
      rw [List.map_append, List.map_singleton, List.nodup_append] at hdistinct
      have hnew : last.1 ∉ front.map Prod.fst :=
        fun hmem => hdistinct.2.2 _ hmem _ (List.mem_singleton_self _) rfl
      rw [List.filter_append, filter_ne_of_not_mem hnew]
      simp
    have herased := lists_erase hlists last.1
    rwa [hrest] at herased

/-!
## Recent maps follow the rule
-/

/-- Whether a recent map holds what a map of this kind holds, in the order of the last uses. -/
structure Mirrors (map : LruMap) (values : RecentMap String String) : Prop where
  capacity : map.capacity = values.capacity
  lists : map.Lists values.entries

variable {values : RecentMap String String}

theorem Mirrors.get?_eq (hmirrors : map.Mirrors values) (key : String) :
    map.get? key = values.peek? key := by
  apply Option.ext
  intro value
  rw [hmirrors.lists.holds, RecentMap.peek?_eq_some_iff]

theorem capacity_shrink (map : LruMap) : map.shrink.capacity = map.capacity := by
  unfold shrink
  split
  · rfl
  · split <;> rfl

theorem mirrors_put (hmirrors : map.Mirrors values) (key value : String) :
    (map.put key value).Mirrors (values.put key value) := by
  refine ⟨(capacity_shrink _).trans hmirrors.capacity, ?_⟩
  have hlength : ((key, value) :: values.others key).length ≤ (map.use key value).capacity + 1 := by
    rw [List.length_cons]
    refine Nat.succ_le_succ (Nat.le_trans (List.length_filter_le _ _) ?_)
    exact Nat.le_trans values.bounded (Nat.le_of_eq hmirrors.capacity.symm)
  have hshrunk := lists_shrink (lists_use hmirrors.lists key value) hlength
  rw [show (map.use key value).capacity = values.capacity from hmirrors.capacity] at hshrunk
  exact hshrunk

theorem mirrors_erase (hmirrors : map.Mirrors values) (key : String) :
    (map.erase key).Mirrors (values.erase key) :=
  ⟨hmirrors.capacity, lists_erase hmirrors.lists key⟩

theorem mirrors_touch (hmirrors : map.Mirrors values) (key : String) :
    (map.touch key).Mirrors (values.touch key) := by
  cases hheld : values.peek? key with
  | none =>
    rw [touch, hmirrors.get?_eq, hheld, RecentMap.touch, hheld]
    exact hmirrors
  | some value =>
    refine ⟨?_, ?_⟩
    · rw [touch, hmirrors.get?_eq, hheld, RecentMap.touch, hheld]
      exact hmirrors.capacity
    · rw [touch, hmirrors.get?_eq, hheld, RecentMap.entries_touch hheld]
      exact lists_use hmirrors.lists key value

def ofRecent (values : RecentMap String String) : LruMap :=
  values.entries.foldr (fun entry map => map.use entry.1 entry.2) { capacity := values.capacity }

theorem mirrors_ofRecent (values : RecentMap String String) : (ofRecent values).Mirrors values := by
  have hfold : ∀ entries : List (String × String), (entries.map Prod.fst).Nodup →
      let map : LruMap := entries.foldr (fun entry map => map.use entry.1 entry.2)
        { capacity := values.capacity }
      map.capacity = values.capacity ∧ map.Lists entries := by
    intro entries hdistinct
    induction entries with
    | nil =>
      refine ⟨rfl, List.nodup_nil, fun key value => ?_, List.Pairwise.nil, ?_⟩
      · exact iff_of_false nofun List.not_mem_nil
      · exact fun entry hentry => absurd hentry List.not_mem_nil
    | cons entry rest ih =>
      rw [List.map_cons, List.nodup_cons] at hdistinct
      rcases ih hdistinct.2 with ⟨hcapacity, hlists⟩
      refine ⟨hcapacity, ?_⟩
      have hused := lists_use hlists entry.1 entry.2
      rw [filter_ne_of_not_mem hdistinct.1] at hused
      exact hused
  rcases hfold values.entries values.distinct with ⟨hcapacity, hlists⟩
  exact ⟨hcapacity, hlists⟩

end LruMap

/-!
## What a key shows
-/

namespace CacheCall

def Writes (key : String) : CacheCall → Prop
  | .get _ => False
  | .put other _ | .remove other => other = key

def written (key : String) (value : Option String) : CacheCall → Option String
  | .get _ => value
  | .put other new => if other = key then some new else value
  | .remove other => if other = key then none else value

/-- What was last written for a key by some calls, if it had `value` before them. -/
def latest (key : String) (calls : List CacheCall) (value : Option String) : Option String :=
  calls.foldl (written key) value

variable {call : CacheCall} {key : String}

theorem written_of_writes (hwrites : call.Writes key) (value other : Option String) :
    call.written key value = call.written key other := by
  cases call with
  | get read => exact hwrites.elim
  | put stored new => exact (if_pos hwrites).trans (if_pos hwrites).symm
  | remove dropped => exact (if_pos hwrites).trans (if_pos hwrites).symm

theorem written_of_not_writes (hwrites : ¬call.Writes key) (value : Option String) :
    call.written key value = value := by
  cases call with
  | get read => rfl
  | put stored new => exact if_neg hwrites
  | remove dropped => exact if_neg hwrites

theorem latest_concat (calls : List CacheCall) (value : Option String) :
    latest key (calls ++ [call]) value = call.written key (latest key calls value) := by
  rw [latest, List.foldl_append]
  rfl

end CacheCall

namespace LruMap

variable {map : LruMap} {values : RecentMap String String} {calls : List CacheCall}
variable {call : CacheCall} {key : String}

/-- Whether a call for another key makes a map drop a key. -/
def Evicts (map : LruMap) (key : String) (call : CacheCall) : Prop :=
  call.key ≠ key ∧ map.get? key ≠ none ∧ (map.perform call).2.get? key = none

/-- Whether a key was evicted by one of some calls, and neither written nor removed after that. -/
def EvictedSince (map : LruMap) (key : String) (calls : List CacheCall) : Prop :=
  ∃ earlier call later, calls = earlier ++ call :: later ∧ (map.after earlier).Evicts key call ∧
    ∀ next ∈ later, ¬next.Writes key

theorem evictedSince_concat :
    map.EvictedSince key (calls ++ [call]) ↔
      (map.after calls).Evicts key call ∨ (¬call.Writes key ∧ map.EvictedSince key calls) :=
  since_concat_iff

theorem after_concat (map : LruMap) (calls : List CacheCall) (call : CacheCall) :
    map.after (calls ++ [call]) = ((map.after calls).perform call).2 := by
  rw [after, List.foldl_append]
  rfl

theorem get?_touch (map : LruMap) (key other : String) :
    (map.touch key).get? other = map.get? other := by
  unfold touch
  cases hheld : map.get? key with
  | none => rfl
  | some value =>
    dsimp only
    rw [get?_use]
    by_cases hsame : other = key
    · rw [if_pos hsame, hsame, hheld]
    · rw [if_neg hsame]

theorem exists_mirrors_perform (hmirrors : map.Mirrors values) (call : CacheCall) :
    ∃ values', (map.perform call).2.Mirrors values' := by
  cases call with
  | get key => exact ⟨_, mirrors_touch hmirrors key⟩
  | put key value => exact ⟨_, mirrors_put hmirrors key value⟩
  | remove key => exact ⟨_, mirrors_erase hmirrors key⟩

theorem exists_mirrors_after (hmirrors : map.Mirrors values) (calls : List CacheCall) :
    ∃ values', (map.after calls).Mirrors values' := by
  induction calls using List.reverseRecOn with
  | nil => exact ⟨values, hmirrors⟩
  | append_singleton calls call ih =>
    rcases ih with ⟨reached, hreached⟩
    rw [after_concat]
    exact exists_mirrors_perform hreached call

theorem get?_perform (hmirrors : map.Mirrors values) (key : String) (call : CacheCall) :
    (map.perform call).2.get? key = call.written key (map.get? key) ∨ map.Evicts key call := by
  cases call with
  | get read => exact Or.inl (map.get?_touch read key)
  | remove removed =>
    refine Or.inl ((map.get?_erase removed key).trans ?_)
    rw [CacheCall.written]
    simp only [eq_comm]
  | put stored new =>
    have hput := mirrors_put hmirrors stored new
    by_cases hsame : stored = key
    · left
      subst hsame
      rw [CacheCall.written, if_pos rfl]
      exact (hput.get?_eq stored).trans RecentMap.peek?_put_self
    · rw [CacheCall.written, if_neg hsame]
      cases hafter : (map.perform (.put stored new)).2.get? key with
      | some value =>
        have hkept : (values.put stored new).peek? key = some value :=
          (hput.get?_eq key).symm.trans hafter
        rw [hmirrors.get?_eq, RecentMap.peek?_of_peek?_put (Ne.symm hsame) hkept]
        exact Or.inl rfl
      | none =>
        by_cases hheld : map.get? key = none
        · exact Or.inl hheld.symm
        · exact Or.inr ⟨hsame, hheld, hafter⟩

theorem get?_after (hmirrors : map.Mirrors values) (key : String) (calls : List CacheCall) :
    (map.after calls).get? key = CacheCall.latest key calls (map.get? key) ∨
      ((map.after calls).get? key = none ∧ map.EvictedSince key calls) := by
  induction calls using List.reverseRecOn with
  | nil => exact Or.inl rfl
  | append_singleton calls call ih =>
    rcases exists_mirrors_after hmirrors calls with ⟨reached, hreached⟩
    rw [after_concat, CacheCall.latest_concat]
    rw [evictedSince_concat]
    rcases get?_perform hreached key call with hwritten | hevicts
    · rw [hwritten]
      rcases ih with hlatest | ⟨hnone, hevicted⟩
      · rw [hlatest]
        exact Or.inl rfl
      · by_cases hwrites : call.Writes key
        · exact Or.inl (CacheCall.written_of_writes hwrites _ _)
        · right
          rw [CacheCall.written_of_not_writes hwrites, hnone]
          exact ⟨rfl, Or.inr ⟨hwrites, hevicted⟩⟩
    · exact Or.inr ⟨hevicts.2.2, Or.inl hevicts⟩

theorem get?_of_evictedSince (hmirrors : map.Mirrors values)
    (hevicted : map.EvictedSince key calls) : (map.after calls).get? key = none := by
  induction calls using List.reverseRecOn with
  | nil => exact absurd hevicted not_since_nil
  | append_singleton calls call ih =>
    rw [after_concat]
    rcases evictedSince_concat.1 hevicted with hevicts | ⟨hwrites, hearlier⟩
    · exact hevicts.2.2
    · rcases exists_mirrors_after hmirrors calls with ⟨reached, hreached⟩
      rcases get?_perform hreached key call with hwritten | hagain
      · rw [hwritten, CacheCall.written_of_not_writes hwrites, ih hearlier]
      · exact hagain.2.2

end LruMap
end SharedGraph
