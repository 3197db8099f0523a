import SharedGraph.Relay.Ledger

/-!
# Who the ledger waits for

Each operation of the ledger is described by one lemma that says for whom an id waits
afterwards.  A ledger is tidy when it keeps no entry that waits for nobody; then an id is
settled exactly when nobody owes an acknowledgement of it, and every operation leaves a
tidy ledger tidy.
-/

namespace SharedGraph
namespace Ledger

variable {ledger : Ledger} {id other : GlobalId} {passive name : String}

theorem mem_waiting_iff :
    name ∈ ledger.waiting id ↔ ∃ names, ledger.entries.get? id = some names ∧ name ∈ names := by
  unfold waiting
  cases ledger.entries.get? id with
  | none => simp
  | some names => simp

theorem mem_pending_iff : name ∈ ledger.pending id ↔ name ∈ ledger.waiting id :=
  SortedSet.mem_toList

theorem pending_eq_nil_iff : ledger.pending id = [] ↔ ∀ name, name ∉ ledger.waiting id := by
  rw [List.eq_nil_iff_forall_not_mem]
  exact forall_congr' fun name => not_congr mem_pending_iff

/-- Every entry waits for somebody. -/
def Tidy (ledger : Ledger) : Prop :=
  ∀ id names, ledger.entries.get? id = some names → ∃ name, name ∈ names

theorem tidy_empty : Tidy {} := fun _ _ hfound => nomatch hfound

theorem isSettled_iff (htidy : ledger.Tidy) :
    ledger.isSettled id = true ↔ ∀ name, name ∉ ledger.waiting id := by
  unfold isSettled SortedMap.contains
  cases hfound : ledger.entries.get? id with
  | none => simp [mem_waiting_iff, hfound]
  | some names =>
    obtain ⟨name, hname⟩ := htidy id names hfound
    simp only [Option.isSome_some, Bool.not_true, Bool.false_eq_true, false_iff]
    exact fun hnobody => hnobody name (mem_waiting_iff.2 ⟨names, hfound, hname⟩)

theorem size_eq_zero_iff (htidy : ledger.Tidy) :
    ledger.size = 0 ↔ ∀ id name, name ∉ ledger.waiting id := by
  rw [size, SortedMap.size_eq_zero_iff]
  constructor
  · intro hempty id name hname
    obtain ⟨names, hfound, _⟩ := mem_waiting_iff.1 hname
    rw [hempty id] at hfound
    cases hfound
  · intro hnobody id
    cases hfound : ledger.entries.get? id with
    | none => rfl
    | some names =>
      obtain ⟨name, hname⟩ := htidy id names hfound
      exact absurd (mem_waiting_iff.2 ⟨names, hfound, hname⟩) (hnobody id name)

theorem oldest?_eq_none_iff : ledger.oldest? = none ↔ ledger.size = 0 := by
  rw [oldest?, List.head?_eq_none_iff, SortedMap.keys, List.map_eq_nil_iff, size, SortedMap.size,
    List.length_eq_zero_iff]

theorem oldest?_le (hname : name ∈ ledger.waiting id) :
    ∃ least, ledger.oldest? = some least ∧ least ≤ id := by
  rcases mem_waiting_iff.1 hname with ⟨names, hfound, -⟩
  have hentry := SortedMap.mem_entries_iff.2 hfound
  have hascending := ledger.entries.ascending
  unfold oldest? SortedMap.keys
  generalize ledger.entries.entries = entries at hentry hascending ⊢
  cases entries with
  | nil => cases hentry
  | cons first rest =>
    refine ⟨first.1, rfl, ?_⟩
    rcases List.mem_cons.1 hentry with rfl | hlater
    · exact GlobalId.le_refl _
    · have hless : compare first.1.number id.number = .lt :=
        (List.pairwise_cons.1 hascending).1 _ hlater
      exact UInt64.le_of_lt (compareOfLessAndEq_eq_lt.1 hless)

/-!
## Waiting for more passives
-/

theorem mem_waiting_expect {passives : List String} :
    name ∈ (ledger.expect id passives).waiting other ↔
      name ∈ ledger.waiting other ∨ (other = id ∧ name ∈ passives) := by
  unfold expect
  by_cases hempty : passives.isEmpty = true
  · rw [if_pos hempty, List.isEmpty_iff.1 hempty]
    simp
  · rw [if_neg hempty]
    simp only [mem_waiting_iff, SortedMap.get?_insert]
    by_cases hsame : other = id
    · subst hsame
      simp [waiting, or_comm]
      cases ledger.entries.get? other <;> simp
    · simp [hsame]

theorem tidy_expect {passives : List String} (htidy : ledger.Tidy) :
    (ledger.expect id passives).Tidy := by
  unfold expect
  by_cases hempty : passives.isEmpty = true
  · rw [if_pos hempty]
    exact htidy
  · rw [if_neg hempty]
    intro other names hfound
    rw [SortedMap.get?_insert] at hfound
    split at hfound
    · cases hfound
      cases passives with
      | nil => exact absurd rfl hempty
      | cons name rest => exact ⟨name, by simp⟩
    · exact htidy other names hfound

/-!
## Settling
-/

theorem isEmpty_erase_iff {names : SortedSet String} :
    (names.erase passive).isEmpty = true ↔ ∀ name ∈ names, name = passive := by
  rw [SortedSet.isEmpty_iff]
  simp only [SortedSet.mem_erase, not_and]
  exact forall_congr' fun name => ⟨fun hnot hmem => Decidable.byContradiction fun hother =>
    hnot hother hmem, fun hsame hother hmem => hother (hsame hmem)⟩

theorem mem_waiting_settle :
    name ∈ (ledger.settle id passive).2.waiting other ↔
      name ∈ ledger.waiting other ∧ ¬(other = id ∧ name = passive) := by
  unfold settle
  cases hfound : ledger.entries.get? id with
  | none =>
    constructor
    · rintro hname
      refine ⟨hname, ?_⟩
      rintro ⟨rfl, -⟩
      simp [mem_waiting_iff, hfound] at hname
    · exact And.left
  | some names =>
    by_cases hheld : names.contains passive = true
    · by_cases hsame : other = id
      · subst hsame
        by_cases hempty : (names.erase passive).isEmpty = true
        · have hnobody := SortedSet.isEmpty_iff.1 hempty name
          simp [hheld, hempty, mem_waiting_iff, hfound] at hnobody ⊢
          exact fun hname => Classical.byContradiction fun hother => hnobody hother hname
        · simp [hheld, hempty, mem_waiting_iff, hfound, and_comm]
      · by_cases hempty : (names.erase passive).isEmpty = true
        · simp [hheld, hempty, mem_waiting_iff, SortedMap.get?_erase, hsame]
        · simp [hheld, hempty, mem_waiting_iff, SortedMap.get?_insert, hsame]
    · simp only [hheld, Bool.not_false, if_true]
      constructor
      · intro hname
        refine ⟨hname, ?_⟩
        rintro ⟨rfl, rfl⟩
        obtain ⟨found, hsome, hmem⟩ := mem_waiting_iff.1 hname
        rw [hfound] at hsome
        cases hsome
        exact hheld hmem
      · exact And.left

theorem settle_releases_iff : (ledger.settle id passive).1 = true ↔
    passive ∈ ledger.waiting id ∧ ∀ name ∈ ledger.waiting id, name = passive := by
  unfold settle waiting
  cases hfound : ledger.entries.get? id with
  | none => simp
  | some names =>
    by_cases hheld : names.contains passive = true
    · have hmem : passive ∈ names := hheld
      by_cases hempty : (names.erase passive).isEmpty = true
      · simp only [hheld, hempty, Bool.not_true, Bool.false_eq_true, if_false, if_true, true_iff]
        exact ⟨hmem, isEmpty_erase_iff.1 hempty⟩
      · simp only [hheld, hempty, Bool.not_true, Bool.false_eq_true, if_false, false_iff]
        exact fun hall => hempty (isEmpty_erase_iff.2 hall.2)
    · have hmem : passive ∉ names := hheld
      simp [hheld, hmem]

/-- An id is released when it was waiting for somebody and waits for nobody any more. -/
theorem settle_releases_iff_nobody_left : (ledger.settle id passive).1 = true ↔
    (∃ name, name ∈ ledger.waiting id) ∧
      ∀ name, name ∉ (ledger.settle id passive).2.waiting id := by
  rw [settle_releases_iff]
  constructor
  · rintro ⟨howed, hlast⟩
    refine ⟨⟨passive, howed⟩, fun name hname => ?_⟩
    rcases mem_waiting_settle.1 hname with ⟨hheld, hother⟩
    exact hother ⟨rfl, hlast name hheld⟩
  · rintro ⟨⟨name, hname⟩, hnobody⟩
    have hlast : ∀ found ∈ ledger.waiting id, found = passive := by
      intro found hfound
      apply Decidable.byContradiction
      intro hother
      exact hnobody found (mem_waiting_settle.2 ⟨hfound, fun hboth => hother hboth.2⟩)
    exact ⟨hlast name hname ▸ hname, hlast⟩

theorem tidy_settle (htidy : ledger.Tidy) : (ledger.settle id passive).2.Tidy := by
  unfold settle
  split
  · exact htidy
  · next names hfound =>
    split
    · exact htidy
    · intro other found hget
      dsimp only at hget
      split at hget
      · rw [SortedMap.get?_erase] at hget
        split at hget
        · cases hget
        · exact htidy other found hget
      · next hleft =>
        rw [SortedMap.get?_insert] at hget
        split at hget
        · cases hget
          rw [SortedSet.isEmpty_iff] at hleft
          simpa using hleft
        · exact htidy other found hget

/-!
## Forgetting a passive
-/

theorem mem_waiting_forget :
    name ∈ (ledger.forget passive).2.waiting id ↔ name ∈ ledger.waiting id ∧ name ≠ passive := by
  simp only [forget, mem_waiting_iff, SortedMap.get?_filterMap]
  cases ledger.entries.get? id with
  | none => simp
  | some names =>
    by_cases hempty : (names.erase passive).isEmpty = true
    · have hnobody := SortedSet.isEmpty_iff.1 hempty name
      simp [entryWithout, hempty] at hnobody ⊢
      exact fun hname => Classical.byContradiction fun hother => hnobody hother hname
    · simp [entryWithout, hempty, and_comm]

theorem tidy_forget : (ledger.forget passive).2.Tidy := by
  intro id names hfound
  simp only [forget, SortedMap.get?_filterMap, Option.bind_eq_some_iff] at hfound
  obtain ⟨before, _, hleft⟩ := hfound
  unfold entryWithout at hleft
  dsimp only at hleft
  split at hleft
  · cases hleft
  · next hempty =>
    cases hleft
    rw [SortedSet.isEmpty_iff] at hempty
    simpa using hempty

theorem isNone_entryWithout {names : SortedSet String} :
    (entryWithout passive names).isNone = true ↔ ∀ name ∈ names, name = passive := by
  rw [← isEmpty_erase_iff]
  unfold entryWithout
  dsimp only
  split
  · next hempty => simp [hempty]
  · next hleft => simp [hleft]

theorem mem_forget : id ∈ (ledger.forget passive).1 ↔
    ∃ names, ledger.entries.get? id = some names ∧ ∀ name ∈ names, name = passive := by
  unfold forget
  rw [List.mem_filterMap]
  constructor
  · intro hreleased
    rcases hreleased with ⟨entry, hentry, hgone⟩
    rcases Option.ite_none_right_eq_some.1 hgone with ⟨hnone, hsame⟩
    cases hsame
    exact ⟨entry.2, SortedMap.mem_entries_iff.1 hentry, isNone_entryWithout.1 hnone⟩
  · intro hreleased
    rcases hreleased with ⟨names, hfound, hall⟩
    exact ⟨(id, names), SortedMap.mem_entries_iff.2 hfound, if_pos (isNone_entryWithout.2 hall)⟩

theorem forget_releases_iff_nobody_left (htidy : ledger.Tidy) :
    id ∈ (ledger.forget passive).1 ↔ (∃ name, name ∈ ledger.waiting id) ∧
      ∀ name, name ∉ (ledger.forget passive).2.waiting id := by
  rw [mem_forget]
  constructor
  · intro hreleased
    rcases hreleased with ⟨names, hfound, hall⟩
    rcases htidy id names hfound with ⟨held, hheld⟩
    constructor
    · exact ⟨held, mem_waiting_iff.2 ⟨names, hfound, hheld⟩⟩
    · intro name hname
      rcases mem_waiting_forget.1 hname with ⟨hwaiting, hother⟩
      rcases mem_waiting_iff.1 hwaiting with ⟨found, hsome, hmem⟩
      rw [hfound] at hsome
      cases hsome
      exact hother (hall name hmem)
  · intro hreleased
    rcases hreleased with ⟨⟨name, hname⟩, hnobody⟩
    rcases mem_waiting_iff.1 hname with ⟨names, hfound, -⟩
    refine ⟨names, hfound, ?_⟩
    intro found hmem
    apply Decidable.byContradiction
    intro hother
    exact hnobody found (mem_waiting_forget.2 ⟨mem_waiting_iff.2 ⟨names, hfound, hmem⟩, hother⟩)

theorem nodup_forget (ledger : Ledger) (passive : String) : (ledger.forget passive).1.Nodup := by
  have hkeys : (ledger.forget passive).1.Sublist ledger.entries.keys := by
    unfold forget SortedMap.keys SortedMap.toList
    dsimp only
    induction ledger.entries.entries with
    | nil => exact .slnil
    | cons entry rest ih =>
      rw [List.filterMap_cons, List.map_cons]
      split
      · exact ih.cons _
      · next found hfound =>
        rcases Option.ite_none_right_eq_some.1 hfound with ⟨-, hsame⟩
        cases hsame
        exact ih.cons_cons _
  exact ledger.entries.nodup_keys.sublist hkeys

end Ledger

/-!
## Calls
-/

inductive LedgerCall where
  | expect (id : GlobalId) (passives : List String)
  | acknowledge (id : GlobalId) (passive : String)
  | withdraw (id : GlobalId) (passive : String)
  | forget (passive : String)

namespace LedgerCall

def make (ledger : Ledger) : LedgerCall → Ledger
  | .expect id passives => ledger.expect id passives
  | .acknowledge id passive => (ledger.acknowledge id passive).2
  | .withdraw id passive => (ledger.withdraw id passive).2
  | .forget passive => (ledger.forget passive).2

theorem tidy_make {ledger : Ledger} (htidy : ledger.Tidy) (call : LedgerCall) :
    (call.make ledger).Tidy := by
  cases call with
  | expect id passives => exact Ledger.tidy_expect htidy
  | acknowledge id passive | withdraw id passive => exact Ledger.tidy_settle htidy
  | forget passive => exact Ledger.tidy_forget

end LedgerCall
end SharedGraph
