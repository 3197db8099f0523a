import Mathlib.Data.Set.Card
import SharedGraph.Proofs.Data.History
import SharedGraph.Proofs.Relay.Ledger

/-!
# What a ledger waits for and when it releases

A ledger is changed by four calls: some passives are expected for an id, one of them acknowledges
it or is withdrawn, or a passive is forgotten.  Whatever calls are made of an empty ledger, an id
waits for the passives that were expected for it since it was last released and were not settled
since they were last expected.  A call reports the ids that waited for somebody and wait for nobody
any more, so an id that is released again has been expected in between
(`each_expectation_released_once`).
-/

namespace SharedGraph

/-!
## The ids that are not released
-/

namespace Ledger

variable {ledger : Ledger} {id : GlobalId}

theorem isSettled_eq_false_iff (htidy : ledger.Tidy) :
    ledger.isSettled id = false ↔ ∃ name, name ∈ ledger.waiting id := by
  rw [← Bool.not_eq_true, isSettled_iff htidy, not_forall_not]

theorem isSettled_eq_false_iff_mem_keys :
    ledger.isSettled id = false ↔ id ∈ ledger.entries.keys := by
  rw [SortedMap.mem_keys_iff, isSettled, Bool.not_eq_false']

theorem size_eq_ncard (ledger : Ledger) :
    ledger.size = {id | ledger.isSettled id = false}.ncard := by
  have hkeys : {id | ledger.isSettled id = false} = ledger.entries.keys.toFinset := by
    rw [List.coe_toFinset]
    exact Set.ext fun id => isSettled_eq_false_iff_mem_keys
  rw [hkeys, Set.ncard_coe_finset, List.toFinset_card_of_nodup ledger.entries.nodup_keys,
    SortedMap.keys, List.length_map]
  rfl

theorem isSettled_of_oldest? (holdest : ledger.oldest? = some id) : ledger.isSettled id = false :=
  isSettled_eq_false_iff_mem_keys.2 (List.mem_of_head? holdest)

theorem oldest?_eq_some_iff (htidy : ledger.Tidy) : ledger.oldest? = some id ↔
    ledger.isSettled id = false ∧ ∀ other, ledger.isSettled other = false → id ≤ other := by
  have hbound : ∀ other, ledger.isSettled other = false →
      ∃ least, ledger.oldest? = some least ∧ least ≤ other := by
    intro other hother
    rcases (isSettled_eq_false_iff htidy).1 hother with ⟨name, hname⟩
    exact oldest?_le hname
  constructor
  · intro holdest
    refine ⟨isSettled_of_oldest? holdest, ?_⟩
    intro other hother
    rcases hbound other hother with ⟨least, hleast, hle⟩
    rw [holdest] at hleast
    cases hleast
    exact hle
  · intro hleast
    rcases hbound id hleast.1 with ⟨least, holdest, hle⟩
    have hge := hleast.2 least (isSettled_of_oldest? holdest)
    have hsame : least = id := by
      apply Decidable.byContradiction
      intro hapart
      exact GlobalId.not_le.2 (GlobalId.lt_of_le_of_ne hle hapart) hge
    rw [holdest, hsame]

theorem oldest?_eq_none_iff_settled (htidy : ledger.Tidy) :
    ledger.oldest? = none ↔ ∀ id, ledger.isSettled id = true := by
  rw [oldest?_eq_none_iff, size_eq_zero_iff htidy]
  exact forall_congr' fun id => (isSettled_iff htidy).symm

end Ledger

/-!
## Calls
-/

namespace LedgerCall

def released (ledger : Ledger) : LedgerCall → List GlobalId
  | .expect _ _ => []
  | .acknowledge id passive => if (ledger.acknowledge id passive).1 then [id] else []
  | .withdraw id passive => if (ledger.withdraw id passive).1 then [id] else []
  | .forget passive => (ledger.forget passive).1

def leaves (calls : List LedgerCall) : Ledger :=
  calls.foldl make {}

def Expects (id : GlobalId) (name : String) : LedgerCall → Prop
  | .expect other passives => other = id ∧ name ∈ passives
  | .acknowledge _ _ | .withdraw _ _ | .forget _ => False

/-- Whether a call settles an id with a passive, or forgets the passive. -/
def Settles (id : GlobalId) (name : String) : LedgerCall → Prop
  | .expect _ _ => False
  | .acknowledge other passive | .withdraw other passive => other = id ∧ passive = name
  | .forget passive => passive = name

/-- Whether, behind some calls, one of the later ones reports an id as released. -/
def ReleasedWithin (id : GlobalId) (earlier later : List LedgerCall) : Prop :=
  ∃ before call after, later = before ++ call :: after ∧
    id ∈ call.released (leaves (earlier ++ before))

/-- Whether a passive was expected for an id, and the id was not released since. -/
def ExpectedSinceRelease (id : GlobalId) (name : String) (calls : List LedgerCall) : Prop :=
  ∃ earlier call later, calls = earlier ++ call :: later ∧ call.Expects id name ∧
    ¬ReleasedWithin id (earlier ++ [call]) later

variable {ledger : Ledger} {call : LedgerCall} {calls later : List LedgerCall}
variable {id other : GlobalId} {name passive : String}

/-!
## One call
-/

theorem mem_waiting_make : name ∈ (call.make ledger).waiting id ↔
    call.Expects id name ∨ (¬call.Settles id name ∧ name ∈ ledger.waiting id) := by
  cases call with
  | expect own passives =>
    rw [make, Ledger.mem_waiting_expect, Expects, Settles, or_comm, eq_comm (a := id)]
    simp only [not_false_eq_true, true_and]
  | acknowledge own passive =>
    rw [make, Ledger.acknowledge, Ledger.mem_waiting_settle, Expects, Settles, false_or, and_comm,
      eq_comm (a := id), eq_comm (a := name)]
  | withdraw own passive =>
    rw [make, Ledger.withdraw, Ledger.mem_waiting_settle, Expects, Settles, false_or, and_comm,
      eq_comm (a := id), eq_comm (a := name)]
  | forget passive =>
    rw [make, Ledger.mem_waiting_forget, Expects, Settles, false_or, and_comm, ne_comm]

theorem mem_released_settle :
    (id ∈ if (ledger.settle other passive).1 then [other] else []) ↔
      (∃ name, name ∈ ledger.waiting id) ∧
        ∀ name, name ∉ (ledger.settle other passive).2.waiting id := by
  by_cases hsame : id = other
  · rw [hsame, ← Ledger.settle_releases_iff_nobody_left]
    simp
  · have hown : id ∉ if (ledger.settle other passive).1 then [other] else [] := by
      split
      · exact fun hmem => hsame (List.mem_singleton.1 hmem)
      · exact List.not_mem_nil
    constructor
    · exact fun hreleased => absurd hreleased hown
    · intro hreleased
      rcases hreleased with ⟨⟨name, hname⟩, hnobody⟩
      apply absurd _ (hnobody name)
      exact Ledger.mem_waiting_settle.2 ⟨hname, fun hboth => hsame hboth.1⟩

/-- A call reports the ids that are not released before it and are released after it. -/
theorem mem_released_iff (htidy : ledger.Tidy) : id ∈ call.released ledger ↔
    ledger.isSettled id = false ∧ (call.make ledger).isSettled id = true := by
  rw [Ledger.isSettled_eq_false_iff htidy, Ledger.isSettled_iff (tidy_make htidy call)]
  cases call with
  | expect own passives =>
    constructor
    · exact fun hreleased => absurd hreleased List.not_mem_nil
    · intro hreleased
      rcases hreleased with ⟨⟨name, hname⟩, hnobody⟩
      exact absurd (Ledger.mem_waiting_expect.2 (Or.inl hname)) (hnobody name)
  | acknowledge own passive => exact mem_released_settle
  | withdraw own passive => exact mem_released_settle
  | forget passive => exact Ledger.forget_releases_iff_nobody_left htidy

theorem nodup_released (ledger : Ledger) (call : LedgerCall) : (call.released ledger).Nodup := by
  cases call with
  | expect _ _ => exact List.nodup_nil
  | acknowledge _ _ =>
    rw [released]
    split <;> simp
  | withdraw _ _ =>
    rw [released]
    split <;> simp
  | forget passive => exact Ledger.nodup_forget ledger passive

/-!
## Runs
-/

theorem leaves_concat (calls : List LedgerCall) (call : LedgerCall) :
    leaves (calls ++ [call]) = call.make (leaves calls) := by
  rw [leaves, List.foldl_append]
  rfl

theorem tidy_leaves (calls : List LedgerCall) : (leaves calls).Tidy := by
  induction calls using List.reverseRecOn with
  | nil => exact Ledger.tidy_empty
  | append_singleton calls call ih =>
    rw [leaves_concat]
    exact tidy_make ih call

theorem mem_waiting_leaves : name ∈ (leaves calls).waiting id ↔
    Since (fun _ => Expects id name) (Settles id name) calls := by
  induction calls using List.reverseRecOn with
  | nil => exact iff_of_false (SortedSet.not_mem_empty name) not_since_nil
  | append_singleton calls call ih => rw [leaves_concat, mem_waiting_make, since_concat_iff, ih]

theorem expectedSinceRelease_of_waiting (hwaiting : name ∈ (leaves calls).waiting id) :
    ExpectedSinceRelease id name calls := by
  rcases mem_waiting_leaves.1 hwaiting with ⟨earlier, call, later, hsplit, hexpects, hlater⟩
  refine ⟨earlier, call, later, hsplit, hexpects, ?_⟩
  intro hreleased
  rcases hreleased with ⟨before, releasing, after, rfl, hmem⟩
  -- behind the report nobody is waited for, but nothing has settled the passive by then
  have hnobody := ((mem_released_iff (tidy_leaves _)).1 hmem).2
  rw [← leaves_concat, Ledger.isSettled_iff (tidy_leaves _)] at hnobody
  apply hnobody name
  rw [mem_waiting_leaves]
  refine ⟨earlier, call, before ++ [releasing], by simp, hexpects, ?_⟩
  intro next hnext
  apply hlater next
  rw [List.append_cons]
  exact List.mem_append_left after hnext

theorem mem_pending_leaves : name ∈ (leaves calls).pending id ↔
    ExpectedSinceRelease id name calls ∧
      ¬EndedSince (Expects id name) (Settles id name) calls := by
  rw [Ledger.mem_pending_iff]
  constructor
  · intro hwaiting
    constructor
    · exact expectedSinceRelease_of_waiting hwaiting
    · exact (since_iff.1 (mem_waiting_leaves.1 hwaiting)).2
  · intro howed
    rcases howed with ⟨⟨earlier, call, later, rfl, hexpects, -⟩, hunsettled⟩
    rw [mem_waiting_leaves, since_iff]
    exact ⟨⟨call, List.mem_append_right earlier List.mem_cons_self, hexpects⟩, hunsettled⟩

theorem eq_expect_of_reopened (htidy : ledger.Tidy) (hbefore : ledger.isSettled id = true)
    (hafter : (call.make ledger).isSettled id = false) :
    ∃ passives, call = .expect id passives := by
  rcases (Ledger.isSettled_eq_false_iff (tidy_make htidy call)).1 hafter with ⟨name, hname⟩
  rcases mem_waiting_make.1 hname with hexpects | ⟨-, hwaiting⟩
  · cases call with
    | expect own passives => exact ⟨passives, by rw [hexpects.1]⟩
    | acknowledge _ _ => exact hexpects.elim
    | withdraw _ _ => exact hexpects.elim
    | forget _ => exact hexpects.elim
  · exact absurd hwaiting ((Ledger.isSettled_iff htidy).1 hbefore name)

theorem exists_expect_of_reopened (hbefore : (leaves calls).isSettled id = true)
    (hafter : (leaves (calls ++ later)).isSettled id = false) :
    ∃ before passives after, later = before ++ .expect id passives :: after ∧
      (leaves (calls ++ before)).isSettled id = true ∧
      (leaves (calls ++ before ++ [.expect id passives])).isSettled id = false := by
  induction later using List.reverseRecOn with
  | nil =>
    rw [List.append_nil, hbefore] at hafter
    cases hafter
  | append_singleton later call ih =>
    cases hreached : (leaves (calls ++ later)).isSettled id with
    | false =>
      rcases ih hreached with ⟨before, passives, after, rfl, hopened⟩
      exact ⟨before, passives, after ++ [call], by simp, hopened⟩
    | true =>
      rw [← List.append_assoc, leaves_concat] at hafter
      rcases eq_expect_of_reopened (tidy_leaves _) hreached hafter with ⟨passives, rfl⟩
      rw [← leaves_concat] at hafter
      exact ⟨later, passives, [], rfl, hreached, hafter⟩

/-!
## All that a ledger shows
-/

/-- Whatever calls are made of an empty ledger, an id waits for the passives that were expected for
it since it was last released, apart from those that were settled since they were last expected.
No entry waits for nobody, so an id is released if nobody is pending for it, and the ledger counts
the ids that are not released and knows the least of them.  A call reports an id, once, if it was
not released before the call and is released after it; between two reports of an id there is an
expectation that made it pending again. -/
theorem each_expectation_released_once (calls : List LedgerCall) :
    (∀ id name, name ∈ (leaves calls).pending id ↔
        ExpectedSinceRelease id name calls ∧
          ¬EndedSince (Expects id name) (Settles id name) calls) ∧
      (∀ id names, (leaves calls).entries.get? id = some names → names ≠ ∅) ∧
      (∀ id, (leaves calls).isSettled id = true ↔ (leaves calls).pending id = []) ∧
      (leaves calls).size = {id | (leaves calls).isSettled id = false}.ncard ∧
      (∀ id, (leaves calls).oldest? = some id ↔ (leaves calls).isSettled id = false ∧
        ∀ other, (leaves calls).isSettled other = false → id ≤ other) ∧
      ((leaves calls).oldest? = none ↔ ∀ id, (leaves calls).isSettled id = true) ∧
      (∀ call id, id ∈ released (leaves calls) call ↔
        (leaves calls).isSettled id = false ∧ (leaves (calls ++ [call])).isSettled id = true) ∧
      (∀ call, (released (leaves calls) call).Nodup) ∧
      ∀ first between second id, id ∈ released (leaves calls) first →
        id ∈ released (leaves (calls ++ [first] ++ between)) second →
          ∃ before passives after, between = before ++ .expect id passives :: after ∧
            (leaves (calls ++ [first] ++ before)).isSettled id = true ∧
            (leaves (calls ++ [first] ++ before ++ [.expect id passives])).isSettled id =
              false := by
  have htidy := tidy_leaves calls
  refine ⟨fun _ _ => mem_pending_leaves, ?_, ?_, (leaves calls).size_eq_ncard,
    fun _ => Ledger.oldest?_eq_some_iff htidy, Ledger.oldest?_eq_none_iff_settled htidy, ?_,
    nodup_released _, ?_⟩
  · intro id names hfound hempty
    rcases htidy id names hfound with ⟨name, hname⟩
    rw [hempty] at hname
    exact SortedSet.not_mem_empty name hname
  · intro id
    rw [Ledger.isSettled_iff htidy, Ledger.pending_eq_nil_iff]
  · intro call id
    rw [mem_released_iff htidy, leaves_concat]
  · intro first between second id hfirst hsecond
    have hbefore := ((mem_released_iff htidy).1 hfirst).2
    rw [← leaves_concat] at hbefore
    exact exists_expect_of_reopened hbefore ((mem_released_iff (tidy_leaves _)).1 hsecond).1

/-- An id that waits for two passives is released when one has acknowledged it and the other is
forgotten. -/
example : released (leaves [.expect ⟨7⟩ ["b", "c"], .acknowledge ⟨7⟩ "b"]) (.forget "c") =
    [⟨7⟩] := by decide

end LedgerCall

end SharedGraph
