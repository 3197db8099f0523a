import SharedGraph.Proofs.Store.Calls

/-!
# Calls that fail

A call of a map offers some events to the observers, one after another, and fails with the first
refusal (`outcome_eq_announceAll`).  A put offers its value before it is written, so nothing is
stored if it fails.  A remove and a clear have taken out their values by then, and do not put them
back: they are carried out even if they fail (`failed_keeps_entries_iff`).
-/

namespace SharedGraph

variable {σ : Type}

namespace Observer

variable {observers : List (Observer σ)} {events : List MapEvent} {audience later : σ}

theorem announceAll_singleton (observers : List (Observer σ)) (event : MapEvent) (audience : σ) :
    announceAll observers [event] audience = announce event observers audience := by
  rw [announceAll]
  cases announce event observers audience with
  | mk answer heard => cases answer <;> rfl

theorem refuses_of_announceAll {failure : Failure}
    (herror : announceAll observers events audience = (.error failure, later)) :
    ∃ event ∈ events, ∃ observer ∈ observers, ∃ heard,
      (observer.notice event heard).1 = .error failure := by
  induction events generalizing audience with
  | nil => cases herror
  | cons event rest ih =>
    rw [announceAll] at herror
    cases hround : announce event observers audience with
    | mk answer middle =>
      rw [hround] at herror
      cases answer with
      | ok _ =>
        rcases ih herror with ⟨refused, hmem, hrefuses⟩
        exact ⟨refused, List.mem_cons_of_mem _ hmem, hrefuses⟩
      | error reason =>
        cases herror
        exact ⟨event, List.mem_cons_self, refuses_of_announce hround⟩

end Observer

namespace MapCall

open Observer

variable {held : ValueMap σ × σ} {call : MapCall} {failure : Failure}

def outcome (held : ValueMap σ × σ) : MapCall → Except Failure Unit
  | .put object value => (held.1.put object value held.2).1
  | .remove object => (held.1.remove object held.2).1.map fun _ => ()
  | .clear => (held.1.clear held.2).1

def offered (held : ValueMap σ × σ) : MapCall → List MapEvent
  | .put object value => [.added object value]
  | .remove object => (held.1.get? object).toList.map (MapEvent.removed object)
  | .clear => removals held.1.entries.toList

def carriedOut (entries : SortedMap ObjectId Bytes) : MapCall → SortedMap ObjectId Bytes
  | .put object value => entries.insert object value
  | .remove object => entries.erase object
  | .clear => ∅

/-- Whether a call offers its events before it changes the map. -/
def asksFirst : MapCall → Bool
  | .put _ _ => true
  | .remove _ | .clear => false

/-- A call fails with the first refusal of an event that it offers. -/
theorem outcome_eq_announceAll (held : ValueMap σ × σ) (call : MapCall) :
    call.outcome held = (announceAll held.1.observers (call.offered held) held.2).1 := by
  cases call with
  | put object value =>
    rw [offered, announceAll_singleton, outcome, ValueMap.put]
    cases announce (.added object value) held.1.observers held.2 with
    | mk answer later => cases answer <;> rfl
  | remove object =>
    cases hfound : held.1.get? object with
    | none =>
      rw [offered, hfound, outcome, ValueMap.remove_of_absent hfound]
      rfl
    | some value =>
      have hstored : held.1.entries.get? object = some value := hfound
      rw [offered, hfound, Option.toList_some, List.map_singleton, announceAll_singleton, outcome,
        ValueMap.remove, hstored]
      dsimp only
      cases announce (.removed object value) held.1.observers held.2 with
      | mk answer later => cases answer <;> rfl
  | clear =>
    rw [offered, removals, outcome, ValueMap.clear]
    cases announceAll held.1.observers
        (held.1.entries.toList.map fun entry => .removed entry.1 entry.2) held.2 with
    | mk answer later => cases answer <;> rfl

theorem entries_of_failed_put {object : ObjectId} {value : Bytes}
    (hfailed : outcome held (.put object value) = .error failure) :
    (make held (.put object value)).1.entries = held.1.entries := by
  have hrefused : accepts held.1.observers (.added object value) held.2 = false := by
    rw [outcome_eq_announceAll, offered, announceAll_singleton] at hfailed
    rw [accepts, hfailed]
    rfl
  rw [make_put, hrefused]
  rfl

theorem entries_of_not_asksFirst (hlate : call.asksFirst = false) :
    (call.make held).1.entries = call.carriedOut held.1.entries := by
  cases call with
  | put object value => cases hlate
  | remove object =>
    cases hfound : held.1.get? object with
    | none =>
      have habsent : held.1.entries.get? object = none := hfound
      rw [make_remove_absent hfound, carriedOut]
      refine SortedMap.ext_get? fun other => ?_
      rw [SortedMap.get?_erase]
      by_cases hsame : other = object
      · rw [if_pos hsame, hsame, habsent]
      · rw [if_neg hsame]
    | some value => rw [make_remove_stored hfound, carriedOut]
  | clear => rw [make_clear, carriedOut]

theorem carriedOut_ne_of_failed (hlate : call.asksFirst = false)
    (hfailed : call.outcome held = .error failure) :
    call.carriedOut held.1.entries ≠ held.1.entries := by
  -- Only a call that offers an event can fail, and it offers what it has taken out.
  have hoffered : call.offered held ≠ [] := by
    intro hnone
    rw [outcome_eq_announceAll, hnone] at hfailed
    cases hfailed
  intro hsame
  apply hoffered
  cases call with
  | put object value => cases hlate
  | remove object =>
    have habsent : held.1.get? object = none := by
      rw [ValueMap.get?, ← hsame]
      exact SortedMap.get?_erase_self _ _
    rw [offered, habsent]
    rfl
  | clear =>
    rw [offered, ← hsame]
    rfl

/-- A call that fails leaves the entries as they were exactly if it offers its events first, that
is, if it is a put; a remove and a clear are carried out all the same.  It fails because somebody
refuses one of the events that it offers. -/
theorem failed_keeps_entries_iff (hfailed : call.outcome held = .error failure) :
    ((call.make held).1.entries = held.1.entries ↔ call.asksFirst = true) ∧
      (call.asksFirst = false →
        (call.make held).1.entries = call.carriedOut held.1.entries) ∧
      ∃ event ∈ call.offered held, ∃ observer ∈ held.1.observers, ∃ heard,
        (observer.notice event heard).1 = .error failure := by
  refine ⟨?_, entries_of_not_asksFirst, ?_⟩
  · cases hasks : call.asksFirst with
    | true =>
      cases call with
      | put object value => exact iff_of_true (entries_of_failed_put hfailed) rfl
      | remove object => cases hasks
      | clear => cases hasks
    | false =>
      rw [entries_of_not_asksFirst hasks]
      exact iff_of_false (carriedOut_ne_of_failed hasks hfailed) nofun
  · rw [outcome_eq_announceAll] at hfailed
    exact refuses_of_announceAll (Prod.ext hfailed rfl)

/-- A map that is watched by the index and by one who refuses to let object 1 be removed, and
which holds object 1. -/
def sealedMap : ValueMap ObjectIndex × ObjectIndex :=
  make
    ({ name := "objects"
       observers := [
         ObjectIndex.observer,
         .refusing fun event => !event.isAddition && event.object == ⟨1⟩] }, {})
    (.put ⟨1⟩ serverMapValue)

theorem sealedMap_refuses : outcome sealedMap (.remove ⟨1⟩) = .error (.observerRefused ⟨1⟩) ∧
    outcome sealedMap .clear = .error (.observerRefused ⟨1⟩) :=
  ⟨rfl, rfl⟩

/-- The refused put stores nothing; the refused removals are made. -/
theorem entries_after_refusals :
    outcome (guardedMap, {}) (.put ⟨2⟩ serverMapValue) = .error (.observerRefused ⟨2⟩) ∧
      (make (guardedMap, {}) (.put ⟨2⟩ serverMapValue)).1.entries = guardedMap.entries ∧
      (make sealedMap (.remove ⟨1⟩)).1.entries = sealedMap.1.entries.erase ⟨1⟩ ∧
      (make sealedMap .clear).1.entries = ∅ := by
  have hput : outcome (guardedMap, {}) (.put ⟨2⟩ serverMapValue) = .error (.observerRefused ⟨2⟩) :=
    rfl
  refine ⟨hput, ?_, ?_, ?_⟩
  · exact (failed_keeps_entries_iff hput).1.2 rfl
  · exact (failed_keeps_entries_iff sealedMap_refuses.1).2.1 rfl
  · exact (failed_keeps_entries_iff sealedMap_refuses.2).2.1 rfl

/-- A call that fails need not leave the entries as they were: a remove and a clear that are refused
take out the only value of this map. -/
theorem refused_removal_made :
    sealedMap.1.entries.size = 1 ∧
      (make sealedMap (.remove ⟨1⟩)).1.entries.size = 0 ∧
      (make sealedMap .clear).1.entries.size = 0 ∧
      ¬∀ (held : ValueMap ObjectIndex × ObjectIndex) (call : MapCall) (failure : Failure),
        call.outcome held = .error failure → (call.make held).1.entries = held.1.entries := by
  refine ⟨rfl, rfl, rfl, ?_⟩
  intro hclaim
  have hsize := congrArg SortedMap.size (hclaim sealedMap (.remove ⟨1⟩) _ sealedMap_refuses.1)
  exact absurd hsize (by decide)

end MapCall
end SharedGraph
