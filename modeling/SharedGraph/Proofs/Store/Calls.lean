import SharedGraph.Proofs.Store.Observation

/-!
# Calls of a watched map

A map and its audience change with every call, whether the call fails or not.  The index that
follows the map hears of an event if those who are told before it let the event pass, and the
map keeps a new value only if all observers let it pass.  So a call can put the two out of step,
and here it is said exactly which calls do (`MapCall.Strays`): one whose value is refused behind
the back of the index, and one that takes a value out which the index never hears of.
-/

namespace SharedGraph

variable {σ : Type} {view : σ → ObjectIndex} {audience : σ}
variable {before observers : List (Observer σ)}

/-!
## Live objects
-/

namespace ObjectIndex

variable {index : ObjectIndex} {object other : ObjectId} {value : Bytes}

theorem mem_live_notice_added :
    other ∈ (index.notice (.added object value)).2.live ↔
      other ∈ index.live ∨ (other = object ∧ (StoredObject.kindOf? value).isSome = true) := by
  unfold notice
  dsimp only
  cases hclass : StoredObject.classify object value with
  | ok kind =>
    have hkind := StoredObject.classify_eq_ok_iff.1 hclass
    simp [add, hkind, or_comm]
  | error failure =>
    have hkind := StoredObject.kindOf?_of_classify_error hclass
    simp [hkind]

theorem mem_live_notice_removed :
    other ∈ (index.notice (.removed object value)).2.live ↔
      other ≠ object ∧ other ∈ index.live := by
  simp [notice, drop]

theorem notice_added_eq_ok_iff :
    (index.notice (.added object value)).1 = .ok () ↔
      (StoredObject.kindOf? value).isSome = true := by
  unfold notice
  dsimp only
  cases hclass : StoredObject.classify object value with
  | ok kind =>
    have hkind := StoredObject.classify_eq_ok_iff.1 hclass
    simp [hkind]
  | error failure =>
    have hkind := StoredObject.kindOf?_of_classify_error hclass
    simp [hkind]

end ObjectIndex

/-!
## Calls
-/

namespace ValueMap

theorem get?_inserted (map : ValueMap σ) (object : ObjectId) (value : Bytes) :
    ({ map with entries := map.entries.insert object value } : ValueMap σ).get? =
      fun other => if other = object then some value else map.get? other := by
  funext other
  exact SortedMap.get?_insert _ _ _ _

theorem get?_erased (map : ValueMap σ) (object : ObjectId) :
    ({ map with entries := map.entries.erase object } : ValueMap σ).get? =
      fun other => if other = object then none else map.get? other := by
  funext other
  exact SortedMap.get?_erase _ _ _

theorem remove_of_absent {map : ValueMap σ} {object : ObjectId}
    (habsent : map.get? object = none) (audience : σ) :
    map.remove object audience = (.ok false, map, audience) := by
  unfold get? at habsent
  rw [remove, habsent]

end ValueMap

inductive MapCall where
  | put (object : ObjectId) (value : Bytes)
  | remove (object : ObjectId)
  | clear

namespace MapCall

open Observer

variable {held : ValueMap σ × σ} {call : MapCall} {calls : List MapCall}

def make (held : ValueMap σ × σ) : MapCall → ValueMap σ × σ
  | .put object value => (held.1.put object value held.2).2
  | .remove object => (held.1.remove object held.2).2
  | .clear => (held.1.clear held.2).2

theorem make_put (held : ValueMap σ × σ) (object : ObjectId) (value : Bytes) :
    make held (.put object value) =
      (if accepts held.1.observers (.added object value) held.2 = true then
          { held.1 with entries := held.1.entries.insert object value }
        else held.1,
        (announce (.added object value) held.1.observers held.2).2) := by
  unfold make ValueMap.put
  dsimp only
  cases haccepts : accepts held.1.observers (.added object value) held.2 with
  | true => rw [announce_of_accepts haccepts]; rfl
  | false =>
    rcases announce_of_refused haccepts with ⟨failure, hround⟩
    rw [hround]
    rfl

theorem make_remove_stored {object : ObjectId} {value : Bytes}
    (hstored : held.1.get? object = some value) :
    make held (.remove object) =
      ({ held.1 with entries := held.1.entries.erase object },
        (announce (.removed object value) held.1.observers held.2).2) := by
  unfold ValueMap.get? at hstored
  unfold make ValueMap.remove
  dsimp only
  rw [hstored]
  dsimp only
  cases announce (.removed object value) held.1.observers held.2 with
  | mk answer later => cases answer <;> rfl

theorem make_remove_absent {object : ObjectId} (habsent : held.1.get? object = none) :
    make held (.remove object) = held :=
  congrArg Prod.snd (ValueMap.remove_of_absent habsent held.2)

def removals (entries : List (ObjectId × Bytes)) : List MapEvent :=
  entries.map fun entry => .removed entry.1 entry.2

theorem removals_cons (entry : ObjectId × Bytes) (rest : List (ObjectId × Bytes)) :
    removals (entry :: rest) = .removed entry.1 entry.2 :: removals rest := rfl

theorem make_clear (held : ValueMap σ × σ) :
    make held .clear =
      ({ held.1 with entries := ∅ },
        (announceAll held.1.observers (removals held.1.entries.toList) held.2).2) := by
  unfold make ValueMap.clear removals
  dsimp only
  cases announceAll held.1.observers
      (held.1.entries.toList.map fun entry => .removed entry.1 entry.2) held.2 with
  | mk answer later => cases answer <;> rfl

theorem make_observers (held : ValueMap σ × σ) (call : MapCall) :
    (call.make held).1.observers = held.1.observers := by
  cases call with
  | put object value =>
    rw [make_put]
    split <;> rfl
  | remove object =>
    cases hfound : held.1.get? object with
    | none => rw [make_remove_absent hfound]
    | some value => rw [make_remove_stored hfound]
  | clear => rw [make_clear]

/-!
## Calls that go astray
-/

/-- Whether the index is told of all events, though others may refuse the last one: those before
it let every event pass, and nobody refuses an event that others follow. -/
def HeardAll (before observers : List (Observer σ)) : List MapEvent → σ → Prop
  | [], _ => True
  | event :: rest, audience =>
    accepts before event audience = true ∧
      (rest ≠ [] → accepts observers event audience = true ∧
        HeardAll before observers rest (announce event observers audience).2)

/-- Whether a call makes the index hear of a new object that is not stored, or leaves it unaware
of an object that is taken out. -/
def Strays (before : List (Observer σ)) (held : ValueMap σ × σ) : MapCall → Prop
  | .put object value =>
    held.1.get? object = none ∧ (StoredObject.kindOf? value).isSome = true ∧
      accepts before (.added object value) held.2 = true ∧
      accepts held.1.observers (.added object value) held.2 = false
  | .remove object => ∃ value, held.1.get? object = some value ∧
      accepts before (.removed object value) held.2 = false
  | .clear => ¬HeardAll before held.1.observers (removals held.1.entries.toList) held.2

/-- Whether the live objects are those that have a value. -/
def InStep (view : σ → ObjectIndex) (held : ValueMap σ × σ) : Prop :=
  ∀ object, object ∈ (view held.2).live ↔ (held.1.get? object).isSome = true

theorem mem_live_put (hwatched : WatchedAfter view before held.1.observers)
    (object : ObjectId) (value : Bytes) (other : ObjectId) :
    other ∈ (view (make held (.put object value)).2).live ↔
      other ∈ (view held.2).live ∨ (accepts before (.added object value) held.2 = true ∧
        other = object ∧ (StoredObject.kindOf? value).isSome = true) := by
  rw [make_put, view_round hwatched]
  split
  case isTrue hbefore => simp [ObjectIndex.mem_live_notice_added, hbefore]
  case isFalse hbefore => simp [hbefore]

theorem inStep_put_iff (hwatched : WatchedAfter view before held.1.observers)
    (hstep : InStep view held) (object : ObjectId) (value : Bytes) :
    InStep view (make held (.put object value)) ↔ ¬Strays before held (.put object value) := by
  have hlive := mem_live_put hwatched object value
  cases haccepts : accepts held.1.observers (.added object value) held.2 with
  | true =>
    have hindex := accepts_index hwatched haccepts
    have hkind := ObjectIndex.notice_added_eq_ok_iff.1 hindex.2
    refine iff_of_true ?_ ?_
    · intro other
      rw [hlive, make_put, if_pos haccepts, ValueMap.get?_inserted, hstep other]
      by_cases hsame : other = object
      · simp [hsame, hindex.1, hkind]
      · simp [hsame]
    · rintro ⟨-, -, -, hrefused⟩
      rw [haccepts] at hrefused
      cases hrefused
  | false =>
    have hmap : (make held (.put object value)).1 = held.1 := by
      rw [make_put, haccepts]
      rfl
    constructor
    · rintro hkept ⟨hnew, hkind, hbefore, -⟩
      have hobject := (hkept object).1 ((hlive object).2 (Or.inr ⟨hbefore, rfl, hkind⟩))
      rw [hmap, hnew] at hobject
      cases hobject
    · intro hstray other
      rw [hlive, hmap, ← hstep other]
      refine or_iff_left_of_imp ?_
      rintro ⟨hbefore, rfl, hkind⟩
      rw [hstep other]
      cases hfound : held.1.get? other with
      | none => exact absurd ⟨hfound, hkind, hbefore, haccepts⟩ hstray
      | some stored => rfl

theorem inStep_remove_iff (hwatched : WatchedAfter view before held.1.observers)
    (hstep : InStep view held) (object : ObjectId) :
    InStep view (make held (.remove object)) ↔ ¬Strays before held (.remove object) := by
  cases hfound : held.1.get? object with
  | none =>
    rw [make_remove_absent hfound]
    refine iff_of_true hstep ?_
    rintro ⟨value, hvalue, -⟩
    rw [hfound] at hvalue
    cases hvalue
  | some value =>
    have hround := view_round hwatched (.removed object value) held.2
    rw [make_remove_stored hfound]
    cases hbefore : accepts before (.removed object value) held.2 with
    | true =>
      rw [if_pos hbefore] at hround
      refine iff_of_true ?_ ?_
      · intro other
        rw [ValueMap.get?_erased, hround, ObjectIndex.mem_live_notice_removed, hstep other]
        by_cases hsame : other = object
        · simp [hsame]
        · simp [hsame]
      · rintro ⟨other, hother, hrefused⟩
        rw [hfound] at hother
        cases hother
        rw [hbefore] at hrefused
        cases hrefused
    | false =>
      rw [if_neg (by simp [hbefore])] at hround
      refine iff_of_false ?_ (not_not_intro ⟨value, hfound, hbefore⟩)
      intro hkept
      have hobject := hkept object
      rw [ValueMap.get?_erased, hround, hstep object, hfound] at hobject
      simp at hobject

/-!
## Taking all values out
-/

variable {entries : List (ObjectId × Bytes)}

theorem live_of_heardAll (hwatched : WatchedAfter view before observers)
    (hheard : HeardAll before observers (removals entries) audience) (object : ObjectId) :
    object ∈ (view (announceAll observers (removals entries) audience).2).live ↔
      object ∈ (view audience).live ∧ ∀ entry ∈ entries, object ≠ entry.1 := by
  induction entries generalizing audience with
  | nil => simp [removals, announceAll]
  | cons entry rest ih =>
    have hround := view_round hwatched (.removed entry.1 entry.2) audience
    rcases hheard with ⟨hbefore, hrest⟩
    rw [if_pos hbefore] at hround
    have hlive : object ∈ (view (announce (.removed entry.1 entry.2) observers audience).2).live ↔
        object ≠ entry.1 ∧ object ∈ (view audience).live := by
      rw [hround]
      exact ObjectIndex.mem_live_notice_removed
    rw [removals_cons, announceAll]
    cases rest with
    | nil =>
      cases hanswer : announce (.removed entry.1 entry.2) observers audience with
      | mk answer later =>
        rw [hanswer] at hlive
        cases answer <;> simp [announceAll, removals, hlive, and_comm]
    | cons next others =>
      rcases hrest (by simp) with ⟨haccepts, hothers⟩
      rw [announce_of_accepts haccepts]
      dsimp only
      rw [ih hothers, hlive]
      simp only [List.mem_cons, forall_eq_or_imp]
      exact and_assoc.trans and_left_comm

theorem live_of_not_heardAll (hwatched : WatchedAfter view before observers)
    (hdistinct : entries.Pairwise fun first second => first.1 ≠ second.1)
    (hlive : ∀ entry ∈ entries, entry.1 ∈ (view audience).live)
    (hmissed : ¬HeardAll before observers (removals entries) audience) :
    ∃ object, object ∈ (view (announceAll observers (removals entries) audience).2).live := by
  induction entries generalizing audience with
  | nil => exact absurd trivial hmissed
  | cons entry rest ih =>
    have hround := view_round hwatched (.removed entry.1 entry.2) audience
    rcases List.pairwise_cons.1 hdistinct with ⟨hfirst, hothers⟩
    have hkept : ∀ other ∈ rest,
        other.1 ∈ (view (announce (.removed entry.1 entry.2) observers audience).2).live := by
      intro other hother
      rw [hround]
      split
      · exact ObjectIndex.mem_live_notice_removed.2
          ⟨(hfirst other hother).symm, hlive other (List.mem_cons_of_mem _ hother)⟩
      · exact hlive other (List.mem_cons_of_mem _ hother)
    rw [removals_cons, announceAll]
    cases haccepts : accepts observers (.removed entry.1 entry.2) audience with
    | true =>
      have hbefore := (accepts_index hwatched haccepts).1
      rw [announce_of_accepts haccepts]
      refine ih hothers hkept ?_
      intro hheard
      exact hmissed ⟨hbefore, fun _ => ⟨haccepts, hheard⟩⟩
    | false =>
      rcases announce_of_refused haccepts with ⟨failure, hanswer⟩
      rw [hanswer]
      dsimp only
      cases hbefore : accepts before (.removed entry.1 entry.2) audience with
      | false =>
        rw [hround, if_neg (by simp [hbefore])]
        exact ⟨entry.1, hlive entry List.mem_cons_self⟩
      | true =>
        -- The index heard of this removal before it was refused, but of none that follows it.
        cases rest with
        | nil => exact absurd ⟨hbefore, fun hnone => absurd rfl hnone⟩ hmissed
        | cons next others => exact ⟨next.1, hkept next List.mem_cons_self⟩

theorem inStep_clear_iff (hwatched : WatchedAfter view before held.1.observers)
    (hstep : InStep view held) :
    InStep view (make held .clear) ↔ ¬Strays before held .clear := by
  rw [make_clear]
  constructor
  · intro hempty hmissed
    have hdistinct : held.1.entries.toList.Pairwise fun first second => first.1 ≠ second.1 := by
      refine held.1.entries.ascending.imp ?_
      intro first second hless hsame
      have hself : compare second.1 second.1 = .eq := Std.ReflCmp.compare_self
      rw [hsame, hself] at hless
      cases hless
    have hlive : ∀ entry ∈ held.1.entries.toList, entry.1 ∈ (view held.2).live := by
      intro entry hentry
      have hfound : held.1.get? entry.1 = some entry.2 := SortedMap.mem_entries_iff.1 hentry
      rw [hstep, hfound]
      rfl
    rcases live_of_not_heardAll hwatched hdistinct hlive hmissed with ⟨object, hobject⟩
    have hnone := (hempty object).1 hobject
    cases hnone
  · intro hstray object
    have hheard := Classical.not_not.1 hstray
    rw [live_of_heardAll hwatched hheard, hstep]
    refine iff_of_false ?_ nofun
    rintro ⟨hfound, hmissing⟩
    rcases Option.isSome_iff_exists.1 hfound with ⟨value, hvalue⟩
    exact hmissing (object, value) (SortedMap.mem_entries_iff.2 hvalue) rfl

/-!
## Runs
-/

theorem inStep_make_iff (hwatched : WatchedAfter view before held.1.observers)
    (hstep : InStep view held) (call : MapCall) :
    InStep view (call.make held) ↔ ¬call.Strays before held := by
  cases call with
  | put object value => exact inStep_put_iff hwatched hstep object value
  | remove object => exact inStep_remove_iff hwatched hstep object
  | clear => exact inStep_clear_iff hwatched hstep

theorem run_observers (calls : List MapCall) (held : ValueMap σ × σ) :
    (calls.foldl make held).1.observers = held.1.observers := by
  induction calls generalizing held with
  | nil => rfl
  | cons call rest ih => exact (ih _).trans (make_observers held call)

theorem inStep_run (hwatched : WatchedAfter view before held.1.observers)
    (hstep : InStep view held)
    (hstraight : ∀ done call, done ++ [call] <+: calls →
      ¬call.Strays before (done.foldl make held)) :
    InStep view (calls.foldl make held) := by
  induction calls generalizing held with
  | nil => exact hstep
  | cons call rest ih =>
    have hfirst := hstraight [] call (by simp)
    have hcall := (inStep_make_iff hwatched hstep call).2 hfirst
    refine ih (make_observers held call ▸ hwatched) hcall ?_
    intro done next hmade
    exact hstraight (call :: done) next (List.cons_prefix_cons.2 ⟨rfl, hmade⟩)

/-- The index is in step after every call exactly if no call goes astray. -/
theorem inStep_throughout_iff (hwatched : WatchedAfter view before held.1.observers)
    (hstep : InStep view held) (calls : List MapCall) :
    (∀ done, done <+: calls → InStep view (done.foldl make held)) ↔
      ∀ done call, done ++ [call] <+: calls → ¬call.Strays before (done.foldl make held) := by
  constructor
  · intro hkept done call hmade
    have hdone := hkept done ((List.prefix_append done [call]).trans hmade)
    have hafter := hkept (done ++ [call]) hmade
    rw [List.foldl_append] at hafter
    exact (inStep_make_iff (run_observers done held ▸ hwatched) hdone call).1 hafter
  · intro hstraight done hdone
    refine inStep_run hwatched hstep ?_
    intro first call hmade
    exact hstraight first call (hmade.trans hdone)

/-- A fresh map that is watched by the index and by one who refuses to let object 2 be added. -/
def guardedMap : ValueMap ObjectIndex where
  name := "objects"
  observers := [
    ObjectIndex.observer,
    .refusing fun event => event.isAddition && event.object == ⟨2⟩]

theorem guardedMap_watched : WatchedAfter id [] guardedMap.observers := by
  refine ⟨ObjectIndex.observer, [_], rfl, tracks_observer, ?_⟩
  intro other hother
  rw [List.mem_singleton.1 hother]
  exact ignores_refusing _

theorem guardedMap_inStep : InStep id (guardedMap, {}) := by
  intro object
  exact iff_of_false (SortedSet.not_mem_empty object) nofun

def serverMapValue : Bytes :=
  StoredObject.encode { id := ⟨1⟩, kind := .serverMap }

theorem index_in_step_after_removal :
    WatchedAfter id [] guardedMap.observers ∧ InStep id (guardedMap, {}) ∧
      InStep id ([.put ⟨1⟩ serverMapValue, .remove ⟨1⟩].foldl make (guardedMap, {})) := by
  refine ⟨guardedMap_watched, guardedMap_inStep, ?_⟩
  refine (inStep_throughout_iff guardedMap_watched guardedMap_inStep _).2 ?_ _ (List.prefix_refl _)
  intro done call hmade
  cases done with
  | nil =>
    have hcall : call = .put ⟨1⟩ serverMapValue := (List.cons_prefix_cons.1 hmade).1
    rw [hcall]
    rintro ⟨-, -, -, hrefused⟩
    cases hrefused
  | cons first done =>
    rcases List.cons_prefix_cons.1 hmade with ⟨rfl, hrest⟩
    cases done with
    | nil =>
      have hcall : call = .remove ⟨1⟩ := (List.cons_prefix_cons.1 hrest).1
      rw [hcall]
      rintro ⟨value, -, hrefused⟩
      cases hrefused
    | cons second done => simp at hrest

/-- The index need not stay in step. -/
theorem index_out_of_step : ¬∀ (held : ValueMap ObjectIndex × ObjectIndex) (calls : List MapCall),
    Watched id held.1.observers → InStep id held → InStep id (calls.foldl make held) := by
  intro hclaim
  have hwatched : Watched id guardedMap.observers := ⟨[], guardedMap_watched⟩
  have hkept := hclaim (guardedMap, {}) [.put ⟨2⟩ serverMapValue] hwatched guardedMap_inStep ⟨2⟩
  revert hkept
  decide +kernel

end MapCall
end SharedGraph
