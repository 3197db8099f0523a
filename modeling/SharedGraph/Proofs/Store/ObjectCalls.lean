import Mathlib.Data.List.Dedup
import SharedGraph.Proofs.Data.History
import SharedGraph.Proofs.Store.Calls
import SharedGraph.Proofs.Store.Encoding

/-!
# Calls of object maps

An object map that is used through its typed calls only is a finite map of objects, although it
holds bytes.  A map shows some contents if it holds their encodings and nothing else, each under the
object's own id (`ValueMap.Shows`).  While nobody refuses an object every call succeeds, answers
from the contents, and changes the map as it changes the contents (`object_map_of_run`).
-/

namespace SharedGraph

variable {σ : Type}

structure StoredObject.Readable (object : StoredObject) : Prop where
  formed : object.WellFormed
  depth : object.depth ≤ fieldLevels

def Observer.PassesObjects (observer : Observer σ) : Prop :=
  ∀ (object : StoredObject) (audience : σ),
    (observer.notice (.added object.id object.encode) audience).1 = .ok () ∧
      (observer.notice (.removed object.id object.encode) audience).1 = .ok ()

theorem ObjectIndex.passesObjects : observer.PassesObjects := by
  intro object index
  constructor
  · change (notice _ index).1 = _
    rw [notice, StoredObject.classify_encode]
  · rfl

inductive ObjectCall where
  | put (object : StoredObject)
  | get (id : ObjectId)
  | remove (id : ObjectId)
  | removeAll (ids : List ObjectId)
  | clear

inductive ObjectAnswer where
  | done
  | found (object : Option StoredObject)
  | present (was : Bool)
  | removed (count : Nat)

namespace ObjectCall

def serve (held : ValueMap σ × σ) : ObjectCall → Except Failure ObjectAnswer × ValueMap σ × σ
  | .put object =>
    let (answer, left) := held.1.putObject object held.2
    (answer.map fun _ => .done, left)
  | .get id => ((held.1.getObject? id).map .found, held)
  | .remove id =>
    let (answer, left) := held.1.remove id held.2
    (answer.map .present, left)
  | .removeAll ids =>
    let (answer, left) := held.1.removeObjects ids held.2
    (answer.map .removed, left)
  | .clear =>
    let (answer, left) := held.1.clear held.2
    (answer.map fun _ => .done, left)

def make (held : ValueMap σ × σ) (call : ObjectCall) : ValueMap σ × σ :=
  (call.serve held).2

def Fits : ObjectCall → Prop
  | .put object => object.Readable
  | .get _ | .remove _ | .removeAll _ | .clear => True

/-!
## Calls of a finite map
-/

def change (contents : ObjectId → Option StoredObject) : ObjectCall → ObjectId → Option StoredObject
  | .put object => fun id => if id = object.id then some object else contents id
  | .get _ => contents
  | .remove id => fun other => if other = id then none else contents other
  | .removeAll ids => fun other => if other ∈ ids then none else contents other
  | .clear => fun _ => none

def answer (contents : ObjectId → Option StoredObject) : ObjectCall → ObjectAnswer
  | .put _ | .clear => .done
  | .get id => .found (contents id)
  | .remove id => .present (contents id).isSome
  | .removeAll ids => .removed (ids.dedup.countP fun id => (contents id).isSome)

def leaves (calls : List ObjectCall) : ObjectId → Option StoredObject :=
  calls.foldl change fun _ => none

/-- Whether a call replaces or removes what an id has. -/
def Resets (id : ObjectId) : ObjectCall → Prop
  | .put object => object.id = id
  | .get _ => False
  | .remove other => other = id
  | .removeAll ids => id ∈ ids
  | .clear => True

variable {contents : ObjectId → Option StoredObject} {call : ObjectCall} {calls : List ObjectCall}
variable {id : ObjectId} {object : StoredObject}

theorem change_eq_some_iff : call.change contents id = some object ↔
    (call = .put object ∧ object.id = id) ∨ (¬call.Resets id ∧ contents id = some object) := by
  cases call with
  | put other =>
    change (if id = other.id then some other else contents id) = some object ↔ _
    by_cases hown : id = other.id
    · rw [if_pos hown]
      constructor
      · intro hsame
        cases hsame
        exact Or.inl ⟨rfl, hown.symm⟩
      · rintro (⟨hput, -⟩ | ⟨hkept, -⟩)
        · cases hput
          rfl
        · exact absurd hown.symm hkept
    · rw [if_neg hown]
      constructor
      · exact fun hfound => Or.inr ⟨fun hsame => hown hsame.symm, hfound⟩
      · rintro (⟨hput, hid⟩ | ⟨-, hfound⟩)
        · cases hput
          exact absurd hid.symm hown
        · exact hfound
  | get other => simp [change, Resets]
  | remove other => simp [change, Resets, eq_comm]
  | removeAll ids => simp [change, Resets]
  | clear => simp [change, Resets]

theorem leaves_eq_some_iff_since : leaves calls id = some object ↔
    Since (fun _ call => call = .put object ∧ object.id = id) (Resets id) calls := by
  induction calls using List.reverseRecOn with
  | nil => exact iff_of_false nofun not_since_nil
  | append_singleton calls call ih =>
    have hleaves : leaves (calls ++ [call]) = call.change (leaves calls) := by
      rw [leaves, List.foldl_append]
      rfl
    rw [hleaves, change_eq_some_iff, since_concat_iff, ih]

/-- What an id has in the end is the object that was put there last, if nothing has replaced or
removed it since. -/
theorem leaves_eq_some_iff : leaves calls id = some object ↔
    ∃ before after, calls = before ++ .put object :: after ∧ object.id = id ∧
      ∀ later ∈ after, ¬later.Resets id := by
  rw [exists_split_eq_iff, leaves_eq_some_iff_since]
  simp only [Since, and_assoc]

theorem countP_dedup_cons (present : ObjectId → Bool) (id : ObjectId) (rest : List ObjectId) :
    (id :: rest).dedup.countP present =
      (if present id = true then 1 else 0) +
        rest.dedup.countP fun other => other != id && present other := by
  have hothers : ∀ ids : List ObjectId, id ∉ ids →
      (ids.countP fun other => other != id && present other) = ids.countP present := by
    intro ids hnew
    apply List.countP_congr
    intro other hother
    have hapart : other ≠ id := fun hsame => hnew (hsame ▸ hother)
    simp [hapart]
  by_cases hlisted : id ∈ rest
  · have hperm := List.perm_cons_erase (List.mem_dedup.2 hlisted)
    have hnew : id ∉ rest.dedup.erase id := by
      rw [(List.nodup_dedup rest).mem_erase_iff]
      exact fun hmem => hmem.1 rfl
    rw [List.dedup_cons_of_mem hlisted, hperm.countP_eq, hperm.countP_eq, List.countP_cons,
      List.countP_cons, hothers _ hnew]
    simp [Nat.add_comm]
  · rw [List.dedup_cons_of_notMem hlisted, List.countP_cons, Nat.add_comm,
      hothers _ fun hmem => hlisted (List.mem_dedup.1 hmem)]

end ObjectCall

/-!
## Maps that nobody refuses anything
-/

namespace ValueMap

open Observer

variable {map : ValueMap σ} {audience : σ} {contents : ObjectId → Option StoredObject}

/-- Whether a map holds the encodings of some objects and nothing else, each under its own id. -/
structure Shows (map : ValueMap σ) (contents : ObjectId → Option StoredObject) : Prop where
  value : ∀ id, map.get? id = (contents id).map StoredObject.encode
  own : ∀ id object, contents id = some object → object.id = id ∧ object.Readable

theorem shows_empty (hempty : map.entries = ∅) : map.Shows fun _ => none := by
  constructor
  · intro id
    rw [get?, hempty]
    rfl
  · exact fun _ _ hfound => nomatch hfound

theorem getObject?_of_shows (hshows : map.Shows contents) (id : ObjectId) :
    map.getObject? id = .ok (contents id) := by
  rw [getObject?, hshows.value]
  cases hfound : contents id with
  | none => rfl
  | some object =>
    rcases hshows.own id object hfound with ⟨-, hreadable⟩
    rw [Option.map_some]
    dsimp only
    rw [StoredObject.decode_encode hreadable.formed hreadable.depth]
    rfl

theorem put_of_accepts {object : ObjectId} {value : Bytes}
    (haccepts : accepts map.observers (.added object value) audience = true) :
    map.put object value audience =
      (.ok (), { map with entries := map.entries.insert object value },
        (announce (.added object value) map.observers audience).2) := by
  rw [put, announce_of_accepts haccepts]

theorem remove_of_accepts {object : ObjectId} {value : Bytes}
    (hstored : map.get? object = some value)
    (haccepts : accepts map.observers (.removed object value) audience = true) :
    map.remove object audience =
      (.ok true, { map with entries := map.entries.erase object },
        (announce (.removed object value) map.observers audience).2) := by
  unfold get? at hstored
  rw [remove, hstored]
  dsimp only
  rw [announce_of_accepts haccepts]

theorem clear_of_accepts
    (haccepts : ∀ event ∈ MapCall.removals map.entries.toList, ∀ heard,
      accepts map.observers event heard = true) (audience : σ) :
    map.clear audience = (.ok (), { map with entries := ∅ },
      (announceAll map.observers (MapCall.removals map.entries.toList) audience).2) := by
  unfold MapCall.removals at *
  rw [clear, announceAll_of_accepts haccepts]

theorem Shows.inserted (hshows : map.Shows contents) {object : StoredObject}
    (hreadable : object.Readable) :
    ({ map with entries := map.entries.insert object.id object.encode } : ValueMap σ).Shows
      (ObjectCall.change contents (.put object)) := by
  constructor
  · intro id
    rw [get?_inserted, ObjectCall.change]
    by_cases hown : id = object.id
    · simp [hown]
    · simp [hown, hshows.value]
  · intro id other hfound
    rcases ObjectCall.change_eq_some_iff.1 hfound with ⟨hput, hown⟩ | ⟨-, hkept⟩
    · cases hput
      exact ⟨hown, hreadable⟩
    · exact hshows.own id other hkept

theorem Shows.erased (hshows : map.Shows contents) (id : ObjectId) :
    ({ map with entries := map.entries.erase id } : ValueMap σ).Shows
      (ObjectCall.change contents (.remove id)) := by
  constructor
  · intro other
    rw [get?_erased, ObjectCall.change]
    by_cases hsame : other = id
    · simp [hsame]
    · simp [hsame, hshows.value]
  · intro other object hfound
    rcases ObjectCall.change_eq_some_iff.1 hfound with ⟨hput, -⟩ | ⟨-, hkept⟩
    · cases hput
    · exact hshows.own other object hkept

section Passing

variable (hpasses : ∀ observer ∈ map.observers, observer.PassesObjects)

include hpasses

theorem accepts_added (object : StoredObject) (audience : σ) :
    accepts map.observers (.added object.id object.encode) audience = true :=
  accepts_of_passes (fun observer hobserver heard => (hpasses observer hobserver object heard).1)
    audience

theorem accepts_removed_of_shows (hshows : map.Shows contents) {id : ObjectId} {value : Bytes}
    (hstored : map.get? id = some value) (audience : σ) :
    accepts map.observers (.removed id value) audience = true := by
  rw [hshows.value] at hstored
  rcases Option.map_eq_some_iff.1 hstored with ⟨object, hfound, rfl⟩
  rcases hshows.own id object hfound with ⟨rfl, -⟩
  exact accepts_of_passes
    (fun observer hobserver heard => (hpasses observer hobserver object heard).2) audience

theorem remove_of_shows (hshows : map.Shows contents) (id : ObjectId) (audience : σ) :
    ∃ left later, map.remove id audience = (.ok (contents id).isSome, left, later) ∧
      left.observers = map.observers ∧ left.Shows (ObjectCall.change contents (.remove id)) := by
  have hvalue := hshows.value id
  cases hfound : contents id with
  | none =>
    rw [hfound] at hvalue
    have hsame : ObjectCall.change contents (.remove id) = contents := by
      funext other
      by_cases hother : other = id
      · simp [ObjectCall.change, hother, hfound]
      · simp [ObjectCall.change, hother]
    rw [hsame]
    exact ⟨map, audience, remove_of_absent hvalue audience, rfl, hshows⟩
  | some object =>
    rw [hfound] at hvalue
    have haccepts := accepts_removed_of_shows hpasses hshows hvalue audience
    exact ⟨_, _, remove_of_accepts hvalue haccepts, rfl, hshows.erased id⟩

omit hpasses in
theorem change_removeAll_cons (contents : ObjectId → Option StoredObject) (id : ObjectId)
    (rest : List ObjectId) :
    ObjectCall.change (ObjectCall.change contents (.remove id)) (.removeAll rest) =
      ObjectCall.change contents (.removeAll (id :: rest)) := by
  funext other
  by_cases hsame : other = id
  · simp [ObjectCall.change, hsame]
  · simp [ObjectCall.change, hsame]

theorem removeObjects_of_shows (hshows : map.Shows contents) (ids : List ObjectId) (audience : σ) :
    ∃ left later, map.removeObjects ids audience =
        (.ok (ids.dedup.countP fun id => (contents id).isSome), left, later) ∧
      left.observers = map.observers ∧
      left.Shows (ObjectCall.change contents (.removeAll ids)) := by
  induction ids generalizing map contents audience with
  | nil =>
    have hsame : ObjectCall.change contents (.removeAll []) = contents := by
      funext other
      simp [ObjectCall.change]
    rw [hsame]
    exact ⟨map, audience, rfl, rfl, hshows⟩
  | cons id rest ih =>
    rcases remove_of_shows hpasses hshows id audience with ⟨middle, heard, hremove, hwatch, hmiddle⟩
    rw [← hwatch] at hpasses
    rcases ih hpasses hmiddle heard with ⟨left, later, hrest, hkept, hleft⟩
    refine ⟨left, later, ?_, hkept.trans hwatch, ?_⟩
    · have hothers : (fun other => (ObjectCall.change contents (.remove id) other).isSome) =
          fun other => other != id && (contents other).isSome := by
        funext other
        by_cases hsame : other = id
        · simp [ObjectCall.change, hsame]
        · simp [ObjectCall.change, hsame]
      rw [hothers] at hrest
      rw [removeObjects, hremove]
      dsimp only
      rw [hrest, ObjectCall.countP_dedup_cons]
      by_cases hpresent : (contents id).isSome = true
      · simp [hpresent, Nat.add_comm]
      · simp [hpresent]
    · rw [← change_removeAll_cons]
      exact hleft

theorem clear_of_shows (hshows : map.Shows contents) (audience : σ) :
    ∃ left later, map.clear audience = (.ok (), left, later) ∧
      left.observers = map.observers ∧ left.Shows fun _ => none := by
  have haccepts : ∀ event ∈ MapCall.removals map.entries.toList, ∀ heard,
      accepts map.observers event heard = true := by
    intro event hevent heard
    rcases List.mem_map.1 hevent with ⟨entry, hentry, rfl⟩
    exact accepts_removed_of_shows hpasses hshows (SortedMap.mem_entries_iff.1 hentry) heard
  exact ⟨_, _, clear_of_accepts haccepts audience, rfl, shows_empty rfl⟩

end Passing

end ValueMap

/-!
## Runs
-/

namespace ObjectCall

open ValueMap

variable {held : ValueMap σ × σ} {contents : ObjectId → Option StoredObject} {call : ObjectCall}
variable {calls : List ObjectCall}

/-- A call of a map that shows objects answers as a finite map does, and shows what that holds
afterwards. -/
theorem serve_of_shows (hpasses : ∀ observer ∈ held.1.observers, observer.PassesObjects)
    (hshows : held.1.Shows contents) (hfits : call.Fits) :
    (call.serve held).1 = .ok (call.answer contents) ∧
      (call.make held).1.observers = held.1.observers ∧
      (call.make held).1.Shows (call.change contents) := by
  cases call with
  | put object =>
    have hput := put_of_accepts (accepts_added hpasses object held.2)
    rw [make, serve, putObject, hput]
    exact ⟨rfl, rfl, hshows.inserted hfits⟩
  | get id =>
    rw [make, serve, getObject?_of_shows hshows]
    exact ⟨rfl, rfl, hshows⟩
  | remove id =>
    rcases remove_of_shows hpasses hshows id held.2 with ⟨left, later, hremove, hwatch, hleft⟩
    rw [make, serve, hremove]
    exact ⟨rfl, hwatch, hleft⟩
  | removeAll ids =>
    rcases removeObjects_of_shows hpasses hshows ids held.2 with
      ⟨left, later, hremove, hwatch, hleft⟩
    rw [make, serve, hremove]
    exact ⟨rfl, hwatch, hleft⟩
  | clear =>
    rcases clear_of_shows hpasses hshows held.2 with ⟨left, later, hclear, hwatch, hleft⟩
    rw [make, serve, hclear]
    exact ⟨rfl, hwatch, hleft⟩

theorem run_of_shows (hpasses : ∀ observer ∈ held.1.observers, observer.PassesObjects)
    (hshows : held.1.Shows contents) (hfits : ∀ call ∈ calls, call.Fits) :
    (calls.foldl make held).1.observers = held.1.observers ∧
      (calls.foldl make held).1.Shows (calls.foldl change contents) := by
  induction calls generalizing held contents with
  | nil => exact ⟨rfl, hshows⟩
  | cons call rest ih =>
    rw [List.forall_mem_cons] at hfits
    rcases serve_of_shows hpasses hshows hfits.1 with ⟨-, hwatch, hnext⟩
    rw [← hwatch] at hpasses
    rcases ih hpasses hnext hfits.2 with ⟨hkept, hrest⟩
    exact ⟨hkept.trans hwatch, hrest⟩

end ObjectCall

namespace ValueMap

variable {map : ValueMap σ} {contents : ObjectId → Option StoredObject}

theorem Shows.mem_objects_iff (hshows : map.Shows contents) {id : ObjectId} :
    id ∈ map.objects ↔ (contents id).isSome = true := by
  rw [objects, SortedMap.mem_keys_iff, SortedMap.contains]
  change (map.get? id).isSome = true ↔ _
  rw [hshows.value, Option.isSome_map]

theorem objects_ascending (map : ValueMap σ) :
    map.objects.Pairwise fun first second => first.number < second.number := by
  rw [objects, SortedMap.keys, List.pairwise_map]
  apply map.entries.ascending.imp
  intro first second hless
  exact Std.compare_eq_lt.1 hless

theorem size_eq_length_objects (map : ValueMap σ) : map.size = map.objects.length := by
  rw [objects, SortedMap.keys, List.length_map]
  rfl

end ValueMap

namespace ObjectCall

variable {map : ValueMap σ} {calls : List ObjectCall}

/-- A map that was empty at first and has been used through typed calls only, all of whose objects
can be read back and are refused by nobody, is a finite map of objects: whatever it is asked next,
it answers without a failure what a finite map would.  It finds the object that was put last under
an id and has not been removed since, lists the ids that have one in ascending order, and counts
them. -/
theorem object_map_of_run (hempty : map.entries = ∅)
    (hpasses : ∀ observer ∈ map.observers, observer.PassesObjects)
    (hfits : ∀ call ∈ calls, call.Fits) (audience : σ) :
    let reached := calls.foldl make (map, audience)
    (∀ call : ObjectCall, call.Fits →
        (call.serve reached).1 = .ok (call.answer (leaves calls))) ∧
      (∀ id object, leaves calls id = some object ↔
        ∃ before after, calls = before ++ .put object :: after ∧ object.id = id ∧
          ∀ later ∈ after, ¬later.Resets id) ∧
      (reached.1.objects.Pairwise fun first second => first.number < second.number) ∧
      (∀ id, id ∈ reached.1.objects ↔ (leaves calls id).isSome = true) ∧
      reached.1.size = reached.1.objects.length := by
  intro reached
  have hreached : reached.1.observers = map.observers ∧ reached.1.Shows (leaves calls) :=
    run_of_shows hpasses (ValueMap.shows_empty hempty) hfits
  rcases hreached with ⟨hwatch, hshows⟩
  rw [← hwatch] at hpasses
  refine ⟨?_, fun _ _ => leaves_eq_some_iff, reached.1.objects_ascending, ?_,
    reached.1.size_eq_length_objects⟩
  · intro call hcall
    exact (serve_of_shows hpasses hshows hcall).1
  · exact fun _ => hshows.mem_objects_iff

def replacement : StoredObject where
  id := ⟨7⟩
  kind := .physical
  version := 2

theorem object_map_of_three_calls :
    let map : ValueMap ObjectIndex := { name := "objects", observers := [ObjectIndex.observer] }
    let calls := [put StoredObject.nested, removeAll [⟨2⟩], put replacement]
    let reached := calls.foldl make (map, {})
    ((∀ observer ∈ map.observers, observer.PassesObjects) ∧ ∀ call ∈ calls, call.Fits) ∧
      (serve reached (.get ⟨7⟩)).1 = .ok (.found (some replacement)) ∧
      (serve reached (.removeAll [⟨7⟩, ⟨2⟩, ⟨7⟩])).1 = .ok (.removed 1) ∧
      ⟨7⟩ ∈ reached.1.objects := by
  intro map calls reached
  have hnested : (put StoredObject.nested).Fits :=
    ⟨StoredObject.nested_wellFormed, StoredObject.nested_depth⟩
  have hreplacement : (put replacement).Fits :=
    ⟨⟨trivial, by decide, trivial⟩, by decide⟩
  have hpasses : ∀ observer ∈ map.observers, observer.PassesObjects := by
    intro observer hmem
    rw [List.mem_singleton.1 hmem]
    exact ObjectIndex.passesObjects
  have hfits : ∀ call ∈ calls, call.Fits := by
    simp only [calls, List.forall_mem_cons]
    exact ⟨hnested, trivial, hreplacement, nofun⟩
  rcases object_map_of_run rfl hpasses hfits {} with ⟨hanswers, -, -, hpresent, -⟩
  refine ⟨⟨hpasses, hfits⟩, hanswers (.get ⟨7⟩) trivial, ?_, ?_⟩
  · exact hanswers (.removeAll [⟨7⟩, ⟨2⟩, ⟨7⟩]) trivial
  · exact (hpresent ⟨7⟩).2 rfl

end ObjectCall

end SharedGraph
