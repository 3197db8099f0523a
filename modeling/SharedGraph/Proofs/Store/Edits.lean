import SharedGraph.Proofs.Store.Observation

/-!
# Edits of a watched map

Writes and deletes are carried out one by one.  What an edit does where nobody refuses it can
be said without observers: the value is stored or taken out, and the index follows
(`Edit.carryOut`).  A list of edits that fails has a first edit that somebody refused: those
before it have been carried out, and nothing else has changed but the object of the refused
edit.
-/

namespace SharedGraph

inductive Edit where
  | write (object : StoredObject)
  | delete (id : ObjectId)

namespace Edit

variable {σ : Type} {view : σ → ObjectIndex} {edit : Edit} {edits : List Edit}
variable {map next : ValueMap σ} {audience later : σ} {failure : Failure}

def object : Edit → ObjectId
  | .write object => object.id
  | .delete id => id

def perform (map : ValueMap σ) (audience : σ) : Edit → Except Failure Unit × ValueMap σ × σ
  | .write object => map.putObject object audience
  | .delete id =>
    match map.remove id audience with
    | (answer, map, audience) => (answer.map fun _ => (), map, audience)

def performAll (map : ValueMap σ) (audience : σ) :
    List Edit → Except Failure Unit × ValueMap σ × σ
  | [] => (.ok (), map, audience)
  | edit :: rest =>
    match edit.perform map audience with
    | (.error failure, map, audience) => (.error failure, map, audience)
    | (.ok (), map, audience) => performAll map audience rest

def carryOut (contents : SortedMap ObjectId Bytes × ObjectIndex) :
    Edit → SortedMap ObjectId Bytes × ObjectIndex
  | .write object =>
    (contents.1.insert object.id object.encode, contents.2.add object.id object.kind)
  | .delete id =>
    match contents.1.get? id with
    | none => contents
    | some _ => (contents.1.erase id, contents.2.drop id)

def ofCommit (writes : List StoredObject) (deletes : List ObjectId) : List Edit :=
  writes.map .write ++ deletes.map .delete

/-!
## One edit
-/

theorem perform_observers (edit : Edit) (map : ValueMap σ) (audience : σ) :
    (edit.perform map audience).2.1.observers = map.observers := by
  cases edit with
  | write object =>
    simp only [perform, ValueMap.putObject, ValueMap.put]
    split <;> rfl
  | delete id =>
    simp only [perform, ValueMap.remove]
    split
    · rfl
    · split <;> rfl

theorem perform_ok (hwatched : Observer.Watched view map.observers)
    (hok : edit.perform map audience = (.ok (), next, later)) :
    (next.entries, view later) = edit.carryOut (map.entries, view audience) := by
  cases edit with
  | write object =>
    simp only [perform, ValueMap.putObject, ValueMap.put] at hok
    cases hround : Observer.announce (.added object.id object.encode) map.observers audience with
    | mk answer heard =>
      rw [hround] at hok
      cases answer with
      | error reason => cases hok
      | ok _ =>
        cases hok
        have hindex := congrArg Prod.snd (Observer.announce_ok hwatched hround)
        unfold ObjectIndex.notice at hindex
        simp only [StoredObject.classify_encode] at hindex
        rw [carryOut, hindex]
  | delete id =>
    simp only [perform, ValueMap.remove] at hok
    unfold carryOut
    dsimp only
    cases hfound : map.entries.get? id with
    | none =>
      rw [hfound] at hok
      cases hok
      rfl
    | some value =>
      rw [hfound] at hok
      dsimp only at hok
      cases hround : Observer.announce (.removed id value) map.observers audience with
      | mk answer heard =>
        rw [hround] at hok
        cases answer with
        | error reason => cases hok
        | ok _ =>
          cases hok
          have hindex : (view audience).drop id = view heard :=
            congrArg Prod.snd (Observer.announce_ok hwatched hround)
          dsimp only
          rw [hindex]

theorem refuses_of_perform (herror : edit.perform map audience = (.error failure, next, later)) :
    ∃ observer ∈ map.observers, ¬Observer.Tracks view observer ∧ observer.Refuses edit.object := by
  have hrefused : ∃ event, event.object = edit.object ∧
      (∀ index : ObjectIndex, (index.notice event).1 = .ok ()) ∧
      ∃ heard, Observer.announce event map.observers audience = (.error failure, heard) := by
    cases edit with
    | write object =>
      refine ⟨.added object.id object.encode, rfl, ?_, ?_⟩
      · intro index
        unfold ObjectIndex.notice
        simp only [StoredObject.classify_encode]
      · simp only [perform, ValueMap.putObject, ValueMap.put] at herror
        cases hround : Observer.announce (.added object.id object.encode) map.observers
            audience with
        | mk answer heard =>
          rw [hround] at herror
          cases answer with
          | ok _ => cases herror
          | error reason =>
            cases herror
            exact ⟨_, rfl⟩
    | delete id =>
      simp only [perform, ValueMap.remove] at herror
      cases hfound : map.entries.get? id with
      | none =>
        rw [hfound] at herror
        cases herror
      | some value =>
        rw [hfound] at herror
        dsimp only at herror
        refine ⟨.removed id value, rfl, fun index => rfl, ?_⟩
        cases hround : Observer.announce (.removed id value) map.observers audience with
        | mk answer heard =>
          rw [hround] at herror
          cases answer with
          | ok _ => cases herror
          | error reason =>
            cases herror
            exact ⟨_, rfl⟩
  rcases hrefused with ⟨event, hobject, haccepts, heard, hround⟩
  rcases Observer.refuses_of_announce hround with ⟨observer, hmem, told, hanswer⟩
  refine ⟨observer, hmem, ?_, event, told, failure, hobject, hanswer⟩
  intro htracks
  have hboth := congrArg Prod.fst (htracks event told)
  rw [haccepts (view told)] at hboth
  rw [show (observer.notice event told).1 = .ok () from hboth] at hanswer
  cases hanswer

/-- A refused edit changes nothing but its own object, and a refused write stores nothing. -/
theorem perform_error (hwatched : Observer.Watched view map.observers)
    (herror : edit.perform map audience = (.error failure, next, later)) :
    (∀ id, id ≠ edit.object → next.entries.get? id = map.entries.get? id) ∧
      ObjectIndex.AgreeOff edit.object (view later) (view audience) ∧
      ∀ object, edit = .write object → next.entries = map.entries := by
  cases edit with
  | write object =>
    have hround := Observer.agreeOff_announce (.added object.id object.encode) hwatched audience
    simp only [perform, ValueMap.putObject, ValueMap.put] at herror
    cases hannounced : Observer.announce (.added object.id object.encode) map.observers
        audience with
    | mk answer heard =>
      rw [hannounced] at herror hround
      cases answer with
      | ok _ => cases herror
      | error reason =>
        cases herror
        exact ⟨fun _ _ => rfl, hround, fun _ _ => rfl⟩
  | delete id =>
    simp only [perform, ValueMap.remove] at herror
    cases hfound : map.entries.get? id with
    | none =>
      rw [hfound] at herror
      cases herror
    | some value =>
      rw [hfound] at herror
      dsimp only at herror
      have hround := Observer.agreeOff_announce (.removed id value) hwatched audience
      cases hannounced : Observer.announce (.removed id value) map.observers audience with
      | mk answer heard =>
        rw [hannounced] at herror hround
        cases answer with
        | ok _ => cases herror
        | error reason =>
          cases herror
          refine ⟨?_, hround, ?_⟩
          · intro other hother
            exact SortedMap.get?_erase_of_ne _ hother
          · intro object hsame
            cases hsame

/-!
## Several edits
-/

theorem performAll_observers (edits : List Edit) (map : ValueMap σ) (audience : σ) :
    (performAll map audience edits).2.1.observers = map.observers := by
  induction edits generalizing map audience with
  | nil => rfl
  | cons edit rest ih =>
    have hfirst := perform_observers edit map audience
    rw [performAll]
    cases hperform : edit.perform map audience with
    | mk answer left =>
      rw [hperform] at hfirst
      cases answer with
      | error reason => exact hfirst
      | ok _ => exact (ih left.1 left.2).trans hfirst

theorem performAll_ok (hwatched : Observer.Watched view map.observers)
    (hok : performAll map audience edits = (.ok (), next, later)) :
    (next.entries, view later) = edits.foldl carryOut (map.entries, view audience) := by
  induction edits generalizing map audience with
  | nil =>
    cases hok
    rfl
  | cons edit rest ih =>
    have hobservers := perform_observers edit map audience
    rw [performAll] at hok
    cases hfirst : edit.perform map audience with
    | mk answer left =>
      rw [hfirst] at hok hobservers
      cases answer with
      | error reason => cases hok
      | ok _ =>
        rw [List.foldl_cons, ← perform_ok hwatched hfirst]
        exact ih (hobservers.symm ▸ hwatched) hok

theorem performAll_error
    (herror : performAll map audience edits = (.error failure, next, later)) :
    ∃ done refused rest reached heard, edits = done ++ refused :: rest ∧
      performAll map audience done = (.ok (), reached, heard) ∧
      refused.perform reached heard = (.error failure, next, later) := by
  induction edits generalizing map audience with
  | nil => cases herror
  | cons edit rest ih =>
    rw [performAll] at herror
    cases hfirst : edit.perform map audience with
    | mk answer left =>
      rw [hfirst] at herror
      cases answer with
      | error reason =>
        cases herror
        exact ⟨[], edit, rest, map, audience, rfl, rfl, hfirst⟩
      | ok _ =>
        rcases ih herror with
          ⟨done, refused, others, reached, heard, rfl, hdone, hrefused⟩
        refine ⟨edit :: done, refused, others, reached, heard, rfl, ?_, hrefused⟩
        rw [performAll, hfirst]
        exact hdone

theorem performAll_append (first second : List Edit) (map : ValueMap σ) (audience : σ) :
    performAll map audience (first ++ second) =
      match performAll map audience first with
      | (.error failure, map, audience) => (.error failure, map, audience)
      | (.ok (), map, audience) => performAll map audience second := by
  induction first generalizing map audience with
  | nil => rfl
  | cons edit rest ih =>
    rw [List.cons_append, performAll, performAll]
    cases hfirst : edit.perform map audience with
    | mk answer left =>
      cases answer with
      | error reason => rfl
      | ok _ => exact ih left.1 left.2

theorem performAll_writes (writes : List StoredObject) (map : ValueMap σ) (audience : σ) :
    performAll map audience (writes.map .write) = map.putObjects writes audience := by
  induction writes generalizing map audience with
  | nil => rfl
  | cons object rest ih =>
    rw [List.map_cons, performAll, ValueMap.putObjects, perform]
    cases hput : map.putObject object audience with
    | mk answer left =>
      cases answer with
      | error reason => rfl
      | ok _ => exact ih left.1 left.2

theorem performAll_deletes (deletes : List ObjectId) (map : ValueMap σ) (audience : σ) :
    performAll map audience (deletes.map .delete) =
      ((map.removeObjects deletes audience).1.map fun _ => (),
        (map.removeObjects deletes audience).2) := by
  induction deletes generalizing map audience with
  | nil => rfl
  | cons id rest ih =>
    rw [List.map_cons, performAll, ValueMap.removeObjects, perform]
    cases hremove : map.remove id audience with
    | mk answer left =>
      cases answer with
      | error reason => rfl
      | ok present =>
        dsimp only [Except.map]
        rw [ih]
        cases hrest : left.1.removeObjects rest left.2 with
        | mk counted last => cases counted <;> rfl

end Edit
end SharedGraph
