import SharedGraph.Proofs.Commit.Refusal
import SharedGraph.Proofs.Store.Calls
import SharedGraph.Proofs.Store.Tracking

/-!
# The index of an opened pipeline

Whatever is done to a pipeline, its object map changes by calls only (`exists_calls`).  In an
opened pipeline the index is all that watches the map, so every call keeps its three sets equal
to what the stored values say, and so does every run, however its commits end.
-/

namespace SharedGraph

/-!
## Calls that only the index watches
-/

namespace MapCall

variable {index : ObjectIndex} {stored : ObjectId → Option Bytes}
variable {held : ValueMap ObjectIndex × ObjectIndex}

theorem announce_index (event : MapEvent) (index : ObjectIndex) :
    Observer.announce event [ObjectIndex.observer] index = index.notice event := by
  have hnotice : ObjectIndex.observer.notice event index = index.notice event := rfl
  rw [Observer.announce, hnotice]
  cases index.notice event with
  | mk answer later => cases answer <;> rfl

theorem announceAll_removals (hindexes : index.Indexes stored) {entries : List (ObjectId × Bytes)}
    (hlisted : ∀ object, (stored object).isSome = true → object ∈ entries.map Prod.fst) :
    (Observer.announceAll [ObjectIndex.observer] (removals entries) index).2.Indexes
      fun _ => none := by
  induction entries generalizing index stored with
  | nil =>
    have hnone : stored = fun _ => none := by
      funext object
      cases hobject : stored object with
      | none => rfl
      | some value => cases hlisted object (by rw [hobject]; rfl)
    rw [← hnone]
    exact hindexes
  | cons entry rest ih =>
    rw [removals_cons, Observer.announceAll, announce_index]
    refine ih (hindexes.drop entry.1) ?_
    intro object hobject
    by_cases hsame : object = entry.1
    · simp [hsame] at hobject
    · rw [if_neg hsame] at hobject
      exact (List.mem_cons.1 (hlisted object hobject)).resolve_left hsame

theorem indexes_make (hsole : held.1.observers = [ObjectIndex.observer])
    (hindexes : held.2.Indexes held.1.get?) (call : MapCall) :
    (call.make held).2.Indexes (call.make held).1.get? := by
  cases call with
  | put object value =>
    rw [make_put, hsole, Observer.accepts, announce_index, ObjectIndex.notice]
    dsimp only
    cases hclass : StoredObject.classify object value with
    | error failure => exact hindexes
    | ok kind =>
      change (held.2.add object kind).Indexes
        ({ held.1 with entries := held.1.entries.insert object value } : ValueMap _).get?
      rw [ValueMap.get?_inserted]
      exact hindexes.add (StoredObject.classify_eq_ok_iff.1 hclass)
  | remove object =>
    cases hfound : held.1.get? object with
    | none =>
      rw [make_remove_absent hfound]
      exact hindexes
    | some value =>
      rw [make_remove_stored hfound, hsole, announce_index, ValueMap.get?_erased]
      exact hindexes.drop object
  | clear =>
    rw [make_clear, hsole]
    refine announceAll_removals hindexes ?_
    intro object hobject
    rcases Option.isSome_iff_exists.1 hobject with ⟨value, hvalue⟩
    exact List.mem_map.2 ⟨(object, value), SortedMap.mem_entries_iff.2 hvalue, rfl⟩

theorem indexes_run (hsole : held.1.observers = [ObjectIndex.observer])
    (hindexes : held.2.Indexes held.1.get?) (calls : List MapCall) :
    (calls.foldl make held).2.Indexes (calls.foldl make held).1.get? := by
  induction calls generalizing held with
  | nil => exact hindexes
  | cons call rest ih =>
    exact ih ((make_observers held call).trans hsole) (indexes_make hsole hindexes call)

end MapCall

/-!
## Edits as calls
-/

namespace Edit

variable {σ : Type}

def call : Edit → MapCall
  | .write object => .put object.id object.encode
  | .delete id => .remove id

theorem perform_eq_make (edit : Edit) (map : ValueMap σ) (audience : σ) :
    (edit.perform map audience).2 = edit.call.make (map, audience) := by
  cases edit with
  | write object => rfl
  | delete id => rfl

theorem exists_calls (edits : List Edit) (map : ValueMap σ) (audience : σ) :
    ∃ calls : List MapCall,
      (performAll map audience edits).2 = calls.foldl MapCall.make (map, audience) := by
  induction edits generalizing map audience with
  | nil => exact ⟨[], rfl⟩
  | cons edit rest ih =>
    have hfirst := perform_eq_make edit map audience
    rw [performAll]
    cases hperform : edit.perform map audience with
    | mk answer left =>
      rw [hperform] at hfirst
      cases answer with
      | error failure => exact ⟨[edit.call], hfirst⟩
      | ok _ =>
        rcases ih left.1 left.2 with ⟨calls, hcalls⟩
        refine ⟨edit.call :: calls, ?_⟩
        rw [List.foldl_cons, ← hfirst]
        exact hcalls

end Edit

/-!
## Operations of a pipeline
-/

namespace Committer

variable {σ : Type}

def withContents (committer : Committer σ) (held : ValueMap σ × σ) : Committer σ :=
  { committer with objects := held.1, index := held.2 }

/-- Anything that is done to a pipeline.  A call goes to its object map behind its back; typed
removals and clears are such calls too. -/
inductive Operation where
  | commit (draft : Draft) (writes : List StoredObject) (deletes : List ObjectId)
  | write (object : StoredObject)
  | removeAll (ids : List ObjectId)
  | call (made : MapCall)
  | resumeAfter (seen : GlobalId)
  | shutdown

def Operation.perform (committer : Committer σ) : Operation → Committer σ
  | .commit draft writes deletes => (committer.commit draft writes deletes).2
  | .write object => committer.withContents (committer.objects.putObject object committer.index).2
  | .removeAll ids => committer.withContents (committer.objects.removeObjects ids committer.index).2
  | .call made => committer.withContents (made.make committer.contents)
  | .resumeAfter seen => committer.resumeAfter seen
  | .shutdown => committer.shutdown

theorem exists_calls (committer : Committer σ) (operation : Operation) :
    ∃ calls : List MapCall, (operation.perform committer).contents =
      calls.foldl MapCall.make committer.contents := by
  cases operation with
  | commit draft writes deletes =>
    rcases commit_contents committer draft writes deletes with hsame | hedits
    · exact ⟨[], hsame⟩
    · rcases Edit.exists_calls (Edit.ofCommit writes deletes) committer.objects committer.index
        with ⟨calls, hcalls⟩
      exact ⟨calls, hedits.trans hcalls⟩
  | write object => exact ⟨[.put object.id object.encode], rfl⟩
  | removeAll ids =>
    rcases Edit.exists_calls (ids.map .delete) committer.objects committer.index
      with ⟨calls, hcalls⟩
    rw [Edit.performAll_deletes] at hcalls
    exact ⟨calls, hcalls⟩
  | call made => exact ⟨[made], rfl⟩
  | resumeAfter seen => exact ⟨[], rfl⟩
  | shutdown => exact ⟨[], rfl⟩

theorem exists_calls_of_run (committer : Committer σ) (operations : List Operation) :
    ∃ calls : List MapCall, (operations.foldl Operation.perform committer).contents =
      calls.foldl MapCall.make committer.contents := by
  induction operations generalizing committer with
  | nil => exact ⟨[], rfl⟩
  | cons operation rest ih =>
    rcases exists_calls committer operation with ⟨first, hfirst⟩
    rcases ih (operation.perform committer) with ⟨later, hlater⟩
    refine ⟨first ++ later, ?_⟩
    rw [List.foldl_append, ← hfirst]
    exact hlater

/-!
## Opened pipelines
-/

/-- An opened pipeline is the pipeline over a store that was just started, with nothing but the
index to watch its object map. -/
theorem ofStore_fresh (numbering : Numbering) :
    ∃ started, (Store.withObserver {} mapName ObjectIndex.observer).start = .ok started ∧
      ofStore started {} numbering = .ok (fresh numbering) := by
  have hconfigured : (Store.withObserver {} mapName ObjectIndex.observer).configured.get? mapName =
      some [ObjectIndex.observer] := by
    simp [Store.withObserver]
  exact ⟨_, rfl, ofStore_start {} numbering rfl hconfigured⟩

/-- After every run of an opened pipeline the live objects are those that are stored, the type
of its value decides whether one is evictable or a collection, and so evictable objects are
collections and collections are live. -/
theorem index_exact (numbering : Numbering) (operations : List Operation) :
    let committer := operations.foldl Operation.perform (fresh numbering)
    committer.index.Indexes committer.objects.get? ∧
      committer.index.evictable.isSubset committer.index.collections = true ∧
      committer.index.collections.isSubset committer.index.live = true := by
  intro committer
  have hindexes : committer.index.Indexes committer.objects.get? := by
    rcases exists_calls_of_run (fresh numbering) operations with ⟨calls, hcalls⟩
    have hsole : (fresh numbering).contents.1.observers = [ObjectIndex.observer] := rfl
    have hrun := MapCall.indexes_run hsole ObjectIndex.indexes_empty calls
    rw [← hcalls] at hrun
    exact hrun
  refine ⟨hindexes, SortedSet.isSubset_iff.2 ?_, SortedSet.isSubset_iff.2 ?_⟩
  · exact fun object => hindexes.evictable_collections
  · exact fun object => hindexes.collections_live

end Committer
end SharedGraph
