import SharedGraph.Proofs.Commit.LeftOpen
import SharedGraph.Proofs.Store.ObjectCalls

/-!
# What a commit leaves in the store

A commit that succeeds has made all of its edits, and an edit matters to one object only.  So it is
enough to follow the value of one id through the writes and then the deletes: a delete takes it out,
else it is what was written last, else what it was (`get?_ofCommit`).  Two commits that touch
different objects leave the same values in either order, and the index is determined by the values.
-/

namespace SharedGraph

def lastWritten? (writes : List StoredObject) (id : ObjectId) : Option StoredObject :=
  (writes.filter fun object => object.id == id).getLast?

/-!
## The value of one object
-/

namespace Edit

variable {edit : Edit} {edits : List Edit} {id : ObjectId}
variable {writes : List StoredObject} {deletes : List ObjectId}

def settle (id : ObjectId) (value : Option Bytes) : Edit → Option Bytes
  | .write object => if id = object.id then some object.encode else value
  | .delete other => if id = other then none else value

theorem settle_of_ne (hother : id ≠ edit.object) (value : Option Bytes) :
    edit.settle id value = value := by
  cases edit with
  | write object => exact if_neg hother
  | delete other => exact if_neg hother

theorem get?_carryOut (contents : SortedMap ObjectId Bytes × ObjectIndex) (edit : Edit)
    (id : ObjectId) :
    (edit.carryOut contents).1.get? id = edit.settle id (contents.1.get? id) := by
  cases edit with
  | write object => exact SortedMap.get?_insert _ _ _ _
  | delete other =>
    rw [carryOut, settle]
    cases hfound : contents.1.get? other with
    | none =>
      dsimp only
      by_cases hsame : id = other
      · rw [if_pos hsame, hsame, hfound]
      · rw [if_neg hsame]
    | some value => exact SortedMap.get?_erase _ _ _

theorem get?_carryOut_all (edits : List Edit) (contents : SortedMap ObjectId Bytes × ObjectIndex)
    (id : ObjectId) :
    (edits.foldl carryOut contents).1.get? id = edits.foldl (settle id) (contents.1.get? id) := by
  induction edits generalizing contents with
  | nil => rfl
  | cons edit rest ih => rw [List.foldl_cons, ih, get?_carryOut, List.foldl_cons]

theorem settle_all_of_not_mem (hother : id ∉ edits.map object) (value : Option Bytes) :
    edits.foldl (settle id) value = value := by
  induction edits generalizing value with
  | nil => rfl
  | cons edit rest ih =>
    rw [List.map_cons, List.mem_cons, not_or] at hother
    rw [List.foldl_cons, settle_of_ne hother.1, ih hother.2]

theorem settle_writes (writes : List StoredObject) (id : ObjectId) (value : Option Bytes) :
    (writes.map write).foldl (settle id) value =
      ((lastWritten? writes id).map StoredObject.encode).or value := by
  induction writes using List.reverseRecOn with
  | nil => rfl
  | append_singleton writes object ih =>
    rw [List.map_append, List.foldl_append, ih]
    by_cases hsame : id = object.id
    · simp [settle, lastWritten?, hsame]
    · have hother : (object.id == id) = false := beq_false_of_ne (Ne.symm hsame)
      simp [settle, lastWritten?, hsame, hother]

theorem settle_deletes (deletes : List ObjectId) (id : ObjectId) (value : Option Bytes) :
    (deletes.map delete).foldl (settle id) value = if id ∈ deletes then none else value := by
  induction deletes generalizing value with
  | nil => simp
  | cons other rest ih =>
    rw [List.map_cons, List.foldl_cons, ih]
    by_cases hsame : id = other
    · simp [settle, hsame]
    · simp [settle, hsame]

/-- A delete counts for more than a write, for all writes come before all deletes. -/
theorem settle_ofCommit (id : ObjectId) (value : Option Bytes) :
    (ofCommit writes deletes).foldl (settle id) value =
      if id ∈ deletes then none
      else ((lastWritten? writes id).map StoredObject.encode).or value := by
  rw [ofCommit, List.foldl_append, settle_writes, settle_deletes]

end Edit

/-!
## Commits that succeed
-/

namespace Committer

variable {committer next : Committer} {draft : Draft} {sequenced : Sequenced}
variable {writes : List StoredObject} {deletes : List ObjectId} {id : ObjectId}

def touched (writes : List StoredObject) (deletes : List ObjectId) : List ObjectId :=
  writes.map StoredObject.id ++ deletes

theorem map_object_ofCommit (writes : List StoredObject) (deletes : List ObjectId) :
    (Edit.ofCommit writes deletes).map Edit.object = touched writes deletes := by
  rw [Edit.ofCommit, List.map_append, List.map_map, List.map_map, touched]
  exact congrArg (writes.map StoredObject.id ++ ·) (List.map_id _)

/-- A commit that succeeds had a record that references its writes, in a store that is running, and
has made all of its edits. -/
theorem performed_of_commit_ok
    (hok : committer.commit draft writes deletes = (.ok sequenced, next)) :
    draft.build = .ok sequenced.record ∧ strayWrite? sequenced.record writes = none ∧
      committer.counters.phase = .started ∧ next.counters.phase = .started ∧
      Edit.performAll committer.objects committer.index (Edit.ofCommit writes deletes) =
        (.ok (), next.objects, next.index) := by
  rcases commit_cases committer draft writes deletes with
    ⟨failure, -, hbarred⟩ | ⟨record, hbuild, hstray, hstarted, hedits⟩
  · rw [hbarred] at hok
    cases hok
  · rcases outcome_eq_ok (hedits ▸ hok) with ⟨hperformed, rfl, hcounters, -⟩
    rw [hcounters]
    exact ⟨hbuild, hstray, hstarted, hstarted, hperformed⟩

theorem commit_ok_of_admits (hsole : committer.objects.observers = [ObjectIndex.observer])
    (hadmits : committer.Admits draft writes) (deletes : List ObjectId) :
    ∃ sequenced next, committer.commit draft writes deletes = (.ok sequenced, next) := by
  have htracks := tracks_of_sole hsole
  cases hcommit : committer.commit draft writes deletes with
  | mk answer left =>
    cases answer with
    | ok sequenced => exact ⟨sequenced, left, rfl⟩
    | error failure =>
      rcases commit_error_cases hcommit with ⟨hbarred, -⟩ | ⟨-, hrefused⟩
      · exact absurd hadmits hbarred
      · have hcut : committer.cutsShort draft writes deletes = true :=
          cutsShort_iff.2 ⟨hadmits, failure, by rw [hrefused]⟩
        rw [not_cutsShort htracks] at hcut
        cases hcut

theorem get?_of_commit_ok (hsole : committer.objects.observers = [ObjectIndex.observer])
    (hok : committer.commit draft writes deletes = (.ok sequenced, next)) (id : ObjectId) :
    next.objects.get? id =
      (Edit.ofCommit writes deletes).foldl (Edit.settle id) (committer.objects.get? id) := by
  have hwatched : Observer.Watched (fun index : ObjectIndex => index) committer.objects.observers :=
    ⟨[], _, [], hsole, Observer.tracks_observer, nofun⟩
  rcases performed_of_commit_ok hok with ⟨-, -, -, -, hperformed⟩
  have hedits := Edit.performAll_ok hwatched hperformed
  have hentries : next.objects.entries = _ := congrArg Prod.fst hedits
  rw [ValueMap.get?, hentries, Edit.get?_carryOut_all]
  rfl

theorem getObject?_of_commit_ok (hsole : committer.objects.observers = [ObjectIndex.observer])
    (hreadable : ∀ object ∈ writes, object.Readable)
    (hok : committer.commit draft writes deletes = (.ok sequenced, next)) (id : ObjectId) :
    next.objects.getObject? id =
      if id ∈ deletes then .ok none
      else match lastWritten? writes id with
        | some object => .ok (some object)
        | none => committer.objects.getObject? id := by
  rw [ValueMap.getObject?, get?_of_commit_ok hsole hok, Edit.settle_ofCommit]
  by_cases hdeleted : id ∈ deletes
  · rw [if_pos hdeleted, if_pos hdeleted]
  · rw [if_neg hdeleted, if_neg hdeleted]
    cases hlast : lastWritten? writes id with
    | none => rfl
    | some object =>
      have hwritten : object ∈ writes := (List.mem_filter.1 (List.mem_of_getLast? hlast)).1
      rcases hreadable object hwritten with ⟨hformed, hdepth⟩
      dsimp only [Option.map_some, Option.some_or]
      rw [StoredObject.decode_encode hformed hdepth]
      rfl

theorem referenced_of_commit_ok
    (hok : committer.commit draft writes deletes = (.ok sequenced, next)) {object : StoredObject}
    (hwritten : object ∈ writes) : object.id ∈ sequenced.record.referenced := by
  rcases performed_of_commit_ok hok with ⟨-, hstray, -, -, -⟩
  have hreferenced := List.find?_eq_none.1 hstray object hwritten
  rwa [Bool.not_eq_true, Bool.not_eq_false'] at hreferenced

/-!
## Commits that touch different objects
-/

/-- What runs keep of an opened pipeline: nothing else watches its map, and its index is exact. -/
structure Undisturbed (committer : Committer) : Prop where
  sole : committer.objects.observers = [ObjectIndex.observer]
  indexed : committer.index.Indexes committer.objects.get?

theorem undisturbed_fresh (numbering : Numbering) : (fresh numbering).Undisturbed :=
  ⟨rfl, ObjectIndex.indexes_empty⟩

theorem Undisturbed.perform (hkept : committer.Undisturbed) (operation : Operation) :
    (operation.perform committer).Undisturbed := by
  constructor
  · exact (perform_observers committer operation).trans hkept.sole
  · rcases exists_calls committer operation with ⟨calls, hcalls⟩
    have hindexed : (calls.foldl MapCall.make committer.contents).2.Indexes
        (calls.foldl MapCall.make committer.contents).1.get? :=
      MapCall.indexes_run hkept.sole hkept.indexed calls
    rw [← hcalls] at hindexed
    exact hindexed

theorem Undisturbed.run (hkept : committer.Undisturbed) (operations : List Operation) :
    (operations.foldl Operation.perform committer).Undisturbed := by
  induction operations generalizing committer with
  | nil => exact hkept
  | cons operation rest ih => exact ih (hkept.perform operation)

theorem Undisturbed.of_commit (hkept : committer.Undisturbed)
    (hok : committer.commit draft writes deletes = (.ok sequenced, next)) : next.Undisturbed := by
  have hnext := hkept.perform (.commit draft writes deletes)
  rwa [Operation.perform, hok] at hnext

theorem Undisturbed.index_eq {other : Committer} (hkept : committer.Undisturbed)
    (hother : other.Undisturbed) (hsame : committer.objects.entries = other.objects.entries) :
    committer.index = other.index := by
  have hindexed := hkept.indexed
  have hvalues : committer.objects.get? = other.objects.get? := by
    funext id
    rw [ValueMap.get?, ValueMap.get?, hsame]
  rw [hvalues] at hindexed
  exact hindexed.unique hother.indexed

variable {last : Committer} {otherDraft : Draft} {otherSequenced : Sequenced}
variable {otherWrites : List StoredObject} {otherDeletes : List ObjectId}

/-- Two commits that succeed one after the other and touch different objects succeed in the other
order too, and leave the same values and the same index. -/
theorem Undisturbed.commits_swap (hkept : committer.Undisturbed)
    (hfirst : committer.commit draft writes deletes = (.ok sequenced, next))
    (hsecond : next.commit otherDraft otherWrites otherDeletes = (.ok otherSequenced, last))
    (hapart : (touched writes deletes).Disjoint (touched otherWrites otherDeletes)) :
    ∃ early middle late swapped,
      committer.commit otherDraft otherWrites otherDeletes = (.ok early, middle) ∧
        middle.commit draft writes deletes = (.ok late, swapped) ∧
        swapped.objects.entries = last.objects.entries ∧ swapped.index = last.index := by
  have hnext := hkept.of_commit hfirst
  have hlast := hnext.of_commit hsecond
  rcases performed_of_commit_ok hfirst with ⟨hbuild, hstray, hstarted, -, -⟩
  rcases performed_of_commit_ok hsecond with ⟨hotherBuild, hotherStray, -, -, -⟩
  have hotherAdmits : committer.Admits otherDraft otherWrites :=
    ⟨⟨_, hotherBuild, hotherStray⟩, hstarted⟩
  rcases commit_ok_of_admits hkept.sole hotherAdmits otherDeletes with ⟨early, middle, hearly⟩
  have hmiddle := hkept.of_commit hearly
  rcases performed_of_commit_ok hearly with ⟨-, -, -, hstill, -⟩
  have hadmits : middle.Admits draft writes := ⟨⟨_, hbuild, hstray⟩, hstill⟩
  rcases commit_ok_of_admits hmiddle.sole hadmits deletes with ⟨late, swapped, hlate⟩
  have hentries : swapped.objects.entries = last.objects.entries := by
    apply SortedMap.ext_get?
    intro id
    change swapped.objects.get? id = last.objects.get? id
    rw [get?_of_commit_ok hmiddle.sole hlate, get?_of_commit_ok hkept.sole hearly,
      get?_of_commit_ok hnext.sole hsecond, get?_of_commit_ok hkept.sole hfirst]
    -- One of the two commits leaves this id alone, so only the other one counts.
    by_cases hmine : id ∈ touched writes deletes
    · have hother : id ∉ (Edit.ofCommit otherWrites otherDeletes).map Edit.object := by
        rw [map_object_ofCommit]
        exact hapart hmine
      rw [Edit.settle_all_of_not_mem hother, Edit.settle_all_of_not_mem hother]
    · rw [← map_object_ofCommit] at hmine
      rw [Edit.settle_all_of_not_mem hmine, Edit.settle_all_of_not_mem hmine]
  exact ⟨early, middle, late, swapped, hearly, hlate, hentries,
    (hmiddle.of_commit hlate).index_eq hlast hentries⟩

/-- In every state of an opened pipeline a commit that succeeds has referenced all it writes, and
what can be read of an id afterwards is nothing if the id is deleted, else the object that was
written last under it, else what could be read before.  Two such commits that touch different
objects can be made in either order, and leave the same objects and the same index. -/
theorem commit_settles (numbering : Numbering) (operations : List Operation)
    (hreadable : ∀ object ∈ writes, object.Readable)
    (hok : (operations.foldl Operation.perform (fresh numbering)).commit draft writes deletes =
      (.ok sequenced, next)) :
    (∀ id, next.objects.getObject? id =
        if id ∈ deletes then .ok none
        else match lastWritten? writes id with
          | some object => .ok (some object)
          | none =>
            (operations.foldl Operation.perform (fresh numbering)).objects.getObject? id) ∧
      (∀ object ∈ writes, object.id ∈ sequenced.record.referenced) ∧
      ∀ otherDraft otherWrites otherDeletes otherSequenced last,
        next.commit otherDraft otherWrites otherDeletes = (.ok otherSequenced, last) →
        (touched writes deletes).Disjoint (touched otherWrites otherDeletes) →
        ∃ early middle late swapped,
          (operations.foldl Operation.perform (fresh numbering)).commit otherDraft otherWrites
              otherDeletes = (.ok early, middle) ∧
            middle.commit draft writes deletes = (.ok late, swapped) ∧
            swapped.objects.entries = last.objects.entries ∧ swapped.index = last.index := by
  have hkept := (undisturbed_fresh numbering).run operations
  refine ⟨getObject?_of_commit_ok hkept.sole hreadable hok, ?_, ?_⟩
  · exact fun object hwritten => referenced_of_commit_ok hok hwritten
  · intro otherDraft otherWrites otherDeletes otherSequenced last hsecond hapart
    exact hkept.commits_swap hok hsecond hapart

def revision : Draft where
  name := ⟨"client", 2⟩
  reads := SortedSet.ofList [⟨7⟩, ⟨8⟩]

/-- The first object is written twice, with different types. -/
def revised : List StoredObject :=
  [.nested, { id := ⟨8⟩, kind := .map }, ObjectCall.replacement]

theorem revised_readable : ∀ object ∈ revised, object.Readable := by
  simp only [revised, List.forall_mem_cons]
  refine ⟨⟨StoredObject.nested_wellFormed, StoredObject.nested_depth⟩, ?_, ?_, nofun⟩
  · exact ⟨⟨trivial, by decide, trivial⟩, by decide⟩
  · exact ⟨⟨trivial, by decide, trivial⟩, by decide⟩

/-- The second object is written and deleted, and one of the other two that are deleted was never
there.  A commit that deletes the second twin can be made before this one as well. -/
theorem revision_settles :
    let committer := [Operation.commit twins twinObjects []].foldl Operation.perform (fresh .fresh)
    ∃ sequenced next, ((∀ object ∈ revised, object.Readable) ∧
        committer.commit revision revised [⟨8⟩, ⟨1⟩, ⟨9⟩] = (.ok sequenced, next)) ∧
      next.objects.getObject? ⟨7⟩ = .ok (some ObjectCall.replacement) ∧
      next.objects.getObject? ⟨8⟩ = .ok none ∧
      next.objects.getObject? ⟨2⟩ = committer.objects.getObject? ⟨2⟩ ∧
      ∃ early middle late swapped,
        committer.commit { name := ⟨"client", 3⟩ } [] [⟨2⟩] = (.ok early, middle) ∧
          middle.commit revision revised [⟨8⟩, ⟨1⟩, ⟨9⟩] = (.ok late, swapped) ∧
          swapped.index = (next.commit { name := ⟨"client", 3⟩ } [] [⟨2⟩]).2.index := by
  intro committer
  have hok : ∃ sequenced next,
      committer.commit revision revised [⟨8⟩, ⟨1⟩, ⟨9⟩] = (.ok sequenced, next) ∧
        ∃ later last, next.commit { name := ⟨"client", 3⟩ } [] [⟨2⟩] = (.ok later, last) :=
    ⟨_, _, rfl, _, _, rfl⟩
  rcases hok with ⟨sequenced, next, hok, later, last, hlater⟩
  rcases commit_settles .fresh [.commit twins twinObjects []] revised_readable hok with
    ⟨hread, -, hswap⟩
  refine ⟨sequenced, next, ⟨revised_readable, hok⟩, hread ⟨7⟩, hread ⟨8⟩, hread ⟨2⟩, ?_⟩
  have hapart : (touched revised [⟨8⟩, ⟨1⟩, ⟨9⟩]).Disjoint (touched [] [⟨2⟩]) := by
    intro id hmine hother
    rw [List.mem_singleton.1 hother] at hmine
    exact absurd hmine (by decide)
  rcases hswap _ _ _ _ _ hlater hapart with
    ⟨early, middle, late, swapped, hearly, hlate, -, hindex⟩
  refine ⟨early, middle, late, swapped, hearly, hlate, ?_⟩
  rw [hlater]
  exact hindex

end Committer

end SharedGraph
