import SharedGraph.Commit
import SharedGraph.Proofs.Store.Edits

/-!
# Commits that are refused

Nothing rolls back what a commit has written.  A commit that fails before its first edit
leaves everything as it was, and so does every failing commit if the index is all that
watches the map.  With other observers a commit can fail in the middle of its edits, and then
those before the refused one stay made.
-/

namespace SharedGraph
namespace Committer

variable {σ : Type} {view : σ → ObjectIndex} {committer next : Committer σ}
variable {draft : Draft} {writes : List StoredObject} {deletes : List ObjectId}
variable {failure : Failure}

/-!
## The edits of a commit
-/

theorem apply_eq_performAll (committer : Committer σ) (writes : List StoredObject)
    (deletes : List ObjectId) :
    committer.apply writes deletes =
      match Edit.performAll committer.objects committer.index (Edit.ofCommit writes deletes) with
      | (answer, objects, index) => (answer, { committer with objects, index }) := by
  unfold Edit.ofCommit
  rw [Edit.performAll_append, Edit.performAll_writes]
  unfold apply
  cases hput : committer.objects.putObjects writes committer.index with
  | mk answer left =>
    cases answer with
    | error failure => rfl
    | ok _ =>
      dsimp only
      rw [Edit.performAll_deletes]
      cases hremove : left.1.removeObjects deletes left.2 with
      | mk counted last => cases counted <;> rfl

/-- Whether a commit comes as far as its first edit. -/
def Admits (committer : Committer σ) (draft : Draft) (writes : List StoredObject) : Prop :=
  (∃ record, draft.build = .ok record ∧ strayWrite? record writes = none) ∧
    committer.counters.phase = .started

theorem provide_of_started {counters : StoreCounters} (hstarted : counters.phase = .started) :
    StoreTransaction.provide (α := Empty) 0 counters =
      (.ok { phase := .active, owner := some 0 },
        { counters with openTransactions := counters.openTransactions + 1 }) := by
  simp only [StoreTransaction.provide, StoreTransaction.begin, Backend.open?,
    StoreCounters.openTransaction, StoreCounters.requireStarted, if_pos hstarted]
  rfl

theorem provide_of_not_started {counters : StoreCounters}
    (hstarted : counters.phase ≠ .started) :
    StoreTransaction.provide (α := Empty) 0 counters =
      (.error (.storeNotStarted counters.phase), counters) := by
  simp only [StoreTransaction.provide, StoreTransaction.begin, Backend.open?,
    StoreCounters.openTransaction, StoreCounters.requireStarted, if_neg hstarted]
  rfl

theorem commit_of_started {counters : StoreCounters} (hstarted : counters.phase = .started) :
    StoreTransaction.commit (α := Empty) { phase := .active, owner := some 0 } 0
        { counters with openTransactions := counters.openTransactions + 1 } =
      (.ok [], { phase := .committed, owner := some 0 },
        { counters with commits := counters.commits + 1 }) := by
  simp only [StoreTransaction.commit, StoreTransaction.requireOwner, Backend.commit?,
    StoreCounters.commitTransaction, StoreCounters.requireStarted, if_pos hstarted]
  rfl

theorem commit_error_cases
    (herror : committer.commit draft writes deletes = (.error failure, next)) :
    (¬committer.Admits draft writes ∧ next = committer) ∨
      (committer.Admits draft writes ∧
        Edit.performAll committer.objects committer.index (Edit.ofCommit writes deletes) =
          (.error failure, next.objects, next.index)) := by
  unfold commit at herror
  unfold Admits
  cases hbuild : draft.build with
  | error reason =>
    rw [hbuild] at herror
    cases herror
    exact Or.inl ⟨nofun, rfl⟩
  | ok record =>
    rw [hbuild] at herror
    dsimp only at herror
    cases hstray : strayWrite? record writes with
    | some object =>
      rw [hstray] at herror
      cases herror
      refine Or.inl ⟨?_, rfl⟩
      rintro ⟨⟨built, hbuilt, hnone⟩, -⟩
      cases hbuilt
      rw [hstray] at hnone
      cases hnone
    | none =>
      rw [hstray] at herror
      dsimp only at herror
      unfold sequence at herror
      by_cases hstarted : committer.counters.phase = .started
      · -- Behind its last edit a commit cannot fail any more: what was opened can be closed.
        refine Or.inr ⟨⟨⟨record, rfl, hstray⟩, hstarted⟩, ?_⟩
        rw [provide_of_started hstarted] at herror
        dsimp only at herror
        rw [apply_eq_performAll] at herror
        dsimp only at herror
        cases hedits : Edit.performAll committer.objects committer.index
            (Edit.ofCommit writes deletes) with
        | mk outcome left =>
          rw [hedits] at herror
          cases outcome with
          | error reason =>
            cases herror
            rfl
          | ok _ =>
            dsimp only at herror
            rw [commit_of_started hstarted] at herror
            cases herror
      · rw [provide_of_not_started hstarted] at herror
        cases herror
        exact Or.inl ⟨fun hadmits => hstarted hadmits.2, rfl⟩

def contents (committer : Committer σ) : ValueMap σ × σ :=
  (committer.objects, committer.index)

theorem sequence_contents (committer : Committer σ) (writes : List StoredObject)
    (deletes : List ObjectId) :
    (committer.sequence writes deletes).2.contents = committer.contents ∨
      (committer.sequence writes deletes).2.contents =
        (Edit.performAll committer.objects committer.index (Edit.ofCommit writes deletes)).2 := by
  unfold sequence
  split
  · exact Or.inl rfl
  · rename_i transaction counters hprovide
    refine Or.inr ?_
    rw [apply_eq_performAll]
    dsimp only
    cases Edit.performAll committer.objects committer.index (Edit.ofCommit writes deletes) with
    | mk answer left =>
      cases answer with
      | error failure => rfl
      | ok _ =>
        dsimp only
        split <;> rfl

theorem commit_contents (committer : Committer σ) (draft : Draft) (writes : List StoredObject)
    (deletes : List ObjectId) :
    (committer.commit draft writes deletes).2.contents = committer.contents ∨
      (committer.commit draft writes deletes).2.contents =
        (Edit.performAll committer.objects committer.index (Edit.ofCommit writes deletes)).2 := by
  have hsequence := sequence_contents committer writes deletes
  unfold commit
  split
  · exact Or.inl rfl
  · split
    · exact Or.inl rfl
    · split
      · rename_i hsequenced
        rw [hsequenced] at hsequence
        exact hsequence
      · rename_i hsequenced
        rw [hsequenced] at hsequence
        exact hsequence

/-!
## What a refusal leaves behind
-/

/-- What holds after some edits were made and the one that followed was refused.  Nothing is
said of the refused object, but that a refused write stores nothing. -/
structure LeftBehind (view : σ → ObjectIndex) (committer next : Committer σ) (done : List Edit)
    (refused : Edit) : Prop where
  refuser : ∃ observer ∈ committer.objects.observers,
    ¬Observer.Tracks view observer ∧ observer.Refuses refused.object
  contents : ∀ id, id ≠ refused.object → next.objects.get? id =
    (done.foldl Edit.carryOut (committer.objects.entries, view committer.index)).1.get? id
  sets : ObjectIndex.AgreeOff refused.object (view next.index)
    (done.foldl Edit.carryOut (committer.objects.entries, view committer.index)).2
  unwritten : ∀ object, refused = .write object → next.objects.entries =
    (done.foldl Edit.carryOut (committer.objects.entries, view committer.index)).1

theorem leftBehind_of_performAll (hwatched : Observer.Watched view committer.objects.observers)
    {edits : List Edit}
    (herror : Edit.performAll committer.objects committer.index edits =
      (.error failure, next.objects, next.index)) :
    ∃ done refused rest, edits = done ++ refused :: rest ∧
      LeftBehind view committer next done refused := by
  rcases Edit.performAll_error herror with
    ⟨done, refused, rest, reached, heard, hedits, hdone, hrefused⟩
  have hkept := Edit.performAll_observers done committer.objects committer.index
  rw [hdone] at hkept
  have hreached := Edit.performAll_ok hwatched hdone
  rcases Edit.perform_error (hkept.symm ▸ hwatched) hrefused with ⟨hcontents, hsets, hunwritten⟩
  refine ⟨done, refused, rest, hedits, ?_⟩
  constructor
  · rw [← hkept]
    exact Edit.refuses_of_perform hrefused
  · rw [← hreached]
    exact hcontents
  · rw [← hreached]
    exact hsets
  · rw [← hreached]
    exact hunwritten

theorem ofStore_start {store started : Store σ} {observers : List (Observer σ)} (index : σ)
    (numbering : Numbering) (hstart : store.start = .ok started)
    (hconfigured : store.configured.get? mapName = some observers) :
    ofStore started index numbering =
      .ok { counters := started.counters, objects := { name := mapName, observers }, index,
            numbering } := by
  unfold Store.start StoreCounters.start at hstart
  by_cases hphase : store.counters.phase = .configured
  · rw [if_pos hphase] at hstart
    cases hstart
    simp [ofStore, Store.map?, StoreCounters.requireStarted, Except.map,
      SortedMap.get?_filterMap, hconfigured]
  · rw [if_neg hphase] at hstart
    cases hstart

/-- A commit that fails changes nothing at all if the index is all that watches, or if it does
not come as far as its first edit.  Else an observer refused one of its edits, and those before
that one stay made. -/
theorem commit_refused (hwatched : Observer.Watched view committer.objects.observers)
    (herror : committer.commit draft writes deletes = (.error failure, next)) :
    ((∀ observer ∈ committer.objects.observers, Observer.Tracks view observer) →
        next = committer) ∧
      (¬committer.Admits draft writes → next = committer) ∧
      (committer.Admits draft writes →
        ∃ done refused rest, Edit.ofCommit writes deletes = done ++ refused :: rest ∧
          LeftBehind view committer next done refused) := by
  rcases commit_error_cases herror with ⟨hbarred, hsame⟩ | ⟨hadmits, hedits⟩
  · exact ⟨fun _ => hsame, fun _ => hsame, fun hadmits => absurd hadmits hbarred⟩
  · have hleft := leftBehind_of_performAll hwatched hedits
    refine ⟨?_, fun hbarred => absurd hadmits hbarred, fun _ => hleft⟩
    intro htracks
    rcases hleft with ⟨done, refused, rest, -, hbehind⟩
    rcases hbehind.refuser with ⟨observer, hmem, hno, -⟩
    exact absurd (htracks observer hmem) hno

/-- A store whose object map is watched by the index and by one who refuses to let object 2
be added. -/
def guardedStore : Store ObjectIndex :=
  (Store.withObserver {} mapName ObjectIndex.observer).withObserver mapName
    (.refusing fun event => event.isAddition && event.object == ⟨2⟩)

def guarded : Committer where
  counters := { phase := .started }
  objects :=
    { name := mapName
      observers := [ObjectIndex.observer,
        .refusing fun event => event.isAddition && event.object == ⟨2⟩] }
  index := {}

theorem ofStore_guardedStore : ∃ started, guardedStore.start = .ok started ∧
    ofStore started guarded.index guarded.numbering = .ok guarded := by
  have hconfigured : guardedStore.configured.get? mapName = some guarded.objects.observers := by
    simp [guardedStore, Store.withObserver, guarded]
  exact ⟨_, rfl, ofStore_start guarded.index guarded.numbering rfl hconfigured⟩

theorem guarded_watched : Observer.Watched id guarded.objects.observers := by
  refine ⟨[], _, [_], rfl, Observer.tracks_observer, ?_⟩
  intro other hother
  rw [List.mem_singleton.1 hother]
  exact Observer.ignores_refusing _

def twins : Draft where
  name := ⟨"client", 1⟩
  changes := [.created ⟨1⟩ [], .created ⟨2⟩ []]

def twinObjects : List StoredObject :=
  [{ id := ⟨1⟩, kind := .physical }, { id := ⟨2⟩, kind := .physical }]

theorem twins_error : guarded.commit twins twinObjects [] =
    (.error (.observerRefused ⟨2⟩), (guarded.commit twins twinObjects []).2) := rfl

/-- The first of two objects stays when the second one is refused. -/
theorem twins_refused : ∃ done refused rest,
    Edit.ofCommit twinObjects [] = done ++ refused :: rest ∧
      LeftBehind id guarded (guarded.commit twins twinObjects []).2 done refused := by
  apply (commit_refused guarded_watched twins_error).2.2
  exact ⟨⟨_, rfl, rfl⟩, rfl⟩

/-- A commit is not all or nothing. -/
theorem commit_not_atomic : ¬∀ (committer next : Committer) (draft : Draft)
    (writes : List StoredObject) (deletes : List ObjectId) (failure : Failure),
    Observer.Watched id committer.objects.observers →
    committer.commit draft writes deletes = (.error failure, next) →
    next.objects.entries.toList = committer.objects.entries.toList ∧
      next.index = committer.index := by
  intro hclaim
  have hunchanged := hclaim guarded _ twins twinObjects [] _ guarded_watched twins_error
  exact absurd hunchanged.2 (by decide +kernel)

end Committer
end SharedGraph
