import SharedGraph.Proofs.Commit.Indexing
import SharedGraph.Proofs.Record.Numbering

/-!
# The ids and counters of commits

A commit has many ways to end, and only its last step asks the numbering.  So the ids that a
pipeline gives out are those that its numbering hands out when it is asked once for every commit
that succeeds (`issued_eq_handedOut`), whatever else is done to the pipeline in between.
-/

namespace SharedGraph
namespace Committer

variable {σ : Type} {committer : Committer σ}
variable {draft : Draft} {writes : List StoredObject} {deletes : List ObjectId}

/-!
## How a commit ends
-/

/-- What keeps a commit from its first edit: its draft is no record, it writes an object that the
record does not reference, or the store is not running. -/
inductive Barred (committer : Committer σ) (draft : Draft) (writes : List StoredObject) :
    Failure → Prop where
  | unbuilt {failure : Failure} (hbuild : draft.build = .error failure) :
      Barred committer draft writes failure
  | unreferenced {record : Record} {object : StoredObject} (hbuild : draft.build = .ok record)
      (hstray : strayWrite? record writes = some object) :
      Barred committer draft writes (.unreferencedWrite record.name object.id)
  | stopped {record : Record} (hbuild : draft.build = .ok record)
      (hstray : strayWrite? record writes = none)
      (hphase : committer.counters.phase ≠ .started) :
      Barred committer draft writes (.storeNotStarted committer.counters.phase)

theorem commit_of_barred {failure : Failure} (hbarred : committer.Barred draft writes failure) :
    committer.commit draft writes deletes = (.error failure, committer) := by
  unfold commit
  cases hbarred with
  | unbuilt hbuild => rw [hbuild]
  | unreferenced hbuild hstray =>
    rw [hbuild]
    dsimp only
    rw [hstray]
  | stopped hbuild hstray hphase =>
    rw [hbuild]
    dsimp only
    rw [hstray]
    dsimp only
    rw [sequence, provide_of_not_started hphase]

def outcome (committer : Committer σ) (record : Record) :
    Except Failure Unit × ValueMap σ × σ → Except Failure Sequenced × Committer σ
  | (.error failure, objects, index) =>
    (.error failure,
      { committer with
        counters :=
          { committer.counters with openTransactions := committer.counters.openTransactions + 1 }
        objects, index })
  | (.ok (), objects, index) =>
    (.ok { record, globalId := some committer.numbering.next.1 },
      { counters := { committer.counters with commits := committer.counters.commits + 1 }
        objects, index
        numbering := committer.numbering.next.2 })

theorem commit_of_admitted {record : Record} (hbuild : draft.build = .ok record)
    (hstray : strayWrite? record writes = none) (hstarted : committer.counters.phase = .started) :
    committer.commit draft writes deletes = committer.outcome record
      (Edit.performAll committer.objects committer.index (Edit.ofCommit writes deletes)) := by
  unfold commit
  rw [hbuild]
  dsimp only
  rw [hstray]
  dsimp only
  rw [sequence, provide_of_started hstarted]
  dsimp only
  rw [apply_eq_performAll]
  dsimp only
  cases Edit.performAll committer.objects committer.index (Edit.ofCommit writes deletes) with
  | mk answer left =>
    cases answer with
    | error failure => rfl
    | ok _ =>
      dsimp only
      rw [commit_of_started hstarted]
      rfl

theorem outcome_eq_ok {record : Record} {performed : Except Failure Unit × ValueMap σ × σ}
    {next : Committer σ} {sequenced : Sequenced}
    (hok : committer.outcome record performed = (.ok sequenced, next)) :
    performed = (.ok (), next.objects, next.index) ∧
      sequenced = { record, globalId := some committer.numbering.next.1 } ∧
      next.counters = { committer.counters with commits := committer.counters.commits + 1 } ∧
      next.numbering = committer.numbering.next.2 := by
  rcases performed with ⟨answer, left⟩
  cases answer with
  | error failure => cases hok
  | ok _ =>
    cases hok
    exact ⟨rfl, rfl, rfl, rfl⟩

/-- A commit fails before its first edit and changes nothing, or all depends on its edits. -/
theorem commit_cases (committer : Committer σ) (draft : Draft) (writes : List StoredObject)
    (deletes : List ObjectId) :
    (∃ failure, committer.Barred draft writes failure ∧
        committer.commit draft writes deletes = (.error failure, committer)) ∨
      ∃ record, draft.build = .ok record ∧ strayWrite? record writes = none ∧
        committer.counters.phase = .started ∧
        committer.commit draft writes deletes = committer.outcome record
          (Edit.performAll committer.objects committer.index (Edit.ofCommit writes deletes)) := by
  cases hbuild : draft.build with
  | error failure => exact Or.inl ⟨failure, .unbuilt hbuild, commit_of_barred (.unbuilt hbuild)⟩
  | ok record =>
    cases hstray : strayWrite? record writes with
    | some object =>
      have hbarred : committer.Barred draft writes _ := .unreferenced hbuild hstray
      exact Or.inl ⟨_, hbarred, commit_of_barred hbarred⟩
    | none =>
      by_cases hstarted : committer.counters.phase = .started
      · exact Or.inr
          ⟨record, rfl, hstray, hstarted, commit_of_admitted hbuild hstray hstarted⟩
      · have hbarred : committer.Barred draft writes _ := .stopped hbuild hstray hstarted
        exact Or.inl ⟨_, hbarred, commit_of_barred hbarred⟩

theorem commit_eq_ok {next : Committer σ} {sequenced : Sequenced}
    (hok : committer.commit draft writes deletes = (.ok sequenced, next)) :
    sequenced.globalId = some committer.numbering.upcoming ∧
      next.counters.commits = committer.counters.commits + 1 ∧
      next.numbering = committer.numbering.next.2 := by
  rcases commit_cases committer draft writes deletes with
    ⟨failure, -, hbarred⟩ | ⟨record, -, -, -, hedits⟩
  · rw [hbarred] at hok
    cases hok
  · rcases outcome_eq_ok (hedits ▸ hok) with ⟨-, hsequenced, hcounters, hnumbering⟩
    rw [hsequenced, hcounters]
    exact ⟨rfl, rfl, hnumbering⟩

theorem commit_eq_error {next : Committer σ} {failure : Failure}
    (herror : committer.commit draft writes deletes = (.error failure, next)) :
    next.numbering = committer.numbering ∧
      next.counters.commits = committer.counters.commits := by
  rcases commit_cases committer draft writes deletes with
    ⟨failure, -, hbarred⟩ | ⟨record, -, -, -, hedits⟩
  · rw [hbarred] at herror
    cases herror
    exact ⟨rfl, rfl⟩
  · rw [hedits] at herror
    cases hperformed : Edit.performAll committer.objects committer.index
        (Edit.ofCommit writes deletes) with
    | mk answer left =>
      rw [hperformed] at herror
      cases answer with
      | error failure =>
        cases herror
        exact ⟨rfl, rfl⟩
      | ok _ => cases herror

/-!
## The ids of a run
-/

def Operation.issued? (committer : Committer σ) : Operation → Option GlobalId
  | .commit draft writes deletes =>
    match (committer.commit draft writes deletes).1 with
    | .ok sequenced => sequenced.globalId
    | .error _ => none
  | .write _ | .removeAll _ | .call _ | .resumeAfter _ | .shutdown => none

def issued : List Operation → Committer σ → List GlobalId
  | [], _ => []
  | operation :: rest, committer =>
    (operation.issued? committer).toList ++ issued rest (operation.perform committer)

def Operation.asked (committer : Committer σ) : Operation → List Numbering.Call
  | .commit draft writes deletes =>
    match (committer.commit draft writes deletes).1 with
    | .ok _ => [.next]
    | .error _ => []
  | .resumeAfter seen => [.resumeAfter seen]
  | .write _ | .removeAll _ | .call _ | .shutdown => []

def asked : List Operation → Committer σ → List Numbering.Call
  | [], _ => []
  | operation :: rest, committer =>
    operation.asked committer ++ asked rest (operation.perform committer)

theorem handedOut_asked_append (committer : Committer σ) (operation : Operation)
    (later : List Numbering.Call) :
    Numbering.handedOut (operation.asked committer ++ later) committer.numbering =
      (operation.issued? committer).toList ++
        Numbering.handedOut later (operation.perform committer).numbering := by
  cases operation with
  | commit draft writes deletes =>
    cases hcommit : committer.commit draft writes deletes with
    | mk answer next =>
      cases answer with
      | error failure =>
        simp only [Operation.asked, Operation.issued?, Operation.perform, hcommit,
          (commit_eq_error hcommit).1, List.nil_append, Option.toList_none]
      | ok sequenced =>
        rcases commit_eq_ok hcommit with ⟨hid, -, hnext⟩
        simp only [Operation.asked, Operation.issued?, Operation.perform, hcommit, hid, hnext,
          List.cons_append, List.nil_append, Option.toList_some, Numbering.handedOut]
        rfl
  | write object => rfl
  | removeAll ids => rfl
  | call made => rfl
  | resumeAfter seen => rfl
  | shutdown => rfl

theorem issued_eq_handedOut (operations : List Operation) (committer : Committer σ) :
    issued operations committer =
      Numbering.handedOut (asked operations committer) committer.numbering := by
  induction operations generalizing committer with
  | nil => rfl
  | cons operation rest ih => rw [issued, asked, handedOut_asked_append, ih]

theorem issued_append (done rest : List Operation) (committer : Committer σ) :
    issued (done ++ rest) committer =
      issued done committer ++ issued rest (done.foldl Operation.perform committer) := by
  induction done generalizing committer with
  | nil => rfl
  | cons operation done ih =>
    rw [List.cons_append, issued, issued, ih, List.append_assoc, List.foldl_cons]

/-- What a commit does to the upcoming id and to the count of commits. -/
structure Accounts (committer : Committer σ) (draft : Draft) (writes : List StoredObject)
    (deletes : List ObjectId) : Prop where
  accepted : ∀ sequenced next, committer.commit draft writes deletes = (.ok sequenced, next) →
    sequenced.globalId = some committer.numbering.upcoming ∧
      next.counters.commits = committer.counters.commits + 1 ∧
      next.numbering.upcoming.number.toNat = committer.numbering.upcoming.number.toNat + 1
  refused : ∀ failure next, committer.commit draft writes deletes = (.error failure, next) →
    next.numbering.upcoming = committer.numbering.upcoming ∧
      next.counters.commits = committer.counters.commits
  barred : ∀ failure, committer.Barred draft writes failure →
    committer.commit draft writes deletes = (.error failure, committer)

theorem accounts_of_not_last
    (hlast : Operation.issued? committer (.commit draft writes deletes) ≠ some .last) :
    committer.Accounts draft writes deletes := by
  constructor
  · intro sequenced next hok
    rcases commit_eq_ok hok with ⟨hid, hcount, hnext⟩
    refine ⟨hid, hcount, ?_⟩
    rw [hnext]
    apply Numbering.toNat_add_one
    intro hsame
    apply hlast
    rw [Operation.issued?, hok]
    exact hid.trans (congrArg (some ∘ GlobalId.mk) hsame)
  · intro failure next herror
    rcases commit_eq_error herror with ⟨hsame, hcount⟩
    exact ⟨congrArg Numbering.upcoming hsame, hcount⟩
  · exact fun failure hbarred => commit_of_barred hbarred

/-- As long as the last id of all is not given out, every commit of a run accounts for itself,
the ids ascend in the order of the commits, and those that come after the numbering was told of
an id are greater than it. -/
theorem ids_follow_commits (committer : Committer σ) (operations : List Operation)
    (hlast : .last ∉ issued operations committer) :
    (∀ done draft writes deletes rest, operations = done ++ .commit draft writes deletes :: rest →
      Accounts (done.foldl Operation.perform committer) draft writes deletes) ∧
      (issued operations committer).Pairwise (· < ·) ∧
      ∀ done seen rest, operations = done ++ .resumeAfter seen :: rest →
        ∀ id ∈ issued rest ((done.foldl Operation.perform committer).resumeAfter seen),
          seen < id := by
  refine ⟨?_, ?_, ?_⟩
  · rintro done draft writes deletes rest rfl
    apply accounts_of_not_last
    intro hid
    apply hlast
    rw [issued_append, issued, hid]
    exact List.mem_append_right _ (List.mem_append_left _ (List.mem_singleton_self _))
  · rw [issued_eq_handedOut] at hlast ⊢
    exact Numbering.handedOut_ascending hlast
  · rintro done seen rest rfl
    rw [issued_append] at hlast
    have hlater : .last ∉ issued rest ((done.foldl Operation.perform committer).resumeAfter seen) :=
      fun hmem => hlast (List.mem_append_right _ hmem)
    rw [issued_eq_handedOut] at hlater ⊢
    exact Numbering.lt_handedOut_resumeAfter hlater

def single (number : UInt64) : Draft where
  name := ⟨"client", number⟩
  changes := [.created ⟨number⟩ []]

/-- A commit, one that is refused in the middle, a commit after an id that was seen elsewhere, and
one that comes when the store has been shut down. -/
def rounds : List Operation :=
  [.commit (single 1) [{ id := ⟨1⟩, kind := .map }] [], .commit twins twinObjects [],
    .resumeAfter ⟨7⟩, .commit (single 3) [{ id := ⟨3⟩, kind := .map }] [⟨1⟩], .shutdown,
    .commit (single 4) [] []]

theorem issued_rounds : issued rounds guarded = [⟨1⟩, ⟨8⟩] := rfl

/-- The refused commit takes no id, and the one that succeeds after it takes the one behind the id
that was seen. -/
theorem ids_around_refusal :
    .last ∉ issued rounds guarded ∧
      Accounts ((rounds.take 1).foldl Operation.perform guarded) twins twinObjects [] ∧
      (issued rounds guarded).Pairwise (· < ·) ∧
      ∀ id ∈ issued (rounds.drop 3)
          (((rounds.take 2).foldl Operation.perform guarded).resumeAfter ⟨7⟩), ⟨7⟩ < id := by
  have hlast : .last ∉ issued rounds guarded := by
    rw [issued_rounds]
    decide
  rcases ids_follow_commits guarded rounds hlast with ⟨haccounts, hascending, hafter⟩
  exact ⟨hlast, haccounts _ twins twinObjects [] (rounds.drop 2) rfl, hascending,
    hafter (rounds.take 2) ⟨7⟩ (rounds.drop 3) rfl⟩

end Committer
end SharedGraph
