import SharedGraph.Proofs.Commit.Issuing

/-!
# Store transactions that commits leave open

A commit that succeeds closes the store transaction that it has opened, and one that is barred
from its edits has opened none.  But one whose edits are refused in the middle goes without
closing, and nobody can close its transaction later.  That is the only way to leave one open: the
open transactions of a store are the commits that were cut short (`open_transactions_account`), and
there are none of these where only the index watches.
-/

namespace SharedGraph
namespace Committer

variable {σ : Type} {view : σ → ObjectIndex} {committer : Committer σ}
variable {draft : Draft} {writes : List StoredObject} {deletes : List ObjectId}

/-!
## Commits that are cut short
-/

/-- Whether a commit comes as far as its edits, and one of these is refused. -/
def cutsShort (committer : Committer σ) (draft : Draft) (writes : List StoredObject)
    (deletes : List ObjectId) : Bool :=
  match draft.build with
  | .error _ => false
  | .ok record =>
    (strayWrite? record writes).isNone && committer.counters.phase == .started &&
      !(Edit.performAll committer.objects committer.index (Edit.ofCommit writes deletes)).1.isOk

theorem openTransactions_commit (committer : Committer σ) (draft : Draft)
    (writes : List StoredObject) (deletes : List ObjectId) :
    (committer.commit draft writes deletes).2.counters.openTransactions =
      committer.counters.openTransactions + (committer.cutsShort draft writes deletes).toNat := by
  unfold cutsShort
  cases hbuild : draft.build with
  | error failure =>
    rw [commit_of_barred (.unbuilt hbuild)]
    rfl
  | ok record =>
    dsimp only
    cases hstray : strayWrite? record writes with
    | some object =>
      rw [commit_of_barred (.unreferenced hbuild hstray)]
      rfl
    | none =>
      by_cases hstarted : committer.counters.phase = .started
      · rw [commit_of_admitted hbuild hstray hstarted, hstarted]
        -- A refusal ends the commit between the opening and the closing of its transaction.
        cases Edit.performAll committer.objects committer.index (Edit.ofCommit writes deletes) with
        | mk answer left =>
          cases answer with
          | error failure => rfl
          | ok _ => rfl
      · rw [commit_of_barred (.stopped hbuild hstray hstarted), beq_false_of_ne hstarted]
        rfl

theorem cutsShort_iff :
    committer.cutsShort draft writes deletes = true ↔ committer.Admits draft writes ∧ ∃ failure,
      (Edit.performAll committer.objects committer.index (Edit.ofCommit writes deletes)).1 =
        .error failure := by
  unfold cutsShort Admits
  cases hbuild : draft.build with
  | error failure => exact iff_of_false Bool.false_ne_true fun hboth => nomatch hboth.1.1
  | ok record =>
    have hrecord : (∃ built, Except.ok (ε := Failure) record = .ok built ∧
        strayWrite? built writes = none) ↔ strayWrite? record writes = none := by
      constructor
      · intro hbuilt
        rcases hbuilt with ⟨built, hsame, hstray⟩
        cases hsame
        exact hstray
      · exact fun hstray => ⟨record, rfl, hstray⟩
    rw [hrecord]
    simp only [Bool.and_eq_true, Option.isNone_iff_eq_none, beq_iff_eq]
    apply and_congr_right
    intro _
    cases (Edit.performAll committer.objects committer.index (Edit.ofCommit writes deletes)).1 with
    | error failure => exact iff_of_true rfl ⟨failure, rfl⟩
    | ok _ => exact iff_of_false Bool.false_ne_true nofun

theorem tracks_of_sole {observers : List (Observer ObjectIndex)}
    (hsole : observers = [ObjectIndex.observer]) :
    ∀ observer ∈ observers, Observer.Tracks id observer := by
  intro observer hmem
  rw [hsole, List.mem_singleton] at hmem
  rw [hmem]
  exact Observer.tracks_observer

theorem not_cutsShort (htracks : ∀ observer ∈ committer.objects.observers,
    Observer.Tracks view observer) : committer.cutsShort draft writes deletes = false := by
  cases hcut : committer.cutsShort draft writes deletes with
  | false => rfl
  | true =>
    rcases cutsShort_iff.1 hcut with ⟨-, failure, hanswer⟩
    cases hperformed : Edit.performAll committer.objects committer.index
        (Edit.ofCommit writes deletes) with
    | mk answer left =>
      rw [hperformed] at hanswer
      cases hanswer
      rcases Edit.performAll_error hperformed with
        ⟨done, refused, rest, reached, heard, -, hdone, hrefused⟩
      have hkept := Edit.performAll_observers done committer.objects committer.index
      rw [hdone] at hkept
      rcases Edit.refuses_of_perform hrefused with ⟨observer, hmem, hno, -⟩
      exact absurd (htracks observer (hkept ▸ hmem)) hno

/-!
## Runs
-/

/-- How many transactions an operation leaves open: commits alone open any. -/
def Operation.leftOpen (committer : Committer σ) : Operation → Nat
  | .commit draft writes deletes => (committer.cutsShort draft writes deletes).toNat
  | .write _ | .removeAll _ | .call _ | .resumeAfter _ | .shutdown => 0

def cutShort : List Operation → Committer σ → Nat
  | [], _ => 0
  | operation :: rest, committer =>
    operation.leftOpen committer + cutShort rest (operation.perform committer)

theorem openTransactions_perform (committer : Committer σ) (operation : Operation) :
    (operation.perform committer).counters.openTransactions =
      committer.counters.openTransactions + operation.leftOpen committer := by
  cases operation with
  | commit draft writes deletes => exact openTransactions_commit committer draft writes deletes
  | write object => rfl
  | removeAll ids => rfl
  | call made => rfl
  | resumeAfter seen => rfl
  | shutdown => rfl

theorem openTransactions_run (committer : Committer σ) (operations : List Operation) :
    (operations.foldl Operation.perform committer).counters.openTransactions =
      committer.counters.openTransactions + cutShort operations committer := by
  induction operations generalizing committer with
  | nil => rfl
  | cons operation rest ih =>
    rw [List.foldl_cons, ih, openTransactions_perform, cutShort, Nat.add_assoc]

theorem perform_observers (committer : Committer σ) (operation : Operation) :
    (operation.perform committer).objects.observers = committer.objects.observers := by
  rcases exists_calls committer operation with ⟨calls, hcalls⟩
  have hkept := MapCall.run_observers calls committer.contents
  rw [← hcalls] at hkept
  exact hkept

theorem cutShort_eq_zero (htracks : ∀ observer ∈ committer.objects.observers,
    Observer.Tracks view observer) (operations : List Operation) :
    cutShort operations committer = 0 := by
  induction operations generalizing committer with
  | nil => rfl
  | cons operation rest ih =>
    have hfirst : operation.leftOpen committer = 0 := by
      cases operation with
      | commit draft writes deletes => rw [Operation.leftOpen, not_cutsShort htracks]; rfl
      | write object => rfl
      | removeAll ids => rfl
      | call made => rfl
      | resumeAfter seen => rfl
      | shutdown => rfl
    rw [cutShort, hfirst, ih (perform_observers committer operation ▸ htracks)]

/-- After every run of a pipeline the open transactions are those that were open before it and
the commits that were cut short.  There are none of these if the index is all that watches. -/
theorem open_transactions_account (view : σ → ObjectIndex) (committer : Committer σ)
    (operations : List Operation) :
    (operations.foldl Operation.perform committer).counters.openTransactions =
        committer.counters.openTransactions + cutShort operations committer ∧
      ((∀ observer ∈ committer.objects.observers, Observer.Tracks view observer) →
        cutShort operations committer = 0) :=
  ⟨openTransactions_run committer operations, fun htracks => cutShort_eq_zero htracks operations⟩

/-- One commit of the rounds is cut short by the guard, and none in an opened pipeline. -/
theorem open_after_rounds :
    (rounds.foldl Operation.perform guarded).counters.openTransactions = 0 + 1 ∧
      (rounds.foldl Operation.perform (fresh .fresh)).counters.openTransactions = 0 := by
  have hguarded := open_transactions_account id guarded rounds
  have hopened := open_transactions_account id (fresh .fresh) rounds
  refine ⟨hguarded.1, hopened.1.trans (hopened.2 ?_)⟩
  intro observer hmem
  rw [List.mem_singleton.1 hmem]
  exact Observer.tracks_observer

/-- A pipeline over a new store that nobody else uses can leave a transaction open. -/
theorem transaction_left_open : ¬∀ (store started : Store ObjectIndex) (committer : Committer)
    (draft : Draft) (writes : List StoredObject) (deletes : List ObjectId),
    store.counters = {} → store.start = .ok started → ofStore started {} .fresh = .ok committer →
    (committer.commit draft writes deletes).2.counters.openTransactions = 0 := by
  intro hclaim
  rcases ofStore_guardedStore with ⟨started, hstart, hguarded⟩
  have hclosed := hclaim guardedStore started guarded twins twinObjects [] rfl hstart hguarded
  exact absurd hclosed (by decide +kernel)

end Committer
end SharedGraph
