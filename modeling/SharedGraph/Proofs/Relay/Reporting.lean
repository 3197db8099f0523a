import SharedGraph.Proofs.Relay.Settling

/-!
# What a call reports

The report names the passives whose drains left nothing of the call in their lanes, those whose
drains did, and those that were to get a narrowed record, all in the order of the targets.  The
earlier ids that it lists as caught up are those that somebody was waited for before the call was
settled and nobody afterwards: whoever acknowledges an id last releases it.
-/

namespace SharedGraph
namespace Relay

variable {relay : Relay} {id : GlobalId} {mode : RelayMode} {state next : Ledger × RelayReport}
variable {results : List (RelayTarget × LaneReport)} {group : GroupId} {before : Ledger}

/-- The passives whose drains left nothing of the call in their lanes. -/
def acknowledgedBy (results : List (RelayTarget × LaneReport)) : List String :=
  (results.filter fun result => !result.2.stillQueued).map fun result => result.1.node.name

def failureText (passive : String) (failure : Failure) : String :=
  s!"{passive} ({failure.message})"

/-- The passives whose drains left the id of the call in their lanes, with the reasons. -/
def failedBy (id : GlobalId) (results : List (RelayTarget × LaneReport)) : List String :=
  (results.filter fun result => result.2.stillQueued).map fun result =>
    failureText result.1.node.name (reason id result.1.node.name result.2)

def prunedFor (results : List (RelayTarget × LaneReport)) : List String :=
  (results.filter fun result => result.1.pruned).map fun result => result.1.node.name

theorem acknowledgedBy_append (first second : List (RelayTarget × LaneReport)) :
    acknowledgedBy (first ++ second) = acknowledgedBy first ++ acknowledgedBy second := by
  rw [acknowledgedBy, List.filter_append, List.map_append]
  rfl

theorem failedBy_append (id : GlobalId) (first second : List (RelayTarget × LaneReport)) :
    failedBy id (first ++ second) = failedBy id first ++ failedBy id second := by
  rw [failedBy, List.filter_append, List.map_append]
  rfl

theorem prunedFor_append (first second : List (RelayTarget × LaneReport)) :
    prunedFor (first ++ second) = prunedFor first ++ prunedFor second := by
  rw [prunedFor, List.filter_append, List.map_append]
  rfl

/-!
## Who applied the record and who did not
-/

theorem foldl_settleApplied_report (passive : String) (applied : List GlobalId)
    (state : Ledger × RelayReport) :
    ∃ caughtUp, (applied.foldl (settleApplied passive) state).2 = { state.2 with caughtUp } := by
  induction applied generalizing state with
  | nil => exact ⟨state.2.caughtUp, rfl⟩
  | cons first rest ih =>
    have hfirst : ∃ caughtUp, (settleApplied passive state first).2 =
        { state.2 with caughtUp } := by
      unfold settleApplied
      dsimp only
      split
      · exact ⟨_, rfl⟩
      · exact ⟨state.2.caughtUp, rfl⟩
    rcases hfirst with ⟨_, hfirst⟩
    rcases ih (settleApplied passive state first) with ⟨caughtUp, hrest⟩
    refine ⟨caughtUp, hrest.trans ?_⟩
    rw [hfirst]

theorem noting_eq (report : RelayReport) (result : RelayTarget × LaneReport) :
    noting report result.1 = { report with pruned := report.pruned ++ prunedFor [result] } := by
  unfold noting prunedFor
  cases hpruned : result.1.pruned with
  | false => simp [hpruned]
  | true => simp [hpruned]

theorem settleTarget_report (mode : RelayMode) (state : Ledger × RelayReport)
    (result : RelayTarget × LaneReport) :
    (settleTarget mode state result).2 = { state.2 with
      acknowledged := state.2.acknowledged ++ acknowledgedBy [result]
      failed := state.2.failed ++ failedBy state.2.id [result]
      pruned := state.2.pruned ++ prunedFor [result]
      caughtUp := (result.2.applied.foldl (settleApplied result.1.node.name)
        (state.1, noting state.2 result.1)).2.caughtUp } := by
  rcases foldl_settleApplied_report result.1.node.name result.2.applied
    (state.1, noting state.2 result.1) with ⟨caughtUp, hreport⟩
  rw [noting_eq] at hreport
  rcases result with ⟨target, report⟩
  rcases state with ⟨ledger, outcome⟩
  unfold settleTarget
  dsimp only
  rw [show (if target.pruned = true then
    { outcome with pruned := outcome.pruned ++ [target.node.name] } else outcome) =
      noting outcome target from rfl, noting_eq outcome (target, report)]
  generalize report.applied.foldl (settleApplied target.node.name) (ledger, { outcome with
    pruned := outcome.pruned ++ prunedFor [(target, report)] }) = done at hreport ⊢
  rcases done with ⟨later, found⟩
  cases hreport
  cases hqueued : report.stillQueued with
  | false => simp [acknowledgedBy, failedBy, hqueued]
  | true => simp [acknowledgedBy, failedBy, failureText, hqueued]

theorem foldl_settleTarget_report (mode : RelayMode)
    (results : List (RelayTarget × LaneReport)) (state : Ledger × RelayReport) :
    (results.foldl (settleTarget mode) state).2 = { state.2 with
      acknowledged := state.2.acknowledged ++ acknowledgedBy results
      failed := state.2.failed ++ failedBy state.2.id results
      pruned := state.2.pruned ++ prunedFor results
      caughtUp := (results.foldl (settleTarget mode) state).2.caughtUp } := by
  induction results generalizing state with
  | nil => simp [acknowledgedBy, failedBy, prunedFor]
  | cons result rest ih =>
    have hsplit : result :: rest = [result] ++ rest := rfl
    rw [List.foldl_cons, ih, settleTarget_report, hsplit, acknowledgedBy_append, failedBy_append,
      prunedFor_append]
    simp only [List.append_assoc]

/-!
## Which earlier ids are caught up
-/

/-- The report of a call that is being settled lists the earlier ids that somebody was waited for
at first and nobody is now. -/
structure CatchesUp (before : Ledger) (id : GlobalId) (state : Ledger × RelayReport) : Prop where
  call : state.2.id = id
  shrinks : ∀ name other, name ∈ state.1.waiting other → name ∈ before.waiting other
  nodup : state.2.caughtUp.Nodup
  caughtUp : ∀ other, other ∈ state.2.caughtUp ↔ other < id ∧
    (∃ name, name ∈ before.waiting other) ∧ ∀ name, name ∉ state.1.waiting other

theorem catchesUp_start (before : Ledger) (id : GlobalId) :
    CatchesUp before id (before, { id }) := by
  refine ⟨rfl, fun _ _ hname => hname, List.nodup_nil, fun other => ?_⟩
  constructor
  · intro hother
    cases hother
  · rintro ⟨-, ⟨name, hname⟩, hnobody⟩
    exact absurd hname (hnobody name)

theorem catchesUp_congr (hcatches : CatchesUp before id state) (hid : next.2.id = state.2.id)
    (hcaughtUp : next.2.caughtUp = state.2.caughtUp)
    (hshrinks : ∀ name other, name ∈ next.1.waiting other → name ∈ state.1.waiting other)
    (hkept : ∀ name other, other < id → name ∈ state.1.waiting other →
      name ∈ next.1.waiting other) : CatchesUp before id next := by
  refine ⟨hid.trans hcatches.call, fun name other hname =>
    hcatches.shrinks name other (hshrinks name other hname), ?_, fun other => ?_⟩
  · rw [hcaughtUp]
    exact hcatches.nodup
  · rw [hcaughtUp, hcatches.caughtUp]
    apply and_congr_right
    intro hlt
    apply and_congr_right
    intro _
    apply forall_congr'
    intro name
    exact not_congr ⟨hkept name other hlt, hshrinks name other⟩

theorem catchesUp_settleApplied (hcatches : CatchesUp before id state) (passive : String)
    (applied : GlobalId) : CatchesUp before id (settleApplied passive state applied) := by
  rcases state with ⟨ledger, report⟩
  rcases hcatches with ⟨rfl, hshrinks, hnodup, hcaughtUp⟩
  have hwaiting : ∀ name other, name ∈ (ledger.settle applied passive).2.waiting other ↔
      name ∈ ledger.waiting other ∧ ¬(other = applied ∧ name = passive) :=
    fun name other => Ledger.mem_waiting_settle
  have hothers : ∀ other, other ≠ applied → ((∀ name,
      name ∉ (ledger.settle applied passive).2.waiting other) ↔
        ∀ name, name ∉ ledger.waiting other) := by
    intro other hother
    simp [hwaiting, hother]
  have hfewer : ∀ name other, name ∈ (ledger.settle applied passive).2.waiting other →
      name ∈ before.waiting other :=
    fun name other hname => hshrinks name other ((hwaiting name other).1 hname).1
  have hreleases : (ledger.settle applied passive).1 = true ↔
      (∃ name, name ∈ ledger.waiting applied) ∧
        ∀ name, name ∉ (ledger.settle applied passive).2.waiting applied :=
    Ledger.settle_releases_iff_nobody_left
  unfold settleApplied Ledger.acknowledge
  dsimp only
  split
  · next hnew =>
    simp only [Bool.and_eq_true, decide_eq_true_eq, Bool.not_eq_true', hreleases] at hnew
    rcases hnew with ⟨⟨⟨⟨name, howed⟩, hnobody⟩, hlt⟩, hfresh⟩
    refine ⟨rfl, hfewer, ?_, fun other => ?_⟩
    · rw [List.contains_eq_mem, decide_eq_false_iff_not] at hfresh
      exact List.nodup_append.2 ⟨hnodup, List.pairwise_singleton _ _, by
        rintro first hfirst second hsecond rfl
        rw [List.mem_singleton.1 hsecond] at hfirst
        exact hfresh hfirst⟩
    · rw [List.mem_append, List.mem_singleton]
      by_cases hsame : other = applied
      · subst hsame
        exact ⟨fun _ => ⟨hlt, ⟨name, hshrinks _ _ howed⟩, hnobody⟩, fun _ => Or.inr rfl⟩
      · rw [hothers other hsame, or_iff_left hsame]
        exact hcaughtUp other
  · next hold =>
    refine ⟨rfl, hfewer, hnodup, fun other => ?_⟩
    by_cases hsame : other = applied
    · subst hsame
      rw [hcaughtUp]
      refine and_congr_right fun hlt => and_congr_right fun _ => ⟨fun hnobody name hname =>
        hnobody name ((hwaiting name other).1 hname).1, fun hnobody name hname => ?_⟩
      -- an id that was released and not listed now is listed already
      have hlisted : other ∈ report.caughtUp := by
        have hreleased := hreleases.2 ⟨⟨name, hname⟩, hnobody⟩
        rw [hreleased, decide_eq_true hlt] at hold
        simpa using hold
      exact ((hcaughtUp other).1 hlisted).2.2 name hname
    · rw [hothers other hsame]
      exact hcaughtUp other

theorem catchesUp_foldl_settleApplied (hcatches : CatchesUp before id state) (passive : String)
    (applied : List GlobalId) :
    CatchesUp before id (applied.foldl (settleApplied passive) state) := by
  induction applied generalizing state with
  | nil => exact hcatches
  | cons first rest ih => exact ih (catchesUp_settleApplied hcatches passive first)

theorem catchesUp_settleTarget (hcatches : CatchesUp before id state) (mode : RelayMode)
    (result : RelayTarget × LaneReport) :
    CatchesUp before id (settleTarget mode state result) := by
  have hnoted : CatchesUp before id (state.1, noting state.2 result.1) := by
    refine catchesUp_congr hcatches (noting_id _ _) ?_ (fun _ _ hname => hname)
      fun _ _ _ hname => hname
    rw [noting_eq]
  have happlied := catchesUp_foldl_settleApplied hnoted result.1.node.name result.2.applied
  refine catchesUp_congr happlied ?_ ?_ ?_ ?_
  · rw [settleTarget_id, hcatches.call, happlied.call]
  · rw [settleTarget_report]
  · rw [settleTarget_ledger]
    intro name other hname
    split at hname
    · exact (Ledger.mem_waiting_settle.1 hname).1
    · exact hname
  · rw [settleTarget_ledger]
    intro name other hlt hname
    split
    · refine Ledger.mem_waiting_settle.2 ⟨hname, ?_⟩
      rintro ⟨hsame, -⟩
      rw [hcatches.call] at hsame
      exact GlobalId.ne_of_lt hlt hsame
    · exact hname

theorem catchesUp_foldl_settleTarget (hcatches : CatchesUp before id state) (mode : RelayMode)
    (results : List (RelayTarget × LaneReport)) :
    CatchesUp before id (results.foldl (settleTarget mode) state) := by
  induction results generalizing state with
  | nil => exact hcatches
  | cons result rest ih => exact ih (catchesUp_settleTarget hcatches mode result)

/-!
## The whole report
-/

theorem pairwise_mergeSort_of_nodup {ids : List GlobalId} (hnodup : ids.Nodup) :
    (ids.mergeSort fun first second => decide (first ≤ second)).Pairwise (· < ·) := by
  have htrans : ∀ first second third : GlobalId, decide (first ≤ second) = true →
      decide (second ≤ third) = true → decide (first ≤ third) = true := by
    intro first second third hfirst hsecond
    exact decide_eq_true (GlobalId.le_trans (of_decide_eq_true hfirst) (of_decide_eq_true hsecond))
  have htotal : ∀ first second : GlobalId,
      (decide (first ≤ second) || decide (second ≤ first)) = true := by
    intro first second
    rw [Bool.or_eq_true, decide_eq_true_eq, decide_eq_true_eq]
    exact GlobalId.le_total first second
  have hdistinct := (List.mergeSort_perm ids fun first second =>
    decide (first ≤ second)).nodup_iff.2 hnodup
  refine ((List.pairwise_mergeSort htrans htotal ids).and hdistinct).imp ?_
  rintro first second ⟨hle, hne⟩
  exact GlobalId.lt_of_le_of_ne (of_decide_eq_true hle) hne

/-- How a call ends: an error if it is synchronous and a passive failed, and else a report of who
applied the record and which earlier ids nobody is waited for any more. -/
theorem settle_report (relay : Relay) (group : GroupId) (id : GlobalId)
    (results : List (RelayTarget × LaneReport)) :
    ∃ caughtUp : List GlobalId, caughtUp.Pairwise (· < ·) ∧
      (∀ other, other ∈ caughtUp ↔ other < id ∧ (∃ name, name ∈ relay.ledger.waiting other) ∧
        ∀ name, name ∉ (relay.settle group id results).2.ledger.waiting other) ∧
      (relay.settle group id results).1 =
        if relay.policy.mode = .sync ∧ failedBy id results ≠ [] then
          .error (.notApplied id group (acknowledgedBy results).length (failedBy id results))
        else
          .ok {
            id, caughtUp
            acknowledged := acknowledgedBy results
            failed := failedBy id results
            pruned := prunedFor results
            released := (relay.settle group id results).2.ledger.isSettled id } := by
  have hcatches := catchesUp_foldl_settleTarget (catchesUp_start relay.ledger id)
    relay.policy.mode results
  have hreport := foldl_settleTarget_report relay.policy.mode results (relay.ledger, { id })
  have hledger : (relay.settle group id results).2.ledger =
      (results.foldl (settleTarget relay.policy.mode) (relay.ledger, { id })).1 := by
    unfold settle
    dsimp only
    split <;> rfl
  refine ⟨(results.foldl (settleTarget relay.policy.mode)
    (relay.ledger, { id })).2.caughtUp.mergeSort fun first second => decide (first ≤ second),
    pairwise_mergeSort_of_nodup hcatches.nodup, ?_, ?_⟩
  · intro other
    rw [List.mem_mergeSort, hledger]
    exact hcatches.caughtUp other
  · rw [hledger]
    unfold settle
    dsimp only
    generalize results.foldl (settleTarget relay.policy.mode) (relay.ledger, { id }) = done
      at hreport ⊢
    rcases done with ⟨ledger, found⟩
    generalize hlisted : found.caughtUp = listed at hreport ⊢
    cases hreport
    dsimp only
    rw [List.nil_append, List.nil_append, List.nil_append]
    cases relay.policy.mode with
    | bestEffort => rfl
    | sync => cases failedBy id results <;> rfl

theorem failedBy_eq_nil : failedBy id results = [] ↔
    ∀ result ∈ results, result.2.stillQueued = false := by
  rw [failedBy, List.map_eq_nil_iff, List.filter_eq_nil_iff]
  simp only [Bool.not_eq_true]

theorem settle_isOk_iff (hsync : relay.policy.mode = .sync) :
    (∃ report, (relay.settle group id results).1 = .ok report) ↔
      ∀ result ∈ results, result.2.stillQueued = false := by
  rcases settle_report relay group id results with ⟨caughtUp, -, -, hreport⟩
  have hnone : failedBy id results = [] ↔ ∀ result ∈ results, result.2.stillQueued = false :=
    failedBy_eq_nil
  rw [hreport, ← hnone]
  by_cases hfailed : failedBy id results = []
  · simp [hfailed]
  · simp [hfailed, hsync]

theorem settle_eq_error {failure : Failure}
    (herror : (relay.settle group id results).1 = .error failure) :
    ∃ acknowledged failed, failure = .notApplied id group acknowledged failed := by
  rcases settle_report relay group id results with ⟨caughtUp, -, -, hreport⟩
  rw [hreport] at herror
  split at herror
  · cases herror
    exact ⟨_, _, rfl⟩
  · cases herror

end Relay
end SharedGraph
