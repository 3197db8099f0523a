import SharedGraph.Proofs.Relay.Queueing
import SharedGraph.Proofs.Relay.Reporting

/-!
# Lanes under any transport

Whatever becomes of its shipments, a drain takes a part off the front of its lane and reports just
that part as applied.  So a call changes no lanes but those of its targets, and if it succeeds, it
leaves nothing in these: its own record stands last there.
-/

namespace SharedGraph
namespace Relay

variable {τ : Type} [Transport τ] {relay accepted drained : Relay} {id : GlobalId} {name : String}
variable {results : List (RelayTarget × LaneReport)}

/-!
## Lanes
-/

theorem drainLane_eq (node : Node) (limit : UInt64) (queue : List Queued) (transport : τ) :
    ∃ done left failure elapsed later,
      drainLane node limit queue transport = (done.map Queued.id, left, failure, elapsed, later) ∧
      queue = done ++ left := by
  induction queue generalizing transport with
  | nil => exact ⟨[], [], none, 0, transport, rfl, rfl⟩
  | cons entry rest ih =>
    rcases hship : Transport.ship node entry.delivery limit transport with ⟨answer, elapsed, after⟩
    rw [drainLane, hship]
    cases answer with
    | error failure => exact ⟨[], entry :: rest, some failure, elapsed, after, rfl, rfl⟩
    | ok _ =>
      rcases ih after with ⟨done, left, failure, later, final, hrest, hsplit⟩
      dsimp only
      rw [hrest]
      exact ⟨entry :: done, left, failure, elapsed + later, final, rfl, by rw [hsplit]; rfl⟩

/-- What draining the lanes of some targets comes to: each report tells what was taken off the
front of a lane and whether the id of the call is left there, and nothing else changes. -/
structure Carried (relay next : Relay) (id : GlobalId)
    (results : List (RelayTarget × LaneReport)) : Prop where
  applied : ∀ result ∈ results, relay.backlog result.1.node.name =
    result.2.applied ++ next.backlog result.1.node.name
  stillQueued : ∀ result ∈ results,
    (result.2.stillQueued = true ↔ id ∈ next.backlog result.1.node.name)
  others : ∀ name, (∀ result ∈ results, result.1.node.name ≠ name) →
    next.backlog name = relay.backlog name
  ledger : next.ledger = relay.ledger
  policy : next.policy = relay.policy
  lastQueued : next.lastQueued = relay.lastQueued

theorem Carried.lane_cases {next : Relay} (hcarried : Carried relay next id results)
    (name : String) :
    (∃ result ∈ results, result.1.node.name = name ∧
        relay.backlog name = result.2.applied ++ next.backlog name) ∨
      (∀ result ∈ results, result.1.node.name ≠ name) ∧
        next.backlog name = relay.backlog name := by
  by_cases htarget : ∃ result ∈ results, result.1.node.name = name
  · rcases htarget with ⟨result, hresult, rfl⟩
    exact Or.inl ⟨result, hresult, rfl, hcarried.applied result hresult⟩
  · have hothers : ∀ result ∈ results, result.1.node.name ≠ name := by
      intro result hresult hname
      exact htarget ⟨result, hresult, hname⟩
    exact Or.inr ⟨hothers, hcarried.others name hothers⟩

theorem Carried.sublist {next : Relay} (hcarried : Carried relay next id results) (name : String) :
    (next.backlog name).Sublist (relay.backlog name) := by
  rcases hcarried.lane_cases name with ⟨result, -, -, hsplit⟩ | ⟨-, hsame⟩
  · exact hsplit ▸ List.sublist_append_right result.2.applied (next.backlog name)
  · exact hsame ▸ List.Sublist.refl (next.backlog name)

theorem drain_carried (relay : Relay) (id : GlobalId) (target : RelayTarget) (transport : τ) :
    ∃ report next elapsed later,
      relay.drain id target.node transport = (report, next, elapsed, later) ∧
      Carried relay next id [(target, report)] := by
  rcases drainLane_eq target.node relay.policy.shipLimit (relay.lane target.node.name) transport
    with ⟨done, left, failure, elapsed, later, hdrained, hsplit⟩
  have hlane : ∀ name, { relay with lanes := relay.lanes.insert target.node.name left }.backlog
      name = if name = target.node.name then left.map Queued.id else relay.backlog name := by
    intro name
    rw [backlog, lane_insert]
    split <;> rfl
  unfold drain
  rw [hdrained]
  refine ⟨_, _, elapsed, later, rfl, ?_, ?_, ?_, rfl, rfl, rfl⟩
  · rw [List.forall_mem_singleton, hlane, if_pos rfl, backlog, hsplit, List.map_append]
  · rw [List.forall_mem_singleton, hlane, if_pos rfl]
    simp
  · intro name hother
    rw [hlane, if_neg]
    exact Ne.symm (hother _ List.mem_cons_self)

theorem drainAll_carried (id : GlobalId) (targets : List RelayTarget) (relay : Relay)
    (busy : SortedMap String Nat) (transport : τ)
    (hnodup : (targets.map fun target => target.node.name).Nodup) :
    ∃ results next total later,
      relay.drainAll id targets busy transport = (results, next, total, later) ∧
      results.map Prod.fst = targets ∧ Carried relay next id results := by
  induction targets generalizing relay busy transport with
  | nil =>
    refine ⟨[], relay, busy, transport, rfl, rfl, ?_⟩
    exact ⟨fun _ hnone => absurd hnone List.not_mem_nil,
      fun _ hnone => absurd hnone List.not_mem_nil, fun _ _ => rfl, rfl, rfl, rfl⟩
  | cons target rest ih =>
    rw [List.map_cons, List.nodup_cons] at hnodup
    rcases drain_carried relay id target transport with
      ⟨report, first, elapsed, after, hdrain, hown⟩
    rcases ih first (busy.insert target.node.name ((busy.get? target.node.name).getD 0 + elapsed))
      after hnodup.2 with ⟨others, next, total, later, hrest, htargets, hcarried⟩
    -- The names are distinct, so no drain touches the lane of another one.
    have hapart : ∀ result ∈ others, result.1.node.name ≠ target.node.name := by
      intro result hresult hsame
      apply hnodup.1
      rw [← hsame, ← htargets, List.map_map]
      exact List.mem_map_of_mem hresult
    have hkept : next.backlog target.node.name = first.backlog target.node.name :=
      hcarried.others _ hapart
    have hsame : ∀ result ∈ others,
        first.backlog result.1.node.name = relay.backlog result.1.node.name := by
      intro result hresult
      apply hown.others
      intro found hfound
      rw [List.mem_singleton.1 hfound]
      exact Ne.symm (hapart result hresult)
    refine ⟨(target, report) :: others, next, total, later, ?_, ?_, ?_⟩
    · simp only [drainAll, hdrain, hrest]
    · rw [List.map_cons, htargets]
    · constructor
      case applied =>
        refine List.forall_mem_cons.2 ⟨?_, ?_⟩
        · rw [hkept]
          exact hown.applied _ List.mem_cons_self
        · intro result hresult
          rw [← hsame result hresult]
          exact hcarried.applied result hresult
      case stillQueued =>
        refine List.forall_mem_cons.2 ⟨?_, hcarried.stillQueued⟩
        rw [hkept]
        exact hown.stillQueued _ List.mem_cons_self
      case others =>
        intro name hothers
        rw [List.forall_mem_cons] at hothers
        rw [hcarried.others name hothers.2]
        apply hown.others
        intro found hfound
        rw [List.mem_singleton.1 hfound]
        exact hothers.1
      case ledger => exact hcarried.ledger.trans hown.ledger
      case policy => exact hcarried.policy.trans hown.policy
      case lastQueued => exact hcarried.lastQueued.trans hown.lastQueued

/-!
## A whole call
-/

variable {group : FailoverGroup} {transaction : Sequenced}

theorem relay_refused (transport : τ) (hrefused : relay.admits? group transaction = none) :
    ∃ outcome, relay.relay group transaction transport = (outcome, relay, 0, transport) := by
  unfold admits? at hrefused
  unfold Relay.relay
  cases hid : transaction.globalId with
  | none => exact ⟨_, rfl⟩
  | some id =>
    simp only [hid] at hrefused
    cases hnetworked : group.isNetworked with
    | false => exact ⟨.ok { id }, by simp⟩
    | true =>
      simp only [hnetworked, Bool.not_true, Bool.false_eq_true, if_false] at hrefused ⊢
      cases haccept : relay.accept group id transaction.record with
      | error failure => exact ⟨_, rfl⟩
      | ok accepted => simp [haccept] at hrefused

theorem admits?_of_ok {transport : τ} {report : RelayReport}
    (hnetworked : group.isNetworked = true) (hid : transaction.globalId = some id)
    (hok : (relay.relay group transaction transport).1 = .ok report) :
    relay.admits? group transaction = some id := by
  unfold Relay.relay at hok
  unfold admits?
  simp only [hid, hnetworked, Bool.not_true, Bool.false_eq_true, if_false] at hok ⊢
  cases haccept : relay.accept group id transaction.record with
  | error failure =>
    rw [haccept] at hok
    cases hok
  | ok accepted => rfl

theorem globalId_of_ok {transport : τ} {report : RelayReport}
    (hok : (relay.relay group transaction transport).1 = .ok report) :
    ∃ id, transaction.globalId = some id := by
  unfold Relay.relay at hok
  cases hid : transaction.globalId with
  | none => simp [hid] at hok
  | some id => exact ⟨id, rfl⟩

/-- A call that queues its record drains the lanes of all passives, however its shipments end, and
settles what became of them. -/
theorem relay_carried (transport : τ) (hgroup : group.Consistent) (hnamed : group.Named)
    (hadmits : relay.admits? group transaction = some id) :
    ∃ accepted results drained elapsed later,
      relay.accept group id transaction.record = .ok (results.map Prod.fst, accepted) ∧
      Carried accepted drained id results ∧
      relay.relay group transaction transport =
        ((drained.settle group.id id results).1, (drained.settle group.id id results).2, elapsed,
          later) := by
  rcases admits?_eq_some hadmits with ⟨hid, hnetworked, targets, accepted, haccept⟩
  have hnodup := nodup_targets_of_accept hgroup hnamed haccept
  rcases drainAll_carried id targets accepted ∅ transport hnodup with
    ⟨results, drained, total, later, hdrained, rfl, hcarried⟩
  refine ⟨accepted, results, drained, (total.toList.map Prod.snd).foldl max 0, later, haccept,
    hcarried, ?_⟩
  unfold Relay.relay
  simp only [hid, hnetworked, haccept, hdrained, Bool.not_true, Bool.false_eq_true, if_false]

/-!
## Synchronous calls
-/

theorem waiting_settle_iff (groupId : GroupId) (hsync : accepted.policy.mode = .sync)
    (honce : ∀ name, (accepted.backlog name).Nodup)
    (hwaits : ∀ name other, name ∈ accepted.ledger.waiting other ↔ other ∈ accepted.backlog name)
    (hcarried : Carried accepted drained id results) (name : String) (other : GlobalId) :
    name ∈ (drained.settle groupId id results).2.ledger.waiting other ↔
      other ∈ drained.backlog name := by
  rcases settle_relay drained groupId id results with ⟨ledger, hsettled, hwaiting, -⟩
  rw [hsettled]
  dsimp only
  rw [hwaiting, hcarried.ledger, hcarried.policy, hsync, hwaits]
  rcases hcarried.lane_cases name with ⟨result, hresult, rfl, hsplit⟩ | ⟨hothers, hsame⟩
  · have happlied : (∃ found ∈ results, Covers .sync id found result.1.node.name other) ↔
        other ∈ result.2.applied := by
      constructor
      · rintro ⟨found, hfound, hname, hmem | ⟨hmode, -⟩⟩
        · -- Both reports are about one lane, so they tell the same.
          have hother := hcarried.applied found hfound
          rw [hname, hsplit, List.append_cancel_right_eq] at hother
          exact hother ▸ hmem
        · cases hmode
      · exact fun hmem => ⟨result, hresult, rfl, Or.inl hmem⟩
    have hdisjoint := List.nodup_append.1 (hsplit ▸ honce result.1.node.name)
    rw [happlied, hsplit, List.mem_append]
    constructor
    · rintro ⟨hqueued, hleft⟩
      exact hqueued.resolve_left hleft
    · intro hqueued
      exact ⟨Or.inr hqueued, fun hmem => hdisjoint.2.2 other hmem other hqueued rfl⟩
  · have hnobody : ¬∃ result ∈ results, Covers .sync id result name other := by
      rintro ⟨result, hresult, hname, -⟩
      exact hothers result hresult hname
    rw [hsame]
    exact and_iff_left hnobody

theorem backlog_eq_nil_of_settle (hsync : drained.policy.mode = .sync) {groupId : GroupId}
    {report : RelayReport} (hok : (drained.settle groupId id results).1 = .ok report)
    (hcarried : Carried accepted drained id results) {result : RelayTarget × LaneReport}
    (hresult : result ∈ results) {before : List GlobalId}
    (hlast : accepted.backlog result.1.node.name = before ++ [id]) :
    drained.backlog result.1.node.name = [] := by
  have hnone := (settle_isOk_iff hsync).1 ⟨report, hok⟩ result hresult
  have hgone : id ∉ drained.backlog result.1.node.name := by
    rw [← hcarried.stillQueued result hresult, hnone]
    exact Bool.false_ne_true
  rcases List.eq_nil_or_concat (drained.backlog result.1.node.name) with hnil | ⟨front, last, hends⟩
  · exact hnil
  · -- The lane ends with the id of the call, so what is left of it does too.
    have hsplit := hcarried.applied result hresult
    rw [hlast, hends, List.concat_eq_append, ← List.append_assoc] at hsplit
    have hsame : [id] = [last] := List.append_inj_right' hsplit rfl
    rw [hends, List.concat_eq_append, ← hsame] at hgone
    exact absurd (List.mem_append_right front List.mem_cons_self) hgone

end Relay
end SharedGraph
