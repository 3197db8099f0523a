import SharedGraph.Proofs.Relay.Effect
import SharedGraph.Proofs.Relay.Reachable

/-!
# Who gets a narrowed record

A call decides what each passive will get when it queues the record, and its report lists everybody
who was to get a narrowed one.  Whether it arrives is known only when the lanes are drained.  So the
list is that of the passives that got a narrowed record exactly if each of them could be reached
(`pruned_report_iff`), as it always is when a synchronous call succeeds.
-/

namespace SharedGraph

/-- Whether a passive has received a narrowed record with an id since an earlier moment. -/
def Passives.GotNarrowed (earlier later : Passives) (id : GlobalId) (name : String) : Prop :=
  ∃ delivery ∈ (later.deliveries name).drop (earlier.deliveries name).length,
    delivery.globalId = some id ∧ delivery.shipment.isNarrowed = true

instance (earlier later : Passives) (id : GlobalId) (name : String) :
    Decidable (earlier.GotNarrowed later id name) :=
  inferInstanceAs (Decidable (∃ delivery ∈ (later.deliveries name).drop _, _))

namespace Relay

variable {relay accepted drained : Relay} {passives later : Passives} {group : FailoverGroup}
variable {id : GlobalId} {record : Record} {targets : List RelayTarget} {name : String}
variable {results : List (RelayTarget × LaneReport)}

/-!
## What arrives
-/

/-- A passive gets a narrowed record with the id of the call if it is to get one and can be reached:
nothing that was queued before has the id. -/
theorem gotNarrowed_iff (horder : relay.InOrder)
    (haccept : relay.accept group id record = .ok (targets, accepted))
    (hshipped : Shipped accepted drained passives later (namesOf targets)) :
    passives.GotNarrowed later id name ↔ group.hasPassive name = true ∧
      relay.narrows record name = true ∧ passives.reaches name = true := by
  rcases lane_accept haccept name with ⟨added, hlane, hentries, hadded⟩
  have hnarrows : ∀ entry ∈ added, entry.shipment.isNarrowed = relay.narrows record name := by
    intro entry hentry
    unfold narrows
    rw [(hentries entry hentry).2]
  unfold Passives.GotNarrowed
  rw [hshipped.delivered, List.drop_left, hasPassive_iff_mem_namesOf haccept, hlane]
  constructor
  · intro hgot
    rcases hgot with ⟨delivery, hdelivery, hid, hnarrowed⟩
    split at hdelivery
    · next hreached =>
      rcases List.mem_map.1 hdelivery with ⟨entry, hentry, rfl⟩
      have hown : entry.id = id := Option.some.inj hid
      rcases List.mem_append.1 hentry with hbefore | hnew
      · have hqueued : id ∈ relay.backlog name := hown ▸ List.mem_map_of_mem hbefore
        exact absurd (horder.marked name id hqueued) (not_upTo (accept_lastQueued haccept).2)
      · exact ⟨hreached.1, hnarrows entry hnew ▸ hnarrowed, hreached.2⟩
    · cases hdelivery
  · intro hgets
    rcases hgets with ⟨hname, hnarrowed, hreached⟩
    rw [if_pos ⟨hname, hreached⟩]
    have hsome := hadded.1 ((hasPassive_iff_mem_namesOf haccept name).2 hname)
    rcases List.exists_mem_of_ne_nil added hsome with ⟨entry, hentry⟩
    refine ⟨entry.delivery, List.mem_map_of_mem (List.mem_append_right _ hentry), ?_, ?_⟩
    · exact congrArg some (hentries entry hentry).1
    · exact (hnarrows entry hentry).trans hnarrowed

/-!
## What is reported
-/

theorem mem_prunedFor (haccept : relay.accept group id record = .ok (targets, accepted))
    (htargets : results.map Prod.fst = targets) :
    name ∈ prunedFor results ↔
      group.hasPassive name = true ∧ relay.narrows record name = true := by
  have hpruned := pruned_accept haccept
  rw [hasPassive_of_accept haccept]
  subst htargets
  unfold prunedFor
  simp only [List.mem_map, List.mem_filter] at hpruned ⊢
  constructor
  · intro hlisted
    rcases hlisted with ⟨result, ⟨hresult, hnarrowed⟩, rfl⟩
    exact ⟨⟨result.1, ⟨result, hresult, rfl⟩, rfl⟩,
      hpruned result.1 ⟨result, hresult, rfl⟩ ▸ hnarrowed⟩
  · intro hmeant
    rcases hmeant with ⟨⟨target, ⟨result, hresult, rfl⟩, rfl⟩, hnarrowed⟩
    exact ⟨result, ⟨hresult, (hpruned result.1 ⟨result, hresult, rfl⟩).trans hnarrowed⟩, rfl⟩

theorem pruned_of_relay {transaction : Sequenced} {report : RelayReport} {next : Relay}
    {elapsed : Nat} (horder : relay.InOrder) (hnetworked : group.isNetworked = true)
    (hid : transaction.globalId = some id)
    (hcall : relay.relay group transaction passives = (.ok report, next, elapsed, later)) :
    (∀ name, name ∈ report.pruned ↔
        group.hasPassive name = true ∧ relay.narrows transaction.record name = true) ∧
      (∀ name, passives.GotNarrowed later id name ↔ group.hasPassive name = true ∧
        relay.narrows transaction.record name = true ∧ passives.reaches name = true) ∧
      (relay.policy.mode = .sync →
        ∀ name, group.hasPassive name = true → passives.reaches name = true) := by
  have hadmits : relay.admits? group transaction = some id :=
    admits?_of_ok hnetworked hid (congrArg Prod.fst hcall)
  rcases admits?_eq_some hadmits with ⟨-, -, targets, accepted, haccept⟩
  rcases drainAll_shipped id targets accepted ∅ passives with
    ⟨results, drained, total, final, hdrained, htargets, hqueued, -, hshipped⟩
  unfold Relay.relay at hcall
  simp only [hid, hnetworked, haccept, hdrained, Bool.not_true, Bool.false_eq_true, if_false,
    Prod.mk.injEq] at hcall
  rcases hcall with ⟨hok, -, -, rfl⟩
  refine ⟨fun name => ?_, fun name => gotNarrowed_iff horder haccept hshipped, ?_⟩
  · rcases settle_report drained group.id id results with ⟨caughtUp, -, -, hreport⟩
    rw [hok] at hreport
    split at hreport
    · cases hreport
    · rw [Except.ok.inj hreport]
      exact mem_prunedFor haccept htargets
  · intro hsync name hpassive
    have hmode : drained.policy.mode = .sync := by
      rw [hshipped.policy, accept_policy haccept, hsync]
    have hnone := (settle_isOk_iff hmode).1 ⟨report, hok⟩
    rcases (hasPassive_of_accept haccept name).1 hpassive with ⟨target, htarget, rfl⟩
    rcases List.mem_map.1 (htargets ▸ htarget) with ⟨result, hresult, rfl⟩
    -- Its own id is in every lane, so a lane that is left alone still holds it.
    apply Decidable.byContradiction
    intro hcut
    have hleft := (hqueued result hresult).2
      ⟨Bool.not_eq_true _ ▸ hcut, mem_backlog_accept haccept _ htarget⟩
    rw [hnone result hresult] at hleft
    cases hleft

end Relay

namespace InFlight

/-- In every state of a relay, a call over passives in memory that succeeds lists each passive that
got a narrowed record, and no other exactly if whoever was to get one could be reached; a call that
waits for everybody lists no other. -/
theorem pruned_report_iff {state : InFlight} {group : FailoverGroup} {transaction : Sequenced}
    {passives later : Passives} {report : RelayReport} {next : Relay} {elapsed : Nat}
    {id : GlobalId} (hreached : state.Reachable) (hnetworked : group.isNetworked = true)
    (hid : transaction.globalId = some id)
    (hcall : state.relay.relay group transaction passives = (.ok report, next, elapsed, later)) :
    (∀ name, passives.GotNarrowed later id name → name ∈ report.pruned) ∧
      ((∀ name, name ∈ report.pruned ↔ passives.GotNarrowed later id name) ↔
        ∀ name, group.hasPassive name = true →
          state.relay.narrows transaction.record name = true → passives.reaches name = true) ∧
      (state.relay.policy.mode = .sync →
        ∀ name, name ∈ report.pruned ↔ passives.GotNarrowed later id name) := by
  rcases Relay.pruned_of_relay hreached.inOrder hnetworked hid hcall with
    ⟨hlisted, hgot, hsynced⟩
  have hiff : (∀ name, name ∈ report.pruned ↔ passives.GotNarrowed later id name) ↔
      ∀ name, group.hasPassive name = true →
        state.relay.narrows transaction.record name = true → passives.reaches name = true := by
    simp only [hlisted, hgot]
    constructor
    · exact fun hsame name hname hnarrows => ((hsame name).1 ⟨hname, hnarrows⟩).2.2
    · intro hall name
      exact ⟨fun hname => ⟨hname.1, hname.2, hall name hname.1 hname.2⟩,
        fun hname => ⟨hname.1, hname.2.1⟩⟩
  refine ⟨fun name hname => ?_, hiff, fun hsync => ?_⟩
  · rcases (hgot name).1 hname with ⟨hpassive, hnarrows, -⟩
    exact (hlisted name).2 ⟨hpassive, hnarrows⟩
  · exact hiff.2 fun name hpassive _ => hsynced hsync name hpassive

/-- A relay that waits for nobody and follows what one passive holds, which is nothing. -/
def lenient : InFlight :=
  { relay := ({ policy := { mode := .bestEffort } } : Relay).declareHeld "b" ∅ }

theorem lenient_reachable : lenient.Reachable :=
  .declareHeld (.opened { mode := .bestEffort }) "b" ∅

def updating : Sequenced where
  record := {
    draft := { name := ⟨"client", 1⟩, changes := [.updated ⟨7⟩ 2 [], .created ⟨11⟩ []] }
    rooted := nofun
    broadcast := nofun }
  globalId := some ⟨1⟩

def twoPassives (cut : Bool) : Passives :=
  ⟨(SortedMap.insert ∅ "b" { partitioned := cut }).insert "c" {}⟩

theorem narrowed_for_follower :
    ∃ report next elapsed later,
      lenient.relay.relay FailoverGroup.trio updating (twoPassives false) =
        (.ok report, next, elapsed, later) ∧
      "b" ∈ report.pruned ∧ (twoPassives false).GotNarrowed later ⟨1⟩ "b" := by
  have hcall : lenient.relay.relay FailoverGroup.trio updating (twoPassives false) =
    (.ok _, _, _, _) := rfl
  have hlisted := (pruned_report_iff lenient_reachable rfl rfl hcall).1
  exact ⟨_, _, _, _, hcall, hlisted "b" (by decide +kernel), by decide +kernel⟩

/-- A passive that is cut off gets nothing and is listed all the same, if nobody waits for it. -/
theorem unreached_listed_as_pruned : ¬∀ (state : InFlight) (group : FailoverGroup)
    (transaction : Sequenced) (passives later : Passives) (report : RelayReport) (next : Relay)
    (elapsed : Nat) (id : GlobalId), state.Reachable → group.isNetworked = true →
    transaction.globalId = some id →
    state.relay.relay group transaction passives = (.ok report, next, elapsed, later) →
    ∀ name, name ∈ report.pruned ↔ passives.GotNarrowed later id name := by
  intro hclaim
  have hsame := hclaim lenient FailoverGroup.trio updating (twoPassives true) _ _ _ _ ⟨1⟩
    lenient_reachable rfl rfl rfl "b"
  have hgot := hsame.1 (by decide +kernel)
  exact absurd hgot (by decide +kernel)

end InFlight
end SharedGraph
