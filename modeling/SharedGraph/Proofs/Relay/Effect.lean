import SharedGraph.Proofs.Relay.Cluster
import SharedGraph.Proofs.Relay.Order

/-!
# The effect of one call

A call queues its record for every passive, ships to each that can be reached all that its lane
holds, and settles what became of them.  The ledger waits for a passive only while the id is in
its lane; so of every earlier id exactly the passives that can be reached are struck off, and the
call has caught up with the ids that nobody else owes.
-/

namespace SharedGraph
namespace Relay

variable {relay accepted : Relay} {passives : Passives} {group : FailoverGroup}
variable {id other : GlobalId} {record : Record} {targets : List RelayTarget} {name : String}

/-!
## What is queued
-/

def namesOf (targets : List RelayTarget) : List String :=
  targets.map fun target => target.node.name

theorem lane_accept_passive (hgroup : group.Consistent) (hnamed : group.Named)
    (haccept : relay.accept group id record = .ok (targets, accepted))
    (hpassive : group.hasPassive name = true) :
    ∃ shipment, relay.shipmentFor record name = .ok shipment ∧
      accepted.lane name = relay.lane name ++ [⟨id, shipment⟩] := by
  rcases lane_accept haccept name with ⟨added, hlane, hentries, -⟩
  have hbacklog := backlog_accept hgroup hnamed haccept name
  unfold backlog at hbacklog
  rw [hlane, List.map_append, if_pos hpassive] at hbacklog
  have hids := List.append_cancel_left hbacklog
  cases added with
  | nil => cases hids
  | cons entry rest =>
    rw [List.map_cons, List.cons.injEq, List.map_eq_nil_iff] at hids
    rcases hids with ⟨hid, rfl⟩
    refine ⟨entry.shipment, (hentries entry List.mem_cons_self).2, ?_⟩
    rw [hlane, ← hid]

theorem lane_accept_other (haccept : relay.accept group id record = .ok (targets, accepted))
    (hother : group.hasPassive name ≠ true) : accepted.lane name = relay.lane name := by
  rcases lane_accept haccept name with ⟨added, hlane, -, hadded⟩
  cases added with
  | nil => exact hlane.trans (List.append_nil _)
  | cons entry rest => exact absurd (hadded.2 (List.cons_ne_nil entry rest)) hother

theorem hasPassive_iff_mem_namesOf
    (haccept : relay.accept group id record = .ok (targets, accepted)) (name : String) :
    group.hasPassive name = true ↔ name ∈ namesOf targets := by
  rw [hasPassive_of_accept haccept, namesOf, List.mem_map]

def narrows (relay : Relay) (record : Record) (name : String) : Bool :=
  match relay.shipmentFor record name with
  | .ok shipment => shipment.isNarrowed
  | .error _ => false

theorem pruned_accept (haccept : relay.accept group id record = .ok (targets, accepted)) :
    ∀ target ∈ targets, target.pruned = relay.narrows record target.node.name := by
  rcases accept_eq_ok haccept with ⟨nodes, staged, -, hstaged, -, rfl, -⟩
  rcases relay.stage_ok record nodes with ⟨others, hothers, hentries⟩
  rw [hstaged] at hothers
  cases hothers
  intro target htarget
  rcases List.mem_map.1 htarget with ⟨entry, hentry, rfl⟩
  unfold narrows
  rw [hentries entry hentry]

/-!
## What becomes of the lanes
-/

theorem reason_laneReport (hcut : passives.reaches name = false)
    (hqueued : id ∈ accepted.backlog name) :
    reason id name (accepted.laneReport passives id name) = passives.refusal name := by
  unfold reason laneReport
  rw [hcut]
  unfold backlog at hqueued
  cases hlane : accepted.lane name with
  | nil =>
    rw [hlane] at hqueued
    cases hqueued
  | cons entry rest => rfl

theorem covered_laneReport (mode : RelayMode) (hqueued : id ∈ accepted.backlog name) :
    (other ∈ (accepted.laneReport passives id name).applied ∨
        (mode = .bestEffort ∧ (accepted.laneReport passives id name).stillQueued = true ∧
          other = id)) ↔
      if passives.reaches name = true then other ∈ accepted.backlog name
      else mode = .bestEffort ∧ other = id := by
  rw [stillQueued_laneReport]
  unfold laneReport
  cases passives.reaches name with
  | true => simp
  | false => simp [hqueued]

section LaneReports

variable (hqueued : ∀ target ∈ targets, id ∈ accepted.backlog target.node.name)

include hqueued

theorem stillQueued_laneReport_target (passives : Passives) :
    ∀ target ∈ targets, (accepted.laneReport passives id target.node.name).stillQueued =
      !passives.reaches target.node.name := by
  intro target htarget
  have hreport := stillQueued_laneReport accepted passives id target.node.name
  rw [Bool.eq_iff_iff, hreport, Bool.not_eq_true']
  exact and_iff_left (hqueued target htarget)

theorem acknowledgedBy_laneReports (passives : Passives) :
    acknowledgedBy (accepted.laneReports passives id targets) =
      (namesOf targets).filter passives.reaches := by
  unfold acknowledgedBy laneReports namesOf
  rw [List.filter_map, List.map_map, List.filter_map]
  refine congrArg (List.map _) (List.filter_congr fun target htarget => ?_)
  show (!(accepted.laneReport passives id target.node.name).stillQueued) = _
  rw [stillQueued_laneReport_target hqueued passives target htarget, Bool.not_not]
  rfl

theorem failedBy_laneReports (passives : Passives) :
    failedBy id (accepted.laneReports passives id targets) =
      ((namesOf targets).filter fun name => !passives.reaches name).map fun name =>
        failureText name (passives.refusal name) := by
  have hleft : targets.filter (fun target =>
        (accepted.laneReport passives id target.node.name).stillQueued) =
      targets.filter fun target => !passives.reaches target.node.name :=
    List.filter_congr (stillQueued_laneReport_target hqueued passives)
  calc
    _ = (targets.filter fun target =>
          (accepted.laneReport passives id target.node.name).stillQueued).map fun target =>
        failureText target.node.name (reason id target.node.name
          (accepted.laneReport passives id target.node.name)) := by
      unfold failedBy laneReports
      rw [List.filter_map, List.map_map]
      rfl
    _ = (targets.filter fun target => !passives.reaches target.node.name).map fun target =>
        failureText target.node.name (passives.refusal target.node.name) := by
      rw [hleft]
      apply List.map_congr_left
      intro target htarget
      rcases List.mem_filter.1 htarget with ⟨hmem, hcut⟩
      rw [reason_laneReport (Bool.not_eq_true' _ ▸ hcut) (hqueued target hmem)]
    _ = _ := by
      unfold namesOf
      rw [List.filter_map, List.map_map]
      rfl

theorem covers_laneReports (passives : Passives) (mode : RelayMode) :
    (∃ result ∈ accepted.laneReports passives id targets, Covers mode id result name other) ↔
      name ∈ namesOf targets ∧
        if passives.reaches name = true then other ∈ accepted.backlog name
        else mode = .bestEffort ∧ other = id := by
  constructor
  · rintro ⟨result, hresult, hname, hcovered⟩
    rcases List.mem_map.1 hresult with ⟨target, htarget, rfl⟩
    rw [← hname]
    exact ⟨List.mem_map_of_mem htarget,
      (covered_laneReport mode (hqueued target htarget)).1 hcovered⟩
  · rintro ⟨hname, hcovered⟩
    rcases List.mem_map.1 hname with ⟨target, htarget, rfl⟩
    exact ⟨_, List.mem_map_of_mem htarget, rfl,
      (covered_laneReport mode (hqueued target htarget)).2 hcovered⟩

end LaneReports

theorem prunedFor_laneReports
    (hpruned : ∀ target ∈ targets, target.pruned = relay.narrows record target.node.name) :
    prunedFor (accepted.laneReports passives id targets) =
      (namesOf targets).filter (relay.narrows record) := by
  unfold prunedFor laneReports namesOf
  rw [List.filter_map, List.map_map, List.filter_map]
  exact congrArg (List.map _) (List.filter_congr hpruned)

/-!
## The effect on everybody
-/

/-- Whether the ledger waits for passives only while the ids are in their lanes, and no lane has
an id behind the mark. -/
structure Owing (relay : Relay) : Prop where
  tidy : relay.ledger.Tidy
  queued : ∀ name other, name ∈ relay.ledger.waiting other → other ∈ relay.backlog name
  marked : ∀ name, ∀ other ∈ relay.backlog name, UpTo relay.lastQueued other

/-- All that a call does that queues a record for the passives of some names. -/
structure Effect (relay next : Relay) (passives later : Passives) (group : FailoverGroup)
    (record : Record) (id : GlobalId) (names : List String)
    (outcome : Except Failure RelayReport) : Prop where
  reached : ∀ name ∈ names, passives.reaches name = true → ∃ shipment,
    relay.shipmentFor record name = .ok shipment ∧
    later.deliveries name = passives.deliveries name ++
      (relay.lane name).map Queued.delivery ++ [⟨some id, shipment⟩] ∧
    next.lane name = []
  unreached : ∀ name ∈ names, passives.reaches name = false → ∃ shipment,
    relay.shipmentFor record name = .ok shipment ∧
    later.deliveries name = passives.deliveries name ∧
    next.lane name = relay.lane name ++ [⟨id, shipment⟩]
  others : ∀ name, name ∉ names →
    later.deliveries name = passives.deliveries name ∧ next.lane name = relay.lane name
  mark : next.lastQueued = some id
  pending : ∀ name, name ∈ next.ledger.pending id ↔
    relay.policy.mode = .sync ∧ name ∈ names ∧ passives.reaches name = false
  pendingOther : ∀ other, other ≠ id → ∀ name, name ∈ next.ledger.pending other ↔
    name ∈ relay.ledger.pending other ∧ ¬(name ∈ names ∧ passives.reaches name = true)
  failure : relay.policy.mode = .sync → (∃ name ∈ names, passives.reaches name = false) →
    outcome = .error (.notApplied id group.id (names.filter passives.reaches).length
      ((names.filter fun name => !passives.reaches name).map fun name =>
        failureText name (passives.refusal name)))
  /-- Otherwise it reports everybody in declared order, and the earlier ids that nobody owes any
  more, in ascending order. -/
  report : (relay.policy.mode = .sync → ∀ name ∈ names, passives.reaches name = true) →
    ∃ caughtUp : List GlobalId,
      outcome = .ok {
        id, caughtUp
        acknowledged := names.filter passives.reaches
        failed := (names.filter fun name => !passives.reaches name).map fun name =>
          failureText name (passives.refusal name)
        pruned := names.filter (relay.narrows record)
        released := true } ∧
      caughtUp.Pairwise (· < ·) ∧
      ∀ other, other ∈ caughtUp ↔
        other < id ∧ relay.ledger.pending other ≠ [] ∧ next.ledger.pending other = []

variable {drained : Relay} {later : Passives}

theorem Owing.inOrder (howing : relay.Owing) : relay.InOrder :=
  ⟨howing.tidy, howing.marked⟩

theorem inOrder_shipped {next : Relay} {names : List String} (horder : relay.InOrder)
    (hshipped : Shipped relay next passives later names) : next.InOrder := by
  constructor
  case tidy => exact hshipped.ledger ▸ horder.tidy
  case marked =>
    intro name other hother
    rw [backlog_shipped hshipped] at hother
    rw [hshipped.lastQueued]
    split at hother
    · cases hother
    · exact horder.marked name other hother

theorem not_owed (howing : relay.Owing)
    (haccept : relay.accept group id record = .ok (targets, accepted)) (name : String) :
    name ∉ relay.ledger.waiting id := by
  intro hname
  exact not_upTo (accept_lastQueued haccept).2
    (howing.marked name id (howing.queued name id hname))

theorem lane_settled (hshipped : Shipped accepted drained passives later (namesOf targets))
    (name : String) :
    (drained.settle group.id id (accepted.laneReports passives id targets)).2.lane name =
      if name ∈ namesOf targets ∧ passives.reaches name = true then [] else accepted.lane name := by
  rcases settle_relay drained group.id id (accepted.laneReports passives id targets) with
    ⟨ledger, hsettled, -, -⟩
  rw [hsettled]
  exact hshipped.lane name

theorem lastQueued_settled (haccept : relay.accept group id record = .ok (targets, accepted))
    (hshipped : Shipped accepted drained passives later (namesOf targets)) :
    (drained.settle group.id id (accepted.laneReports passives id targets)).2.lastQueued =
      some id := by
  rcases settle_relay drained group.id id (accepted.laneReports passives id targets) with
    ⟨ledger, hsettled, -, -⟩
  rw [hsettled]
  exact hshipped.lastQueued.trans (accept_lastQueued haccept).1

section Call

variable (hgroup : group.Consistent) (hnamed : group.Named) (howing : relay.Owing)
variable (haccept : relay.accept group id record = .ok (targets, accepted))
variable (hshipped : Shipped accepted drained passives later (namesOf targets))

include hgroup hnamed haccept howing hshipped

theorem mem_waiting_settled (name : String) (other : GlobalId) :
    name ∈ (drained.settle group.id id
        (accepted.laneReports passives id targets)).2.ledger.waiting other ↔
      (name ∈ relay.ledger.waiting other ∧
          ¬(name ∈ namesOf targets ∧ passives.reaches name = true)) ∨
        (other = id ∧ relay.policy.mode = .sync ∧ name ∈ namesOf targets ∧
          passives.reaches name = false) := by
  have hqueued := mem_backlog_accept haccept
  rcases settle_relay drained group.id id (accepted.laneReports passives id targets) with
    ⟨ledger, hsettled, hwaiting, -⟩
  rw [hsettled]
  show name ∈ ledger.waiting other ↔ _
  rw [hwaiting, covers_laneReports hqueued, hshipped.ledger, hshipped.policy,
    accept_policy haccept, mem_waiting_accept haccept, hasPassive_iff_mem_namesOf haccept]
  have hkept : name ∈ relay.ledger.waiting other → other ∈ accepted.backlog name := by
    intro hname
    exact (mem_backlog_of_accept hgroup hnamed haccept).2 (Or.inl (howing.queued name other hname))
  have hown : name ∈ namesOf targets → id ∈ accepted.backlog name := by
    intro hname
    rcases List.mem_map.1 hname with ⟨target, htarget, rfl⟩
    exact hqueued target htarget
  -- Whoever can be reached is covered by what its drain applied.  The others are covered for the
  -- id of the call only, and only if the call does not wait for them.
  constructor
  · rintro ⟨hbefore | ⟨rfl, hname⟩, huncovered⟩
    · left
      refine ⟨hbefore, ?_⟩
      rintro ⟨hname, hreached⟩
      apply huncovered
      rw [if_pos hreached]
      exact ⟨hname, hkept hbefore⟩
    · right
      cases hreaches : passives.reaches name with
      | true =>
        rw [if_pos hreaches] at huncovered
        exact absurd ⟨hname, hown hname⟩ huncovered
      | false =>
        rw [if_neg (by rw [hreaches]; exact Bool.false_ne_true)] at huncovered
        refine ⟨rfl, ?_, hname, rfl⟩
        cases hmode : relay.policy.mode with
        | sync => rfl
        | bestEffort => exact absurd ⟨hname, hmode, rfl⟩ huncovered
  · rintro (⟨hbefore, huncovered⟩ | ⟨rfl, hsync, hname, hcut⟩)
    · refine ⟨Or.inl hbefore, ?_⟩
      rintro ⟨hname, hcovered⟩
      split at hcovered
      · next hreached => exact huncovered ⟨hname, hreached⟩
      · exact not_owed howing haccept name (hcovered.2 ▸ hbefore)
    · refine ⟨Or.inr ⟨rfl, hname⟩, ?_⟩
      rintro ⟨-, hcovered⟩
      rw [hcut, if_neg Bool.false_ne_true, hsync] at hcovered
      cases hcovered.1

theorem owing_settled :
    (drained.settle group.id id (accepted.laneReports passives id targets)).2.Owing := by
  have horder := inOrder_settle (inOrder_shipped (inOrder_accept howing.inOrder haccept) hshipped)
    group.id id (accepted.laneReports passives id targets)
  constructor
  case tidy => exact horder.tidy
  case queued =>
    intro name other hname
    have hlane : ¬(name ∈ namesOf targets ∧ passives.reaches name = true) →
        (drained.settle group.id id (accepted.laneReports passives id targets)).2.backlog name =
          accepted.backlog name := by
      intro hnot
      unfold backlog
      rw [lane_settled hshipped, if_neg hnot]
    rcases (mem_waiting_settled hgroup hnamed howing haccept hshipped name other).1 hname with
      ⟨hbefore, hnot⟩ | ⟨rfl, -, hmine, hcut⟩
    · rw [hlane hnot, mem_backlog_of_accept hgroup hnamed haccept]
      exact Or.inl (howing.queued name other hbefore)
    · rcases List.mem_map.1 hmine with ⟨target, htarget, rfl⟩
      rw [hlane (by rw [hcut]; exact fun hboth => Bool.false_ne_true hboth.2)]
      exact mem_backlog_accept haccept target htarget
  case marked => exact horder.marked

theorem released_settled
    (hall : relay.policy.mode = .sync → ∀ name ∈ namesOf targets, passives.reaches name = true) :
    (drained.settle group.id id (accepted.laneReports passives id targets)).2.ledger.isSettled id =
      true := by
  rw [Ledger.isSettled_iff (owing_settled hgroup hnamed howing haccept hshipped).tidy]
  intro name hname
  rcases (mem_waiting_settled hgroup hnamed howing haccept hshipped name id).1 hname with
    ⟨hbefore, -⟩ | ⟨-, hsync, hmine, hcut⟩
  · exact not_owed howing haccept name hbefore
  · rw [hall hsync name hmine] at hcut
    cases hcut

theorem effect_settled :
    Effect relay (drained.settle group.id id (accepted.laneReports passives id targets)).2 passives
      later group record id (namesOf targets)
      (drained.settle group.id id (accepted.laneReports passives id targets)).1 := by
  have hwaiting := mem_waiting_settled hgroup hnamed howing haccept hshipped
  have hpassive := hasPassive_iff_mem_namesOf haccept
  have hqueued := mem_backlog_accept haccept
  rcases settle_report drained group.id id (accepted.laneReports passives id targets) with
    ⟨caughtUp, hascending, hcaughtUp, houtcome⟩
  rw [hshipped.policy, accept_policy haccept, acknowledgedBy_laneReports hqueued,
    failedBy_laneReports hqueued, prunedFor_laneReports (pruned_accept haccept)] at houtcome
  constructor
  case reached =>
    intro name hname hreached
    rcases lane_accept_passive hgroup hnamed haccept ((hpassive name).2 hname) with
      ⟨shipment, hshipment, hlane⟩
    refine ⟨shipment, hshipment, ?_, ?_⟩
    · rw [hshipped.delivered, if_pos ⟨hname, hreached⟩, hlane, List.map_append, List.append_assoc]
      rfl
    · rw [lane_settled hshipped, if_pos ⟨hname, hreached⟩]
  case unreached =>
    intro name hname hcut
    rcases lane_accept_passive hgroup hnamed haccept ((hpassive name).2 hname) with
      ⟨shipment, hshipment, hlane⟩
    have hnot : ¬(name ∈ namesOf targets ∧ passives.reaches name = true) := by
      rw [hcut]
      exact fun hboth => Bool.false_ne_true hboth.2
    refine ⟨shipment, hshipment, ?_, ?_⟩
    · rw [hshipped.delivered, if_neg hnot, List.append_nil]
    · rw [lane_settled hshipped, if_neg hnot, hlane]
  case others =>
    intro name hother
    have hnot : ¬(name ∈ namesOf targets ∧ passives.reaches name = true) :=
      fun hboth => hother hboth.1
    constructor
    · rw [hshipped.delivered, if_neg hnot, List.append_nil]
    · rw [lane_settled hshipped, if_neg hnot]
      exact lane_accept_other haccept fun hname => hother ((hpassive name).1 hname)
  case mark =>
    exact lastQueued_settled haccept hshipped
  case pending =>
    intro name
    rw [Ledger.mem_pending_iff, hwaiting]
    constructor
    · -- Nobody owed the id before the call.
      rintro (⟨hbefore, -⟩ | ⟨-, hnew⟩)
      · exact absurd hbefore (not_owed howing haccept name)
      · exact hnew
    · exact fun hnew => Or.inr ⟨rfl, hnew⟩
  case pendingOther =>
    intro other hother name
    rw [Ledger.mem_pending_iff, Ledger.mem_pending_iff, hwaiting]
    exact or_iff_left fun hsame => hother hsame.1
  case failure =>
    intro hsync hcut
    rcases hcut with ⟨name, hname, hcut⟩
    have hfailed : name ∈ (namesOf targets).filter fun name => !passives.reaches name :=
      List.mem_filter.2 ⟨hname, by rw [hcut]; rfl⟩
    rw [houtcome]
    exact if_pos ⟨hsync, List.ne_nil_of_mem (List.mem_map_of_mem hfailed)⟩
  case report =>
    intro hall
    have hsuccess : ¬(relay.policy.mode = .sync ∧
        ((namesOf targets).filter fun name => !passives.reaches name).map (fun name =>
          failureText name (passives.refusal name)) ≠ []) := by
      rintro ⟨hsync, hfailed⟩
      apply hfailed
      rw [List.map_eq_nil_iff, List.filter_eq_nil_iff]
      intro name hname
      rw [hall hsync name hname]
      exact Bool.false_ne_true
    rw [if_neg hsuccess] at houtcome
    rw [released_settled hgroup hnamed howing haccept hshipped hall] at houtcome
    refine ⟨caughtUp, houtcome, hascending, fun other => ?_⟩
    rw [hcaughtUp, Ledger.pending_eq_nil_iff, hshipped.ledger, Ne, Ledger.pending_eq_nil_iff]
    apply and_congr_right
    intro hlt
    apply and_congr_left
    intro _
    simp only [mem_waiting_accept haccept, GlobalId.ne_of_lt hlt, false_and, or_false,
      Classical.not_forall, Classical.not_not]

end Call

/-!
## What keeps the ledger and the lanes together
-/

theorem owing_new (policy : RelayPolicy) : Owing { policy } := by
  refine ⟨Ledger.tidy_empty, fun name other hname => ?_, fun name other hother => ?_⟩
  · cases hname
  · cases hother

theorem owing_follow (howing : relay.Owing) (change : MemberChange) :
    (relay.follow change).2.Owing := by
  have horder := inOrder_follow howing.inOrder change
  constructor
  case tidy => exact horder.tidy
  case queued =>
    intro name other hname
    rcases mem_waiting_follow.1 hname with ⟨hbefore, hstays⟩
    unfold backlog
    rw [lane_follow, if_neg hstays]
    exact howing.queued name other hbefore
  case marked => exact horder.marked

end Relay

namespace Cluster

variable {cluster : Cluster} {event : Event} {events : List Event} {group : FailoverGroup}
variable {policy : RelayPolicy} {id : GlobalId} {transaction : Sequenced} {nodes : List Node}

theorem owing_step (hsound : cluster.Sound) (howing : cluster.relay.Owing) (event : Event) :
    (cluster.step event).relay.Owing := by
  cases event with
  | relay transaction =>
    cases hadmits : cluster.relay.admits? cluster.group transaction with
    | none =>
      rcases Relay.relay_refused cluster.passives hadmits with ⟨outcome, hrelay⟩
      rw [step_relay hrelay]
      exact howing
    | some id =>
      rcases Relay.relay_eq cluster.passives hsound.consistent hsound.named hadmits with
        ⟨targets, accepted, drained, elapsed, later, haccept, hshipped, hrelay⟩
      rw [step_relay hrelay]
      exact Relay.owing_settled hsound.consistent hsound.named howing haccept hshipped
  | register name | isolate name cut | operate operation => exact howing
  | declareHeld name objects | widenHeld name objects =>
    exact ⟨howing.tidy, howing.queued, howing.marked⟩
  | follow change => exact Relay.owing_follow howing change

theorem owing_run (hsound : cluster.Sound) (howing : cluster.relay.Owing)
    (hfits : ∀ event ∈ events, event.Fits) : (cluster.run events).relay.Owing := by
  induction events generalizing cluster with
  | nil => exact howing
  | cons event rest ih =>
    rw [List.forall_mem_cons] at hfits
    exact ih (sound_step hsound hfits.1) (owing_step hsound howing event) hfits.2

/-- In every state that is reached by events one after another, a call for a complete group with
an id behind all earlier ones has its full effect. -/
theorem relay_effect (hgroup : group.Consistent) (hnamed : group.Named)
    (hnetworked : group.isNetworked = true) (hfits : ∀ event ∈ events, event.Fits)
    (hcomplete : ((opened group policy).run events).group.passives = .ok nodes)
    (hid : transaction.globalId = some id)
    (hbehind : ∀ last, ((opened group policy).run events).relay.lastQueued = some last →
      last < id) :
    let before := (opened group policy).run events
    let after := before.step (.relay transaction)
    Relay.Effect before.relay after.relay before.passives after.passives before.group
      transaction.record id (nodes.map Node.name) (before.outcome transaction) := by
  intro before after
  have hopened := opened_sound policy hgroup hnamed
  have hsound := sound_run hopened hfits
  have howing : before.relay.Owing := owing_run hopened (Relay.owing_new policy) hfits
  have hnetwork : before.group.isNetworked = true := by
    rw [FailoverGroup.isNetworked, ha_run]
    exact hnetworked
  rcases (Relay.accept_ok_iff before.relay before.group id transaction.record).2
    ⟨⟨nodes, hcomplete⟩, hbehind⟩ with ⟨⟨_, _⟩, haccepted⟩
  have hadmits : before.relay.admits? before.group transaction = some id := by
    unfold Relay.admits?
    simp only [hid, hnetwork, haccepted, Bool.not_true, Bool.false_eq_true, if_false]
  rcases Relay.relay_eq before.passives hsound.consistent hsound.named hadmits with
    ⟨targets, accepted, drained, elapsed, later, haccept, hshipped, hrelay⟩
  have hnames : nodes.map Node.name = Relay.namesOf targets := by
    rw [Relay.accept_targets haccept] at hcomplete
    cases hcomplete
    rw [List.map_map]
    rfl
  have hafter : after = { before with relay := _, passives := later } := step_relay hrelay
  have houtcome : before.outcome transaction = _ := congrArg Prod.fst hrelay
  rw [hafter, houtcome, hnames]
  exact Relay.effect_settled hsound.consistent hsound.named howing haccept hshipped

/-- One passive misses two records until its link is restored. -/
def interruption : List Event :=
  [.register "b", .register "c", .isolate "b" true, .relay (.bare ⟨1⟩), .relay (.bare ⟨2⟩),
    .isolate "b" false]

theorem effect_after_interruption :
    let before := (opened FailoverGroup.trio {}).run interruption
    let after := before.step (.relay (.bare ⟨3⟩))
    before.relay.ledger.pending ⟨1⟩ = ["b"] ∧ after.received "b" = [⟨1⟩, ⟨2⟩, ⟨3⟩] ∧
      Relay.Effect before.relay after.relay before.passives after.passives before.group
        (Sequenced.bare ⟨3⟩).record ⟨3⟩ ["b", "c"] (before.outcome (.bare ⟨3⟩)) ∧
      ∃ report, before.outcome (.bare ⟨3⟩) = .ok report ∧ ⟨1⟩ ∈ report.caughtUp := by
  intro before after
  rcases FailoverGroup.trio_consistent with ⟨hconsistent, hnamed⟩
  have hfits : ∀ event ∈ interruption, event.Fits := by
    simp [interruption, Event.Fits]
  have hcomplete : before.group.passives =
      .ok [FailoverGroup.resident "b", FailoverGroup.resident "c"] := rfl
  have hbehind : ∀ last, before.relay.lastQueued = some last → last < ⟨3⟩ := by
    intro last hlast
    cases hlast
    decide
  have hid : (Sequenced.bare ⟨3⟩).globalId = some ⟨3⟩ := rfl
  have heffect := relay_effect hconsistent hnamed rfl hfits hcomplete hid hbehind
  have hreached : ∀ name ∈ ["b", "c"], before.passives.reaches name = true := by
    decide +kernel
  have hpending : before.relay.ledger.pending ⟨1⟩ = ["b"] := by
    decide +kernel
  have hreleased : after.relay.ledger.pending ⟨1⟩ = [] := by
    decide +kernel
  refine ⟨hpending, by decide +kernel, heffect, ?_⟩
  rcases heffect.report fun _ => hreached with ⟨caughtUp, houtcome, -, hcaughtUp⟩
  refine ⟨_, houtcome, (hcaughtUp ⟨1⟩).2 ⟨by decide, ?_, hreleased⟩⟩
  rw [hpending]
  exact List.cons_ne_nil "b" []

end Cluster
end SharedGraph
