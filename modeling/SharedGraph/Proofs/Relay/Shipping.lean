import SharedGraph.Proofs.Record.Numbering
import SharedGraph.Proofs.Relay.Carrying
import SharedGraph.Proofs.Relay.Holding

/-!
# Shipping to passives in memory

A passive in memory that is registered and not cut off takes all that its lane holds; any
other takes nothing.  So one relay call moves whole lanes: what a passive has received and
what is queued for it are together the same before and after, but for the record that the
call queues.
-/

namespace SharedGraph

theorem Passives.laterOf_some (first : Option GlobalId) (second : GlobalId) :
    ∃ later, laterOf first (some second) = some later ∧ second ≤ later ∧
      (∀ id, first = some id → id ≤ later) ∧ (later = second ∨ first = some later) := by
  cases first with
  | none => exact ⟨second, rfl, GlobalId.le_refl _, nofun, .inl rfl⟩
  | some first =>
    unfold laterOf
    by_cases hle : first ≤ second
    · refine ⟨second, by simp [hle], GlobalId.le_refl _, fun id hid => ?_, .inl rfl⟩
      cases hid
      exact hle
    · refine ⟨first, by simp [hle], GlobalId.le_of_lt (GlobalId.not_le.1 hle), fun id hid => ?_,
        .inr rfl⟩
      cases hid
      exact GlobalId.le_refl _

namespace Passives

variable {passives next : Passives} {name passive : String}

def received (passives : Passives) (name : String) : List GlobalId :=
  match passives.byName.get? name with
  | none => []
  | some passive => passive.inbox.filterMap Delivery.globalId

def deliveries (passives : Passives) (name : String) : List Delivery :=
  match passives.byName.get? name with
  | none => []
  | some passive => passive.inbox

def reaches (passives : Passives) (name : String) : Bool :=
  match passives.byName.get? name with
  | none => false
  | some passive => !passive.partitioned

def refusal (passives : Passives) (name : String) : Failure :=
  match passives.byName.get? name with
  | none => .notRegistered name
  | some _ => .partitioned name

/-- Whether the same passives can be reached, and the others refuse for the same reasons. -/
def SameLinks (first second : Passives) : Prop :=
  ∀ passive, second.reaches passive = first.reaches passive ∧
    second.refusal passive = first.refusal passive

/-- Where a numbering goes on when a passive takes over. -/
def resume (passives : Passives) (name : String) (numbering : Numbering) : Numbering :=
  match passives.latest name with
  | .ok (some seen) => numbering.resumeAfter seen
  | .ok none | .error _ => numbering

/-!
## What a passive has received
-/

theorem foldl_laterOf (inbox : List Delivery) (before : Option GlobalId) :
    (inbox.filterMap Delivery.globalId = [] ∧
        inbox.foldl (fun last delivery => laterOf last delivery.globalId) before = before) ∨
      ∃ latest, inbox.foldl (fun last delivery => laterOf last delivery.globalId) before =
          some latest ∧
        (latest ∈ inbox.filterMap Delivery.globalId ∨ before = some latest) ∧
        (∀ id, before = some id → id ≤ latest) ∧
        ∀ id ∈ inbox.filterMap Delivery.globalId, id ≤ latest := by
  induction inbox generalizing before with
  | nil => exact .inl ⟨rfl, rfl⟩
  | cons delivery rest ih =>
    rw [List.foldl_cons]
    cases hid : delivery.globalId with
    | none =>
      have hsame : laterOf before none = before := by cases before <;> rfl
      rw [hsame, List.filterMap_cons_none hid]
      exact ih before
    | some id =>
      rw [List.filterMap_cons_some hid]
      obtain ⟨later, hlater, hle, hbefore, hone⟩ := laterOf_some before id
      rw [hlater]
      rcases ih (some later) with ⟨hnone, hkept⟩ | ⟨latest, hlatest, hmem, hleast, hgreatest⟩
      · refine .inr ⟨later, hkept, ?_, hbefore, ?_⟩
        · exact hone.imp_left fun hsame : later = id => hsame ▸ List.mem_cons_self
        · intro other hother
          rw [hnone, List.mem_singleton] at hother
          exact hother ▸ hle
      · have hbelow : later ≤ latest := hleast later rfl
        refine .inr ⟨latest, hlatest, ?_, fun other hother => ?_, fun other hother => ?_⟩
        · rcases hmem with hrest | hsame
          · exact .inl (List.mem_cons_of_mem _ hrest)
          · cases hsame
            exact hone.imp_left fun hsame : later = id => hsame ▸ List.mem_cons_self
        · exact GlobalId.le_trans (hbefore other hother) hbelow
        · rcases List.mem_cons.1 hother with rfl | hrest
          · exact GlobalId.le_trans hle hbelow
          · exact hgreatest other hrest

theorem latest_cases (passives : Passives) (name : String) :
    (passives.received name = [] ∧ ∀ seen, passives.latest name ≠ .ok (some seen)) ∨
      ∃ seen, passives.latest name = .ok (some seen) ∧ seen ∈ passives.received name ∧
        ∀ id ∈ passives.received name, id ≤ seen := by
  unfold latest inbox received
  cases passives.byName.get? name with
  | none => exact .inl ⟨rfl, nofun⟩
  | some passive =>
    rcases foldl_laterOf passive.inbox none with
      ⟨hnone, hkept⟩ | ⟨seen, hseen, hmem, -, hgreatest⟩
    · refine .inl ⟨hnone, fun seen hsame => ?_⟩
      simp only [Except.map, hkept] at hsame
      cases hsame
    · refine .inr ⟨seen, congrArg Except.ok hseen, hmem.resolve_right nofun, hgreatest⟩

theorem resume_cases (passives : Passives) (name : String) (numbering : Numbering) :
    (passives.received name = [] ∧ passives.resume name numbering = numbering) ∨
      ∃ seen, passives.latest name = .ok (some seen) ∧ seen ∈ passives.received name ∧
        (∀ id ∈ passives.received name, id ≤ seen) ∧
        passives.resume name numbering = numbering.resumeAfter seen := by
  unfold resume
  rcases passives.latest_cases name with ⟨hnone, hunseen⟩ | ⟨seen, hseen, hmem, hall⟩
  · refine .inl ⟨hnone, ?_⟩
    split
    · next seen hseen => exact absurd hseen (hunseen seen)
    · rfl
    · rfl
  · refine .inr ⟨seen, hseen, hmem, hall, ?_⟩
    rw [hseen]

theorem received_eq (passives : Passives) (name : String) :
    passives.received name = (passives.deliveries name).filterMap Delivery.globalId := by
  unfold received deliveries
  cases passives.byName.get? name <;> rfl

theorem deliveries_insert (entry : Passive) :
    deliveries ⟨passives.byName.insert name entry⟩ passive =
      if passive = name then entry.inbox else passives.deliveries passive := by
  unfold deliveries
  rw [SortedMap.get?_insert]
  by_cases hsame : passive = name
  · simp [hsame]
  · simp [hsame]

theorem deliveries_register (hok : passives.register name = .ok next) :
    next.deliveries passive = passives.deliveries passive := by
  unfold register at hok
  split at hok
  · cases hok
  · split at hok
    · cases hok
      rfl
    · next hnew =>
      cases hok
      rw [deliveries_insert]
      split
      · next hsame =>
        have hnone : passives.byName.get? name = none := by
          simpa [SortedMap.contains] using hnew
        rw [hsame, deliveries, hnone]
      · rfl

theorem deliveries_isolate {cut : Bool} (hok : passives.isolate name cut = .ok next) :
    next.deliveries passive = passives.deliveries passive := by
  unfold isolate at hok
  split at hok
  · cases hok
  · next found hfound =>
    cases hok
    rw [deliveries_insert]
    split
    · next hsame => rw [hsame, deliveries, hfound]
    · rfl

theorem received_register (hok : passives.register name = .ok next) :
    next.received passive = passives.received passive := by
  rw [received_eq, received_eq, deliveries_register hok]

theorem received_isolate {cut : Bool} (hok : passives.isolate name cut = .ok next) :
    next.received passive = passives.received passive := by
  rw [received_eq, received_eq, deliveries_isolate hok]

/-!
## One delivery
-/

theorem deliver_unreached (hcut : passives.reaches name = false) (delivery : Delivery) :
    passives.deliver name delivery = (.error (passives.refusal name), passives) := by
  unfold reaches at hcut
  unfold deliver refusal
  cases hfound : passives.byName.get? name with
  | none => rfl
  | some found =>
    have hpartitioned : found.partitioned = true := by simpa [hfound] using hcut
    exact if_pos hpartitioned

theorem deliver_reached (hreached : passives.reaches name = true) (delivery : Delivery) :
    ∃ next, passives.deliver name delivery = (.ok (), next) ∧
      (∀ passive, next.deliveries passive =
        passives.deliveries passive ++ if passive = name then [delivery] else []) ∧
      SameLinks passives next := by
  unfold reaches at hreached
  cases hfound : passives.byName.get? name with
  | none => simp [hfound] at hreached
  | some found =>
    have hlinked : found.partitioned = false := by simpa [hfound] using hreached
    refine ⟨⟨passives.byName.insert name
      { found with inbox := found.inbox ++ [delivery] }⟩, ?_, ?_, ?_⟩
    · rw [deliver, hfound]
      simp [hlinked]
    · intro passive
      rw [deliveries_insert]
      by_cases hsame : passive = name
      · simp [hsame, deliveries, hfound]
      · simp [hsame]
    · intro passive
      unfold reaches refusal
      rw [SortedMap.get?_insert]
      by_cases hsame : passive = name
      · simp [hsame, hfound]
      · simp [hsame]

/-!
## One shipment and one lane
-/

variable {node : Node} {limit : UInt64}

theorem ship_eq (delivery : Delivery) :
    Transport.ship node delivery limit passives =
      ((passives.deliver node.name delivery).1, 0, (passives.deliver node.name delivery).2) := by
  have hdispatch : Transport.dispatch node delivery passives = (.arrives 0, passives) := rfl
  have harrive : Transport.arrive node delivery passives = passives.deliver node.name delivery :=
    rfl
  unfold Transport.ship
  simp only [hdispatch, harrive, Nat.zero_le, if_true]

theorem drainLane_reached (limit : UInt64) (queue : List Queued)
    (hreached : passives.reaches node.name = true) :
    ∃ next, Relay.drainLane node limit queue passives =
        (queue.map Queued.id, [], none, 0, next) ∧
      (∀ passive, next.deliveries passive = passives.deliveries passive ++
        if passive = node.name then queue.map Queued.delivery else []) ∧
      SameLinks passives next := by
  induction queue generalizing passives with
  | nil => exact ⟨passives, rfl, fun _ => by simp, fun _ => ⟨rfl, rfl⟩⟩
  | cons entry rest ih =>
    rcases deliver_reached hreached entry.delivery with ⟨later, hdeliver, hreceived, hlinks⟩
    have hship : Transport.ship node entry.delivery limit passives = (.ok (), 0, later) := by
      rw [ship_eq, hdeliver]
    rcases ih ((hlinks _).1.trans hreached) with ⟨next, hrest, hafter, hstill⟩
    refine ⟨next, ?_, ?_, ?_⟩
    · rw [Relay.drainLane, hship]
      simp only [hrest, List.map_cons]
    · intro passive
      rw [hafter, hreceived]
      by_cases hsame : passive = node.name
      · simp [hsame]
      · simp [hsame]
    · intro passive
      exact ⟨(hstill passive).1.trans (hlinks passive).1,
        (hstill passive).2.trans (hlinks passive).2⟩

theorem drainLane_unreached (limit : UInt64) (queue : List Queued)
    (hcut : passives.reaches node.name = false) :
    Relay.drainLane node limit queue passives =
      ([], queue, queue.head?.map fun _ => passives.refusal node.name, 0, passives) := by
  cases queue with
  | nil => rfl
  | cons entry rest =>
    rw [Relay.drainLane, ship_eq, deliver_unreached hcut]
    rfl

end Passives
namespace Relay

variable {relay next last : Relay} {passives later final : Passives} {names others : List String}
variable {id : GlobalId}

/-!
## Several lanes
-/

/-- What draining the lanes of some passives comes to: those that can be reached get all
that is queued for them, and nothing else changes. -/
structure Shipped (relay next : Relay) (passives later : Passives) (names : List String) :
    Prop where
  lane : ∀ passive, next.lane passive =
    if passive ∈ names ∧ passives.reaches passive = true then [] else relay.lane passive
  delivered : ∀ passive, later.deliveries passive = passives.deliveries passive ++
    if passive ∈ names ∧ passives.reaches passive = true then
      (relay.lane passive).map Queued.delivery
    else []
  links : Passives.SameLinks passives later
  ledger : next.ledger = relay.ledger
  policy : next.policy = relay.policy
  lastQueued : next.lastQueued = relay.lastQueued

theorem shipped_nil : Shipped relay relay passives passives [] where
  lane _ := by simp
  delivered _ := by simp
  links _ := ⟨rfl, rfl⟩
  ledger := rfl
  policy := rfl
  lastQueued := rfl

theorem backlog_shipped (hshipped : Shipped relay next passives later names) (passive : String) :
    next.backlog passive =
      if passive ∈ names ∧ passives.reaches passive = true then [] else relay.backlog passive := by
  unfold backlog
  rw [hshipped.lane]
  split <;> rfl

theorem received_shipped (hshipped : Shipped relay next passives later names)
    (passive : String) : later.received passive = passives.received passive ++
      if passive ∈ names ∧ passives.reaches passive = true then relay.backlog passive else [] := by
  rw [Passives.received_eq, Passives.received_eq, hshipped.delivered, List.filterMap_append]
  split
  · rw [List.filterMap_map]
    exact congrArg _ (congrFun List.filterMap_eq_map (relay.lane passive))
  · rfl

theorem shipped_append (hfirst : Shipped relay next passives later names)
    (hsecond : Shipped next last later final others) :
    Shipped relay last passives final (names ++ others) where
  lane passive := by
    rw [hsecond.lane, hfirst.lane, (hfirst.links passive).1]
    by_cases hname : passive ∈ names <;> by_cases hother : passive ∈ others <;>
      by_cases hreached : passives.reaches passive = true <;> simp [hname, hother, hreached]
  delivered passive := by
    rw [hsecond.delivered, hfirst.delivered, hfirst.lane, (hfirst.links passive).1]
    by_cases hname : passive ∈ names <;> by_cases hother : passive ∈ others <;>
      by_cases hreached : passives.reaches passive = true <;> simp [hname, hother, hreached]
  links passive := ⟨(hsecond.links passive).1.trans (hfirst.links passive).1,
    (hsecond.links passive).2.trans (hfirst.links passive).2⟩
  ledger := hsecond.ledger.trans hfirst.ledger
  policy := hsecond.policy.trans hfirst.policy
  lastQueued := hsecond.lastQueued.trans hfirst.lastQueued

def laneReport (relay : Relay) (passives : Passives) (id : GlobalId) (name : String) :
    LaneReport :=
  if passives.reaches name then { applied := relay.backlog name }
  else
    { failure := (relay.lane name).head?.map fun _ => passives.refusal name
      stillQueued := (relay.lane name).any fun entry => entry.id == id }

def laneReports (relay : Relay) (passives : Passives) (id : GlobalId)
    (targets : List RelayTarget) : List (RelayTarget × LaneReport) :=
  targets.map fun target => (target, relay.laneReport passives id target.node.name)

theorem stillQueued_laneReport (relay : Relay) (passives : Passives) (id : GlobalId)
    (name : String) :
    (relay.laneReport passives id name).stillQueued = true ↔
      passives.reaches name = false ∧ id ∈ relay.backlog name := by
  unfold laneReport
  cases passives.reaches name with
  | true => simp
  | false => simp [backlog]

theorem drain_shipped (relay : Relay) (id : GlobalId) (node : Node) (passives : Passives) :
    ∃ next elapsed later, relay.drain id node passives =
        (relay.laneReport passives id node.name, next, elapsed, later) ∧
      Shipped relay next passives later [node.name] := by
  unfold drain laneReport
  cases hreaches : passives.reaches node.name with
  | true =>
    rcases Passives.drainLane_reached relay.policy.shipLimit (relay.lane node.name) hreaches with
      ⟨later, hdrained, hdelivered, hsame⟩
    rw [hdrained]
    refine ⟨_, _, later, rfl, ?_, ?_, hsame, rfl, rfl, rfl⟩
    · intro passive
      rw [lane_insert]
      by_cases hmine : passive = node.name
      · simp [hmine, hreaches]
      · simp [hmine, lane]
    · intro passive
      rw [hdelivered]
      by_cases hmine : passive = node.name
      · simp [hmine, hreaches]
      · simp [hmine]
  | false =>
    rw [Passives.drainLane_unreached relay.policy.shipLimit (relay.lane node.name) hreaches]
    refine ⟨_, _, passives, rfl, ?_, ?_, fun _ => ⟨rfl, rfl⟩, rfl, rfl, rfl⟩
    · intro passive
      rw [lane_insert]
      by_cases hmine : passive = node.name
      · simp [hmine, hreaches]
      · simp [hmine, lane]
    · intro passive
      by_cases hmine : passive = node.name
      · simp [hmine, hreaches]
      · simp [hmine]

theorem laneReport_shipped (hshipped : Shipped relay next passives later names) {name : String}
    (hother : name ∉ names) (id : GlobalId) :
    next.laneReport later id name = relay.laneReport passives id name := by
  have hlane : next.lane name = relay.lane name := by
    rw [hshipped.lane, if_neg fun hmem => hother hmem.1]
  unfold laneReport backlog
  rw [hlane, (hshipped.links name).1, (hshipped.links name).2]

/-- Whoever can be reached gets all that is queued for it, and the lanes of the others keep what
they hold.  Targets of one name share a lane, and who comes later finds it empty or as it was;
otherwise each report is that of the lane alone. -/
theorem drainAll_shipped (id : GlobalId) (targets : List RelayTarget) (relay : Relay)
    (busy : SortedMap String Nat) (passives : Passives) :
    ∃ results next total later,
      relay.drainAll id targets busy passives = (results, next, total, later) ∧
      results.map Prod.fst = targets ∧
      (∀ result ∈ results, result.2.stillQueued = true ↔
        passives.reaches result.1.node.name = false ∧ id ∈ relay.backlog result.1.node.name) ∧
      ((targets.map fun target => target.node.name).Nodup →
        results = relay.laneReports passives id targets) ∧
      Shipped relay next passives later (targets.map fun target => target.node.name) := by
  induction targets generalizing relay busy passives with
  | nil =>
    exact ⟨[], relay, busy, passives, rfl, rfl, fun _ hnone => absurd hnone List.not_mem_nil,
      fun _ => rfl, shipped_nil⟩
  | cons target rest ih =>
    rcases drain_shipped relay id target.node passives with ⟨next, elapsed, later, hdrain, hfirst⟩
    rcases ih next (busy.insert target.node.name
      ((busy.get? target.node.name).getD 0 + elapsed)) later with
      ⟨others, last, total, final, hrest, htargets, hqueued, hreports, hsecond⟩
    refine ⟨(target, relay.laneReport passives id target.node.name) :: others, last, total, final,
      ?_, ?_, ?_, ?_, shipped_append hfirst hsecond⟩
    · simp only [drainAll, hdrain, hrest]
    · rw [List.map_cons, htargets]
    · refine List.forall_mem_cons.2 ⟨stillQueued_laneReport relay passives id _, ?_⟩
      intro result hresult
      rw [hqueued result hresult, (hfirst.links result.1.node.name).1]
      refine and_congr_right fun hcut => ?_
      rw [backlog_shipped hfirst, hcut, if_neg]
      exact fun hreached => Bool.false_ne_true hreached.2
    · intro hnodup
      rw [List.map_cons, List.nodup_cons] at hnodup
      have hapart : ∀ other ∈ rest, next.laneReport later id other.node.name =
          relay.laneReport passives id other.node.name := by
        intro other hother
        apply laneReport_shipped hfirst
        rw [List.mem_singleton]
        intro hsame
        exact hnodup.1 (hsame ▸ List.mem_map_of_mem hother)
      rw [hreports hnodup.2, laneReports, laneReports, List.map_cons]
      rw [List.map_congr_left fun other hother => congrArg (Prod.mk other) (hapart other hother)]

/-!
## A whole call
-/

variable {group : FailoverGroup} {transaction : Sequenced}

theorem relay_eq (passives : Passives) (hgroup : group.Consistent) (hnamed : group.Named)
    (hadmits : relay.admits? group transaction = some id) :
    ∃ targets accepted drained elapsed later,
      relay.accept group id transaction.record = .ok (targets, accepted) ∧
      Shipped accepted drained passives later (targets.map fun target => target.node.name) ∧
      relay.relay group transaction passives =
        ((drained.settle group.id id (accepted.laneReports passives id targets)).1,
          (drained.settle group.id id (accepted.laneReports passives id targets)).2, elapsed,
          later) := by
  rcases admits?_eq_some hadmits with ⟨hid, hnetworked, targets, accepted, haccept⟩
  rcases drainAll_shipped id targets accepted ∅ passives with
    ⟨results, drained, total, later, hdrained, -, -, hreports, hshipped⟩
  rw [hreports (nodup_targets_of_accept hgroup hnamed haccept)] at hdrained
  refine ⟨targets, accepted, drained, (total.toList.map Prod.snd).foldl max 0, later, haccept,
    hshipped, ?_⟩
  unfold Relay.relay
  simp only [hid, hnetworked, haccept, hdrained, Bool.not_true, Bool.false_eq_true, if_false]

/-- A call that queues its record ships what it can, and a synchronous one succeeds exactly
if every passive can be reached. -/
theorem relay_admitted (passives : Passives) (hgroup : group.Consistent) (hnamed : group.Named)
    (hadmits : relay.admits? group transaction = some id) :
    ∃ outcome next elapsed later,
      relay.relay group transaction passives = (outcome, next, elapsed, later) ∧
      (∀ passive, later.received passive = passives.received passive ++
        if group.hasPassive passive = true ∧ passives.reaches passive = true then
          relay.backlog passive ++ relay.queuesFor group transaction passive
        else []) ∧
      (∀ passive, next.backlog passive =
        if group.hasPassive passive = true ∧ passives.reaches passive = true then []
        else relay.backlog passive ++ relay.queuesFor group transaction passive) ∧
      next.policy = relay.policy ∧ next.lastQueued = some id ∧
      (relay.policy.mode = .sync → ((∃ report, outcome = .ok report) ↔
        ∀ passive, group.hasPassive passive = true → passives.reaches passive = true)) := by
  rcases relay_eq passives hgroup hnamed hadmits with
    ⟨targets, accepted, drained, elapsed, later, haccept, hshipped, hrelay⟩
  have hpassive : ∀ passive, group.hasPassive passive = true ↔
      passive ∈ targets.map fun target => target.node.name := by
    intro passive
    rw [hasPassive_of_accept haccept, List.mem_map]
  have hqueued : ∀ passive, accepted.backlog passive =
      relay.backlog passive ++ relay.queuesFor group transaction passive := by
    intro passive
    rw [backlog_accept hgroup hnamed haccept, queuesFor, hadmits]
    rfl
  rcases settle_relay drained group.id id (accepted.laneReports passives id targets) with
    ⟨ledger, hsettled, -⟩
  refine ⟨_, _, elapsed, later, hrelay, fun passive => ?_, fun passive => ?_, ?_, ?_,
    fun hsync => ?_⟩
  · rw [← hqueued]
    simp only [hpassive]
    exact received_shipped hshipped passive
  · rw [← hqueued, hsettled]
    simp only [hpassive]
    exact backlog_shipped hshipped passive
  · rw [hsettled]
    exact hshipped.policy.trans (accept_policy haccept)
  · rw [hsettled]
    exact hshipped.lastQueued.trans (accept_lastQueued haccept).1
  · have hmode : drained.policy.mode = .sync := by
      rw [hshipped.policy, accept_policy haccept, hsync]
    rw [settle_isOk_iff hmode, laneReports, List.forall_mem_map]
    constructor
    · -- The call has queued its own id for everybody, so a lane that is not shipped holds it.
      intro hnone passive hmine
      rcases List.mem_map.1 ((hpassive passive).1 hmine) with ⟨target, htarget, rfl⟩
      have hown : id ∈ accepted.backlog target.node.name := by
        rw [hqueued, queuesFor, hmine, hadmits]
        simp
      have hreport := stillQueued_laneReport accepted passives id target.node.name
      rw [hnone target htarget] at hreport
      simpa [hown] using hreport
    · intro hall target htarget
      have hreached := hall _ ((hpassive _).2 (List.mem_map_of_mem htarget))
      rw [← Bool.not_eq_true, stillQueued_laneReport, hreached]
      simp

theorem relay_outOfOrder_iff (hid : transaction.globalId = some id) :
    (∃ own last, (relay.relay group transaction passives).1 =
        .error (.relayedOutOfOrder own last)) ↔
      group.isNetworked = true ∧ (∃ nodes, group.passives = .ok nodes) ∧
        ∃ last, relay.lastQueued = some last ∧ id ≤ last := by
  rw [← accept_outOfOrder_iff relay group id transaction.record]
  unfold Relay.relay
  cases hnetworked : group.isNetworked with
  | false => simp [hid]
  | true =>
    simp only [hid, Bool.not_true, Bool.false_eq_true, if_false, true_and]
    cases haccept : relay.accept group id transaction.record with
    | error failure => simp only [Except.error.injEq]
    | ok accepted =>
      constructor
      · rintro ⟨own, last, herror⟩
        obtain ⟨acknowledged, failed, hother⟩ := settle_eq_error herror
        cases hother
      · nofun

end Relay
end SharedGraph
