import SharedGraph.Proofs.Relay.Lanes

/-!
# Shipments that overlap

A lane admits one drain at a time, but a name that is removed and comes back gets a new lane
while drains go on with the old one.  Then two shipments to one passive can be on their way,
and what was queued first can arrive last.  It takes a call that queues for the passive while
some drain of the passive still works on a dropped lane.  Without such a call all the
unfinished work for a passive goes through one lane, and what is in that lane comes after
everything that the passive has applied.
-/

namespace SharedGraph

/-!
## Ids up to a mark
-/

/-- Ids that ascend, none of them behind the mark. -/
structure AscendsTo (mark : Option GlobalId) (ids : List GlobalId) : Prop where
  ascending : ids.Pairwise (· < ·)
  marked : ∀ id ∈ ids, ∃ last, mark = some last ∧ id ≤ last

section AscendsTo

variable {mark : Option GlobalId} {id : GlobalId} {ids fewer : List GlobalId}

theorem ascendsTo_sublist (hascends : AscendsTo mark ids) (hfewer : fewer.Sublist ids) :
    AscendsTo mark fewer :=
  ⟨hascends.ascending.sublist hfewer, fun other hother =>
    hascends.marked other (hfewer.subset hother)⟩

theorem ascendsTo_concat (hascends : AscendsTo mark ids)
    (hmark : ∀ last, mark = some last → last < id) : AscendsTo (some id) (ids ++ [id]) := by
  have hbelow : ∀ other ∈ ids, other < id :=
    fun other hother => lt_of_upTo hmark (hascends.marked other hother)
  constructor
  · rw [List.pairwise_append]
    refine ⟨hascends.ascending, List.pairwise_singleton _ _, ?_⟩
    intro other hother last hlast
    rw [List.mem_singleton.1 hlast]
    exact hbelow other hother
  · intro other hother
    rcases List.mem_append.1 hother with hold | hnew
    · exact ⟨id, rfl, GlobalId.le_of_lt (hbelow other hold)⟩
    · rw [List.mem_singleton.1 hnew]
      exact ⟨id, rfl, GlobalId.le_refl id⟩

end AscendsTo

namespace InFlight

variable {state next : InFlight} {owners : List String} {name : LaneName}
variable {passive : String} {applied : List GlobalId}

def queuedIn (state : InFlight) (name : LaneName) : List GlobalId :=
  (state.lane name).map Queued.id

/-- All the unfinished work for a passive goes through one lane, and that lane holds what comes
after all that the passive has applied. -/
structure OneLane (passive : String) (applied : List GlobalId) (owners : List String)
    (name : LaneName) (state : InFlight) : Prop where
  own : name.passive = passive
  owned : name.OwnedBy owners
  unfinished : ∀ drain ∈ state.drains, drain.target.node.name = passive →
    drain.result? = none → drain.lane = name
  ordered : AscendsTo state.relay.lastQueued (applied ++ state.queuedIn name)

/-!
## Starting a call
-/

theorem oneLane_start {group : FailoverGroup} {transaction : Sequenced}
    (hgroup : group.Consistent) (hnamed : group.Named)
    (hone : state.OneLane passive applied owners name)
    (hqueues : state.relay.queuesFor group transaction passive = []) :
    (state.start group transaction).OneLane passive applied owners name ∧
      (state.start group transaction).relay.backlog passive = state.relay.backlog passive := by
  rcases state.start_cases group transaction with
    ⟨-, outcome, hstart⟩ | ⟨id, targets, relay, hadmits, haccept, hstart⟩
  · rw [hstart]
    refine ⟨⟨hone.own, hone.owned, ?_, hone.ordered⟩, rfl⟩
    intro drain hdrain
    rw [drains_of_finished rfl, List.flatMap_nil, List.append_nil] at hdrain
    exact hone.unfinished drain hdrain
  · have hother : group.hasPassive passive ≠ true := by
      intro hpassive
      rw [Relay.queuesFor, if_pos hpassive, hadmits] at hqueues
      cases hqueues
    have hbacklog : relay.backlog passive = state.relay.backlog passive := by
      rw [Relay.backlog_accept hgroup hnamed haccept, if_neg hother, List.append_nil]
    have hids : queuedIn { state with relay, calls := state.calls ++
        [.draining id (targets.map Drain.fresh)] } name = state.queuedIn name := by
      cases hslot : name.dropped with
      | none =>
        rw [LaneName.eq_current hone.own hslot]
        exact hbacklog
      | some number =>
        unfold queuedIn lane
        rw [hslot]
    rcases Relay.accept_lastQueued haccept with ⟨hlast, horder⟩
    rw [hstart]
    refine ⟨⟨hone.own, hone.owned, ?_, ?_⟩, hbacklog⟩
    · intro drain hdrain
      rw [drains_of_draining rfl, List.flatMap_nil, List.append_nil] at hdrain
      rcases List.mem_append.1 hdrain with hold | hfresh
      · exact hone.unfinished drain hold
      · rcases List.mem_map.1 hfresh with ⟨target, htarget, rfl⟩
        intro hname
        exact absurd ((Relay.hasPassive_of_accept haccept passive).2 ⟨target, htarget, hname⟩)
          hother
    · rw [hids, hlast]
      exact ascendsTo_sublist (ascendsTo_concat hone.ordered horder)
        (List.sublist_append_left _ _)

theorem oneLane_start_queues {group : FailoverGroup} {transaction : Sequenced}
    (hgroup : group.Consistent) (hnamed : group.Named)
    (hone : state.OneLane passive applied owners name)
    (hcurrent : name = { passive } ∨ state.relay.backlog passive = [])
    (hqueues : state.relay.queuesFor group transaction passive ≠ [])
    (hspares : ∀ drain ∈ state.drains, drain.target.node.name = passive →
      drain.result? = none → drain.lane.dropped = none) :
    (state.start group transaction).OneLane passive applied owners { passive } := by
  rcases state.start_cases group transaction with
    ⟨hnone, -⟩ | ⟨id, targets, relay, hadmits, haccept, hstart⟩
  · rw [Relay.queuesFor, hnone] at hqueues
    exact absurd (ite_self _) hqueues
  · have hpassive : group.hasPassive passive = true := by
      by_cases hpassive : group.hasPassive passive = true
      · exact hpassive
      · rw [Relay.queuesFor, if_neg hpassive] at hqueues
        exact absurd rfl hqueues
    have hbacklog : relay.backlog passive = state.relay.backlog passive ++ [id] := by
      rw [Relay.backlog_accept hgroup hnamed haccept, if_pos hpassive]
    have hordered : AscendsTo state.relay.lastQueued
        (applied ++ state.relay.backlog passive) := by
      rcases hcurrent with hsame | hempty
      · have hordered := hone.ordered
        rw [hsame] at hordered
        exact hordered
      · rw [hempty, List.append_nil]
        exact ascendsTo_sublist hone.ordered (List.sublist_append_left _ _)
    rcases Relay.accept_lastQueued haccept with ⟨hlast, horder⟩
    rw [hstart]
    refine ⟨rfl, LaneName.ownedBy_current _ _, ?_, ?_⟩
    · intro drain hdrain hname hunfinished
      rw [drains_of_draining rfl, List.flatMap_nil, List.append_nil] at hdrain
      rcases List.mem_append.1 hdrain with hold | hfresh
      · have hdropped := hspares drain hold hname hunfinished
        rw [hone.unfinished drain hold hname hunfinished] at hdropped ⊢
        exact LaneName.eq_current hone.own hdropped
      · rcases List.mem_map.1 hfresh with ⟨target, -, rfl⟩
        exact congrArg (fun passive => ({ passive } : LaneName)) hname
    · show AscendsTo relay.lastQueued (applied ++ relay.backlog passive)
      rw [hbacklog, hlast, ← List.append_assoc]
      exact ascendsTo_concat hordered horder

/-!
## Dropping lanes
-/

theorem oneLane_dropLane (hnumbered : owners.length = state.dropped.length)
    (hone : state.OneLane passive applied owners name) (dropped : String) :
    (state.dropLane dropped).OneLane passive applied (owners ++ [dropped])
      (name.leave dropped owners.length) := by
  refine ⟨(LaneName.leave_passive _ _ _).trans hone.own, LaneName.leave_ownedBy hone.owned dropped,
    ?_, ?_⟩
  · rw [drains_dropLane]
    intro drain hdrain hname hunfinished
    rcases List.mem_map.1 hdrain with ⟨old, hold, rfl⟩
    rcases Drain.leaveLane_frame dropped state.dropped.length old with ⟨htarget, -, hresult⟩
    rw [htarget] at hname
    rw [hresult] at hunfinished
    rw [Drain.leaveLane_lane, hone.unfinished old hold hname hunfinished, hnumbered]
  · unfold queuedIn
    rw [lane_dropLane hnumbered hone.owned]
    exact hone.ordered

theorem oneLane_foldl_dropLane (names : List String) (hhoused : state.Housed owners)
    (hone : state.OneLane passive applied owners name) :
    (names.foldl dropLane state).OneLane passive applied (owners ++ names)
      (LaneName.leaveAll owners names name) := by
  induction names generalizing state owners name with
  | nil =>
    rw [List.append_nil]
    exact hone
  | cons first rest ih =>
    have hrest := ih (housed_dropLane hhoused first)
      (oneLane_dropLane hhoused.numbered hone first)
    rw [List.append_assoc] at hrest
    exact hrest

theorem oneLane_follow (hhoused : state.Housed owners)
    (hone : state.OneLane passive applied owners name)
    (hcurrent : name = { passive } ∨ state.relay.backlog passive = []) (change : MemberChange) :
    ∃ other, (state.follow change).2.OneLane passive applied
        (owners ++ change.removed.map Node.name) other ∧
      (other = { passive } ∨ (state.follow change).2.relay.backlog passive = []) := by
  have hother := oneLane_foldl_dropLane (change.removed.map Node.name) hhoused hone
  have hlast : (state.follow change).2.relay.lastQueued = state.relay.lastQueued := by
    rw [relay_follow]
    exact (Relay.follow_frame _ change).2
  by_cases hremoved : passive ∈ change.removed.map Node.name
  · refine ⟨_, ⟨hother.own, hother.owned, hother.unfinished, ?_⟩, Or.inr ?_⟩
    · have hordered := hother.ordered
      rw [foldl_dropLane_relay] at hordered
      unfold queuedIn at hordered ⊢
      rw [hlast, lane_follow_of_dropped change
        (LaneName.leaveAll_dropped (by rw [hone.own]; exact hremoved))]
      exact hordered
    · unfold Relay.backlog
      rw [relay_follow, Relay.lane_follow, if_pos hremoved]
      rfl
  · rw [LaneName.leaveAll_of_stays (by rw [hone.own]; exact hremoved)] at hother
    refine ⟨name, ⟨hother.own, hother.owned, hother.unfinished, ?_⟩, ?_⟩
    · have hordered := hother.ordered
      rw [foldl_dropLane_relay] at hordered
      unfold queuedIn at hordered ⊢
      rw [hlast, lane_follow_of_stays change (by rw [hone.own]; exact hremoved)]
      exact hordered
    · unfold Relay.backlog
      rw [relay_follow, Relay.lane_follow, if_neg hremoved]
      exact hcurrent

end InFlight

namespace Site

variable {site next last : Site} {happening : Happening} {happenings : List Happening}
variable {passive : String}

/-!
## What one step does
-/

theorem appliedBy_move? {call place : Nat} {move : DrainMove} {id : GlobalId} {drain : Drain}
    {landed left : List Queued} (hmove : site.move? call place move = some next)
    (hfound : site.inFlight.drain? call place = some (id, drain))
    (hlands : (∃ entry, move = .land ∧ landed = [entry]) ∨ (move ≠ .land ∧ landed = []))
    (hqueue : site.inFlight.lane drain.lane = landed ++ left) (passive : String) :
    next.appliedBy passive = site.appliedBy passive ++
      if drain.target.node.name = passive then landed.map Queued.id else [] := by
  rcases Option.map_eq_some_iff.1 hmove with ⟨inFlight, -, hnext⟩
  rcases hlands with ⟨entry, rfl, rfl⟩ | ⟨hother, rfl⟩
  · have hfront : site.front call place = [(drain.target.node.name, entry.id)] := by
      simp only [front, hfound, hqueue]
      rfl
    cases hnext
    rw [hfront]
    by_cases hmine : drain.target.node.name = passive
    · simp [appliedBy, hmine]
    · simp [appliedBy, hmine]
  · rw [List.map_nil, ite_self, List.append_nil]
    cases move with
    | land => exact absurd rfl hother
    | take | ship flight | refuse failure | close =>
      cases hnext
      rfl

/-- Whether all the unfinished work for a passive goes through one lane, and the relay's own lane
is that one or empty. -/
def SingleLane (site : Site) (passive : String) : Prop :=
  ∃ name, site.inFlight.OneLane passive (site.appliedBy passive) site.removed name ∧
    (name = { passive } ∨ site.inFlight.relay.backlog passive = [])

theorem singleLane_of_quiet (hsingle : site.SingleLane passive)
    (hquiet : site.inFlight.Quiet next.inFlight) (hremoved : next.removed = site.removed)
    (happlied : next.applied = site.applied) : next.SingleLane passive := by
  rcases hsingle with ⟨name, hone, hcurrent⟩
  have hsame : next.appliedBy passive = site.appliedBy passive := by
    unfold appliedBy
    rw [happlied]
  unfold SingleLane
  rw [hsame, hremoved]
  refine ⟨name, ⟨hone.own, hone.owned, ?_, ?_⟩, ?_⟩
  · intro drain hdrain
    exact hone.unfinished drain (hquiet.drains.subset hdrain)
  · have hordered := hone.ordered
    unfold InFlight.queuedIn at hordered ⊢
    rw [hquiet.lastQueued, hquiet.lane]
    exact hordered
  · rw [show next.inFlight.relay.backlog passive = site.inFlight.relay.backlog passive from
      congrArg (List.map Queued.id) (hquiet.lane { passive })]
    exact hcurrent

theorem singleLane_move? {call place : Nat} {move : DrainMove}
    (hhoused : site.inFlight.Housed site.removed) (hsingle : site.SingleLane passive)
    (hmove : site.move? call place move = some next) : next.SingleLane passive := by
  rcases hsingle with ⟨name, hone, hcurrent⟩
  rcases InFlight.moves_moveDrain? hhoused (inFlight_move? hmove) with
    ⟨id, drain, moved, landed, left, hfound, hmoves⟩
  have happlied := appliedBy_move? hmove hfound hmoves.lands hmoves.queue passive
  have hnamed := hhoused.named drain hmoves.mem
  refine ⟨name, ⟨hone.own, ?_, ?_, ?_⟩, ?_⟩
  · rw [removed_move? hmove]
    exact hone.owned
  · intro found hfound hname hopen
    rcases hmoves.drains found hfound with rfl | hold
    · rw [hmoves.lane]
      rw [hmoves.target] at hname
      exact hone.unfinished drain hmoves.mem hname hmoves.unfinished
    · exact hone.unfinished found hold hname hopen
  · unfold InFlight.queuedIn
    rw [hmoves.lastQueued, happlied, hmoves.lanes name hone.owned]
    by_cases hmine : drain.target.node.name = passive
    · -- what lands moves from the front of the lane to the end of what was applied
      have hsame := hone.unfinished drain hmoves.mem hmine hmoves.unfinished
      have hordered := hone.ordered
      unfold InFlight.queuedIn at hordered
      rw [← hsame, hmoves.queue, List.map_append] at hordered
      rw [if_pos hmine, if_pos hsame.symm, List.append_assoc]
      exact hordered
    · have hother : name ≠ drain.lane := by
        intro hsame
        rw [← hsame, hone.own] at hnamed
        exact hmine hnamed.symm
      rw [if_neg hmine, if_neg hother, List.append_nil]
      exact hone.ordered
  · rcases hcurrent with hsame | hempty
    · exact Or.inl hsame
    · by_cases hmine : drain.lane = { passive }
      · left
        have hname : drain.target.node.name = passive := by
          rw [← hnamed, hmine]
        rw [← hone.unfinished drain hmoves.mem hname hmoves.unfinished]
        exact hmine
      · right
        have hlane := hmoves.lanes { passive } (LaneName.ownedBy_current _ _)
        rw [if_neg (Ne.symm hmine)] at hlane
        exact (congrArg (List.map Queued.id) hlane).trans hempty

/-- A call queues nothing for a passive while a drain of the passive that is not done goes on
with a dropped lane. -/
def Spares (site : Site) (passive : String) (happening : Happening) : Prop :=
  site.accepts passive happening ≠ [] → ∀ drain ∈ site.inFlight.drains,
    drain.target.node.name = passive → drain.result? = none → drain.lane.dropped = none

instance (site : Site) (passive : String) (happening : Happening) :
    Decidable (site.Spares passive happening) :=
  inferInstanceAs (Decidable (_ → ∀ drain ∈ site.inFlight.drains, _ → _ → _))

theorem singleLane_after (hgroup : site.group.Consistent ∧ site.group.Named)
    (hhoused : site.inFlight.Housed site.removed) (hsingle : site.SingleLane passive)
    (hspares : site.Spares passive happening) (hafter : site.after? happening = some next) :
    next.SingleLane passive := by
  cases happening with
  | start transaction =>
    cases hafter
    rcases hsingle with ⟨name, hone, hcurrent⟩
    by_cases hqueues : site.inFlight.relay.queuesFor site.group transaction passive = []
    · rcases InFlight.oneLane_start hgroup.1 hgroup.2 hone hqueues with ⟨hstill, hbacklog⟩
      refine ⟨name, hstill, ?_⟩
      rw [inFlight_start, hbacklog]
      exact hcurrent
    · exact ⟨{ passive }, InFlight.oneLane_start_queues hgroup.1 hgroup.2 hone hcurrent hqueues
        (hspares hqueues), Or.inl rfl⟩
  | move call place move => exact singleLane_move? hhoused hsingle hafter
  | settle call | declareHeld name objects | widenHeld name objects | operate operation =>
    rcases quiet_after (by trivial) hafter with ⟨hquiet, hremoved, happlied⟩
    exact singleLane_of_quiet hsingle hquiet hremoved happlied
  | follow change =>
    cases hafter
    rcases hsingle with ⟨name, hone, hcurrent⟩
    exact InFlight.oneLane_follow hhoused hone hcurrent change

/-!
## Whole runs
-/

inductive PatientRun (passive : String) : Site → List Happening → Site → Prop where
  | nil (site : Site) : PatientRun passive site [] site
  | cons {site next last : Site} {happening : Happening} {rest : List Happening} :
      happening.NamesNodes → site.Spares passive happening →
      site.after? happening = some next → PatientRun passive next rest last →
      PatientRun passive site (happening :: rest) last

theorem singleLane_run (hgroup : site.group.Consistent ∧ site.group.Named)
    (hhoused : site.inFlight.Housed site.removed) (hsingle : site.SingleLane passive)
    (hrun : PatientRun passive site happenings last) :
    last.inFlight.Housed last.removed ∧ last.SingleLane passive := by
  induction hrun with
  | nil site => exact ⟨hhoused, hsingle⟩
  | cons hnames hspares hafter _ ih =>
    exact ih (group_after hgroup hnames hafter) (housed_after hhoused hafter)
      (singleLane_after hgroup hhoused hsingle hspares hafter)

/-- Of things that are apart pairwise, at most one can pass a test that no two of them pass
together. -/
theorem countP_le_one {α : Type} {apart : α → α → Prop} {items : List α} {test : α → Bool}
    (hpairwise : items.Pairwise apart)
    (hclash : ∀ first ∈ items, ∀ second ∈ items, test first = true → test second = true →
      ¬apart first second) : items.countP test ≤ 1 := by
  induction items with
  | nil => exact Nat.zero_le 1
  | cons head rest ih =>
    rw [List.pairwise_cons] at hpairwise
    have hrest := ih hpairwise.2 fun first hfirst second hsecond =>
      hclash first (List.mem_cons_of_mem _ hfirst) second (List.mem_cons_of_mem _ hsecond)
    by_cases htest : test head = true
    · rw [List.countP_cons_of_pos htest]
      have hnone : rest.countP test = 0 := by
        rw [List.countP_eq_zero]
        intro other hother hpasses
        exact hclash head List.mem_cons_self other (List.mem_cons_of_mem _ hother) htest hpasses
          (hpairwise.1 other hother)
      exact Nat.le_of_eq (congrArg (· + 1) hnone)
    · rw [List.countP_cons_of_neg htest]
      exact hrest

theorem shipments_eq (site : Site) (passive : String) :
    ∃ ships : Drain → Bool, site.shipments passive = site.inFlight.drains.countP ships ∧
      ∀ drain, ships drain = true → drain.target.node.name = passive ∧
        drain.hasLane = true ∧ drain.result? = none := by
  refine ⟨_, rfl, ?_⟩
  intro drain hships
  rw [Bool.and_eq_true, beq_iff_eq] at hships
  refine ⟨hships.1, ?_⟩
  cases hphase : drain.phase with
  | shipping flight =>
    rw [Drain.hasLane, Drain.result?, hphase]
    exact ⟨rfl, rfl⟩
  | waiting | holding | done result =>
    rw [hphase] at hships
    cases hships.2

theorem shipments_le_one (hhoused : site.inFlight.Housed site.removed)
    (hsingle : site.SingleLane passive) : site.shipments passive ≤ 1 := by
  rcases hsingle with ⟨name, hone, -⟩
  rcases shipments_eq site passive with ⟨ships, hcount, hships⟩
  rw [hcount]
  apply countP_le_one hhoused.exclusive
  intro first hfirst second hsecond hfirstShips hsecondShips hapart
  rcases hships first hfirstShips with ⟨hname₁, hlane₁, hopen₁⟩
  rcases hships second hsecondShips with ⟨hname₂, hlane₂, hopen₂⟩
  have hsame : first.lane = second.lane :=
    (hone.unfinished first hfirst hname₁ hopen₁).trans
      (hone.unfinished second hsecond hname₂ hopen₂).symm
  exact hapart hsame ⟨hlane₁, hlane₂⟩

/-- If no call queues for a passive while an older drain of the passive goes on with a dropped
lane, at most one shipment to it is on its way at a time, and it applies ids in ascending
order. -/
theorem one_shipment_at_a_time {group : FailoverGroup} {policy : RelayPolicy}
    (hgroup : group.Consistent) (hnamed : group.Named)
    (hrun : PatientRun passive (opened group policy) happenings last) :
    last.shipments passive ≤ 1 ∧ (last.appliedBy passive).Pairwise (· < ·) := by
  have hopened : (opened group policy).SingleLane passive := by
    refine ⟨{ passive }, ⟨rfl, LaneName.ownedBy_current _ _, ?_, ?_⟩, Or.inl rfl⟩
    · intro drain hdrain
      exact absurd hdrain List.not_mem_nil
    · exact ⟨.nil, fun id hid => absurd hid List.not_mem_nil⟩
  rcases singleLane_run ⟨hgroup, hnamed⟩ (opened_housed group policy) hopened hrun with
    ⟨hhoused, hsingle⟩
  refine ⟨shipments_le_one hhoused hsingle, ?_⟩
  rcases hsingle with ⟨name, hone, -⟩
  exact hone.ordered.ascending.sublist (List.sublist_append_left _ _)

/-- A passive is removed and comes back while a shipment to it is on its way. -/
def comeback : List Happening :=
  [.start (.bare ⟨1⟩), .move 0 0 .take, .move 0 0 (.ship ⟨0, .arrives 9⟩),
    .operate (.reconfigure ["a", "c"] fun name => .ok (FailoverGroup.resident name)),
    .follow { removed := [FailoverGroup.resident "b"] },
    .operate (.reconfigure ["a", "b", "c"] fun name => .ok (FailoverGroup.resident name)),
    .follow { added := [FailoverGroup.resident "b"] }]

def overtaking : List Happening :=
  [.start (.bare ⟨2⟩), .move 1 0 .take, .move 1 0 (.ship ⟨1, .arrives 0⟩), .move 1 0 .land,
    .move 0 0 .land]

theorem namesNodes_resident (members : List String) :
    (Happening.operate
      (.reconfigure members fun name => .ok (FailoverGroup.resident name))).NamesNodes :=
  FailoverGroup.namesMembers_resident

theorem comeback_namesNodes : ∀ happening ∈ comeback ++ overtaking, happening.NamesNodes := by
  simp only [comeback, overtaking, List.cons_append, List.nil_append, List.forall_mem_cons]
  refine ⟨trivial, trivial, trivial, namesNodes_resident _, trivial, namesNodes_resident _,
    trivial, trivial, trivial, trivial, trivial, trivial, fun _ hmem => ?_⟩
  cases hmem

theorem patient_comeback : ∃ last, PatientRun "b" (opened FailoverGroup.trio {})
    (comeback ++ [.move 0 0 .land, .move 0 0 .close, .start (.bare ⟨2⟩), .move 1 0 .take,
      .move 1 0 (.ship ⟨9, .arrives 9⟩)]) last ∧
    last.shipments "b" = 1 ∧ last.appliedBy "b" = [⟨1⟩] := by
  refine ⟨_, .cons trivial ?_ rfl <| .cons trivial ?_ rfl <| .cons trivial ?_ rfl <|
    .cons (namesNodes_resident _) ?_ rfl <| .cons trivial ?_ rfl <|
    .cons (namesNodes_resident _) ?_ rfl <| .cons trivial ?_ rfl <| .cons trivial ?_ rfl <|
    .cons trivial ?_ rfl <| .cons trivial ?_ rfl <| .cons trivial ?_ rfl <|
    .cons trivial ?_ rfl <| .nil _, ?_, ?_⟩
  all_goals decide +kernel

theorem one_shipment_after_comeback : ∃ last, PatientRun "b" (opened FailoverGroup.trio {})
    (comeback ++ [.move 0 0 .land, .move 0 0 .close, .start (.bare ⟨2⟩), .move 1 0 .take,
      .move 1 0 (.ship ⟨9, .arrives 9⟩)]) last ∧
    last.shipments "b" = 1 ∧
    (last.shipments "b" ≤ 1 ∧ (last.appliedBy "b").Pairwise (· < ·)) := by
  rcases FailoverGroup.trio_consistent with ⟨hconsistent, hnamed⟩
  rcases patient_comeback with ⟨last, hrun, hships, -⟩
  exact ⟨last, hrun, hships, one_shipment_at_a_time hconsistent hnamed hrun⟩

/-- Two members of this group stand for one node. -/
def doubled : FailoverGroup :=
  { FailoverGroup.trio with
    nodes := FailoverGroup.trio.nodes.insert "b" (FailoverGroup.resident "c") }

theorem doubled_consistent : doubled.Consistent := by
  have hattached : FailoverGroup.trio.attach "b" (FailoverGroup.resident "c") = .ok doubled := rfl
  exact FailoverGroup.attach_consistent FailoverGroup.trio_consistent.1 hattached

/-- Without further conditions shipments to one passive overlap and overtake each other when
the passive is removed and comes back, and a node that two members stand for applies ids twice
even under a group that never changes. -/
theorem shipments_not_one_at_a_time :
    (¬∀ (group : FailoverGroup) (policy : RelayPolicy) (happenings : List Happening) (last : Site)
        (passive : String), group.Consistent → group.Named →
        (∀ happening ∈ happenings, happening.NamesNodes) →
        (opened group policy).run? happenings = some last → last.shipments passive ≤ 1) ∧
    (¬∀ (group : FailoverGroup) (policy : RelayPolicy) (happenings : List Happening) (last : Site)
        (passive : String), group.Consistent → group.Named →
        (∀ happening ∈ happenings, happening.NamesNodes) →
        (opened group policy).run? happenings = some last →
        (last.appliedBy passive).Pairwise (· < ·)) ∧
    (¬∀ (group : FailoverGroup) (policy : RelayPolicy) (happenings : List Happening) (last : Site)
        (passive : String), group.Consistent →
        (∀ happening ∈ happenings, (∃ transaction, happening = .start transaction) ∨
          ∃ call drain move, happening = .move call drain move) →
        (opened group policy).run? happenings = some last →
        (last.appliedBy passive).Pairwise (· < ·)) := by
  rcases FailoverGroup.trio_consistent with ⟨hconsistent, hnamed⟩
  refine ⟨?_, ?_, ?_⟩
  · intro hclaim
    have hnames : ∀ happening ∈ comeback ++ overtaking.take 3, happening.NamesNodes := by
      intro happening hmem
      apply comeback_namesNodes
      rcases List.mem_append.1 hmem with hback | htaken
      · exact List.mem_append_left _ hback
      · exact List.mem_append_right _ (List.mem_of_mem_take htaken)
    have hships := hclaim FailoverGroup.trio {} (comeback ++ overtaking.take 3) _ "b" hconsistent
      hnamed hnames rfl
    exact absurd hships (by decide +kernel)
  · intro hclaim
    have happlied := hclaim FailoverGroup.trio {} (comeback ++ overtaking) _ "b" hconsistent
      hnamed comeback_namesNodes rfl
    exact absurd happlied (by decide +kernel)
  · intro hclaim
    have happlied := hclaim doubled {} [.start (.bare ⟨1⟩), .move 0 0 .take,
      .move 0 0 (.ship ⟨0, .arrives 0⟩), .move 0 0 .land, .move 0 0 (.ship ⟨0, .arrives 0⟩),
      .move 0 0 .land] _ "c" doubled_consistent (by simp) rfl
    exact absurd happlied (by decide +kernel)

end Site
end SharedGraph
