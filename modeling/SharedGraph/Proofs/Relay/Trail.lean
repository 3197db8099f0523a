import SharedGraph.Proofs.Relay.Holding
import SharedGraph.Proofs.Relay.Lanes

/-!
# The trail of what is queued

What is queued for a passive stands in one lane until it is delivered, in the order in which
it was queued, even if that lane is dropped on the way.  So the entries with some ids leave a
trail, first what was delivered and then what is still in the lane, and no step changes it
except a call that queues such an id.
-/

namespace SharedGraph

def Delivery.passes (test : GlobalId → Bool) (delivery : Delivery) : Bool :=
  delivery.globalId.any test

theorem filter_passes_eq_nil {test : GlobalId → Bool} {entries : List Queued}
    (hnone : ∀ entry ∈ entries, test entry.id = false) :
    (entries.map Queued.delivery).filter (Delivery.passes test) = [] := by
  rw [List.filter_eq_nil_iff]
  intro delivery hdelivery
  rcases List.mem_map.1 hdelivery with ⟨entry, hentry, rfl⟩
  rw [show Delivery.passes test entry.delivery = test entry.id from rfl, hnone entry hentry]
  exact Bool.false_ne_true

namespace Happening

def Removes (passive : String) : Happening → Prop
  | .follow change => passive ∈ change.removed.map Node.name
  | _ => False

/-- Whether what the relay knows a passive to hold is not forgotten when something happens. -/
def Keeps (passive : String) : Happening → Prop
  | .declareHeld name _ => name ≠ passive
  | .follow change => passive ∉ change.removed.map Node.name
  | _ => True

end Happening

namespace InFlight

variable {state next : InFlight} {owners : List String} {name : LaneName}
variable {test : GlobalId → Bool} {passive : String} {delivered trail : List Delivery}
variable {entry : Queued}

/-- Where the entries with ids that pass a test are: what was delivered to the passive and what
is in one of its lanes make up the trail, and no drain of the passive finds any in another
lane. -/
structure Trail (test : GlobalId → Bool) (passive : String) (delivered trail : List Delivery)
    (owners : List String) (name : LaneName) (state : InFlight) : Prop where
  own : name.passive = passive
  owned : name.OwnedBy owners
  elsewhere : ∀ drain ∈ state.drains, drain.target.node.name = passive → drain.lane ≠ name →
    ∀ entry ∈ state.lane drain.lane, test entry.id = false
  content : (delivered ++ (state.lane name).map Queued.delivery).filter (Delivery.passes test) =
    trail

/-- Whether the relay's own lane of a passive has no such entries, unless it is the one that has
them all. -/
def Settled (test : GlobalId → Bool) (passive : String) (name : LaneName) (state : InFlight) :
    Prop :=
  name = { passive } ∨ ∀ entry ∈ state.relay.lane passive, test entry.id = false

/-!
## Steps that queue
-/

theorem lane_start (state : InFlight) (group : FailoverGroup) (transaction : Sequenced)
    (passive : String) :
    ∃ added, (state.start group transaction).relay.lane passive =
        state.relay.lane passive ++ added ∧
      (∀ entry ∈ added, state.relay.queuesFor group transaction passive = [entry.id] ∧
        state.relay.shipmentFor transaction.record passive = .ok entry.shipment) ∧
      (state.relay.queuesFor group transaction passive ≠ [] → added ≠ []) := by
  rcases state.start_cases group transaction with
    ⟨hnone, outcome, hstart⟩ | ⟨id, targets, relay, hadmits, haccept, hstart⟩
  · refine ⟨[], ?_, fun entry hentry => absurd hentry List.not_mem_nil, ?_⟩
    · rw [hstart, List.append_nil]
    · rw [Relay.queuesFor, hnone]
      exact fun hqueues => absurd (ite_self _) hqueues
  · rcases Relay.lane_accept haccept passive with ⟨added, hlane, hentries, hadded⟩
    refine ⟨added, ?_, ?_, ?_⟩
    · rw [hstart]
      exact hlane
    · intro entry hentry
      have hpassive := hadded.2 (List.ne_nil_of_mem hentry)
      rcases hentries entry hentry with ⟨hid, hshipment⟩
      rw [Relay.queuesFor, if_pos hpassive, hadmits, hid]
      exact ⟨rfl, hshipment⟩
    · intro hqueues
      apply hadded.1
      apply Decidable.byContradiction
      intro hother
      rw [Relay.queuesFor, if_neg hother] at hqueues
      exact hqueues rfl

theorem trail_extend {added : List Queued}
    (hnamed : ∀ drain ∈ next.drains, drain.lane.passive = drain.target.node.name)
    (hdrains : ∀ drain ∈ next.drains, drain ∈ state.drains ∨ drain.lane.dropped = none)
    (hdropped : next.dropped = state.dropped)
    (hlane : next.relay.lane passive = state.relay.lane passive ++ added)
    (htrail : state.Trail test passive delivered trail owners name)
    (hsettled : state.Settled test passive name)
    (hadded : name = { passive } ∨ ∀ entry ∈ added, test entry.id = false) :
    next.Trail test passive delivered
        (trail ++ (added.map Queued.delivery).filter (Delivery.passes test)) owners name ∧
      next.Settled test passive name := by
  have hsettles : next.Settled test passive name := by
    rcases hsettled with hcurrent | hold
    · exact Or.inl hcurrent
    · rcases hadded with hcurrent | hnew
      · exact Or.inl hcurrent
      · right
        rw [hlane]
        intro entry hentry
        rcases List.mem_append.1 hentry with hin | hin
        · exact hold entry hin
        · exact hnew entry hin
  have hother : ∀ other : LaneName, other.dropped ≠ none →
      next.lane other = state.lane other := by
    intro other hslot
    unfold lane
    cases hnumber : other.dropped with
    | none => exact absurd hnumber hslot
    | some number => exact congrArg (fun lanes => (lanes[number]?).getD []) hdropped
  refine ⟨⟨htrail.own, htrail.owned, ?_, ?_⟩, hsettles⟩
  · -- A drain works on the relay's own lane, which holds no such entry unless the trail is there,
    -- or on a dropped lane, which nothing is added to.
    intro drain hdrain hname hlanes entry hentry
    by_cases hslot : drain.lane.dropped = none
    · have hcurrent := LaneName.eq_current ((hnamed drain hdrain).trans hname) hslot
      rw [hcurrent] at hlanes hentry
      rcases hsettles with hsame | hnone
      · exact absurd hsame.symm hlanes
      · exact hnone entry hentry
    · rw [hother drain.lane hslot] at hentry
      rcases hdrains drain hdrain with hold | hnew
      · exact htrail.elsewhere drain hold hname hlanes entry hentry
      · exact absurd hnew hslot
  · rw [← htrail.content]
    by_cases hslot : name.dropped = none
    · have hcurrent := LaneName.eq_current htrail.own hslot
      have hgrown : next.lane name = state.lane name ++ added := by
        rw [hcurrent]
        exact hlane
      rw [hgrown, List.map_append, ← List.append_assoc, List.filter_append]
    · have hnone : ∀ entry ∈ added, test entry.id = false := by
        rcases hadded with hcurrent | hnew
        · rw [hcurrent] at hslot
          exact absurd rfl hslot
        · exact hnew
      rw [hother name hslot, filter_passes_eq_nil hnone, List.append_nil]

theorem trail_of_quiet (hhoused : state.Housed owners) (hquiet : state.Quiet next)
    (htrail : state.Trail test passive delivered trail owners name)
    (hsettled : state.Settled test passive name) :
    next.Trail test passive delivered trail owners name ∧ next.Settled test passive name := by
  have hlane : next.relay.lane passive = state.relay.lane passive ++ [] :=
    (hquiet.lane { passive }).trans (List.append_nil _).symm
  have hextended := trail_extend
    (fun drain hdrain => hhoused.named drain (hquiet.drains.subset hdrain))
    (fun drain hdrain => Or.inl (hquiet.drains.subset hdrain)) hquiet.dropped hlane htrail hsettled
    (Or.inr fun _ hentry => absurd hentry List.not_mem_nil)
  rw [List.map_nil, List.filter_nil, List.append_nil] at hextended
  exact hextended

/-!
## Moving a drain
-/

/-- Whatever lands at a passive goes from the front of its lane to the end of what was
delivered. -/
theorem trail_moved {move : DrainMove} {drain moved : Drain} {landed left : List Queued}
    (hhoused : state.Housed owners) (hmoves : state.Moves next owners move drain moved landed left)
    (htrail : state.Trail test passive delivered trail owners name)
    (hsettled : state.Settled test passive name) :
    next.Trail test passive
        (delivered ++ (if drain.target.node.name = passive then landed else []).map
          Queued.delivery) trail owners name ∧
      next.Settled test passive name := by
  have hrest : ∀ other : LaneName, other.OwnedBy owners → ∀ entry ∈ next.lane other,
      entry ∈ state.lane other := by
    intro other hother entry hentry
    rw [hmoves.lanes other hother] at hentry
    split at hentry
    · next hmine =>
      rw [hmine, hmoves.queue]
      exact List.mem_append_right _ hentry
    · exact hentry
  refine ⟨⟨htrail.own, htrail.owned, ?_, ?_⟩, ?_⟩
  · intro found hfound hname hother entry hentry
    rcases hmoves.drains found hfound with hmoved | hold
    · rw [hmoved, hmoves.target] at hname
      rw [hmoved, hmoves.lane] at hother hentry
      exact htrail.elsewhere drain hmoves.mem hname hother entry
        (hrest drain.lane (hhoused.owned drain hmoves.mem) entry hentry)
    · exact htrail.elsewhere found hold hname hother entry
        (hrest found.lane (hhoused.owned found hold) entry hentry)
  · rw [← htrail.content, hmoves.lanes name htrail.owned]
    by_cases hmine : drain.target.node.name = passive
    · rw [if_pos hmine]
      by_cases hlane : name = drain.lane
      · rw [if_pos hlane, hlane, hmoves.queue, List.map_append, List.append_assoc]
      · -- what lands from another lane is not on the trail
        have hnone : ∀ entry ∈ landed, test entry.id = false := by
          intro entry hentry
          apply htrail.elsewhere drain hmoves.mem hmine (Ne.symm hlane)
          rw [hmoves.queue]
          exact List.mem_append_left _ hentry
        rw [if_neg hlane, List.filter_append, List.filter_append, List.filter_append,
          filter_passes_eq_nil hnone, List.append_nil]
    · have hlane : name ≠ drain.lane := by
        intro hlane
        apply hmine
        rw [← hhoused.named drain hmoves.mem, ← hlane, htrail.own]
      rw [if_neg hmine, if_neg hlane, List.map_nil, List.append_nil]
  · rcases hsettled with hcurrent | hnone
    · exact Or.inl hcurrent
    · exact Or.inr fun entry hentry => hnone entry
        (hrest { passive } (LaneName.ownedBy_current owners passive) entry hentry)

/-!
## Dropping lanes
-/

theorem trail_dropLane (hhoused : state.Housed owners)
    (htrail : state.Trail test passive delivered trail owners name) (dropped : String) :
    (state.dropLane dropped).Trail test passive delivered trail (owners ++ [dropped])
      (name.leave dropped owners.length) := by
  have hnumbered := hhoused.numbered
  refine ⟨(LaneName.leave_passive _ _ _).trans htrail.own,
    LaneName.leave_ownedBy htrail.owned dropped, ?_, ?_⟩
  · rw [drains_dropLane]
    intro drain hdrain hname hother entry hentry
    rcases List.mem_map.1 hdrain with ⟨old, hold, rfl⟩
    rw [(Drain.leaveLane_frame dropped _ old).1] at hname
    rw [Drain.leaveLane_lane, ← hnumbered] at hother hentry
    rw [lane_dropLane hnumbered (hhoused.owned old hold)] at hentry
    refine htrail.elsewhere old hold hname ?_ entry hentry
    intro hsame
    exact hother (congrArg (LaneName.leave dropped owners.length) hsame)
  · rw [lane_dropLane hnumbered htrail.owned]
    exact htrail.content

theorem trail_foldl_dropLane (names : List String) (hhoused : state.Housed owners)
    (htrail : state.Trail test passive delivered trail owners name) :
    (names.foldl dropLane state).Trail test passive delivered trail (owners ++ names)
      (LaneName.leaveAll owners names name) := by
  induction names generalizing state owners name with
  | nil =>
    rw [List.append_nil]
    exact htrail
  | cons first rest ih =>
    have hrest := ih (housed_dropLane hhoused first) (trail_dropLane hhoused htrail first)
    rw [List.append_assoc] at hrest
    exact hrest

theorem trail_follow (hhoused : state.Housed owners)
    (htrail : state.Trail test passive delivered trail owners name)
    (hsettled : state.Settled test passive name) (change : MemberChange) :
    ∃ other, (state.follow change).2.Trail test passive delivered trail
        (owners ++ change.removed.map Node.name) other ∧
      (state.follow change).2.Settled test passive other ∧
      (passive ∉ change.removed.map Node.name → other = name) := by
  have hother := trail_foldl_dropLane (change.removed.map Node.name) hhoused htrail
  by_cases hremoved : passive ∈ change.removed.map Node.name
  · have hempty : (state.follow change).2.relay.lane passive = [] := by
      rw [relay_follow, Relay.lane_follow, if_pos hremoved]
    refine ⟨_, ⟨hother.own, hother.owned, ?_, ?_⟩, Or.inr ?_, fun hnot => absurd hremoved hnot⟩
    · intro drain hdrain hname hlanes entry hentry
      by_cases hslot : drain.lane.dropped = none
      · have hnamed := (housed_foldl_dropLane (change.removed.map Node.name) hhoused).named
        rw [LaneName.eq_current ((hnamed drain hdrain).trans hname) hslot] at hentry
        rw [show (state.follow change).2.lane { passive } = [] from hempty] at hentry
        cases hentry
      · rw [lane_follow_of_dropped change hslot] at hentry
        exact hother.elsewhere drain hdrain hname hlanes entry hentry
    · rw [lane_follow_of_dropped change
        (LaneName.leaveAll_dropped (by rw [htrail.own]; exact hremoved))]
      exact hother.content
    · rw [hempty]
      exact fun entry hentry => absurd hentry List.not_mem_nil
  · have hnamed := (housed_foldl_dropLane (change.removed.map Node.name) hhoused).named
    rw [LaneName.leaveAll_of_stays (by rw [htrail.own]; exact hremoved)] at hother
    refine ⟨name, ⟨hother.own, hother.owned, ?_, ?_⟩, ?_, fun _ => rfl⟩
    · intro drain hdrain hname hlanes entry hentry
      rw [lane_follow_of_stays change (by rw [hnamed drain hdrain, hname]; exact hremoved)]
        at hentry
      exact hother.elsewhere drain hdrain hname hlanes entry hentry
    · rw [lane_follow_of_stays change (by rw [hother.own]; exact hremoved)]
      exact hother.content
    · unfold Settled
      rw [relay_follow, Relay.lane_follow, if_neg hremoved]
      exact hsettled

/-!
## Where entries come from
-/

theorem mem_lane_of_relay {passive : String} (hentry : entry ∈ state.relay.lane passive) :
    ∃ other, entry ∈ state.lane other :=
  ⟨{ passive }, hentry⟩

theorem mem_lane_of_dropped {queue : List Queued} (hqueue : queue ∈ state.dropped)
    (hentry : entry ∈ queue) : ∃ other, entry ∈ state.lane other := by
  rcases List.getElem?_of_mem hqueue with ⟨number, hnumber⟩
  refine ⟨{ passive := "", dropped := some number }, ?_⟩
  rw [lane_of_dropped state rfl, hnumber]
  exact hentry

theorem mem_dropped_of_lane {number : Nat} (hslot : name.dropped = some number)
    (hentry : entry ∈ state.lane name) : ∃ queue ∈ state.dropped, entry ∈ queue := by
  rw [lane_of_dropped state hslot] at hentry
  cases hfound : state.dropped[number]? with
  | none =>
    rw [hfound] at hentry
    cases hentry
  | some queue =>
    rw [hfound] at hentry
    exact ⟨queue, List.mem_of_getElem? hfound, hentry⟩

theorem mem_lane_setLane {replaced : LaneName} {queue : List Queued}
    (hentry : entry ∈ (state.setLane replaced queue).lane name) :
    entry ∈ queue ∨ ∃ other, entry ∈ state.lane other := by
  cases hslot : name.dropped with
  | none =>
    rw [lane_of_current _ hslot, lane_setLane] at hentry
    split at hentry
    · exact Or.inl hentry
    · exact Or.inr (mem_lane_of_relay hentry)
  | some number =>
    rcases mem_dropped_of_lane hslot hentry with ⟨found, hfound, hin⟩
    unfold setLane at hfound
    split at hfound
    · exact Or.inr (mem_lane_of_dropped hfound hin)
    · rcases List.mem_or_eq_of_mem_set hfound with hold | hnew
      · exact Or.inr (mem_lane_of_dropped hold hin)
      · rw [hnew] at hin
        exact Or.inl hin

theorem mem_lane_dropLane {passive : String} (hentry : entry ∈ (state.dropLane passive).lane name) :
    ∃ other, entry ∈ state.lane other := by
  cases hslot : name.dropped with
  | none =>
    rw [lane_of_current _ hslot] at hentry
    exact mem_lane_of_relay hentry
  | some number =>
    rcases mem_dropped_of_lane hslot hentry with ⟨queue, hqueue, hin⟩
    rcases List.mem_append.1 hqueue with hold | hnew
    · exact mem_lane_of_dropped hold hin
    · rw [List.mem_singleton.1 hnew] at hin
      exact mem_lane_of_relay hin

theorem mem_lane_follow {change : MemberChange}
    (hentry : entry ∈ (state.follow change).2.lane name) :
    ∃ other, entry ∈ state.lane other := by
  have hfold : ∀ (names : List String) (state : InFlight) (name : LaneName),
      entry ∈ (names.foldl dropLane state).lane name → ∃ other, entry ∈ state.lane other := by
    intro names
    induction names with
    | nil => exact fun state name hin => ⟨name, hin⟩
    | cons first rest ih =>
      intro state name hin
      rcases ih (state.dropLane first) name hin with ⟨other, hother⟩
      exact mem_lane_dropLane hother
  cases hslot : name.dropped with
  | none =>
    rw [lane_of_current _ hslot, relay_follow, Relay.lane_follow] at hentry
    split at hentry
    · cases hentry
    · exact mem_lane_of_relay hentry
  | some number =>
    rw [lane_follow_of_dropped change (by rw [hslot]; nofun)] at hentry
    exact hfold _ state name hentry

end InFlight

namespace Site

variable {site next : Site} {happening : Happening} {passive : String} {entry : Queued}

theorem lane_after {name : LaneName} (hafter : site.after? happening = some next)
    (hentry : entry ∈ next.inFlight.lane name) :
    (∃ other, entry ∈ site.inFlight.lane other) ∨
      ∃ passive, site.accepts passive happening = [entry.id] := by
  cases happening with
  | start transaction =>
    cases hafter
    cases hslot : name.dropped with
    | none =>
      rcases site.inFlight.lane_start site.group transaction name.passive with
        ⟨added, hlane, hadded, -⟩
      rw [InFlight.lane_of_current _ hslot, inFlight_start, hlane] at hentry
      rcases List.mem_append.1 hentry with hold | hnew
      · exact Or.inl (InFlight.mem_lane_of_relay hold)
      · exact Or.inr ⟨name.passive, (hadded entry hnew).1⟩
    | some number =>
      rcases InFlight.mem_dropped_of_lane hslot hentry with ⟨queue, hqueue, hin⟩
      rcases site.inFlight.drains_start site.group transaction with ⟨targets, hdropped, -⟩
      rw [inFlight_start, hdropped] at hqueue
      exact Or.inl (InFlight.mem_lane_of_dropped hqueue hin)
  | move call place move =>
    rcases InFlight.moveDrain?_replaces (inFlight_move? hafter) with
      ⟨id, drain, moved, left, before, after, -, hstep, -, -, hrelay, hdropped⟩
    rw [InFlight.lane_congr (congrArg Relay.lanes hrelay) hdropped] at hentry
    rcases InFlight.mem_lane_setLane hentry with hleft | hold
    · left
      refine ⟨drain.lane, ?_⟩
      rcases Drain.move?_eq_some hstep with ⟨-, -, -, ⟨front, -, hqueue, -⟩ | ⟨-, hqueue, -⟩⟩
      · rw [hqueue]
        exact List.mem_cons_of_mem _ hleft
      · rw [hqueue]
        exact hleft
    · exact Or.inl hold
  | settle call | declareHeld other objects | widenHeld other objects | operate operation =>
    rw [(quiet_after (by trivial) hafter).1.lane] at hentry
    exact Or.inl ⟨name, hentry⟩
  | follow change =>
    cases hafter
    exact Or.inl (InFlight.mem_lane_follow hentry)

theorem upTo_after {id : GlobalId} (hafter : site.after? happening = some next)
    (hmarked : UpTo site.inFlight.relay.lastQueued id) :
    UpTo next.inFlight.relay.lastQueued id := by
  rcases hmarked with ⟨last, hlast, hle⟩
  rcases lastQueued_after hafter with ⟨hsame, -⟩ | ⟨later, hlater, horder, -⟩
  · exact ⟨last, hsame.trans hlast, hle⟩
  · exact ⟨later, hlater, GlobalId.le_trans hle (GlobalId.le_of_lt (horder last hlast))⟩

theorem mark_of_accepts {id : GlobalId} (hafter : site.after? happening = some next)
    (haccepts : site.accepts passive happening = [id]) :
    next.inFlight.relay.lastQueued = some id ∧
      ∀ last, site.inFlight.relay.lastQueued = some last → last < id := by
  rcases lastQueued_after hafter with ⟨-, hnone⟩ | ⟨other, hmark, horder, hone⟩
  · rw [hnone passive] at haccepts
    cases haccepts
  · rcases hone passive with hno | hyes
    · rw [hno] at haccepts
      cases haccepts
    · rw [hyes] at haccepts
      cases haccepts
      exact ⟨hmark, horder⟩

/-!
## What lands
-/

def landing? (site : Site) : Happening → Option (String × Queued)
  | .move call place .land =>
    (site.inFlight.drain? call place).bind fun (_, drain) =>
      (site.inFlight.lane drain.lane).head?.map fun entry => (drain.target.node.name, entry)
  | _ => none

def landedFor (passive : String) : Option (String × Queued) → List Queued
  | some (name, entry) => if name = passive then [entry] else []
  | none => []

theorem landedFor_move {call place : Nat} {move : DrainMove} {id : GlobalId} {drain : Drain}
    {landed left : List Queued} (hfound : site.inFlight.drain? call place = some (id, drain))
    (hlands : (∃ entry, move = .land ∧ landed = [entry]) ∨ (move ≠ .land ∧ landed = []))
    (hqueue : site.inFlight.lane drain.lane = landed ++ left) :
    landedFor passive (site.landing? (.move call place move)) =
      if drain.target.node.name = passive then landed else [] := by
  rcases hlands with ⟨entry, rfl, rfl⟩ | ⟨hother, rfl⟩
  · simp only [landing?, hfound, Option.bind_some, hqueue]
    rfl
  · rw [ite_self]
    cases move with
    | land => exact absurd rfl hother
    | take | ship flight | refuse failure | close => rfl

theorem landedFor_of_quiet (hquiet : happening.IsQuiet) :
    landedFor passive (site.landing? happening) = [] := by
  cases happening with
  | move call place move => exact hquiet.elim
  | start transaction | settle call | declareHeld other objects | widenHeld other objects
  | operate operation | follow change => rfl

theorem mem_lane_of_landed (hlanded : entry ∈ landedFor passive (site.landing? happening)) :
    ∃ name, entry ∈ site.inFlight.lane name := by
  unfold landing? at hlanded
  split at hlanded
  · next call place =>
    cases hfound : site.inFlight.drain? call place with
    | none =>
      rw [hfound] at hlanded
      cases hlanded
    | some found =>
      rcases found with ⟨id, drain⟩
      rw [hfound] at hlanded
      refine ⟨drain.lane, ?_⟩
      cases hqueue : site.inFlight.lane drain.lane with
      | nil =>
        simp only [Option.bind_some, hqueue] at hlanded
        cases hlanded
      | cons front rest =>
        simp only [Option.bind_some, hqueue, List.head?_cons, Option.map_some, landedFor]
          at hlanded
        split at hlanded
        · rw [List.mem_singleton.1 hlanded]
          exact List.mem_cons_self
        · cases hlanded
  · cases hlanded

/-!
## What a step does to a trail
-/

variable {test : GlobalId → Bool} {delivered trail : List Delivery} {name : LaneName}

/-- What is added to the relay's lane of a passive when something happens. -/
structure Queues (site : Site) (passive : String) (happening : Happening) (added : List Queued) :
    Prop where
  ids : ∀ entry ∈ added, site.accepts passive happening = [entry.id]
  shipments : ∀ transaction, happening = .start transaction → ∀ entry ∈ added,
    site.inFlight.relay.shipmentFor transaction.record passive = .ok entry.shipment
  present : site.accepts passive happening ≠ [] → added ≠ []

/-- A step other than the start of a call leaves the trail as it is; only a removal of the
passive moves it to another lane. -/
theorem trail_still (hhoused : site.inFlight.Housed site.removed)
    (htrail : site.inFlight.Trail test passive delivered trail site.removed name)
    (hsettled : site.inFlight.Settled test passive name)
    (hafter : site.after? happening = some next)
    (hother : ∀ transaction, happening ≠ .start transaction) :
    ∃ other, next.inFlight.Trail test passive
        (delivered ++ (landedFor passive (site.landing? happening)).map Queued.delivery) trail
        next.removed other ∧
      next.inFlight.Settled test passive other ∧
      (¬happening.Removes passive → other = name) := by
  cases happening with
  | start transaction => exact absurd rfl (hother transaction)
  | move call place move =>
    rcases InFlight.moves_moveDrain? hhoused (inFlight_move? hafter) with
      ⟨id, drain, moved, landed, left, hfound, hmoves⟩
    rw [landedFor_move hfound hmoves.lands hmoves.queue, removed_move? hafter]
    rcases InFlight.trail_moved hhoused hmoves htrail hsettled with ⟨hmoved, hsettles⟩
    exact ⟨name, hmoved, hsettles, fun _ => rfl⟩
  | settle call | declareHeld other objects | widenHeld other objects | operate operation =>
    rcases quiet_after (by trivial) hafter with ⟨hquiet, hremoved, -⟩
    rcases InFlight.trail_of_quiet hhoused hquiet htrail hsettled with ⟨hstill, hsettles⟩
    rw [hremoved, landedFor_of_quiet (by trivial), List.map_nil, List.append_nil]
    exact ⟨name, hstill, hsettles, fun _ => rfl⟩
  | follow change =>
    cases hafter
    rcases InFlight.trail_follow hhoused htrail hsettled change with
      ⟨other, hstill, hsettles, hstays⟩
    refine ⟨other, ?_, hsettles, hstays⟩
    rw [show landedFor passive (site.landing? (.follow change)) = [] from rfl, List.map_nil,
      List.append_nil]
    exact hstill

/-- A call adds to the end of the trail while the relay has the lane, or it adds nothing that
belongs to the trail. -/
theorem trail_start (hhoused : site.inFlight.Housed site.removed)
    (htrail : site.inFlight.Trail test passive delivered trail site.removed name)
    (hsettled : site.inFlight.Settled test passive name) (transaction : Sequenced) :
    ∃ added, site.Queues passive (.start transaction) added ∧
      (name = { passive } ∨ (∀ entry ∈ added, test entry.id = false) →
        (site.start transaction).inFlight.Trail test passive delivered
            (trail ++ (added.map Queued.delivery).filter (Delivery.passes test)) site.removed
            name ∧
          (site.start transaction).inFlight.Settled test passive name) := by
  rcases site.inFlight.lane_start site.group transaction passive with
    ⟨added, hlane, hentries, hadded⟩
  rcases site.inFlight.drains_start site.group transaction with ⟨targets, hdropped, hdrains⟩
  refine ⟨added, ⟨fun entry hentry => (hentries entry hentry).1, ?_, hadded⟩, ?_⟩
  · intro other hother entry hentry
    cases hother
    exact (hentries entry hentry).2
  · intro hplace
    refine InFlight.trail_extend (InFlight.housed_start hhoused).named ?_ hdropped hlane htrail
      hsettled hplace
    rw [inFlight_start, hdrains]
    intro drain hdrain
    rcases List.mem_append.1 hdrain with hold | hfresh
    · exact Or.inl hold
    · rcases List.mem_map.1 hfresh with ⟨target, -, rfl⟩
      exact Or.inr rfl

/-!
## What a step does to what passives are known to hold
-/

theorem knows_after {object : ObjectId} (hknows : site.inFlight.relay.Knows passive object)
    (hkeeps : happening.Keeps passive) (hafter : site.after? happening = some next) :
    next.inFlight.relay.Knows passive object := by
  have hsame : ∀ inFlight : InFlight, inFlight.relay.held = site.inFlight.relay.held →
      inFlight.relay.Knows passive object := by
    intro inFlight hheld
    unfold Relay.Knows
    rw [hheld]
    exact hknows
  cases happening with
  | start transaction =>
    cases hafter
    rw [inFlight_start]
    rcases site.inFlight.start_cases site.group transaction with
      ⟨-, outcome, hstart⟩ | ⟨id, targets, relay, -, haccept, hstart⟩
    · rw [hstart]
      exact hknows
    · rw [hstart]
      exact Relay.knows_accept haccept hknows
  | move call place move =>
    rcases InFlight.moveDrain?_replaces (inFlight_move? hafter) with
      ⟨id, drain, moved, left, before, after, -, -, -, -, hrelay, -⟩
    apply hsame
    rw [hrelay]
    unfold InFlight.setLane
    split <;> rfl
  | settle call =>
    rcases Option.map_eq_some_iff.1 hafter with ⟨inFlight, hsettle, rfl⟩
    rcases InFlight.drains_settleCall? hsettle with ⟨-, -, -, -, hheld⟩
    exact hsame inFlight hheld
  | declareHeld name objects =>
    cases hafter
    exact Relay.knows_declareHeld hknows (Ne.symm hkeeps) objects
  | widenHeld name objects =>
    cases hafter
    exact Relay.knows_widenHeld hknows name objects
  | operate operation =>
    cases hafter
    exact hknows
  | follow change =>
    cases hafter
    show (site.inFlight.follow change).2.relay.Knows passive object
    rw [InFlight.relay_follow]
    exact Relay.knows_follow hknows hkeeps

end Site
end SharedGraph
