import SharedGraph.Proofs.Relay.Delivery

/-!
# Who has which lane

A reconfiguration takes lanes out of the relay, and the drains that belong to them go on.  So
one name may have several lanes at a time: the one that the relay has, and dropped ones with
drains that are not done.  Whatever happens, each lane belongs to one passive and admits one
drain at a time.
-/

namespace SharedGraph

theorem mem_replaced {α : Type} {before after : List α} {old new item : α}
    (hmem : item ∈ before ++ new :: after) : item = new ∨ item ∈ before ++ old :: after := by
  rcases List.mem_append.1 hmem with hbefore | hrest
  · exact Or.inr (List.mem_append_left _ hbefore)
  · rcases List.mem_cons.1 hrest with hnew | hafter
    · exact Or.inl hnew
    · exact Or.inr (List.mem_append_right _ (List.mem_cons_of_mem _ hafter))

namespace LaneName

variable {name other : LaneName} {owners : List String}

/-- Whether a lane that was dropped was that of its passive.  The owners are the passives whose
lanes were dropped, in the order of the numbers. -/
def OwnedBy (owners : List String) (name : LaneName) : Prop :=
  ∀ number, name.dropped = some number → owners[number]? = some name.passive

theorem ownedBy_current (owners : List String) (passive : String) :
    OwnedBy owners { passive } :=
  nofun

theorem ownedBy_last (owners : List String) (passive : String) :
    OwnedBy (owners ++ [passive]) { passive, dropped := some owners.length } := by
  intro number hnumber
  cases hnumber
  exact List.getElem?_concat_length

theorem ownedBy_append (howned : name.OwnedBy owners) (later : List String) :
    name.OwnedBy (owners ++ later) := by
  intro number hnumber
  have hfound := howned number hnumber
  rw [List.getElem?_append_left (List.getElem?_eq_some_iff.1 hfound).1]
  exact hfound

theorem lt_length_of_ownedBy (howned : name.OwnedBy owners) {number : Nat}
    (hnumber : name.dropped = some number) : number < owners.length :=
  (List.getElem?_eq_some_iff.1 (howned number hnumber)).1

theorem eq_current {passive : String} (hown : name.passive = passive)
    (hdropped : name.dropped = none) : name = { passive } := by
  cases name
  cases hown
  cases hdropped
  rfl

def leave (passive : String) (number : Nat) (name : LaneName) : LaneName :=
  if name = { passive } then { passive, dropped := some number } else name

theorem leave_passive (passive : String) (number : Nat) (name : LaneName) :
    (name.leave passive number).passive = name.passive := by
  unfold leave
  split
  · next hsame => rw [hsame]
  · rfl

theorem leave_of_ne {passive : String} (hother : name.passive ≠ passive) (number : Nat) :
    name.leave passive number = name := by
  apply if_neg
  rintro rfl
  exact hother rfl

theorem leave_dropped {passive : String} (hown : name.passive = passive) (number : Nat) :
    (name.leave passive number).dropped ≠ none := by
  unfold leave
  split
  · nofun
  · next hother =>
    intro hcurrent
    exact hother (eq_current hown hcurrent)

theorem leave_ownedBy (howned : name.OwnedBy owners) (passive : String) :
    (name.leave passive owners.length).OwnedBy (owners ++ [passive]) := by
  unfold leave
  split
  · exact ownedBy_last owners passive
  · exact ownedBy_append howned [passive]

def leaveAll (owners : List String) : List String → LaneName → LaneName
  | [], name => name
  | passive :: rest, name => leaveAll (owners ++ [passive]) rest (name.leave passive owners.length)

theorem leaveAll_of_stays {names : List String} (hstays : name.passive ∉ names) :
    leaveAll owners names name = name := by
  induction names generalizing owners with
  | nil => rfl
  | cons passive rest ih =>
    rw [List.mem_cons, not_or] at hstays
    rw [leaveAll, leave_of_ne hstays.1]
    exact ih hstays.2

theorem leaveAll_dropped {names : List String} (hremoved : name.passive ∈ names) :
    (leaveAll owners names name).dropped ≠ none := by
  induction names generalizing owners name with
  | nil => cases hremoved
  | cons passive rest ih =>
    rw [leaveAll]
    by_cases hrest : name.passive ∈ rest
    · apply ih
      rw [leave_passive]
      exact hrest
    · rw [leaveAll_of_stays (by rw [leave_passive]; exact hrest)]
      exact leave_dropped ((List.mem_cons.1 hremoved).resolve_right hrest) _

theorem eq_of_ownedBy (hname : name.OwnedBy owners) (hother : other.OwnedBy owners)
    {number : Nat} (hfirst : name.dropped = some number) (hsecond : other.dropped = some number) :
    other = name := by
  have hpassive := (hname number hfirst).symm.trans (hother number hsecond)
  cases name
  cases other
  simp_all

end LaneName

namespace Drain

variable {drain moved : Drain} {id : GlobalId} {queue left : List Queued} {free : Bool}
variable {move : DrainMove}

/-- Whether two drains do not have one lane at the same time. -/
def Apart (first second : Drain) : Prop :=
  first.lane = second.lane → ¬(first.hasLane = true ∧ second.hasLane = true)

theorem apart_symm {first second : Drain} (hapart : Apart first second) :
    Apart second first := by
  intro hlane hboth
  exact hapart hlane.symm hboth.symm

theorem hasLane_of_move? (hmove : drain.move? id queue free move = some (moved, left)) :
    drain.result? = none ∧ (moved.hasLane = true → drain.hasLane = true ∨ free = true) := by
  unfold result? hasLane
  cases move with
  | take =>
    simp only [move?] at hmove
    split at hmove
    · next hphase =>
      split at hmove
      · next hfree => exact ⟨by rw [hphase], fun _ => Or.inr hfree⟩
      · cases hmove
    · cases hmove
  | ship flight | land | refuse failure | close =>
    simp only [move?] at hmove
    split at hmove
    · next hphase => exact ⟨by rw [hphase], fun _ => Or.inl (by rw [hphase])⟩
    · cases hmove

theorem leaveLane_lane (passive : String) (number : Nat) (drain : Drain) :
    (drain.leaveLane passive number).lane = drain.lane.leave passive number := by
  unfold leaveLane LaneName.leave
  split <;> rfl

theorem leaveLane_frame (passive : String) (number : Nat) (drain : Drain) :
    (drain.leaveLane passive number).target = drain.target ∧
      (drain.leaveLane passive number).hasLane = drain.hasLane ∧
      (drain.leaveLane passive number).result? = drain.result? := by
  unfold leaveLane
  split <;> exact ⟨rfl, rfl, rfl⟩

end Drain

namespace InFlight

variable {state next : InFlight} {owners : List String} {name other : LaneName}

/-!
## Finding lanes
-/

theorem lane_of_current (state : InFlight) (hslot : name.dropped = none) :
    state.lane name = state.relay.lane name.passive := by
  unfold lane
  rw [hslot]

theorem lane_of_dropped (state : InFlight) {number : Nat} (hslot : name.dropped = some number) :
    state.lane name = (state.dropped[number]?).getD [] := by
  unfold lane
  rw [hslot]

theorem lane_setLane_owned (hlength : owners.length = state.dropped.length)
    (hname : name.OwnedBy owners) (hother : other.OwnedBy owners) (queue : List Queued) :
    (state.setLane name queue).lane other = if other = name then queue else state.lane other := by
  cases hslot : name.dropped with
  | none =>
    cases hplace : other.dropped with
    | none =>
      have hsame : other = name ↔ other.passive = name.passive := by
        cases name
        cases other
        simp_all
      simp only [setLane, lane, Relay.lane, hslot, hplace, hsame, SortedMap.get?_insert]
      split <;> rfl
    | some number =>
      rw [if_neg (by rintro rfl; simp_all)]
      simp only [setLane, lane, hslot, hplace]
  | some slot =>
    cases hplace : other.dropped with
    | none =>
      rw [if_neg (by rintro rfl; simp_all)]
      simp only [setLane, lane, hslot, hplace]
    | some number =>
      simp only [setLane, lane, hslot, hplace]
      by_cases hsame : slot = number
      · subst hsame
        have hbound := LaneName.lt_length_of_ownedBy hname hslot
        rw [if_pos (LaneName.eq_of_ownedBy hname hother hslot hplace),
          List.getElem?_set_self (hlength ▸ hbound)]
        rfl
      · rw [List.getElem?_set_ne hsame, if_neg]
        rintro rfl
        rw [hslot] at hplace
        cases hplace
        exact hsame rfl

theorem moveDrain?_replaces {call place : Nat} {move : DrainMove}
    (hmove : state.moveDrain? call place move = some next) :
    ∃ id drain moved left before after, state.drain? call place = some (id, drain) ∧
      drain.move? id (state.lane drain.lane) (state.isFree drain.lane) move = some (moved, left) ∧
      state.drains = before ++ drain :: after ∧ next.drains = before ++ moved :: after ∧
      next.relay = (state.setLane drain.lane left).relay ∧
      next.dropped = (state.setLane drain.lane left).dropped := by
  unfold moveDrain? at hmove
  rcases Option.bind_eq_some_iff.1 hmove with ⟨⟨id, drain⟩, hfound, hstep⟩
  rcases Option.map_eq_some_iff.1 hstep with ⟨⟨moved, left⟩, hmoved, rfl⟩
  rcases drain?_eq_some hfound with ⟨earlier, later, before, after, hcalls, hreplaced⟩
  have hnext := hreplaced _ moved (setLane_frame state drain.lane left).1
  refine ⟨id, drain, moved, left, earlier.flatMap RelayCall.drains ++ before,
    after ++ later.flatMap RelayCall.drains, hfound, hmoved, ?_, ?_, rfl, rfl⟩
  · rw [drains_of_draining hcalls]
    simp only [List.append_assoc, List.cons_append]
  · rw [drains_of_draining hnext]
    simp only [List.append_assoc, List.cons_append]

theorem lane_congr (hrelay : next.relay.lanes = state.relay.lanes)
    (hdropped : next.dropped = state.dropped) (name : LaneName) :
    next.lane name = state.lane name := by
  unfold lane Relay.lane
  rw [hrelay, hdropped]

/-- A move of one drain: what lands comes from the front of the drain's lane, and nothing else
leaves a lane. -/
structure Moves (state next : InFlight) (owners : List String) (move : DrainMove)
    (drain moved : Drain) (landed left : List Queued) : Prop where
  mem : drain ∈ state.drains
  unfinished : drain.result? = none
  target : moved.target = drain.target
  lane : moved.lane = drain.lane
  lands : (∃ entry, move = .land ∧ landed = [entry]) ∨ (move ≠ .land ∧ landed = [])
  queue : state.lane drain.lane = landed ++ left
  drains : ∀ found ∈ next.drains, found = moved ∨ found ∈ state.drains
  lanes : ∀ other : LaneName, other.OwnedBy owners →
    next.lane other = if other = drain.lane then left else state.lane other
  lastQueued : next.relay.lastQueued = state.relay.lastQueued

theorem length_dropped_setLane (name : LaneName) (queue : List Queued) :
    (state.setLane name queue).dropped.length = state.dropped.length := by
  unfold setLane
  split
  · rfl
  · exact List.length_set

theorem drains_start (state : InFlight) (group : FailoverGroup) (transaction : Sequenced) :
    ∃ targets : List RelayTarget, (state.start group transaction).dropped = state.dropped ∧
      (state.start group transaction).drains = state.drains ++ targets.map Drain.fresh := by
  rcases state.start_cases group transaction with
    ⟨-, outcome, hstart⟩ | ⟨id, targets, relay, -, -, hstart⟩
  · refine ⟨[], ?_⟩
    rw [hstart, drains_of_finished rfl]
    exact ⟨rfl, rfl⟩
  · refine ⟨targets, ?_⟩
    rw [hstart, drains_of_draining rfl, List.flatMap_nil, List.append_nil]
    exact ⟨rfl, rfl⟩

theorem drains_settleCall? {group : GroupId} {call : Nat}
    (hsettled : state.settleCall? group call = some next) :
    next.drains.Sublist state.drains ∧ next.dropped = state.dropped ∧
      next.relay.lanes = state.relay.lanes ∧
      next.relay.lastQueued = state.relay.lastQueued ∧ next.relay.held = state.relay.held := by
  rcases settleCall?_eq_some hsettled with
    ⟨id, drains, results, outcome, ledger, earlier, later, -, hcalls, rfl, -⟩
  refine ⟨?_, rfl, rfl, rfl, rfl⟩
  rw [drains_of_draining hcalls, drains_of_finished rfl]
  exact (List.Sublist.refl _).append (List.sublist_append_right _ _)

/-- Two states with the same lanes, the later one with no new drains. -/
structure Quiet (state next : InFlight) : Prop where
  drains : next.drains.Sublist state.drains
  dropped : next.dropped = state.dropped
  lanes : next.relay.lanes = state.relay.lanes
  lastQueued : next.relay.lastQueued = state.relay.lastQueued

theorem Quiet.lane (hquiet : state.Quiet next) (name : LaneName) :
    next.lane name = state.lane name :=
  lane_congr hquiet.lanes hquiet.dropped name

theorem drains_dropLane (state : InFlight) (passive : String) :
    (state.dropLane passive).drains =
      state.drains.map (Drain.leaveLane passive state.dropped.length) := by
  unfold dropLane drains
  dsimp only
  induction state.calls with
  | nil => rfl
  | cons call rest ih =>
    rw [List.map_cons, List.flatMap_cons, List.flatMap_cons, List.map_append, ih]
    cases call <;> rfl

theorem lane_dropLane (hnumbered : owners.length = state.dropped.length)
    (howned : name.OwnedBy owners) (passive : String) :
    (state.dropLane passive).lane (name.leave passive owners.length) = state.lane name := by
  unfold LaneName.leave
  split
  · next hleaves =>
    rw [hleaves, hnumbered]
    show ((state.dropped ++ [state.relay.lane passive])[state.dropped.length]?).getD [] = _
    rw [List.getElem?_concat_length]
    rfl
  · unfold lane
    cases hslot : name.dropped with
    | none => rfl
    | some number =>
      have hbound := LaneName.lt_length_of_ownedBy howned hslot
      rw [hnumbered] at hbound
      show ((state.dropped ++ [state.relay.lane passive])[number]?).getD [] = _
      rw [List.getElem?_append_left hbound]

/-!
## One drain at a time
-/

/-- Every drain works on a lane of its target, and no two drains have one lane. -/
structure Housed (owners : List String) (state : InFlight) : Prop where
  numbered : owners.length = state.dropped.length
  named : ∀ drain ∈ state.drains, drain.lane.passive = drain.target.node.name
  owned : ∀ drain ∈ state.drains, drain.lane.OwnedBy owners
  exclusive : state.drains.Pairwise Drain.Apart

theorem housed_start {group : FailoverGroup} {transaction : Sequenced}
    (hhoused : state.Housed owners) : (state.start group transaction).Housed owners := by
  rcases drains_start state group transaction with ⟨targets, hdropped, hdrains⟩
  have hfresh : ∀ drain ∈ targets.map Drain.fresh,
      drain.lane = { passive := drain.target.node.name } ∧ drain.hasLane = false := by
    intro drain hdrain
    rcases List.mem_map.1 hdrain with ⟨target, -, rfl⟩
    exact ⟨rfl, rfl⟩
  constructor
  · rw [hdropped]
    exact hhoused.numbered
  · rw [hdrains]
    intro drain hdrain
    rcases List.mem_append.1 hdrain with hold | hnew
    · exact hhoused.named drain hold
    · rw [(hfresh drain hnew).1]
  · rw [hdrains]
    intro drain hdrain
    rcases List.mem_append.1 hdrain with hold | hnew
    · exact hhoused.owned drain hold
    · rw [(hfresh drain hnew).1]
      exact LaneName.ownedBy_current _ _
  · rw [hdrains, List.pairwise_append]
    refine ⟨hhoused.exclusive, ?_, ?_⟩
    · apply List.pairwise_of_forall_mem_list
      intro first _ second hsecond _ hboth
      rw [(hfresh second hsecond).2] at hboth
      cases hboth.2
    · intro first _ second hsecond _ hboth
      rw [(hfresh second hsecond).2] at hboth
      cases hboth.2

theorem isFree_iff : state.isFree name = true ↔
    ∀ drain ∈ state.drains, drain.lane = name → drain.hasLane = false := by
  unfold isFree
  rw [List.all_eq_true]
  constructor
  · intro hall drain hdrain hlane
    have hfree := hall drain hdrain
    rw [hlane] at hfree
    simpa using hfree
  · intro hfree drain hdrain
    by_cases hlane : drain.lane = name
    · simp [hfree drain hdrain hlane]
    · simp [hlane]

theorem housed_moveDrain? {call place : Nat} {move : DrainMove} (hhoused : state.Housed owners)
    (hmove : state.moveDrain? call place move = some next) : next.Housed owners := by
  rcases moveDrain?_replaces hmove with
    ⟨id, drain, moved, left, before, after, -, hstep, hdrains, hreplaced, -, hdropped⟩
  rcases Drain.move?_eq_some hstep with ⟨htarget, hlane, -, -⟩
  have hdrain : drain ∈ state.drains := by
    rw [hdrains]
    exact List.mem_append_right _ List.mem_cons_self
  have hmem : ∀ found ∈ next.drains, found = moved ∨ found ∈ state.drains := by
    rw [hreplaced, hdrains]
    exact fun found hfound => mem_replaced hfound
  constructor
  · rw [hdropped, length_dropped_setLane]
    exact hhoused.numbered
  · intro found hfound
    rcases hmem found hfound with rfl | hold
    · rw [hlane, htarget]
      exact hhoused.named drain hdrain
    · exact hhoused.named found hold
  · intro found hfound
    rcases hmem found hfound with rfl | hold
    · rw [hlane]
      exact hhoused.owned drain hdrain
    · exact hhoused.owned found hold
  · have hexclusive := hhoused.exclusive
    rw [hdrains, List.pairwise_middle Drain.apart_symm, List.pairwise_cons] at hexclusive
    rw [hreplaced, List.pairwise_middle Drain.apart_symm, List.pairwise_cons]
    refine ⟨?_, hexclusive.2⟩
    intro found hfound hsame hboth
    rw [hlane] at hsame
    -- a drain that has just got its lane found it free
    rcases (Drain.hasLane_of_move? hstep).2 hboth.1 with hhad | hfree
    · exact hexclusive.1 found hfound hsame ⟨hhad, hboth.2⟩
    · have hother : found ∈ state.drains := by
        rw [hdrains]
        rcases List.mem_append.1 hfound with hbefore | hafter
        · exact List.mem_append_left _ hbefore
        · exact List.mem_append_right _ (List.mem_cons_of_mem _ hafter)
      have hno := isFree_iff.1 hfree found hother hsame.symm
      rw [hno] at hboth
      cases hboth.2

theorem moves_moveDrain? {call place : Nat} {move : DrainMove} (hhoused : state.Housed owners)
    (hmove : state.moveDrain? call place move = some next) :
    ∃ id drain moved landed left, state.drain? call place = some (id, drain) ∧
      state.Moves next owners move drain moved landed left := by
  rcases moveDrain?_replaces hmove with
    ⟨id, drain, moved, left, before, after, hfound, hstep, hdrains, hreplaced, hrelay, hdropped⟩
  rcases Drain.move?_eq_some hstep with ⟨htarget, hlane, -, hlanding⟩
  have hmem : drain ∈ state.drains := by
    rw [hdrains]
    exact List.mem_append_right _ List.mem_cons_self
  have hmoves : ∀ landed, ((∃ entry, move = .land ∧ landed = [entry]) ∨
      (move ≠ .land ∧ landed = [])) → state.lane drain.lane = landed ++ left →
      state.Moves next owners move drain moved landed left := by
    intro landed hlands hqueue
    refine ⟨hmem, (Drain.hasLane_of_move? hstep).1, htarget, hlane, hlands, hqueue, ?_, ?_, ?_⟩
    · rw [hreplaced, hdrains]
      exact fun found hfound => mem_replaced hfound
    · intro other hother
      rw [lane_congr (congrArg Relay.lanes hrelay) hdropped]
      exact lane_setLane_owned hhoused.numbered (hhoused.owned drain hmem) hother left
    · rw [hrelay]
      exact (setLane_frame _ _ _).2.2.2
  rcases hlanding with ⟨entry, hland, hfront, -⟩ | ⟨hother, hstill, -⟩
  · exact ⟨id, drain, moved, [entry], left, hfound, hmoves _ (Or.inl ⟨entry, hland, rfl⟩) hfront⟩
  · exact ⟨id, drain, moved, [], left, hfound, hmoves _ (Or.inr ⟨hother, rfl⟩) hstill⟩

theorem housed_of_quiet (hhoused : state.Housed owners) (hquiet : state.Quiet next) :
    next.Housed owners := by
  constructor
  · rw [hquiet.dropped]
    exact hhoused.numbered
  · intro drain hdrain
    exact hhoused.named drain (hquiet.drains.subset hdrain)
  · intro drain hdrain
    exact hhoused.owned drain (hquiet.drains.subset hdrain)
  · exact hhoused.exclusive.sublist hquiet.drains

theorem housed_of_relay (relay : Relay) (hhoused : state.Housed owners) :
    { state with relay }.Housed owners :=
  ⟨hhoused.numbered, hhoused.named, hhoused.owned, hhoused.exclusive⟩

theorem housed_dropLane (hhoused : state.Housed owners) (passive : String) :
    (state.dropLane passive).Housed (owners ++ [passive]) := by
  have hnumbered := hhoused.numbered
  constructor
  · rw [List.length_append, hnumbered]
    unfold dropLane
    rw [List.length_append]
    rfl
  · rw [drains_dropLane]
    intro drain hdrain
    rcases List.mem_map.1 hdrain with ⟨old, hold, rfl⟩
    rw [Drain.leaveLane_lane, (Drain.leaveLane_frame passive _ old).1, ← hhoused.named old hold]
    exact LaneName.leave_passive _ _ _
  · rw [drains_dropLane]
    intro drain hdrain
    rcases List.mem_map.1 hdrain with ⟨old, hold, rfl⟩
    rw [Drain.leaveLane_lane, ← hnumbered]
    exact LaneName.leave_ownedBy (hhoused.owned old hold) passive
  · rw [drains_dropLane, List.pairwise_map]
    apply hhoused.exclusive.imp_of_mem
    intro first second hfirst hsecond hapart
    unfold Drain.Apart
    rw [Drain.leaveLane_lane, Drain.leaveLane_lane, (Drain.leaveLane_frame passive _ first).2.1,
      (Drain.leaveLane_frame passive _ second).2.1]
    intro hsame
    apply hapart
    -- The lane gets a number that no lane had, so no drain is there already.
    have hbound : ∀ drain ∈ state.drains,
        drain.lane ≠ { passive, dropped := some state.dropped.length } := by
      intro drain hdrain hlane
      have hnumber : drain.lane.dropped = some state.dropped.length := by
        rw [hlane]
      have hlast := LaneName.lt_length_of_ownedBy (hhoused.owned drain hdrain) hnumber
      rw [hnumbered] at hlast
      exact Nat.lt_irrefl _ hlast
    unfold LaneName.leave at hsame
    split at hsame
    · next hleft =>
      split at hsame
      · next hright => rw [hleft, hright]
      · exact absurd hsame.symm (hbound second hsecond)
    · split at hsame
      · exact absurd hsame (hbound first hfirst)
      · exact hsame

theorem housed_foldl_dropLane (names : List String) (hhoused : state.Housed owners) :
    (names.foldl dropLane state).Housed (owners ++ names) := by
  induction names generalizing state owners with
  | nil =>
    rw [List.append_nil]
    exact hhoused
  | cons name rest ih =>
    have hrest := ih (housed_dropLane hhoused name)
    rw [List.append_assoc] at hrest
    exact hrest

theorem housed_follow (hhoused : state.Housed owners) (change : MemberChange) :
    (state.follow change).2.Housed (owners ++ change.removed.map Node.name) :=
  housed_of_relay _ (housed_foldl_dropLane (change.removed.map Node.name) hhoused)

/-!
## The lanes after a change of members
-/

theorem lane_follow_of_dropped (change : MemberChange) (hdropped : name.dropped ≠ none) :
    (state.follow change).2.lane name =
      ((change.removed.map Node.name).foldl dropLane state).lane name := by
  unfold lane
  cases hslot : name.dropped with
  | none => exact absurd hslot hdropped
  | some number => rfl

theorem lane_follow_of_stays (change : MemberChange)
    (hstays : name.passive ∉ change.removed.map Node.name) :
    (state.follow change).2.lane name =
      ((change.removed.map Node.name).foldl dropLane state).lane name := by
  cases hslot : name.dropped with
  | none =>
    unfold lane
    rw [hslot]
    dsimp only
    rw [relay_follow, Relay.lane_follow, if_neg hstays, foldl_dropLane_relay]
  | some number =>
    apply lane_follow_of_dropped
    rw [hslot]
    nofun

end InFlight

def Happening.IsQuiet : Happening → Prop
  | .start _ | .move .. | .follow _ => False
  | .settle _ | .declareHeld .. | .widenHeld .. | .operate _ => True

namespace Site

variable {site next last : Site} {happening : Happening} {happenings : List Happening}

theorem quiet_after (hquiet : happening.IsQuiet) (hafter : site.after? happening = some next) :
    site.inFlight.Quiet next.inFlight ∧ next.removed = site.removed ∧
      next.applied = site.applied := by
  cases happening with
  | start transaction | move call place move | follow change => exact hquiet.elim
  | settle call =>
    rcases Option.map_eq_some_iff.1 hafter with ⟨inFlight, hsettle, rfl⟩
    rcases InFlight.drains_settleCall? hsettle with ⟨hdrains, hdropped, hlanes, hlast, -⟩
    exact ⟨⟨hdrains, hdropped, hlanes, hlast⟩, rfl, rfl⟩
  | declareHeld name objects | widenHeld name objects | operate operation =>
    cases hafter
    exact ⟨⟨List.Sublist.refl _, rfl, rfl, rfl⟩, rfl, rfl⟩

theorem removed_move? {call place : Nat} {move : DrainMove}
    (hmove : site.move? call place move = some next) : next.removed = site.removed := by
  rcases Option.map_eq_some_iff.1 hmove with ⟨inFlight, -, hnext⟩
  cases move with
  | land | take | ship flight | refuse failure | close =>
    cases hnext
    rfl

theorem housed_after (hhoused : site.inFlight.Housed site.removed)
    (hafter : site.after? happening = some next) : next.inFlight.Housed next.removed := by
  cases happening with
  | start transaction =>
    cases hafter
    exact InFlight.housed_start hhoused
  | move call place move =>
    rw [removed_move? hafter]
    exact InFlight.housed_moveDrain? hhoused (inFlight_move? hafter)
  | settle call | declareHeld name objects | widenHeld name objects | operate operation =>
    rcases quiet_after (by trivial) hafter with ⟨hquiet, hremoved, -⟩
    rw [hremoved]
    exact InFlight.housed_of_quiet hhoused hquiet
  | follow change =>
    cases hafter
    exact InFlight.housed_follow hhoused change

theorem opened_housed (group : FailoverGroup) (policy : RelayPolicy) :
    (opened group policy).inFlight.Housed (opened group policy).removed :=
  ⟨rfl, fun _ hdrain => absurd hdrain List.not_mem_nil,
    fun _ hdrain => absurd hdrain List.not_mem_nil, .nil⟩

end Site
end SharedGraph
