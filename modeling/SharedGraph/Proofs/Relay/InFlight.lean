import SharedGraph.Proofs.Relay.Queueing
import SharedGraph.Proofs.Relay.Settling
import SharedGraph.Relay.InFlight

/-!
# Steps of calls in flight

Every step of calls in flight replaces one drain, one call or none.  Each section takes one
kind of step and says what it does to the calls, the lanes and the ledger, so that an
invariant needs one case for each of them.
-/

namespace SharedGraph

/-!
## Replacing one element of a list
-/

theorem exists_append_of_getElem? {α : Type} {items : List α} {place : Nat} {item : α}
    (hfound : items[place]? = some item) :
    ∃ before after, items = before ++ item :: after ∧
      (∀ other, items.set place other = before ++ other :: after) ∧
      ∀ change, items.modify place change = before ++ change item :: after := by
  induction items generalizing place with
  | nil => simp at hfound
  | cons head rest ih =>
    cases place with
    | zero =>
      simp only [List.getElem?_cons_zero, Option.some.injEq] at hfound
      subst hfound
      exact ⟨[], rest, rfl, fun _ => rfl, fun _ => rfl⟩
    | succ place =>
      rw [List.getElem?_cons_succ] at hfound
      obtain ⟨before, after, hitems, hset, hmodify⟩ := ih hfound
      refine ⟨head :: before, after, by rw [hitems]; rfl, fun other => ?_, fun change => ?_⟩
      · rw [List.set_cons_succ, hset, List.cons_append]
      · rw [List.modify_succ_cons, hmodify, List.cons_append]

namespace Drain

variable {drain moved : Drain} {id : GlobalId} {queue left : List Queued} {free : Bool}
variable {move : DrainMove}

/-- What a drain is done with: all that it has applied, and whether the id of its call is
still in the lane. -/
def Reported (drain : Drain) (id : GlobalId) (queue : List Queued) : Prop :=
  ∀ report, drain.phase = .done report →
    report.applied = drain.applied ∧ (report.stillQueued = false → id ∉ queue.map Queued.id)

theorem reported_of_not_done (hresult : drain.result? = none) : drain.Reported id queue := by
  intro report hdone
  rw [result?, hdone] at hresult
  cases hresult

theorem finish_reported (failure : Option Failure) :
    (drain.finish id queue failure).Reported id queue := by
  intro report hdone
  cases hdone
  refine ⟨rfl, fun hqueued hmem => ?_⟩
  obtain ⟨entry, hentry, hid⟩ := List.mem_map.1 hmem
  have hall := List.any_eq_false.1 hqueued entry hentry
  simp [hid] at hall

/-- A step of a drain lands the front of its lane, or it leaves the lane and what the drain
has applied alone. -/
theorem move?_eq_some (hmove : drain.move? id queue free move = some (moved, left)) :
    moved.target = drain.target ∧ moved.lane = drain.lane ∧ moved.Reported id left ∧
      ((∃ entry, move = .land ∧ queue = entry :: left ∧
          moved.applied = drain.applied ++ [entry.id]) ∨
        (move ≠ .land ∧ queue = left ∧ moved.applied = drain.applied)) := by
  cases move with
  | take =>
    simp only [move?] at hmove
    split at hmove
    · split at hmove
      · cases hmove
        exact ⟨rfl, rfl, reported_of_not_done rfl, .inr ⟨nofun, rfl, rfl⟩⟩
      · cases hmove
    · cases hmove
  | ship flight =>
    simp only [move?] at hmove
    split at hmove
    · cases hmove
      exact ⟨rfl, rfl, reported_of_not_done rfl, .inr ⟨nofun, rfl, rfl⟩⟩
    · cases hmove
  | land =>
    simp only [move?] at hmove
    split at hmove
    · cases hmove
      exact ⟨rfl, rfl, reported_of_not_done rfl, .inl ⟨_, rfl, rfl, rfl⟩⟩
    · cases hmove
  | refuse failure =>
    simp only [move?] at hmove
    split at hmove
    · cases hmove
      exact ⟨rfl, rfl, finish_reported (some failure), .inr ⟨nofun, rfl, rfl⟩⟩
    · cases hmove
  | close =>
    simp only [move?] at hmove
    split at hmove
    · cases hmove
      exact ⟨rfl, rfl, finish_reported none, .inr ⟨nofun, rfl, rfl⟩⟩
    · cases hmove

end Drain

namespace InFlight

variable {state next : InFlight}

/-- Whether every drain works on the lane that the relay has for its target. -/
def Attached (state : InFlight) : Prop :=
  ∀ drain ∈ state.drains, drain.lane = { passive := drain.target.node.name }

theorem drains_of_draining {id : GlobalId} {drains : List Drain} {earlier later : List RelayCall}
    (hcalls : state.calls = earlier ++ .draining id drains :: later) :
    state.drains =
      earlier.flatMap RelayCall.drains ++ (drains ++ later.flatMap RelayCall.drains) := by
  rw [InFlight.drains, hcalls, List.flatMap_append, List.flatMap_cons]
  rfl

theorem drains_of_finished {outcome : Except Failure RelayReport} {earlier later : List RelayCall}
    (hcalls : state.calls = earlier ++ .finished outcome :: later) :
    state.drains = earlier.flatMap RelayCall.drains ++ later.flatMap RelayCall.drains := by
  rw [InFlight.drains, hcalls, List.flatMap_append, List.flatMap_cons]
  rfl

/-!
## Starting a call
-/

theorem start_cases (state : InFlight) (group : FailoverGroup) (transaction : Sequenced) :
    (state.relay.admits? group transaction = none ∧
        ∃ outcome, state.start group transaction =
          { state with calls := state.calls ++ [.finished outcome] }) ∨
      ∃ id targets relay, state.relay.admits? group transaction = some id ∧
        state.relay.accept group id transaction.record = .ok (targets, relay) ∧
        state.start group transaction =
          { state with
            relay, calls := state.calls ++ [.draining id (targets.map Drain.fresh)] } := by
  unfold start Relay.admits?
  cases transaction.globalId with
  | none => exact .inl ⟨rfl, _, rfl⟩
  | some id =>
    cases hnetworked : group.isNetworked with
    | false => exact .inl ⟨by simp, _, by simp; rfl⟩
    | true =>
      simp only [Bool.not_true, Bool.false_eq_true, if_false]
      cases haccept : state.relay.accept group id transaction.record with
      | error failure => exact .inl ⟨rfl, _, rfl⟩
      | ok accepted => exact .inr ⟨id, accepted.1, accepted.2, rfl, haccept, rfl⟩

theorem attached_start {group : FailoverGroup} {transaction : Sequenced}
    (hattached : state.Attached) : (state.start group transaction).Attached := by
  rcases state.start_cases group transaction with
    ⟨_, outcome, hstart⟩ | ⟨id, targets, relay, _, _, hstart⟩
  · intro drain hdrain
    rw [hstart, drains_of_finished rfl, List.flatMap_nil, List.append_nil] at hdrain
    exact hattached drain hdrain
  · intro drain hdrain
    rw [hstart, drains_of_draining rfl, List.flatMap_nil, List.append_nil] at hdrain
    rcases List.mem_append.1 hdrain with hold | hfresh
    · exact hattached drain hold
    · obtain ⟨target, _, rfl⟩ := List.mem_map.1 hfresh
      rfl

/-!
## Moving a drain
-/

theorem lane_setLane (name : LaneName) (queue : List Queued) (passive : String) :
    (state.setLane name queue).relay.lane passive =
      if name = { passive } then queue else state.relay.lane passive := by
  obtain ⟨holder, dropped⟩ := name
  cases dropped with
  | none =>
    simp only [setLane, Relay.lane_insert, LaneName.mk.injEq, and_true, eq_comm]
  | some number => simp [setLane]

theorem setLane_frame (state : InFlight) (name : LaneName) (queue : List Queued) :
    (state.setLane name queue).calls = state.calls ∧
      (state.setLane name queue).relay.ledger = state.relay.ledger ∧
      (state.setLane name queue).relay.policy = state.relay.policy ∧
      (state.setLane name queue).relay.lastQueued = state.relay.lastQueued := by
  obtain ⟨holder, dropped⟩ := name
  cases dropped <;> exact ⟨rfl, rfl, rfl, rfl⟩

theorem drain?_eq_some {call place : Nat} {id : GlobalId} {drain : Drain}
    (hfound : state.drain? call place = some (id, drain)) :
    ∃ earlier later before after,
      state.calls = earlier ++ .draining id (before ++ drain :: after) :: later ∧
      ∀ (other : InFlight) (replacement : Drain), other.calls = state.calls →
        (other.setDrain call place replacement).calls =
          earlier ++ .draining id (before ++ replacement :: after) :: later := by
  unfold drain? at hfound
  split at hfound
  · next own drains hcall =>
    obtain ⟨found, hdrain, hsame⟩ := Option.map_eq_some_iff.1 hfound
    cases hsame
    obtain ⟨earlier, later, hcalls, _, hmodify⟩ := exists_append_of_getElem? hcall
    obtain ⟨before, after, hdrains, hset, _⟩ := exists_append_of_getElem? hdrain
    refine ⟨earlier, later, before, after, hdrains ▸ hcalls, fun other replacement hsame => ?_⟩
    simp only [setDrain, hsame, hmodify, hset]
  · cases hfound
  · cases hfound

theorem moveDrain?_eq_some {call place : Nat} {move : DrainMove}
    (hmove : state.moveDrain? call place move = some next) :
    ∃ id drain moved left earlier later before after,
      state.drain? call place = some (id, drain) ∧
      drain.move? id (state.lane drain.lane) (state.isFree drain.lane) move = some (moved, left) ∧
      state.calls = earlier ++ .draining id (before ++ drain :: after) :: later ∧
      next.calls = earlier ++ .draining id (before ++ moved :: after) :: later ∧
      (∀ passive, next.relay.lane passive =
        if drain.lane = { passive } then left else state.relay.lane passive) ∧
      next.relay.ledger = state.relay.ledger ∧ next.relay.policy = state.relay.policy ∧
      next.relay.lastQueued = state.relay.lastQueued := by
  unfold moveDrain? at hmove
  obtain ⟨⟨id, drain⟩, hfound, hstep⟩ := Option.bind_eq_some_iff.1 hmove
  obtain ⟨⟨moved, left⟩, hmoved, rfl⟩ := Option.map_eq_some_iff.1 hstep
  obtain ⟨earlier, later, before, after, hcalls, hreplaced⟩ := drain?_eq_some hfound
  obtain ⟨hsame, hledger, hpolicy, hlast⟩ := setLane_frame state drain.lane left
  exact ⟨id, drain, moved, left, earlier, later, before, after, hfound, hmoved, hcalls,
    hreplaced _ moved hsame, lane_setLane drain.lane left, hledger, hpolicy, hlast⟩

/-- What a move does where every drain works on the lane of its target: it lands the front
of that lane, or it leaves the lane and what the drain has applied alone. -/
theorem moveDrain?_attached {call place : Nat} {move : DrainMove} (hattached : state.Attached)
    (hmove : state.moveDrain? call place move = some next) :
    ∃ id drain moved left earlier later before after,
      state.drain? call place = some (id, drain) ∧
      drain.lane = { passive := drain.target.node.name } ∧
      moved.lane = drain.lane ∧ moved.target = drain.target ∧ moved.Reported id left ∧
      ((∃ entry, move = .land ∧ state.relay.lane drain.target.node.name = entry :: left ∧
          moved.applied = drain.applied ++ [entry.id]) ∨
        (move ≠ .land ∧ state.relay.lane drain.target.node.name = left ∧
          moved.applied = drain.applied)) ∧
      state.calls = earlier ++ .draining id (before ++ drain :: after) :: later ∧
      next.calls = earlier ++ .draining id (before ++ moved :: after) :: later ∧
      ∀ passive, next.relay.lane passive =
        if drain.target.node.name = passive then left else state.relay.lane passive := by
  obtain ⟨id, drain, moved, left, earlier, later, before, after, hfound, hstep, hcalls, hreplaced,
    hlanes, -⟩ := moveDrain?_eq_some hmove
  have hlane : drain.lane = { passive := drain.target.node.name } := by
    apply hattached
    rw [drains_of_draining hcalls]
    simp
  have hqueue : state.lane drain.lane = state.relay.lane drain.target.node.name := by
    rw [hlane]
    rfl
  rw [hqueue] at hstep
  obtain ⟨htarget, hsame, hreported, hmoved⟩ := Drain.move?_eq_some hstep
  refine ⟨id, drain, moved, left, earlier, later, before, after, hfound, hlane, hsame, htarget,
    hreported, hmoved, hcalls, hreplaced, fun passive => ?_⟩
  rw [hlanes, hlane]
  simp

theorem attached_moveDrain? {call place : Nat} {move : DrainMove} (hattached : state.Attached)
    (hmove : state.moveDrain? call place move = some next) : next.Attached := by
  obtain ⟨id, drain, moved, left, earlier, later, before, after, -, hown, hsame, htarget, -, -,
    hcalls, hreplaced, -⟩ := moveDrain?_attached hattached hmove
  unfold Attached at hattached ⊢
  rw [drains_of_draining hcalls] at hattached
  rw [drains_of_draining hreplaced]
  intro found hfound
  by_cases hmoved : found = moved
  · rw [hmoved, hsame, htarget]
    exact hown
  · apply hattached
    simp only [List.mem_append, List.mem_cons, hmoved, false_or] at hfound ⊢
    rcases hfound with hearlier | (hbefore | hafter) | hlater
    · exact .inl hearlier
    · exact .inr (.inl (.inl hbefore))
    · exact .inr (.inl (.inr (.inr hafter)))
    · exact .inr (.inr hlater)

/-!
## Settling a call
-/

theorem mapM_result?_eq_some {drains : List Drain} {results : List (RelayTarget × LaneReport)}
    (hresults : drains.mapM Drain.result? = some results) :
    (∀ drain ∈ drains, ∃ report, drain.phase = .done report ∧ (drain.target, report) ∈ results) ∧
      ∀ result ∈ results, ∃ drain ∈ drains, drain.target = result.1 ∧
        drain.phase = .done result.2 := by
  induction drains generalizing results with
  | nil =>
    cases hresults
    exact ⟨fun _ hdrain => absurd hdrain List.not_mem_nil,
      fun _ hresult => absurd hresult List.not_mem_nil⟩
  | cons drain rest ih =>
    rw [List.mapM_cons] at hresults
    obtain ⟨result, hresult, htail⟩ := Option.bind_eq_some_iff.1 hresults
    obtain ⟨others, hothers, hsame⟩ := Option.bind_eq_some_iff.1 htail
    cases hsame
    obtain ⟨hdone, hback⟩ := ih hothers
    have hphase : drain.target = result.1 ∧ drain.phase = .done result.2 := by
      unfold Drain.result? at hresult
      split at hresult
      · next report hreport =>
        cases hresult
        exact ⟨rfl, hreport⟩
      all_goals cases hresult
    constructor
    · intro found hfound
      rcases List.mem_cons.1 hfound with rfl | hlater
      · exact ⟨result.2, hphase.2, hphase.1 ▸ List.mem_cons_self⟩
      · obtain ⟨report, hreport, hmem⟩ := hdone found hlater
        exact ⟨report, hreport, List.mem_cons_of_mem _ hmem⟩
    · intro found hfound
      rcases List.mem_cons.1 hfound with rfl | hlater
      · exact ⟨drain, List.mem_cons_self, hphase⟩
      · obtain ⟨other, hother, hreport⟩ := hback found hlater
        exact ⟨other, List.mem_cons_of_mem _ hother, hreport⟩

theorem settleCall?_eq_some {group : GroupId} {call : Nat}
    (hsettled : state.settleCall? group call = some next) :
    ∃ id drains results outcome ledger earlier later, drains.mapM Drain.result? = some results ∧
      state.calls = earlier ++ .draining id drains :: later ∧
      next = { state with
        relay := { state.relay with ledger }, calls := earlier ++ .finished outcome :: later } ∧
      (∀ name other, name ∈ ledger.waiting other ↔ name ∈ state.relay.ledger.waiting other ∧
        ¬∃ result ∈ results, Relay.Covers state.relay.policy.mode id result name other) ∧
      (state.relay.ledger.Tidy → ledger.Tidy) := by
  unfold settleCall? at hsettled
  split at hsettled
  · next id drains hcall =>
    obtain ⟨results, hresults, rfl⟩ := Option.map_eq_some_iff.1 hsettled
    obtain ⟨earlier, later, hcalls, hset, _⟩ := exists_append_of_getElem? hcall
    obtain ⟨ledger, hrelay, hspec⟩ := Relay.settle_relay state.relay group id results
    refine ⟨id, drains, results, (state.relay.settle group id results).1, ledger, earlier, later,
      hresults, hcalls, ?_, hspec⟩
    simp only [hset, hrelay]
  · cases hsettled
  · cases hsettled

theorem attached_settleCall? {group : GroupId} {call : Nat} (hattached : state.Attached)
    (hsettled : state.settleCall? group call = some next) : next.Attached := by
  obtain ⟨id, drains, results, outcome, ledger, earlier, later, -, hcalls, rfl, -⟩ :=
    settleCall?_eq_some hsettled
  intro drain hdrain
  apply hattached
  rw [drains_of_draining hcalls]
  rw [drains_of_finished rfl] at hdrain
  rcases List.mem_append.1 hdrain with hearlier | hlater
  · exact List.mem_append_left _ hearlier
  · exact List.mem_append_right _ (List.mem_append_right _ hlater)

/-!
## Following a reconfiguration
-/

theorem isIdle_iff : state.isIdle = true ↔
    ∀ call ∈ state.calls, ∃ outcome, call = .finished outcome := by
  unfold isIdle
  rw [List.all_eq_true]
  constructor
  · intro hidle call hcall
    have hdone := hidle call hcall
    cases call with
    | draining id drains => cases hdone
    | finished outcome => exact ⟨outcome, rfl⟩
  · intro hidle call hcall
    obtain ⟨outcome, rfl⟩ := hidle call hcall
    rfl

theorem drains_eq_nil (hidle : state.isIdle = true) : state.drains = [] := by
  rw [drains, List.flatMap_eq_nil_iff]
  intro call hcall
  obtain ⟨outcome, rfl⟩ := isIdle_iff.1 hidle call hcall
  rfl

theorem foldl_dropLane_relay (names : List String) (state : InFlight) :
    (names.foldl dropLane state).relay = state.relay := by
  induction names generalizing state with
  | nil => rfl
  | cons name rest ih => exact ih (state.dropLane name)

theorem relay_follow (state : InFlight) (change : MemberChange) :
    (state.follow change).2.relay = (state.relay.follow change).2 := by
  unfold follow
  dsimp only
  rw [foldl_dropLane_relay]

theorem foldl_dropLane_idle (names : List String) (hidle : state.isIdle = true) :
    (names.foldl dropLane state).calls = state.calls := by
  induction names generalizing state with
  | nil => rfl
  | cons name rest ih =>
    have hcalls : (state.dropLane name).calls = state.calls := by
      calc
        _ = state.calls.map id := by
          refine List.map_congr_left fun call hcall => ?_
          obtain ⟨outcome, rfl⟩ := isIdle_iff.1 hidle call hcall
          rfl
        _ = state.calls := List.map_id state.calls
    have hstill : (state.dropLane name).isIdle = true := by
      unfold isIdle
      rw [hcalls]
      exact hidle
    exact (ih hstill).trans hcalls

theorem follow_idle (change : MemberChange) (hidle : state.isIdle = true) :
    (state.follow change).2.calls = state.calls :=
  foldl_dropLane_idle (change.removed.map Node.name) hidle

theorem attached_follow {change : MemberChange} (hidle : state.isIdle = true) :
    (state.follow change).2.Attached := by
  intro drain hdrain
  rw [drains, follow_idle change hidle, ← drains, drains_eq_nil hidle] at hdrain
  cases hdrain

end InFlight
end SharedGraph
