import SharedGraph.Proofs.Relay.Delivery

/-!
# The ledger and the lanes

The ledger and the lanes are kept apart, and an id may be applied by one call and
acknowledged by another, later.  What connects them is the list of ids that a drain in
progress has applied and that no call has acknowledged yet: under synchronous relaying the
ledger waits for a passive exactly where the id is in that list or in the lane of the
passive.  When no call is in progress the list is empty, and the two agree.
-/

namespace SharedGraph

def Drain.appliedTo (passive : String) (drains : List Drain) : List GlobalId :=
  (drains.filter fun drain => drain.target.node.name == passive).flatMap Drain.applied

namespace Drain

variable {drain moved : Drain} {id : GlobalId} {passive : String}

theorem appliedTo_append (first second : List Drain) :
    appliedTo passive (first ++ second) = appliedTo passive first ++ appliedTo passive second := by
  unfold appliedTo
  rw [List.filter_append, List.flatMap_append]

theorem appliedTo_cons (drain : Drain) (rest : List Drain) :
    appliedTo passive (drain :: rest) =
      (if drain.target.node.name = passive then drain.applied else []) ++
        appliedTo passive rest := by
  unfold appliedTo
  rw [List.filter_cons]
  by_cases hmine : drain.target.node.name = passive
  · simp [hmine]
  · simp [hmine]

theorem mem_appliedTo {drains : List Drain} :
    id ∈ appliedTo passive drains ↔
      ∃ drain ∈ drains, drain.target.node.name = passive ∧ id ∈ drain.applied := by
  unfold appliedTo
  simp only [List.mem_flatMap, List.mem_filter, beq_iff_eq, and_assoc]

theorem appliedTo_fresh (targets : List RelayTarget) :
    appliedTo passive (targets.map fresh) = [] := by
  refine List.eq_nil_iff_forall_not_mem.2 fun id hmem => ?_
  obtain ⟨drain, hdrain, -, happlied⟩ := mem_appliedTo.1 hmem
  obtain ⟨target, -, rfl⟩ := List.mem_map.1 hdrain
  cases happlied

theorem reported_of_reported {queue left : List Queued} (hreported : drain.Reported id queue)
    (hstays : id ∈ left.map Queued.id → id ∈ queue.map Queued.id) : drain.Reported id left := by
  intro report hdone
  obtain ⟨happlied, hgone⟩ := hreported report hdone
  exact ⟨happlied, fun hqueued hmem => hgone hqueued (hstays hmem)⟩

end Drain

namespace InFlight

variable {state next : InFlight} {id other : GlobalId} {passive : String}

/-- The ids that a passive has applied for calls in progress, which the ledger has not been
told yet. -/
def unacknowledged (state : InFlight) (passive : String) : List GlobalId :=
  Drain.appliedTo passive state.drains

def Awaits (state : InFlight) (passive : String) (id : GlobalId) : Prop :=
  ∃ drains, RelayCall.draining id drains ∈ state.calls ∧
    ∃ drain ∈ drains, drain.target.node.name = passive

def Passed (state : InFlight) (id : GlobalId) : Prop :=
  ∃ last, state.relay.lastQueued = some last ∧ id ≤ last

theorem passed_of_lastQueued (hlast : next.relay.lastQueued = state.relay.lastQueued)
    (hpassed : state.Passed id) : next.Passed id := by
  rcases hpassed with ⟨last, hmark, hle⟩
  exact ⟨last, hlast.trans hmark, hle⟩

/-- Why the ledger may wait for a passive: it has applied the id and that is not told yet,
or the id is still in its lane.  Those who fail are waited for only until their call is
settled, unless relaying is synchronous. -/
def Owes (state : InFlight) (passive : String) (id : GlobalId) : Prop :=
  id ∈ state.unacknowledged passive ∨
    (id ∈ state.relay.backlog passive ∧
      (state.relay.policy.mode = .bestEffort → state.Awaits passive id))

/-- The invariant that connects the ledger with the lanes and the drains. -/
structure Accounted (state : InFlight) : Prop where
  attached : state.Attached
  tidy : state.relay.ledger.Tidy
  once : ∀ passive, (state.unacknowledged passive ++ state.relay.backlog passive).Nodup
  passed : ∀ passive, ∀ id ∈ state.unacknowledged passive ++ state.relay.backlog passive,
    state.Passed id
  started : ∀ id drains, RelayCall.draining id drains ∈ state.calls → state.Passed id
  reported : ∀ id drains, RelayCall.draining id drains ∈ state.calls →
    ∀ drain ∈ drains, drain.Reported id (state.relay.lane drain.target.node.name)
  owed : ∀ passive id, passive ∈ state.relay.ledger.waiting id → state.Owes passive id
  waited : state.relay.policy.mode = .sync →
    ∀ passive, ∀ id ∈ state.unacknowledged passive ++ state.relay.backlog passive,
      passive ∈ state.relay.ledger.waiting id

theorem accounted_empty (policy : RelayPolicy) : Accounted { relay := { policy } } where
  attached _ hdrain := absurd hdrain List.not_mem_nil
  tidy := Ledger.tidy_empty
  once _ := .nil
  passed _ _ hmem := absurd hmem List.not_mem_nil
  started _ _ hcall := absurd hcall List.not_mem_nil
  reported _ _ hcall := absurd hcall List.not_mem_nil
  owed _ _ hwaiting := absurd hwaiting (by simp [Ledger.mem_waiting_iff])
  waited _ _ _ hmem := absurd hmem List.not_mem_nil

theorem unacknowledged_of_draining {drains : List Drain} {earlier later : List RelayCall}
    (hcalls : state.calls = earlier ++ .draining id drains :: later) :
    state.unacknowledged passive =
      Drain.appliedTo passive (earlier.flatMap RelayCall.drains) ++
        (Drain.appliedTo passive drains ++
          Drain.appliedTo passive (later.flatMap RelayCall.drains)) := by
  unfold unacknowledged
  rw [drains_of_draining hcalls, Drain.appliedTo_append, Drain.appliedTo_append]

theorem unacknowledged_of_finished {outcome : Except Failure RelayReport}
    {earlier later : List RelayCall}
    (hcalls : state.calls = earlier ++ .finished outcome :: later) :
    state.unacknowledged passive =
      Drain.appliedTo passive (earlier.flatMap RelayCall.drains) ++
        Drain.appliedTo passive (later.flatMap RelayCall.drains) := by
  unfold unacknowledged
  rw [drains_of_finished hcalls, Drain.appliedTo_append]

/-!
## Starting a call
-/

theorem accounted_refused {outcome : Except Failure RelayReport} (hstate : state.Accounted) :
    Accounted { state with calls := state.calls ++ [.finished outcome] } := by
  have hdrains : drains { state with calls := state.calls ++ [.finished outcome] } =
      state.drains := by
    rw [drains_of_finished rfl, List.flatMap_nil, List.append_nil]
    rfl
  have hlive : ∀ {id drains}, RelayCall.draining id drains ∈ state.calls ++ [.finished outcome] →
      RelayCall.draining id drains ∈ state.calls := by
    intro id drains hcall
    simpa using hcall
  have hunacknowledged : ∀ passive,
      unacknowledged { state with calls := state.calls ++ [.finished outcome] } passive =
        state.unacknowledged passive :=
    fun passive => congrArg (Drain.appliedTo passive) hdrains
  constructor
  case attached =>
    unfold Attached
    rw [hdrains]
    exact hstate.attached
  case tidy => exact hstate.tidy
  case once =>
    intro passive
    rw [hunacknowledged]
    exact hstate.once passive
  case passed =>
    intro passive
    rw [hunacknowledged]
    exact hstate.passed passive
  case started => exact fun id drains hcall => hstate.started id drains (hlive hcall)
  case reported => exact fun id drains hcall => hstate.reported id drains (hlive hcall)
  case owed =>
    intro passive id hwaiting
    rcases hstate.owed passive id hwaiting with happlied | ⟨hqueued, hawaits⟩
    · exact .inl (hunacknowledged passive ▸ happlied)
    · refine .inr ⟨hqueued, fun hmode => ?_⟩
      obtain ⟨drains, hcall, hdrain⟩ := hawaits hmode
      exact ⟨drains, List.mem_append_left _ hcall, hdrain⟩
  case waited =>
    intro hmode passive
    rw [hunacknowledged]
    exact hstate.waited hmode passive

/-- The state in which a call has queued its record and no drain of it has moved. -/
def joined (state : InFlight) (relay : Relay) (id : GlobalId) (targets : List RelayTarget) :
    InFlight :=
  { state with relay, calls := state.calls ++ [.draining id (targets.map Drain.fresh)] }

section Accepted

variable {group : FailoverGroup} {record : Record} {targets : List RelayTarget} {relay : Relay}

theorem unacknowledged_joined (passive : String) :
    (state.joined relay id targets).unacknowledged passive = state.unacknowledged passive := by
  rw [unacknowledged_of_draining rfl, Drain.appliedTo_fresh]
  simp [unacknowledged, drains, Drain.appliedTo]

theorem attached_joined (hattached : state.Attached) :
    (state.joined relay id targets).Attached := by
  intro drain hdrain
  rw [drains_of_draining rfl, List.flatMap_nil, List.append_nil, List.mem_append] at hdrain
  rcases hdrain with hold | hfresh
  · exact hattached drain hold
  · rcases List.mem_map.1 hfresh with ⟨target, -, rfl⟩
    rfl

theorem mem_calls_joined {drains : List Drain} :
    RelayCall.draining other drains ∈ (state.joined relay id targets).calls ↔
      RelayCall.draining other drains ∈ state.calls ∨
        (other = id ∧ drains = targets.map Drain.fresh) := by
  rw [joined, List.mem_append, List.mem_singleton, RelayCall.draining.injEq]

variable (haccept : state.relay.accept group id record = .ok (targets, relay))

include haccept

theorem lt_of_passed (hpassed : state.Passed other) : other < id :=
  lt_of_upTo (Relay.accept_lastQueued haccept).2 hpassed

theorem passed_joined_self : (state.joined relay id targets).Passed id :=
  ⟨id, (Relay.accept_lastQueued haccept).1, GlobalId.le_refl id⟩

theorem passed_joined (hpassed : state.Passed other) :
    (state.joined relay id targets).Passed other :=
  ⟨id, (Relay.accept_lastQueued haccept).1, GlobalId.le_of_lt (lt_of_passed haccept hpassed)⟩

variable (hgroup : group.Consistent) (hnamed : group.Named)

include hgroup hnamed

/-- Only a passive of the call owes anything new. -/
theorem mem_owing_joined :
    other ∈ (state.joined relay id targets).unacknowledged passive ++
        (state.joined relay id targets).relay.backlog passive ↔
      other ∈ state.unacknowledged passive ++ state.relay.backlog passive ∨
        (other = id ∧ group.hasPassive passive = true) := by
  have hbacklog : other ∈ (state.joined relay id targets).relay.backlog passive ↔ _ :=
    Relay.mem_backlog_of_accept hgroup hnamed haccept
  rw [List.mem_append, List.mem_append, unacknowledged_joined, hbacklog, or_assoc]

theorem reported_joined (hstate : state.Accounted) {drains : List Drain} {drain : Drain}
    (hcall : RelayCall.draining other drains ∈ state.calls) (hdrain : drain ∈ drains) :
    drain.Reported other (relay.lane drain.target.node.name) := by
  refine Drain.reported_of_reported (hstate.reported other drains hcall drain hdrain)
    fun hqueued => ?_
  -- The id of the call is behind all that are passed, so an older call has another one.
  have hearlier := lt_of_passed haccept (hstate.started other drains hcall)
  exact ((Relay.mem_backlog_of_accept hgroup hnamed haccept).1 hqueued).resolve_right
    fun hnew => GlobalId.ne_of_lt hearlier hnew.1

theorem owes_joined (howes : state.Owes passive other) :
    (state.joined relay id targets).Owes passive other := by
  rcases howes with happlied | ⟨hqueued, hawaits⟩
  · left
    rw [unacknowledged_joined]
    exact happlied
  · right
    constructor
    · exact (Relay.mem_backlog_of_accept hgroup hnamed haccept).2 (Or.inl hqueued)
    · intro hmode
      rcases hawaits (Relay.accept_policy haccept ▸ hmode) with ⟨drains, hcall, hdrain⟩
      exact ⟨drains, mem_calls_joined.2 (Or.inl hcall), hdrain⟩

theorem owes_joined_self (hpassive : group.hasPassive passive = true) :
    (state.joined relay id targets).Owes passive id := by
  right
  constructor
  · exact (Relay.mem_backlog_of_accept hgroup hnamed haccept).2 (Or.inr ⟨rfl, hpassive⟩)
  · intro _
    rcases (Relay.hasPassive_of_accept haccept passive).1 hpassive with ⟨target, htarget, hname⟩
    exact ⟨_, mem_calls_joined.2 (Or.inr ⟨rfl, rfl⟩), Drain.fresh target,
      List.mem_map_of_mem htarget, hname⟩

theorem accounted_joined (hstate : state.Accounted) :
    (state.joined relay id targets).Accounted := by
  constructor
  case attached => exact attached_joined hstate.attached
  case tidy => exact Relay.tidy_accept haccept hstate.tidy
  case once =>
    intro passive
    have hbacklog : (state.joined relay id targets).relay.backlog passive = _ :=
      Relay.backlog_accept hgroup hnamed haccept passive
    rw [unacknowledged_joined, hbacklog, ← List.append_assoc]
    -- All that was queued has had its turn, so the id of the call is new.
    exact nodup_append_new (hstate.once passive)
      (fun hold => GlobalId.lt_irrefl _ (lt_of_passed haccept (hstate.passed passive id hold))) _
  case passed =>
    intro passive other hother
    rcases (mem_owing_joined haccept hgroup hnamed).1 hother with hold | ⟨rfl, -⟩
    · exact passed_joined haccept (hstate.passed passive other hold)
    · exact passed_joined_self haccept
  case started =>
    intro other drains hcall
    rcases mem_calls_joined.1 hcall with hold | ⟨rfl, -⟩
    · exact passed_joined haccept (hstate.started other drains hold)
    · exact passed_joined_self haccept
  case reported =>
    intro other drains hcall drain hdrain
    rcases mem_calls_joined.1 hcall with hold | ⟨-, rfl⟩
    · exact reported_joined haccept hgroup hnamed hstate hold hdrain
    · rcases List.mem_map.1 hdrain with ⟨target, -, rfl⟩
      exact Drain.reported_of_not_done rfl
  case owed =>
    intro passive other hwaiting
    rcases (Relay.mem_waiting_accept haccept).1 hwaiting with hold | ⟨rfl, hpassive⟩
    · exact owes_joined haccept hgroup hnamed (hstate.owed passive other hold)
    · exact owes_joined_self haccept hgroup hnamed hpassive
  case waited =>
    intro hmode passive other hother
    refine (Relay.mem_waiting_accept haccept).2 ?_
    exact ((mem_owing_joined haccept hgroup hnamed).1 hother).imp_left
      (hstate.waited (Relay.accept_policy haccept ▸ hmode) passive other)

end Accepted

theorem accounted_start {group : FailoverGroup} {transaction : Sequenced}
    (hgroup : group.Consistent) (hnamed : group.Named) (hstate : state.Accounted) :
    (state.start group transaction).Accounted := by
  rcases state.start_cases group transaction with
    ⟨-, outcome, hstart⟩ | ⟨id, targets, relay, -, haccept, hstart⟩
  · rw [hstart]
    exact accounted_refused hstate
  · rw [hstart]
    exact accounted_joined haccept hgroup hnamed hstate

/-!
## Moving a drain
-/

/-- What one move does to the two lists of a passive: nothing, or it takes the front of its
lane over to what is unacknowledged. -/
theorem account_moveDrain? {call place : Nat} {move : DrainMove} (hattached : state.Attached)
    (hmove : state.moveDrain? call place move = some next) (passive : String) :
    (next.unacknowledged passive = state.unacknowledged passive ∧
        next.relay.backlog passive = state.relay.backlog passive) ∨
      ∃ id before after, state.unacknowledged passive = before ++ after ∧
        next.unacknowledged passive = before ++ id :: after ∧
        state.relay.backlog passive = id :: next.relay.backlog passive := by
  obtain ⟨id, drain, moved, left, earlier, later, before, after, -, -, -, htarget, -, hmoved,
    hcalls, hreplaced, hleft⟩ := moveDrain?_attached hattached hmove
  rw [unacknowledged_of_draining hcalls, unacknowledged_of_draining hreplaced,
    Drain.appliedTo_append, Drain.appliedTo_append, Drain.appliedTo_cons, Drain.appliedTo_cons,
    htarget]
  simp only [Relay.backlog, hleft]
  by_cases hmine : drain.target.node.name = passive
  · subst hmine
    simp only [if_true]
    rcases hmoved with ⟨entry, -, hfront, happlied⟩ | ⟨-, hsame, happlied⟩
    · refine .inr ⟨entry.id,
        Drain.appliedTo drain.target.node.name (earlier.flatMap RelayCall.drains) ++
          (Drain.appliedTo drain.target.node.name before ++ drain.applied),
        Drain.appliedTo drain.target.node.name after ++
          Drain.appliedTo drain.target.node.name (later.flatMap RelayCall.drains), ?_, ?_, ?_⟩
      · simp only [List.append_assoc]
      · simp only [happlied, List.append_assoc, List.cons_append, List.nil_append]
      · rw [hfront]
        rfl
    · exact .inl ⟨by rw [happlied], by rw [hsame]⟩
  · simp only [if_neg hmine]
    exact .inl ⟨trivial, trivial⟩

theorem perm_moveDrain? {call place : Nat} {move : DrainMove} (hattached : state.Attached)
    (hmove : state.moveDrain? call place move = some next) (passive : String) :
    (next.unacknowledged passive ++ next.relay.backlog passive).Perm
        (state.unacknowledged passive ++ state.relay.backlog passive) ∧
      next.relay.backlog passive ⊆ state.relay.backlog passive ∧
      state.unacknowledged passive ⊆ next.unacknowledged passive := by
  rcases account_moveDrain? hattached hmove passive with
    ⟨hunacknowledged, hbacklog⟩ | ⟨id, before, after, hbefore, hafter, hfront⟩
  · rw [hunacknowledged, hbacklog]
    exact ⟨.refl _, List.Subset.refl _, List.Subset.refl _⟩
  · rw [hbefore, hafter, hfront]
    refine ⟨?_, List.subset_cons_self _ _, ?_⟩
    · have hmoved : (before ++ id :: after ++ next.relay.backlog passive).Perm
          (id :: ((before ++ after) ++ next.relay.backlog passive)) := by
        rw [List.append_assoc, List.append_assoc, List.cons_append]
        exact List.perm_middle
      exact hmoved.trans List.perm_middle.symm
    · exact List.append_subset.2 ⟨List.subset_append_left _ _,
        fun other hother => List.mem_append_right _ (List.mem_cons_of_mem _ hother)⟩

theorem calls_moveDrain? {call place : Nat} {move : DrainMove} (hattached : state.Attached)
    (hmove : state.moveDrain? call place move = some next) :
    (∀ id drains, RelayCall.draining id drains ∈ next.calls →
        ∃ former, RelayCall.draining id former ∈ state.calls ∧
          ∀ drain ∈ drains, drain ∈ former ∨
            drain.Reported id (next.relay.lane drain.target.node.name)) ∧
      ∀ id former, RelayCall.draining id former ∈ state.calls →
        ∃ drains, RelayCall.draining id drains ∈ next.calls ∧
          drains.map Drain.target = former.map Drain.target := by
  obtain ⟨id, drain, moved, left, earlier, later, before, after, -, -, -, htarget, hreported, -,
    hcalls, hreplaced, hlanes⟩ := moveDrain?_attached hattached hmove
  have hleft : next.relay.lane moved.target.node.name = left := by
    rw [hlanes, htarget, if_pos rfl]
  rw [hcalls, hreplaced]
  constructor
  · intro other drains hcall
    rw [List.mem_append, List.mem_cons] at hcall
    rcases hcall with hearlier | hsame | hlater
    · exact ⟨drains, List.mem_append_left _ hearlier, fun _ hdrain => .inl hdrain⟩
    · cases hsame
      refine ⟨_, List.mem_append_right _ List.mem_cons_self, fun found hfound => ?_⟩
      rw [List.mem_append, List.mem_cons] at hfound
      rcases hfound with hbefore | rfl | hafter
      · exact .inl (List.mem_append_left _ hbefore)
      · exact .inr (hleft.symm ▸ hreported)
      · exact .inl (List.mem_append_right _ (List.mem_cons_of_mem _ hafter))
    · exact ⟨drains, List.mem_append_right _ (List.mem_cons_of_mem _ hlater),
        fun _ hdrain => .inl hdrain⟩
  · intro other former hcall
    rw [List.mem_append, List.mem_cons] at hcall
    rcases hcall with hearlier | hsame | hlater
    · exact ⟨former, List.mem_append_left _ hearlier, rfl⟩
    · cases hsame
      refine ⟨_, List.mem_append_right _ List.mem_cons_self, ?_⟩
      rw [List.map_append, List.map_append, List.map_cons, List.map_cons, htarget]
    · exact ⟨former, List.mem_append_right _ (List.mem_cons_of_mem _ hlater), rfl⟩

theorem accounted_moveDrain? {call place : Nat} {move : DrainMove} (hstate : state.Accounted)
    (hmove : state.moveDrain? call place move = some next) : next.Accounted := by
  obtain ⟨_, _, _, _, _, _, _, _, -, -, -, -, -, hledger, hpolicy, hlast⟩ :=
    moveDrain?_eq_some hmove
  obtain ⟨hformer, hlatter⟩ := calls_moveDrain? hstate.attached hmove
  have hperm := fun passive => perm_moveDrain? hstate.attached hmove passive
  constructor
  case attached => exact attached_moveDrain? hstate.attached hmove
  case tidy => exact hledger ▸ hstate.tidy
  case once => exact fun passive => (hperm passive).1.nodup_iff.2 (hstate.once passive)
  case passed =>
    intro passive id hid
    exact passed_of_lastQueued hlast (hstate.passed passive id ((hperm passive).1.mem_iff.1 hid))
  case started =>
    intro id drains hcall
    obtain ⟨former, hbefore, -⟩ := hformer id drains hcall
    exact passed_of_lastQueued hlast (hstate.started id former hbefore)
  case reported =>
    intro id drains hcall drain hdrain
    obtain ⟨former, hbefore, hdrains⟩ := hformer id drains hcall
    rcases hdrains drain hdrain with hstays | hmoved
    · exact Drain.reported_of_reported (hstate.reported id former hbefore drain hstays)
        fun hmem => (hperm drain.target.node.name).2.1 hmem
    · exact hmoved
  case owed =>
    intro passive id hwaiting
    rcases hstate.owed passive id (hledger ▸ hwaiting) with happlied | ⟨hqueued, hawaits⟩
    · exact .inl ((hperm passive).2.2 happlied)
    · have hkept := (hperm passive).1.mem_iff.2 (List.mem_append_right _ hqueued)
      refine (List.mem_append.1 hkept).imp_right fun hstill => ⟨hstill, fun hmode => ?_⟩
      obtain ⟨former, hcall, drain, hdrain, hname⟩ := hawaits (hpolicy ▸ hmode)
      obtain ⟨drains, hafter, htargets⟩ := hlatter id former hcall
      have htarget : drain.target ∈ drains.map Drain.target :=
        htargets ▸ List.mem_map_of_mem hdrain
      obtain ⟨found, hfound, hsame⟩ := List.mem_map.1 htarget
      exact ⟨drains, hafter, found, hfound, hsame ▸ hname⟩
  case waited =>
    -- The two lists together hold what they held, and the ledger is not told anything.
    intro hmode passive id hid
    rw [hledger]
    exact hstate.waited (hpolicy ▸ hmode) passive id ((hperm passive).1.mem_iff.1 hid)

/-!
## Settling a call
-/

theorem unacknowledged_settled {drains : List Drain} {earlier later : List RelayCall}
    {outcome : Except Failure RelayReport}
    (hcalls : state.calls = earlier ++ .draining id drains :: later)
    (hsettled : next.calls = earlier ++ .finished outcome :: later) (passive : String) :
    (Drain.appliedTo passive drains ++ next.unacknowledged passive).Perm
      (state.unacknowledged passive) := by
  rw [unacknowledged_of_draining hcalls, unacknowledged_of_finished hsettled]
  exact List.perm_append_comm_assoc _ _ _

section Covered

variable {drains : List Drain} {results : List (RelayTarget × LaneReport)} {mode : RelayMode}

theorem covered_of_applied (hstate : state.Accounted)
    (hcall : RelayCall.draining id drains ∈ state.calls)
    (hresults : drains.mapM Drain.result? = some results)
    (happlied : other ∈ Drain.appliedTo passive drains) :
    ∃ result ∈ results, Relay.Covers mode id result passive other := by
  obtain ⟨drain, hdrain, hname, hmem⟩ := Drain.mem_appliedTo.1 happlied
  obtain ⟨report, hdone, hresult⟩ := (mapM_result?_eq_some hresults).1 drain hdrain
  have hsame := (hstate.reported id drains hcall drain hdrain report hdone).1
  exact ⟨_, hresult, hname, .inl (hsame ▸ hmem)⟩

theorem covered_of_queued (hstate : state.Accounted)
    (hcall : RelayCall.draining id drains ∈ state.calls)
    (hresults : drains.mapM Drain.result? = some results) {drain : Drain}
    (hdrain : drain ∈ drains) (hname : drain.target.node.name = passive)
    (hqueued : id ∈ state.relay.backlog passive) :
    ∃ result ∈ results, Relay.Covers .bestEffort id result passive id := by
  obtain ⟨report, hdone, hresult⟩ := (mapM_result?_eq_some hresults).1 drain hdrain
  have hreported := (hstate.reported id drains hcall drain hdrain report hdone).2
  rw [hname] at hreported
  cases hleft : report.stillQueued with
  | false => exact absurd hqueued (hreported hleft)
  | true => exact ⟨_, hresult, hname, .inr ⟨rfl, hleft, rfl⟩⟩

theorem applied_of_covered (hstate : state.Accounted)
    (hcall : RelayCall.draining id drains ∈ state.calls)
    (hresults : drains.mapM Drain.result? = some results)
    (hcovered : ∃ result ∈ results, Relay.Covers .sync id result passive other) :
    other ∈ Drain.appliedTo passive drains := by
  obtain ⟨result, hresult, hname, happlied | ⟨hmode, -⟩⟩ := hcovered
  · obtain ⟨drain, hdrain, htarget, hdone⟩ := (mapM_result?_eq_some hresults).2 result hresult
    have hsame := (hstate.reported id drains hcall drain hdrain result.2 hdone).1
    exact Drain.mem_appliedTo.2 ⟨drain, hdrain, htarget ▸ hname, hsame ▸ happlied⟩
  · cases hmode

end Covered

theorem mem_calls_settled {drains others : List Drain} {earlier later : List RelayCall}
    {outcome : Except Failure RelayReport}
    (hcalls : state.calls = earlier ++ .draining id drains :: later)
    (hsettled : next.calls = earlier ++ .finished outcome :: later) :
    (RelayCall.draining other others ∈ next.calls → RelayCall.draining other others ∈ state.calls) ∧
      (RelayCall.draining other others ∈ state.calls →
        RelayCall.draining other others ∈ next.calls ∨ (other = id ∧ others = drains)) := by
  rw [hcalls, hsettled]
  simp only [List.mem_append, List.mem_cons, reduceCtorEq, false_or, RelayCall.draining.injEq]
  grind

theorem accounted_settleCall? {group : GroupId} {call : Nat} (hstate : state.Accounted)
    (hsettled : state.settleCall? group call = some next) : next.Accounted := by
  have hattached := attached_settleCall? hstate.attached hsettled
  obtain ⟨id, drains, results, outcome, ledger, earlier, later, hresults, hcalls, hnext, hwaiting,
    htidy⟩ := settleCall?_eq_some hsettled
  have hafter : next.calls = earlier ++ .finished outcome :: later := by rw [hnext]
  have hledger : next.relay.ledger = ledger := by rw [hnext]
  have hbacklog : ∀ passive, next.relay.backlog passive = state.relay.backlog passive := by
    rw [hnext]
    exact fun passive => rfl
  have hlane : ∀ passive, next.relay.lane passive = state.relay.lane passive := by
    rw [hnext]
    exact fun passive => rfl
  have hlast : next.relay.lastQueued = state.relay.lastQueued := by rw [hnext]
  have hpolicy : next.relay.policy = state.relay.policy := by rw [hnext]
  have hcall : RelayCall.draining id drains ∈ state.calls := by
    rw [hcalls]
    simp
  have hsplit : ∀ passive, (Drain.appliedTo passive drains ++
      (next.unacknowledged passive ++ next.relay.backlog passive)).Perm
        (state.unacknowledged passive ++ state.relay.backlog passive) := by
    intro passive
    rw [hbacklog, ← List.append_assoc]
    exact (unacknowledged_settled hcalls hafter passive).append_right _
  have hmem : ∀ {passive other}, other ∈ next.unacknowledged passive ++ next.relay.backlog passive →
      other ∈ state.unacknowledged passive ++ state.relay.backlog passive :=
    fun hother => (hsplit _).mem_iff.1 (List.mem_append_right _ hother)
  constructor
  case attached => exact hattached
  case tidy => exact hledger ▸ htidy hstate.tidy
  case once =>
    intro passive
    exact (List.nodup_append.1 ((hsplit passive).nodup_iff.2 (hstate.once passive))).2.1
  case passed =>
    intro passive other hother
    exact passed_of_lastQueued hlast (hstate.passed passive other (hmem hother))
  case started =>
    intro other others hother
    exact passed_of_lastQueued hlast
      (hstate.started other others ((mem_calls_settled hcalls hafter).1 hother))
  case reported =>
    intro other others hother drain hdrain
    rw [hlane]
    exact hstate.reported other others ((mem_calls_settled hcalls hafter).1 hother) drain hdrain
  case owed =>
    intro passive other hwaits
    rw [hledger, hwaiting] at hwaits
    obtain ⟨hwaited, huncovered⟩ := hwaits
    rcases hstate.owed passive other hwaited with happlied | ⟨hqueued, hawaits⟩
    · -- What the settled drains have applied is covered, so another call has applied it.
      rcases List.mem_append.1 ((unacknowledged_settled hcalls hafter passive).mem_iff.2 happlied)
        with hown | hothers
      · exact absurd (covered_of_applied hstate hcall hresults hown) huncovered
      · exact .inl hothers
    · refine .inr ⟨(hbacklog passive).symm ▸ hqueued, fun hmode => ?_⟩
      rw [hpolicy] at hmode
      obtain ⟨others, hothers, drain, hdrain, hname⟩ := hawaits hmode
      rcases (mem_calls_settled hcalls hafter).2 hothers with hstill | ⟨rfl, rfl⟩
      · exact ⟨others, hstill, drain, hdrain, hname⟩
      · rw [hmode] at huncovered
        exact absurd (covered_of_queued hstate hcall hresults hdrain hname hqueued) huncovered
  case waited =>
    intro hmode passive other hother
    rw [hpolicy] at hmode
    rw [hledger, hwaiting, hmode]
    refine ⟨hstate.waited hmode passive other (hmem hother), fun hcovered => ?_⟩
    -- An id stands at one place only, so nobody else can have applied what these drains did.
    have hdisjoint := (List.nodup_append.1 ((hsplit passive).nodup_iff.2 (hstate.once passive))).2.2
    exact hdisjoint other (applied_of_covered hstate hcall hresults hcovered) other hother rfl

/-!
## Between calls
-/

theorem unacknowledged_idle (hidle : state.isIdle = true) : state.unacknowledged passive = [] := by
  rw [unacknowledged, drains_eq_nil hidle]
  rfl

theorem not_draining_of_idle {drains : List Drain} (hidle : state.isIdle = true) :
    RelayCall.draining id drains ∉ state.calls := by
  intro hcall
  obtain ⟨outcome, hfinished⟩ := isIdle_iff.1 hidle _ hcall
  cases hfinished

theorem accounted_follow {change : MemberChange} (hidle : state.isIdle = true)
    (hstate : state.Accounted) : (state.follow change).2.Accounted := by
  have hrelay := relay_follow state change
  have hcalls := follow_idle change hidle
  obtain ⟨hpolicy, hlast⟩ := Relay.follow_frame state.relay change
  have hstill : (state.follow change).2.isIdle = true := by
    unfold isIdle
    rw [hcalls]
    exact hidle
  have hbacklog : ∀ passive, (state.follow change).2.relay.backlog passive =
      if passive ∈ change.removed.map Node.name then [] else state.relay.backlog passive := by
    intro passive
    rw [hrelay, Relay.backlog, Relay.lane_follow]
    split <;> rfl
  -- Nothing is unacknowledged while no call is in progress, so all is said of the lanes.
  constructor
  case attached => exact attached_follow hidle
  case tidy => exact hrelay ▸ Relay.tidy_follow hstate.tidy
  case once =>
    intro passive
    rw [unacknowledged_idle hstill, hbacklog, List.nil_append]
    split
    · exact .nil
    · exact (List.nodup_append.1 (hstate.once passive)).2.1
  case passed =>
    intro passive id hid
    rw [unacknowledged_idle hstill, hbacklog, List.nil_append] at hid
    split at hid
    · cases hid
    · exact passed_of_lastQueued (hrelay ▸ hlast)
        (hstate.passed passive id (List.mem_append_right _ hid))
  case started => exact fun id drains hcall => absurd hcall (not_draining_of_idle hstill)
  case reported => exact fun id drains hcall => absurd hcall (not_draining_of_idle hstill)
  case owed =>
    intro passive id hwaiting
    rw [hrelay, Relay.mem_waiting_follow] at hwaiting
    rcases hstate.owed passive id hwaiting.1 with happlied | ⟨hqueued, hawaits⟩
    · rw [unacknowledged_idle hidle] at happlied
      cases happlied
    · refine .inr ⟨?_, fun hmode => ?_⟩
      · rw [hbacklog, if_neg hwaiting.2]
        exact hqueued
      · rw [hrelay, hpolicy] at hmode
        obtain ⟨drains, hcall, -⟩ := hawaits hmode
        exact absurd hcall (not_draining_of_idle hidle)
  case waited =>
    intro hmode passive id hid
    rw [hrelay, hpolicy] at hmode
    rw [unacknowledged_idle hstill, hbacklog, List.nil_append] at hid
    rw [hrelay, Relay.mem_waiting_follow]
    split at hid
    · cases hid
    · next hstays =>
      exact ⟨hstate.waited hmode passive id (List.mem_append_right _ hid), hstays⟩

end InFlight

namespace Site

variable {site next last : Site} {happening : Happening} {happenings : List Happening}

theorem accounted_after (hsound : site.Sound) (hfits : happening.Fits site)
    (hafter : site.after? happening = some next) (haccounted : site.inFlight.Accounted) :
    next.inFlight.Accounted := by
  cases happening with
  | start transaction =>
    cases hafter
    exact InFlight.accounted_start hsound.consistent hsound.named haccounted
  | move call place move =>
    exact InFlight.accounted_moveDrain? haccounted (inFlight_move? hafter)
  | settle call =>
    obtain ⟨inFlight, hsettle, rfl⟩ := Option.map_eq_some_iff.1 hafter
    exact InFlight.accounted_settleCall? haccounted hsettle
  | declareHeld name objects | widenHeld name objects =>
    cases hafter
    exact ⟨haccounted.attached, haccounted.tidy, haccounted.once, haccounted.passed,
      haccounted.started, haccounted.reported, haccounted.owed, haccounted.waited⟩
  | operate operation =>
    cases hafter
    exact haccounted
  | follow change =>
    cases hafter
    exact InFlight.accounted_follow hfits haccounted

theorem accounted_run (hsound : site.Sound) (haccounted : site.inFlight.Accounted)
    (hrun : OrderlyRun site happenings last) : last.inFlight.Accounted := by
  induction hrun with
  | nil site => exact haccounted
  | cons hfits hafter _ ih =>
    exact ih (sound_after hsound hfits hafter) (accounted_after hsound hfits hafter haccounted)

/-- Whenever no call is in progress, the ledger and the lanes agree: under synchronous
relaying an id waits for a passive exactly while it is in its lane, and is released when it
is in none; otherwise no id waits for anybody, and what a passive has not applied is still
in its lane. -/
theorem ledger_agrees_with_lanes {group : FailoverGroup} {policy : RelayPolicy}
    (hgroup : group.Consistent) (hnamed : group.Named)
    (hrun : OrderlyRun (opened group policy) happenings site)
    (hidle : site.inFlight.isIdle = true) :
    (policy.mode = .sync →
      (∀ id passive, passive ∈ site.inFlight.relay.ledger.pending id ↔
        id ∈ site.inFlight.relay.backlog passive) ∧
      ∀ id, site.inFlight.relay.ledger.isSettled id = true ↔
        ∀ passive, id ∉ site.inFlight.relay.backlog passive) ∧
    (policy.mode = .bestEffort →
      site.inFlight.relay.ledger.size = 0 ∧
      ∀ passive, passive ∉ site.removed →
        ∀ id ∈ acceptedFor passive happenings (opened group policy),
          id ∉ site.appliedBy passive → id ∈ site.inFlight.relay.backlog passive) := by
  have hopened := opened_sound policy hgroup hnamed
  have haccounted := accounted_run hopened (InFlight.accounted_empty policy) hrun
  have hpolicy : site.inFlight.relay.policy = policy := policy_run hrun
  have hnothing : ∀ passive, site.inFlight.unacknowledged passive = [] :=
    fun passive => InFlight.unacknowledged_idle hidle
  constructor
  · intro hsync
    have hwaiting : ∀ id passive, passive ∈ site.inFlight.relay.ledger.waiting id ↔
        id ∈ site.inFlight.relay.backlog passive := by
      intro id passive
      constructor
      · intro hwaits
        rcases haccounted.owed passive id hwaits with happlied | ⟨hqueued, -⟩
        · rw [hnothing] at happlied
          cases happlied
        · exact hqueued
      · intro hqueued
        exact haccounted.waited (hpolicy ▸ hsync) passive id (List.mem_append_right _ hqueued)
    constructor
    · exact fun id passive => Ledger.mem_pending_iff.trans (hwaiting id passive)
    · intro id
      rw [Ledger.isSettled_iff haccounted.tidy]
      exact forall_congr' fun passive => not_congr (hwaiting id passive)
  · intro heffort
    constructor
    · rw [Ledger.size_eq_zero_iff haccounted.tidy]
      intro id passive hwaits
      rcases haccounted.owed passive id hwaits with happlied | ⟨-, hawaits⟩
      · rw [hnothing] at happlied
        cases happlied
      · obtain ⟨drains, hcall, -⟩ := hawaits (hpolicy ▸ heffort)
        exact InFlight.not_draining_of_idle hidle hcall
    · intro passive hstays id hid hunapplied
      have haccount : site.account passive =
          acceptedFor passive happenings (opened group policy) :=
        (account_run hopened hrun hstays).1
      rw [← haccount] at hid
      exact (List.mem_append.1 hid).resolve_left hunapplied

theorem pending_after_outage : ∃ site, OrderlyRun (opened FailoverGroup.trio {}) outage site ∧
    site.inFlight.isIdle = true ∧ "c" ∈ site.inFlight.relay.ledger.pending ⟨2⟩ ∧
    site.inFlight.relay.ledger.isSettled ⟨2⟩ = false := by
  obtain ⟨hconsistent, hnamed⟩ := FailoverGroup.trio_consistent
  obtain ⟨site, hrun, -, hidle, hbacklog⟩ := outage_orderly
  have hqueued : ⟨2⟩ ∈ site.inFlight.relay.backlog "c" := by
    rw [hbacklog]
    decide
  obtain ⟨hpending, hsettled⟩ :=
    (ledger_agrees_with_lanes hconsistent hnamed hrun hidle).1 rfl
  refine ⟨site, hrun, hidle, (hpending ⟨2⟩ "c").2 hqueued, ?_⟩
  rw [Bool.eq_false_iff]
  exact fun hreleased => (hsettled ⟨2⟩).1 hreleased "c" hqueued

end Site
end SharedGraph
