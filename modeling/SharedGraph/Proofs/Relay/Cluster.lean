import SharedGraph.Proofs.Relay.Shipping

/-!
# Clusters in memory

A cluster is a group, the relay of its active and the passives that live in memory.  Relay
calls come one after another; in between passives are registered, cut off and reached
again, and the group changes.  A passive that is queued for once is never forgotten: its
record is received, still in the lane, or was dropped with the lane when a reconfiguration
that removed the passive was followed.  Nothing that was received is ever taken back.
-/

namespace SharedGraph

structure Cluster where
  group : FailoverGroup
  relay : Relay := {}
  passives : Passives := {}

inductive Cluster.Event where
  | relay (transaction : Sequenced)
  | register (name : String)
  | isolate (name : String) (cut : Bool)
  | declareHeld (passive : String) (objects : SortedSet ObjectId)
  | widenHeld (passive : String) (objects : List ObjectId)
  | operate (operation : FailoverGroup.Operation)
  | follow (change : MemberChange)

namespace Cluster

/-- What an operation leaves; one that is refused changes nothing. -/
def changed {α : Type} (before : α) : Except Failure α → α
  | .ok after => after
  | .error _ => before

def outcome (cluster : Cluster) (transaction : Sequenced) : Except Failure RelayReport :=
  (cluster.relay.relay cluster.group transaction cluster.passives).1

def step (cluster : Cluster) : Event → Cluster
  | .relay transaction =>
    match cluster.relay.relay cluster.group transaction cluster.passives with
    | (_, relay, _, passives) => { cluster with relay, passives }
  | .register name =>
    { cluster with passives := changed cluster.passives (cluster.passives.register name) }
  | .isolate name cut =>
    { cluster with passives := changed cluster.passives (cluster.passives.isolate name cut) }
  | .declareHeld passive objects =>
    { cluster with relay := cluster.relay.declareHeld passive objects }
  | .widenHeld passive objects =>
    { cluster with relay := cluster.relay.widenHeld passive objects }
  | .operate operation => { cluster with group := operation.perform cluster.group }
  | .follow change => { cluster with relay := (cluster.relay.follow change).2 }

def run (cluster : Cluster) (events : List Event) : Cluster :=
  events.foldl step cluster

def opened (group : FailoverGroup) (policy : RelayPolicy) : Cluster :=
  { group, relay := { policy } }

def received (cluster : Cluster) (passive : String) : List GlobalId :=
  cluster.passives.received passive

def relays (cluster : Cluster) (passive : String) : Event → List GlobalId
  | .relay transaction => cluster.relay.queuesFor cluster.group transaction passive
  | _ => []

def drops (cluster : Cluster) (passive : String) : Event → List GlobalId
  | .follow change =>
    if passive ∈ change.removed.map Node.name then cluster.relay.backlog passive else []
  | _ => []

/-- The ids that were queued while a name was that of a passive, oldest first. -/
def relayedTo (passive : String) : List Event → Cluster → List GlobalId
  | [], _ => []
  | event :: rest, cluster =>
    cluster.relays passive event ++ relayedTo passive rest (cluster.step event)

def droppedFrom (passive : String) : List Event → Cluster → List GlobalId
  | [], _ => []
  | event :: rest, cluster =>
    cluster.drops passive event ++ droppedFrom passive rest (cluster.step event)

def Event.Fits : Event → Prop
  | .operate operation => operation.NamesNodes
  | _ => True

structure Sound (cluster : Cluster) : Prop where
  consistent : cluster.group.Consistent
  named : cluster.group.Named

variable {cluster : Cluster} {event : Event} {events : List Event} {passive : String}

/-!
## The group
-/

theorem changed_induction {α : Type} (holds : α → Prop) {before : α}
    {outcome : Except Failure α} (hkept : holds before)
    (hnew : ∀ after, outcome = .ok after → holds after) : holds (changed before outcome) := by
  cases outcome with
  | error failure => exact hkept
  | ok after => exact hnew after rfl

theorem sound_step (hsound : cluster.Sound) (hfits : event.Fits) :
    (cluster.step event).Sound := by
  obtain ⟨hconsistent, hnamed⟩ := hsound
  cases event with
  | relay transaction | register name | isolate name cut | declareHeld name objects
  | widenHeld name objects | follow change => exact ⟨hconsistent, hnamed⟩
  | operate operation =>
    exact ⟨FailoverGroup.perform_consistent hconsistent operation,
      FailoverGroup.named_perform hnamed hfits⟩

theorem ha_step (cluster : Cluster) (event : Event) :
    (cluster.step event).group.ha = cluster.group.ha := by
  cases event with
  | relay transaction | register name | isolate name cut | declareHeld name objects
  | widenHeld name objects | follow change => rfl
  | operate operation => exact FailoverGroup.ha_perform cluster.group operation

/-!
## Steps
-/

theorem step_relay {transaction : Sequenced} {relay : Relay} {passives : Passives}
    {outcome : Except Failure RelayReport} {elapsed : Nat}
    (hrelay : cluster.relay.relay cluster.group transaction cluster.passives =
      (outcome, relay, elapsed, passives)) :
    cluster.step (.relay transaction) = { cluster with relay, passives } := by
  unfold step
  simp only [hrelay]

/-- A call that does not queue its record leaves the cluster as it was; one that does ships
what it can and sets the mark of the relay. -/
theorem relay_step (hsound : cluster.Sound) (transaction : Sequenced) :
    (cluster.relay.admits? cluster.group transaction = none ∧
        cluster.step (.relay transaction) = cluster) ∨
      ∃ id, cluster.relay.admits? cluster.group transaction = some id ∧
        (∀ passive, (cluster.step (.relay transaction)).received passive =
          cluster.received passive ++
            if cluster.group.hasPassive passive = true ∧ cluster.passives.reaches passive = true
            then cluster.relay.backlog passive ++ cluster.relays passive (.relay transaction)
            else []) ∧
        (∀ passive, (cluster.step (.relay transaction)).relay.backlog passive =
          if cluster.group.hasPassive passive = true ∧ cluster.passives.reaches passive = true
          then []
          else cluster.relay.backlog passive ++ cluster.relays passive (.relay transaction)) ∧
        (cluster.step (.relay transaction)).relay.policy = cluster.relay.policy ∧
        (cluster.step (.relay transaction)).relay.lastQueued = some id ∧
        ∀ mark, cluster.relay.lastQueued = some mark → mark < id := by
  cases hadmits : cluster.relay.admits? cluster.group transaction with
  | none =>
    obtain ⟨outcome, hrelay⟩ := Relay.relay_refused cluster.passives hadmits
    exact .inl ⟨rfl, step_relay hrelay⟩
  | some id =>
    obtain ⟨-, -, targets, accepted, haccept⟩ := Relay.admits?_eq_some hadmits
    obtain ⟨outcome, next, elapsed, later, hrelay, hreceived, hbacklog, hpolicy, hlast, -⟩ :=
      Relay.relay_admitted cluster.passives hsound.consistent hsound.named hadmits
    rw [step_relay hrelay]
    exact .inr ⟨id, rfl, hreceived, hbacklog, hpolicy, hlast, (Relay.accept_lastQueued haccept).2⟩

/-- An event delivers nothing to a passive, or it delivers all that is queued. -/
theorem deliver_step (hsound : cluster.Sound) (event : Event) (passive : String) :
    ((cluster.step event).received passive = cluster.received passive ∧
        (cluster.step event).relay.backlog passive ++ cluster.drops passive event =
          cluster.relay.backlog passive ++ cluster.relays passive event) ∨
      ((cluster.step event).received passive = cluster.received passive ++
          (cluster.relay.backlog passive ++ cluster.relays passive event) ∧
        (cluster.step event).relay.backlog passive = [] ∧ cluster.drops passive event = []) := by
  cases event with
  | relay transaction =>
    rcases relay_step hsound transaction with
      ⟨hnone, hsame⟩ | ⟨id, -, hreceived, hbacklog, -⟩
    · rw [hsame]
      exact .inl ⟨rfl, by simp [drops, relays, Relay.queuesFor, hnone]⟩
    · rw [hreceived, hbacklog]
      split
      · exact .inr ⟨rfl, rfl, rfl⟩
      · exact .inl ⟨List.append_nil _, List.append_nil _⟩
  | register name =>
    refine .inl ⟨changed_induction (fun passives : Passives =>
      passives.received passive = cluster.passives.received passive) rfl ?_, rfl⟩
    exact fun _ => Passives.received_register
  | isolate name cut =>
    refine .inl ⟨changed_induction (fun passives : Passives =>
      passives.received passive = cluster.passives.received passive) rfl ?_, rfl⟩
    exact fun _ => Passives.received_isolate
  | declareHeld name objects | widenHeld name objects | operate operation => exact .inl ⟨rfl, rfl⟩
  | follow change =>
    refine .inl ⟨rfl, ?_⟩
    simp only [step, drops, relays, Relay.backlog, Relay.lane_follow]
    split <;> simp

theorem policy_step (hsound : cluster.Sound) (event : Event) :
    (cluster.step event).relay.policy = cluster.relay.policy := by
  cases event with
  | relay transaction =>
    rcases relay_step hsound transaction with ⟨-, hsame⟩ | ⟨id, -, -, -, hpolicy, -⟩
    · rw [hsame]
    · exact hpolicy
  | register name | isolate name cut | declareHeld name objects | widenHeld name objects
  | operate operation => rfl
  | follow change => exact (Relay.follow_frame _ change).1

/-!
## Whole runs
-/

theorem run_cons (cluster : Cluster) (event : Event) (rest : List Event) :
    cluster.run (event :: rest) = (cluster.step event).run rest := rfl

theorem run_append (cluster : Cluster) (first second : List Event) :
    cluster.run (first ++ second) = (cluster.run first).run second :=
  List.foldl_append

theorem sound_run (hsound : cluster.Sound) (hfits : ∀ event ∈ events, event.Fits) :
    (cluster.run events).Sound := by
  induction events generalizing cluster with
  | nil => exact hsound
  | cons event rest ih =>
    rw [List.forall_mem_cons] at hfits
    exact ih (sound_step hsound hfits.1) hfits.2

theorem ha_run (cluster : Cluster) (events : List Event) :
    (cluster.run events).group.ha = cluster.group.ha := by
  induction events generalizing cluster with
  | nil => rfl
  | cons event rest ih => exact (ih (cluster.step event)).trans (ha_step cluster event)

theorem policy_run (hsound : cluster.Sound) (hfits : ∀ event ∈ events, event.Fits) :
    (cluster.run events).relay.policy = cluster.relay.policy := by
  induction events generalizing cluster with
  | nil => rfl
  | cons event rest ih =>
    rw [List.forall_mem_cons] at hfits
    exact (ih (sound_step hsound hfits.1) hfits.2).trans (policy_step hsound event)

theorem received_prefix_run (hsound : cluster.Sound) (hfits : ∀ event ∈ events, event.Fits)
    (passive : String) : cluster.received passive <+: (cluster.run events).received passive := by
  induction events generalizing cluster with
  | nil => exact List.prefix_refl _
  | cons event rest ih =>
    rw [List.forall_mem_cons] at hfits
    have hrest := ih (sound_step hsound hfits.1) hfits.2
    rcases deliver_step hsound event passive with ⟨hreceived, -⟩ | ⟨hreceived, -⟩
    · exact hreceived ▸ hrest
    · exact (List.prefix_append _ _).trans (hreceived ▸ hrest)

theorem opened_sound {group : FailoverGroup} (policy : RelayPolicy)
    (hgroup : group.Consistent) (hnamed : group.Named) : (opened group policy).Sound :=
  ⟨hgroup, hnamed⟩

/-- Every record that was queued for a passive has been received, is queued still or was
dropped, as often as it was queued. -/
theorem account_run (hsound : cluster.Sound) (hfits : ∀ event ∈ events, event.Fits)
    (passive : String) :
    ((cluster.run events).received passive ++
        ((cluster.run events).relay.backlog passive ++ droppedFrom passive events cluster)).Perm
      (cluster.received passive ++
        (cluster.relay.backlog passive ++ relayedTo passive events cluster)) := by
  induction events generalizing cluster with
  | nil => exact .refl _
  | cons event rest ih =>
    rw [List.forall_mem_cons] at hfits
    have hrest := ih (sound_step hsound hfits.1) hfits.2
    rw [run_cons, droppedFrom, relayedTo]
    rcases deliver_step hsound event passive with
      ⟨hreceived, hqueued⟩ | ⟨hreceived, hempty, hdrops⟩
    · -- what is dropped now is taken out on the left and put behind the lane on the right
      have hout : ((cluster.step event).run rest).received passive ++
            (((cluster.step event).run rest).relay.backlog passive ++
              (cluster.drops passive event ++ droppedFrom passive rest (cluster.step event)))
          |>.Perm (cluster.drops passive event ++
            (((cluster.step event).run rest).received passive ++
              (((cluster.step event).run rest).relay.backlog passive ++
                droppedFrom passive rest (cluster.step event)))) :=
        ((List.perm_append_comm_assoc _ _ _).append_left _).trans
          (List.perm_append_comm_assoc _ _ _)
      refine hout.trans ((hrest.append_left _).trans ?_)
      rw [hreceived]
      refine (List.perm_append_comm_assoc _ _ _).trans (List.Perm.append_left _ ?_)
      rw [← List.append_assoc, ← List.append_assoc (cluster.relay.backlog passive), ← hqueued]
      exact List.perm_append_comm.append_right _
    · rw [hreceived, hempty] at hrest
      rw [hdrops]
      simpa only [List.nil_append, List.append_assoc] using hrest

/-!
## Runs under one group
-/

/-- Whether an event leaves the group and the lanes of those who left alone. -/
def Event.Steady : Event → Prop
  | .relay _ | .register _ | .isolate .. | .declareHeld .. | .widenHeld .. => True
  | .operate _ | .follow _ => False

def admits (cluster : Cluster) : Event → List GlobalId
  | .relay transaction => (cluster.relay.admits? cluster.group transaction).toList
  | _ => []

/-- The ids that were queued, whoever the passives were, oldest first. -/
def admitted : List Event → Cluster → List GlobalId
  | [], _ => []
  | event :: rest, cluster => cluster.admits event ++ admitted rest (cluster.step event)

theorem steady_step (cluster : Cluster) (passive : String) (hsteady : event.Steady) :
    event.Fits ∧ (cluster.step event).group = cluster.group ∧
      cluster.drops passive event = [] ∧
      cluster.relays passive event =
        if cluster.group.hasPassive passive then cluster.admits event else [] := by
  cases event with
  | relay transaction => exact ⟨trivial, rfl, rfl, rfl⟩
  | register name | isolate name cut | declareHeld name objects | widenHeld name objects =>
    exact ⟨trivial, rfl, rfl, (ite_self _).symm⟩
  | operate operation | follow change => exact hsteady.elim

theorem group_run (hsteady : ∀ event ∈ events, event.Steady) :
    (cluster.run events).group = cluster.group := by
  induction events generalizing cluster with
  | nil => rfl
  | cons event rest ih =>
    rw [List.forall_mem_cons] at hsteady
    exact (ih hsteady.2).trans (steady_step cluster "" hsteady.1).2.1

/-- Under one group a passive has received, in this order, all that was ever queued, up to
what is still in its lane. -/
theorem received_append_backlog_run (hsound : cluster.Sound)
    (hsteady : ∀ event ∈ events, event.Steady) (passive : String) :
    (cluster.run events).received passive ++ (cluster.run events).relay.backlog passive =
      cluster.received passive ++ (cluster.relay.backlog passive ++
        if cluster.group.hasPassive passive then admitted events cluster else []) := by
  induction events generalizing cluster with
  | nil =>
    simp only [admitted, ite_self, List.append_nil]
    rfl
  | cons event rest ih =>
    rw [List.forall_mem_cons] at hsteady
    obtain ⟨hfits, hgroup, hdrops, hrelays⟩ :=
      steady_step cluster passive hsteady.1
    have hrest := ih (sound_step hsound hfits) hsteady.2
    rw [hgroup] at hrest
    rw [run_cons, hrest, admitted]
    rcases deliver_step hsound event passive with
      ⟨hreceived, hqueued⟩ | ⟨hreceived, hempty, -⟩
    · rw [hdrops, List.append_nil, hrelays] at hqueued
      rw [hreceived, hqueued]
      split <;> simp
    · rw [hreceived, hempty, hrelays]
      split <;> simp

theorem lastQueued_step (hsound : cluster.Sound) (hsteady : event.Steady) :
    (cluster.admits event = [] ∧
        (cluster.step event).relay.lastQueued = cluster.relay.lastQueued) ∨
      ∃ id, cluster.admits event = [id] ∧ (cluster.step event).relay.lastQueued = some id ∧
        ∀ mark, cluster.relay.lastQueued = some mark → mark < id := by
  cases event with
  | relay transaction =>
    rcases relay_step hsound transaction with
      ⟨hnone, hsame⟩ | ⟨id, hadmits, -, -, -, hlast, horder⟩
    · rw [hsame]
      exact .inl ⟨congrArg Option.toList hnone, rfl⟩
    · exact .inr ⟨id, congrArg Option.toList hadmits, hlast, horder⟩
  | register name | isolate name cut | declareHeld name objects | widenHeld name objects =>
    exact .inl ⟨rfl, rfl⟩
  | operate operation | follow change => exact hsteady.elim

theorem ascending_admitted (hsound : cluster.Sound) (hsteady : ∀ event ∈ events, event.Steady) :
    AscendsFrom cluster.relay.lastQueued (admitted events cluster) ∧
      (cluster.run events).relay.lastQueued =
        (admitted events cluster).getLast?.or cluster.relay.lastQueued := by
  induction events generalizing cluster with
  | nil => exact ⟨ascendsFrom_nil, rfl⟩
  | cons event rest ih =>
    rw [List.forall_mem_cons] at hsteady
    obtain ⟨hascends, hmark⟩ :=
      ih (sound_step hsound (steady_step cluster "" hsteady.1).1) hsteady.2
    rw [run_cons, admitted, hmark]
    rcases lastQueued_step hsound hsteady.1 with ⟨hnone, hsame⟩ | ⟨id, hadmits, hlast, horder⟩
    · rw [hnone, List.nil_append, hsame]
      exact ⟨hsame ▸ hascends, rfl⟩
    · rw [hadmits, hlast]
      refine ⟨ascendsFrom_cons horder (hlast ▸ hascends), ?_⟩
      rw [List.getLast?_append]
      cases (admitted rest (cluster.step event)).getLast? <;> rfl

theorem complete_of_admitted (hsound : cluster.Sound)
    (hsteady : ∀ event ∈ events, event.Steady) {id : GlobalId}
    (hid : id ∈ admitted events cluster) :
    cluster.group.isNetworked = true ∧ ∃ nodes, cluster.group.passives = .ok nodes := by
  induction events generalizing cluster with
  | nil => cases hid
  | cons event rest ih =>
    rw [List.forall_mem_cons] at hsteady
    obtain ⟨hfits, hgroup, -⟩ := steady_step cluster "" hsteady.1
    rcases List.mem_append.1 hid with hnow | hlater
    · cases event with
      | relay transaction =>
        obtain ⟨-, hnetworked, targets, accepted, haccept⟩ :=
          Relay.admits?_eq_some (Option.mem_toList.1 hnow)
        exact ⟨hnetworked, _, Relay.accept_targets haccept⟩
      | register name | isolate name cut | declareHeld name objects | widenHeld name objects
      | operate operation | follow change => cases hnow
    · exact hgroup ▸ ih (sound_step hsound hfits) hsteady.2 hlater

end Cluster
end SharedGraph
