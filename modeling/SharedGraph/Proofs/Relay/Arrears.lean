import SharedGraph.Proofs.Failover.Roles
import SharedGraph.Proofs.Relay.Shipping

/-!
# What passives owe when the lead moves

Relay calls come one after another and their shipments may end in any way; in between the lead
moves, and members come and go, which is followed.  Under synchronous relaying an id then waits for
a name exactly while it is in the lane of that name.  Lanes of those who leave are dropped, but
whoever takes the lead keeps its lane, into which nothing is queued and from which nothing is
shipped any more.  So the ledger waits for passives only, exactly if nobody takes the lead who owes
something (`arrears_of_run`).
-/

namespace SharedGraph

/-!
## Who leads and who leaves
-/

namespace FailoverGroup

variable {group : FailoverGroup} {name : String}

/-- What an operation has changed about the members, as it reports; nothing if it fails. -/
def Operation.change (group : FailoverGroup) : Operation → MemberChange
  | .reconfigure members resolve =>
    match group.reconfigure members resolve with
    | .ok (change, _) => change
    | .error _ => {}
  | .attach .. | .activate _ | .elect _ => {}

theorem active_perform_attach (group : FailoverGroup) (name : String) (node : Node) :
    (Operation.perform group (.attach name node)).active = group.active := by
  rcases perform_cases group (.attach name node) with hsame | hok
  · rw [hsame]
  · rw [(attach_eq_ok hok).2]

theorem active_perform_reconfigure {members : List String}
    {resolve : String → Except Failure Node} :
    (∀ name, (Operation.perform group (.reconfigure members resolve)).active =
        some name → group.active = some name) ∧
      ∀ name ∈ members, group.active = some name →
        (Operation.perform group (.reconfigure members resolve)).active =
          some name := by
  rcases perform_cases group (.reconfigure members resolve) with hsame | hok
  · rw [hsame]
    exact ⟨fun name hactive => hactive, fun name _ hactive => hactive⟩
  · rcases exists_of_map_snd hok with ⟨change, hchange⟩
    rcases reconfigure_outcome hchange with ⟨-, joining, -, -, hnext⟩
    rw [hnext]
    constructor
    · intro name hactive
      exact (Option.filter_eq_some_iff.1 hactive).1
    · intro name hstays hactive
      refine Option.filter_eq_some_iff.2 ⟨hactive, ?_⟩
      simp [hstays]

theorem change_cases (group : FailoverGroup) (operation : Operation) :
    (operation.change group = {} ∧ (operation.perform group).members = group.members) ∨
      ∃ members resolve, operation = .reconfigure members resolve ∧
        group.reconfigure members resolve =
          .ok (operation.change group, operation.perform group) := by
  have hkept : (∀ next, operation.attempt group = .ok next → next.members = group.members) →
      (operation.perform group).members = group.members := by
    intro hnext
    rcases perform_cases group operation with hsame | hok
    · rw [hsame]
    · exact hnext _ hok
  cases operation with
  | attach name node => exact Or.inl ⟨rfl, hkept fun next hok => by rw [(attach_eq_ok hok).2]⟩
  | activate name => exact Or.inl ⟨rfl, hkept fun next hok => by rw [activate_eq_ok hok]⟩
  | elect failed =>
    refine Or.inl ⟨rfl, hkept fun next hok => ?_⟩
    rcases exists_of_map_snd hok with ⟨election, helected⟩
    rw [(elect_eq_ok helected).2.2.2.2]
  | reconfigure members resolve =>
    simp only [Operation.change, Operation.perform, Operation.attempt]
    cases hchange : group.reconfigure members resolve with
    | error failure => exact Or.inl ⟨rfl, rfl⟩
    | ok result => exact Or.inr ⟨members, resolve, rfl, hchange⟩

theorem mem_removed_iff (hgroup : group.Consistent) (hnamed : group.Named)
    (hfound : group.nodes.contains name = true) (operation : Operation) :
    name ∈ (operation.change group).removed.map Node.name ↔
      name ∉ (operation.perform group).members := by
  rcases Option.isSome_iff_exists.1 hfound with ⟨node, hnode⟩
  have hmember := hgroup.declared name node hnode
  rcases change_cases group operation with ⟨hnone, hsame⟩ | ⟨members, resolve, -, hchange⟩
  · rw [hnone, hsame]
    exact iff_of_false List.not_mem_nil (not_not_intro hmember)
  · rcases reconfigure_outcome hchange with ⟨-, joining, -, hreported, hnext⟩
    rw [hreported, hnext]
    simp only [List.mem_map, List.mem_filterMap, List.mem_filter, Bool.not_eq_true',
      List.contains_eq_mem, decide_eq_false_iff_not]
    constructor
    · rintro ⟨found, ⟨member, ⟨-, hgone⟩, hget⟩, rfl⟩
      rw [hnamed member found hget]
      exact hgone
    · exact fun hgone => ⟨node, ⟨name, ⟨hmember, hgone⟩, hnode⟩, hnamed name node hnode⟩

end FailoverGroup

/-!
## Stations
-/

structure Wire where
  {State : Type}
  [transport : Transport State]
  state : State

attribute [instance] Wire.transport

structure Station where
  group : FailoverGroup
  relay : Relay := {}

inductive Station.Event where
  | relay (transaction : Sequenced) (wire : Wire)
  | declareHeld (passive : String) (objects : SortedSet ObjectId)
  | widenHeld (passive : String) (objects : List ObjectId)
  | operate (operation : FailoverGroup.Operation)

namespace Station

def call (station : Station) (transaction : Sequenced) (wire : Wire) :
    Except Failure RelayReport × Relay :=
  match station.relay.relay station.group transaction wire.state with
  | (outcome, relay, _) => (outcome, relay)

/-- The station after something has happened.  What an operation changes about the members is
followed at once. -/
def step (station : Station) : Event → Station
  | .relay transaction wire => { station with relay := (station.call transaction wire).2 }
  | .declareHeld passive objects =>
    { station with relay := station.relay.declareHeld passive objects }
  | .widenHeld passive objects => { station with relay := station.relay.widenHeld passive objects }
  | .operate operation =>
    { group := operation.perform station.group
      relay := (station.relay.follow (operation.change station.group)).2 }

def run (station : Station) (events : List Event) : Station :=
  events.foldl step station

def opened (group : FailoverGroup) (policy : RelayPolicy) : Station :=
  { group, relay := { policy } }

def Event.NamesNodes : Event → Prop
  | .operate operation => operation.NamesNodes
  | .relay .. | .declareHeld .. | .widenHeld .. => True

/-- Whether an event moves the lead, or tries to. -/
def Event.MovesLead : Event → Prop
  | .operate (.activate _) | .operate (.elect _) => True
  | .operate (.attach ..) | .operate (.reconfigure ..) | .relay .. | .declareHeld ..
  | .widenHeld .. => False

/-- Whether a name stays in the lead, if it has it. -/
def Event.KeepsLead (name : String) : Event → Prop
  | .operate (.activate _) | .operate (.elect _) => False
  | .operate (.reconfigure members _) => name ∈ members
  | .operate (.attach ..) | .relay .. | .declareHeld .. | .widenHeld .. => True

def WaitsForPassives (station : Station) : Prop :=
  ∀ id, ∀ name ∈ station.relay.ledger.pending id, station.group.hasPassive name = true

/-- What holds between calls under synchronous relaying: names tell nodes apart, the ledger waits
for a name exactly while an id is in its lane, and whoever owes something is a member of a complete
group. -/
structure Agreed (station : Station) : Prop where
  consistent : station.group.Consistent
  named : station.group.Named
  sync : station.relay.policy.mode = .sync
  tidy : station.relay.ledger.Tidy
  once : ∀ name, (station.relay.backlog name).Nodup
  upTo : ∀ name, ∀ id ∈ station.relay.backlog name, UpTo station.relay.lastQueued id
  waiting : ∀ name id,
    name ∈ station.relay.ledger.waiting id ↔ id ∈ station.relay.backlog name
  owing : ∀ name id, id ∈ station.relay.backlog name →
    station.group.isNetworked = true ∧ station.group.Complete ∧ name ∈ station.group.members

variable {station : Station} {event : Event} {events : List Event} {transaction : Sequenced}
variable {wire : Wire} {name : String} {id : GlobalId}

theorem agreed_opened {group : FailoverGroup} {policy : RelayPolicy} (hgroup : group.Consistent)
    (hnamed : group.Named) (hsync : policy.mode = .sync) : (opened group policy).Agreed where
  consistent := hgroup
  named := hnamed
  sync := hsync
  tidy := Ledger.tidy_empty
  once _ := .nil
  upTo _ _ hqueued := absurd hqueued List.not_mem_nil
  waiting _ _ := iff_of_false (by simp [opened, Ledger.mem_waiting_iff]) List.not_mem_nil
  owing _ _ hqueued := absurd hqueued List.not_mem_nil

/-!
## Calls
-/

/-- A call leaves the relay as it was, or it queues its record for the passives and takes parts off
the fronts of their lanes. -/
theorem call_cases (hagreed : station.Agreed) (transaction : Sequenced) (wire : Wire) :
    (station.relay.admits? station.group transaction = none ∧
        (station.call transaction wire).2 = station.relay) ∨
      ∃ id accepted results drained,
        station.relay.admits? station.group transaction = some id ∧
        station.relay.accept station.group id transaction.record =
          .ok (results.map Prod.fst, accepted) ∧
        Relay.Carried accepted drained id results ∧
        station.call transaction wire = drained.settle station.group.id id results := by
  unfold call
  cases hadmits : station.relay.admits? station.group transaction with
  | none =>
    rcases Relay.relay_refused wire.state hadmits with ⟨outcome, hrelay⟩
    rw [hrelay]
    exact Or.inl ⟨rfl, rfl⟩
  | some id =>
    rcases Relay.relay_carried wire.state hagreed.consistent hagreed.named hadmits with
      ⟨accepted, results, drained, elapsed, later, haccept, hcarried, hrelay⟩
    rw [hrelay]
    exact Or.inr ⟨id, accepted, results, drained, rfl, haccept, hcarried, rfl⟩

theorem accept_agrees (hagreed : station.Agreed) {record : Record} {targets : List RelayTarget}
    {accepted : Relay}
    (haccept : station.relay.accept station.group id record = .ok (targets, accepted)) :
    (∀ name, (accepted.backlog name).Nodup) ∧
      ∀ name other, name ∈ accepted.ledger.waiting other ↔ other ∈ accepted.backlog name := by
  constructor
  · intro name
    rw [Relay.backlog_accept hagreed.consistent hagreed.named haccept]
    exact nodup_append_new (hagreed.once name)
      (fun hold => not_upTo (Relay.accept_lastQueued haccept).2 (hagreed.upTo name id hold)) _
  · intro name other
    rw [Relay.mem_waiting_accept haccept, hagreed.waiting,
      Relay.mem_backlog_of_accept hagreed.consistent hagreed.named haccept]

theorem mem_backlog_carried (hagreed : station.Agreed) {record : Record}
    {results : List (RelayTarget × LaneReport)} {accepted drained : Relay} {other : GlobalId}
    (haccept : station.relay.accept station.group id record = .ok (results.map Prod.fst, accepted))
    (hcarried : Relay.Carried accepted drained id results)
    (hother : other ∈ drained.backlog name) :
    other ∈ station.relay.backlog name ∨
      (other = id ∧ station.group.hasPassive name = true) :=
  (Relay.mem_backlog_of_accept hagreed.consistent hagreed.named haccept).1
    ((hcarried.sublist name).subset hother)

theorem agreed_call (hagreed : station.Agreed) (transaction : Sequenced) (wire : Wire) :
    Agreed { station with relay := (station.call transaction wire).2 } := by
  rcases call_cases hagreed transaction wire with
    ⟨-, hsame⟩ | ⟨id, accepted, results, drained, hadmits, haccept, hcarried, hcall⟩
  · rw [hsame]
    exact hagreed
  · rw [hcall]
    rcases accept_agrees hagreed haccept with ⟨honce, hwaits⟩
    rcases Relay.accept_lastQueued haccept with ⟨hlast, horder⟩
    have hpolicy : accepted.policy = station.relay.policy := Relay.accept_policy haccept
    have hwaiting := Relay.waiting_settle_iff station.group.id (hpolicy ▸ hagreed.sync) honce hwaits
      hcarried
    rcases Relay.settle_relay drained station.group.id id results with
      ⟨ledger, hsettled, -, htidy⟩
    rw [hsettled] at hwaiting ⊢
    constructor
    case consistent => exact hagreed.consistent
    case named => exact hagreed.named
    case sync =>
      show drained.policy.mode = .sync
      rw [hcarried.policy, hpolicy]
      exact hagreed.sync
    case tidy =>
      apply htidy
      rw [hcarried.ledger]
      exact Relay.tidy_accept haccept hagreed.tidy
    case once => exact fun name => (honce name).sublist (hcarried.sublist name)
    case upTo =>
      intro name other hother
      refine ⟨id, hcarried.lastQueued.trans hlast, ?_⟩
      rcases mem_backlog_carried hagreed haccept hcarried hother with hold | ⟨rfl, -⟩
      · exact GlobalId.le_of_lt (lt_of_upTo horder (hagreed.upTo name other hold))
      · exact GlobalId.le_refl _
    case waiting => exact hwaiting
    case owing =>
      intro name other hother
      rcases mem_backlog_carried hagreed haccept hcarried hother with hold | ⟨-, hpassive⟩
      · exact hagreed.owing name other hold
      · have hcomplete := FailoverGroup.complete_of_hasPassive hagreed.consistent hpassive
        exact ⟨(Relay.admits?_eq_some hadmits).2.1, hcomplete,
          ((FailoverGroup.hasPassive_iff_of_complete hagreed.consistent hagreed.named hcomplete).1
            hpassive).1⟩

/-!
## Steps
-/

theorem agreed_operate (hagreed : station.Agreed) {operation : FailoverGroup.Operation}
    (hnames : operation.NamesNodes) : (station.step (.operate operation)).Agreed := by
  have hgroup := FailoverGroup.perform_consistent hagreed.consistent operation
  rcases Relay.follow_frame station.relay (operation.change station.group) with ⟨hpolicy, hlast⟩
  have hbacklog : ∀ name, (station.step (.operate operation)).relay.backlog name =
      if name ∈ (operation.change station.group).removed.map Node.name then []
      else station.relay.backlog name := by
    intro name
    rw [step, Relay.backlog, Relay.lane_follow]
    split <;> rfl
  have hqueued : ∀ name, ∀ id ∈ (station.step (.operate operation)).relay.backlog name,
      name ∉ (operation.change station.group).removed.map Node.name ∧
        id ∈ station.relay.backlog name := by
    intro name id hid
    rw [hbacklog] at hid
    split at hid
    · cases hid
    · next hstays => exact ⟨hstays, hid⟩
  constructor
  case consistent => exact hgroup
  case named => exact FailoverGroup.named_perform hagreed.named hnames
  case sync => exact (congrArg RelayPolicy.mode hpolicy).trans hagreed.sync
  case tidy => exact Relay.tidy_follow hagreed.tidy
  case once =>
    intro name
    rw [hbacklog]
    split
    · exact .nil
    · exact hagreed.once name
  case upTo =>
    intro name id hid
    rcases hagreed.upTo name id (hqueued name id hid).2 with ⟨last, hmark, hle⟩
    exact ⟨last, hlast.trans hmark, hle⟩
  case waiting =>
    -- Whoever leaves loses its lane, and is waited for no longer.
    intro name id
    rw [hbacklog]
    refine Relay.mem_waiting_follow.trans ?_
    rw [hagreed.waiting]
    split
    · next hgone => exact iff_of_false (fun hboth => hboth.2 hgone) List.not_mem_nil
    · next hstays => exact and_iff_left hstays
  case owing =>
    intro name id hid
    rcases hqueued name id hid with ⟨hstays, hold⟩
    rcases hagreed.owing name id hold with ⟨hnetworked, hcomplete, hmember⟩
    refine ⟨?_, FailoverGroup.perform_complete hcomplete operation, ?_⟩
    · unfold FailoverGroup.isNetworked at hnetworked ⊢
      rw [step, FailoverGroup.ha_perform]
      exact hnetworked
    · rw [FailoverGroup.mem_removed_iff hagreed.consistent hagreed.named (hcomplete name hmember),
        not_not] at hstays
      exact hstays

theorem agreed_step (hagreed : station.Agreed) (hnames : event.NamesNodes) :
    (station.step event).Agreed := by
  cases event with
  | relay transaction wire => exact agreed_call hagreed transaction wire
  | declareHeld passive objects | widenHeld passive objects =>
    exact ⟨hagreed.consistent, hagreed.named, hagreed.sync, hagreed.tidy, hagreed.once,
      hagreed.upTo, hagreed.waiting, hagreed.owing⟩
  | operate operation => exact agreed_operate hagreed hnames

theorem agreed_run (hagreed : station.Agreed) (hnames : ∀ event ∈ events, event.NamesNodes) :
    (station.run events).Agreed := by
  induction events generalizing station with
  | nil => exact hagreed
  | cons event rest ih =>
    rw [List.forall_mem_cons] at hnames
    exact ih (agreed_step hagreed hnames.1) hnames.2

/-!
## Who is waited for
-/

theorem mem_pending_iff (hagreed : station.Agreed) :
    name ∈ station.relay.ledger.pending id ↔ id ∈ station.relay.backlog name :=
  Ledger.mem_pending_iff.trans (hagreed.waiting name id)

theorem hasPassive_or_leads (hagreed : station.Agreed)
    (howes : name ∈ station.relay.ledger.pending id) :
    station.group.hasPassive name = true ∨ station.group.active = some name := by
  rcases hagreed.owing name id ((mem_pending_iff hagreed).1 howes) with ⟨-, hcomplete, hmember⟩
  rw [FailoverGroup.hasPassive_iff_of_complete hagreed.consistent hagreed.named hcomplete]
  by_cases hactive : station.group.active = some name
  · exact Or.inr hactive
  · exact Or.inl ⟨hmember, hactive⟩

/-- Whether the active owes nothing. -/
def LeadClear (station : Station) : Prop :=
  ∀ name, station.group.active = some name → station.relay.backlog name = []

theorem waitsForPassives_iff_leadClear (hagreed : station.Agreed) :
    station.WaitsForPassives ↔ station.LeadClear := by
  constructor
  · intro hwaits name hactive
    rw [List.eq_nil_iff_forall_not_mem]
    intro id hqueued
    have hpassive := hwaits id name ((mem_pending_iff hagreed).2 hqueued)
    exact FailoverGroup.active_ne_of_hasPassive hpassive hactive
  · intro hclear id name howes
    rcases hasPassive_or_leads hagreed howes with hpassive | hactive
    · exact hpassive
    · have hqueued := (mem_pending_iff hagreed).1 howes
      rw [hclear name hactive] at hqueued
      cases hqueued

/-!
## How arrears are paid
-/

theorem backlog_call_of_active (hagreed : station.Agreed)
    (hactive : station.group.active = some name) (transaction : Sequenced) (wire : Wire) :
    (station.call transaction wire).2.backlog name = station.relay.backlog name := by
  have hnone : station.group.hasPassive name = false := by
    rw [Bool.eq_false_iff]
    exact fun hpassive => FailoverGroup.active_ne_of_hasPassive hpassive hactive
  rcases call_cases hagreed transaction wire with
    ⟨-, hsame⟩ | ⟨id, accepted, results, drained, -, haccept, hcarried, hcall⟩
  · rw [hsame]
  · have hothers : ∀ result ∈ results, result.1.node.name ≠ name := by
      intro result hresult hname
      have hpassive := (Relay.hasPassive_of_accept haccept name).2
        ⟨result.1, List.mem_map_of_mem hresult, hname⟩
      rw [hnone] at hpassive
      cases hpassive
    rcases Relay.settle_relay drained station.group.id id results with ⟨ledger, hsettled, -⟩
    rw [hcall, hsettled]
    refine (hcarried.others name hothers).trans ?_
    rw [Relay.backlog_accept hagreed.consistent hagreed.named haccept, hnone]
    exact List.append_nil _

theorem leads_of_ok (hagreed : station.Agreed) {report : RelayReport}
    (hok : (station.call transaction wire).1 = .ok report)
    (howes : name ∈ (station.call transaction wire).2.ledger.pending id) :
    station.group.active = some name := by
  have hafter : Agreed { station with relay := (station.call transaction wire).2 } :=
    agreed_call hagreed transaction wire
  have hqueued : id ∈ (station.call transaction wire).2.backlog name :=
    (mem_pending_iff hafter).1 howes
  have hnetworked := (hafter.owing name id hqueued).1
  refine (hasPassive_or_leads hafter howes).resolve_left ?_
  intro hpassive
  rcases call_cases hagreed transaction wire with
    ⟨hrefused, -⟩ | ⟨own, accepted, results, drained, -, haccept, hcarried, hcall⟩
  · -- On the network a call that does not queue its record fails.
    rcases Relay.globalId_of_ok hok with ⟨own, hid⟩
    rw [Relay.admits?_of_ok hnetworked hid hok] at hrefused
    cases hrefused
  · rcases (Relay.hasPassive_of_accept haccept name).1 hpassive with ⟨target, htarget, rfl⟩
    rcases List.mem_map.1 htarget with ⟨result, hresult, rfl⟩
    have hlast := Relay.backlog_accept hagreed.consistent hagreed.named haccept
      result.1.node.name
    rw [if_pos hpassive] at hlast
    have hsync : drained.policy.mode = .sync := by
      rw [hcarried.policy, Relay.accept_policy haccept]
      exact hagreed.sync
    rcases Relay.settle_relay drained station.group.id own results with ⟨ledger, hsettled, -⟩
    rw [hcall] at hok
    rw [hcall, hsettled] at hqueued
    have hempty : drained.backlog result.1.node.name = [] :=
      Relay.backlog_eq_nil_of_settle hsync hok hcarried hresult hlast
    change id ∈ drained.backlog result.1.node.name at hqueued
    rw [hempty] at hqueued
    cases hqueued

theorem size_eq_zero_of_ok (hagreed : station.Agreed) (hwaits : station.WaitsForPassives)
    {report : RelayReport} (hok : (station.call transaction wire).1 = .ok report) :
    (station.call transaction wire).2.ledger.size = 0 := by
  have hafter : Agreed { station with relay := (station.call transaction wire).2 } :=
    agreed_call hagreed transaction wire
  rw [Ledger.size_eq_zero_iff hafter.tidy]
  intro id name hwaiting
  have hactive := leads_of_ok hagreed hok (Ledger.mem_pending_iff.2 hwaiting)
  have hqueued := (hafter.waiting name id).1 hwaiting
  change id ∈ (station.call transaction wire).2.backlog name at hqueued
  rw [backlog_call_of_active hagreed hactive,
    (waitsForPassives_iff_leadClear hagreed).1 hwaits name hactive] at hqueued
  cases hqueued

theorem call_ok_of_reached (hagreed : station.Agreed) {owed : GlobalId}
    (howes : name ∈ station.relay.ledger.pending owed) (hid : transaction.globalId = some id)
    (hnew : ∀ last, station.relay.lastQueued = some last → last < id) {passives : Passives}
    (hreached : ∀ name, station.group.hasPassive name = true → passives.reaches name = true) :
    ∃ report, (station.call transaction { state := passives }).1 = .ok report := by
  rcases hagreed.owing name owed ((mem_pending_iff hagreed).1 howes) with
    ⟨hnetworked, hcomplete, -⟩
  have hpassives := FailoverGroup.passives_of_complete hagreed.consistent hcomplete
  rcases (Relay.accept_ok_iff station.relay station.group id transaction.record).2
    ⟨⟨_, hpassives⟩, hnew⟩ with ⟨result, haccept⟩
  have hadmits : station.relay.admits? station.group transaction = some id := by
    simp [Relay.admits?, hid, hnetworked, haccept]
  rcases Relay.relay_admitted passives hagreed.consistent hagreed.named hadmits with
    ⟨outcome, next, elapsed, later, hrelay, -, -, -, -, hsucceeds⟩
  rcases (hsucceeds hagreed.sync).2 hreached with ⟨report, hok⟩
  refine ⟨report, ?_⟩
  unfold call
  rw [hrelay]
  exact hok

/-!
## How arrears persist
-/

theorem owes_step (hagreed : station.Agreed) (hkeeps : event.KeepsLead name)
    (hactive : station.group.active = some name) (hqueued : id ∈ station.relay.backlog name) :
    (station.step event).group.active = some name ∧
      id ∈ (station.step event).relay.backlog name := by
  cases event with
  | relay transaction wire =>
    refine ⟨hactive, ?_⟩
    show id ∈ (station.call transaction wire).2.backlog name
    rw [backlog_call_of_active hagreed hactive]
    exact hqueued
  | declareHeld passive objects | widenHeld passive objects => exact ⟨hactive, hqueued⟩
  | operate operation =>
    cases operation with
    | attach other node =>
      exact ⟨(FailoverGroup.active_perform_attach station.group other node).trans hactive, hqueued⟩
    | activate other | elect failed => exact hkeeps.elim
    | reconfigure members resolve =>
      refine ⟨FailoverGroup.active_perform_reconfigure.2 name hkeeps hactive, ?_⟩
      rcases hagreed.owing name id hqueued with ⟨-, hcomplete, hmember⟩
      have hremoved := FailoverGroup.mem_removed_iff hagreed.consistent hagreed.named
        (hcomplete name hmember) (.reconfigure members resolve)
      rw [step, Relay.backlog, Relay.lane_follow, if_neg]
      · exact hqueued
      · rw [hremoved, not_not]
        rcases FailoverGroup.change_cases station.group (.reconfigure members resolve) with
          ⟨-, hsame⟩ | ⟨others, resolver, hsame, hchange⟩
        · rw [hsame]
          exact hmember
        · cases hsame
          rw [(FailoverGroup.reconfigure_eq_ok hchange).2.1]
          exact hkeeps

theorem owes_run (hagreed : station.Agreed)
    (hevents : ∀ event ∈ events, event.NamesNodes ∧ event.KeepsLead name)
    (hactive : station.group.active = some name) (hqueued : id ∈ station.relay.backlog name) :
    (station.run events).group.active = some name ∧
      id ∈ (station.run events).relay.backlog name := by
  induction events generalizing station with
  | nil => exact ⟨hactive, hqueued⟩
  | cons event rest ih =>
    rw [List.forall_mem_cons] at hevents
    rcases owes_step hagreed hevents.1.2 hactive hqueued with ⟨hstill, hkept⟩
    exact ih (agreed_step hagreed hevents.1.1) hevents.2 hstill hkept

/-!
## Where arrears come from
-/

theorem leadClear_step (hagreed : station.Agreed) (hclear : station.LeadClear)
    (hmoves : event.MovesLead → ∀ name, (station.step event).group.active = some name →
      station.relay.backlog name = []) : (station.step event).LeadClear := by
  intro name hactive
  cases event with
  | relay transaction wire =>
    exact (backlog_call_of_active hagreed hactive transaction wire).trans (hclear name hactive)
  | declareHeld passive objects | widenHeld passive objects => exact hclear name hactive
  | operate operation =>
    cases operation with
    | attach other node =>
      have hkept := FailoverGroup.active_perform_attach station.group other node
      exact hclear name (hkept.symm.trans hactive)
    | activate other | elect failed => exact hmoves trivial name hactive
    | reconfigure members resolve =>
      have hbefore := hclear name (FailoverGroup.active_perform_reconfigure.1 name hactive)
      rw [step, Relay.backlog, Relay.lane_follow]
      split
      · rfl
      · exact hbefore

theorem run_append (station : Station) (first second : List Event) :
    station.run (first ++ second) = (station.run first).run second :=
  List.foldl_append

/-- The active owes nothing at any time, exactly if nobody takes the lead who owes something. -/
theorem leadClear_throughout_iff (hagreed : station.Agreed) (hclear : station.LeadClear)
    (hnames : ∀ event ∈ events, event.NamesNodes) :
    (∀ before after, events = before ++ after → (station.run before).LeadClear) ↔
      ∀ before event after, events = before ++ event :: after → event.MovesLead →
        ∀ name, (station.run (before ++ [event])).group.active = some name →
          (station.run before).relay.backlog name = [] := by
  constructor
  · intro hall before event after hsplit hmoves name hactive
    have hnext := hall (before ++ [event]) after (by rw [hsplit, List.append_cons]) name hactive
    rw [run_append] at hnext
    -- Moving the lead changes nothing about the relay.
    cases event with
    | relay transaction wire | declareHeld passive objects | widenHeld passive objects =>
      exact hmoves.elim
    | operate operation =>
      cases operation with
      | attach other node | reconfigure members resolve => exact hmoves.elim
      | activate other | elect failed => exact hnext
  · intro hmoves before
    induction before generalizing station events with
    | nil => exact fun _ _ => hclear
    | cons event front ih =>
      rintro after rfl
      rw [List.cons_append, List.forall_mem_cons] at hnames
      have hstep := leadClear_step hagreed hclear (hmoves [] event (front ++ after) rfl)
      refine ih (agreed_step hagreed hnames.1) hstep hnames.2 ?_ after rfl
      intro before other rest hsplit
      exact hmoves (event :: before) other rest (congrArg (event :: ·) hsplit)

/-- Whether what is pending can still be answered: every record with a new id that can be shipped to
all passives is relayed, and whichever call succeeds leaves nothing pending. -/
def Payable (station : Station) : Prop :=
  (∀ owed, ∀ name ∈ station.relay.ledger.pending owed, ∀ transaction id,
      transaction.globalId = some id →
      (∀ last, station.relay.lastQueued = some last → last < id) →
      ∀ passives : Passives,
        (∀ other, station.group.hasPassive other = true → passives.reaches other = true) →
        ∃ report, (station.call transaction { state := passives }).1 = .ok report) ∧
    ∀ transaction wire report, (station.call transaction wire).1 = .ok report →
      (station.call transaction wire).2.ledger.size = 0 ∧
        (station.call transaction wire).2.ledger.oldest? = none

/-- Whatever happens under synchronous relaying, only passives and the active are waited for.  The
ledger waits for passives only at all times, exactly if nobody takes the lead whose lane holds
something; at a time it does so exactly if the active owes nothing, and then all that is pending can
still be answered.  But what the active owes stays pending, and holds back the least pending id, as
long as the lead is not moved again and the active stays a member. -/
theorem arrears_of_run {group : FailoverGroup} {policy : RelayPolicy} (hgroup : group.Consistent)
    (hnamed : group.Named) (hsync : policy.mode = .sync)
    (hnames : ∀ event ∈ events, event.NamesNodes) :
    let station := opened group policy
    let reached := station.run events
    ((∀ before after, events = before ++ after → (station.run before).WaitsForPassives) ↔
      ∀ before event after, events = before ++ event :: after → event.MovesLead →
        ∀ name, (station.run (before ++ [event])).group.active = some name →
          (station.run before).relay.backlog name = []) ∧
    (∀ id, ∀ name ∈ reached.relay.ledger.pending id, name ∈ reached.group.members ∧
      (reached.group.hasPassive name = true ∨ reached.group.active = some name)) ∧
    (reached.WaitsForPassives ↔
      ∀ name, reached.group.active = some name → reached.relay.backlog name = []) ∧
    (reached.WaitsForPassives → reached.Payable) ∧
    ∀ id, ∀ name ∈ reached.relay.ledger.pending id, reached.group.active = some name →
      ∀ later : List Event, (∀ event ∈ later, event.NamesNodes ∧ event.KeepsLead name) →
        (reached.run later).group.active = some name ∧
          name ∈ (reached.run later).relay.ledger.pending id ∧
          ∃ least, (reached.run later).relay.ledger.oldest? = some least ∧ least ≤ id := by
  intro station reached
  have hopened : station.Agreed := agreed_opened hgroup hnamed hsync
  have hreached : reached.Agreed := agreed_run hopened hnames
  refine ⟨?_, ?_, waitsForPassives_iff_leadClear hreached, ?_, ?_⟩
  · rw [← leadClear_throughout_iff hopened (fun name _ => rfl) hnames]
    refine forall_congr' fun before => forall_congr' fun after => forall_congr' fun hsplit => ?_
    apply waitsForPassives_iff_leadClear
    apply agreed_run hopened
    intro event hevent
    apply hnames
    rw [hsplit]
    exact List.mem_append_left _ hevent
  · intro id name howes
    have hqueued := (mem_pending_iff hreached).1 howes
    exact ⟨(hreached.owing name id hqueued).2.2, hasPassive_or_leads hreached howes⟩
  · intro hwaits
    constructor
    · intro owed name howes transaction id hid hnew passives hall
      exact call_ok_of_reached hreached howes hid hnew hall
    · intro transaction wire report hok
      have hnothing := size_eq_zero_of_ok hreached hwaits hok
      exact ⟨hnothing, Ledger.oldest?_eq_none_iff.2 hnothing⟩
  · intro id name howes hactive later hlater
    have hstill := owes_run hreached hlater hactive ((mem_pending_iff hreached).1 howes)
    have hafter : (reached.run later).Agreed :=
      agreed_run hreached fun event hevent => (hlater event hevent).1
    have hpending := (mem_pending_iff hafter).2 hstill.2
    exact ⟨hstill.1, hpending, Ledger.oldest?_le (Ledger.mem_pending_iff.1 hpending)⟩

def inMemory (names : List String) : Passives :=
  ⟨names.foldl (fun passives name => passives.insert name {}) ∅⟩

/-- One passive misses a record, and the other one takes the lead. -/
def handover : List Event :=
  [.relay (.bare ⟨1⟩) { state := inMemory ["c"] }, .operate (.activate "c")]

/-- The passive still owes the record, and the next call that succeeds delivers it. -/
theorem arrears_paid : ((opened FailoverGroup.trio {}).run handover).relay.ledger.pending ⟨1⟩ =
      ["b"] ∧
    ((opened FailoverGroup.trio {}).run handover).WaitsForPassives ∧
    (((opened FailoverGroup.trio {}).run handover).call (.bare ⟨2⟩)
      { state := inMemory ["a", "b"] }).2.ledger.size = 0 := by
  rcases FailoverGroup.trio_consistent with ⟨hconsistent, hnamed⟩
  have hnames : ∀ event ∈ handover, event.NamesNodes := by
    unfold handover
    simp only [List.forall_mem_cons]
    exact ⟨trivial, trivial, fun _ hnone => absurd hnone List.not_mem_nil⟩
  have hsync : ({} : RelayPolicy).mode = .sync := rfl
  rcases arrears_of_run hconsistent hnamed hsync hnames with ⟨-, -, hclear, hpayable, -⟩
  have hwaits := hclear.2 (by rintro name ⟨⟩; decide +kernel)
  exact ⟨by decide +kernel, hwaits, ((hpayable hwaits).2 _ _ _ rfl).1⟩

/-- Without further conditions the ledger also waits for an active that has missed a record. -/
theorem active_waited_for : ¬∀ (group : FailoverGroup) (policy : RelayPolicy)
    (events : List Event), group.Consistent → group.Named → policy.mode = .sync →
    (∀ event ∈ events, event.NamesNodes) → ((opened group policy).run events).WaitsForPassives := by
  intro hclaim
  rcases FailoverGroup.trio_consistent with ⟨hconsistent, hnamed⟩
  have hnames : ∀ event ∈ ([.relay (.bare ⟨1⟩) { state := inMemory ["c"] },
      .operate (.elect "a")] : List Event), event.NamesNodes := by
    simp only [List.forall_mem_cons]
    exact ⟨trivial, trivial, fun _ hnone => absurd hnone List.not_mem_nil⟩
  have hpassive := hclaim FailoverGroup.trio {} _ hconsistent hnamed rfl hnames ⟨1⟩ "b"
    (by decide +kernel)
  exact absurd hpassive (by decide +kernel)

end Station
end SharedGraph
