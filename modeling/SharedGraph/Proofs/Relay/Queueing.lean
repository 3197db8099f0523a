import SharedGraph.Proofs.Failover.Membership
import SharedGraph.Proofs.Relay.Ledger
import SharedGraph.Relay.Basic

/-!
# What a relay queues

An accepted record goes to the end of the lane of every passive, once, and the ledger
waits for exactly these passives; nothing else about lanes or the ledger changes.  Ids are
accepted in ascending order.
-/

namespace SharedGraph

def Sequenced.bare (id : GlobalId) : Sequenced where
  record := {
    draft := { name := ⟨"client", id.number⟩ }
    rooted := fun _ hmem => absurd hmem List.not_mem_nil
    broadcast := fun _ hmem => absurd hmem List.not_mem_nil }
  globalId := some id

/-!
## Ascending ids
-/

/-- Ids that ascend, all of them behind a mark if there is one. -/
def AscendsFrom (mark : Option GlobalId) (ids : List GlobalId) : Prop :=
  (∀ last, mark = some last → ∀ id ∈ ids, last < id) ∧ ids.Pairwise (· < ·)

section AscendsFrom

variable {mark : Option GlobalId} {id : GlobalId} {rest : List GlobalId}

theorem ascendsFrom_nil : AscendsFrom mark [] :=
  ⟨fun _ _ _ hmem => absurd hmem List.not_mem_nil, .nil⟩

theorem ascendsFrom_cons (hmark : ∀ last, mark = some last → last < id)
    (hrest : AscendsFrom (some id) rest) : AscendsFrom mark (id :: rest) := by
  have hlater := hrest.1 id rfl
  refine ⟨fun last hlast other hother => ?_, .cons hlater hrest.2⟩
  rcases List.mem_cons.1 hother with rfl | hbehind
  · exact hmark last hlast
  · exact GlobalId.lt_of_le_of_lt (GlobalId.le_of_lt (hmark last hlast)) (hlater other hbehind)

theorem ascendsFrom_of_cons (hascends : AscendsFrom mark (id :: rest)) : AscendsFrom mark rest :=
  ⟨fun last hlast other hother => hascends.1 last hlast other (List.mem_cons_of_mem _ hother),
    hascends.2.of_cons⟩

theorem le_getLast_of_ascends {ids : List GlobalId} (hascends : AscendsFrom mark ids)
    (hid : id ∈ ids) : ∃ last, ids.getLast? = some last ∧ id ≤ last := by
  cases hlast : ids.getLast? with
  | none =>
    rw [List.getLast?_eq_none_iff.1 hlast] at hid
    cases hid
  | some last =>
    refine ⟨last, rfl, ?_⟩
    obtain ⟨front, rfl⟩ := List.getLast?_eq_some_iff.1 hlast
    rcases List.mem_append.1 hid with hfront | hsame
    · exact GlobalId.le_of_lt
        ((List.pairwise_append.1 hascends.2).2.2 id hfront last List.mem_cons_self)
    · rw [List.mem_singleton.1 hsame]
      exact GlobalId.le_refl last

theorem mem_of_ascends_of_le {first all : List GlobalId} {seen : GlobalId}
    (hascends : AscendsFrom mark all) (hfirst : first <+: all) (hid : id ∈ all)
    (hseen : seen ∈ first) (hle : id ≤ seen) : id ∈ first := by
  obtain ⟨rest, rfl⟩ := hfirst
  rcases List.mem_append.1 hid with hmem | hrest
  · exact hmem
  · have hlt := (List.pairwise_append.1 hascends.2).2.2 seen hseen id hrest
    exact absurd (GlobalId.lt_of_le_of_lt hle hlt) (GlobalId.lt_irrefl id)

end AscendsFrom

def UpTo (mark : Option GlobalId) (id : GlobalId) : Prop :=
  ∃ last, mark = some last ∧ id ≤ last

theorem lt_of_upTo {mark : Option GlobalId} {id other : GlobalId}
    (hbehind : ∀ last, mark = some last → last < id) (hupTo : UpTo mark other) : other < id := by
  rcases hupTo with ⟨last, hlast, hle⟩
  exact GlobalId.lt_of_le_of_lt hle (hbehind last hlast)

theorem not_upTo {mark : Option GlobalId} {id : GlobalId}
    (hbehind : ∀ last, mark = some last → last < id) : ¬UpTo mark id :=
  fun hupTo => GlobalId.lt_irrefl id (lt_of_upTo hbehind hupTo)

theorem nodup_append_new {ids : List GlobalId} {id : GlobalId} (hnodup : ids.Nodup)
    (hnew : id ∉ ids) (added : Bool) : (ids ++ if added then [id] else []).Nodup := by
  cases added with
  | false => exact (List.append_nil ids).symm ▸ hnodup
  | true =>
    refine List.nodup_append.2 ⟨hnodup, List.pairwise_singleton _ id, fun old hold new hadded => ?_⟩
    rw [List.mem_singleton.1 hadded]
    exact ne_of_mem_of_not_mem hold hnew

namespace Relay

variable {relay next : Relay} {group : FailoverGroup} {id : GlobalId} {record : Record}
variable {targets : List RelayTarget}

/-- The id under which a call queues its record, if it queues it. -/
def admits? (relay : Relay) (group : FailoverGroup) (transaction : Sequenced) :
    Option GlobalId :=
  match transaction.globalId with
  | none => none
  | some id =>
    if !group.isNetworked then none
    else
      match relay.accept group id transaction.record with
      | .ok _ => some id
      | .error _ => none

/-- The ids that a call queues for a passive: its own or none. -/
def queuesFor (relay : Relay) (group : FailoverGroup) (transaction : Sequenced)
    (passive : String) : List GlobalId :=
  if group.hasPassive passive then (relay.admits? group transaction).toList else []

theorem admits?_eq_some {transaction : Sequenced}
    (hadmits : relay.admits? group transaction = some id) :
    transaction.globalId = some id ∧ group.isNetworked = true ∧
      ∃ targets next, relay.accept group id transaction.record = .ok (targets, next) := by
  unfold admits? at hadmits
  cases hid : transaction.globalId with
  | none => simp [hid] at hadmits
  | some own =>
    simp only [hid] at hadmits
    cases hnetworked : group.isNetworked with
    | false => simp [hnetworked] at hadmits
    | true =>
      simp only [hnetworked, Bool.not_true, Bool.false_eq_true, if_false] at hadmits
      split at hadmits
      · next result hok =>
        cases hadmits
        exact ⟨rfl, rfl, result.1, result.2, hok⟩
      · cases hadmits

/-!
## Lanes
-/

theorem lane_insert (lanes : SortedMap String (List Queued)) (name passive : String)
    (queue : List Queued) :
    { relay with lanes := lanes.insert name queue }.lane passive =
      if passive = name then queue else { relay with lanes }.lane passive := by
  simp only [lane, SortedMap.get?_insert]
  split <;> rfl

theorem lane_push (node : Node) (shipment : Shipment) (passive : String) :
    (push id relay node shipment).lane passive =
      if passive = node.name then relay.lane passive ++ [⟨id, shipment⟩]
      else relay.lane passive := by
  unfold push
  rw [lane_insert]
  split
  · next hsame =>
    subst hsame
    rfl
  · rfl

theorem lane_foldl_push (id : GlobalId) (staged : List (Node × Shipment)) (relay : Relay)
    (passive : String) :
    (staged.foldl (fun relay entry => push id relay entry.1 entry.2) relay).lane passive =
      relay.lane passive ++
        (staged.filter fun entry => entry.1.name == passive).map fun entry => ⟨id, entry.2⟩ := by
  induction staged generalizing relay with
  | nil => simp
  | cons entry rest ih =>
    rw [List.foldl_cons, ih, lane_push, List.filter_cons]
    by_cases hsame : passive = entry.1.name
    · simp [hsame]
    · simp [hsame, Ne.symm hsame]

theorem foldl_push_frame (staged : List (Node × Shipment)) (relay : Relay) :
    (staged.foldl (fun relay entry => push id relay entry.1 entry.2) relay).ledger = relay.ledger ∧
      (staged.foldl (fun relay entry => push id relay entry.1 entry.2) relay).policy =
        relay.policy := by
  induction staged generalizing relay with
  | nil => exact ⟨rfl, rfl⟩
  | cons entry rest ih => exact ih (push id relay entry.1 entry.2)

theorem stage_eq_ok {nodes : List Node} {staged : List (Node × Shipment)}
    (hok : relay.stage record nodes = .ok staged) : staged.map Prod.fst = nodes := by
  induction nodes generalizing staged with
  | nil =>
    cases hok
    rfl
  | cons node rest ih =>
    rw [stage] at hok
    cases hshipment : relay.shipmentFor record node.name with
    | error failure => simp [hshipment] at hok
    | ok shipment =>
      cases hrest : relay.stage record rest with
      | error failure =>
        simp only [hshipment, hrest] at hok
        cases hok
      | ok others =>
        simp only [hshipment, hrest] at hok
        cases hok
        rw [List.map_cons, ih hrest]

/-!
## Accepting a record
-/

theorem accept_eq_ok (hok : relay.accept group id record = .ok (targets, next)) :
    ∃ nodes staged, group.passives = .ok nodes ∧ relay.stage record nodes = .ok staged ∧
      (∀ last, relay.lastQueued = some last → last < id) ∧
      targets = staged.map (fun entry => ⟨entry.1, entry.2.isNarrowed⟩) ∧
      next = { staged.foldl (fun relay entry => push id relay entry.1 entry.2)
          { relay with ledger := relay.ledger.expect id (staged.map fun entry => entry.1.name) }
        with lastQueued := some id } := by
  unfold accept at hok
  cases hpassives : group.passives with
  | error failure => simp [hpassives] at hok
  | ok nodes =>
    simp only [hpassives] at hok
    cases horder : relay.lastQueued.filter (id ≤ ·) with
    | some last => simp [horder] at hok
    | none =>
      simp only [horder] at hok
      cases hstaged : relay.stage record nodes with
      | error failure => simp [hstaged] at hok
      | ok staged =>
        simp only [hstaged, Except.ok.injEq, Prod.mk.injEq] at hok
        obtain ⟨rfl, rfl⟩ := hok
        refine ⟨nodes, staged, rfl, hstaged, fun last hlast => ?_, rfl, rfl⟩
        rw [hlast, Option.filter_eq_none_iff] at horder
        exact GlobalId.not_le.1 (by simpa using horder last rfl)

theorem accept_lastQueued (hok : relay.accept group id record = .ok (targets, next)) :
    next.lastQueued = some id ∧ ∀ last, relay.lastQueued = some last → last < id := by
  obtain ⟨nodes, staged, _, _, horder, _, rfl⟩ := accept_eq_ok hok
  exact ⟨rfl, horder⟩

theorem accept_policy (hok : relay.accept group id record = .ok (targets, next)) :
    next.policy = relay.policy := by
  obtain ⟨nodes, staged, _, _, _, _, rfl⟩ := accept_eq_ok hok
  exact (foldl_push_frame staged _).2

theorem accept_targets (hok : relay.accept group id record = .ok (targets, next)) :
    group.passives = .ok (targets.map RelayTarget.node) := by
  obtain ⟨nodes, staged, hpassives, hstaged, _, rfl, _⟩ := accept_eq_ok hok
  rw [hpassives, ← stage_eq_ok hstaged, List.map_map]
  rfl

theorem nodup_targets_of_accept (hgroup : group.Consistent) (hnamed : group.Named)
    (hok : relay.accept group id record = .ok (targets, next)) :
    (targets.map fun target => target.node.name).Nodup := by
  have hnames := FailoverGroup.nodup_passives hgroup hnamed (accept_targets hok)
  rw [List.map_map] at hnames
  exact hnames

theorem hasPassive_of_accept (hok : relay.accept group id record = .ok (targets, next))
    (passive : String) :
    group.hasPassive passive = true ↔ ∃ target ∈ targets, target.node.name = passive := by
  rw [FailoverGroup.hasPassive_iff (accept_targets hok)]
  simp

theorem mem_waiting_accept (hok : relay.accept group id record = .ok (targets, next))
    {other : GlobalId} {passive : String} :
    passive ∈ next.ledger.waiting other ↔
      passive ∈ relay.ledger.waiting other ∨ (other = id ∧ group.hasPassive passive = true) := by
  obtain ⟨nodes, staged, hpassives, hstaged, _, _, rfl⟩ := accept_eq_ok hok
  have hnames : staged.map (fun entry => entry.1.name) = nodes.map Node.name := by
    rw [← stage_eq_ok hstaged, List.map_map]
    rfl
  simp only [foldl_push_frame, Ledger.mem_waiting_expect, hnames,
    FailoverGroup.hasPassive_iff hpassives]

theorem tidy_accept (hok : relay.accept group id record = .ok (targets, next))
    (htidy : relay.ledger.Tidy) : next.ledger.Tidy := by
  obtain ⟨nodes, staged, _, _, _, _, rfl⟩ := accept_eq_ok hok
  simpa only [foldl_push_frame] using Ledger.tidy_expect htidy

theorem map_filter_of_nodup (id : GlobalId) (passive : String)
    {staged : List (Node × Shipment)}
    (hnodup : (staged.map fun entry => entry.1.name).Nodup) :
    (staged.filter fun entry => entry.1.name == passive).map (fun _ => id) =
      if passive ∈ staged.map (fun entry => entry.1.name) then [id] else [] := by
  induction staged with
  | nil => rfl
  | cons entry rest ih =>
    rw [List.map_cons, List.nodup_cons] at hnodup
    rw [List.filter_cons, List.map_cons]
    by_cases hsame : entry.1.name = passive
    · subst hsame
      rw [if_pos (by simp), List.map_cons, ih hnodup.2, if_neg hnodup.1, if_pos (by simp)]
    · rw [if_neg (by simpa using hsame), ih hnodup.2]
      simp only [List.mem_cons, Ne.symm hsame, false_or]

/-- An accepted record is queued once for every passive, behind all that is queued. -/
theorem backlog_accept (hgroup : group.Consistent) (hnamed : group.Named)
    (hok : relay.accept group id record = .ok (targets, next)) (passive : String) :
    next.backlog passive =
      relay.backlog passive ++ if group.hasPassive passive then [id] else [] := by
  obtain ⟨nodes, staged, hpassives, hstaged, _, _, rfl⟩ := accept_eq_ok hok
  have hnames : staged.map (fun entry => entry.1.name) = nodes.map Node.name := by
    rw [← stage_eq_ok hstaged, List.map_map]
    rfl
  have hnodup : (staged.map fun entry => entry.1.name).Nodup := by
    rw [hnames]
    exact FailoverGroup.nodup_passives hgroup hnamed hpassives
  have hlane := lane_foldl_push id staged
    { relay with ledger := relay.ledger.expect id (staged.map fun entry => entry.1.name) } passive
  have hqueued := map_filter_of_nodup id passive hnodup
  rw [hnames] at hqueued
  simp only [backlog]
  calc
    _ = (relay.lane passive ++ (staged.filter fun entry => entry.1.name == passive).map
          fun entry => (⟨id, entry.2⟩ : Queued)).map Queued.id := congrArg _ hlane
    _ = (relay.lane passive).map Queued.id ++
          (staged.filter fun entry => entry.1.name == passive).map fun _ => id := by
        rw [List.map_append, List.map_map]
        rfl
    _ = _ := by simp only [hqueued, FailoverGroup.hasPassive_iff hpassives]

theorem mem_backlog_of_accept (hgroup : group.Consistent) (hnamed : group.Named)
    (hok : relay.accept group id record = .ok (targets, next)) {other : GlobalId}
    {passive : String} :
    other ∈ next.backlog passive ↔
      other ∈ relay.backlog passive ∨ (other = id ∧ group.hasPassive passive = true) := by
  rw [backlog_accept hgroup hnamed hok, List.mem_append]
  apply or_congr_right
  cases group.hasPassive passive with
  | false => exact iff_of_false List.not_mem_nil fun hboth => Bool.false_ne_true hboth.2
  | true => exact List.mem_singleton.trans (and_iff_left rfl).symm

end Relay
end SharedGraph
