import SharedGraph.Proofs.Record.Pruning
import SharedGraph.Proofs.Relay.Queueing
import SharedGraph.Proofs.Relay.Settling

/-!
# What passives hold

The relay prunes a record for a passive by what it knows the passive to hold.  What it knows
is forgotten only by a new declaration or when the passive is removed, and it grows when a
record is queued: the objects that the record creates are held from then on.
-/

namespace SharedGraph
namespace Relay

variable {relay next : Relay} {group : FailoverGroup} {id : GlobalId} {record : Record}
variable {targets : List RelayTarget} {passive : String} {object : ObjectId}

/-- Whether the relay follows what a passive holds. -/
def Tracks (relay : Relay) (passive : String) : Prop :=
  ∃ objects, relay.held.get? passive = some objects

def Knows (relay : Relay) (passive : String) (object : ObjectId) : Prop :=
  ∃ objects, relay.held.get? passive = some objects ∧ object ∈ objects

/-!
## What a passive will get
-/

/-- A passive gets the full record unless the relay follows it, and it gets every change to
what it holds; it creates all that the record creates. -/
theorem shipmentFor_ok (relay : Relay) (record : Record) (passive : String) :
    ∃ shipment, relay.shipmentFor record passive = .ok shipment ∧
      (¬relay.Tracks passive → shipment = .full record) ∧
      shipment.changes.Sublist record.changes ∧
      (∀ object, relay.Knows passive object →
        shipment.changes.filter (fun change => change.object == object) =
          record.changes.filter fun change => change.object == object) ∧
      shipment.created = record.created := by
  unfold shipmentFor
  cases hheld : relay.held.get? passive with
  | none =>
    refine ⟨.full record, rfl, fun _ => rfl, List.Sublist.refl _, ?_, rfl⟩
    intro object _
    rfl
  | some objects =>
    rcases record.prune_ok objects with ⟨shipment, hprune, hchanges, hcreated⟩
    refine ⟨shipment, hprune, ?_, ?_, ?_, hcreated⟩
    · intro huntracked
      exact absurd ⟨objects, hheld⟩ huntracked
    · rw [hchanges]
      exact record.keptChanges_sublist objects
    · rintro object ⟨known, hknown, hmem⟩
      rw [hheld] at hknown
      cases hknown
      rw [hchanges]
      exact record.filter_keptChanges hmem

theorem stage_ok (relay : Relay) (record : Record) (nodes : List Node) :
    ∃ staged, relay.stage record nodes = .ok staged ∧
      ∀ entry ∈ staged, relay.shipmentFor record entry.1.name = .ok entry.2 := by
  induction nodes with
  | nil => exact ⟨[], rfl, fun _ hentry => absurd hentry List.not_mem_nil⟩
  | cons node rest ih =>
    rcases relay.shipmentFor_ok record node.name with ⟨shipment, hshipment, -⟩
    rcases ih with ⟨staged, hstaged, hentries⟩
    refine ⟨(node, shipment) :: staged, ?_, ?_⟩
    · rw [stage, hshipment, hstaged]
      rfl
    · intro entry hentry
      rcases List.mem_cons.1 hentry with rfl | hrest
      · exact hshipment
      · exact hentries entry hrest

/-- A record is refused if the group is incomplete or the id is not behind the mark of the relay,
and for no other reason. -/
theorem accept_eq_error_iff (relay : Relay) (group : FailoverGroup) (id : GlobalId)
    (record : Record) (failure : Failure) :
    relay.accept group id record = .error failure ↔ group.passives = .error failure ∨
      (∃ nodes, group.passives = .ok nodes) ∧ ∃ last, relay.lastQueued = some last ∧ id ≤ last ∧
        failure = .relayedOutOfOrder id last := by
  unfold accept
  cases hpassives : group.passives with
  | error reason => simp
  | ok nodes =>
    rcases relay.stage_ok record nodes with ⟨staged, hstaged, -⟩
    cases horder : relay.lastQueued.filter (id ≤ ·) with
    | some last =>
      rcases Option.filter_eq_some_iff.1 horder with ⟨hlast, hlate⟩
      have hle : id ≤ last := by simpa using hlate
      simp [hlast, hle, eq_comm]
    | none =>
      simp only [hstaged, reduceCtorEq, false_or, false_iff]
      intro hlate
      rcases hlate with ⟨-, last, hlast, hle, -⟩
      rw [hlast, Option.filter_eq_none_iff] at horder
      simpa [hle] using horder last rfl

theorem accept_ok_iff (relay : Relay) (group : FailoverGroup) (id : GlobalId) (record : Record) :
    (∃ result, relay.accept group id record = .ok result) ↔
      (∃ nodes, group.passives = .ok nodes) ∧ ∀ last, relay.lastQueued = some last → last < id := by
  constructor
  · rintro ⟨⟨targets, next⟩, hok⟩
    exact ⟨⟨_, accept_targets hok⟩, (accept_lastQueued hok).2⟩
  · rintro ⟨⟨nodes, hpassives⟩, horder⟩
    cases haccept : relay.accept group id record with
    | ok result => exact ⟨result, rfl⟩
    | error failure =>
      rcases (accept_eq_error_iff relay group id record failure).1 haccept with
        hshort | ⟨-, last, hlast, hle, -⟩
      · rw [hpassives] at hshort
        cases hshort
      · exact absurd (GlobalId.lt_of_lt_of_le (horder last hlast) hle) (GlobalId.lt_irrefl last)

theorem accept_outOfOrder_iff (relay : Relay) (group : FailoverGroup) (id : GlobalId)
    (record : Record) :
    (∃ own last, relay.accept group id record = .error (.relayedOutOfOrder own last)) ↔
      (∃ nodes, group.passives = .ok nodes) ∧ ∃ last, relay.lastQueued = some last ∧ id ≤ last := by
  constructor
  · rintro ⟨own, last, herror⟩
    rcases (accept_eq_error_iff relay group id record _).1 herror with
      hshort | ⟨hcomplete, mark, hmark, hle, -⟩
    · cases (FailoverGroup.passives_eq_error_iff.1 hshort).2
    · exact ⟨hcomplete, mark, hmark, hle⟩
  · rintro ⟨hcomplete, last, hlast, hle⟩
    exact ⟨id, last, (accept_eq_error_iff relay group id record _).2
      (Or.inr ⟨hcomplete, last, hlast, hle, rfl⟩)⟩

theorem lane_accept (hok : relay.accept group id record = .ok (targets, next))
    (passive : String) :
    ∃ added, next.lane passive = relay.lane passive ++ added ∧
      (∀ entry ∈ added, entry.id = id ∧
        relay.shipmentFor record passive = .ok entry.shipment) ∧
      (group.hasPassive passive = true ↔ added ≠ []) := by
  rcases accept_eq_ok hok with ⟨nodes, staged, hpassives, hstaged, -, -, rfl⟩
  rcases relay.stage_ok record nodes with ⟨others, hothers, hentries⟩
  rw [hstaged] at hothers
  cases hothers
  refine ⟨(staged.filter fun entry => entry.1.name == passive).map fun entry => ⟨id, entry.2⟩,
    lane_foldl_push id staged _ passive, ?_, ?_⟩
  · intro entry hentry
    rcases List.mem_map.1 hentry with ⟨source, hsource, rfl⟩
    rcases List.mem_filter.1 hsource with ⟨hmem, hname⟩
    rw [← beq_iff_eq.1 hname]
    exact ⟨rfl, hentries source hmem⟩
  · rw [FailoverGroup.hasPassive_iff hpassives, ← stage_eq_ok hstaged, List.map_map,
      Ne, List.map_eq_nil_iff, List.filter_eq_nil_iff]
    constructor
    · intro hmem hnone
      rcases List.mem_map.1 hmem with ⟨source, hsource, hname⟩
      exact hnone source hsource (beq_iff_eq.2 hname)
    · intro hsome
      apply Decidable.byContradiction
      intro hnot
      apply hsome
      intro source hsource hname
      exact hnot (List.mem_map.2 ⟨source, hsource, beq_iff_eq.1 hname⟩)

theorem mem_backlog_accept (hok : relay.accept group id record = .ok (targets, next)) :
    ∀ target ∈ targets, id ∈ next.backlog target.node.name := by
  intro target htarget
  rcases lane_accept hok target.node.name with ⟨added, hlane, hentries, hadded⟩
  have hpassive := (hasPassive_of_accept hok target.node.name).2 ⟨target, htarget, rfl⟩
  rcases List.exists_mem_of_ne_nil added (hadded.1 hpassive) with ⟨entry, hentry⟩
  rw [backlog, hlane, List.map_append, ← (hentries entry hentry).1]
  exact List.mem_append_right _ (List.mem_map_of_mem hentry)

/-!
## What stays known
-/

theorem get?_widenHeld (relay : Relay) (name passive : String) (objects : List ObjectId) :
    (relay.widenHeld name objects).held.get? passive =
      if passive = name then (relay.held.get? name).map fun held => held.insertAll objects
      else relay.held.get? passive :=
  SortedMap.get?_modify _ _ _ _

theorem knows_widenHeld (hknows : relay.Knows passive object) (name : String)
    (objects : List ObjectId) : (relay.widenHeld name objects).Knows passive object := by
  rcases hknows with ⟨held, hheld, hmem⟩
  unfold Knows
  rw [get?_widenHeld]
  by_cases hsame : passive = name
  · rw [if_pos hsame, ← hsame, hheld]
    exact ⟨_, rfl, SortedSet.mem_insertAll.2 (Or.inr hmem)⟩
  · rw [if_neg hsame]
    exact ⟨held, hheld, hmem⟩

theorem tracks_widenHeld (htracks : relay.Tracks passive) (name : String)
    (objects : List ObjectId) : (relay.widenHeld name objects).Tracks passive := by
  rcases htracks with ⟨held, hheld⟩
  unfold Tracks
  rw [get?_widenHeld]
  by_cases hsame : passive = name
  · rw [if_pos hsame, ← hsame, hheld]
    exact ⟨_, rfl⟩
  · rw [if_neg hsame]
    exact ⟨held, hheld⟩

theorem knows_of_widenHeld {objects : List ObjectId} (htracks : relay.Tracks passive)
    (hmem : object ∈ objects) : (relay.widenHeld passive objects).Knows passive object := by
  rcases htracks with ⟨held, hheld⟩
  unfold Knows
  rw [get?_widenHeld, if_pos rfl, hheld]
  exact ⟨_, rfl, SortedSet.mem_insertAll.2 (Or.inl hmem)⟩

theorem knows_of_declareHeld {objects : SortedSet ObjectId} (hmem : object ∈ objects) :
    (relay.declareHeld passive objects).Knows passive object :=
  ⟨objects, SortedMap.get?_insert_self _ _ _, hmem⟩

theorem knows_declareHeld {name : String} (hknows : relay.Knows passive object)
    (hother : passive ≠ name) (objects : SortedSet ObjectId) :
    (relay.declareHeld name objects).Knows passive object := by
  rcases hknows with ⟨held, hheld, hmem⟩
  refine ⟨held, ?_, hmem⟩
  unfold declareHeld
  rw [SortedMap.get?_insert_of_ne _ _ hother]
  exact hheld

theorem knows_foldl_push (staged : List (Node × Shipment)) (hknows : relay.Knows passive object) :
    (staged.foldl (fun relay entry => push id relay entry.1 entry.2) relay).Knows passive
      object := by
  induction staged generalizing relay with
  | nil => exact hknows
  | cons entry rest ih => exact ih (knows_widenHeld hknows entry.1.name _)

theorem knows_of_foldl_push {staged : List (Node × Shipment)} {entry : Node × Shipment}
    (htracks : relay.Tracks passive) (hentry : entry ∈ staged) (hname : entry.1.name = passive)
    (hcreated : object ∈ entry.2.created) :
    (staged.foldl (fun relay entry => push id relay entry.1 entry.2) relay).Knows passive
      object := by
  induction staged generalizing relay with
  | nil => cases hentry
  | cons first rest ih =>
    rcases List.mem_cons.1 hentry with rfl | hrest
    · subst hname
      exact knows_foldl_push rest
        (knows_of_widenHeld htracks (SortedSet.mem_toList.2 hcreated))
    · exact ih (tracks_widenHeld htracks first.1.name _) hrest

theorem knows_accept (hok : relay.accept group id record = .ok (targets, next))
    (hknows : relay.Knows passive object) : next.Knows passive object := by
  rcases accept_eq_ok hok with ⟨nodes, staged, -, -, -, -, rfl⟩
  exact knows_foldl_push staged hknows

theorem knows_of_accept (hok : relay.accept group id record = .ok (targets, next))
    (hpassive : group.hasPassive passive = true) (htracks : relay.Tracks passive)
    (hcreated : object ∈ record.created) : next.Knows passive object := by
  rcases accept_eq_ok hok with ⟨nodes, staged, hpassives, hstaged, -, -, rfl⟩
  rcases relay.stage_ok record nodes with ⟨others, hothers, hentries⟩
  rw [hstaged] at hothers
  cases hothers
  rw [FailoverGroup.hasPassive_iff hpassives, ← stage_eq_ok hstaged, List.map_map] at hpassive
  rcases List.mem_map.1 hpassive with ⟨entry, hentry, hname⟩
  rcases relay.shipmentFor_ok record entry.1.name with ⟨shipment, hshipment, -, -, -, hnew⟩
  rw [hentries entry hentry] at hshipment
  cases hshipment
  rw [← hnew] at hcreated
  exact knows_of_foldl_push htracks hentry hname hcreated

theorem knows_follow {change : MemberChange} (hknows : relay.Knows passive object)
    (hstays : passive ∉ change.removed.map Node.name) :
    (relay.follow change).2.Knows passive object := by
  rcases hknows with ⟨held, hheld, hmem⟩
  refine ⟨held, ?_, hmem⟩
  rw [held_follow, if_neg hstays, hheld]
  split <;> rfl

end Relay
end SharedGraph
