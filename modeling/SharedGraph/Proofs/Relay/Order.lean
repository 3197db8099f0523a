import SharedGraph.Proofs.Relay.Carrying
import SharedGraph.Proofs.Relay.Holding

/-!
# A ledger and lanes in order

Every entry of the ledger waits for somebody, and no lane has an id behind the mark of the relay, so
none has that of a record which is accepted next.  No step of a call changes this, whatever
transport it ships over, and neither does a reconfiguration.
-/

namespace SharedGraph
namespace Relay

/-- Whether every entry of the ledger waits for somebody, and no lane has an id behind the mark. -/
structure InOrder (relay : Relay) : Prop where
  tidy : relay.ledger.Tidy
  marked : ∀ name, ∀ id ∈ relay.backlog name, UpTo relay.lastQueued id

variable {τ : Type} [Transport τ] {relay next : Relay} {group : FailoverGroup} {id : GlobalId}
variable {record : Record} {targets : List RelayTarget}
variable {results : List (RelayTarget × LaneReport)}

/-!
## What every step keeps
-/

theorem inOrder_new (policy : RelayPolicy) : InOrder { policy } :=
  ⟨Ledger.tidy_empty, fun _ _ hnone => absurd hnone List.not_mem_nil⟩

theorem inOrder_accept (horder : relay.InOrder)
    (hok : relay.accept group id record = .ok (targets, next)) : next.InOrder := by
  rcases accept_lastQueued hok with ⟨hmark, hbehind⟩
  refine ⟨tidy_accept hok horder.tidy, fun name other hother => ?_⟩
  rcases lane_accept hok name with ⟨added, hlane, hentries, -⟩
  rw [backlog, hlane, List.map_append] at hother
  rcases List.mem_append.1 hother with hbefore | hnew
  · exact ⟨id, hmark, GlobalId.le_of_lt (lt_of_upTo hbehind (horder.marked name other hbefore))⟩
  · rcases List.mem_map.1 hnew with ⟨entry, hentry, rfl⟩
    exact ⟨id, hmark, (hentries entry hentry).1 ▸ GlobalId.le_refl _⟩

theorem inOrder_carried (horder : relay.InOrder) (hcarried : Carried relay next id results) :
    next.InOrder := by
  constructor
  case tidy => exact hcarried.ledger ▸ horder.tidy
  case marked =>
    intro name other hother
    rw [hcarried.lastQueued]
    exact horder.marked name other ((hcarried.sublist name).subset hother)

theorem inOrder_drainAll (horder : relay.InOrder) (id : GlobalId) (targets : List RelayTarget)
    (busy : SortedMap String Nat) (transport : τ) :
    (relay.drainAll id targets busy transport).2.1.InOrder := by
  induction targets generalizing relay busy transport with
  | nil => exact horder
  | cons target rest ih =>
    rcases drain_carried relay id target transport with
      ⟨report, drained, elapsed, later, hdrain, hcarried⟩
    simp only [drainAll, hdrain]
    exact ih (inOrder_carried horder hcarried) _ later

theorem inOrder_settle (horder : relay.InOrder) (group : GroupId) (id : GlobalId)
    (results : List (RelayTarget × LaneReport)) : (relay.settle group id results).2.InOrder := by
  rcases settle_relay relay group id results with ⟨ledger, hsettled, -, htidy⟩
  rw [hsettled]
  exact ⟨htidy horder.tidy, horder.marked⟩

theorem inOrder_relay (horder : relay.InOrder) (group : FailoverGroup) (transaction : Sequenced)
    (transport : τ) : (relay.relay group transaction transport).2.1.InOrder := by
  cases hadmits : relay.admits? group transaction with
  | none =>
    rcases relay_refused transport hadmits with ⟨outcome, hrelay⟩
    rw [hrelay]
    exact horder
  | some id =>
    rcases admits?_eq_some hadmits with ⟨hid, hnetworked, targets, accepted, haccept⟩
    unfold Relay.relay
    simp only [hid, hnetworked, haccept, Bool.not_true, Bool.false_eq_true, if_false]
    exact inOrder_settle (inOrder_drainAll (inOrder_accept horder haccept) id targets ∅ transport)
      group.id id _

theorem inOrder_follow (horder : relay.InOrder) (change : MemberChange) :
    (relay.follow change).2.InOrder := by
  rcases follow_frame relay change with ⟨-, hmark⟩
  refine ⟨tidy_follow horder.tidy, fun name id hid => ?_⟩
  rw [backlog, lane_follow] at hid
  rw [hmark]
  split at hid
  · cases hid
  · exact horder.marked name id hid

end Relay

end SharedGraph
