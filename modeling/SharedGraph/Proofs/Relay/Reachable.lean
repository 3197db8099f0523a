import SharedGraph.Proofs.Relay.InFlight
import SharedGraph.Proofs.Relay.Order

/-!
# The states of a relay

A relay comes to a state by whole calls over any transport, by calls in flight that are started,
moved, settled and given up at any moment, by what is declared of its passives, by reconfigurations,
and by whatever its ledger is told directly.  In each such state the ledger and the lanes are in
order, and a reconfiguration releases exactly what those who left were holding back
(`follow_releases_departed`).
-/

namespace SharedGraph

namespace InFlight

inductive Reachable : InFlight → Prop where
  | opened (policy : RelayPolicy) : Reachable { relay := { policy } }
  | start {state : InFlight} (hreached : Reachable state) (group : FailoverGroup)
      (transaction : Sequenced) : Reachable (state.start group transaction)
  | move {state next : InFlight} (hreached : Reachable state) {call drain : Nat}
      {move : DrainMove} (hmove : state.moveDrain? call drain move = some next) : Reachable next
  | settle {state next : InFlight} (hreached : Reachable state) {group : GroupId} {call : Nat}
      (hsettled : state.settleCall? group call = some next) : Reachable next
  /-- Nobody waits for the end of a call any more, and it goes no further. -/
  | giveUp {state : InFlight} (hreached : Reachable state) (call : Nat) :
      Reachable { state with calls := state.calls.eraseIdx call }
  | relay {state : InFlight} (hreached : Reachable state) (hidle : state.isIdle = true) {τ : Type}
      [Transport τ] (group : FailoverGroup) (transaction : Sequenced) (transport : τ) :
      Reachable { state with relay := (state.relay.relay group transaction transport).2.1 }
  | declareHeld {state : InFlight} (hreached : Reachable state) (passive : String)
      (objects : SortedSet ObjectId) :
      Reachable { state with relay := state.relay.declareHeld passive objects }
  | widenHeld {state : InFlight} (hreached : Reachable state) (passive : String)
      (objects : List ObjectId) :
      Reachable { state with relay := state.relay.widenHeld passive objects }
  | follow {state : InFlight} (hreached : Reachable state) (change : MemberChange) :
      Reachable (state.follow change).2
  | onLedger {state : InFlight} (hreached : Reachable state) (call : LedgerCall) :
      Reachable { state with
        relay := { state.relay with ledger := call.make state.relay.ledger } }

variable {state next : InFlight}

theorem inOrder_moveDrain? {call drain : Nat} {move : DrainMove} (horder : state.relay.InOrder)
    (hmove : state.moveDrain? call drain move = some next) : next.relay.InOrder := by
  rcases moveDrain?_eq_some hmove with ⟨id, found, moved, left, earlier, later, before, after, -,
    hstep, -, -, hlanes, hledger, -, hmark⟩
  rcases Drain.move?_eq_some hstep with ⟨-, -, -, hqueue⟩
  constructor
  case tidy => exact hledger ▸ horder.tidy
  case marked =>
    intro name other hother
    rw [hmark]
    apply horder.marked name other
    rw [Relay.backlog, hlanes] at hother
    split at hother
    · next hlane =>
      have hsame : state.relay.backlog name = (state.lane found.lane).map Queued.id := by
        rw [hlane]
        rfl
      rw [hsame]
      rcases hqueue with ⟨entry, -, hfront, -⟩ | ⟨-, hkept, -⟩
      · rw [hfront]
        exact List.mem_cons_of_mem _ hother
      · rw [hkept]
        exact hother
    · exact hother

theorem Reachable.inOrder (hreached : state.Reachable) : state.relay.InOrder := by
  induction hreached with
  | opened policy => exact Relay.inOrder_new policy
  | @start state _ group transaction ih =>
    rcases state.start_cases group transaction with
      ⟨-, outcome, hstart⟩ | ⟨id, targets, accepted, -, haccept, hstart⟩
    · rw [hstart]
      exact ih
    · rw [hstart]
      exact Relay.inOrder_accept ih haccept
  | move _ hmove ih => exact inOrder_moveDrain? ih hmove
  | settle _ hsettled ih =>
    rcases settleCall?_eq_some hsettled with
      ⟨id, drains, results, outcome, ledger, earlier, later, -, -, rfl, -, htidy⟩
    exact ⟨htidy ih.tidy, ih.marked⟩
  | giveUp _ call ih => exact ih
  | relay _ _ group transaction transport ih =>
    exact Relay.inOrder_relay ih group transaction transport
  | declareHeld _ passive objects ih | widenHeld _ passive objects ih => exact ⟨ih.tidy, ih.marked⟩
  | @follow state _ change ih =>
    rw [relay_follow]
    exact Relay.inOrder_follow ih change
  | onLedger _ call ih => exact ⟨LedgerCall.tidy_make ih.tidy call, ih.marked⟩

end InFlight

/-!
## Following a reconfiguration
-/

structure Relay.Followed (relay next : Relay) (change : MemberChange)
    (released : List GlobalId) : Prop where
  once : released.Nodup
  released : ∀ id, id ∈ released ↔ relay.ledger.pending id ≠ [] ∧
    ∀ name ∈ relay.ledger.pending id, name ∈ change.removed.map Node.name
  pending : ∀ id name, name ∈ next.ledger.pending id ↔
    name ∈ relay.ledger.pending id ∧ name ∉ change.removed.map Node.name
  lane : ∀ name, next.lane name =
    if name ∈ change.removed.map Node.name then [] else relay.lane name
  /-- What is known of those who left is forgotten before the newcomers are greeted. -/
  held : ∀ name, next.held.get? name =
    let kept := if name ∈ change.removed.map Node.name then none else relay.held.get? name
    if name ∈ change.added.map Node.name then some (kept.getD ∅) else kept
  mark : next.lastQueued = relay.lastQueued
  policy : next.policy = relay.policy

namespace InFlight

/-- Wherever a relay and its calls have come to, following a reconfiguration releases each id once
that was waiting for those who left and for nobody else, takes them off every other id, and drops
their lanes and what they hold; newcomers hold nothing unless something is still known of them. -/
theorem follow_releases_departed {state : InFlight} (hreached : state.Reachable)
    (change : MemberChange) :
    state.relay.Followed (state.follow change).2.relay change (state.follow change).1 := by
  have htold : (state.follow change).1 = (state.relay.follow change).1 := by
    unfold follow
    dsimp only
    rw [foldl_dropLane_relay]
  rcases Relay.released_follow hreached.inOrder.tidy change with ⟨honce, hreleased⟩
  rcases Relay.follow_frame state.relay change with ⟨hpolicy, hmark⟩
  rw [relay_follow, htold]
  constructor
  case once => exact honce
  case released =>
    intro id
    rw [hreleased, Ne, Ledger.pending_eq_nil_iff, Classical.not_forall_not]
    simp only [Ledger.mem_pending_iff]
  case pending =>
    intro id name
    rw [Ledger.mem_pending_iff, Ledger.mem_pending_iff, Relay.mem_waiting_follow]
  case lane => exact fun name => Relay.lane_follow
  case held => exact fun name => Relay.held_follow
  case mark => exact hmark
  case policy => exact hpolicy

theorem released_with_last_departure :
    let owing : InFlight :=
      { relay := (({} : Relay).relay FailoverGroup.trio (.bare ⟨1⟩) ({} : Passives)).2.1 }
    let departed (names : List String) : MemberChange :=
      { removed := names.map FailoverGroup.resident }
    owing.Reachable ∧ ⟨1⟩ ∉ (owing.follow (departed ["b"])).1 ∧
      ⟨1⟩ ∈ (owing.follow (departed ["b", "c", "b"])).1 := by
  intro owing departed
  have hreached : owing.Reachable :=
    .relay (.opened {}) rfl FailoverGroup.trio (.bare ⟨1⟩) ({} : Passives)
  have hone := follow_releases_departed hreached (departed ["b"])
  have hall := follow_releases_departed hreached (departed ["b", "c", "b"])
  refine ⟨hreached, ?_, ?_⟩
  · rw [hone.released]
    decide
  · rw [hall.released]
    decide

end InFlight
end SharedGraph
