import SharedGraph.Proofs.Relay.Carrying
import SharedGraph.Proofs.Relay.Holding
import SharedGraph.Proofs.Relay.InFlight

/-!
# Calls that are refused

A call is refused for one of three reasons, and each is found before anything is changed.  What
might fail later, pruning the record for one passive after another, never does.  So a refused call
leaves the relay, its lanes and what the passives have received as they were, and so does a call in
a group that shares a disk (`refused_without_trace`).
-/

namespace SharedGraph
namespace Relay

variable {τ : Type} [Transport τ] {relay : Relay} {group : FailoverGroup}
variable {transaction : Sequenced} {failure : Failure}

inductive Refused (relay : Relay) (group : FailoverGroup) (transaction : Sequenced) :
    Failure → Prop where
  | unsequenced (hid : transaction.globalId = none) :
    Refused relay group transaction (.notSequenced transaction.record.name)
  | incomplete {id : GlobalId} (hid : transaction.globalId = some id)
      (hnetworked : group.isNetworked = true) (hcount : group.nodes.size ≠ group.members.length) :
    Refused relay group transaction (.incompleteMembership group.members group.nodes.keys)
  | outOfOrder {id last : GlobalId} (hid : transaction.globalId = some id)
      (hnetworked : group.isNetworked = true) (hcount : group.nodes.size = group.members.length)
      (hlast : relay.lastQueued = some last) (hle : id ≤ last) :
    Refused relay group transaction (.relayedOutOfOrder id last)

/-- What a call is refused for is found without queueing anything: it has no id, or its record is
not accepted. -/
theorem refused_iff : relay.Refused group transaction failure ↔
    (transaction.globalId = none ∧ failure = .notSequenced transaction.record.name) ∨
    ∃ id, transaction.globalId = some id ∧ group.isNetworked = true ∧
      relay.accept group id transaction.record = .error failure := by
  simp only [accept_eq_error_iff, FailoverGroup.passives_eq_error_iff,
    FailoverGroup.passives_isOk_iff]
  constructor
  · intro hrefused
    cases hrefused with
    | unsequenced hid => exact .inl ⟨hid, rfl⟩
    | incomplete hid hnetworked hcount => exact .inr ⟨_, hid, hnetworked, .inl ⟨hcount, rfl⟩⟩
    | outOfOrder hid hnetworked hcount hlast hle =>
      exact .inr ⟨_, hid, hnetworked, .inr ⟨hcount, _, hlast, hle, rfl⟩⟩
  · intro hwhy
    rcases hwhy with ⟨hid, rfl⟩ | ⟨id, hid, hnetworked, hcount | hcount⟩
    · exact .unsequenced hid
    · rcases hcount with ⟨hcount, rfl⟩
      exact .incomplete hid hnetworked hcount
    · rcases hcount with ⟨hcount, last, hlast, hle, rfl⟩
      exact .outOfOrder hid hnetworked hcount hlast hle

theorem kind_of_refused (hrefused : relay.Refused group transaction failure) :
    failure.kind ≠ .replication := by
  cases hrefused <;> exact nofun

theorem admits?_of_refused (hrefused : relay.Refused group transaction failure) :
    relay.admits? group transaction = none := by
  unfold admits?
  rcases refused_iff.1 hrefused with ⟨hid, -⟩ | ⟨id, hid, hnetworked, haccept⟩
  · rw [hid]
  · simp [hid, hnetworked, haccept]

theorem relay_eq_error_iff (relay : Relay) (group : FailoverGroup) (transaction : Sequenced)
    (transport : τ) (failure : Failure) :
    ((relay.relay group transaction transport).1 = .error failure ∧
      failure.kind ≠ .replication) ↔ relay.Refused group transaction failure := by
  constructor
  · intro hfails
    rcases hfails with ⟨herror, hkind⟩
    rw [refused_iff]
    unfold Relay.relay at herror
    cases hid : transaction.globalId with
    | none =>
      simp only [hid, Except.error.injEq] at herror
      exact .inl ⟨rfl, herror.symm⟩
    | some id =>
      cases hnetworked : group.isNetworked with
      | false => simp [hid, hnetworked] at herror
      | true =>
        simp only [hid, hnetworked, Bool.not_true, Bool.false_eq_true, if_false] at herror
        cases haccept : relay.accept group id transaction.record with
        | error reason =>
          simp only [haccept, Except.error.injEq] at herror
          exact .inr ⟨id, rfl, rfl, herror ▸ haccept⟩
        | ok accepted =>
          rw [haccept] at herror
          rcases settle_eq_error herror with ⟨acknowledged, failed, rfl⟩
          exact absurd rfl hkind
  · intro hrefused
    refine ⟨?_, kind_of_refused hrefused⟩
    unfold Relay.relay
    rcases refused_iff.1 hrefused with ⟨hid, rfl⟩ | ⟨id, hid, hnetworked, haccept⟩
    · rw [hid]
    · simp [hid, hnetworked, haccept]

/-- Whatever the relay and its calls in flight have come to, a call fails without asking a passive
exactly for the reasons listed.  Then, and if the group shares a disk, it changes nothing: not the
relay, not what the passives have received, not the calls in flight.  A record can be staged for any
nodes, whatever they hold, so no other reason can come up on the way. -/
theorem refused_without_trace (relay : Relay) (group : FailoverGroup) (transaction : Sequenced)
    (transport : τ) :
    (∀ failure, ((relay.relay group transaction transport).1 = .error failure ∧
      failure.kind ≠ .replication) ↔ relay.Refused group transaction failure) ∧
    ((∃ failure, relay.Refused group transaction failure) ∨ group.isNetworked = false →
      (relay.relay group transaction transport).2 = (relay, 0, transport) ∧
      ∀ state : InFlight, state.relay = relay → ∃ outcome, state.start group transaction =
        { state with calls := state.calls ++ [.finished outcome] }) ∧
    ∀ record nodes, ∃ staged, relay.stage record nodes = .ok staged ∧
      staged.map Prod.fst = nodes := by
  refine ⟨relay_eq_error_iff relay group transaction transport, ?_, ?_⟩
  · intro hwhy
    have hadmits : relay.admits? group transaction = none := by
      rcases hwhy with ⟨failure, hrefused⟩ | hdisk
      · exact admits?_of_refused hrefused
      · unfold admits?
        cases transaction.globalId with
        | none => rfl
        | some id => simp [hdisk]
    constructor
    · rcases relay_refused transport hadmits with ⟨outcome, hrelay⟩
      rw [hrelay]
    · intro state hrelay
      subst hrelay
      rcases state.start_cases group transaction with ⟨-, hstart⟩ | ⟨id, -, -, hsome, -⟩
      · exact hstart
      · rw [hadmits] at hsome
        cases hsome
  · intro record nodes
    rcases relay.stage_ok record nodes with ⟨staged, hstaged, -⟩
    exact ⟨staged, hstaged, stage_eq_ok hstaged⟩

theorem earlier_id_refused :
    let owing := (({} : Relay).relay FailoverGroup.trio (.bare ⟨2⟩) ({} : Passives)).2.1
    owing.backlog "b" = [⟨2⟩] ∧
      owing.relay FailoverGroup.trio (.bare ⟨1⟩) ({} : Passives) =
        (.error (.relayedOutOfOrder ⟨1⟩ ⟨2⟩), owing, 0, {}) := by
  intro owing
  rcases refused_without_trace owing FailoverGroup.trio (.bare ⟨1⟩) ({} : Passives) with
    ⟨hreasons, htrace, -⟩
  have hrefused : owing.Refused FailoverGroup.trio (.bare ⟨1⟩) (.relayedOutOfOrder ⟨1⟩ ⟨2⟩) :=
    .outOfOrder rfl rfl rfl rfl (by decide)
  refine ⟨by decide, Prod.ext ((hreasons _).2 hrefused).1 ?_⟩
  exact (htrace (.inl ⟨_, hrefused⟩)).1

end Relay
end SharedGraph
