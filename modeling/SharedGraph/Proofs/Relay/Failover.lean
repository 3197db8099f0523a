import SharedGraph.Proofs.Relay.Cluster

/-!
# What survives a failover

A synchronous call that succeeds has reached every passive, so whoever is elected later has
its record and every earlier one.  A call that fails may have reached some passives and not
others, and the election does not ask who is ahead: the ids that a new active hands out are
new exactly if it had received all that the others had.
-/

namespace SharedGraph
namespace Cluster

variable {cluster : Cluster} {events earlier later : List Event} {passive : String}
variable {group : FailoverGroup} {policy : RelayPolicy} {id : GlobalId}

theorem delivered_of_ok {transaction : Sequenced} {report : RelayReport}
    (hsound : cluster.Sound) (hnetworked : cluster.group.isNetworked = true)
    (hsync : cluster.relay.policy.mode = .sync) (hid : transaction.globalId = some id)
    (hok : cluster.outcome transaction = .ok report)
    (hpassive : cluster.group.hasPassive passive = true) :
    (cluster.step (.relay transaction)).received passive =
      cluster.received passive ++ (cluster.relay.backlog passive ++ [id]) := by
  have hadmits := Relay.admits?_of_ok hnetworked hid hok
  obtain ⟨outcome, next, elapsed, after, hrelay, hreceived, -, -, -, hreached⟩ :=
    Relay.relay_admitted cluster.passives hsound.consistent hsound.named hadmits
  have hsame : outcome = .ok report := by
    rw [Cluster.outcome, hrelay] at hok
    exact hok
  have hreaches := (hreached hsync).1 ⟨report, hsame⟩ passive hpassive
  rw [step_relay hrelay]
  simp only [received, hreceived, hpassive, hreaches, Relay.queuesFor, hadmits, and_self, if_true]
  rfl

/-- No record that a synchronous call reported as relayed is lost: each passive of that call
has it in every later state, with every earlier record that was queued for the passive and
not dropped, and if the passive is elected it hands out greater ids only. -/
theorem received_of_reported {transaction : Sequenced} {report : RelayReport}
    (hgroup : group.Consistent) (hnamed : group.Named) (hnetworked : group.isNetworked = true)
    (hsync : policy.mode = .sync) (hearlier : ∀ event ∈ earlier, event.Fits)
    (hlater : ∀ event ∈ later, event.Fits) (hid : transaction.globalId = some id)
    (hok : ((opened group policy).run earlier).outcome transaction = .ok report)
    (hpassive : ((opened group policy).run earlier).group.hasPassive passive = true) :
    let reached := (opened group policy).run (earlier ++ .relay transaction :: later)
    id ∈ reached.received passive ∧
      (∀ other ∈ relayedTo passive earlier (opened group policy),
        other ∉ droppedFrom passive earlier (opened group policy) →
          other ∈ reached.received passive) ∧
      (∃ latest, reached.passives.latest passive = .ok (some latest) ∧ id ≤ latest) ∧
      ∀ failed election successor, reached.group.elect failed = .ok (election, successor) →
        election.active.name = passive → ∀ (numbering : Numbering) (calls : List Numbering.Call),
          .last ∉ (reached.passives.resume election.active.name numbering).handedOut calls →
          ∀ handed ∈ (reached.passives.resume election.active.name numbering).handedOut calls,
            id < handed := by
  intro reached
  have hopened := opened_sound policy hgroup hnamed
  have hsound := sound_run hopened hearlier
  have hdelivered := delivered_of_ok hsound
    (by rw [FailoverGroup.isNetworked, ha_run]; exact hnetworked)
    (by rw [policy_run hopened hearlier]; exact hsync) hid hok hpassive
  -- The call has emptied the lane of the passive, so whatever was queued before is received too.
  have hkept : ((opened group policy).run earlier).received passive ++
      (((opened group policy).run earlier).relay.backlog passive ++ [id]) <+:
        reached.received passive := by
    rw [← hdelivered]
    have hrelay : (Event.relay transaction).Fits := trivial
    have hreached : reached = (((opened group policy).run earlier).step
        (.relay transaction)).run later := run_append _ _ _
    rw [hreached]
    exact received_prefix_run (sound_step hsound hrelay) hlater passive
  have hown : id ∈ reached.received passive := hkept.subset (by simp)
  have hnotNil : reached.passives.received passive ≠ [] := List.ne_nil_of_mem hown
  have hlatest : ∃ latest, reached.passives.latest passive = .ok (some latest) ∧ id ≤ latest := by
    rcases reached.passives.latest_cases passive with ⟨hnone, -⟩ | ⟨latest, hlatest, -, hall⟩
    · exact absurd hnone hnotNil
    · exact ⟨latest, hlatest, hall id hown⟩
  refine ⟨hown, fun other hother hundropped => ?_, hlatest, ?_⟩
  · have haccount := (account_run hopened hearlier passive).symm.subset
      (List.mem_append_right _ (List.mem_append_right _ hother))
    rcases List.mem_append.1 haccount with hreceived | hrest
    · exact hkept.subset (List.mem_append_left _ hreceived)
    · have hqueued := (List.mem_append.1 hrest).resolve_right hundropped
      exact hkept.subset (List.mem_append_right _ (List.mem_append_left _ hqueued))
  · rintro failed election successor - rfl numbering calls hlast handed hhanded
    rcases reached.passives.resume_cases election.active.name numbering with
      ⟨hnone, -⟩ | ⟨latest, -, -, hall, hresumed⟩
    · exact absurd hnone hnotNil
    · rw [hresumed] at hlast hhanded
      exact GlobalId.lt_of_le_of_lt (hall id hown)
        (Numbering.lt_handedOut_resumeAfter hlast handed hhanded)

/-- One passive misses the first record until its link is restored. -/
def repair : List Event :=
  [.register "b", .register "c", .isolate "b" true, .relay (.bare ⟨1⟩), .isolate "b" false]

theorem received_after_repair :
    let reached := (opened FailoverGroup.trio {}).run
      (repair ++ .relay (.bare ⟨2⟩) :: [.isolate "b" true, .relay (.bare ⟨3⟩)])
    ⟨2⟩ ∈ reached.received "b" ∧ ⟨1⟩ ∈ reached.received "b" ∧
      ∃ election successor, reached.group.elect "a" = .ok (election, successor) ∧
        (⟨2⟩ : GlobalId) <
          (reached.passives.resume election.active.name Numbering.fresh).next.1 := by
  intro reached
  obtain ⟨hconsistent, hnamed⟩ := FailoverGroup.trio_consistent
  have hfits : ∀ event ∈ repair, event.Fits := by
    simp [repair, Event.Fits]
  have hlater : ∀ event ∈ [Event.isolate "b" true, .relay (.bare ⟨3⟩)], event.Fits := by
    simp [Event.Fits]
  have hok : ∃ report, ((opened FailoverGroup.trio {}).run repair).outcome (.bare ⟨2⟩) =
      .ok report := ⟨_, rfl⟩
  obtain ⟨report, hok⟩ := hok
  have hpassive : ((opened FailoverGroup.trio {}).run repair).group.hasPassive "b" = true := by
    decide +kernel
  obtain ⟨hown, hearlier, -, helected⟩ :=
    received_of_reported hconsistent hnamed rfl rfl hfits hlater rfl hok hpassive
  refine ⟨hown, hearlier ⟨1⟩ (by decide +kernel) (by decide +kernel), _, _, rfl, ?_⟩
  exact helected "a" _ _ rfl rfl Numbering.fresh [.next] (by decide +kernel) _ List.mem_cons_self

/-!
## Electing a passive that lags behind
-/

/-- Whether a fresh numbering that goes on where a passive left off is past an id that was
relayed: the passive has received the id, and there is an id behind it.  Zero is below every
numbering. -/
def Known (cluster : Cluster) (passive : String) (id : GlobalId) : Prop :=
  id.number = 0 ∨ (id ∈ cluster.received passive ∧ id ≠ .last)

theorem lt_resume_fresh_iff (passives : Passives) (passive : String) (id : GlobalId) :
    id < (passives.resume passive Numbering.fresh).upcoming ↔
      id.number = 0 ∨ ∃ seen ∈ passives.received passive, id ≤ seen ∧ id ≠ .last := by
  rcases passives.resume_cases passive Numbering.fresh with
    ⟨hnone, hfresh⟩ | ⟨latest, -, hmem, hall, hresumed⟩
  · rw [hfresh, Numbering.lt_fresh_iff, hnone]
    simp
  · rw [hresumed, Numbering.lt_fresh_resumeAfter_iff]
    constructor
    · exact fun hpast => .inr ⟨latest, hmem, hpast⟩
    · rintro (hzero | ⟨seen, hseen, hle, hlast⟩)
      · constructor
        · rw [GlobalId.le_iff_toNat_le, hzero]
          exact Nat.zero_le _
        · rintro rfl
          cases hzero
      · exact ⟨GlobalId.le_trans hle (hall seen hseen), hlast⟩

theorem received_prefix_admitted (policy : RelayPolicy) (hgroup : group.Consistent)
    (hnamed : group.Named) (hsteady : ∀ event ∈ events, event.Steady) (passive : String) :
    ((opened group policy).run events).received passive <+:
      admitted events (opened group policy) := by
  have haccount := received_append_backlog_run (opened_sound policy hgroup hnamed) hsteady passive
  have hsome : ((opened group policy).run events).received passive <+:
      if group.hasPassive passive then admitted events (opened group policy) else [] :=
    ⟨_, haccount⟩
  split at hsome
  · exact hsome
  · exact hsome.trans (List.nil_prefix)

theorem lt_resume_iff_known (hgroup : group.Consistent) (hnamed : group.Named)
    (hsteady : ∀ event ∈ events, event.Steady) (hid : id ∈ admitted events (opened group policy)) :
    id < (((opened group policy).run events).passives.resume passive Numbering.fresh).upcoming ↔
      ((opened group policy).run events).Known passive id := by
  have hstart := received_prefix_admitted policy hgroup hnamed hsteady passive
  have hascends := (ascending_admitted (opened_sound policy hgroup hnamed) hsteady).1
  rw [lt_resume_fresh_iff]
  refine or_congr_right ⟨?_, fun hknown => ⟨id, hknown.1, GlobalId.le_refl id, hknown.2⟩⟩
  rintro ⟨seen, hseen, hle, hlast⟩
  exact ⟨mem_of_ascends_of_le hascends hstart hid hseen hle, hlast⟩

theorem le_mark_of_admitted (hgroup : group.Consistent) (hnamed : group.Named)
    (hsteady : ∀ event ∈ events, event.Steady) (hid : id ∈ admitted events (opened group policy)) :
    ∃ mark, ((opened group policy).run events).relay.lastQueued = some mark ∧ id ≤ mark := by
  obtain ⟨hascends, hmark⟩ := ascending_admitted (opened_sound policy hgroup hnamed) hsteady
  obtain ⟨mark, hlast, hle⟩ := le_getLast_of_ascends hascends hid
  exact ⟨mark, by rw [hmark, hlast]; rfl, hle⟩

/-- The ids of a new active are new exactly if it knows all that the others have received:
its first id is past what any passive has received exactly if it knows that, past all that
was relayed exactly if it knows that, and then the relay takes its first record. -/
theorem first_id_new_iff {failed : String} {election : Election} {successor : FailoverGroup}
    (hgroup : group.Consistent) (hnamed : group.Named)
    (hsteady : ∀ event ∈ events, event.Steady)
    (helected : ((opened group policy).run events).group.elect failed =
      .ok (election, successor)) :
    let reached := (opened group policy).run events
    let first := (reached.passives.resume election.active.name Numbering.fresh).next.1
    ((∀ passive, ∀ other ∈ reached.received passive, other < first) ↔
      ∀ passive, ∀ other ∈ reached.received passive, reached.Known election.active.name other) ∧
    ((∀ other ∈ admitted events (opened group policy), other < first) ↔
      ∀ other ∈ admitted events (opened group policy),
        reached.Known election.active.name other) ∧
    ((∀ record own last, (reached.relay.relay successor ⟨record, some first⟩
        reached.passives).1 ≠ .error (.relayedOutOfOrder own last)) ↔
      ∀ other ∈ admitted events (opened group policy),
        reached.Known election.active.name other) := by
  intro reached first
  have hopened := opened_sound policy hgroup hnamed
  have hpast : ∀ {other}, other ∈ admitted events (opened group policy) →
      (other < first ↔ reached.Known election.active.name other) :=
    fun hother => lt_resume_iff_known hgroup hnamed hsteady hother
  have hadmitted : (∀ other ∈ admitted events (opened group policy), other < first) ↔
      ∀ other ∈ admitted events (opened group policy),
        reached.Known election.active.name other :=
    forall₂_congr fun other hother => hpast hother
  refine ⟨forall_congr' fun passive => forall₂_congr fun other hother => hpast ?_, hadmitted, ?_⟩
  · exact (received_prefix_admitted policy hgroup hnamed hsteady passive).subset hother
  · rw [← hadmitted]
    constructor
    · intro htaken other hother
      obtain ⟨mark, hmark, hle⟩ := le_mark_of_admitted hgroup hnamed hsteady hother
      refine GlobalId.not_le.1 fun hlate => ?_
      obtain ⟨hnetworked, nodes, hpassives⟩ := complete_of_admitted hopened hsteady hother
      obtain ⟨-, -, -, -, hsuccessor⟩ := FailoverGroup.elect_eq_ok helected
      have hgroupKept : ((opened group policy).run events).group = group := group_run hsteady
      have hready : successor.isNetworked = true ∧ ∃ others, successor.passives = .ok others := by
        rw [hsuccessor, hgroupKept]
        exact ⟨hnetworked, FailoverGroup.passives_of_active _ _ hpassives⟩
      have hid : (Sequenced.bare first).globalId = some first := rfl
      obtain ⟨own, last, herror⟩ := (Relay.relay_outOfOrder_iff hid).2
        ⟨hready.1, hready.2, mark, hmark, GlobalId.le_trans hlate hle⟩
      exact htaken _ own last herror
    · intro hnew record own last herror
      obtain ⟨-, -, mark, hmark, hle⟩ := (Relay.relay_outOfOrder_iff rfl).1 ⟨own, last, herror⟩
      have hlast : (admitted events (opened group policy)).getLast? = some mark := by
        have hmarked := (ascending_admitted hopened hsteady).2
        rw [hmark, show (opened group policy).relay.lastQueued = none from rfl,
          Option.or_none] at hmarked
        exact hmarked.symm
      have hbelow := hnew mark (List.mem_of_getLast? hlast)
      exact GlobalId.lt_irrefl mark (GlobalId.lt_of_lt_of_le hbelow hle)

/-- A passive misses the second record, which the other one gets; its link is restored, but
nothing is relayed to it before the active fails. -/
def lag : List Event :=
  [.register "b", .register "c", .relay (.bare ⟨1⟩), .isolate "b" true, .relay (.bare ⟨2⟩),
    .isolate "b" false]

theorem lag_elects : ∃ election successor,
    ((opened FailoverGroup.trio {}).run lag).group.elect "a" = .ok (election, successor) ∧
      election.active.name = "b" := ⟨_, _, rfl, rfl⟩

theorem lag_steady : ∀ event ∈ lag, event.Steady := by
  simp [lag, Event.Steady]

/-- The passive that lags behind is elected, and its first record is refused. -/
theorem first_record_refused_after_lag : ∃ election successor,
    ((opened FailoverGroup.trio {}).run lag).group.elect "a" = .ok (election, successor) ∧
      ¬∀ record own last, (((opened FailoverGroup.trio {}).run lag).relay.relay successor
        ⟨record, some (((opened FailoverGroup.trio {}).run lag).passives.resume
          election.active.name Numbering.fresh).next.1⟩
        ((opened FailoverGroup.trio {}).run lag).passives).1 ≠
          .error (.relayedOutOfOrder own last) := by
  obtain ⟨hconsistent, hnamed⟩ := FailoverGroup.trio_consistent
  obtain ⟨election, successor, helected, hname⟩ := lag_elects
  refine ⟨election, successor, helected, fun htaken => ?_⟩
  have hknown := (first_id_new_iff hconsistent hnamed lag_steady helected).2.2.1 htaken ⟨2⟩
    (by decide +kernel)
  rw [hname] at hknown
  rcases hknown with hzero | ⟨hreceived, -⟩
  · exact absurd hzero (by decide)
  · exact absurd hreceived (by decide +kernel)

/-- The ids of a new active are not always new, although relaying is synchronous. -/
theorem first_id_taken_after_lag : ¬∀ (group : FailoverGroup) (policy : RelayPolicy)
    (events : List Event) (failed : String) (election : Election) (successor : FailoverGroup),
    group.Consistent → group.Named → policy.mode = .sync →
    (∀ event ∈ events, event.Steady) →
    ((opened group policy).run events).group.elect failed = .ok (election, successor) →
    ∀ passive, ∀ other ∈ ((opened group policy).run events).received passive,
      other < (((opened group policy).run events).passives.resume election.active.name
        Numbering.fresh).next.1 := by
  intro hclaim
  obtain ⟨hconsistent, hnamed⟩ := FailoverGroup.trio_consistent
  have hbelow := hclaim FailoverGroup.trio {} lag "a" _ _ hconsistent hnamed rfl lag_steady rfl
    "c" ⟨2⟩ (by decide +kernel)
  exact absurd hbelow (by decide +kernel)

end Cluster
end SharedGraph
