import SharedGraph.Proofs.Relay.InFlight
import SharedGraph.Relay.Site

/-!
# Delivery in order, without gaps or repetitions

Whatever calls, drains, elections and declarations do in whatever order, what a passive
has applied and what its lane still holds are together the records that were accepted
while it was a passive, in that order.  The argument follows one number per passive, its
account: what it has applied, then what is queued.  Landing an entry moves it from one
part of the account to the other, accepting a record adds its id at the end, and nothing
else touches the account of a passive that stays.
-/

namespace SharedGraph

def Happening.NamesNodes : Happening → Prop
  | .operate operation => operation.NamesNodes
  | _ => True

/-- Whether something may happen at a site that is run in good order: members get nodes of
their own names, and a reconfiguration is followed only while no call is in progress. -/
def Happening.Fits (site : Site) : Happening → Prop
  | .operate operation => operation.NamesNodes
  | .follow _ => site.inFlight.isIdle = true
  | .start _ | .move .. | .settle _ | .declareHeld .. | .widenHeld .. => True

theorem Happening.namesNodes_of_fits {site : Site} {happening : Happening}
    (hfits : happening.Fits site) : happening.NamesNodes := by
  cases happening with
  | operate operation => exact hfits
  | start transaction | move call place move | settle call | declareHeld name objects
  | widenHeld name objects | follow change => trivial

namespace Site

variable {site next last : Site} {happening : Happening} {happenings : List Happening}
variable {passive : String}

def opened (group : FailoverGroup) (policy : RelayPolicy) : Site :=
  { group, inFlight := { relay := { policy } } }

inductive OrderlyRun : Site → List Happening → Site → Prop where
  | nil (site : Site) : OrderlyRun site [] site
  | cons {site next last : Site} {happening : Happening} {rest : List Happening} :
      happening.Fits site → site.after? happening = some next → OrderlyRun next rest last →
      OrderlyRun site (happening :: rest) last

def accepts (site : Site) (passive : String) : Happening → List GlobalId
  | .start transaction => site.inFlight.relay.queuesFor site.group transaction passive
  | _ => []

/-- The ids of the records that are accepted while a name is that of a passive, oldest
first. -/
def acceptedFor (passive : String) : List Happening → Site → List GlobalId
  | [], _ => []
  | happening :: rest, site =>
    site.accepts passive happening ++
      match site.after? happening with
      | some next => acceptedFor passive rest next
      | none => []

/-- What a passive has applied, and then what is queued for it. -/
def account (site : Site) (passive : String) : List GlobalId :=
  site.appliedBy passive ++ site.inFlight.relay.backlog passive

theorem acceptedFor_cons {rest : List Happening} (hafter : site.after? happening = some next) :
    acceptedFor passive (happening :: rest) site =
      site.accepts passive happening ++ acceptedFor passive rest next := by
  rw [acceptedFor, hafter]

/-!
## What stays true of the group and the drains
-/

/-- Names tell nodes apart, and every drain works on the lane of its target. -/
structure Sound (site : Site) : Prop where
  consistent : site.group.Consistent
  named : site.group.Named
  attached : site.inFlight.Attached

theorem opened_sound {group : FailoverGroup} (policy : RelayPolicy)
    (hgroup : group.Consistent) (hnamed : group.Named) : (opened group policy).Sound :=
  ⟨hgroup, hnamed, fun _ hdrain => absurd hdrain List.not_mem_nil⟩

theorem inFlight_move? {call place : Nat} {move : DrainMove}
    (hmove : site.move? call place move = some next) :
    site.inFlight.moveDrain? call place move = some next.inFlight := by
  obtain ⟨inFlight, hmoved, hnext⟩ := Option.map_eq_some_iff.1 hmove
  rw [hmoved]
  cases move with
  | land | take | ship flight | refuse failure | close =>
    cases hnext
    rfl

theorem inFlight_start (site : Site) (transaction : Sequenced) :
    (site.start transaction).inFlight = site.inFlight.start site.group transaction := rfl

theorem group_after (hgroup : site.group.Consistent ∧ site.group.Named)
    (hnames : happening.NamesNodes) (hafter : site.after? happening = some next) :
    next.group.Consistent ∧ next.group.Named := by
  cases happening with
  | start transaction | declareHeld name objects | widenHeld name objects | follow change =>
    cases hafter
    exact hgroup
  | move call place move =>
    rcases Option.map_eq_some_iff.1 hafter with ⟨inFlight, -, hnext⟩
    cases move with
    | land | take | ship flight | refuse failure | close =>
      cases hnext
      exact hgroup
  | settle call =>
    rcases Option.map_eq_some_iff.1 hafter with ⟨inFlight, -, rfl⟩
    exact hgroup
  | operate operation =>
    cases hafter
    exact ⟨FailoverGroup.perform_consistent hgroup.1 operation,
      FailoverGroup.named_perform hgroup.2 hnames⟩

theorem attached_after (hattached : site.inFlight.Attached) (hfits : happening.Fits site)
    (hafter : site.after? happening = some next) : next.inFlight.Attached := by
  cases happening with
  | start transaction =>
    cases hafter
    exact InFlight.attached_start hattached
  | move call place move => exact InFlight.attached_moveDrain? hattached (inFlight_move? hafter)
  | settle call =>
    rcases Option.map_eq_some_iff.1 hafter with ⟨inFlight, hsettle, rfl⟩
    exact InFlight.attached_settleCall? hattached hsettle
  | declareHeld name objects | widenHeld name objects | operate operation =>
    cases hafter
    exact hattached
  | follow change =>
    cases hafter
    exact InFlight.attached_follow hfits

theorem sound_after (hsound : site.Sound) (hfits : happening.Fits site)
    (hafter : site.after? happening = some next) : next.Sound := by
  rcases group_after ⟨hsound.consistent, hsound.named⟩ (Happening.namesNodes_of_fits hfits) hafter
    with ⟨hconsistent, hnamed⟩
  exact ⟨hconsistent, hnamed, attached_after hsound.attached hfits hafter⟩

/-!
## What one step does to an account
-/

theorem account_start (hsound : site.Sound) (transaction : Sequenced) :
    (site.start transaction).account passive =
      site.account passive ++ site.inFlight.relay.queuesFor site.group transaction passive := by
  have happlied : (site.start transaction).appliedBy passive = site.appliedBy passive := rfl
  rw [account, account, happlied, inFlight_start, Relay.queuesFor]
  rcases site.inFlight.start_cases site.group transaction with
    ⟨hrefused, outcome, hstart⟩ | ⟨id, targets, relay, hadmitted, haccept, hstart⟩
  · rw [hstart, hrefused]
    simp
  · rw [hstart, hadmitted, List.append_assoc]
    exact congrArg _ (Relay.backlog_accept hsound.consistent hsound.named haccept passive)

/-- A drain takes the front of its lane over to what is applied, or leaves both alone. -/
theorem account_move? {call place : Nat} {move : DrainMove} (hsound : site.Sound)
    (hmove : site.move? call place move = some next) :
    next.account passive = site.account passive ∧ next.removed = site.removed := by
  obtain ⟨inFlight, hmoved, hnext⟩ := Option.map_eq_some_iff.1 hmove
  obtain ⟨id, drain, moved, left, earlier, later, before, after, hfound, hlane, -, -, -, hdone,
    -, -, hleft⟩ := InFlight.moveDrain?_attached hsound.attached hmoved
  have hleft := hleft passive
  rcases hdone with ⟨entry, rfl, hfront, -⟩ | ⟨hother, hsame, -⟩
  · have hlands : site.front call place = [(drain.target.node.name, entry.id)] := by
      simp only [front, hfound, hlane, InFlight.lane, hfront]
      rfl
    cases hnext
    refine ⟨?_, rfl⟩
    rw [hlands]
    simp only [account, Relay.backlog, hleft]
    by_cases hmine : drain.target.node.name = passive
    · subst hmine
      simp [appliedBy, hfront]
    · simp [appliedBy, hmine]
  · have hsite : next = { site with inFlight } := by
      cases move with
      | land => exact absurd rfl hother
      | take | ship flight | refuse failure | close => exact hnext.symm
    subst hsite
    refine ⟨?_, rfl⟩
    simp only [account, Relay.backlog, hleft, ← hsame]
    by_cases hmine : drain.target.node.name = passive
    · subst hmine
      simp [appliedBy]
    · simp [appliedBy, hmine]

theorem account_follow {change : MemberChange} (hstays : passive ∉ change.removed.map Node.name) :
    { site with
      inFlight := (site.inFlight.follow change).2
      removed := site.removed ++ change.removed.map Node.name }.account passive =
        site.account passive := by
  have hlane : (site.inFlight.follow change).2.relay.lane passive =
      site.inFlight.relay.lane passive := by
    rw [InFlight.relay_follow, Relay.lane_follow, if_neg hstays]
  simp only [account, Relay.backlog, hlane]
  rfl

/-- The account of a passive that stays grows by what is accepted for it, and by nothing
else. -/
theorem account_after (hsound : site.Sound) (hfits : happening.Fits site)
    (hafter : site.after? happening = some next) (hstays : passive ∉ next.removed) :
    next.account passive = site.account passive ++ site.accepts passive happening ∧
      passive ∉ site.removed := by
  cases happening with
  | start transaction =>
    cases hafter
    exact ⟨account_start hsound transaction, hstays⟩
  | move call place move =>
    obtain ⟨haccount, hremoved⟩ := account_move? hsound hafter
    exact ⟨haccount.trans (List.append_nil _).symm, hremoved ▸ hstays⟩
  | settle call =>
    obtain ⟨inFlight, hsettle, rfl⟩ := Option.map_eq_some_iff.1 hafter
    obtain ⟨id, drains, results, outcome, ledger, earlier, later, -, -, rfl, -⟩ :=
      InFlight.settleCall?_eq_some hsettle
    exact ⟨(List.append_nil _).symm, hstays⟩
  | declareHeld name objects | widenHeld name objects | operate operation =>
    cases hafter
    exact ⟨(List.append_nil _).symm, hstays⟩
  | follow change =>
    cases hafter
    have hparts : passive ∉ site.removed ∧ passive ∉ change.removed.map Node.name := by
      simpa using hstays
    exact ⟨(account_follow hparts.2).trans (List.append_nil _).symm, hparts.1⟩

/-!
## The order of the accepted ids
-/

theorem frame_after (hafter : site.after? happening = some next) :
    next.inFlight.relay.policy = site.inFlight.relay.policy ∧
      ((∃ transaction, happening = .start transaction) ∨
        (next.inFlight.relay.lastQueued = site.inFlight.relay.lastQueued ∧
          ∀ passive, site.accepts passive happening = [])) := by
  cases happening with
  | start transaction =>
    cases hafter
    refine ⟨?_, .inl ⟨transaction, rfl⟩⟩
    rw [inFlight_start]
    rcases site.inFlight.start_cases site.group transaction with
      ⟨-, outcome, hstart⟩ | ⟨id, targets, relay, -, haccept, hstart⟩
    · rw [hstart]
    · rw [hstart]
      exact Relay.accept_policy haccept
  | move call place move =>
    obtain ⟨_, _, _, _, _, _, _, _, -, -, -, -, -, -, hpolicy, hlast⟩ :=
      InFlight.moveDrain?_eq_some (inFlight_move? hafter)
    exact ⟨hpolicy, .inr ⟨hlast, fun _ => rfl⟩⟩
  | settle call =>
    obtain ⟨inFlight, hsettle, rfl⟩ := Option.map_eq_some_iff.1 hafter
    obtain ⟨id, drains, results, outcome, ledger, earlier, later, -, -, rfl, -⟩ :=
      InFlight.settleCall?_eq_some hsettle
    exact ⟨rfl, .inr ⟨rfl, fun _ => rfl⟩⟩
  | declareHeld name objects | widenHeld name objects | operate operation =>
    cases hafter
    exact ⟨rfl, .inr ⟨rfl, fun _ => rfl⟩⟩
  | follow change =>
    cases hafter
    show (site.inFlight.follow change).2.relay.policy = _ ∧
      (_ ∨ (site.inFlight.follow change).2.relay.lastQueued = _ ∧ _)
    rw [InFlight.relay_follow]
    exact ⟨(Relay.follow_frame _ change).1, .inr ⟨(Relay.follow_frame _ change).2, fun _ => rfl⟩⟩

theorem lastQueued_after (hafter : site.after? happening = some next) :
    (next.inFlight.relay.lastQueued = site.inFlight.relay.lastQueued ∧
        ∀ passive, site.accepts passive happening = []) ∨
      ∃ id, next.inFlight.relay.lastQueued = some id ∧
        (∀ last, site.inFlight.relay.lastQueued = some last → last < id) ∧
        ∀ passive, site.accepts passive happening = [] ∨
          site.accepts passive happening = [id] := by
  rcases (frame_after hafter).2 with ⟨transaction, rfl⟩ | hsame
  · cases hafter
    rw [inFlight_start]
    rcases site.inFlight.start_cases site.group transaction with
      ⟨hrefused, outcome, hstart⟩ | ⟨id, targets, relay, hadmitted, haccept, hstart⟩
    · rw [hstart]
      refine .inl ⟨rfl, fun passive => ?_⟩
      simp [accepts, Relay.queuesFor, hrefused]
    · rw [hstart]
      obtain ⟨hlast, horder⟩ := Relay.accept_lastQueued haccept
      refine .inr ⟨id, hlast, horder, fun passive => ?_⟩
      simp only [accepts, Relay.queuesFor, hadmitted]
      split
      · exact .inr rfl
      · exact .inl rfl
  · exact .inl hsame

/-!
## Whole runs
-/

theorem account_run (hsound : site.Sound) (hrun : OrderlyRun site happenings last)
    (hstays : passive ∉ last.removed) :
    last.account passive = site.account passive ++ acceptedFor passive happenings site ∧
      passive ∉ site.removed := by
  induction hrun with
  | nil site => exact ⟨(List.append_nil _).symm, hstays⟩
  | cons hfits hafter _ ih =>
    -- Whoever is not removed in the end was not removed before, so every step keeps its account.
    obtain ⟨hrest, hstill⟩ := ih (sound_after hsound hfits hafter) hstays
    obtain ⟨hstep, hremoved⟩ := account_after hsound hfits hafter hstill
    refine ⟨?_, hremoved⟩
    rw [hrest, hstep, acceptedFor_cons hafter, List.append_assoc]

theorem policy_run (hrun : OrderlyRun site happenings last) :
    last.inFlight.relay.policy = site.inFlight.relay.policy := by
  induction hrun with
  | nil site => rfl
  | cons _ hafter _ ih => exact ih.trans (frame_after hafter).1

theorem ascending_acceptedFor (passive : String) (hrun : OrderlyRun site happenings last) :
    AscendsFrom site.inFlight.relay.lastQueued (acceptedFor passive happenings site) := by
  induction hrun with
  | nil site => exact ascendsFrom_nil
  | cons hfits hafter _ ih =>
    rw [acceptedFor_cons hafter]
    rcases lastQueued_after hafter with ⟨hmark, hnone⟩ | ⟨id, hmark, horder, haccepts⟩
    · rw [hnone passive, List.nil_append, ← hmark]
      exact ih
    · have hascends := ascendsFrom_cons horder (hmark ▸ ih)
      rcases haccepts passive with hno | hyes
      · rw [hno]
        exact ascendsFrom_of_cons hascends
      · rw [hyes]
        exact hascends

/-- A passive that no followed reconfiguration has removed has applied, in this order, the
records that were accepted while it was a passive, up to those that are still in its lane:
none is lost, none comes twice and none overtakes another. -/
theorem applied_append_backlog_eq_accepted {group : FailoverGroup} {policy : RelayPolicy}
    (hgroup : group.Consistent) (hnamed : group.Named)
    (hrun : OrderlyRun (opened group policy) happenings site)
    (hstays : passive ∉ site.removed) :
    site.appliedBy passive ++ site.inFlight.relay.backlog passive =
        acceptedFor passive happenings (opened group policy) ∧
      (acceptedFor passive happenings (opened group policy)).Pairwise (· < ·) := by
  obtain ⟨haccount, -⟩ := account_run (opened_sound policy hgroup hnamed) hrun hstays
  exact ⟨haccount, (ascending_acceptedFor passive hrun).2⟩

/-- One passive hangs: both calls give up on it, while the drain of the first call ships the
records of both to the other passive, which is elected before the second call is settled. -/
def outage : List Happening :=
  [.start (.bare ⟨1⟩), .move 0 0 .take, .move 0 1 .take, .move 0 1 (.ship ⟨0, .hangs⟩),
    .start (.bare ⟨2⟩), .move 0 0 (.ship ⟨0, .arrives 0⟩), .move 0 0 .land,
    .move 0 1 (.refuse (.noAnswer "c" 5000)), .move 0 0 (.ship ⟨0, .arrives 0⟩),
    .move 0 0 .land, .move 0 0 .close, .settle 0, .operate (.elect "a"), .move 1 0 .take,
    .move 1 0 .close, .move 1 1 .take, .move 1 1 (.ship ⟨0, .hangs⟩),
    .move 1 1 (.refuse (.noAnswer "c" 5000)), .settle 1]

theorem outage_orderly : ∃ site, OrderlyRun (opened FailoverGroup.trio {}) outage site ∧
    "c" ∉ site.removed ∧ site.inFlight.isIdle = true ∧
    site.inFlight.relay.backlog "c" = [⟨1⟩, ⟨2⟩] := by
  refine ⟨_, .cons trivial rfl <| .cons trivial rfl <| .cons trivial rfl <| .cons trivial rfl <|
    .cons trivial rfl <| .cons trivial rfl <| .cons trivial rfl <| .cons trivial rfl <|
    .cons trivial rfl <| .cons trivial rfl <| .cons trivial rfl <| .cons trivial rfl <|
    .cons trivial rfl <| .cons trivial rfl <| .cons trivial rfl <| .cons trivial rfl <|
    .cons trivial rfl <| .cons trivial rfl <| .cons trivial rfl <| .nil _, ?_, ?_, ?_⟩
  all_goals decide +kernel

theorem accepted_in_outage : ∃ site, OrderlyRun (opened FailoverGroup.trio {}) outage site ∧
    "c" ∉ site.removed ∧
    (site.appliedBy "c" ++ site.inFlight.relay.backlog "c" =
        acceptedFor "c" outage (opened FailoverGroup.trio {}) ∧
      (acceptedFor "c" outage (opened FailoverGroup.trio {})).Pairwise (· < ·)) ∧
    acceptedFor "c" outage (opened FailoverGroup.trio {}) = [⟨1⟩, ⟨2⟩] := by
  obtain ⟨hconsistent, hnamed⟩ := FailoverGroup.trio_consistent
  obtain ⟨site, hrun, hstays, -⟩ := outage_orderly
  exact ⟨site, hrun, hstays, applied_append_backlog_eq_accepted hconsistent hnamed hrun hstays,
    by decide +kernel⟩

end Site
end SharedGraph
