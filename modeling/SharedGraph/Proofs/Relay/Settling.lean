import SharedGraph.Proofs.Relay.Ledger
import SharedGraph.Relay.Basic

/-!
# What the ledger is told

When a call is settled, the ledger stops waiting for a passive where its drain applied an
id and, if passives that fail are not waited for, where the drain left the id of the call
in the lane.  When a reconfiguration is followed, the ledger stops waiting for those who
left, and their lanes are dropped; this releases what was waiting for nobody else.  Neither
adds anything, and both leave everything else as it was.
-/

namespace SharedGraph
namespace Relay

variable {relay : Relay} {id other : GlobalId} {passive name : String}

/-- Whether settling the drain of a target takes a passive off an id. -/
def Covers (mode : RelayMode) (id : GlobalId) (result : RelayTarget × LaneReport)
    (name : String) (other : GlobalId) : Prop :=
  result.1.node.name = name ∧
    (other ∈ result.2.applied ∨
      (mode = .bestEffort ∧ result.2.stillQueued = true ∧ other = id))

/-!
## Settling a call
-/

theorem settleApplied_ledger (state : Ledger × RelayReport) (applied : GlobalId) :
    (settleApplied passive state applied).1 = (state.1.settle applied passive).2 ∧
      (settleApplied passive state applied).2.id = state.2.id := by
  unfold settleApplied Ledger.acknowledge
  dsimp only
  split <;> exact ⟨rfl, rfl⟩

theorem mem_waiting_settleApplied (applied : List GlobalId) (state : Ledger × RelayReport) :
    name ∈ (applied.foldl (settleApplied passive) state).1.waiting other ↔
      name ∈ state.1.waiting other ∧ ¬(other ∈ applied ∧ name = passive) := by
  induction applied generalizing state with
  | nil => simp
  | cons first rest ih =>
    rw [List.foldl_cons, ih, (settleApplied_ledger state first).1, Ledger.mem_waiting_settle,
      List.mem_cons]
    grind

theorem foldl_settleApplied_id (applied : List GlobalId) (state : Ledger × RelayReport) :
    (applied.foldl (settleApplied passive) state).2.id = state.2.id := by
  induction applied generalizing state with
  | nil => rfl
  | cons first rest ih => rw [List.foldl_cons, ih, (settleApplied_ledger state first).2]

theorem tidy_foldl_settleApplied (applied : List GlobalId) {state : Ledger × RelayReport}
    (htidy : state.1.Tidy) : (applied.foldl (settleApplied passive) state).1.Tidy := by
  induction applied generalizing state with
  | nil => exact htidy
  | cons first rest ih =>
    refine ih ?_
    rw [(settleApplied_ledger state first).1]
    exact Ledger.tidy_settle htidy

def noting (report : RelayReport) (target : RelayTarget) : RelayReport :=
  if target.pruned then { report with pruned := report.pruned ++ [target.node.name] } else report

theorem noting_id (report : RelayReport) (target : RelayTarget) :
    (noting report target).id = report.id := by
  unfold noting
  split <;> rfl

theorem settled_noting_id (ledger : Ledger) (outcome : RelayReport) (target : RelayTarget)
    (applied : List GlobalId) :
    (applied.foldl (settleApplied target.node.name) (ledger, noting outcome target)).2.id =
      outcome.id :=
  (foldl_settleApplied_id applied _).trans (noting_id outcome target)

/-- Settling a target acknowledges what its drain applied and, if nobody waits for those who
fail, withdraws the id of the call where it was left in the lane. -/
theorem settleTarget_ledger (mode : RelayMode) (state : Ledger × RelayReport)
    (result : RelayTarget × LaneReport) :
    (settleTarget mode state result).1 =
      if mode = .bestEffort ∧ result.2.stillQueued = true then
        ((result.2.applied.foldl (settleApplied result.1.node.name)
          (state.1, noting state.2 result.1)).1.settle state.2.id result.1.node.name).2
      else (result.2.applied.foldl (settleApplied result.1.node.name)
        (state.1, noting state.2 result.1)).1 := by
  rcases result with ⟨target, report⟩
  rcases state with ⟨ledger, outcome⟩
  have hid := settled_noting_id ledger outcome target report.applied
  unfold settleTarget
  dsimp only
  rw [show (if target.pruned = true then
    { outcome with pruned := outcome.pruned ++ [target.node.name] } else outcome) =
      noting outcome target from rfl]
  cases report.stillQueued with
  | false => simp
  | true => cases mode <;> simp [hid, Ledger.withdraw]

theorem settleTarget_id (mode : RelayMode) (state : Ledger × RelayReport)
    (result : RelayTarget × LaneReport) :
    (settleTarget mode state result).2.id = state.2.id := by
  rcases result with ⟨target, report⟩
  rcases state with ⟨ledger, outcome⟩
  have hid := settled_noting_id ledger outcome target report.applied
  unfold settleTarget
  dsimp only
  cases report.stillQueued with
  | false => exact hid
  | true => cases mode <;> exact hid

theorem mem_waiting_settleTarget (mode : RelayMode) (state : Ledger × RelayReport)
    (result : RelayTarget × LaneReport) :
    name ∈ (settleTarget mode state result).1.waiting other ↔
      name ∈ state.1.waiting other ∧ ¬Covers mode state.2.id result name other := by
  rw [settleTarget_ledger]
  unfold Covers
  split
  · next hwithdrawn =>
    rw [Ledger.mem_waiting_settle, mem_waiting_settleApplied]
    grind
  · next hkept =>
    rw [mem_waiting_settleApplied]
    grind

theorem tidy_settleTarget (mode : RelayMode) {state : Ledger × RelayReport}
    (result : RelayTarget × LaneReport) (htidy : state.1.Tidy) :
    (settleTarget mode state result).1.Tidy := by
  have hsettled : (result.2.applied.foldl (settleApplied result.1.node.name)
      (state.1, noting state.2 result.1)).1.Tidy :=
    tidy_foldl_settleApplied result.2.applied htidy
  rw [settleTarget_ledger]
  split
  · exact Ledger.tidy_settle hsettled
  · exact hsettled

theorem mem_waiting_foldl_settleTarget (mode : RelayMode)
    (results : List (RelayTarget × LaneReport)) (state : Ledger × RelayReport) :
    name ∈ (results.foldl (settleTarget mode) state).1.waiting other ↔
      name ∈ state.1.waiting other ∧
        ¬∃ result ∈ results, Covers mode state.2.id result name other := by
  induction results generalizing state with
  | nil => simp
  | cons result rest ih =>
    rw [List.foldl_cons, ih, mem_waiting_settleTarget, settleTarget_id]
    simp only [List.mem_cons, exists_eq_or_imp, not_or, and_assoc]

theorem tidy_foldl_settleTarget (mode : RelayMode) (results : List (RelayTarget × LaneReport))
    (state : Ledger × RelayReport) (htidy : state.1.Tidy) :
    (results.foldl (settleTarget mode) state).1.Tidy := by
  induction results generalizing state with
  | nil => exact htidy
  | cons result rest ih => exact ih _ (tidy_settleTarget mode result htidy)

variable {group : GroupId} {results : List (RelayTarget × LaneReport)}

theorem settle_relay (relay : Relay) (group : GroupId) (id : GlobalId)
    (results : List (RelayTarget × LaneReport)) :
    ∃ ledger, (relay.settle group id results).2 = { relay with ledger } ∧
      (∀ name other, name ∈ ledger.waiting other ↔ name ∈ relay.ledger.waiting other ∧
        ¬∃ result ∈ results, Covers relay.policy.mode id result name other) ∧
      (relay.ledger.Tidy → ledger.Tidy) := by
  refine ⟨(results.foldl (settleTarget relay.policy.mode) (relay.ledger, { id })).1, ?_, ?_, ?_⟩
  · unfold settle
    dsimp only
    split <;> rfl
  · exact fun name other =>
      mem_waiting_foldl_settleTarget relay.policy.mode results (relay.ledger, { id })
  · exact tidy_foldl_settleTarget relay.policy.mode results (relay.ledger, { id })

/-!
## Following a reconfiguration
-/

theorem dropPassives_cons (relay : Relay) (node : Node) (rest : List Node) :
    relay.dropPassives (node :: rest) =
      ((relay.dropPassive node.name).1 ++ ((relay.dropPassive node.name).2.dropPassives rest).1,
        ((relay.dropPassive node.name).2.dropPassives rest).2) := rfl

theorem dropPassives_spec (relay : Relay) (nodes : List Node) :
    (∀ passive, (relay.dropPassives nodes).2.lane passive =
        if passive ∈ nodes.map Node.name then [] else relay.lane passive) ∧
      (∀ name other, name ∈ (relay.dropPassives nodes).2.ledger.waiting other ↔
        name ∈ relay.ledger.waiting other ∧ name ∉ nodes.map Node.name) ∧
      (relay.dropPassives nodes).2.policy = relay.policy ∧
      (relay.dropPassives nodes).2.lastQueued = relay.lastQueued ∧
      (relay.ledger.Tidy → (relay.dropPassives nodes).2.ledger.Tidy) := by
  induction nodes generalizing relay with
  | nil => simp [dropPassives]
  | cons node rest ih =>
    obtain ⟨hlane, hwaiting, hpolicy, hlast, htidy⟩ := ih (relay.dropPassive node.name).2
    have hfirst : ∀ passive, (relay.dropPassive node.name).2.lane passive =
        if passive = node.name then [] else relay.lane passive := by
      intro passive
      simp only [dropPassive, lane, SortedMap.get?_erase]
      split <;> rfl
    rw [dropPassives_cons]
    refine ⟨fun passive => ?_, fun name other => ?_, hpolicy, hlast, fun _ => ?_⟩
    · rw [hlane, hfirst, List.map_cons]
      by_cases hsame : passive = node.name <;> by_cases hrest : passive ∈ rest.map Node.name <;>
        simp [hsame, hrest]
    · rw [hwaiting]
      simp only [dropPassive, Ledger.mem_waiting_forget, List.map_cons, List.mem_cons]
      grind
    · exact htidy Ledger.tidy_forget

theorem foldl_welcome (nodes : List Node) (relay : Relay) :
    ∃ held, nodes.foldl welcome relay = { relay with held } := by
  induction nodes generalizing relay with
  | nil => exact ⟨relay.held, rfl⟩
  | cons node rest ih =>
    obtain ⟨held, hrest⟩ := ih (relay.welcome node)
    refine ⟨held, ?_⟩
    rw [List.foldl_cons, hrest]
    unfold welcome declareHeld
    split <;> rfl

variable {change : MemberChange}

theorem follow_relay (relay : Relay) (change : MemberChange) : ∃ held, (relay.follow change).2 =
    { (relay.dropPassives change.removed).2 with held } :=
  foldl_welcome change.added (relay.dropPassives change.removed).2

theorem lane_follow : (relay.follow change).2.lane passive =
    if passive ∈ change.removed.map Node.name then [] else relay.lane passive := by
  obtain ⟨held, hrelay⟩ := follow_relay relay change
  rw [hrelay]
  exact (dropPassives_spec relay change.removed).1 passive

theorem mem_waiting_follow : name ∈ (relay.follow change).2.ledger.waiting other ↔
    name ∈ relay.ledger.waiting other ∧ name ∉ change.removed.map Node.name := by
  obtain ⟨held, hrelay⟩ := follow_relay relay change
  rw [hrelay]
  exact (dropPassives_spec relay change.removed).2.1 name other

theorem follow_frame (relay : Relay) (change : MemberChange) :
    (relay.follow change).2.policy = relay.policy ∧
    (relay.follow change).2.lastQueued = relay.lastQueued := by
  obtain ⟨held, hrelay⟩ := follow_relay relay change
  obtain ⟨_, _, hpolicy, hlast, _⟩ := dropPassives_spec relay change.removed
  rw [hrelay]
  exact ⟨hpolicy, hlast⟩

/-- Dropping several passives releases, each once, the ids that were waiting for somebody and wait
for nobody any more: an id is released with the last of those that it waits for. -/
theorem released_dropPassives (relay : Relay) (htidy : relay.ledger.Tidy) (nodes : List Node) :
    (relay.dropPassives nodes).1.Nodup ∧
      ∀ id, id ∈ (relay.dropPassives nodes).1 ↔ (∃ name, name ∈ relay.ledger.waiting id) ∧
        ∀ name, name ∉ (relay.dropPassives nodes).2.ledger.waiting id := by
  induction nodes generalizing relay with
  | nil =>
    have hnone : ∀ id, (∃ name, name ∈ relay.ledger.waiting id) →
        ¬∀ name, name ∉ relay.ledger.waiting id := by
      intro id hsomebody hnobody
      rcases hsomebody with ⟨name, hname⟩
      exact hnobody name hname
    exact ⟨.nil, fun id => ⟨fun hmem => absurd hmem List.not_mem_nil,
      fun hreleased => absurd hreleased.2 (hnone id hreleased.1)⟩⟩
  | cons node rest ih =>
    have hfirst : ∀ id, id ∈ (relay.dropPassive node.name).1 ↔
        (∃ name, name ∈ relay.ledger.waiting id) ∧
          ∀ name, name ∉ (relay.dropPassive node.name).2.ledger.waiting id :=
      fun id => Ledger.forget_releases_iff_nobody_left htidy
    rcases ih (relay.dropPassive node.name).2 Ledger.tidy_forget with ⟨hnodup, hrest⟩
    have hfewer : ∀ id name, name ∈ (relay.dropPassive node.name).2.ledger.waiting id →
        name ∈ relay.ledger.waiting id :=
      fun id name hname => (Ledger.mem_waiting_forget.1 hname).1
    have hfewest : ∀ id name,
        name ∈ ((relay.dropPassive node.name).2.dropPassives rest).2.ledger.waiting id →
          name ∈ (relay.dropPassive node.name).2.ledger.waiting id :=
      fun id name hname => (((dropPassives_spec _ rest).2.1 name id).1 hname).1
    rw [dropPassives_cons]
    constructor
    · -- What the first drop released waits for nobody, so no later drop releases it again.
      apply List.nodup_append.2
      refine ⟨Ledger.nodup_forget _ _, hnodup, ?_⟩
      intro id hreleased other hother hsame
      rcases ((hrest other).1 hother).1 with ⟨name, hname⟩
      exact ((hfirst id).1 hreleased).2 name (hsame ▸ hname)
    · intro id
      rw [List.mem_append, hfirst, hrest]
      constructor
      · intro hreleased
        rcases hreleased with ⟨hsomebody, hnobody⟩ | ⟨⟨name, hname⟩, hnobody⟩
        · exact ⟨hsomebody, fun name hname => hnobody name (hfewest id name hname)⟩
        · exact ⟨⟨name, hfewer id name hname⟩, hnobody⟩
      · intro hreleased
        by_cases hleft : ∃ name, name ∈ (relay.dropPassive node.name).2.ledger.waiting id
        · exact Or.inr ⟨hleft, hreleased.2⟩
        · exact Or.inl ⟨hreleased.1, fun name hname => hleft ⟨name, hname⟩⟩

theorem held_dropPassives (relay : Relay) (nodes : List Node) (passive : String) :
    (relay.dropPassives nodes).2.held.get? passive =
      if passive ∈ nodes.map Node.name then none else relay.held.get? passive := by
  induction nodes generalizing relay with
  | nil => simp [dropPassives]
  | cons node rest ih =>
    rw [dropPassives_cons, ih, List.map_cons]
    simp only [dropPassive, SortedMap.get?_erase]
    by_cases hsame : passive = node.name <;> by_cases hrest : passive ∈ rest.map Node.name <;>
      simp [hsame, hrest]

theorem held_welcome (relay : Relay) (nodes : List Node) (passive : String) :
    (nodes.foldl welcome relay).held.get? passive =
      if passive ∈ nodes.map Node.name then some ((relay.held.get? passive).getD ∅)
      else relay.held.get? passive := by
  induction nodes generalizing relay with
  | nil => rfl
  | cons node rest ih =>
    have hfirst : (relay.welcome node).held.get? passive =
        if passive = node.name then some ((relay.held.get? passive).getD ∅)
        else relay.held.get? passive := by
      unfold welcome declareHeld SortedMap.contains
      split
      · next hfollowed =>
        split
        · next hsame =>
          obtain ⟨objects, hobjects⟩ := Option.isSome_iff_exists.1 hfollowed
          rw [hsame, hobjects]
          rfl
        · rfl
      · next hnew =>
        rw [Option.not_isSome_iff_eq_none] at hnew
        rw [SortedMap.get?_insert]
        split
        · next hsame =>
          rw [hsame, hnew]
          rfl
        · rfl
    rw [List.foldl_cons, ih, hfirst, List.map_cons]
    by_cases hsame : passive = node.name <;> by_cases hrest : passive ∈ rest.map Node.name <;>
      simp [hsame, hrest]

theorem held_follow : (relay.follow change).2.held.get? passive =
    let kept := if passive ∈ change.removed.map Node.name then none else relay.held.get? passive
    if passive ∈ change.added.map Node.name then some (kept.getD ∅) else kept := by
  rw [← held_dropPassives]
  exact held_welcome (relay.dropPassives change.removed).2 change.added passive

theorem released_follow (htidy : relay.ledger.Tidy) (change : MemberChange) :
    (relay.follow change).1.Nodup ∧
      ∀ id, id ∈ (relay.follow change).1 ↔ (∃ name, name ∈ relay.ledger.waiting id) ∧
        ∀ name ∈ relay.ledger.waiting id, name ∈ change.removed.map Node.name := by
  rcases released_dropPassives relay htidy change.removed with ⟨hnodup, hreleased⟩
  refine ⟨hnodup, fun id => (hreleased id).trans (and_congr_right fun _ => ?_)⟩
  simp only [(dropPassives_spec relay change.removed).2.1, not_and, Decidable.not_not]

theorem tidy_follow (htidy : relay.ledger.Tidy) : (relay.follow change).2.ledger.Tidy := by
  obtain ⟨held, hrelay⟩ := follow_relay relay change
  rw [hrelay]
  exact (dropPassives_spec relay change.removed).2.2.2.2 htidy

end Relay
end SharedGraph
