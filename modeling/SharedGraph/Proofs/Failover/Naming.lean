import SharedGraph.Proofs.Failover.Roles
import SharedGraph.Proofs.Failover.Usability

/-!
# Names in a topology

A server of a topology is found under a key and carries a name, and nothing that a valid topology
is checked for ties the two together.  Activations keep the key and elections the name, while
passives are told from the active by their names.  So every group of a valid topology can be made,
and whoever is activated leads it, but its passives and the winners of its elections are right
exactly if every member finds a node of its own name (`rolesRight_iff`).
-/

namespace SharedGraph
namespace FailoverGroup

variable {group next : FailoverGroup} {members : List String} {topology : Topology}

/-!
## Passives of an active
-/

/-- Telling nodes apart by name leaves out the node of one member and no other, exactly if that
node is the only one of the member's name. -/
theorem filter_name_eq_iff {lookup : String → Option Node} {active : String}
    (hfound : ∀ member ∈ members, (lookup member).isSome = true) (hactive : active ∈ members) :
    (members.filterMap lookup).filter (fun node => node.name != active) =
        (members.filter fun member => member != active).filterMap lookup ↔
      ∀ member ∈ members, ∀ node, lookup member = some node →
        (node.name = active ↔ member = active) := by
  constructor
  · intro hsame
    have hothers : ∀ member ∈ members, member ≠ active → ∀ node, lookup member = some node →
        node.name ≠ active := by
      intro member hmember hother node hnode
      have hlisted : node ∈ (members.filter fun member => member != active).filterMap lookup :=
        List.mem_filterMap.2 ⟨member, List.mem_filter.2 ⟨hmember, by simpa using hother⟩, hnode⟩
      rw [← hsame] at hlisted
      simpa using (List.mem_filter.1 hlisted).2
    intro member hmember node hnode
    by_cases hself : member = active
    · refine iff_of_true ?_ hself
      -- Otherwise no node at all is left out by its name, and the lists differ in length.
      by_contra hname
      have hall : ∀ found ∈ members.filterMap lookup, (found.name != active) = true := by
        intro found hlisted
        rcases List.mem_filterMap.1 hlisted with ⟨other, hother, hlookup⟩
        by_cases hown : other = active
        · rw [hown, ← hself, hnode] at hlookup
          cases hlookup
          simpa using hname
        · simpa using hothers other hother hown found hlookup
      rw [List.filter_eq_self.2 hall] at hsame
      have hlength := congrArg List.length (map_some_filterMap hfound)
      rw [List.length_map, List.length_map, hsame] at hlength
      have hle := List.length_filterMap_le lookup (members.filter fun member => member != active)
      have hless : (members.filter fun member => member != active).length < members.length :=
        List.length_filter_lt_length_iff_exists.2 ⟨active, hactive, by simp⟩
      omega
    · exact iff_of_false (hothers member hmember hself node hnode) hself
  · intro hnames
    rw [List.filter_filterMap, List.filterMap_filter]
    apply List.filterMap_congr
    intro member hmember
    cases hnode : lookup member with
    | none => simp
    | some node =>
      have hname := hnames member hmember node hnode
      by_cases hself : member = active
      · simp [Option.filter_some, hself, hname.2 hself]
      · simp [Option.filter_some, hself, mt hname.1 hself]

theorem activate_roles (hgroup : group.Consistent) (hcomplete : group.Complete) {member : String}
    (hmember : member ∈ group.members) :
    ∃ next, group.activate member = .ok next ∧
      next.activeNode? = group.nodes.get? member ∧
      (next.passives = .ok ((group.members.filter fun other => other != member).filterMap
          group.nodes.get?) ↔
        ∀ other ∈ group.members, ∀ node, group.nodes.get? other = some node →
          (node.name = member ↔ other = member)) := by
  have hactivate : group.activate member = .ok { group with active := some member } := by
    rw [activate, if_pos (hcomplete member hmember)]
  refine ⟨_, hactivate, rfl, ?_⟩
  have hconsistent : Consistent { group with active := some member } :=
    ⟨hgroup.unblank, hgroup.distinct, hgroup.declared⟩
  rw [passives_of_complete hconsistent hcomplete, Except.ok.injEq,
    ← filter_name_eq_iff hcomplete hmember]
  have hkeeps : (fun node : Node => some member != some node.name) =
      fun node => node.name != member := by
    funext node
    simp [bne, eq_comm]
  unfold attached
  rw [hkeeps]

/-!
## Roles
-/

def Operation.MovesLead : Operation → Prop
  | .activate _ | .elect _ => True
  | .attach .. | .reconfigure .. => False

theorem perform_of_movesLead {operation : Operation} (hmoves : operation.MovesLead)
    (group : FailoverGroup) :
    ∃ active epoch, operation.perform group = { group with active, epoch } := by
  rcases perform_cases group operation with hsame | hok
  · exact ⟨group.active, group.epoch, hsame⟩
  · cases operation with
    | attach name node | reconfigure members resolve => cases hmoves
    | activate name => exact ⟨_, _, activate_eq_ok hok⟩
    | elect failed =>
      rcases exists_of_map_snd hok with ⟨election, helected⟩
      exact ⟨_, _, (elect_eq_ok helected).2.2.2.2⟩

theorem run_of_movesLead {operations : List Operation}
    (hmoves : ∀ operation ∈ operations, operation.MovesLead) (group : FailoverGroup) :
    ∃ active epoch, operations.foldl Operation.perform group = { group with active, epoch } := by
  induction operations generalizing group with
  | nil => exact ⟨group.active, group.epoch, rfl⟩
  | cons operation rest ih =>
    rw [List.forall_mem_cons] at hmoves
    rcases perform_of_movesLead hmoves.1 group with ⟨active, epoch, hfirst⟩
    rw [List.foldl_cons, hfirst]
    exact ih hmoves.2 { group with active, epoch }

/-- Whether a group tells its roles right: who is activated leads and has all others as passives,
and who is elected leads, however the lead has moved before. -/
structure RolesRight (group : FailoverGroup) : Prop where
  activated : ∀ member ∈ group.members, ∃ next, group.activate member = .ok next ∧
    next.activeNode? = group.nodes.get? member ∧
    next.passives = .ok ((group.members.filter fun other => other != member).filterMap
      group.nodes.get?)
  elected : ∀ operations : List Operation, (∀ operation ∈ operations, operation.MovesLead) →
    ∀ failed election next,
      (operations.foldl Operation.perform group).elect failed = .ok (election, next) →
        next.activeNode? = some election.active

theorem rolesRight_iff_named (hgroup : group.Consistent) (hcomplete : group.Complete) :
    group.RolesRight ↔ group.Named := by
  constructor
  · intro hright member node hnode
    have hmember := hgroup.declared member node hnode
    rcases activate_roles hgroup hcomplete hmember with ⟨next, hactivate, -, hpassives⟩
    rcases hright.activated member hmember with ⟨other, hother, -, hothers⟩
    rw [hactivate] at hother
    cases hother
    exact (hpassives.1 hothers member hmember node hnode).2 rfl
  · intro hnamed
    constructor
    case activated =>
      intro member hmember
      rcases activate_roles hgroup hcomplete hmember with ⟨next, hactivate, hleads, hpassives⟩
      refine ⟨next, hactivate, hleads, hpassives.2 ?_⟩
      intro other _ node hnode
      rw [hnamed other node hnode]
    case elected =>
      intro operations hmoves failed election next hok
      rcases run_of_movesLead hmoves group with ⟨active, epoch, hreached⟩
      rw [hreached] at hok
      rcases elect_eq_ok hok with ⟨-, hsuccessor, -, -, rfl⟩
      rcases successor?_eq_some hsuccessor with ⟨before, member, after, -, -, hnode, -⟩
      change group.nodes.get? election.active.name = some election.active
      rw [hnamed member election.active hnode]
      exact hnode

/-- Every group of a valid topology can be made, and a member that is activated leads it with the
node of its server.  Passives and the winners of elections are right as well exactly if the server
of every member carries the member's name. -/
theorem rolesRight_iff {config : GroupSettings} (hvalid : topology.validate = .ok ())
    (hconfig : config ∈ topology.groups) :
    ∃ group, ofConfig config topology.resolve = .ok group ∧ group.members = config.members ∧
      (∀ member ∈ config.members, ∃ node next, topology.servers.get? member = some node ∧
        group.activate member = .ok next ∧ next.activeNode? = some node) ∧
      (group.RolesRight ↔ ∀ member ∈ config.members, ∀ node,
        topology.servers.get? member = some node → node.name = member) := by
  rcases ofConfig_of_valid hvalid hconfig with
    ⟨group, hmade, hmembers, hgroup, hcomplete, hnodes⟩
  refine ⟨group, hmade, hmembers, ?_, ?_⟩
  · intro member hmember
    rw [← hmembers] at hmember
    rcases activate_roles hgroup hcomplete hmember with ⟨next, hactivate, hleads, -⟩
    rcases Option.isSome_iff_exists.1 (hcomplete member hmember) with ⟨node, hnode⟩
    rw [hmembers] at hmember
    exact ⟨node, next, hnodes member hmember ▸ hnode, hactivate, hleads.trans hnode⟩
  · rw [rolesRight_iff_named hgroup hcomplete]
    constructor
    · intro hnamed member hmember node hserver
      exact hnamed member node ((hnodes member hmember).trans hserver)
    · intro hnames member node hnode
      have hmember : member ∈ config.members := hmembers ▸ hgroup.declared member node hnode
      exact hnames member hmember node ((hnodes member hmember).symm.trans hnode)

def pair (first second : String) : Topology where
  groups := [{ id := ⟨1⟩, members := ["a", "b"] }]
  servers := ((∅ : SortedMap String Node).insert "a" (resident first)).insert "b" (resident second)

theorem rolesRight_of_pair : (pair "a" "b").validate = .ok () ∧
    ∃ group, ofConfig { id := ⟨1⟩, members := ["a", "b"] } (pair "a" "b").resolve = .ok group ∧
      group.RolesRight := by
  have hvalid : (pair "a" "b").validate = .ok () := by decide
  have hlisted : { id := ⟨1⟩, members := ["a", "b"] } ∈ (pair "a" "b").groups := List.mem_cons_self
  rcases rolesRight_iff hvalid hlisted with ⟨group, hmade, -, -, hright⟩
  refine ⟨hvalid, group, hmade, hright.2 ?_⟩
  have hfirst : (pair "a" "b").servers.get? "a" = some (resident "a") := rfl
  have hsecond : (pair "a" "b").servers.get? "b" = some (resident "b") := rfl
  simp only [List.forall_mem_cons, hfirst, hsecond, Option.some.injEq]
  exact ⟨fun node hnode => hnode ▸ rfl, fun node hnode => hnode ▸ rfl, nofun⟩

/-- With the names crossed, the member that is activated is its own passive, and the one that is
elected does not lead. -/
theorem roles_wrong_when_crossed :
    (pair "b" "a").validate = .ok () ∧
      ∃ group first election second,
        ofConfig { id := ⟨1⟩, members := ["a", "b"] } (pair "b" "a").resolve = .ok group ∧
        group.activate "a" = .ok first ∧ first.activeNode? = some (resident "b") ∧
        first.passives = .ok [resident "b"] ∧
        first.elect "a" = .ok (election, second) ∧ election.active = resident "a" ∧
        second.activeNode? = some (resident "b") ∧ ¬ group.RolesRight := by
  refine ⟨by decide, _, _, _, _, rfl, rfl, rfl, rfl, rfl, rfl, rfl, ?_⟩
  intro hright
  rcases hright.activated "a" List.mem_cons_self with ⟨next, hactivate, -, hpassives⟩
  cases hactivate
  revert hpassives
  decide

end FailoverGroup
end SharedGraph
