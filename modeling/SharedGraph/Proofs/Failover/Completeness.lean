import Mathlib.Data.List.Perm.Subperm
import SharedGraph.Proofs.Failover.Membership

/-!
# Complete groups

A strict reading of a group compares two numbers only, that of its nodes and that of its members.
Nodes are attached under declared names and once for each, so equal numbers mean that every member
has its node.  Everything that is done to a group keeps this, and a group that has all its nodes
never misses one again (`membership_of_run`).
-/

namespace SharedGraph
namespace FailoverGroup

variable {group next : FailoverGroup} {members : List String}
variable {resolve : String → Except Failure Node}

/-!
## Strict readings
-/

/-- Whether a node is attached for every member. -/
def Complete (group : FailoverGroup) : Prop :=
  ∀ member ∈ group.members, group.nodes.contains member = true

theorem keys_subset (hgroup : group.Consistent) : group.nodes.keys ⊆ group.members := by
  intro member hkey
  rcases Option.isSome_iff_exists.1 (SortedMap.mem_keys_iff.1 hkey) with ⟨node, hnode⟩
  exact hgroup.declared member node hnode

theorem size_eq_length_iff (hgroup : group.Consistent) :
    group.nodes.size = group.members.length ↔ group.Complete := by
  have hlength : group.nodes.keys.length = group.nodes.size := List.length_map _
  rw [← hlength]
  constructor
  · intro hsame member hmember
    -- Keys do not repeat and all are members, so equal lengths leave no member out.
    have hsub := List.subperm_of_subset group.nodes.nodup_keys (keys_subset hgroup)
    have hperm := hsub.perm_of_length_le (Nat.le_of_eq hsame.symm)
    exact SortedMap.mem_keys_iff.1 (hperm.mem_iff.2 hmember)
  · intro hcomplete
    apply List.Perm.length_eq
    apply (List.perm_ext_iff_of_nodup group.nodes.nodup_keys hgroup.distinct).2
    intro member
    constructor
    · exact fun hkey => keys_subset hgroup hkey
    · exact fun hmember => SortedMap.mem_keys_iff.2 (hcomplete member hmember)

theorem listNodes_strict (hgroup : group.Consistent) (hcomplete : group.Complete) :
    group.listNodes true = .ok group.attached := by
  rw [listNodes, requireComplete, if_pos rfl, if_pos ((size_eq_length_iff hgroup).2 hcomplete)]
  rfl

theorem listNodes_strict_iff (hgroup : group.Consistent) :
    (∃ nodes, group.listNodes true = .ok nodes) ↔ group.Complete := by
  constructor
  · intro hread
    rcases hread with ⟨nodes, hnodes⟩
    rw [← size_eq_length_iff hgroup]
    rw [listNodes, if_pos rfl, requireComplete] at hnodes
    by_cases hsame : group.nodes.size = group.members.length
    · exact hsame
    · rw [if_neg hsame] at hnodes
      cases hnodes
  · exact fun hcomplete => ⟨group.attached, listNodes_strict hgroup hcomplete⟩

theorem map_some_filterMap {lookup : String → Option Node}
    (hfound : ∀ member ∈ members, (lookup member).isSome = true) :
    (members.filterMap lookup).map some = members.map lookup := by
  induction members with
  | nil => rfl
  | cons member rest ih =>
    rw [List.forall_mem_cons] at hfound
    rcases Option.isSome_iff_exists.1 hfound.1 with ⟨node, hnode⟩
    rw [List.filterMap_cons_some hnode, List.map_cons, List.map_cons, ih hfound.2, hnode]

theorem attached_of_complete (hcomplete : group.Complete) :
    group.attached.map some = group.members.map group.nodes.get? :=
  map_some_filterMap hcomplete

theorem passives_of_complete (hgroup : group.Consistent) (hcomplete : group.Complete) :
    group.passives =
      .ok (group.attached.filter fun node => group.active != some node.name) := by
  rw [passives, requireComplete, if_pos ((size_eq_length_iff hgroup).2 hcomplete)]
  rfl

/-!
## What reconfigurations attach
-/

theorem contains_foldl_insert (entries : List (String × Node)) (nodes : SortedMap String Node)
    (member : String) :
    (entries.foldl (fun nodes entry => nodes.insert entry.1 entry.2) nodes).contains member = true ↔
      member ∈ entries.map Prod.fst ∨ nodes.contains member = true := by
  induction entries generalizing nodes with
  | nil => simp
  | cons entry rest ih =>
    rw [List.foldl_cons, ih, SortedMap.contains_insert, List.map_cons, List.mem_cons,
      or_left_comm, or_assoc]

theorem contains_reconfigure {change : MemberChange}
    (hok : group.reconfigure members resolve = .ok (change, next)) {member : String}
    (hmember : member ∈ members) :
    next.nodes.contains member = true ↔
      member ∉ group.members ∨ group.nodes.contains member = true := by
  rcases reconfigure_cases hok with ⟨-, joining, hresolved, active, rfl⟩
  dsimp only
  rw [contains_foldl_insert, (resolveAll_eq_ok hresolved).1]
  have hstays : ((group.members.filter fun member => !members.contains member).foldl
      SortedMap.erase group.nodes).contains member = group.nodes.contains member := by
    unfold SortedMap.contains
    rw [get?_foldl_erase, if_neg]
    simp [hmember]
  rw [hstays]
  simp [hmember]

theorem complete_reconfigure {change : MemberChange} (hcomplete : group.Complete)
    (hok : group.reconfigure members resolve = .ok (change, next)) : next.Complete := by
  intro member hmember
  have hmembers : next.members = members := (reconfigure_eq_ok hok).2.1
  rw [hmembers] at hmember
  rw [contains_reconfigure hok hmember]
  by_cases hstays : member ∈ group.members
  · exact Or.inr (hcomplete member hstays)
  · exact Or.inl hstays

/-!
## Runs
-/

theorem attempt_complete {operation : Operation} (hcomplete : group.Complete)
    (hok : operation.attempt group = .ok next) : next.Complete := by
  cases operation with
  | attach name node =>
    rw [(attach_eq_ok hok).2]
    intro member hmember
    exact (SortedMap.contains_insert group.nodes name node member).2
      (Or.inr (hcomplete member hmember))
  | reconfigure members resolve =>
    rcases exists_of_map_snd hok with ⟨change, hchange⟩
    exact complete_reconfigure hcomplete hchange
  | activate name =>
    rw [activate_eq_ok hok]
    exact hcomplete
  | elect failed =>
    rcases exists_of_map_snd hok with ⟨election, helected⟩
    rw [(elect_eq_ok helected).2.2.2.2]
    exact hcomplete

theorem perform_complete (hcomplete : group.Complete) (operation : Operation) :
    (operation.perform group).Complete := by
  rcases perform_cases group operation with hsame | hok
  · rw [hsame]
    exact hcomplete
  · exact attempt_complete hcomplete hok

theorem run_consistent (hgroup : group.Consistent) (operations : List Operation) :
    (operations.foldl Operation.perform group).Consistent := by
  induction operations generalizing group with
  | nil => exact hgroup
  | cons operation rest ih => exact ih (perform_consistent hgroup operation)

theorem consistent_of_ofConfig {config : GroupSettings}
    (hok : ofConfig config resolve = .ok group) : group.Consistent := by
  rcases ofConfig_eq_ok hok with ⟨created, hcreate, hattached⟩
  apply attachAll_induction (create_consistent hcreate).1 _ hattached
  intro earlier later member node hearlier hnode hattach
  exact attach_consistent hearlier hattach

theorem consistent_of_made {config : GroupSettings}
    (hmade : create config = .ok group ∨ ∃ resolve, ofConfig config resolve = .ok group) :
    group.Consistent := by
  rcases hmade with hcreate | ⟨resolve, hconfig⟩
  · exact (create_consistent hcreate).1
  · exact consistent_of_ofConfig hconfig

/-- Whatever is done to a group: its members are valid, nodes are attached for members only and
once for each, a strict reading succeeds exactly if every member has its node and gives these in
declared order, and if it succeeds, it does so after every further operation. -/
theorem membership_of_run {config : GroupSettings}
    (hmade : create config = .ok group ∨ ∃ resolve, ofConfig config resolve = .ok group)
    (operations : List Operation) :
    let reached := operations.foldl Operation.perform group
    reached.Consistent ∧ reached.nodes.keys.Nodup ∧
      ((∃ nodes, reached.listNodes true = .ok nodes) ↔ reached.Complete) ∧
      (∀ nodes, reached.listNodes true = .ok nodes →
        nodes.map some = reached.members.map reached.nodes.get?) ∧
      ∀ nodes (operation : Operation), reached.listNodes true = .ok nodes →
        ∃ others, (operation.perform reached).listNodes true = .ok others := by
  intro reached
  have hreached : reached.Consistent := run_consistent (consistent_of_made hmade) operations
  have hcomplete := listNodes_strict_iff hreached
  refine ⟨hreached, reached.nodes.nodup_keys, hcomplete, ?_, ?_⟩
  · intro nodes hnodes
    have hall := hcomplete.1 ⟨nodes, hnodes⟩
    cases hnodes.symm.trans (listNodes_strict hreached hall)
    exact attached_of_complete hall
  · intro nodes operation hnodes
    have hall := hcomplete.1 ⟨nodes, hnodes⟩
    exact (listNodes_strict_iff (perform_consistent hreached operation)).2
      (perform_complete hall operation)

/-- A group of three that gets the nodes of two, loses a member with its node, and gets the node
that is missing in the end.  Two of the operations fail. -/
def moves : List Operation :=
  [.attach "a" (resident "a"), .attach "d" (resident "d"), .attach "b" (resident "b"),
    .activate "a", .reconfigure ["c", "b", "c"] fun name => .ok (resident name),
    .reconfigure ["c", "b"] fun name => .ok (resident name), .elect "a",
    .attach "c" (resident "c")]

/-- The group then lists its two nodes, and still lists all when a member joins. -/
theorem membership_after_moves :
    let reached := moves.foldl Operation.perform { id := ⟨1⟩, members := ["a", "b", "c"] }
    reached.listNodes true = .ok [resident "c", resident "b"] ∧ reached.Complete ∧
      ∃ others, (Operation.perform reached (.reconfigure ["b", "e", "c"] fun name =>
        .ok (resident name))).listNodes true = .ok others := by
  intro reached
  have hcreate : create { id := ⟨1⟩, members := ["a", "b", "c"] } =
      .ok { id := ⟨1⟩, members := ["a", "b", "c"] } := rfl
  have hread : reached.listNodes true = .ok [resident "c", resident "b"] := rfl
  rcases membership_of_run (Or.inl hcreate) moves with ⟨-, -, hcomplete, -, hkept⟩
  exact ⟨hread, hcomplete.1 ⟨_, hread⟩, hkept _ _ hread⟩

end FailoverGroup
end SharedGraph
