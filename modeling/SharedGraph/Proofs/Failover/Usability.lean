import SharedGraph.Proofs.Failover.Completeness

/-!
# Usable topologies

A topology is checked group by group, against the numbers and the members seen so far.  What the
checks come to does not mention an order: settings that are valid, numbers and members that no two
groups share, and a server for everybody.  Such a topology is accepted, no other one is, and each
of its groups can be made with all its nodes (`validate_iff_usable`).
-/

namespace SharedGraph

theorem GroupSettings.validate_eq_ok_iff {config : GroupSettings} : config.validate = .ok () ↔
    (∀ member ∈ config.members, Text.blank member = false) ∧ config.members.Nodup ∧
      0 < config.ha.electionSeconds := by
  rw [UInt64.pos_iff_ne_zero, ← and_assoc, ← checkMembers_eq_ok_iff]
  unfold validate
  cases checkMembers config.members with
  | error failure => simp
  | ok _ => simp

namespace Topology

variable {topology : Topology} {members : List String} {groups : List GroupSettings}
variable {owners later : SortedMap String GroupId} {seen : List GroupId}

structure Usable (topology : Topology) : Prop where
  unblank : ∀ group ∈ topology.groups, ∀ member ∈ group.members, Text.blank member = false
  distinct : ∀ group ∈ topology.groups, group.members.Nodup
  timed : ∀ group ∈ topology.groups, 0 < group.ha.electionSeconds
  numbered : (topology.groups.map GroupSettings.id).Nodup
  served : ∀ group ∈ topology.groups, ∀ member ∈ group.members,
    topology.servers.contains member = true
  separate : topology.groups.Pairwise fun first second => first.members.Disjoint second.members

/-!
## Members and their owners
-/

theorem contains_insert_eq_false {name : String} {group : GroupId} {other : String} :
    (owners.insert name group).contains other = false ↔
      other ≠ name ∧ owners.contains other = false := by
  rw [← Bool.not_eq_true, SortedMap.contains_insert, not_or, Bool.not_eq_true]

theorem claimMembers_isOk_iff {group : GroupId} :
    (∃ later, topology.claimMembers group members owners = .ok later) ↔
      members.Nodup ∧ ∀ member ∈ members,
        topology.servers.contains member = true ∧ owners.contains member = false := by
  induction members generalizing owners with
  | nil => simp [claimMembers]
  | cons member rest ih =>
    rw [claimMembers, List.nodup_cons, List.forall_mem_cons]
    cases hserver : topology.servers.contains member with
    | false => simp
    | true =>
      cases howner : owners.get? member with
      | some other =>
        have howned : owners.contains member = true := by rw [SortedMap.contains, howner]; rfl
        simp [howned]
      | none =>
        have hfree : owners.contains member = false := by rw [SortedMap.contains, howner]; rfl
        simp only [hfree, ih, contains_insert_eq_false, Bool.not_true, Bool.false_eq_true, if_false]
        -- Whoever follows must have no owner, and not be the one that was claimed just now.
        constructor
        · rintro ⟨hnodup, hrest⟩
          exact ⟨⟨fun hmember => (hrest member hmember).2.1 rfl, hnodup⟩, ⟨trivial, trivial⟩,
            fun other hother => ⟨(hrest other hother).1, (hrest other hother).2.2⟩⟩
        · rintro ⟨⟨hnew, hnodup⟩, -, hrest⟩
          refine ⟨hnodup, fun other hother => ⟨(hrest other hother).1, ?_, (hrest other hother).2⟩⟩
          rintro rfl
          exact hnew hother

theorem contains_of_claimed {group : GroupId}
    (hok : topology.claimMembers group members owners = .ok later) (name : String) :
    later.contains name = true ↔ name ∈ members ∨ owners.contains name = true := by
  induction members generalizing owners with
  | nil =>
    cases hok
    simp
  | cons member rest ih =>
    rw [claimMembers] at hok
    by_cases hserver : topology.servers.contains member = true
    · cases howner : owners.get? member with
      | some other => simp [hserver, howner] at hok
      | none =>
        simp only [hserver, howner, Bool.not_true, Bool.false_eq_true, if_false] at hok
        rw [ih hok, SortedMap.contains_insert, List.mem_cons, or_left_comm, or_assoc]
    · simp [hserver] at hok

/-!
## Groups
-/

/-- Whether a group is valid and has nothing in common with the groups that were checked. -/
structure Joins (topology : Topology) (seen : List GroupId) (owners : SortedMap String GroupId)
    (group : GroupSettings) : Prop where
  valid : group.validate = .ok ()
  numbered : group.id ∉ seen
  claims : ∀ member ∈ group.members,
    topology.servers.contains member = true ∧ owners.contains member = false

theorem checkGroups_cons_iff {group : GroupSettings} :
    topology.checkGroups seen owners (group :: groups) = .ok () ↔
      topology.Joins seen owners group ∧ ∃ later,
        topology.claimMembers group.id group.members owners = .ok later ∧
          topology.checkGroups (group.id :: seen) later groups = .ok () := by
  rw [checkGroups]
  constructor
  · intro hok
    cases hvalid : group.validate with
    | error failure => simp [hvalid] at hok
    | ok _ =>
      rw [hvalid] at hok
      by_cases hseen : group.id ∈ seen
      · simp [hseen] at hok
      · simp only [if_neg hseen] at hok
        cases hclaimed : topology.claimMembers group.id group.members owners with
        | error failure => simp [hclaimed] at hok
        | ok later =>
          rw [hclaimed] at hok
          exact ⟨⟨hvalid, hseen, (claimMembers_isOk_iff.1 ⟨later, hclaimed⟩).2⟩, later, rfl, hok⟩
  · rintro ⟨hjoins, later, hclaimed, hrest⟩
    simp only [hjoins.valid, if_neg hjoins.numbered, hclaimed, hrest]

theorem joins_claimed_iff {group other : GroupSettings}
    (hclaimed : topology.claimMembers group.id group.members owners = .ok later) :
    topology.Joins (group.id :: seen) later other ↔
      topology.Joins seen owners other ∧ other.id ≠ group.id ∧
        group.members.Disjoint other.members := by
  have hfree : ∀ name, later.contains name = false ↔
      name ∉ group.members ∧ owners.contains name = false := by
    intro name
    rw [← Bool.not_eq_true, contains_of_claimed hclaimed, not_or, Bool.not_eq_true]
  constructor
  · rintro ⟨hvalid, hnumbered, hclaims⟩
    rw [List.mem_cons, not_or] at hnumbered
    refine ⟨⟨hvalid, hnumbered.2, ?_⟩, hnumbered.1, ?_⟩
    · intro member hmember
      rcases hclaims member hmember with ⟨hserver, howner⟩
      exact ⟨hserver, ((hfree member).1 howner).2⟩
    · intro member hshared hmember
      exact ((hfree member).1 (hclaims member hmember).2).1 hshared
  · rintro ⟨⟨hvalid, hnumbered, hclaims⟩, hother, happart⟩
    refine ⟨hvalid, List.not_mem_cons_of_ne_of_not_mem hother hnumbered, ?_⟩
    intro member hmember
    rcases hclaims member hmember with ⟨hserver, howner⟩
    exact ⟨hserver, (hfree member).2 ⟨fun hshared => happart hshared hmember, howner⟩⟩

/-- Groups are accepted exactly if each joins those before, and no two of them have the number or a
member in common. -/
theorem checkGroups_eq_ok_iff : topology.checkGroups seen owners groups = .ok () ↔
    (∀ group ∈ groups, topology.Joins seen owners group) ∧
      (groups.map GroupSettings.id).Nodup ∧
      groups.Pairwise fun first second => first.members.Disjoint second.members := by
  induction groups generalizing seen owners with
  | nil => simp [checkGroups]
  | cons group rest ih =>
    rw [checkGroups_cons_iff, List.forall_mem_cons, List.map_cons, List.nodup_cons,
      List.pairwise_cons]
    constructor
    · rintro ⟨hjoins, later, hclaimed, hrest⟩
      rcases ih.1 hrest with ⟨hothers, hnumbers, hseparate⟩
      simp only [joins_claimed_iff hclaimed] at hothers
      refine ⟨⟨hjoins, fun other hother => (hothers other hother).1⟩, ⟨?_, hnumbers⟩,
        fun other hother => (hothers other hother).2.2, hseparate⟩
      intro hsame
      rcases List.mem_map.1 hsame with ⟨other, hother, hid⟩
      exact (hothers other hother).2.1 hid
    · rintro ⟨⟨hjoins, hothers⟩, ⟨hnew, hnumbers⟩, happart, hseparate⟩
      have hdistinct := (GroupSettings.validate_eq_ok_iff.1 hjoins.valid).2.1
      rcases claimMembers_isOk_iff.2 ⟨hdistinct, hjoins.claims⟩ with ⟨later, hclaimed⟩
      refine ⟨hjoins, later, hclaimed, ih.2 ⟨?_, hnumbers, hseparate⟩⟩
      intro other hother
      rw [joins_claimed_iff hclaimed]
      refine ⟨hothers other hother, ?_, happart other hother⟩
      intro hid
      exact hnew (hid ▸ List.mem_map_of_mem hother)

theorem resolve_eq_ok_iff {member : String} {node : Node} :
    topology.resolve member = .ok node ↔ topology.servers.get? member = some node := by
  unfold resolve
  cases topology.servers.get? member <;> simp

end Topology

namespace FailoverGroup

variable {members : List String} {topology : Topology}

/-!
## Groups of an accepted topology
-/

theorem attachAll_servers (group : FailoverGroup)
    (hdeclared : ∀ member ∈ members, member ∈ group.members)
    (hservers : ∀ member ∈ members, topology.servers.contains member = true) :
    ∃ nodes, attachAll topology.resolve members group = .ok { group with nodes } ∧
      ∀ member, nodes.get? member =
        if member ∈ members then topology.servers.get? member else group.nodes.get? member := by
  induction members generalizing group with
  | nil => exact ⟨group.nodes, rfl, fun member => rfl⟩
  | cons first rest ih =>
    rw [List.forall_mem_cons] at hdeclared hservers
    rcases Option.isSome_iff_exists.1 hservers.1 with ⟨node, hnode⟩
    have hattach : group.attach first node =
        .ok { group with nodes := group.nodes.insert first node } := by
      rw [attach, declares, if_pos (List.contains_iff_mem.2 hdeclared.1)]
    rcases ih { group with nodes := group.nodes.insert first node } hdeclared.2 hservers.2 with
      ⟨nodes, hrest, hfound⟩
    refine ⟨nodes, ?_, ?_⟩
    · rw [attachAll, Topology.resolve_eq_ok_iff.2 hnode]
      dsimp only
      rw [hattach]
      exact hrest
    · intro member
      rw [hfound, SortedMap.get?_insert]
      by_cases hsame : member = first
      · simp [hsame, hnode]
      · simp [hsame]

theorem ofConfig_of_valid {config : GroupSettings} (hvalid : topology.validate = .ok ())
    (hconfig : config ∈ topology.groups) :
    ∃ group, ofConfig config topology.resolve = .ok group ∧ group.members = config.members ∧
      group.Consistent ∧ group.Complete ∧
      ∀ member ∈ config.members, group.nodes.get? member = topology.servers.get? member := by
  have hjoins := (Topology.checkGroups_eq_ok_iff.1 hvalid).1 config hconfig
  have hservers : ∀ member ∈ config.members, topology.servers.contains member = true :=
    fun member hmember => (hjoins.claims member hmember).1
  have hcreate : create config =
      .ok { id := config.id, ha := config.ha, members := config.members } := by
    rw [create, hjoins.valid]
    rfl
  rcases attachAll_servers { id := config.id, ha := config.ha, members := config.members }
    (fun member hmember => hmember) hservers with ⟨nodes, hattached, hfound⟩
  have hmade : ofConfig config topology.resolve =
      .ok { id := config.id, ha := config.ha, members := config.members, nodes } := by
    rw [ofConfig, hcreate]
    exact hattached
  have hnodes : ∀ member ∈ config.members, nodes.get? member = topology.servers.get? member := by
    intro member hmember
    rw [hfound, if_pos hmember]
  refine ⟨_, hmade, rfl, consistent_of_ofConfig hmade, ?_, hnodes⟩
  intro member hmember
  rw [SortedMap.contains, hnodes member hmember]
  exact hservers member hmember

end FailoverGroup

namespace Topology

/-- A topology is accepted exactly if it is usable; then every group can be made, and read
strictly it lists the server of each member, in declared order. -/
theorem validate_iff_usable (topology : Topology) :
    (topology.validate = .ok () ↔ topology.Usable) ∧
      (topology.validate = .ok () → ∀ config ∈ topology.groups, ∃ group nodes,
        FailoverGroup.ofConfig config topology.resolve = .ok group ∧
          group.listNodes true = .ok nodes ∧
          nodes.map some = config.members.map topology.servers.get?) := by
  constructor
  · rw [validate, checkGroups_eq_ok_iff]
    constructor
    · rintro ⟨hgroups, hnumbered, hseparate⟩
      have hvalid := fun group hgroup =>
        GroupSettings.validate_eq_ok_iff.1 (hgroups group hgroup).valid
      constructor
      case unblank => exact fun group hgroup => (hvalid group hgroup).1
      case distinct => exact fun group hgroup => (hvalid group hgroup).2.1
      case timed => exact fun group hgroup => (hvalid group hgroup).2.2
      case numbered => exact hnumbered
      case served =>
        exact fun group hgroup member hmember => ((hgroups group hgroup).claims member hmember).1
      case separate => exact hseparate
    · intro husable
      refine ⟨fun group hgroup => ⟨?_, List.not_mem_nil, ?_⟩, husable.numbered, husable.separate⟩
      · exact GroupSettings.validate_eq_ok_iff.2 ⟨husable.unblank group hgroup,
          husable.distinct group hgroup, husable.timed group hgroup⟩
      · exact fun member hmember => ⟨husable.served group hgroup member hmember, rfl⟩
  · intro hvalid config hconfig
    rcases FailoverGroup.ofConfig_of_valid hvalid hconfig with
      ⟨group, hmade, hmembers, hconsistent, hcomplete, hnodes⟩
    refine ⟨group, group.attached, hmade, FailoverGroup.listNodes_strict hconsistent hcomplete, ?_⟩
    rw [FailoverGroup.attached_of_complete hcomplete, hmembers]
    exact List.map_congr_left hnodes

def twoGroups (members : List String) : Topology where
  groups := [{ id := ⟨1⟩, members := ["a", "b"] }, { id := ⟨2⟩, members }]
  servers := ((SortedMap.insert ∅ "a" (FailoverGroup.resident "a")).insert "b"
    (FailoverGroup.resident "b")).insert "c" (FailoverGroup.resident "c")

theorem usable_unless_shared : (twoGroups ["c"]).Usable ∧ ¬(twoGroups ["c", "b"]).Usable ∧
    ∃ group nodes, FailoverGroup.ofConfig { id := ⟨1⟩, members := ["a", "b"] }
        (twoGroups ["c"]).resolve = .ok group ∧
      group.listNodes true = .ok nodes ∧
      nodes.map some = [some (FailoverGroup.resident "a"), some (FailoverGroup.resident "b")] := by
  rcases validate_iff_usable (twoGroups ["c"]) with ⟨husable, hmade⟩
  have hvalid : (twoGroups ["c"]).validate = .ok () := by decide
  refine ⟨husable.1 hvalid, ?_, hmade hvalid _ List.mem_cons_self⟩
  rw [← (validate_iff_usable (twoGroups ["c", "b"])).1]
  decide

end Topology
end SharedGraph
