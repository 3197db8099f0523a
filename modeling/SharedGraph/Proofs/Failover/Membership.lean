import SharedGraph.Failover.Membership

/-!
# Consistent groups

A group is consistent when its members are valid and nodes are attached under declared
names only; it is named when every node carries the name of the member that it is attached
for.  Both hold of every group that a valid configuration gives, and every operation on
groups keeps them.  The passives of such a group have names of their own, so a relay has
one lane for each of them.
-/

namespace SharedGraph

theorem exists_of_map_snd {α β ε : Type} {outcome : Except ε (α × β)} {left : β}
    (hleft : outcome.map Prod.snd = .ok left) : ∃ result, outcome = .ok (result, left) := by
  cases outcome with
  | error failure => cases hleft
  | ok result =>
    cases hleft
    exact ⟨result.1, rfl⟩

/-!
## Valid member lists
-/

namespace GroupSettings

theorem checkMembersAfter_eq_ok_iff {seen members : List String} :
    checkMembersAfter seen members = .ok () ↔
      (∀ member ∈ members, Text.blank member = false ∧ member ∉ seen) ∧ members.Nodup := by
  induction members generalizing seen with
  | nil => simp [checkMembersAfter]
  | cons member rest ih =>
    rw [checkMembersAfter]
    by_cases hblank : Text.blank member = true
    · simp [hblank]
    · by_cases hseen : member ∈ seen
      · simp [hblank, hseen]
      · rw [if_neg hblank, if_neg hseen, ih, List.nodup_cons]
        simp only [List.mem_cons, not_or, forall_eq_or_imp]
        constructor
        · rintro ⟨hrest, hnodup⟩
          refine ⟨⟨⟨by simpa using hblank, hseen⟩, fun other hother => ?_⟩, ?_, hnodup⟩
          · exact ⟨(hrest other hother).1, (hrest other hother).2.2⟩
          · exact fun hmem => (hrest member hmem).2.1 rfl
        · rintro ⟨⟨_, hrest⟩, hnotMem, hnodup⟩
          refine ⟨fun other hother => ?_, hnodup⟩
          have hne : other ≠ member := by
            rintro rfl
            exact hnotMem hother
          exact ⟨(hrest other hother).1, hne, (hrest other hother).2⟩

theorem checkMembers_eq_ok_iff {members : List String} :
    checkMembers members = .ok () ↔
      (∀ member ∈ members, Text.blank member = false) ∧ members.Nodup := by
  simp [checkMembers, checkMembersAfter_eq_ok_iff]

end GroupSettings

namespace FailoverGroup

/-- Members are neither blank nor repeated, and nodes are attached for members only. -/
structure Consistent (group : FailoverGroup) : Prop where
  unblank : ∀ member ∈ group.members, Text.blank member = false
  distinct : group.members.Nodup
  declared : ∀ member node, group.nodes.get? member = some node → member ∈ group.members

/-- Every node carries the name of the member that it is attached for. -/
def Named (group : FailoverGroup) : Prop :=
  ∀ member node, group.nodes.get? member = some node → node.name = member

def NamesMembers (resolve : String → Except Failure Node) : Prop :=
  ∀ member node, resolve member = .ok node → node.name = member

def hasPassive (group : FailoverGroup) (name : String) : Bool :=
  match group.passives with
  | .ok nodes => nodes.any fun node => node.name == name
  | .error _ => false

variable {group next : FailoverGroup} {members : List String}
variable {resolve : String → Except Failure Node} {operation : Operation}

/-!
## Building a group
-/

theorem create_consistent {config : GroupSettings} (hok : create config = .ok group) :
    group.Consistent ∧ group.Named := by
  unfold create at hok
  cases hvalid : config.validate with
  | error failure =>
    rw [hvalid] at hok
    cases hok
  | ok _ =>
    rw [hvalid] at hok
    cases hok
    have hmembers : GroupSettings.checkMembers config.members = .ok () := by
      unfold GroupSettings.validate at hvalid
      split at hvalid
      · cases hvalid
      · assumption
    obtain ⟨hunblank, hdistinct⟩ := GroupSettings.checkMembers_eq_ok_iff.1 hmembers
    constructor
    · exact ⟨hunblank, hdistinct, fun _ _ hfound => nomatch hfound⟩
    · exact fun _ _ hfound => nomatch hfound

theorem attach_eq_ok {name : String} {node : Node} (hok : group.attach name node = .ok next) :
    name ∈ group.members ∧ next = { group with nodes := group.nodes.insert name node } := by
  unfold attach at hok
  split at hok
  · next hdeclares =>
    cases hok
    exact ⟨List.contains_iff_mem.1 hdeclares, rfl⟩
  · cases hok

theorem attach_consistent {name : String} {node : Node} (hgroup : group.Consistent)
    (hok : group.attach name node = .ok next) : next.Consistent := by
  obtain ⟨hdeclared, rfl⟩ := attach_eq_ok hok
  refine ⟨hgroup.unblank, hgroup.distinct, fun member found hfound => ?_⟩
  rw [SortedMap.get?_insert] at hfound
  split at hfound
  · next hsame => exact hsame ▸ hdeclared
  · exact hgroup.declared member found hfound

theorem attach_named {name : String} {node : Node} (hgroup : group.Named)
    (hname : node.name = name) (hok : group.attach name node = .ok next) : next.Named := by
  obtain ⟨_, rfl⟩ := attach_eq_ok hok
  intro member found hfound
  rw [SortedMap.get?_insert] at hfound
  split at hfound
  · next hsame =>
    cases hfound
    exact hname.trans hsame.symm
  · exact hgroup member found hfound

theorem attachAll_induction {motive : FailoverGroup → Prop} (hgroup : motive group)
    (hattach : ∀ earlier later member node, motive earlier → resolve member = .ok node →
      earlier.attach member node = .ok later → motive later)
    (hok : attachAll resolve members group = .ok next) : motive next := by
  induction members generalizing group with
  | nil =>
    cases hok
    exact hgroup
  | cons member rest ih =>
    rw [attachAll] at hok
    cases hnode : resolve member with
    | error failure => simp [hnode] at hok
    | ok node =>
      simp only [hnode] at hok
      cases hattached : group.attach member node with
      | error failure => simp [hattached] at hok
      | ok attached =>
        simp only [hattached] at hok
        exact ih (hattach group attached member node hgroup hnode hattached) hok

theorem attachAll_consistent (hgroup : group.Consistent) (hnamed : group.Named)
    (hresolve : NamesMembers resolve) (hok : attachAll resolve members group = .ok next) :
    next.Consistent ∧ next.Named := by
  constructor
  · apply attachAll_induction hgroup _ hok
    intro earlier later member node hearlier hnode hattach
    exact attach_consistent hearlier hattach
  · apply attachAll_induction hnamed _ hok
    intro earlier later member node hearlier hnode hattach
    exact attach_named hearlier (hresolve member node hnode) hattach

theorem ofConfig_eq_ok {config : GroupSettings} (hok : ofConfig config resolve = .ok group) :
    ∃ created, create config = .ok created ∧
      attachAll resolve config.members created = .ok group := by
  unfold ofConfig at hok
  cases hcreate : create config with
  | error failure => simp [hcreate] at hok
  | ok created =>
    rw [hcreate] at hok
    exact ⟨created, rfl, hok⟩

theorem ofConfig_consistent {config : GroupSettings} (hresolve : NamesMembers resolve)
    (hok : ofConfig config resolve = .ok group) : group.Consistent ∧ group.Named := by
  obtain ⟨created, hcreate, hattached⟩ := ofConfig_eq_ok hok
  obtain ⟨hconsistent, hnamed⟩ := create_consistent hcreate
  exact attachAll_consistent hconsistent hnamed hresolve hattached

/-!
## Roles
-/

theorem activate_eq_ok {name : String} (hok : group.activate name = .ok next) :
    next = { group with active := some name } := by
  unfold activate at hok
  split at hok
  · cases hok
    rfl
  · cases hok

theorem elect_eq_ok {failed : String} {election : Election}
    (hok : group.elect failed = .ok (election, next)) :
    (∀ active, group.active = some active → active = failed) ∧
      group.successor? failed = some election.active ∧
      election.previous = group.active ∧ election.epoch = group.epoch + 1 ∧
      next = { group with active := some election.active.name, epoch := group.epoch + 1 } := by
  have hchoose : elect.choose group failed = .ok (election, next) →
      group.successor? failed = some election.active ∧
        election.previous = group.active ∧ election.epoch = group.epoch + 1 ∧
        next = { group with active := some election.active.name, epoch := group.epoch + 1 } := by
    intro hchosen
    unfold elect.choose at hchosen
    cases hsuccessor : group.successor? failed with
    | none => simp [hsuccessor] at hchosen
    | some node =>
      simp only [hsuccessor, Except.ok.injEq, Prod.mk.injEq] at hchosen
      obtain ⟨rfl, rfl⟩ := hchosen
      exact ⟨rfl, rfl, rfl, rfl⟩
  unfold elect at hok
  cases hactive : group.active with
  | none =>
    rw [hactive] at hok
    refine ⟨fun _ hsome => ?_, hactive ▸ hchoose hok⟩
    cases hsome
  | some active =>
    simp only [hactive] at hok
    split at hok
    · next hsame =>
      refine ⟨fun other hsome => ?_, hactive ▸ hchoose hok⟩
      cases hsome
      exact hsame
    · cases hok

theorem passives_eq_ok {nodes : List Node} (hok : group.passives = .ok nodes) :
    nodes = group.attached.filter fun node => group.active != some node.name := by
  unfold passives at hok
  cases hcomplete : group.requireComplete with
  | error failure =>
    rw [hcomplete] at hok
    cases hok
  | ok _ =>
    rw [hcomplete] at hok
    cases hok
    rfl

theorem passives_isOk_iff :
    (∃ nodes, group.passives = .ok nodes) ↔ group.nodes.size = group.members.length := by
  unfold passives requireComplete
  split
  · next hcount => simp [Except.map, hcount]
  · next hcount => simp [Except.map, hcount]

theorem passives_eq_error_iff {failure : Failure} : group.passives = .error failure ↔
    group.nodes.size ≠ group.members.length ∧
      failure = .incompleteMembership group.members group.nodes.keys := by
  unfold passives requireComplete
  split
  · next hcount => simp [Except.map, hcount]
  · next hcount => simp [Except.map, hcount, eq_comm]

theorem passives_of_active {nodes : List Node} (active : Option String) (epoch : Nat)
    (hok : group.passives = .ok nodes) :
    ∃ others, { group with active, epoch }.passives = .ok others := by
  unfold passives requireComplete at hok ⊢
  dsimp only at hok ⊢
  split at hok
  · next hcomplete =>
    rw [if_pos hcomplete]
    exact ⟨_, rfl⟩
  · cases hok

theorem hasPassive_iff {nodes : List Node} {name : String} (hok : group.passives = .ok nodes) :
    group.hasPassive name = true ↔ name ∈ nodes.map Node.name := by
  simp [hasPassive, hok]

theorem attached_map_name (hnamed : group.Named) :
    group.attached.map Node.name = group.members.filter group.nodes.contains := by
  unfold attached
  induction group.members with
  | nil => rfl
  | cons member rest ih =>
    cases hnode : group.nodes.get? member with
    | none =>
      rw [List.filterMap_cons_none hnode,
        List.filter_cons_of_neg (by simp [SortedMap.contains, hnode]), ih]
    | some node =>
      rw [List.filterMap_cons_some hnode, List.map_cons, ih,
        List.filter_cons_of_pos (by simp [SortedMap.contains, hnode]),
        hnamed member node hnode]

theorem nodup_passives {nodes : List Node} (hgroup : group.Consistent) (hnamed : group.Named)
    (hok : group.passives = .ok nodes) : (nodes.map Node.name).Nodup := by
  have hattached : (group.attached.map Node.name).Nodup := by
    rw [attached_map_name hnamed]
    exact hgroup.distinct.sublist List.filter_sublist
  rw [passives_eq_ok hok]
  exact hattached.sublist (List.filter_sublist.map Node.name)

/-!
## Reconfiguration
-/

theorem get?_foldl_erase (names : List String) (nodes : SortedMap String Node)
    (member : String) :
    (names.foldl SortedMap.erase nodes).get? member =
      if member ∈ names then none else nodes.get? member := by
  induction names generalizing nodes with
  | nil => simp
  | cons name rest ih =>
    rw [List.foldl_cons, ih, SortedMap.get?_erase]
    by_cases hsame : member = name <;> by_cases hrest : member ∈ rest <;> simp [hsame, hrest]

theorem get?_foldl_insert {entries : List (String × Node)} {nodes : SortedMap String Node}
    {member : String} {node : Node}
    (hfound : (entries.foldl (fun nodes entry => nodes.insert entry.1 entry.2) nodes).get? member
      = some node) :
    (member, node) ∈ entries ∨ nodes.get? member = some node := by
  induction entries generalizing nodes with
  | nil => exact .inr hfound
  | cons entry rest ih =>
    rcases ih hfound with hlater | hbefore
    · exact .inl (List.mem_cons_of_mem _ hlater)
    · rw [SortedMap.get?_insert] at hbefore
      split at hbefore
      · next hsame =>
        cases hbefore
        subst hsame
        exact .inl List.mem_cons_self
      · exact .inr hbefore

theorem resolveAll_eq_ok {entries : List (String × Node)}
    (hok : resolveAll resolve members = .ok entries) :
    entries.map Prod.fst = members ∧ ∀ entry ∈ entries, resolve entry.1 = .ok entry.2 := by
  induction members generalizing entries with
  | nil =>
    cases hok
    exact ⟨rfl, fun entry hentry => nomatch hentry⟩
  | cons member rest ih =>
    rw [resolveAll] at hok
    cases hnode : resolve member with
    | error failure => simp [hnode] at hok
    | ok node =>
      rw [hnode] at hok
      cases hrest : resolveAll resolve rest with
      | error failure =>
        rw [hrest] at hok
        cases hok
      | ok others =>
        rw [hrest] at hok
        cases hok
        obtain ⟨hnames, hnodes⟩ := ih hrest
        exact ⟨congrArg (member :: ·) hnames, List.forall_mem_cons.2 ⟨hnode, hnodes⟩⟩

theorem reconfigure_outcome {change : MemberChange}
    (hok : group.reconfigure members resolve = .ok (change, next)) :
    GroupSettings.checkMembers members = .ok () ∧ ∃ joining,
      resolveAll resolve (members.filter fun member => !group.members.contains member) =
        .ok joining ∧
      change = ⟨joining.map Prod.snd,
        (group.members.filter fun member => !members.contains member).filterMap
          group.nodes.get?⟩ ∧
      next = { group with
        members
        nodes := joining.foldl (fun nodes entry => nodes.insert entry.1 entry.2)
          ((group.members.filter fun member => !members.contains member).foldl SortedMap.erase
            group.nodes)
        active := group.active.filter fun name =>
          !(group.members.filter fun member => !members.contains member).contains name } := by
  unfold reconfigure at hok
  cases hcheck : GroupSettings.checkMembers members with
  | error failure => simp [hcheck] at hok
  | ok _ =>
    rw [hcheck] at hok
    cases hresolved : resolveAll resolve
        (members.filter fun member => !group.members.contains member) with
    | error failure =>
      simp only [hresolved] at hok
      cases hok
    | ok joining =>
      simp only [hresolved, Except.ok.injEq, Prod.mk.injEq] at hok
      rcases hok with ⟨hchange, hnext⟩
      exact ⟨rfl, joining, rfl, hchange.symm, hnext.symm⟩

theorem reconfigure_cases {change : MemberChange}
    (hok : group.reconfigure members resolve = .ok (change, next)) :
    GroupSettings.checkMembers members = .ok () ∧ ∃ joining,
      resolveAll resolve (members.filter fun member => !group.members.contains member) =
        .ok joining ∧
      ∃ active, next = { group with
        members
        nodes := joining.foldl (fun nodes entry => nodes.insert entry.1 entry.2)
          ((group.members.filter fun member => !members.contains member).foldl SortedMap.erase
            group.nodes)
        active } := by
  rcases reconfigure_outcome hok with ⟨hcheck, joining, hresolved, -, hnext⟩
  exact ⟨hcheck, joining, hresolved, _, hnext⟩

/-- What is attached after a reconfiguration either joined or was attached and stays. -/
theorem reconfigure_eq_ok {change : MemberChange}
    (hok : group.reconfigure members resolve = .ok (change, next)) :
    GroupSettings.checkMembers members = .ok () ∧ next.members = members ∧
      next.id = group.id ∧ next.ha = group.ha ∧
      ∀ member node, next.nodes.get? member = some node →
        (member ∈ members ∧ resolve member = .ok node) ∨
          (group.nodes.get? member = some node ∧ (member ∈ group.members → member ∈ members)) := by
  obtain ⟨hcheck, joining, hresolved, active, rfl⟩ := reconfigure_cases hok
  refine ⟨hcheck, rfl, rfl, rfl, fun member node hfound => ?_⟩
  rcases get?_foldl_insert hfound with hjoined | hstays
  · obtain ⟨hnames, hresolves⟩ := resolveAll_eq_ok hresolved
    have hmember : member ∈ members.filter fun member => !group.members.contains member :=
      hnames ▸ List.mem_map_of_mem hjoined
    exact .inl ⟨(List.mem_filter.1 hmember).1, hresolves _ hjoined⟩
  · rw [get?_foldl_erase] at hstays
    split at hstays
    · cases hstays
    · next hleaving =>
      refine .inr ⟨hstays, fun hold => ?_⟩
      simpa [hold] using hleaving

theorem reconfigure_consistent {change : MemberChange} (hgroup : group.Consistent)
    (hok : group.reconfigure members resolve = .ok (change, next)) : next.Consistent := by
  obtain ⟨hcheck, hmembers, _, _, hnodes⟩ := reconfigure_eq_ok hok
  obtain ⟨hunblank, hdistinct⟩ := GroupSettings.checkMembers_eq_ok_iff.1 hcheck
  refine ⟨hmembers ▸ hunblank, hmembers ▸ hdistinct, fun member node hfound => ?_⟩
  rw [hmembers]
  rcases hnodes member node hfound with ⟨hmember, _⟩ | ⟨hold, hstays⟩
  · exact hmember
  · exact hstays (hgroup.declared member node hold)

theorem reconfigure_named {change : MemberChange} (hgroup : group.Named)
    (hresolve : NamesMembers resolve)
    (hok : group.reconfigure members resolve = .ok (change, next)) : next.Named := by
  intro member node hfound
  obtain ⟨_, _, _, _, hnodes⟩ := reconfigure_eq_ok hok
  rcases hnodes member node hfound with ⟨_, hnode⟩ | ⟨hold, _⟩
  · exact hresolve member node hnode
  · exact hgroup member node hold

/-!
## Operations
-/

/-- Whether the nodes that an operation may attach carry the names of their members. -/
def Operation.NamesNodes : Operation → Prop
  | .attach name node => node.name = name
  | .reconfigure _ resolve => NamesMembers resolve
  | .activate _ | .elect _ => True

theorem perform_cases (group : FailoverGroup) (operation : Operation) :
    operation.perform group = group ∨ operation.attempt group = .ok (operation.perform group) := by
  unfold Operation.perform
  cases operation.attempt group with
  | error failure => exact Or.inl rfl
  | ok left => exact Or.inr rfl

theorem attempt_consistent (hgroup : group.Consistent)
    (hok : operation.attempt group = .ok next) : next.Consistent := by
  cases operation with
  | attach name node => exact attach_consistent hgroup hok
  | reconfigure members resolve =>
    rcases exists_of_map_snd hok with ⟨change, hchange⟩
    exact reconfigure_consistent hgroup hchange
  | activate name =>
    rw [activate_eq_ok hok]
    exact ⟨hgroup.unblank, hgroup.distinct, hgroup.declared⟩
  | elect failed =>
    rcases exists_of_map_snd hok with ⟨election, helected⟩
    rw [(elect_eq_ok helected).2.2.2.2]
    exact ⟨hgroup.unblank, hgroup.distinct, hgroup.declared⟩

theorem named_attempt (hnamed : group.Named) (hnames : operation.NamesNodes)
    (hok : operation.attempt group = .ok next) : next.Named := by
  cases operation with
  | attach name node => exact attach_named hnamed hnames hok
  | reconfigure members resolve =>
    rcases exists_of_map_snd hok with ⟨change, hchange⟩
    exact reconfigure_named hnamed hnames hchange
  | activate name =>
    rw [activate_eq_ok hok]
    exact hnamed
  | elect failed =>
    rcases exists_of_map_snd hok with ⟨election, helected⟩
    rw [(elect_eq_ok helected).2.2.2.2]
    exact hnamed

theorem perform_consistent (hgroup : group.Consistent) (operation : Operation) :
    (operation.perform group).Consistent := by
  rcases perform_cases group operation with hsame | hok
  · rw [hsame]
    exact hgroup
  · exact attempt_consistent hgroup hok

theorem named_perform (hnamed : group.Named) (hnames : operation.NamesNodes) :
    (operation.perform group).Named := by
  rcases perform_cases group operation with hsame | hok
  · rw [hsame]
    exact hnamed
  · exact named_attempt hnamed hnames hok

theorem ha_perform (group : FailoverGroup) (operation : Operation) :
    (operation.perform group).ha = group.ha := by
  rcases perform_cases group operation with hsame | hok
  · rw [hsame]
  · generalize operation.perform group = next at hok ⊢
    cases operation with
    | attach name node => rw [(attach_eq_ok hok).2]
    | reconfigure members resolve =>
      rcases exists_of_map_snd hok with ⟨change, hchange⟩
      exact (reconfigure_eq_ok hchange).2.2.2.1
    | activate name => rw [activate_eq_ok hok]
    | elect failed =>
      rcases exists_of_map_snd hok with ⟨election, helected⟩
      rw [(elect_eq_ok helected).2.2.2.2]

/-!
## A group of three
-/

def resident (name : String) : Node :=
  ⟨name, "localhost", 0, 0⟩

theorem namesMembers_resident : NamesMembers fun name => .ok (resident name) := by
  intro member node hnode
  cases hnode
  rfl

def trio : FailoverGroup where
  id := ⟨1⟩
  members := ["a", "b", "c"]
  nodes := ((SortedMap.insert ∅ "a" (resident "a")).insert "b" (resident "b")).insert "c"
    (resident "c")
  active := some "a"

theorem trio_consistent : trio.Consistent ∧ trio.Named := by
  have hconfig : ofConfig { id := ⟨1⟩, members := ["a", "b", "c"] }
      (fun name => .ok (resident name)) = .ok { trio with active := none } := rfl
  obtain ⟨hconsistent, hnamed⟩ := ofConfig_consistent namesMembers_resident hconfig
  have hactive : trio = Operation.perform { trio with active := none } (.activate "a") := rfl
  rw [hactive]
  exact ⟨perform_consistent hconsistent _, named_perform hnamed trivial⟩

end FailoverGroup
end SharedGraph
