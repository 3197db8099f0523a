import SharedGraph.Proofs.Failover.Completeness

/-!
# Who leads a group

The active is kept as a name, and elections, removals and nodes that are attached again all act on
names.  While nodes carry the names of their members, that name always belongs to an attached
member, so somebody leads exactly while a name is kept.  Elections are counted, and each takes the
first attached member that has not failed (`roles_of_run`).
-/

namespace SharedGraph
namespace FailoverGroup

variable {group next : FailoverGroup} {members : List String} {failed : String}
variable {resolve : String → Except Failure Node} {operation : Operation}

/-- Names tell the nodes of a group apart, and the active has one. -/
structure Led (group : FailoverGroup) : Prop where
  consistent : group.Consistent
  named : group.Named
  attached : ∀ name, group.active = some name → group.nodes.contains name = true

/-!
## The active
-/

theorem Led.active_eq (hled : group.Led) : group.active = group.activeNode?.map Node.name := by
  unfold activeNode?
  cases hactive : group.active with
  | none => rfl
  | some name =>
    rcases Option.isSome_iff_exists.1 (hled.attached name hactive) with ⟨node, hnode⟩
    rw [Option.bind_some, hnode, Option.map_some, hled.named name node hnode]

theorem Led.get?_activeNode {node : Node} (hled : group.Led)
    (hnode : group.activeNode? = some node) :
    node.name ∈ group.members ∧ group.nodes.get? node.name = some node := by
  rcases Option.bind_eq_some_iff.1 hnode with ⟨name, -, hfound⟩
  rw [hled.named name node hfound]
  exact ⟨hled.consistent.declared name node hfound, hfound⟩

theorem Led.active_eq_some_iff (hled : group.Led) {name : String} :
    group.active = some name ↔ ∃ node, group.activeNode? = some node ∧ node.name = name := by
  rw [hled.active_eq]
  exact Option.map_eq_some_iff

theorem led_of_made {config : GroupSettings}
    (hmade : create config = .ok group ∨
      ∃ resolve, NamesMembers resolve ∧ ofConfig config resolve = .ok group) :
    group.Led ∧ group.epoch = 0 := by
  have hcreated : ∀ {created}, create config = .ok created →
      created.active = none ∧ created.epoch = 0 := by
    intro created hcreate
    unfold create at hcreate
    cases hvalid : config.validate with
    | error failure =>
      rw [hvalid] at hcreate
      cases hcreate
    | ok _ =>
      rw [hvalid] at hcreate
      cases hcreate
      exact ⟨rfl, rfl⟩
  rcases hmade with hcreate | ⟨resolve, hnames, hconfig⟩
  · rcases create_consistent hcreate with ⟨hconsistent, hnamed⟩
    rcases hcreated hcreate with ⟨hactive, hepoch⟩
    refine ⟨⟨hconsistent, hnamed, ?_⟩, hepoch⟩
    intro name hsome
    rw [hactive] at hsome
    cases hsome
  · rcases ofConfig_consistent hnames hconfig with ⟨hconsistent, hnamed⟩
    rcases ofConfig_eq_ok hconfig with ⟨created, hcreate, hattached⟩
    have hidle : group.active = none ∧ group.epoch = 0 := by
      apply attachAll_induction (motive := fun group => group.active = none ∧ group.epoch = 0)
        (hcreated hcreate) _ hattached
      intro earlier later member node hearlier _ hattach
      rw [(attach_eq_ok hattach).2]
      exact hearlier
    refine ⟨⟨hconsistent, hnamed, ?_⟩, hidle.2⟩
    intro name hsome
    rw [hidle.1] at hsome
    cases hsome

theorem contains_of_activate {name : String} (hok : group.activate name = .ok next) :
    group.nodes.contains name = true := by
  unfold activate at hok
  by_cases hattached : group.nodes.contains name = true
  · exact hattached
  · rw [if_neg hattached] at hok
    cases hok

/-!
## Elections
-/

theorem successor?_eq_some {node : Node} (hsuccessor : group.successor? failed = some node) :
    ∃ before member after, group.members = before ++ member :: after ∧ member ≠ failed ∧
      group.nodes.get? member = some node ∧
      ∀ earlier ∈ before, earlier = failed ∨ group.nodes.contains earlier = false := by
  unfold successor? at hsuccessor
  rcases List.findSome?_eq_some_iff.1 hsuccessor with
    ⟨skipped, member, others, hcandidates, hnode, hskipped⟩
  rcases List.filter_eq_append_iff.1 hcandidates with ⟨before, rest, hmembers, hbefore, hrest⟩
  rcases List.filter_eq_cons_iff.1 hrest with ⟨failing, after, hsplit, hfailing, hother, -⟩
  refine ⟨before ++ failing, member, after, ?_, by simpa using hother, hnode, ?_⟩
  · rw [hmembers, hsplit, List.append_assoc]
  · intro earlier hearlier
    rcases List.mem_append.1 hearlier with hfirst | hlater
    · by_cases hfailed : earlier = failed
      · exact Or.inl hfailed
      · have hlisted : earlier ∈ skipped := by
          rw [← hbefore]
          exact List.mem_filter.2 ⟨hfirst, by simpa using hfailed⟩
        exact Or.inr (by rw [SortedMap.contains, hskipped earlier hlisted]; rfl)
    · exact Or.inl (by simpa using hfailing earlier hlater)

theorem successor?_isSome_iff : (group.successor? failed).isSome = true ↔
    ∃ member ∈ group.members, member ≠ failed ∧ group.nodes.contains member = true := by
  unfold successor? SortedMap.contains
  rw [List.findSome?_isSome_iff]
  simp only [List.mem_filter, bne_iff_ne, and_assoc]

theorem elect_isOk_iff : (group.elect failed).isOk = true ↔
    (∀ active, group.active = some active → active = failed) ∧
      ∃ member ∈ group.members, member ≠ failed ∧ group.nodes.contains member = true := by
  rw [← successor?_isSome_iff]
  have hchoose : (elect.choose group failed).isOk = (group.successor? failed).isSome := by
    unfold elect.choose
    cases group.successor? failed <;> rfl
  unfold elect
  cases group.active with
  | none => simp [hchoose]
  | some active =>
    by_cases hsame : active = failed
    · simp [hsame, hchoose]
    · simp [hsame, Except.isOk, Except.toBool]

/-!
## Steps
-/

theorem get?_foldl_insert_of_not_mem {entries : List (String × Node)} {member : String}
    (hmissing : member ∉ entries.map Prod.fst) (nodes : SortedMap String Node) :
    (entries.foldl (fun nodes entry => nodes.insert entry.1 entry.2) nodes).get? member =
      nodes.get? member := by
  induction entries generalizing nodes with
  | nil => rfl
  | cons entry rest ih =>
    rw [List.map_cons, List.mem_cons, not_or] at hmissing
    rw [List.foldl_cons, ih hmissing.2, SortedMap.get?_insert_of_ne _ _ hmissing.1]

theorem get?_reconfigure {change : MemberChange}
    (hok : group.reconfigure members resolve = .ok (change, next)) {member : String}
    (hold : member ∈ group.members) (hstays : member ∈ members) :
    next.nodes.get? member = group.nodes.get? member := by
  rcases reconfigure_cases hok with ⟨-, joining, hresolved, active, rfl⟩
  dsimp only
  rw [get?_foldl_insert_of_not_mem, get?_foldl_erase, if_neg]
  · simp [hstays]
  · rw [(resolveAll_eq_ok hresolved).1]
    simp [hold]

theorem active_reconfigure {change : MemberChange} (hled : group.Led)
    (hok : group.reconfigure members resolve = .ok (change, next)) :
    next.active = group.active.filter fun name => members.contains name := by
  rcases reconfigure_outcome hok with ⟨-, joining, -, -, rfl⟩
  dsimp only
  cases hactive : group.active with
  | none => rfl
  | some name =>
    rcases Option.isSome_iff_exists.1 (hled.attached name hactive) with ⟨node, hnode⟩
    have hmember := hled.consistent.declared name node hnode
    by_cases hstays : name ∈ members
    · simp [Option.filter_some, hstays]
    · simp [Option.filter_some, hstays, hmember]

theorem led_attempt (hled : group.Led) (hnames : operation.NamesNodes)
    (hok : operation.attempt group = .ok next) : next.Led := by
  have hconsistent := attempt_consistent hled.consistent hok
  have hnamed := named_attempt hled.named hnames hok
  refine ⟨hconsistent, hnamed, ?_⟩
  cases operation with
  | attach name node =>
    rw [(attach_eq_ok hok).2]
    intro active hactive
    exact (SortedMap.contains_insert group.nodes name node active).2
      (Or.inr (hled.attached active hactive))
  | reconfigure members resolve =>
    rcases exists_of_map_snd hok with ⟨change, hchange⟩
    intro active hactive
    rw [active_reconfigure hled hchange, Option.filter_eq_some_iff] at hactive
    rcases hactive with ⟨hold, hstays⟩
    have hattached := hled.attached active hold
    rcases Option.isSome_iff_exists.1 hattached with ⟨node, hnode⟩
    have hmember := hled.consistent.declared active node hnode
    rw [SortedMap.contains, get?_reconfigure hchange hmember (List.contains_iff_mem.1 hstays)]
    exact hattached
  | activate name =>
    intro active hactive
    have hattached : group.nodes.contains name = true := contains_of_activate hok
    rw [activate_eq_ok hok] at hactive
    cases hactive
    rw [activate_eq_ok hok]
    exact hattached
  | elect failed =>
    rcases exists_of_map_snd hok with ⟨election, helected⟩
    rcases elect_eq_ok helected with ⟨-, hsuccessor, -, -, rfl⟩
    rcases successor?_eq_some hsuccessor with ⟨before, member, after, -, -, hnode, -⟩
    rintro active ⟨⟩
    show (group.nodes.get? election.active.name).isSome = true
    rw [hled.named member election.active hnode, hnode]
    rfl

theorem led_perform (hled : group.Led) (hnames : operation.NamesNodes) :
    (operation.perform group).Led := by
  rcases perform_cases group operation with hsame | hok
  · rw [hsame]
    exact hled
  · exact led_attempt hled hnames hok

theorem led_run {operations : List Operation} (hled : group.Led)
    (hnames : ∀ operation ∈ operations, operation.NamesNodes) :
    (operations.foldl Operation.perform group).Led := by
  induction operations generalizing group with
  | nil => exact hled
  | cons operation rest ih =>
    rw [List.forall_mem_cons] at hnames
    exact ih (led_perform hled hnames.1) hnames.2

/-!
## Counting elections
-/

def Operation.elects (group : FailoverGroup) : Operation → Bool
  | .elect failed => (group.elect failed).isOk
  | .attach .. | .reconfigure .. | .activate _ => false

def elections : List Operation → FailoverGroup → Nat
  | [], _ => 0
  | operation :: rest, group =>
    (if operation.elects group then 1 else 0) + elections rest (operation.perform group)

theorem epoch_perform (group : FailoverGroup) (operation : Operation) :
    (operation.perform group).epoch = group.epoch + if operation.elects group then 1 else 0 := by
  unfold Operation.perform
  cases hattempt : operation.attempt group with
  | error failure =>
    cases operation with
    | elect failed =>
      change (group.elect failed).map Prod.snd = .error failure at hattempt
      rw [Operation.elects]
      cases helect : group.elect failed with
      | error reason => rfl
      | ok result =>
        rw [helect] at hattempt
        cases hattempt
    | attach name node | reconfigure members resolve | activate name => rfl
  | ok next =>
    cases operation with
    | attach name node =>
      rw [(attach_eq_ok hattempt).2]
      rfl
    | reconfigure members resolve =>
      rcases exists_of_map_snd hattempt with ⟨change, hchange⟩
      rcases reconfigure_cases hchange with ⟨-, joining, -, active, rfl⟩
      rfl
    | activate name =>
      rw [activate_eq_ok hattempt]
      rfl
    | elect failed =>
      rcases exists_of_map_snd hattempt with ⟨election, helected⟩
      rw [Operation.elects, helected, (elect_eq_ok helected).2.2.2.2]
      rfl

theorem epoch_run (operations : List Operation) (group : FailoverGroup) :
    (operations.foldl Operation.perform group).epoch =
      group.epoch + elections operations group := by
  induction operations generalizing group with
  | nil => rfl
  | cons operation rest ih =>
    rw [List.foldl_cons, ih, epoch_perform, elections, Nat.add_assoc]

/-!
## Roles
-/

theorem filter_filterMap_name {lookup : String → Option Node} (keeps : String → Bool)
    (hnames : ∀ member ∈ members, ∀ node, lookup member = some node → node.name = member) :
    (members.filterMap lookup).filter (fun node => keeps node.name) =
      (members.filter keeps).filterMap lookup := by
  induction members with
  | nil => rfl
  | cons member rest ih =>
    rw [List.forall_mem_cons] at hnames
    have hrest := ih hnames.2
    cases hfound : lookup member with
    | none =>
      rw [List.filterMap_cons_none hfound, hrest, List.filter_cons]
      split
      · rw [List.filterMap_cons_none hfound]
      · rfl
    | some node =>
      have hname := hnames.1 node hfound
      rw [List.filterMap_cons_some hfound, List.filter_cons, List.filter_cons, hname, hrest]
      split
      · rw [List.filterMap_cons_some hfound]
      · rfl

theorem Led.passives_eq (hled : group.Led) (hcomplete : group.Complete) :
    ∃ nodes, group.passives = .ok nodes ∧ nodes.map some =
      (group.members.filter fun member => group.active != some member).map group.nodes.get? := by
  refine ⟨_, passives_of_complete hled.consistent hcomplete, ?_⟩
  unfold FailoverGroup.attached
  rw [filter_filterMap_name (fun name => group.active != some name)
    fun member _ node hnode => hled.named member node hnode]
  apply map_some_filterMap
  intro member hmember
  exact hcomplete member (List.mem_filter.1 hmember).1

theorem hasPassive_iff_of_complete (hgroup : group.Consistent) (hnamed : group.Named)
    (hcomplete : group.Complete) {name : String} :
    group.hasPassive name = true ↔ name ∈ group.members ∧ group.active ≠ some name := by
  rw [hasPassive_iff (passives_of_complete hgroup hcomplete)]
  simp only [attached, List.mem_map, List.mem_filter, List.mem_filterMap, bne_iff_ne]
  constructor
  · rintro ⟨node, ⟨⟨member, hmember, hnode⟩, hother⟩, rfl⟩
    rw [hnamed member node hnode] at hother ⊢
    exact ⟨hmember, hother⟩
  · rintro ⟨hmember, hother⟩
    rcases Option.isSome_iff_exists.1 (hcomplete name hmember) with ⟨node, hnode⟩
    have hname := hnamed name node hnode
    exact ⟨node, ⟨⟨name, hmember, hnode⟩, hname.symm ▸ hother⟩, hname⟩

theorem complete_of_hasPassive (hgroup : group.Consistent) {name : String}
    (hpassive : group.hasPassive name = true) : group.Complete := by
  rw [← size_eq_length_iff hgroup]
  by_contra hsize
  rw [hasPassive, passives, requireComplete, if_neg hsize] at hpassive
  cases hpassive

theorem active_ne_of_hasPassive {name : String} (hpassive : group.hasPassive name = true) :
    group.active ≠ some name := by
  unfold hasPassive at hpassive
  cases hpassives : group.passives with
  | error failure => simp [hpassives] at hpassive
  | ok nodes =>
    simp only [hpassives, List.any_eq_true, beq_iff_eq] at hpassive
    rcases hpassive with ⟨node, hlisted, rfl⟩
    rw [passives_eq_ok hpassives] at hlisted
    simpa using (List.mem_filter.1 hlisted).2

/-- What a successful election says and does: the first attached member that has not failed takes
over, and all others are its passives. -/
structure Elected (group : FailoverGroup) (failed : String) (election : Election)
    (next : FailoverGroup) : Prop where
  first : ∃ before member after, group.members = before ++ member :: after ∧ member ≠ failed ∧
    group.nodes.get? member = some election.active ∧
    ∀ earlier ∈ before, earlier = failed ∨ group.nodes.contains earlier = false
  leads : next.activeNode? = some election.active
  previous : election.previous = group.activeNode?.map Node.name
  counted : election.epoch = next.epoch
  others : group.Complete → ∃ nodes, next.passives = .ok nodes ∧ nodes.map some =
    (group.members.filter fun member => member != election.active.name).map group.nodes.get?

theorem Led.elected {election : Election} (hled : group.Led)
    (hok : group.elect failed = .ok (election, next)) : Elected group failed election next := by
  rcases elect_eq_ok hok with ⟨-, hsuccessor, hprevious, hepoch, hnext⟩
  have hfirst := successor?_eq_some hsuccessor
  have hattempt : (Operation.elect failed).attempt group = .ok next := by
    change (group.elect failed).map Prod.snd = .ok next
    rw [hok]
    rfl
  have hnames : (Operation.elect failed).NamesNodes := trivial
  have hnextLed : next.Led := led_attempt hled hnames hattempt
  constructor
  case first => exact hfirst
  case leads =>
    have hactive : next.active = some election.active.name := by rw [hnext]
    rcases hnextLed.active_eq_some_iff.1 hactive with ⟨node, hnode, hname⟩
    rcases hfirst with ⟨before, member, after, -, -, hfound, -⟩
    have hown := (hnextLed.get?_activeNode hnode).2
    rw [hname, hnext, hled.named member election.active hfound, hfound] at hown
    cases hown
    exact hnode
  case previous => exact hprevious.trans hled.active_eq
  case counted => rw [hepoch, hnext]
  case others =>
    intro hcomplete
    rcases hnextLed.passives_eq (attempt_complete hcomplete hattempt) with ⟨nodes, hnodes, hall⟩
    refine ⟨nodes, hnodes, hall.trans ?_⟩
    rw [hnext]
    refine congrArg (List.map group.nodes.get?) (List.filter_congr ?_)
    intro member _
    simp [bne, eq_comm]

theorem Led.activeNode?_reconfigure {change : MemberChange} (hled : group.Led)
    (hok : group.reconfigure members resolve = .ok (change, next)) :
    next.activeNode? = none ↔
      ∀ node, group.activeNode? = some node → node.name ∉ members := by
  have hactive := active_reconfigure hled hok
  cases hnode : group.activeNode? with
  | none =>
    have hnone : next.active = none := by
      rw [hactive, hled.active_eq, hnode]
      rfl
    rw [activeNode?, hnone]
    exact iff_of_true rfl nofun
  | some node =>
    rcases hled.get?_activeNode hnode with ⟨hmember, hfound⟩
    rw [hled.active_eq, hnode, Option.map_some, Option.filter_some] at hactive
    rw [activeNode?, hactive]
    by_cases hstays : node.name ∈ members
    · have hkept := get?_reconfigure hok hmember hstays
      simp [hstays, hkept, hfound]
    · simp [hstays]

/-- Whatever is done to a group whose nodes carry the names of their members: the name that it
keeps is that of an attached member, which a reconfiguration takes away only with its name; the
epoch counts the elections; one succeeds exactly if nobody else leads and another member has a
node, with the outcome that `Elected` states; and what fails changes nothing. -/
theorem roles_of_run {config : GroupSettings} {operations : List Operation}
    (hmade : create config = .ok group ∨
      ∃ resolve, NamesMembers resolve ∧ ofConfig config resolve = .ok group)
    (hnames : ∀ operation ∈ operations, operation.NamesNodes) :
    let reached := operations.foldl Operation.perform group
    reached.active = reached.activeNode?.map Node.name ∧
      (∀ node, reached.activeNode? = some node →
        node.name ∈ reached.members ∧ reached.nodes.get? node.name = some node) ∧
      (∀ members resolve change next, reached.reconfigure members resolve = .ok (change, next) →
        (next.activeNode? = none ↔
          ∀ node, reached.activeNode? = some node → node.name ∉ members)) ∧
      reached.epoch = elections operations group ∧
      (∀ failed, (reached.elect failed).isOk = true ↔
        (∀ node, reached.activeNode? = some node → node.name = failed) ∧
          ∃ member ∈ reached.members, member ≠ failed ∧ reached.nodes.contains member = true) ∧
      (∀ failed election next, reached.elect failed = .ok (election, next) →
        Elected reached failed election next) ∧
      ∀ (operation : Operation) failure, operation.attempt reached = .error failure →
        operation.perform reached = reached := by
  intro reached
  rcases led_of_made hmade with ⟨hled, hepoch⟩
  have hreached : reached.Led := led_run hled hnames
  refine ⟨hreached.active_eq, ?_, ?_, ?_, ?_, ?_, ?_⟩
  · exact fun node hnode => hreached.get?_activeNode hnode
  · exact fun members resolve change next hok => hreached.activeNode?_reconfigure hok
  · rw [epoch_run, hepoch, Nat.zero_add]
  · intro failed
    rw [elect_isOk_iff]
    simp only [hreached.active_eq_some_iff, forall_exists_index, and_imp]
    constructor
    · rintro ⟨hactive, hother⟩
      exact ⟨fun node hnode => hactive node.name node hnode rfl, hother⟩
    · rintro ⟨hactive, hother⟩
      refine ⟨?_, hother⟩
      rintro name node hnode rfl
      exact hactive node hnode
  · exact fun failed election next hok => hreached.elected hok
  · intro operation failure hfails
    unfold Operation.perform
    rw [hfails]
    rfl

theorem moves_namesNodes : ∀ operation ∈ moves, operation.NamesNodes := by
  unfold moves
  simp only [List.forall_mem_cons]
  exact ⟨rfl, rfl, rfl, trivial, namesMembers_resident, namesMembers_resident, trivial, rfl, nofun⟩

/-- The active leaves with its name, so anybody may be reported as failed, and the first member with
a node is elected; later the member before it gets its node and is next. -/
theorem roles_after_moves :
    let reached := moves.foldl Operation.perform { id := ⟨1⟩, members := ["a", "b", "c"] }
    (∀ operation ∈ moves, operation.NamesNodes) ∧ reached.epoch = 1 ∧
      (reached.elect "a").isOk = false ∧
      ∃ election next, reached.elect "b" = .ok (election, next) ∧
        Elected reached "b" election next ∧ election.active = resident "c" := by
  intro reached
  have hcreate : create { id := ⟨1⟩, members := ["a", "b", "c"] } =
      .ok { id := ⟨1⟩, members := ["a", "b", "c"] } := rfl
  have hleads : reached.activeNode? = some (resident "b") := rfl
  rcases roles_of_run (Or.inl hcreate) moves_namesNodes with
    ⟨-, -, -, hepoch, hsucceeds, helected, -⟩
  refine ⟨moves_namesNodes, hepoch, ?_, _, _, rfl, helected "b" _ _ rfl, rfl⟩
  rw [Bool.eq_false_iff]
  intro hok
  have hname := ((hsucceeds "a").1 hok).1 (resident "b") hleads
  exact absurd hname (by decide)

end FailoverGroup
end SharedGraph
