import SharedGraph.Proofs.Failover.Roles

/-!
# What a reconfiguration changes

A reconfiguration compares two lists of members.  It fails exactly if the new list is no valid list
of members or a newcomer cannot be resolved, and all of that is found out before anything changes.
Otherwise newcomers are attached and those that leave are detached, each reported in its list's
order, and everything else is left alone (`reconfiguration_of_run`).
-/

namespace SharedGraph
namespace FailoverGroup

variable {group next : FailoverGroup} {members : List String} {change : MemberChange}
variable {resolve : String → Except Failure Node}

/-!
## Refusals
-/

theorem resolveAll_cases (resolve : String → Except Failure Node) (members : List String) :
    (∃ entries, resolveAll resolve members = .ok entries) ∨
      (∃ failure, resolveAll resolve members = .error failure) ∧
        ∃ member ∈ members, ∃ failure, resolve member = .error failure := by
  induction members with
  | nil => exact Or.inl ⟨[], rfl⟩
  | cons member rest ih =>
    rw [resolveAll]
    cases hnode : resolve member with
    | error failure => exact Or.inr ⟨⟨failure, rfl⟩, member, List.mem_cons_self, failure, hnode⟩
    | ok node =>
      rcases ih with ⟨entries, hrest⟩ | ⟨⟨failure, hrest⟩, other, hother, hfails⟩
      · exact Or.inl ⟨(member, node) :: entries, by rw [hrest]; rfl⟩
      · exact Or.inr ⟨⟨failure, by rw [hrest]; rfl⟩, other, List.mem_cons_of_mem _ hother, hfails⟩

theorem resolveAll_eq_error_iff : (∃ failure, resolveAll resolve members = .error failure) ↔
    ∃ member ∈ members, ∃ failure, resolve member = .error failure := by
  rcases resolveAll_cases resolve members with ⟨entries, hok⟩ | ⟨hfailed, hmember⟩
  · rcases resolveAll_eq_ok hok with ⟨hnames, hnodes⟩
    constructor
    · rintro ⟨failure, herror⟩
      rw [hok] at herror
      cases herror
    · rintro ⟨member, hmember, failure, herror⟩
      rw [← hnames] at hmember
      rcases List.mem_map.1 hmember with ⟨entry, hentry, rfl⟩
      rw [hnodes entry hentry] at herror
      cases herror
  · exact iff_of_true hfailed hmember

theorem checkMembers_eq_error_iff :
    (∃ failure, GroupSettings.checkMembers members = .error failure) ↔
      (∃ member ∈ members, Text.blank member = true) ∨ ¬members.Nodup := by
  have hnegated : (¬GroupSettings.checkMembers members = .ok ()) ↔
      (∃ member ∈ members, Text.blank member = true) ∨ ¬members.Nodup := by
    rw [GroupSettings.checkMembers_eq_ok_iff, not_and_or]
    simp
  rw [← hnegated]
  cases GroupSettings.checkMembers members with
  | error failure => simp
  | ok _ => simp

theorem reconfigure_eq_error_iff : (∃ failure, group.reconfigure members resolve = .error failure) ↔
    (∃ member ∈ members, Text.blank member = true) ∨ ¬members.Nodup ∨
      ∃ member ∈ members, member ∉ group.members ∧ ∃ failure, resolve member = .error failure := by
  have hnewcomers : (∃ member ∈ members.filter fun member => !group.members.contains member,
      ∃ failure, resolve member = .error failure) ↔
      ∃ member ∈ members, member ∉ group.members ∧ ∃ failure, resolve member = .error failure := by
    simp [and_assoc]
  rw [← or_assoc, ← checkMembers_eq_error_iff, ← hnewcomers, ← resolveAll_eq_error_iff]
  unfold reconfigure
  cases GroupSettings.checkMembers members with
  | error failure => simp
  | ok _ =>
    cases resolveAll resolve (members.filter fun member => !group.members.contains member) with
    | error failure => simp
    | ok joining => simp

/-!
## Changes
-/

structure Reconfigured (group : FailoverGroup) (members : List String)
    (resolve : String → Except Failure Node) (change : MemberChange) (next : FailoverGroup) :
    Prop where
  members_eq : next.members = members
  added : change.added.map .ok = (members.filter fun member => !group.members.contains member).map
    resolve
  removed : change.removed =
    (group.members.filter fun member => !members.contains member).filterMap group.nodes.get?
  joined : ∀ member ∈ members, member ∉ group.members →
    ∃ node, resolve member = .ok node ∧ next.nodes.get? member = some node
  left : ∀ member ∈ group.members, member ∉ members → next.nodes.get? member = none
  stayed : ∀ name, (name ∈ group.members ↔ name ∈ members) →
    next.nodes.get? name = group.nodes.get? name
  cleared : ∀ name ∈ group.members, name ∉ members → group.active = some name → next.active = none
  kept : (∀ name ∈ group.members, group.active = some name → name ∈ members) →
    next.active = group.active
  epoch : next.epoch = group.epoch
  settings : next.id = group.id ∧ next.ha = group.ha

theorem map_ok_snd_of_resolveAll {entries : List (String × Node)}
    (hok : resolveAll resolve members = .ok entries) :
    (entries.map Prod.snd).map .ok = members.map resolve := by
  rcases resolveAll_eq_ok hok with ⟨hnames, hnodes⟩
  rw [← hnames, List.map_map, List.map_map]
  apply List.map_congr_left
  intro entry hentry
  exact (hnodes entry hentry).symm

theorem reconfigured_of_ok (hgroup : group.Consistent)
    (hok : group.reconfigure members resolve = .ok (change, next)) :
    Reconfigured group members resolve change next := by
  have hattached := (reconfigure_eq_ok hok).2.2.2.2
  have hnext := reconfigure_consistent hgroup hok
  rcases reconfigure_outcome hok with ⟨-, joining, hresolved, hreported, hleft⟩
  constructor
  case members_eq => rw [hleft]
  case added =>
    rw [hreported]
    exact map_ok_snd_of_resolveAll hresolved
  case removed => rw [hreported]
  case joined =>
    intro member hmember hnew
    have hcontains := (contains_reconfigure hok hmember).2 (Or.inl hnew)
    rcases Option.isSome_iff_exists.1 hcontains with ⟨node, hnode⟩
    rcases hattached member node hnode with ⟨-, hresolves⟩ | ⟨hold, -⟩
    · exact ⟨node, hresolves, hnode⟩
    · exact absurd (hgroup.declared member node hold) hnew
  case left =>
    intro member _ hgone
    cases hnode : next.nodes.get? member with
    | none => rfl
    | some node =>
      have hmember := hnext.declared member node hnode
      rw [(reconfigure_eq_ok hok).2.1] at hmember
      exact absurd hmember hgone
  case stayed =>
    -- A name that is on both lists, or on neither, is neither erased nor inserted.
    intro name hsame
    by_cases hold : name ∈ group.members
    · exact get?_reconfigure hok hold (hsame.1 hold)
    · have hmissing : name ∉ joining.map Prod.fst := by
        rw [(resolveAll_eq_ok hresolved).1]
        simp [hold, mt hsame.2 hold]
      rw [hleft]
      dsimp only
      rw [get?_foldl_insert_of_not_mem hmissing, get?_foldl_erase, if_neg (by simp [hold])]
  case cleared =>
    intro name hold hgone hactive
    rw [hleft]
    simp [hactive, Option.filter_some, hold, hgone]
  case kept =>
    intro hstays
    rw [hleft]
    dsimp only
    cases hactive : group.active with
    | none => rfl
    | some name =>
      have hleaving : name ∉ group.members ∨ name ∈ members := by
        by_cases hold : name ∈ group.members
        · exact Or.inr (hstays name hold hactive)
        · exact Or.inl hold
      rcases hleaving with hold | hstay
      · simp [Option.filter_some, hold]
      · simp [Option.filter_some, hstay]
  case epoch => rw [hleft]
  case settings =>
    rw [hleft]
    exact ⟨rfl, rfl⟩

/-- Whatever was done to a group before: a reconfiguration fails exactly if the new list has a blank
or repeated member or a newcomer cannot be resolved, and then changes nothing; otherwise it leaves
and reports what `Reconfigured` states. -/
theorem reconfiguration_of_run {config : GroupSettings}
    (hmade : create config = .ok group ∨ ∃ resolve, ofConfig config resolve = .ok group)
    (operations : List Operation) (members : List String)
    (resolve : String → Except Failure Node) :
    let reached := operations.foldl Operation.perform group
    let reconfigured := (Operation.reconfigure members resolve).perform reached
    ((∃ failure, reached.reconfigure members resolve = .error failure) ↔
      (∃ member ∈ members, Text.blank member = true) ∨ ¬members.Nodup ∨
        ∃ member ∈ members, member ∉ reached.members ∧
          ∃ failure, resolve member = .error failure) ∧
      (∀ failure, reached.reconfigure members resolve = .error failure →
        reconfigured = reached) ∧
      ∀ change next, reached.reconfigure members resolve = .ok (change, next) →
        reconfigured = next ∧ Reconfigured reached members resolve change next := by
  intro reached reconfigured
  have hreached : reached.Consistent := run_consistent (consistent_of_made hmade) operations
  refine ⟨reconfigure_eq_error_iff, ?_, ?_⟩
  · intro failure herror
    change ((reached.reconfigure members resolve).map Prod.snd).toOption.getD reached = reached
    rw [herror]
    rfl
  · intro change next hok
    refine ⟨?_, reconfigured_of_ok hreached hok⟩
    change ((reached.reconfigure members resolve).map Prod.snd).toOption.getD reached = next
    rw [hok]
    rfl

/-- Two members, of which the second leads, are left of a group: then a blank name is refused, and
the first member makes room for a newcomer. -/
theorem reconfiguration_after_moves :
    let reached := moves.foldl Operation.perform { id := ⟨1⟩, members := ["a", "b", "c"] }
    (∃ failure, reached.reconfigure ["e", "", "b"] (fun name => .ok (resident name)) =
      .error failure) ∧
      ∃ change next, reached.reconfigure ["e", "b"] (fun name => .ok (resident name)) =
          .ok (change, next) ∧
        Reconfigured reached ["e", "b"] (fun name => .ok (resident name)) change next ∧
        change = ⟨[resident "e"], [resident "c"]⟩ ∧ next.active = some "b" := by
  intro reached
  have hcreate : create { id := ⟨1⟩, members := ["a", "b", "c"] } =
      .ok { id := ⟨1⟩, members := ["a", "b", "c"] } := rfl
  have hrun := fun members => reconfiguration_of_run (Or.inl hcreate) moves members
    fun name => .ok (resident name)
  constructor
  · have hblank : ∃ member ∈ ["e", "", "b"], Text.blank member = true :=
      ⟨"", by simp, Text.blank_empty⟩
    exact (hrun ["e", "", "b"]).1.2 (Or.inl hblank)
  · exact ⟨_, _, rfl, ((hrun ["e", "b"]).2.2 _ _ rfl).2, rfl, rfl⟩

end FailoverGroup
end SharedGraph
