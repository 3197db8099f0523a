import SharedGraph.Failover.Topology

/-!
# Failover groups

A group has declared members, a node attached for each of them, and at most one active.
Reconfiguration resolves every newcomer before it changes anything.  An election takes
the first attached member in declared order and counts up the epoch.
-/

namespace SharedGraph

structure MemberChange where
  added : List Node := []
  removed : List Node := []
deriving DecidableEq, Inhabited

namespace MemberChange

def isEmpty (change : MemberChange) : Bool :=
  change.added.isEmpty && change.removed.isEmpty

end MemberChange

structure Election where
  previous : Option String
  active : Node
  epoch : Nat
deriving DecidableEq, Inhabited

structure FailoverGroup where
  id : GroupId
  ha : FailoverSettings := {}
  members : List String
  /-- The node attached for each member, by the member's name. -/
  nodes : SortedMap String Node := ∅
  /-- The name under which the active is known. -/
  active : Option String := none
  /-- How many elections there have been.  In a running group the epoch is 64 bits wide; it counts
  single elections from zero, so no run is long enough to wrap it around. -/
  epoch : Nat := 0
deriving DecidableEq

namespace FailoverGroup

def create (config : GroupSettings) : Except Failure FailoverGroup :=
  config.validate.map fun _ => { id := config.id, ha := config.ha, members := config.members }

/-- Whether committed transactions are relayed to the passives. -/
def isNetworked (group : FailoverGroup) : Bool :=
  group.ha.mode == .networked

def same (first second : FailoverGroup) : Bool :=
  first.id == second.id

/-! ## Nodes -/

def declares (group : FailoverGroup) (name : String) : Bool :=
  group.members.contains name

def attach (group : FailoverGroup) (name : String) (node : Node) : Except Failure FailoverGroup :=
  if group.declares name then .ok { group with nodes := group.nodes.insert name node }
  else .error (.notMember name group.id)

def attachAll (resolve : String → Except Failure Node) :
    List String → FailoverGroup → Except Failure FailoverGroup
  | [], group => .ok group
  | member :: rest, group =>
    match resolve member with
    | .error failure => .error failure
    | .ok node =>
      match group.attach member node with
      | .error failure => .error failure
      | .ok group => attachAll resolve rest group

def ofConfig (config : GroupSettings) (resolve : String → Except Failure Node) :
    Except Failure FailoverGroup :=
  match create config with
  | .error failure => .error failure
  | .ok group => attachAll resolve config.members group

def attached (group : FailoverGroup) : List Node :=
  group.members.filterMap group.nodes.get?

/-- Fails unless there are as many nodes as members. -/
def requireComplete (group : FailoverGroup) : Except Failure Unit :=
  if group.nodes.size = group.members.length then .ok ()
  else .error (.incompleteMembership group.members group.nodes.keys)

/-- The attached nodes in declared order; `strict` asks for one per member. -/
def listNodes (group : FailoverGroup) (strict : Bool) : Except Failure (List Node) :=
  if strict then group.requireComplete.map fun _ => group.attached else .ok group.attached

/-! ## Roles -/

def activate (group : FailoverGroup) (name : String) : Except Failure FailoverGroup :=
  if group.nodes.contains name then .ok { group with active := some name }
  else .error (.noNodeToActivate name group.id)

def activeNode? (group : FailoverGroup) : Option Node :=
  group.active.bind group.nodes.get?

/-- The attached nodes other than the active, in declared order. -/
def passives (group : FailoverGroup) : Except Failure (List Node) :=
  group.requireComplete.map fun _ =>
    group.attached.filter fun node => group.active != some node.name

def successor? (group : FailoverGroup) (failed : String) : Option Node :=
  (group.members.filter (· != failed)).findSome? group.nodes.get?

/-- Elects the first attached member other than `failed`, which must be the active if
there is one. -/
def elect (group : FailoverGroup) (failed : String) :
    Except Failure (Election × FailoverGroup) :=
  match group.active with
  | some active =>
    if active = failed then choose else .error (.notTheActive group.id failed active)
  | none => choose
where
  choose : Except Failure (Election × FailoverGroup) :=
    match group.successor? failed with
    | none => .error (.nothingToPromote group.id failed)
    | some node =>
      .ok (⟨group.active, node, group.epoch + 1⟩,
        { group with active := some node.name, epoch := group.epoch + 1 })

/-! ## Reconfiguration -/

def resolveAll (resolve : String → Except Failure Node) :
    List String → Except Failure (List (String × Node))
  | [] => .ok []
  | member :: rest =>
    match resolve member with
    | .error failure => .error failure
    | .ok node => (resolveAll resolve rest).map fun others => (member, node) :: others

/-- Replaces the declared members: detaches those that leave and attaches the newcomers. -/
def reconfigure (group : FailoverGroup) (members : List String)
    (resolve : String → Except Failure Node) : Except Failure (MemberChange × FailoverGroup) :=
  match GroupSettings.checkMembers members with
  | .error failure => .error failure
  | .ok () =>
    match resolveAll resolve (members.filter fun member => !group.members.contains member) with
    | .error failure => .error failure
    | .ok joining =>
      let leaving := group.members.filter fun member => !members.contains member
      let staying := leaving.foldl SortedMap.erase group.nodes
      let change : MemberChange :=
        ⟨joining.map Prod.snd, leaving.filterMap group.nodes.get?⟩
      .ok (change,
        { group with
          members
          nodes := joining.foldl (fun nodes entry => nodes.insert entry.1 entry.2) staying
          active := group.active.filter fun name => !leaving.contains name })

/-! ## Operations -/

/-- Anything that is done to a group. -/
inductive Operation where
  | attach (name : String) (node : Node)
  | reconfigure (members : List String) (resolve : String → Except Failure Node)
  | activate (name : String)
  | elect (failed : String)

def Operation.attempt (group : FailoverGroup) : Operation → Except Failure FailoverGroup
  | .attach name node => group.attach name node
  | .reconfigure members resolve => (group.reconfigure members resolve).map Prod.snd
  | .activate name => group.activate name
  | .elect failed => (group.elect failed).map Prod.snd

/-- The group after an operation, which is as it was if that fails. -/
def Operation.perform (group : FailoverGroup) (operation : Operation) : FailoverGroup :=
  (operation.attempt group).toOption.getD group

end FailoverGroup
end SharedGraph
