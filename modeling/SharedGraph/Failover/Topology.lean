import SharedGraph.Data.Duration
import SharedGraph.Data.SortedMap
import SharedGraph.Failure
import SharedGraph.Text.Blank

/-!
# Cluster configuration

A topology lists server groups and the address of every server.  It is valid when every
group is, no group or member occurs twice, and every member has an address.  What comes
first in the configuration is reported first.
-/

namespace SharedGraph

/-- How the passives of a group keep up with the active. -/
inductive FailoverMode where
  /-- They share its disk. -/
  | diskBased
  /-- They receive every committed transaction over the network. -/
  | networked
deriving DecidableEq, Inhabited

structure FailoverSettings where
  mode : FailoverMode := .networked
  /-- How long an election may run before it is started again. -/
  electionSeconds : UInt64 := 5
deriving DecidableEq, Inhabited

structure Node where
  name : String
  host : String
  /-- Where clients connect. -/
  port : UInt16
  /-- Where other servers connect. -/
  groupPort : UInt16
deriving DecidableEq, Inhabited

namespace Node

def text (node : Node) : String :=
  s!"Node\x7b{node.name}@{node.host}:{node.groupPort.toNat}\x7d"

end Node

structure GroupSettings where
  id : GroupId
  members : List String
  ha : FailoverSettings := {}
deriving DecidableEq, Inhabited

namespace GroupSettings

def withMode (config : GroupSettings) (mode : FailoverMode) : GroupSettings :=
  { config with ha := { config.ha with mode } }

/-- The configuration with another election time, of which whole seconds count. -/
def withElectionTime (config : GroupSettings) (time : Duration) : GroupSettings :=
  { config with ha := { config.ha with electionSeconds := time.seconds } }

def checkMembersAfter (seen : List String) : List String → Except Failure Unit
  | [] => .ok ()
  | member :: rest =>
    if Text.blank member then .error .blankMember
    else if member ∈ seen then .error (.repeatedMember member)
    else checkMembersAfter (member :: seen) rest

/-- Checks that no member is blank and none is listed twice. -/
def checkMembers (members : List String) : Except Failure Unit :=
  checkMembersAfter [] members

/-- Checks the members, and that an election has time. -/
def validate (config : GroupSettings) : Except Failure Unit :=
  match checkMembers config.members with
  | .error failure => .error failure
  | .ok () =>
    if config.ha.electionSeconds = 0 then .error (.zeroElectionTime config.id) else .ok ()

end GroupSettings

structure Topology where
  groups : List GroupSettings := []
  servers : SortedMap String Node := ∅
deriving DecidableEq

namespace Topology

/-- Adds a server under its own name; a later one of that name replaces it. -/
def withServer (topology : Topology) (node : Node) : Topology :=
  { topology with servers := topology.servers.insert node.name node }

def withGroup (topology : Topology) (group : GroupSettings) : Topology :=
  { topology with groups := topology.groups ++ [group] }

def group? (topology : Topology) (id : GroupId) : Option GroupSettings :=
  topology.groups.find? fun group => group.id = id

def resolve (topology : Topology) (member : String) : Except Failure Node :=
  match topology.servers.get? member with
  | some node => .ok node
  | none => .error (.noServer member)

/-- Checks the members of a group against the servers and against the `owners` found so
far; gives the owners afterwards. -/
def claimMembers (topology : Topology) (group : GroupId) :
    List String → SortedMap String GroupId → Except Failure (SortedMap String GroupId)
  | [], owners => .ok owners
  | member :: rest, owners =>
    if !topology.servers.contains member then .error (.noServerEntry member group)
    else
      match owners.get? member with
      | some other => .error (.memberOfTwoGroups member other group)
      | none => claimMembers topology group rest (owners.insert member group)

def checkGroups (topology : Topology) (seen : List GroupId)
    (owners : SortedMap String GroupId) : List GroupSettings → Except Failure Unit
  | [] => .ok ()
  | group :: rest =>
    match group.validate with
    | .error failure => .error failure
    | .ok () =>
      if group.id ∈ seen then .error (.repeatedGroup group.id)
      else
        match topology.claimMembers group.id group.members owners with
        | .error failure => .error failure
        | .ok owners => checkGroups topology (group.id :: seen) owners rest

/-- Checks every group, and that each member has an address and one group only. -/
def validate (topology : Topology) : Except Failure Unit :=
  topology.checkGroups [] ∅ topology.groups

end Topology
end SharedGraph
