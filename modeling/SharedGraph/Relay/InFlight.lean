import SharedGraph.Relay.Basic

/-!
# Relay calls in flight

Several relay calls may be in progress.  Each queues its record when it starts and then
has one drain per passive.  A drain waits for its lane, which admits one drain at a time,
and ships from the front whatever is queued, records of other calls included, until the
lane is empty or a shipment fails.  A call is settled when all its drains are done.

Nothing here says in which order things happen: `InFlight.moveDrain?` and
`InFlight.settleCall?` are the steps that can be taken, one at a time, and are undefined
where a step is impossible.  A reconfiguration may come between any two steps.  It drops
lanes from the relay, and a drain that belongs to a dropped lane goes on with it.
-/

namespace SharedGraph

structure Flight where
  sent : Nat
  /-- What it will meet, unless it is given up before. -/
  prospect : Prospect
deriving DecidableEq

inductive DrainPhase where
  | waiting
  /-- It has its lane, and nothing is on its way. -/
  | holding
  /-- It has its lane, and the front of the lane is on its way. -/
  | shipping (flight : Flight)
  | done (result : LaneReport)
deriving DecidableEq

structure LaneName where
  passive : String
  /-- The number of the lane among the dropped ones, unless the relay still has it. -/
  dropped : Option Nat := none
deriving DecidableEq

/-- One passive's part of a relay call. -/
structure Drain where
  target : RelayTarget
  lane : LaneName
  /-- What this drain has delivered so far. -/
  applied : List GlobalId := []
  phase : DrainPhase := .waiting
deriving DecidableEq

inductive DrainMove where
  | take
  | ship (flight : Flight)
  /-- The front of the lane has been applied. -/
  | land
  /-- The front of the lane has not been applied, and stays. -/
  | refuse (failure : Failure)
  /-- It finds the lane empty. -/
  | close
deriving DecidableEq

inductive RelayCall where
  | draining (id : GlobalId) (drains : List Drain)
  | finished (outcome : Except Failure RelayReport)

structure InFlight where
  relay : Relay := {}
  /-- The lanes that the relay has dropped, by their number. -/
  dropped : List (List Queued) := []
  calls : List RelayCall := []

namespace Drain

def fresh (target : RelayTarget) : Drain :=
  { target, lane := { passive := target.node.name } }

def hasLane (drain : Drain) : Bool :=
  match drain.phase with
  | .holding | .shipping _ => true
  | .waiting | .done _ => false

def result? (drain : Drain) : Option (RelayTarget × LaneReport) :=
  match drain.phase with
  | .done result => some (drain.target, result)
  | .waiting | .holding | .shipping _ => none

/-- Ends the drain of a call with what it leaves in its lane. -/
def finish (drain : Drain) (id : GlobalId) (left : List Queued) (failure : Option Failure) :
    Drain :=
  let stillQueued := left.any fun entry => entry.id == id
  { drain with phase := .done { applied := drain.applied, failure, stillQueued } }

/-- One step of a drain of the call for `id`, with its lane before and after.  Nobody else
has the lane if it is `free`. -/
def move? (drain : Drain) (id : GlobalId) (queue : List Queued) (free : Bool) :
    DrainMove → Option (Drain × List Queued)
  | .take =>
    match drain.phase with
    | .waiting => if free then some ({ drain with phase := .holding }, queue) else none
    | _ => none
  | .ship flight =>
    match drain.phase, queue with
    | .holding, _ :: _ => some ({ drain with phase := .shipping flight }, queue)
    | _, _ => none
  | .land =>
    match drain.phase, queue with
    | .shipping _, entry :: rest =>
      some ({ drain with applied := drain.applied ++ [entry.id], phase := .holding }, rest)
    | _, _ => none
  | .refuse failure =>
    match drain.phase with
    | .shipping _ => some (drain.finish id queue (some failure), queue)
    | _ => none
  | .close =>
    match drain.phase, queue with
    | .holding, [] => some (drain.finish id [] none, [])
    | _, _ => none

/-- Leaves the lane of a passive for the dropped lane of a number. -/
def leaveLane (passive : String) (number : Nat) (drain : Drain) : Drain :=
  if drain.lane = { passive } then { drain with lane := { passive, dropped := some number } }
  else drain

end Drain

namespace RelayCall

/-- The drains of a call that is not finished. -/
def drains : RelayCall → List Drain
  | .draining _ drains => drains
  | .finished _ => []

def outcome? : RelayCall → Option (Except Failure RelayReport)
  | .draining .. => none
  | .finished outcome => some outcome

def mapDrains (change : Drain → Drain) : RelayCall → RelayCall
  | .draining id drains => .draining id (drains.map change)
  | .finished outcome => .finished outcome

end RelayCall

namespace InFlight

/-! ## Lanes and drains -/

def lane (state : InFlight) (name : LaneName) : List Queued :=
  match name.dropped with
  | none => state.relay.lane name.passive
  | some number => (state.dropped[number]?).getD []

def setLane (state : InFlight) (name : LaneName) (queue : List Queued) : InFlight :=
  match name.dropped with
  | none =>
    { state with
      relay := { state.relay with lanes := state.relay.lanes.insert name.passive queue } }
  | some number => { state with dropped := state.dropped.set number queue }

def drains (state : InFlight) : List Drain :=
  state.calls.flatMap RelayCall.drains

def isFree (state : InFlight) (name : LaneName) : Bool :=
  state.drains.all fun drain => !(drain.lane == name && drain.hasLane)

def isIdle (state : InFlight) : Bool :=
  state.calls.all fun call => call.outcome?.isSome

/-- A drain by the places of its call and its target, with the id of the call. -/
def drain? (state : InFlight) (call drain : Nat) : Option (GlobalId × Drain) :=
  match state.calls[call]? with
  | some (.draining id drains) => (drains[drain]?).map fun found => (id, found)
  | some (.finished _) | none => none

def setDrain (state : InFlight) (call drain : Nat) (replacement : Drain) : InFlight :=
  { state with
    calls := state.calls.modify call fun
      | .draining id drains => .draining id (drains.set drain replacement)
      | .finished outcome => .finished outcome }

/-! ## Steps -/

/-- Starts a call: its record is queued at once. -/
def start (state : InFlight) (group : FailoverGroup) (transaction : Sequenced) : InFlight :=
  let finish (outcome : Except Failure RelayReport) : InFlight :=
    { state with calls := state.calls ++ [.finished outcome] }
  match transaction.globalId with
  | none => finish (.error (.notSequenced transaction.record.name))
  | some id =>
    if !group.isNetworked then finish (.ok { id })
    else
      match state.relay.accept group id transaction.record with
      | .error failure => finish (.error failure)
      | .ok (targets, relay) =>
        { state with relay, calls := state.calls ++ [.draining id (targets.map Drain.fresh)] }

def moveDrain? (state : InFlight) (call drain : Nat) (move : DrainMove) : Option InFlight :=
  (state.drain? call drain).bind fun (id, found) =>
    (found.move? id (state.lane found.lane) (state.isFree found.lane) move).map
      fun (moved, queue) => (state.setLane found.lane queue).setDrain call drain moved

def settleCall? (state : InFlight) (group : GroupId) (call : Nat) : Option InFlight :=
  match state.calls[call]? with
  | some (.draining id drains) =>
    (drains.mapM Drain.result?).map fun results =>
      let (outcome, relay) := state.relay.settle group id results
      { state with relay, calls := state.calls.set call (.finished outcome) }
  | some (.finished _) | none => none

/-- Takes the lane of a passive out of the relay; the drains that belong to it keep it. -/
def dropLane (state : InFlight) (passive : String) : InFlight :=
  { state with
    dropped := state.dropped ++ [state.relay.lane passive]
    calls := state.calls.map (RelayCall.mapDrains (Drain.leaveLane passive state.dropped.length)) }

/-- Follows a reconfiguration of the group; gives the ids that this released. -/
def follow (state : InFlight) (change : MemberChange) : List GlobalId × InFlight :=
  let state := (change.removed.map Node.name).foldl dropLane state
  let (released, relay) := state.relay.follow change
  (released, { state with relay })

end InFlight
end SharedGraph
