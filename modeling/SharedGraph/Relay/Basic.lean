import SharedGraph.Failover.Membership
import SharedGraph.Relay.Ledger
import SharedGraph.Relay.Policy
import SharedGraph.Relay.Transport

/-!
# The relay

The active ships every committed record to each passive of its group.  A passive has a
lane: what was queued for it and not yet applied, oldest first.  Relaying a record
queues it in every lane, pruned for the objects that the passive holds, and then drains
the lanes; a lane stops at its first failure, so a passive never applies anything out of
order.  The ledger follows: a passive that applies an id acknowledges it.
-/

namespace SharedGraph

structure Queued where
  id : GlobalId
  shipment : Shipment

namespace Queued

def delivery (entry : Queued) : Delivery :=
  ⟨some entry.id, entry.shipment⟩

end Queued

structure Relay where
  policy : RelayPolicy := {}
  /-- The objects that a passive holds, if that is known; others get full records. -/
  held : SortedMap String (SortedSet ObjectId) := ∅
  /-- What is queued for each passive, oldest first. -/
  lanes : SortedMap String (List Queued) := ∅
  lastQueued : Option GlobalId := none
  ledger : Ledger := {}

structure RelayTarget where
  node : Node
  /-- Whether it gets a narrowed record. -/
  pruned : Bool
deriving DecidableEq

structure LaneReport where
  applied : List GlobalId := []
  failure : Option Failure := none
  /-- Whether the id that is being relayed was left in the lane. -/
  stillQueued : Bool := false
deriving DecidableEq

structure RelayReport where
  id : GlobalId
  acknowledged : List String := []
  /-- Each passive that did not apply the record, with the reason. -/
  failed : List String := []
  /-- The passives that were to get a narrowed record. -/
  pruned : List String := []
  /-- Earlier ids that this call released. -/
  caughtUp : List GlobalId := []
  released : Bool := true
deriving DecidableEq

namespace Relay

def create (policy : RelayPolicy) : Except Failure Relay :=
  policy.validate.map fun _ => { policy }

/-! ## What passives hold -/

def declareHeld (relay : Relay) (passive : String) (objects : SortedSet ObjectId) : Relay :=
  { relay with held := relay.held.insert passive objects }

/-- Adds objects to those that a passive holds, if that is known. -/
def widenHeld (relay : Relay) (passive : String) (objects : List ObjectId) : Relay :=
  { relay with held := relay.held.modify passive fun held => held.insertAll objects }

def lane (relay : Relay) (passive : String) : List Queued :=
  (relay.lanes.get? passive).getD []

def backlog (relay : Relay) (passive : String) : List GlobalId :=
  (relay.lane passive).map Queued.id

/-! ## Queueing -/

def shipmentFor (relay : Relay) (record : Record) (passive : String) : Except Failure Shipment :=
  match relay.held.get? passive with
  | some objects => record.prune objects
  | none => .ok (.full record)

def stage (relay : Relay) (record : Record) :
    List Node → Except Failure (List (Node × Shipment))
  | [] => .ok []
  | node :: rest =>
    match relay.shipmentFor record node.name with
    | .error failure => .error failure
    | .ok shipment => (stage relay record rest).map fun others => (node, shipment) :: others

/-- Queues a shipment.  The objects that it creates count as held from now on, since
whatever follows is delivered after it. -/
def push (id : GlobalId) (relay : Relay) (node : Node) (shipment : Shipment) : Relay :=
  let relay := relay.widenHeld node.name shipment.created.toList
  { relay with
    lanes := relay.lanes.insert node.name (relay.lane node.name ++ [⟨id, shipment⟩]) }

/-- Queues a record for every passive of the group and waits for their acknowledgement.
Records are queued in the order of their ids. -/
def accept (relay : Relay) (group : FailoverGroup) (id : GlobalId) (record : Record) :
    Except Failure (List RelayTarget × Relay) :=
  match group.passives with
  | .error failure => .error failure
  | .ok nodes =>
    match relay.lastQueued.filter (id ≤ ·) with
    | some last => .error (.relayedOutOfOrder id last)
    | none =>
      match relay.stage record nodes with
      | .error failure => .error failure
      | .ok staged =>
        let ledger := relay.ledger.expect id (staged.map fun entry => entry.1.name)
        let queued := staged.foldl (fun relay entry => push id relay entry.1 entry.2)
          { relay with ledger }
        .ok (staged.map fun entry => ⟨entry.1, entry.2.isNarrowed⟩,
          { queued with lastQueued := some id })

/-! ## Draining -/

variable {τ : Type} [Transport τ]

/-- Ships a lane front to back until it is empty or a shipment fails.  Gives the ids that
were applied, what is left, the failure, and the milliseconds it took. -/
def drainLane (node : Node) (limit : UInt64) :
    List Queued → τ → List GlobalId × List Queued × Option Failure × Nat × τ
  | [], transport => ([], [], none, 0, transport)
  | entry :: rest, transport =>
    match Transport.ship node entry.delivery limit transport with
    | (.error failure, elapsed, transport) =>
      ([], entry :: rest, some failure, elapsed, transport)
    | (.ok (), elapsed, transport) =>
      match drainLane node limit rest transport with
      | (applied, left, failure, later, transport) =>
        (entry.id :: applied, left, failure, elapsed + later, transport)

def drain (relay : Relay) (id : GlobalId) (node : Node) (transport : τ) :
    LaneReport × Relay × Nat × τ :=
  match drainLane node relay.policy.shipLimit (relay.lane node.name) transport with
  | (applied, left, failure, elapsed, transport) =>
    ({ applied, failure, stillQueued := left.any fun entry => entry.id == id },
      { relay with lanes := relay.lanes.insert node.name left }, elapsed, transport)

/-- Drains the lanes of several passives at the same time.  Passives of one name share a
lane and are served one after another; `busy` tells how long each lane has been in use. -/
def drainAll (id : GlobalId) : List RelayTarget → Relay → SortedMap String Nat → τ →
    List (RelayTarget × LaneReport) × Relay × SortedMap String Nat × τ
  | [], relay, busy, transport => ([], relay, busy, transport)
  | target :: rest, relay, busy, transport =>
    match relay.drain id target.node transport with
    | (drained, relay, elapsed, transport) =>
      let name := target.node.name
      let busy := busy.insert name ((busy.get? name).getD 0 + elapsed)
      match drainAll id rest relay busy transport with
      | (others, relay, busy, transport) =>
        ((target, drained) :: others, relay, busy, transport)

/-! ## Settling -/

def settleApplied (passive : String) (state : Ledger × RelayReport) (applied : GlobalId) :
    Ledger × RelayReport :=
  let (ledger, outcome) := state
  let (released, ledger) := ledger.acknowledge applied passive
  if released && decide (applied < outcome.id) && !outcome.caughtUp.contains applied then
    (ledger, { outcome with caughtUp := outcome.caughtUp ++ [applied] })
  else (ledger, outcome)

def reason (id : GlobalId) (passive : String) (drained : LaneReport) : Failure :=
  drained.failure.getD (.leftQueued passive id)

def settleTarget (mode : RelayMode) (state : Ledger × RelayReport)
    (result : RelayTarget × LaneReport) : Ledger × RelayReport :=
  let (target, drained) := result
  let passive := target.node.name
  let (ledger, outcome) := state
  let outcome :=
    if target.pruned then { outcome with pruned := outcome.pruned ++ [passive] } else outcome
  let (ledger, outcome) := drained.applied.foldl (settleApplied passive) (ledger, outcome)
  if !drained.stillQueued then
    (ledger, { outcome with acknowledged := outcome.acknowledged ++ [passive] })
  else
    let why := reason outcome.id passive drained
    let ledger :=
      match mode with
      | .bestEffort => (ledger.withdraw outcome.id passive).2
      | .sync => ledger
    (ledger, { outcome with failed := outcome.failed ++ [s!"{passive} ({why.message})"] })

def settle (relay : Relay) (group : GroupId) (id : GlobalId)
    (results : List (RelayTarget × LaneReport)) : Except Failure RelayReport × Relay :=
  let (ledger, outcome) :=
    results.foldl (settleTarget relay.policy.mode) (relay.ledger, { id })
  let outcome := { outcome with
    caughtUp := outcome.caughtUp.mergeSort fun first second => decide (first ≤ second)
    released := ledger.isSettled id }
  let relay := { relay with ledger }
  if relay.policy.mode == .sync && !outcome.failed.isEmpty then
    (.error (.notApplied id group outcome.acknowledged.length outcome.failed), relay)
  else (.ok outcome, relay)

/-! ## Relaying -/

/-- Relays a record to every passive of the group.  Tells how many milliseconds it took. -/
def relay (relay : Relay) (group : FailoverGroup) (transaction : Sequenced) (transport : τ) :
    Except Failure RelayReport × Relay × Nat × τ :=
  match transaction.globalId with
  | none => (.error (.notSequenced transaction.record.name), relay, 0, transport)
  | some id =>
    if !group.isNetworked then (.ok { id }, relay, 0, transport)
    else
      match relay.accept group id transaction.record with
      | .error failure => (.error failure, relay, 0, transport)
      | .ok (targets, relay) =>
        match relay.drainAll id targets ∅ transport with
        | (results, relay, busy, transport) =>
          let elapsed := (busy.toList.map Prod.snd).foldl max 0
          let (outcome, relay) := relay.settle group.id id results
          (outcome, relay, elapsed, transport)

def dropPassive (relay : Relay) (passive : String) : List GlobalId × Relay :=
  let (released, ledger) := relay.ledger.forget passive
  (released,
    { relay with
      held := relay.held.erase passive
      lanes := relay.lanes.erase passive
      ledger })

def dropPassives (relay : Relay) : List Node → List GlobalId × Relay
  | [] => ([], relay)
  | node :: rest =>
    let (released, relay) := relay.dropPassive node.name
    let (others, relay) := dropPassives relay rest
    (released ++ others, relay)

/-- Starts to follow what a newcomer holds, which is nothing. -/
def welcome (relay : Relay) (node : Node) : Relay :=
  if relay.held.contains node.name then relay else relay.declareHeld node.name ∅

def follow (relay : Relay) (change : MemberChange) : List GlobalId × Relay :=
  let (released, relay) := relay.dropPassives change.removed
  (released, change.added.foldl welcome relay)

end Relay
end SharedGraph
