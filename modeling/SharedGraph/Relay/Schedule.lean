import SharedGraph.Relay.InFlight

/-!
# Schedules of relay calls

Relay calls that are started together are carried out on one thread and a clock that
counts milliseconds.  At each instant every drain, in the order of the calls and their
targets, does all that it can, and a call whose drains are done is settled; time passes
when nothing can be done.  Whatever a schedule does is a sequence of the steps that calls
in flight can take.
-/

namespace SharedGraph

/-- Relay calls that share a transport and a clock. -/
structure Schedule (τ : Type) where
  inFlight : InFlight
  transport : τ
  now : Nat := 0

namespace Flight

/-- When the flight ends, if shipments are given up after `limit` milliseconds. -/
def ends (limit : Nat) (flight : Flight) : Nat :=
  match flight.prospect with
  | .arrives delay => flight.sent + min delay limit
  | .fails _ => flight.sent
  | .hangs => flight.sent + limit

end Flight

namespace Drain

def nextInstant? (limit : Nat) (drain : Drain) : Option Nat :=
  match drain.phase with
  | .shipping flight => some (flight.ends limit)
  | .waiting | .holding | .done _ => none

end Drain

namespace Schedule

variable {τ : Type} [Transport τ]

/-- How the flight of the front of a lane ends.  What is due when it would be given up
still arrives. -/
def landing (node : Node) (limit : UInt64) (flight : Flight) (entry : Queued) (transport : τ) :
    DrainMove × τ :=
  let givenUp : DrainMove × τ := (.refuse (.noAnswer node.name limit), transport)
  match flight.prospect with
  | .fails failure => (.refuse failure, transport)
  | .hangs => givenUp
  | .arrives delay =>
    if delay ≤ limit.toNat then
      match Transport.arrive node entry.delivery transport with
      | (.ok (), transport) => (.land, transport)
      | (.error failure, transport) => (.refuse failure, transport)
    else givenUp

def nextMove? (state : Schedule τ) (drain : Drain) : Option (DrainMove × τ) :=
  let node := drain.target.node
  let limit := state.inFlight.relay.policy.shipLimit
  match drain.phase, state.inFlight.lane drain.lane with
  | .waiting, _ =>
    if state.inFlight.isFree drain.lane then some (.take, state.transport) else none
  | .holding, [] => some (.close, state.transport)
  | .holding, entry :: _ =>
    let (prospect, transport) := Transport.dispatch node entry.delivery state.transport
    some (.ship ⟨state.now, prospect⟩, transport)
  | .shipping flight, entry :: _ =>
    if flight.ends limit.toNat ≤ state.now then
      some (landing node limit flight entry state.transport)
    else none
  | .shipping _, [] | .done _, _ => none

def advanceDrain (call drain : Nat) : Nat → Schedule τ → Schedule τ
  | 0, state => state
  | steps + 1, state =>
    let moved := do
      let (_, found) ← state.inFlight.drain? call drain
      let (move, transport) ← state.nextMove? found
      let inFlight ← state.inFlight.moveDrain? call drain move
      return { state with inFlight, transport }
    match moved with
    | none => state
    | some state => advanceDrain call drain steps state

/-- A drain takes its lane and closes it, and ships and lands each entry at most once. -/
def stepBound (state : Schedule τ) (call drain : Nat) : Nat :=
  match state.inFlight.drain? call drain with
  | none => 0
  | some (_, found) => 2 * (state.inFlight.lane found.lane).length + 2

def advanceCall (group : GroupId) (state : Schedule τ) (call : Nat) : Schedule τ :=
  let drains := ((state.inFlight.calls[call]?).map RelayCall.drains).getD []
  let state := (List.range drains.length).foldl
    (fun state drain => advanceDrain call drain (state.stepBound call drain) state) state
  { state with inFlight := (state.inFlight.settleCall? group call).getD state.inFlight }

def advance (group : GroupId) (state : Schedule τ) : Schedule τ :=
  (List.range state.inFlight.calls.length).foldl (advanceCall group) state

/-- Starts several calls one after another; each does what it can before the next. -/
def startAll (group : FailoverGroup) : List Sequenced → Schedule τ → Schedule τ
  | [], state => state
  | transaction :: rest, state =>
    startAll group rest <| advance group.id
      { state with inFlight := state.inFlight.start group transaction }

def nextInstant? (state : Schedule τ) : Option Nat :=
  let limit := state.inFlight.relay.policy.shipLimit.toNat
  (state.inFlight.drains.filterMap (Drain.nextInstant? limit)).min?

def settleDown (group : GroupId) : Nat → Schedule τ → Schedule τ
  | 0, state => state
  | instants + 1, state =>
    match state.nextInstant? with
    | none => state
    | some now => settleDown group instants (advance group { state with now })

/-- Everything that is queued, and every drain, can end one shipment at most. -/
def shipmentBound (state : Schedule τ) : Nat :=
  (state.inFlight.relay.lanes.toList.flatMap Prod.snd).length + state.inFlight.drains.length

/-- Relays several records at the same time, until every call is finished; tells how many
milliseconds that took. -/
def relayMany (relay : Relay) (group : FailoverGroup) (transactions : List Sequenced)
    (transport : τ) : List (Except Failure RelayReport) × Relay × Nat × τ :=
  let started := startAll group transactions { inFlight := { relay }, transport }
  let state := settleDown group.id started.shipmentBound started
  (state.inFlight.calls.filterMap RelayCall.outcome?, state.inFlight.relay, state.now,
    state.transport)

end Schedule
end SharedGraph
