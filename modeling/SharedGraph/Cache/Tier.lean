import SharedGraph.Data.SortedMap
import SharedGraph.Failure

/-!
# Server tiers

A cache talks to a server tier.  A tier in memory answers at once while it is connected;
a call that finds it disconnected waits until it is connected again.  A scripted tier
answers its calls in order from a script, whose last reply is given again and again; it
does so whether it is connected or not.
-/

namespace SharedGraph

inductive CacheCall where
  | get (key : String)
  | put (key value : String)
  | remove (key : String)
deriving DecidableEq, Inhabited

namespace CacheCall

def key : CacheCall → String
  | .get key | .put key _ | .remove key => key

def operation : CacheCall → String
  | .get _ => "get"
  | .put .. => "put"
  | .remove _ => "remove"

def text : CacheCall → String
  | .get key => s!"get {key}"
  | .put key value => s!"put {key}={value}"
  | .remove key => s!"remove {key}"

end CacheCall

/-- What a call comes back with: the value found or replaced, if there was one. -/
abbrev CacheAnswer := Except Failure (Option String)

inductive Expectation where
  | connection
  | answer (delay : Nat) (answer : CacheAnswer)
  /-- Nothing; no answer will ever come. -/
  | nothing

structure MemoryTier where
  connected : Bool := true
  entries : SortedMap String String := ∅
deriving DecidableEq

namespace MemoryTier

def serve (tier : MemoryTier) : CacheCall → Option String × MemoryTier
  | .get key => (tier.entries.get? key, tier)
  | .put key value =>
    (tier.entries.get? key, { tier with entries := tier.entries.insert key value })
  | .remove key => (tier.entries.get? key, { tier with entries := tier.entries.erase key })

end MemoryTier

/-- A server tier that follows a script. -/
structure ScriptedTier where
  /-- What the next calls meet; the last one stays. -/
  replies : List Expectation
  calls : List CacheCall := []
  connected : Bool := true

namespace ScriptedTier

/-- Takes a call; an empty script finds nothing, at once. -/
def ask (tier : ScriptedTier) (call : CacheCall) : Expectation × ScriptedTier :=
  let calls := tier.calls ++ [call]
  match tier.replies with
  | [] => (.answer 0 (.ok none), { tier with calls })
  | [reply] => (reply, { tier with calls })
  | reply :: replies => (reply, { tier with replies, calls })

end ScriptedTier

inductive ServerTier where
  | memory (tier : MemoryTier)
  | scripted (tier : ScriptedTier)

namespace ServerTier

def ask (call : CacheCall) : ServerTier → Expectation × ServerTier
  | .memory tier => (.connection, .memory tier)
  | .scripted tier =>
    let (reply, tier) := tier.ask call
    (reply, .scripted tier)

def serve? (call : CacheCall) : ServerTier → Option (CacheAnswer × ServerTier)
  | .memory tier =>
    if tier.connected then
      let (found, tier) := tier.serve call
      some (.ok found, .memory tier)
    else none
  | .scripted _ => none

def setConnected (connected : Bool) : ServerTier → ServerTier
  | .memory tier => .memory { tier with connected }
  | .scripted tier => .scripted { tier with connected }

def isReachable : ServerTier → Bool
  | .memory tier => tier.connected
  | .scripted tier => tier.connected

def value? (key : String) : ServerTier → Option String
  | .memory tier => tier.entries.get? key
  | .scripted _ => none

/-- The calls that a scripted tier has taken since it was last asked for them. -/
def takeCalls : ServerTier → List CacheCall × ServerTier
  | .memory tier => ([], .memory tier)
  | .scripted tier => (tier.calls, .scripted { tier with calls := [] })

end ServerTier
end SharedGraph
