import SharedGraph.Store.Backend
import SharedGraph.Store.ValueMap

/-!
# Object stores

A store is configured with named maps and their observers, started once, and shut down.
Its maps can be looked up only while it is started, but one that was looked up stays
usable.  Writes take effect at once, so the transactions of a store are mere counters:
they cannot be rolled back.
-/

namespace SharedGraph

structure StoreCounters where
  phase : StorePhase := .configured
  -- Both counters are 64 bits wide in a running store.  They count single calls from zero, so no
  -- run is long enough to wrap them around, and natural numbers do.
  /-- Transactions that were opened and not committed. -/
  openTransactions : Nat := 0
  commits : Nat := 0
deriving DecidableEq

namespace StoreCounters

def requireStarted (counters : StoreCounters) : Except Failure Unit :=
  if counters.phase = .started then .ok () else .error (.storeNotStarted counters.phase)

def openTransaction (counters : StoreCounters) : Except Failure Unit × StoreCounters :=
  match counters.requireStarted with
  | .error failure => (.error failure, counters)
  | .ok () => (.ok (), { counters with openTransactions := counters.openTransactions + 1 })

def commitTransaction (counters : StoreCounters) : Except Failure Unit × StoreCounters :=
  match counters.requireStarted with
  | .error failure => (.error failure, counters)
  | .ok () =>
    match counters.openTransactions with
    | 0 => (.error .commitWithoutBegin, counters)
    | remaining + 1 =>
      (.ok (), { counters with openTransactions := remaining, commits := counters.commits + 1 })

instance : Backend StoreCounters where
  open? := openTransaction
  commit? := commitTransaction

def start (counters : StoreCounters) : Except Failure StoreCounters :=
  if counters.phase = .configured then .ok { counters with phase := .started }
  else .error (.cannotStart counters.phase)

/-- Shuts a store down, whatever its phase. -/
def shutdown (counters : StoreCounters) : StoreCounters :=
  { counters with phase := .shutdown }

end StoreCounters

structure Store (σ : Type) where
  counters : StoreCounters := {}
  configured : SortedMap String (List (Observer σ)) := ∅
  /-- The maps by name; no name is used twice in the life of a store. -/
  maps : SortedMap String (ValueMap σ) := ∅

namespace Store

variable {σ : Type}

/-! ## Configuration -/

def withMap (store : Store σ) (name : String) : Store σ :=
  if store.configured.contains name then store
  else { store with configured := store.configured.insert name [] }

def withObserver (store : Store σ) (name : String) (observer : Observer σ) :
    Store σ :=
  let observers := (store.configured.get? name).getD []
  { store with configured := store.configured.insert name (observers ++ [observer]) }

def names (store : Store σ) : List String :=
  store.configured.keys

/-! ## Life -/

def start (store : Store σ) : Except Failure (Store σ) :=
  store.counters.start.map fun counters =>
    { store with
      counters
      maps := store.configured.filterMap fun name observers => some { name, observers } }

def shutdown (store : Store σ) : Store σ :=
  { store with counters := store.counters.shutdown }

def isRunning (store : Store σ) : Bool :=
  store.counters.phase == .started

/-- Adds a map to a started store. -/
def attach (store : Store σ) (name : String) (observers : List (Observer σ)) :
    Except Failure (Store σ) :=
  match store.counters.requireStarted with
  | .error failure => .error failure
  | .ok () =>
    if store.maps.contains name then .error (.mapAttached name)
    else .ok { store with maps := store.maps.insert name { name, observers } }

def map? (store : Store σ) (name : String) : Except Failure (Option (ValueMap σ)) :=
  store.counters.requireStarted.map fun _ => store.maps.get? name

/-- Acts on a map that was looked up or attached before, whatever the phase is now. -/
def actOn {α : Type} (store : Store σ) (name : String)
    (act : ValueMap σ → σ → Except Failure α × ValueMap σ × σ) (audience : σ) :
    Option (Except Failure α × Store σ × σ) :=
  (store.maps.get? name).map fun map =>
    let (answer, map, audience) := act map audience
    (answer, { store with maps := store.maps.insert name map }, audience)

end Store
end SharedGraph
