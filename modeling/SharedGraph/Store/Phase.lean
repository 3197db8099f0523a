/-!
# Phases of a store and of a store transaction

A store is configured, started and shut down, in this order and once.  A store
transaction is begun once and then ends in one of two terminal phases.
-/

namespace SharedGraph

inductive StorePhase where
  | configured
  | started
  | shutdown
deriving DecidableEq, Inhabited

namespace StorePhase

def text : StorePhase → String
  | .configured => "Configured"
  | .started => "Started"
  | .shutdown => "Shutdown"

end StorePhase

inductive TransactionPhase where
  | notStarted
  | active
  | committed
  | aborted
deriving DecidableEq, Inhabited

namespace TransactionPhase

def isFinal : TransactionPhase → Bool
  | .committed | .aborted => true
  | .notStarted | .active => false

def text : TransactionPhase → String
  | .notStarted => "NOT_STARTED"
  | .active => "ACTIVE"
  | .committed => "COMMITTED"
  | .aborted => "ABORTED"

end TransactionPhase
end SharedGraph
