import SharedGraph.Data.Duration
import SharedGraph.Failure

/-!
# Configuration of a nonstop cache

A cache gives each operation a limit, and the behavior says what happens when the limit
passes without an answer.
-/

namespace SharedGraph

/-- What an operation does when its limit has passed. -/
inductive TimeoutBehavior where
  /-- Reads and mutations fail. -/
  | failAll
  /-- Reads fall back on local values; mutations fail. -/
  | failMutations
  /-- Reads fall back on local values; mutations are applied locally only. -/
  | localOnly
  /-- Reads find nothing; mutations are dropped. -/
  | ignore
deriving DecidableEq, Inhabited

namespace TimeoutBehavior

def readsLocally : TimeoutBehavior → Bool
  | .failMutations | .localOnly => true
  | .failAll | .ignore => false

def text : TimeoutBehavior → String
  | .failAll => "exception"
  | .failMutations => "exceptionOnMutateAndLocalReads"
  | .localOnly => "localReads"
  | .ignore => "noop"

end TimeoutBehavior

structure CacheSettings where
  /-- Without it, operations wait for an answer as long as it takes. -/
  enabled : Bool := true
  /-- The limit of an operation, in milliseconds. -/
  timeout : UInt64 := 30000
  behavior : TimeoutBehavior := .failAll
  capacity : UInt64 := 10000
deriving DecidableEq, Inhabited

namespace CacheSettings

def withTimeout (config : CacheSettings) (limit : Duration) : CacheSettings :=
  { config with timeout := limit.milliseconds }

def validate (config : CacheSettings) : Except Failure Unit :=
  if config.timeout = 0 then .error .zeroTimeout
  else if config.capacity = 0 then .error .zeroCapacity
  else .ok ()

theorem capacity_positive {config : CacheSettings} (valid : config.validate = .ok ()) :
    0 < config.capacity.toNat := by
  unfold validate at valid
  split at valid
  · cases valid
  · split at valid
    · cases valid
    · next nonzero => exact UInt64.pos_iff_ne_zero.2 nonzero

end CacheSettings
end SharedGraph
