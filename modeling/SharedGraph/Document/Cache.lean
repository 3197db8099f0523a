import SharedGraph.Cache.Settings
import SharedGraph.Document.Shape

/-!
# Documents of nonstop configurations

How the configuration of a nonstop cache stands in documents.
-/

namespace SharedGraph

namespace TimeoutBehavior

def name : TimeoutBehavior → String
  | .failAll => "ExceptionOnTimeout"
  | .failMutations => "ExceptionOnMutateAndLocalReads"
  | .localOnly => "LocalReads"
  | .ignore => "NoOp"

def ofName? (name : String) : Option TimeoutBehavior :=
  [failAll, failMutations, localOnly, ignore].find? fun behavior => behavior.name == name

end TimeoutBehavior

namespace CacheSettings

def toValue (config : CacheSettings) : Value :=
  .ofFields [("enabled", .bool config.enabled), ("timeout_ms", .ofUInt64 config.timeout),
    ("behavior", .text config.behavior.name),
    ("local_cache_capacity", .ofUInt64 config.capacity)]

def ofValue? (value : Value) : Option CacheSettings := do
  let [enabled, timeout, behavior, capacity] ←
    value.parts? ["enabled", "timeout_ms", "behavior", "local_cache_capacity"] | none
  return {
    enabled := ← Value.required Value.asBool? enabled
    timeout := ← Value.required Value.asUInt64? timeout
    behavior := ← Value.defaulting .failAll (Value.choice? TimeoutBehavior.ofName?) behavior
    capacity := ← Value.required Value.asUInt64? capacity }

end CacheSettings
end SharedGraph
