import SharedGraph.Cache.RecentMap
import SharedGraph.Cache.Settings
import SharedGraph.Cache.Tier

/-!
# Nonstop caches

A nonstop cache keeps values locally so that it can answer when the server tier does
not.  It learns from every answer of the tier (`settled`), and when an operation's limit
passes its behavior decides the result (`timedOut`).
-/

namespace SharedGraph

structure Cache where
  name : String
  config : CacheSettings
  values : RecentMap String String
deriving DecidableEq

namespace Cache

def create (name : String) (config : CacheSettings) : Except Failure Cache :=
  match valid : config.validate with
  | .error failure => .error failure
  | .ok () => .ok { name, config, values := .empty _ (config.capacity_positive valid) }

/-- The local value of a key; it stays as recent as it was. -/
def kept? (cache : Cache) (key : String) : Option String :=
  cache.values.peek? key

def size (cache : Cache) : Nat :=
  cache.values.size

def deadline? (cache : Cache) (now : Nat) : Option Nat :=
  if cache.config.enabled then some (now + cache.config.timeout.toNat) else none

/-- The local values after the server tier has carried out a call. -/
def learn (cache : Cache) (call : CacheCall) (found : Option String) : Cache :=
  let values :=
    match call, found with
    | .get key, some value => cache.values.put key value
    | .get key, none => cache.values.erase key
    | .put key value, _ => cache.values.put key value
    | .remove key, _ => cache.values.erase key
  { cache with values }

/-- What an operation returns when the tier has answered; a failure teaches nothing. -/
def settled (cache : Cache) (call : CacheCall) (answer : CacheAnswer) :
    CacheAnswer × Cache :=
  match answer with
  | .error failure => (.error failure, cache)
  | .ok found => (.ok found, cache.learn call found)

def timeoutFailure (cache : Cache) (call : CacheCall) : Failure :=
  .nonstopTimeout s!"{cache.name}.{call.operation}" cache.config.timeout

def timedOut (cache : Cache) (call : CacheCall) : CacheAnswer × Cache :=
  let expired : CacheAnswer × Cache := (.error (cache.timeoutFailure call), cache)
  match cache.config.behavior, call with
  | .failAll, _ => expired
  | .ignore, _ => (.ok none, cache)
  | .failMutations, .get key | .localOnly, .get key =>
    match cache.kept? key with
    | some value => (.ok (some value), { cache with values := cache.values.touch key })
    | none => expired
  | .failMutations, _ => expired
  | .localOnly, .put key value =>
    (.ok (cache.kept? key), { cache with values := cache.values.put key value })
  | .localOnly, .remove key =>
    (.ok (cache.kept? key), { cache with values := cache.values.erase key })

end Cache
end SharedGraph
