import SharedGraph.Data.Duration
import SharedGraph.Failure

/-!
# Relay policies

A policy says whether a commit waits for every passive, and how long one shipment may
take.
-/

namespace SharedGraph

/-- How much a commit waits for its passives. -/
inductive RelayMode where
  /-- Every passive must acknowledge before the commit is reported. -/
  | sync
  /-- A passive that fails is no longer waited for. -/
  | bestEffort
deriving DecidableEq, Inhabited

structure RelayPolicy where
  mode : RelayMode := .sync
  /-- How many milliseconds one shipment to one passive may take. -/
  shipLimit : UInt64 := 5000
deriving DecidableEq, Inhabited

namespace RelayPolicy

def withShipLimit (policy : RelayPolicy) (limit : Duration) : RelayPolicy :=
  { policy with shipLimit := limit.milliseconds }

def validate (policy : RelayPolicy) : Except Failure Unit :=
  if policy.shipLimit = 0 then .error .zeroShipLimit else .ok ()

end RelayPolicy
end SharedGraph
