import SharedGraph.Failure

/-!
# Store backends

A backend marks where a store transaction begins and ends.  Not every backend can roll
back; one that cannot refuses to abort.
-/

namespace SharedGraph

/-- What a store transaction asks of the store behind it. -/
class Backend (ε : Type) where
  open? : ε → Except Failure Unit × ε
  /-- Makes everything since the opening durable. -/
  commit? : ε → Except Failure Unit × ε
  /-- Whether the backend can take back what was written since the opening. -/
  canRollBack : ε → Bool := fun _ => false
  abort? : ε → Except Failure Unit × ε := fun backend => (.error .rollbackUnsupported, backend)

/-- A backend that answers in a way fixed beforehand; `none` is success. -/
structure PresetBackend where
  canRollBack : Bool
  opening : Option Failure := none
  committing : Option Failure := none
  aborting : Option Failure := none
deriving DecidableEq

namespace PresetBackend

def answer : Option Failure → Except Failure Unit
  | none => .ok ()
  | some failure => .error failure

instance : Backend PresetBackend where
  open? backend := (answer backend.opening, backend)
  commit? backend := (answer backend.committing, backend)
  canRollBack backend := backend.canRollBack
  abort? backend := (answer backend.aborting, backend)

/-- A backend that claims to roll back and then refuses to. -/
def halfHearted : PresetBackend where
  canRollBack := true
  aborting := some .rollbackUnsupported

end PresetBackend
end SharedGraph
