import SharedGraph.Store.Backend

/-!
# Store transactions

A store transaction is begun on some thread and must be committed or aborted on the
same one.  Its listeners hear once of the phase in which it ends, in the order in which
they were added; a listener that comes later hears nothing.
-/

namespace SharedGraph

/-- A store transaction with listeners of type `α`. -/
structure StoreTransaction (α : Type) where
  phase : TransactionPhase := .notStarted
  owner : Option Nat := none
  listeners : List α := []
deriving DecidableEq

namespace StoreTransaction

variable {α ε : Type} [Backend ε]

def withListener (transaction : StoreTransaction α) (listener : α) : StoreTransaction α :=
  { transaction with listeners := transaction.listeners ++ [listener] }

def begin (transaction : StoreTransaction α) (thread : Nat) (backend : ε) :
    Except Failure Unit × StoreTransaction α × ε :=
  if transaction.phase ≠ .notStarted then
    (.error (.alreadyBegun transaction.phase), transaction, backend)
  else
    match Backend.open? backend with
    | (.error failure, backend) => (.error failure, transaction, backend)
    | (.ok (), backend) =>
      (.ok (), { transaction with phase := .active, owner := some thread }, backend)

def requireOwner (transaction : StoreTransaction α) (action : String) (thread : Nat) :
    Except Failure Unit :=
  if transaction.phase ≠ .active then .error (.notActive action transaction.phase)
  else if transaction.owner ≠ some thread then .error (.wrongThread action)
  else .ok ()

/-- Ends the transaction in a phase; gives what its listeners hear. -/
def finish (transaction : StoreTransaction α) (phase : TransactionPhase) :
    List (α × TransactionPhase) × StoreTransaction α :=
  (transaction.listeners.map fun listener => (listener, phase),
    { transaction with phase, listeners := [] })

def commit (transaction : StoreTransaction α) (thread : Nat) (backend : ε) :
    Except Failure (List (α × TransactionPhase)) × StoreTransaction α × ε :=
  match transaction.requireOwner "commit" thread with
  | .error failure => (.error failure, transaction, backend)
  | .ok () =>
    match Backend.commit? backend with
    | (.error failure, backend) => (.error failure, transaction, backend)
    | (.ok (), backend) =>
      let (heard, transaction) := transaction.finish .committed
      (.ok heard, transaction, backend)

def abort (transaction : StoreTransaction α) (thread : Nat) (backend : ε) :
    Except Failure (List (α × TransactionPhase)) × StoreTransaction α × ε :=
  if !Backend.canRollBack backend then (.error .abortUnsupported, transaction, backend)
  else
    match transaction.requireOwner "abort" thread with
    | .error failure => (.error failure, transaction, backend)
    | .ok () =>
      match Backend.abort? backend with
      | (.error failure, backend) => (.error failure, transaction, backend)
      | (.ok (), backend) =>
        let (heard, transaction) := transaction.finish .aborted
        (.ok heard, transaction, backend)

def provide (thread : Nat) (backend : ε) : Except Failure (StoreTransaction α) × ε :=
  match begin {} thread backend with
  | (.error failure, _, backend) => (.error failure, backend)
  | (.ok (), transaction, backend) => (.ok transaction, backend)

end StoreTransaction
end SharedGraph
