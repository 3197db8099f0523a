import SharedGraph.Store.StoreTransaction

/-!
# Store sessions

A session is a backend with all the transactions that were made on it, numbered from
zero.  A transaction that is dropped by its holder keeps the phase it had: nobody ends
it any more, and the backend is not told.  Listeners are numbered over the whole session.
-/

namespace SharedGraph

/-- A transaction of a session. -/
structure TransactionSlot where
  transaction : StoreTransaction Nat := {}
  /-- Whether its holder has let it go. -/
  dropped : Bool := false
deriving DecidableEq

structure StoreSession (ε : Type) where
  backend : ε
  slots : List TransactionSlot := []
  listeners : Nat := 0

namespace StoreSession

variable {ε : Type} [Backend ε]

/-- What listeners hear during a step: their number, and the phase in which their
transaction ended. -/
abbrev Heard := List (Nat × TransactionPhase)

def create (session : StoreSession ε) : StoreSession ε :=
  { session with slots := session.slots ++ [{}] }

/-- Makes a transaction that is begun already; if it cannot begin, there is none. -/
def provide (session : StoreSession ε) (thread : Nat) : Except Failure Unit × StoreSession ε :=
  match StoreTransaction.provide thread session.backend with
  | (.error failure, backend) => (.error failure, { session with backend })
  | (.ok transaction, backend) =>
    (.ok (), { session with backend, slots := session.slots ++ [{ transaction }] })

def held? (session : StoreSession ε) (number : Nat) : Option (StoreTransaction Nat) :=
  ((session.slots[number]?).filter fun slot => !slot.dropped).map TransactionSlot.transaction

def act (session : StoreSession ε) (number : Nat)
    (action : StoreTransaction Nat → ε → Except Failure Heard × StoreTransaction Nat × ε) :
    Except Failure Heard × StoreSession ε :=
  match session.held? number with
  | none => (.ok [], session)
  | some held =>
    match action held session.backend with
    | (answer, transaction, backend) =>
      (answer, { session with backend, slots := session.slots.set number { transaction } })

def begin (session : StoreSession ε) (number thread : Nat) :
    Except Failure Heard × StoreSession ε :=
  session.act number fun held backend =>
    match held.begin thread backend with
    | (answer, transaction, backend) => (answer.map fun _ => [], transaction, backend)

def commit (session : StoreSession ε) (number thread : Nat) :
    Except Failure Heard × StoreSession ε :=
  session.act number fun held backend => held.commit thread backend

def abort (session : StoreSession ε) (number thread : Nat) :
    Except Failure Heard × StoreSession ε :=
  session.act number fun held backend => held.abort thread backend

/-- Adds a listener to a transaction; gives its number. -/
def listen (session : StoreSession ε) (number : Nat) : Nat × StoreSession ε :=
  let (_, heard) := session.act number fun held backend =>
    (.ok [], held.withListener session.listeners, backend)
  (session.listeners, { heard with listeners := session.listeners + 1 })

def drop (session : StoreSession ε) (number : Nat) : StoreSession ε :=
  { session with slots := session.slots.modify number fun slot => { slot with dropped := true } }

/-- How many transactions are in a phase, dropped or not. -/
def countIn (session : StoreSession ε) (phase : TransactionPhase) : Nat :=
  session.slots.countP fun slot => slot.transaction.phase == phase

end StoreSession
end SharedGraph
