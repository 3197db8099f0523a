import SharedGraph.Cache.Basic

/-!
# Operations under way

An operation asks the server tier until it gets an answer other than that the tier is
disconnected; after such an answer it pauses and asks again.  When its limit passes, it
is given up.  At one instant the answer is looked at before the limit, so an answer that
is due at the limit still counts.

Operations are looked at in turns, which are numbered.  A ticket keeps the turns in which
its waits began: of two that are due at one instant, the older wait ends first.
-/

namespace SharedGraph

inductive TicketPhase where
  | connecting
  | answering (due : Nat) (answer : CacheAnswer)
  /-- Its limit, as no answer will come. -/
  | hanging
  /-- The end of the pause before it asks again. -/
  | pausing (until_ : Nat)

/-- An operation under way. -/
structure Ticket where
  call : CacheCall
  submitted : Nat
  deadline : Option Nat
  phase : TicketPhase
  /-- The turn in which it was submitted. -/
  entered : Nat
  /-- The turn in which it began to wait for what it waits for now. -/
  turn : Nat

namespace Ticket

/-- How many milliseconds an operation pauses after it found the tier disconnected. -/
def pause : Nat := 50

def phaseOf (now : Nat) : Expectation → TicketPhase
  | .connection => .connecting
  | .answer delay answer => .answering (now + delay) answer
  | .nothing => .hanging

def submit (cache : Cache) (call : CacheCall) (now turn : Nat) (tier : ServerTier) :
    Ticket × ServerTier :=
  let (expectation, tier) := tier.ask call
  let phase := phaseOf now expectation
  ({ call, submitted := now, deadline := cache.deadline? now, phase, entered := turn, turn }, tier)

def resume (now turn : Nat) (ticket : Ticket) (tier : ServerTier) : Ticket × ServerTier :=
  match ticket.phase with
  | .pausing until_ =>
    if until_ ≤ now then
      let (expectation, tier) := tier.ask ticket.call
      ({ ticket with phase := phaseOf now expectation, turn }, tier)
    else (ticket, tier)
  | _ => (ticket, tier)

def answer? (now : Nat) (ticket : Ticket) (tier : ServerTier) : Option (CacheAnswer × ServerTier) :=
  match ticket.phase with
  | .connecting => tier.serve? ticket.call
  | .answering due answer => if due ≤ now then some (answer, tier) else none
  | .hanging | .pausing _ => none

def saysDisconnected : CacheAnswer → Bool
  | .error failure => failure.isDisconnected
  | .ok _ => false

def isExpired (now : Nat) (ticket : Ticket) : Bool :=
  ticket.deadline.any (· ≤ now)

def expire (now : Nat) (ticket : Ticket) (cache : Cache) (tier : ServerTier) :
    (CacheAnswer ⊕ Ticket) × Cache × ServerTier :=
  if ticket.isExpired now then
    let (answer, cache) := cache.timedOut ticket.call
    (.inl answer, cache, tier)
  else (.inr ticket, cache, tier)

def respond (now turn : Nat) (ticket : Ticket) (cache : Cache) (tier : ServerTier) :
    (CacheAnswer ⊕ Ticket) × Cache × ServerTier :=
  match ticket.answer? now tier with
  | none => expire now ticket cache tier
  | some (answer, tier) =>
    if saysDisconnected answer then
      expire now { ticket with phase := .pausing (now + pause), turn } cache tier
    else
      let (answer, cache) := cache.settled ticket.call answer
      (.inl answer, cache, tier)

/-- Does all that an operation can do at the instant `now`: it has a result then, or goes
on waiting. -/
def advance (now turn : Nat) (ticket : Ticket) (cache : Cache) (tier : ServerTier) :
    (CacheAnswer ⊕ Ticket) × Cache × ServerTier :=
  let (ticket, tier) := ticket.resume now turn tier
  ticket.respond now turn cache tier

def nextInstant? (ticket : Ticket) : Option Nat :=
  let own :=
    match ticket.phase with
    | .answering due _ => some due
    | .pausing until_ => some until_
    | .connecting | .hanging => none
  (own.toList ++ ticket.deadline.toList).min?

end Ticket
end SharedGraph
