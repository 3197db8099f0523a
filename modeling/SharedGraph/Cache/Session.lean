import SharedGraph.Cache.Ticket

/-!
# Sessions with a nonstop cache

A session runs operations of one cache against one server tier, some of them in the
background.  Time is counted in milliseconds and moves only when every operation waits.
Of what is due at one instant, the operation in the foreground comes first, and then the
background in the order in which it began to wait.  The patience of callers is limited:
an operation that waits too long is given up, and leaves no trace but what it has done.
-/

namespace SharedGraph

inductive SessionTask where
  | waiting (ticket : Ticket)
  | finished (answer : CacheAnswer) (elapsed : Nat)
  /-- Its caller has walked away. -/
  | abandoned

/-- How many milliseconds a caller waits for an operation before it walks away, if nothing
else is said. -/
def SessionTask.patience : Nat := 100000

/-- A cache and its server tier, with the operations in the background by name. -/
structure Session where
  cache : Cache
  tier : ServerTier
  patience : Nat := SessionTask.patience
  now : Nat := 0
  turns : Nat := 0
  /-- The operations that were started, the last one first. -/
  tasks : List (String × SessionTask) := []

namespace SessionTask

def isOver : SessionTask → Bool
  | .finished .. | .abandoned => true
  | .waiting _ => false

def nextInstant? (patience : Nat) : SessionTask → Option Nat
  | .waiting ticket =>
    let limit := ticket.submitted + patience
    some ((ticket.nextInstant?.map (min limit)).getD limit)
  | .finished .. | .abandoned => none

/-- Which of the waits that may end at the instant `now` ends first: the number of the turn
in which it began. -/
def rank? (patience now : Nat) : SessionTask → Option Nat
  | .waiting ticket =>
    let limited := ticket.isExpired now || decide (ticket.submitted + patience ≤ now)
    some (if limited then ticket.entered else ticket.turn)
  | .finished .. | .abandoned => none

/-- Does all that the operation can do at the instant `now`.  A result that is there when
its caller would walk away still counts. -/
def advance (patience now turn : Nat) (task : SessionTask) (cache : Cache) (tier : ServerTier) :
    SessionTask × Cache × ServerTier :=
  match task with
  | .finished answer elapsed => (.finished answer elapsed, cache, tier)
  | .abandoned => (.abandoned, cache, tier)
  | .waiting ticket =>
    match ticket.advance now turn cache tier with
    | (.inl answer, cache, tier) => (.finished answer (now - ticket.submitted), cache, tier)
    | (.inr ticket, cache, tier) =>
      (if ticket.submitted + patience ≤ now then .abandoned else .waiting ticket, cache, tier)

end SessionTask

namespace Session

def order (session : Session) : List Nat :=
  let waiting := session.tasks.zipIdx.filterMap fun ((_, task), place) =>
    (task.rank? session.patience session.now).map fun rank => (rank, place)
  (waiting.mergeSort fun first second => decide (first.1 ≤ second.1)).map Prod.snd

def advanceAt (session : Session) (place : Nat) : Session :=
  match session.tasks[place]? with
  | none => session
  | some (name, task) =>
    let (task, cache, tier) :=
      task.advance session.patience session.now session.turns session.cache session.tier
    let tasks := session.tasks.set place (name, task)
    { session with cache, tier, tasks, turns := session.turns + 1 }

def settle (session : Session) : Session :=
  session.order.foldl advanceAt session

def task? (session : Session) (name : String) : Option SessionTask :=
  session.tasks.lookup name

def nextInstant? (session : Session) (horizon : Nat) : Option Nat :=
  let instants := session.tasks.filterMap fun task => task.2.nextInstant? session.patience
  instants.min?.filter (· ≤ horizon)

/-- Lets time pass up to `horizon` until the operation `awaited`, if one is named, is over;
at most `instants` times. -/
def passUntil (horizon : Nat) (awaited : Option String) : Nat → Session → Session
  | 0, session => session
  | instants + 1, session =>
    if (awaited.bind session.task?).any SessionTask.isOver then session
    else
      match session.nextInstant? horizon with
      | none => { session with now := max session.now horizon }
      | some instant =>
        passUntil horizon awaited instants
          { session with now := max session.now instant }.settle

/-- Every operation does something at most once in a millisecond, so this many instants
are enough. -/
def instantBound (session : Session) (horizon : Nat) : Nat :=
  (horizon - session.now + 1) * (session.tasks.length + 1) + 1

def pass (session : Session) (duration : Nat) : Session :=
  let horizon := session.now + duration
  passUntil horizon none (session.instantBound horizon) session

def submit (session : Session) (call : CacheCall) : Ticket × Session :=
  let (ticket, tier) := Ticket.submit session.cache call session.now session.turns session.tier
  (ticket, { session with tier, turns := session.turns + 1 })

def enter (session : Session) (name : String) (call : CacheCall) : Session :=
  let (ticket, session) := session.submit call
  { session with tasks := (name, .waiting ticket) :: session.tasks }

/-- Starts an operation in the background, after all that can be done now. -/
def start (session : Session) (name : String) (call : CacheCall) : Session :=
  (session.settle.enter name call).settle

/-- Waits for an operation; `none` if its caller walks away from it. -/
def await (session : Session) (name : String) : Option (CacheAnswer × Nat) × Session :=
  let horizon := session.now + session.patience
  let session := passUntil horizon (some name) (session.instantBound horizon) session
  match session.task? name with
  | some (.finished answer elapsed) => (some (answer, elapsed), session)
  | _ => (none, session)

/-! ## In the foreground -/

/-- Does what can be done now, an operation in the foreground first; once that is over, the
others are left as they are. -/
def settleBehind (session : Session) (task : SessionTask) : SessionTask × Session :=
  let (task, cache, tier) :=
    task.advance session.patience session.now session.turns session.cache session.tier
  let session := { session with cache, tier, turns := session.turns + 1 }
  (task, if task.isOver then session else session.settle)

def passBehind : Nat → SessionTask → Session → SessionTask × Session
  | 0, task, session => (task, session)
  | instants + 1, task, session =>
    let (task, session) := session.settleBehind task
    match task.nextInstant? session.patience with
    | none => (task, session)
    | some own =>
      let instant := (session.nextInstant? own).getD own
      passBehind instants task { session with now := max session.now instant }

def run (session : Session) (call : CacheCall) : Option (CacheAnswer × Nat) × Session :=
  let (ticket, session) := session.submit call
  let instants := session.instantBound (session.now + session.patience) + 1
  match passBehind instants (.waiting ticket) session with
  | (.finished answer elapsed, session) => (some (answer, elapsed), session)
  | (.waiting _, session) | (.abandoned, session) => (none, session)

/-! ## The connection -/

def disconnect (session : Session) : Session :=
  { session with tier := session.tier.setConnected false }

/-- Restores the connection of the tier; operations that wait for it go on at once. -/
def reconnect (session : Session) : Session :=
  { session with tier := session.tier.setConnected true }.settle

end Session
end SharedGraph
