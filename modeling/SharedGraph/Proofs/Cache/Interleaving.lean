import SharedGraph.Cache.Session

/-!
# Sessions, one move at a time

All that a session does comes down to four kinds of moves: an operation is submitted, one of those
under way gets its turn, time passes, the connection comes or goes.  Here they may come in any
order whatever, so operations overlap as they like.  With a tier in memory a move does one of
three things to the cache and the tier (`Step`): nothing, what the tier answers, or what the
behavior of the cache says when a limit has passed.
-/

namespace SharedGraph

structure Ending where
  call : CacheCall
  answer : CacheAnswer
  /-- Whether the answer is that of the tier; else the limit of the operation had passed. -/
  served : Bool

def Ticket.isServed (now turn : Nat) (ticket : Ticket) (tier : ServerTier) : Bool :=
  let (ticket, tier) := ticket.resume now turn tier
  (ticket.answer? now tier).any fun answered => !Ticket.saysDisconnected answered.1

namespace Session

inductive Move where
  | submit (name : String) (call : CacheCall)
  | turn (place : Nat)
  | wait (duration : Nat)
  | connect (connected : Bool)
deriving DecidableEq

def Move.make (session : Session) : Move → Session
  | .submit name call => session.enter name call
  | .turn place => session.advanceAt place
  | .wait duration => { session with now := session.now + duration }
  | .connect connected => { session with tier := session.tier.setConnected connected }

def Move.connection (connected : Bool) : Move → Bool
  | .connect connected => connected
  | .submit .. | .turn _ | .wait _ => connected

def ending? (session : Session) : Move → Option Ending
  | .turn place =>
    match session.tasks[place]? with
    | some (_, .waiting ticket) =>
      match ticket.advance session.now session.turns session.cache session.tier with
      | (.inl answer, _, _) =>
        some ⟨ticket.call, answer, ticket.isServed session.now session.turns session.tier⟩
      | (.inr _, _, _) => none
    | _ => none
  | .submit .. | .wait _ | .connect _ => none

def endings : List Move → Session → List Ending
  | [], _ => []
  | move :: rest, session => (session.ending? move).toList ++ endings rest (move.make session)

theorem endings_append (done rest : List Move) (session : Session) :
    endings (done ++ rest) session =
      endings done session ++ endings rest (done.foldl Move.make session) := by
  induction done generalizing session with
  | nil => rfl
  | cons move done ih =>
    rw [List.cons_append, endings, endings, ih, List.append_assoc, List.foldl_cons]

theorem endings_concat (done : List Move) (move : Move) (session : Session) :
    endings (done ++ [move]) session =
      endings done session ++ ((done.foldl Move.make session).ending? move).toList := by
  rw [endings_append, endings, endings, List.append_nil]

/-!
## Tiers in memory
-/

/-- Whether a session runs against a tier in memory.  Its operations wait for the connection
only. -/
structure InMemory (session : Session) (store : MemoryTier) : Prop where
  tier : session.tier = .memory store
  connecting : ∀ name ticket, (name, SessionTask.waiting ticket) ∈ session.tasks →
    ticket.phase = .connecting

inductive Step (store : MemoryTier) (cache : Cache) :
    Option Ending → MemoryTier → Cache → Prop where
  | quiet (connected : Bool) : Step store cache none { store with connected } cache
  | served (call : CacheCall) (hconnected : store.connected = true) :
      Step store cache (some ⟨call, .ok (store.entries.get? call.key), true⟩)
        (store.serve call).2 (cache.learn call (store.entries.get? call.key))
  | gaveUp (call : CacheCall) (hdisconnected : store.connected = false) :
      Step store cache (some ⟨call, (cache.timedOut call).1, false⟩) store
        (cache.timedOut call).2

end Session

namespace MemoryTier

theorem serve_found (store : MemoryTier) (call : CacheCall) :
    (store.serve call).1 = store.entries.get? call.key := by
  cases call <;> rfl

theorem serve_connected (store : MemoryTier) (call : CacheCall) :
    (store.serve call).2.connected = store.connected := by
  cases call <;> rfl

end MemoryTier

namespace Ticket

variable {ticket : Ticket} {store : MemoryTier} {cache : Cache}

theorem advance_connecting (now turn : Nat) (hphase : ticket.phase = .connecting) :
    ticket.advance now turn cache (.memory store) =
      if store.connected = true then
        (.inl (.ok (store.entries.get? ticket.call.key)),
          cache.learn ticket.call (store.entries.get? ticket.call.key),
          .memory (store.serve ticket.call).2)
      else if ticket.isExpired now = true then
        (.inl (cache.timedOut ticket.call).1, (cache.timedOut ticket.call).2, .memory store)
      else (.inr ticket, cache, .memory store) := by
  have hresume : ticket.resume now turn (.memory store) = (ticket, .memory store) := by
    rw [resume, hphase]
  rw [advance, hresume]
  dsimp only
  rw [respond, answer?, hphase]
  dsimp only
  rw [ServerTier.serve?]
  cases hconnected : store.connected with
  | true =>
    rw [if_pos rfl, if_pos rfl, ← store.serve_found]
    rfl
  | false =>
    rw [if_neg Bool.false_ne_true, if_neg Bool.false_ne_true]
    rfl

theorem isServed_connecting (now turn : Nat) (hphase : ticket.phase = .connecting) :
    ticket.isServed now turn (.memory store) = store.connected := by
  have hresume : ticket.resume now turn (.memory store) = (ticket, .memory store) := by
    rw [resume, hphase]
  rw [isServed, hresume]
  dsimp only
  rw [answer?, hphase]
  dsimp only
  rw [ServerTier.serve?]
  cases hconnected : store.connected with
  | true => rfl
  | false => rfl

end Ticket

namespace Session

variable {session : Session} {store : MemoryTier}

theorem InMemory.ask (hmemory : session.InMemory store) (call : CacheCall) :
    session.tier.ask call = (.connection, .memory store) := by
  rw [hmemory.tier]
  rfl

theorem InMemory.congr {next : Session} (hmemory : session.InMemory store) {store' : MemoryTier}
    (htier : next.tier = .memory store')
    (htasks : ∀ name ticket, (name, SessionTask.waiting ticket) ∈ next.tasks →
      (name, SessionTask.waiting ticket) ∈ session.tasks ∨ ticket.phase = .connecting) :
    next.InMemory store' := by
  refine ⟨htier, fun name ticket hmem => ?_⟩
  rcases htasks name ticket hmem with hold | hphase
  · exact hmemory.connecting name ticket hold
  · exact hphase

theorem inMemory_enter (hmemory : session.InMemory store) (name : String) (call : CacheCall) :
    (session.enter name call).InMemory store := by
  refine hmemory.congr ?_ fun other ticket hmem => ?_
  · rw [enter, submit, Ticket.submit, hmemory.ask]
  · rw [enter, submit, Ticket.submit, hmemory.ask] at hmem
    rcases List.mem_cons.1 hmem with hsame | hold
    · cases hsame
      exact Or.inr rfl
    · exact Or.inl hold

theorem turn_cases (session : Session) (place : Nat) :
    session.tasks[place]? = none ∨
      (∃ name task, session.tasks[place]? = some (name, task) ∧ task.isOver = true) ∨
      ∃ name ticket, session.tasks[place]? = some (name, .waiting ticket) := by
  cases hplace : session.tasks[place]? with
  | none => exact Or.inl rfl
  | some found =>
    obtain ⟨name, task⟩ := found
    cases task with
    | waiting ticket => exact Or.inr (Or.inr ⟨name, ticket, rfl⟩)
    | finished answer elapsed => exact Or.inr (Or.inl ⟨name, _, rfl, rfl⟩)
    | abandoned => exact Or.inr (Or.inl ⟨name, _, rfl, rfl⟩)

theorem advanceAt_of_over {place : Nat} {name : String} {task : SessionTask}
    (hplace : session.tasks[place]? = some (name, task)) (hover : task.isOver = true) :
    session.advanceAt place = { session with turns := session.turns + 1 } ∧
      session.ending? (.turn place) = none := by
  have htasks : session.tasks.set place (name, task) = session.tasks := by
    obtain ⟨hlt, hget⟩ := List.getElem?_eq_some_iff.1 hplace
    rw [← hget, List.set_getElem_self]
  cases task with
  | waiting ticket => cases hover
  | finished answer elapsed =>
    simp only [advanceAt, ending?, hplace, SessionTask.advance, htasks, and_self]
  | abandoned => simp only [advanceAt, ending?, hplace, SessionTask.advance, htasks, and_self]

/-- What the turn of an operation that waits for the connection can come to. -/
inductive Turn (session : Session) (store : MemoryTier) (ticket : Ticket) :
    Option Ending → MemoryTier → Cache → SessionTask → Prop where
  | served (hconnected : store.connected = true) :
      Turn session store ticket
        (some ⟨ticket.call, .ok (store.entries.get? ticket.call.key), true⟩)
        (store.serve ticket.call).2
        (session.cache.learn ticket.call (store.entries.get? ticket.call.key))
        (.finished (.ok (store.entries.get? ticket.call.key)) (session.now - ticket.submitted))
  | gaveUp (hdisconnected : store.connected = false)
      (hexpired : ticket.isExpired session.now = true) :
      Turn session store ticket (some ⟨ticket.call, (session.cache.timedOut ticket.call).1, false⟩)
        store (session.cache.timedOut ticket.call).2
        (.finished (session.cache.timedOut ticket.call).1 (session.now - ticket.submitted))
  | abandoned (hdisconnected : store.connected = false)
      (hexpired : ticket.isExpired session.now = false)
      (hpatience : ticket.submitted + session.patience ≤ session.now) :
      Turn session store ticket none store session.cache .abandoned
  | waits (hdisconnected : store.connected = false)
      (hexpired : ticket.isExpired session.now = false)
      (hpatience : session.now < ticket.submitted + session.patience) :
      Turn session store ticket none store session.cache (.waiting ticket)

theorem advanceAt_inl {place : Nat} {name : String} {ticket : Ticket} {answer : CacheAnswer}
    {cache : Cache} {tier : ServerTier}
    (hplace : session.tasks[place]? = some (name, .waiting ticket))
    (hadvance : ticket.advance session.now session.turns session.cache session.tier =
      (.inl answer, cache, tier)) :
    session.advanceAt place =
        { session with
          cache, tier
          tasks := session.tasks.set place
            (name, .finished answer (session.now - ticket.submitted))
          turns := session.turns + 1 } ∧
      session.ending? (.turn place) =
        some ⟨ticket.call, answer, ticket.isServed session.now session.turns session.tier⟩ := by
  simp only [advanceAt, ending?, hplace, SessionTask.advance, hadvance, and_self]

theorem advanceAt_inr {place : Nat} {name : String} {ticket later : Ticket} {cache : Cache}
    {tier : ServerTier} (hplace : session.tasks[place]? = some (name, .waiting ticket))
    (hadvance : ticket.advance session.now session.turns session.cache session.tier =
      (.inr later, cache, tier)) :
    session.advanceAt place =
        { session with
          cache, tier
          tasks := session.tasks.set place
            (name, if later.submitted + session.patience ≤ session.now then .abandoned
              else .waiting later)
          turns := session.turns + 1 } ∧
      session.ending? (.turn place) = none := by
  simp only [advanceAt, ending?, hplace, SessionTask.advance, hadvance, and_self]

theorem turn_of_waiting (hmemory : session.InMemory store) {place : Nat} {name : String}
    {ticket : Ticket} (hplace : session.tasks[place]? = some (name, .waiting ticket)) :
    ∃ store' rest, (session.advanceAt place).tier = .memory store' ∧
      (session.advanceAt place).tasks = session.tasks.set place (name, rest) ∧
      Turn session store ticket (session.ending? (.turn place)) store'
        (session.advanceAt place).cache rest := by
  have hphase : ticket.phase = .connecting :=
    hmemory.connecting name ticket (List.mem_of_getElem? hplace)
  have hadvance : ticket.advance session.now session.turns session.cache (.memory store) = _ :=
    Ticket.advance_connecting session.now session.turns hphase
  have hserved : ticket.isServed session.now session.turns (.memory store) = store.connected :=
    Ticket.isServed_connecting session.now session.turns hphase
  rw [← hmemory.tier] at hadvance hserved
  cases hconnected : store.connected with
  | true =>
    rw [hconnected, if_pos rfl] at hadvance
    rcases advanceAt_inl hplace hadvance with ⟨hmade, hending⟩
    rw [hmade, hending, hserved, hconnected]
    exact ⟨_, _, rfl, rfl, .served hconnected⟩
  | false =>
    rw [hconnected, if_neg Bool.false_ne_true] at hadvance
    cases hexpired : ticket.isExpired session.now with
    | true =>
      rw [hexpired, if_pos rfl] at hadvance
      rcases advanceAt_inl hplace hadvance with ⟨hmade, hending⟩
      rw [hmade, hending, hserved, hconnected]
      exact ⟨_, _, hmemory.tier, rfl, .gaveUp hconnected hexpired⟩
    | false =>
      rw [hexpired, if_neg Bool.false_ne_true] at hadvance
      rcases advanceAt_inr hplace hadvance with ⟨hmade, hending⟩
      rw [hmade, hending]
      by_cases hpatience : ticket.submitted + session.patience ≤ session.now
      · rw [if_pos hpatience]
        exact ⟨_, _, hmemory.tier, rfl, .abandoned hconnected hexpired hpatience⟩
      · rw [if_neg hpatience]
        exact ⟨_, _, hmemory.tier, rfl, .waits hconnected hexpired (Nat.lt_of_not_le hpatience)⟩

theorem Turn.step {ticket : Ticket} {ending : Option Ending} {store' : MemoryTier} {cache : Cache}
    {rest : SessionTask} (hturn : Turn session store ticket ending store' cache rest) :
    store'.connected = store.connected ∧ Step store session.cache ending store' cache := by
  cases hturn with
  | served hconnected =>
    exact ⟨store.serve_connected ticket.call, .served ticket.call hconnected⟩
  | gaveUp hdisconnected hexpired => exact ⟨rfl, .gaveUp ticket.call hdisconnected⟩
  | abandoned hdisconnected hexpired hpatience => exact ⟨rfl, .quiet store.connected⟩
  | waits hdisconnected hexpired hpatience => exact ⟨rfl, .quiet store.connected⟩

theorem Turn.eq_of_waiting {ticket later : Ticket} {ending : Option Ending} {store' : MemoryTier}
    {cache : Cache} (hturn : Turn session store ticket ending store' cache (.waiting later)) :
    later = ticket := by
  cases hturn
  rfl

theorem step_make (hmemory : session.InMemory store) (move : Move) :
    ∃ store', (move.make session).InMemory store' ∧
      store'.connected = move.connection store.connected ∧
      Step store session.cache (session.ending? move) store' (move.make session).cache := by
  cases move with
  | submit name call =>
    exact ⟨store, inMemory_enter hmemory name call, rfl, .quiet store.connected⟩
  | wait duration =>
    exact ⟨store, ⟨hmemory.tier, hmemory.connecting⟩, rfl, .quiet store.connected⟩
  | connect connected =>
    refine ⟨{ store with connected }, ⟨?_, hmemory.connecting⟩, rfl, .quiet connected⟩
    simp only [Move.make, hmemory.tier, ServerTier.setConnected]
  | turn place =>
    rcases turn_cases session place with
      hnone | ⟨name, task, hplace, hover⟩ | ⟨name, ticket, hplace⟩
    · have hsame : session.advanceAt place = session := by rw [advanceAt, hnone]
      have hending : session.ending? (.turn place) = none := by rw [ending?, hnone]
      rw [Move.make, hsame, hending]
      exact ⟨store, hmemory, rfl, .quiet store.connected⟩
    · rcases advanceAt_of_over hplace hover with ⟨hsame, hending⟩
      rw [Move.make, hsame, hending]
      exact ⟨store, ⟨hmemory.tier, hmemory.connecting⟩, rfl, .quiet store.connected⟩
    · rcases turn_of_waiting hmemory hplace with ⟨store', rest, htier, htasks, hturn⟩
      have hphase : ticket.phase = .connecting :=
        hmemory.connecting name ticket (List.mem_of_getElem? hplace)
      rcases hturn.step with ⟨hconnection, hstep⟩
      refine ⟨store', ?_, hconnection, hstep⟩
      refine hmemory.congr htier fun other waiting hmem => ?_
      rw [Move.make, htasks] at hmem
      rcases List.mem_or_eq_of_mem_set hmem with hold | hsame
      · exact Or.inl hold
      · obtain ⟨rfl, rfl⟩ := Prod.mk.inj hsame
        rw [hturn.eq_of_waiting]
        exact Or.inr hphase

end Session
end SharedGraph
