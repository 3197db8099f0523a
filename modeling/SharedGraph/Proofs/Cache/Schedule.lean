import SharedGraph.Proofs.Cache.Agreement

/-!
# Schedules are moves

A session decides which operation gets its turn when, and how time passes.  None of this can do
what moves cannot: whatever a session does, in the background or in the foreground, is a run of
moves.  So what moves keep holds after all commands; in particular, local values agree with the
tier, unless mutations are applied locally (`commands_agree`).
-/

namespace SharedGraph
namespace Session

def Reaches (session later : Session) : Prop :=
  ∃ moves : List Move, moves.foldl Move.make session = later

namespace Reaches

variable {session middle later : Session}

theorem refl (session : Session) : session.Reaches session :=
  ⟨[], rfl⟩

theorem move (session : Session) (move : Move) : session.Reaches (move.make session) :=
  ⟨[move], rfl⟩

theorem trans (hfirst : session.Reaches middle) (hlater : middle.Reaches later) :
    session.Reaches later := by
  rcases hfirst with ⟨done, rfl⟩
  rcases hlater with ⟨rest, rfl⟩
  exact ⟨done ++ rest, List.foldl_append⟩

end Reaches

/-!
## In the background
-/

theorem reaches_settle (session : Session) : session.Reaches session.settle :=
  ⟨session.order.map Move.turn, List.foldl_map⟩

theorem reaches_until (session : Session) (instant : Nat) :
    session.Reaches { session with now := max session.now instant } := by
  have hwait : session.now + (instant - session.now) = max session.now instant := by omega
  rw [← hwait]
  exact Reaches.move session (.wait (instant - session.now))

theorem reaches_passUntil (horizon : Nat) (awaited : Option String) (instants : Nat)
    (session : Session) : session.Reaches (passUntil horizon awaited instants session) := by
  induction instants generalizing session with
  | zero => exact Reaches.refl session
  | succ instants ih =>
    rw [passUntil]
    split
    · exact Reaches.refl session
    · split
      · exact session.reaches_until horizon
      · next instant _ =>
        exact (session.reaches_until instant).trans ((reaches_settle _).trans (ih _))

theorem reaches_pass (session : Session) (duration : Nat) :
    session.Reaches (session.pass duration) :=
  reaches_passUntil _ _ _ session

theorem reaches_start (session : Session) (name : String) (call : CacheCall) :
    session.Reaches (session.start name call) :=
  (reaches_settle session).trans
    ((Reaches.move session.settle (.submit name call)).trans (reaches_settle _))

theorem reaches_await (session : Session) (name : String) :
    session.Reaches (session.await name).2 := by
  rw [await]
  split <;> exact reaches_passUntil _ _ _ session

theorem reaches_disconnect (session : Session) : session.Reaches session.disconnect :=
  Reaches.move session (.connect false)

theorem reaches_reconnect (session : Session) : session.Reaches session.reconnect :=
  (Reaches.move session (.connect true)).trans (reaches_settle _)

/-!
## In the foreground
-/

def behind (session : Session) (name : String) (task : SessionTask) : Session :=
  { session with tasks := (name, task) :: session.tasks }

theorem advanceAt_behind (session : Session) (name : String) (task : SessionTask) (place : Nat) :
    (session.behind name task).advanceAt (place + 1) =
      (session.advanceAt place).behind name task := by
  simp only [advanceAt, behind, List.getElem?_cons_succ]
  cases session.tasks[place]? with
  | none => rfl
  | some found => rfl

theorem foldl_advanceAt_behind (places : List Nat) (session : Session) (name : String)
    (task : SessionTask) :
    (places.map (· + 1)).foldl advanceAt (session.behind name task) =
      (places.foldl advanceAt session).behind name task := by
  induction places generalizing session with
  | nil => rfl
  | cons place rest ih =>
    rw [List.map_cons, List.foldl_cons, List.foldl_cons, advanceAt_behind, ih]

theorem reaches_settleBehind (session : Session) (name : String) (task : SessionTask) :
    (session.behind name task).Reaches
      ((session.settleBehind task).2.behind name (session.settleBehind task).1) := by
  have hfront := Reaches.move (session.behind name task) (.turn 0)
  rw [settleBehind]
  dsimp only
  split
  · exact hfront
  · refine hfront.trans ?_
    generalize hturned : ({ session with
      cache := _, tier := _, turns := session.turns + 1 } : Session) = turned
    refine ⟨(turned.order.map (· + 1)).map Move.turn, ?_⟩
    rw [List.foldl_map, settle, ← foldl_advanceAt_behind, ← hturned]
    rfl

theorem reaches_passBehind (name : String) (instants : Nat) (task : SessionTask)
    (session : Session) :
    (session.behind name task).Reaches
      ((passBehind instants task session).2.behind name (passBehind instants task session).1) := by
  induction instants generalizing task session with
  | zero => exact Reaches.refl _
  | succ instants ih =>
    have hsettled := reaches_settleBehind session name task
    rw [passBehind]
    generalize session.settleBehind task = turned at hsettled ⊢
    obtain ⟨waited, settled⟩ := turned
    dsimp only at hsettled ⊢
    split
    · exact hsettled
    · next own _ =>
      refine hsettled.trans ?_
      generalize (settled.nextInstant? own).getD own = instant
      exact ((settled.behind name waited).reaches_until instant).trans
        (ih waited { settled with now := max settled.now instant })

/-- An operation in the foreground runs as if it had been submitted in front of all others; its
result is what it ended with. -/
theorem reaches_run (session : Session) (name : String) (call : CacheCall) :
    ∃ task, (session.enter name call).Reaches ((session.run call).2.behind name task) ∧
      ∀ answer elapsed, (session.run call).1 = some (answer, elapsed) →
        task = .finished answer elapsed := by
  rw [run]
  dsimp only
  generalize instantBound _ _ + 1 = instants
  have hpassed : (session.enter name call).Reaches _ :=
    reaches_passBehind name instants (.waiting (session.submit call).1) (session.submit call).2
  generalize passBehind instants _ _ = passed at hpassed ⊢
  obtain ⟨task, later⟩ := passed
  refine ⟨task, ?_⟩
  cases task with
  | finished answer elapsed =>
    refine ⟨hpassed, fun answer' elapsed' hresult => ?_⟩
    cases hresult
    rfl
  | waiting ticket =>
    refine ⟨hpassed, fun answer elapsed hresult => ?_⟩
    cases hresult
  | abandoned =>
    refine ⟨hpassed, fun answer elapsed hresult => ?_⟩
    cases hresult

/-!
## Commands
-/

inductive Command where
  | start (name : String) (call : CacheCall)
  | run (call : CacheCall)
  | await (name : String)
  | pass (duration : Nat)
  | disconnect
  | reconnect

def Command.perform (session : Session) : Command → Session
  | .start name call => session.start name call
  | .run call => (session.run call).2
  | .await name => (session.await name).2
  | .pass duration => session.pass duration
  | .disconnect => session.disconnect
  | .reconnect => session.reconnect

/-- Moves do to the cache and the tier what a command does; an operation in the foreground is one
more than those that the command leaves. -/
theorem perform_reached (session : Session) (command : Command) :
    ∃ later, session.Reaches later ∧ later.cache = (command.perform session).cache ∧
      later.tier = (command.perform session).tier ∧
      ∀ task ∈ (command.perform session).tasks, task ∈ later.tasks := by
  cases command with
  | start name call => exact ⟨_, session.reaches_start name call, rfl, rfl, fun _ hmem => hmem⟩
  | await name => exact ⟨_, session.reaches_await name, rfl, rfl, fun _ hmem => hmem⟩
  | pass duration => exact ⟨_, session.reaches_pass duration, rfl, rfl, fun _ hmem => hmem⟩
  | disconnect => exact ⟨_, session.reaches_disconnect, rfl, rfl, fun _ hmem => hmem⟩
  | reconnect => exact ⟨_, session.reaches_reconnect, rfl, rfl, fun _ hmem => hmem⟩
  | run call =>
    rcases session.reaches_run "foreground" call with ⟨task, hreaches, -⟩
    exact ⟨_, (Reaches.move session (.submit "foreground" call)).trans hreaches, rfl, rfl,
      fun _ hmem => List.mem_cons_of_mem _ hmem⟩

variable {session : Session} {store : MemoryTier} {config : CacheSettings}

theorem agrees_perform (hbehavior : config.behavior ≠ .localOnly)
    (hmemory : session.InMemory store) (hagrees : Agrees config [] store session.cache)
    (command : Command) :
    ∃ store', (command.perform session).InMemory store' ∧
      Agrees config [] store' (command.perform session).cache := by
  rcases session.perform_reached command with ⟨later, ⟨moves, rfl⟩, hcache, htier, htasks⟩
  rcases agrees_run hmemory hagrees moves with ⟨store', hreached, hkeeps⟩
  rw [← hcache]
  refine ⟨store', ⟨htier ▸ hreached.tier, fun name ticket hmem => ?_⟩, hkeeps.configured, ?_⟩
  · exact hreached.connecting name ticket (htasks _ hmem)
  · exact fun key _ => hkeeps.kept key (Ending.not_diverges_of_behavior hbehavior)

theorem agrees_commands (hbehavior : config.behavior ≠ .localOnly)
    (hmemory : session.InMemory store) (hagrees : Agrees config [] store session.cache)
    (commands : List Command) :
    ∃ store', (commands.foldl Command.perform session).InMemory store' ∧
      Agrees config [] store' (commands.foldl Command.perform session).cache := by
  induction commands generalizing session store with
  | nil => exact ⟨store, hmemory, hagrees⟩
  | cons command rest ih =>
    rcases agrees_perform hbehavior hmemory hagrees command with ⟨reached, hreached, hkeeps⟩
    exact ih hreached hkeeps

/-- After all commands to a session with a new cache that is the only client of a tier in memory,
what is kept for a key is what the tier has, unless mutations are applied locally. -/
theorem commands_agree {name : String} {cache : Cache}
    (hcreate : Cache.create name config = .ok cache) (hbehavior : config.behavior ≠ .localOnly)
    (store : MemoryTier) (commands : List Command) (key value : String)
    (hkept : (commands.foldl Command.perform { cache, tier := .memory store }).cache.kept? key =
      some value) :
    (commands.foldl Command.perform { cache, tier := .memory store }).tier.value? key =
      some value := by
  have hstart : InMemory { cache, tier := .memory store } store :=
    ⟨rfl, fun _ _ hmem => absurd hmem List.not_mem_nil⟩
  rcases agrees_commands hbehavior hstart (agrees_new hcreate store) commands with
    ⟨reached, hmemory, hagrees⟩
  rw [hmemory.tier]
  exact hagrees.kept key (Ending.not_diverges_of_behavior hbehavior) value hkept

end Session
end SharedGraph
