import SharedGraph.Proofs.Cache.LeastRecent
import SharedGraph.Proofs.Cache.Pending

/-!
# What an outage can change

While the tier is not connected, operations can only pass their limits.  So what an outage does,
however its operations overlap, is what the behavior of the cache makes of them one after another
(`Cache.outlast`), and nothing of it reaches the tier, then or later.
-/

namespace SharedGraph

/-!
## Limits that pass one after another
-/

namespace Cache

variable {cache : Cache}

def outlast (cache : Cache) : List CacheCall → List CacheAnswer × Cache
  | [] => ([], cache)
  | call :: rest =>
    let (answer, cache) := cache.timedOut call
    let (answers, cache) := cache.outlast rest
    (answer :: answers, cache)

theorem outlast_cons (cache : Cache) (call : CacheCall) (rest : List CacheCall) :
    cache.outlast (call :: rest) =
      ((cache.timedOut call).1 :: ((cache.timedOut call).2.outlast rest).1,
        ((cache.timedOut call).2.outlast rest).2) :=
  rfl

theorem timedOut_unchanged (hbehavior : cache.config.behavior = .failAll ∨
    cache.config.behavior = .ignore) (call : CacheCall) : (cache.timedOut call).2 = cache := by
  rcases cache.timedOut_fallsBack call with ⟨values, hcache, hfalls⟩
  rw [hcache]
  generalize (cache.timedOut call).1 = result at hfalls
  have hsame : values = cache.values := by
    rcases hbehavior with hfail | hignore
    · rw [hfail] at hfalls
      cases hfalls with
      | anyFails => rfl
      | readKept hreads hkept => exact absurd hreads (by decide)
      | readMissing hreads hmissing => rfl
    · rw [hignore] at hfalls
      cases hfalls with
      | dropped => rfl
      | readKept hreads hkept => exact absurd hreads (by decide)
      | readMissing hreads hmissing => rfl
  rw [hsame]

theorem timedOut_perm (hbehavior : cache.config.behavior = .failMutations) (call : CacheCall) :
    (cache.timedOut call).2.values.entries.Perm cache.values.entries := by
  rcases cache.timedOut_fallsBack call with ⟨values, hcache, hfalls⟩
  rw [hcache]
  rw [hbehavior] at hfalls
  generalize (cache.timedOut call).1 = result at hfalls
  dsimp only
  cases hfalls with
  | readKept hreads hkept => exact RecentMap.perm_touch
  | readMissing hreads hmissing => exact List.Perm.refl _
  | putFails key value => exact List.Perm.refl _
  | removeFails key => exact List.Perm.refl _

theorem outlast_preserves (property : Cache → Prop)
    (hstep : ∀ cache call, property cache → property (cache.timedOut call).2)
    (hcache : property cache) (calls : List CacheCall) : property (cache.outlast calls).2 := by
  induction calls generalizing cache with
  | nil => exact hcache
  | cons call rest ih => exact ih (hstep cache call hcache)

theorem config_outlast (cache : Cache) (calls : List CacheCall) :
    (cache.outlast calls).2.config = cache.config :=
  outlast_preserves (fun reached => reached.config = cache.config)
    (fun reached call hreached => (reached.config_timedOut call).trans hreached) rfl calls

theorem outlast_unchanged
    (hbehavior : cache.config.behavior = .failAll ∨ cache.config.behavior = .ignore)
    (calls : List CacheCall) : (cache.outlast calls).2 = cache := by
  refine outlast_preserves (fun reached => reached = cache) ?_ rfl calls
  rintro reached call rfl
  exact timedOut_unchanged hbehavior call

theorem outlast_perm (hbehavior : cache.config.behavior = .failMutations)
    (calls : List CacheCall) :
    (cache.outlast calls).2.values.entries.Perm cache.values.entries := by
  have hboth : (cache.outlast calls).2.config.behavior = .failMutations ∧
      (cache.outlast calls).2.values.entries.Perm cache.values.entries := by
    refine outlast_preserves (fun reached => reached.config.behavior = .failMutations ∧
      reached.values.entries.Perm cache.values.entries) ?_ ⟨hbehavior, List.Perm.refl _⟩ calls
    rintro reached call ⟨hreached, hperm⟩
    refine ⟨?_, (timedOut_perm hreached call).trans hperm⟩
    rw [reached.config_timedOut, hreached]
  exact hboth.2

def readFailure (cache : Cache) : Failure :=
  .nonstopTimeout s!"{cache.name}.get" cache.config.timeout

def answerOf (cache : Cache) : Option (Option String) → CacheAnswer
  | some found => .ok found
  | none => .error cache.readFailure

theorem timeoutFailure_get (cache : Cache) (key : String) :
    cache.timeoutFailure (.get key) = cache.readFailure := by
  rw [timeoutFailure, readFailure]
  congr 1
  exact String.append_assoc

/-- In this mode limits that pass do to the local values what calls do to a map of the last
uses. -/
theorem timedOut_mirrors {map : LruMap} (hbehavior : cache.config.behavior = .localOnly)
    (hmirrors : map.Mirrors cache.values) (call : CacheCall) :
    (cache.timedOut call).1 = cache.answerOf (map.perform call).1 ∧
      (map.perform call).2.Mirrors (cache.timedOut call).2.values := by
  cases call with
  | get key =>
    have htouched := LruMap.mirrors_touch hmirrors key
    simp only [timedOut, hbehavior, kept?, LruMap.perform, hmirrors.get?_eq]
    cases hheld : cache.values.peek? key with
    | none =>
      rw [RecentMap.touch, hheld] at htouched
      exact ⟨congrArg Except.error (cache.timeoutFailure_get key), htouched⟩
    | some value => exact ⟨rfl, htouched⟩
  | put key value =>
    simp only [timedOut, hbehavior, kept?, LruMap.perform, hmirrors.get?_eq]
    exact ⟨rfl, LruMap.mirrors_put hmirrors key value⟩
  | remove key =>
    simp only [timedOut, hbehavior, kept?, LruMap.perform, hmirrors.get?_eq]
    exact ⟨rfl, LruMap.mirrors_erase hmirrors key⟩

theorem outlast_mirrors {map : LruMap} (hbehavior : cache.config.behavior = .localOnly)
    (hmirrors : map.Mirrors cache.values) (calls : List CacheCall) :
    (cache.outlast calls).1 = (map.run calls).1.map cache.answerOf ∧
      (map.after calls).Mirrors (cache.outlast calls).2.values := by
  induction calls generalizing cache map with
  | nil => exact ⟨rfl, hmirrors⟩
  | cons call rest ih =>
    rcases cache.timedOut_mirrors hbehavior hmirrors call with ⟨hanswer, hnext⟩
    have hconfig := cache.config_timedOut call
    have hanswerOf : (cache.timedOut call).2.answerOf = cache.answerOf := by
      rcases cache.timedOut_fallsBack call with ⟨values, hcache, -⟩
      rw [hcache]
      rfl
    rcases ih (by rw [hconfig, hbehavior]) hnext with ⟨hanswers, hfinal⟩
    rw [hanswerOf] at hanswers
    refine ⟨?_, hfinal⟩
    rw [outlast_cons, LruMap.run, List.map_cons]
    exact congrArg₂ List.cons hanswer hanswers

/-- Whether a read of a key gets what was last written for it by the calls before, and fails if the
key has no value or was evicted since. -/
def Sees (cache : Cache) (earlier : List CacheCall) (key : String) (answer : CacheAnswer) : Prop :=
  ((LruMap.ofRecent cache.values).EvictedSince key earlier →
      answer = .error cache.readFailure) ∧
    (¬(LruMap.ofRecent cache.values).EvictedSince key earlier →
      answer =
        match CacheCall.latest key earlier (cache.kept? key) with
        | some value => .ok (some value)
        | none => .error cache.readFailure)

theorem sees_of_run (earlier : List CacheCall) (key : String) :
    cache.Sees earlier key (cache.answerOf
      (((LruMap.ofRecent cache.values).after earlier).perform (.get key)).1) := by
  have hmirrors : (LruMap.ofRecent cache.values).Mirrors cache.values := LruMap.mirrors_ofRecent _
  rw [LruMap.perform]
  refine ⟨fun hevicted => ?_, fun hkept => ?_⟩
  · rw [LruMap.get?_of_evictedSince hmirrors hevicted]
    rfl
  · rcases LruMap.get?_after hmirrors key earlier with hlatest | ⟨-, hevicted⟩
    · rw [hlatest, hmirrors.get?_eq, kept?]
      cases CacheCall.latest key earlier (cache.values.peek? key) with
      | none => rfl
      | some value => rfl
    · exact absurd hevicted hkept

end Cache

/-!
## Runs without a connection
-/

namespace Session

variable {session : Session} {store : MemoryTier} {move : Move} {moves : List Move}

/-- Without a connection a move leaves the tier as it is, and does to the cache at most what a
limit that passes does. -/
theorem outage_step (hmemory : session.InMemory store) (hdown : store.connected = false)
    (hmove : move ≠ .connect true) :
    (move.make session).InMemory store ∧
      ((session.ending? move = none ∧ (move.make session).cache = session.cache) ∨
        ∃ call, session.ending? move = some ⟨call, (session.cache.timedOut call).1, false⟩ ∧
          (move.make session).cache = (session.cache.timedOut call).2) := by
  rcases step_make hmemory move with ⟨store', hmade, hconnection, hstep⟩
  have hstays : store'.connected = false := by
    rw [hconnection]
    cases move with
    | submit name call => exact hdown
    | turn place => exact hdown
    | wait duration => exact hdown
    | connect connected =>
      cases connected with
      | true => exact absurd rfl hmove
      | false => rfl
  generalize session.ending? move = ending at hstep ⊢
  generalize (move.make session).cache = cache at hstep ⊢
  cases hstep with
  | quiet connected =>
    have hsame : connected = store.connected := hstays.trans hdown.symm
    subst hsame
    exact ⟨hmade, Or.inl ⟨rfl, rfl⟩⟩
  | served call hconnected =>
    rw [hdown] at hconnected
    cases hconnected
  | gaveUp call hdisconnected => exact ⟨hmade, Or.inr ⟨call, rfl, rfl⟩⟩

/-- Whatever happens without a connection, the tier stays as it is, and the operations that end
do so as if their limits passed one after another. -/
theorem outage_run (hmemory : session.InMemory store) (hdown : store.connected = false)
    (hmoves : .connect true ∉ moves) :
    (moves.foldl Move.make session).InMemory store ∧
      (∀ ending ∈ endings moves session, ending.served = false) ∧
      session.cache.outlast ((endings moves session).map Ending.call) =
        ((endings moves session).map Ending.answer, (moves.foldl Move.make session).cache) := by
  induction moves generalizing session with
  | nil => exact ⟨hmemory, fun _ hmem => absurd hmem List.not_mem_nil, rfl⟩
  | cons move rest ih =>
    rw [List.mem_cons, not_or] at hmoves
    rcases outage_step hmemory hdown (Ne.symm hmoves.1) with ⟨hmade, hcases⟩
    rcases ih hmade hmoves.2 with ⟨hfinal, hserved, houtlast⟩
    rw [endings, List.foldl_cons]
    rcases hcases with ⟨hending, hcache⟩ | ⟨call, hending, hcache⟩
    · rw [hcache] at houtlast
      rw [hending, Option.toList_none, List.nil_append]
      exact ⟨hfinal, hserved, houtlast⟩
    · rw [hcache] at houtlast
      rw [hending, Option.toList_some, List.singleton_append, List.map_cons, List.map_cons,
        Cache.outlast_cons, houtlast]
      refine ⟨hfinal, fun ending hmem => ?_, rfl⟩
      rcases List.mem_cons.1 hmem with rfl | hlater
      · rfl
      · exact hserved ending hlater

/-- What the calls that end in an outage do to a cache whose calls act on local values. -/
theorem mirrors_run (hmemory : session.InMemory store) (hdown : store.connected = false)
    (hmoves : .connect true ∉ moves) (hbehavior : session.cache.config.behavior = .localOnly) :
    let run := (LruMap.ofRecent session.cache.values).run ((endings moves session).map Ending.call)
    (endings moves session).map Ending.answer = run.1.map session.cache.answerOf ∧
      run.2.Mirrors (moves.foldl Move.make session).cache.values := by
  intro run
  have hboth := Cache.outlast_mirrors hbehavior (LruMap.mirrors_ofRecent session.cache.values)
    ((endings moves session).map Ending.call)
  rwa [(outage_run hmemory hdown hmoves).2.2, ← LruMap.run_state] at hboth

theorem inMemory_of_idle (htier : session.tier = .memory store) (hidle : session.Idle) :
    session.InMemory store := by
  refine ⟨htier, fun name ticket hmem => ?_⟩
  cases hidle (name, .waiting ticket) hmem

theorem punctual_of_idle (henabled : session.cache.config.enabled = true)
    (hpatient : session.cache.config.timeout.toNat ≤ session.patience) (hidle : session.Idle) :
    session.Punctual := by
  refine ⟨henabled, hpatient, fun place call submitted deadline hterms => ?_⟩
  rw [termsAt?_of_idle hidle] at hterms
  cases hterms

theorem idle_run (hmemory : session.InMemory store) (hidle : session.Idle)
    (hmoves : ∀ move ∈ moves, move.call? = none) :
    ∃ connected, (moves.foldl Move.make session).InMemory { store with connected } := by
  induction moves generalizing session store with
  | nil => exact ⟨store.connected, hmemory⟩
  | cons move rest ih =>
    have hrest : ∀ next ∈ rest, next.call? = none :=
      fun next hnext => hmoves next (List.mem_cons_of_mem _ hnext)
    cases move with
    | submit name call => cases hmoves (.submit name call) List.mem_cons_self
    | wait duration =>
      have hmade : (Move.make session (.wait duration)).InMemory store :=
        ⟨hmemory.tier, hmemory.connecting⟩
      exact ih hmade hidle hrest
    | connect connected =>
      have hmade : (Move.make session (.connect connected)).InMemory { store with connected } :=
        ⟨congrArg (ServerTier.setConnected connected) hmemory.tier, hmemory.connecting⟩
      rcases ih hmade hidle hrest with ⟨last, hlast⟩
      exact ⟨last, hlast⟩
    | turn place =>
      rcases turn_of_termsAt?_eq_none (termsAt?_of_idle hidle place) with ⟨turns, hmade, -⟩
      have hturned : InMemory { session with turns } store :=
        ⟨hmemory.tier, hmemory.connecting⟩
      rw [List.foldl_cons, Move.make, hmade]
      exact ih hturned hidle hrest

/-!
## What is left of an outage
-/

/-- Whether two sessions do the same to the tier, whatever happens from now on. -/
def SameForTier (first second : Session) : Prop :=
  ∀ later : List Move, (later.foldl Move.make first).tier = (later.foldl Move.make second).tier

/-- Whether two sessions keep the same, and bring the same to an end, whatever happens from now
on. -/
def SameForCallers (first second : Session) : Prop :=
  ∀ later : List Move,
    (later.foldl Move.make first).cache = (later.foldl Move.make second).cache ∧
      endings later first = endings later second

theorem shadows_of_idle {spared : Session} (hmemory : session.InMemory store)
    (htier : spared.tier = .memory store) (hidle : session.Idle) (hidle' : spared.Idle)
    (hnow : session.now = spared.now) (hpatience : session.patience = spared.patience)
    (hconfig : session.cache.config = spared.cache.config) : Shadows store session spared := by
  refine ⟨hmemory, inMemory_of_idle htier hidle', hnow, hpatience, hconfig, fun place => ?_⟩
  rw [termsAt?_of_idle hidle, termsAt?_of_idle hidle']

theorem patience_run (moves : List Move) (session : Session) :
    (moves.foldl Move.make session).patience = session.patience := by
  induction moves generalizing session with
  | nil => rfl
  | cons move rest ih => exact (ih (move.make session)).trans (patience_make move session)

theorem answer_of_run {ended earlier later : List Ending} {ending : Ending} {map : LruMap}
    {answerOf : Option (Option String) → CacheAnswer}
    (hanswers : ended.map Ending.answer = (map.run (ended.map Ending.call)).1.map answerOf)
    (hended : ended = earlier ++ ending :: later) :
    ending.answer = answerOf ((map.after (earlier.map Ending.call)).perform ending.call).1 := by
  rw [hended, List.map_append, List.map_append, LruMap.run_append_answers, List.map_append,
    List.map_cons, List.map_cons, LruMap.run] at hanswers
  have hlength : (earlier.map Ending.answer).length =
      ((map.run (earlier.map Ending.call)).1.map answerOf).length := by
    rw [List.length_map, List.length_map, LruMap.length_run, List.length_map]
  exact (List.cons.inj (List.append_inj hanswers hlength).2).1

/-- What an outage can change, if all that is submitted in it comes to its end in it: nothing of
the tier, then or later; nothing at all, if limits that pass make no use of local values; only the
order of the local values, if they are only read; and else what the calls do to a map that drops
what was used least recently, so that reads see what was last written. -/
theorem outage_effect (henabled : session.cache.config.enabled = true)
    (hpatient : session.cache.config.timeout.toNat ≤ session.patience)
    (htier : session.tier = .memory store) (hdown : store.connected = false)
    (hidle : session.Idle) (hmoves : .connect true ∉ moves)
    (hover : (moves.foldl Move.make session).Idle) :
    let after := moves.foldl Move.make session
    let spared := { session with now := after.now }
    let ended := endings moves session
    (ended.map Ending.call).Perm (moves.filterMap Move.call?) ∧
      (∀ ending ∈ ended, ending.served = false) ∧
      ((∀ done name call, done ++ [.submit name call] <+: moves →
          (done.foldl Move.make session).Idle) →
        ended.map Ending.call = moves.filterMap Move.call?) ∧
      (∀ done, done <+: moves → (done.foldl Move.make session).tier = session.tier) ∧
      after.SameForTier spared ∧
      (∀ later : List Move, (∀ move ∈ later, move.call? = none) →
        ∀ key, (later.foldl Move.make after).tier.value? key = session.tier.value? key) ∧
      (session.cache.config.behavior = .failAll ∨ session.cache.config.behavior = .ignore →
        (∀ done, done <+: moves → (done.foldl Move.make session).cache = session.cache) ∧
          after.SameForCallers spared) ∧
      (session.cache.config.behavior = .failMutations → ∀ done, done <+: moves →
        (done.foldl Move.make session).cache.values.entries.Perm session.cache.values.entries ∧
          ∀ key, (done.foldl Move.make session).cache.kept? key = session.cache.kept? key) ∧
      (session.cache.config.behavior = .localOnly →
        let map := LruMap.ofRecent session.cache.values
        (∀ done, done <+: moves →
          let run := map.run ((endings done session).map Ending.call)
          (endings done session).map Ending.answer = run.1.map session.cache.answerOf ∧
            run.2.Mirrors (done.foldl Move.make session).cache.values) ∧
          ∀ earlier read later key, ended = earlier ++ read :: later → read.call = .get key →
            session.cache.Sees (earlier.map Ending.call) key read.answer) := by
  intro after spared ended
  have hmemory := inMemory_of_idle htier hidle
  have hpunctual := punctual_of_idle henabled hpatient hidle
  have hcut : ∀ done, done <+: moves → .connect true ∉ done :=
    fun done hdone hmem => hmoves (hdone.subset hmem)
  have hrun : ∀ done, done <+: moves → _ :=
    fun done hdone => outage_run hmemory hdown (hcut done hdone)
  have hcache : ∀ done, done <+: moves → (done.foldl Move.make session).cache =
      (session.cache.outlast ((endings done session).map Ending.call)).2 := by
    intro done hdone
    rw [(hrun done hdone).2.2]
  rcases hrun moves (List.prefix_refl _) with ⟨hafter, hserved, -⟩
  have hconfig : after.cache.config = session.cache.config := by
    rw [hcache moves (List.prefix_refl _), Cache.config_outlast]
  -- Both sessions are idle and see the same tier, so no later move tells them apart there.
  have hshadows : Shadows store after spared :=
    shadows_of_idle hafter htier hover hidle rfl (patience_run moves session) hconfig
  refine ⟨?_, hserved, ?_, ?_, ?_, ?_, ?_, ?_, ?_⟩
  · have hperm := ended_pending_perm hmemory hpunctual moves
    rwa [pending_of_idle hover, pending_of_idle hidle, List.append_nil, List.nil_append] at hperm
  · intro halone
    have heq := (ended_pending_eq hmemory hpunctual hidle moves halone).1
    rwa [pending_of_idle hover, List.append_nil] at heq
  · intro done hdone
    rw [(hrun done hdone).1.tier, htier]
  · intro later
    rcases (shadows_run hshadows later).1 with ⟨reached, hreached⟩
    rw [hreached.left.tier, hreached.right.tier]
  · intro later hquiet key
    rcases idle_run hafter hover hquiet with ⟨connected, hreached⟩
    rw [hreached.tier, htier]
    rfl
  · intro hbehavior
    have hsame : ∀ done, done <+: moves →
        (done.foldl Move.make session).cache = session.cache := by
      intro done hdone
      rw [hcache done hdone, Cache.outlast_unchanged hbehavior]
    exact ⟨hsame, fun later => (shadows_run hshadows later).2 (hsame moves (List.prefix_refl _))⟩
  · intro hbehavior done hdone
    rw [hcache done hdone]
    have hperm := Cache.outlast_perm hbehavior ((endings done session).map Ending.call)
    exact ⟨hperm, fun key => RecentMap.peek?_of_perm hperm⟩
  · intro hbehavior map
    have hfollows : ∀ done, done <+: moves → _ :=
      fun done hdone => mirrors_run hmemory hdown (hcut done hdone) hbehavior
    refine ⟨hfollows, fun earlier read later key hended hread => ?_⟩
    rw [answer_of_run (hfollows moves (List.prefix_refl _)).1 hended, hread]
    exact Cache.sees_of_run _ key

def cutOff : Session where
  cache :=
    { name := "prices"
      config := { timeout := 20, behavior := .localOnly, capacity := 2 }
      values := .empty 2 Nat.two_pos }
  tier := .memory { (MemoryTier.serve {} (.put "a" "0")).2 with connected := false }

/-- Three mutations, of which the last pushes the first out, and reads of two keys; all of them
pass their limits. -/
def longOutage : List Move :=
  [.put "a" "1", .put "b" "2", .put "c" "3", .get "b", .get "a"].flatMap fun call =>
    [.submit "operation" call, .wait 20, .turn 0]

/-- A read sees what was written before it, and one whose key was evicted sees nothing; the tier is
the same as if nothing had been asked of it. -/
theorem reads_in_outage :
    (longOutage.foldl Move.make cutOff).SameForTier
        { cutOff with now := (longOutage.foldl Move.make cutOff).now } ∧
      ∃ earlier kept evicted, endings longOutage cutOff = earlier ++ [kept, evicted] ∧
        kept.call = .get "b" ∧ kept.answer = .ok (some "2") ∧
        evicted.call = .get "a" ∧ evicted.answer = .error cutOff.cache.readFailure := by
  have hover : (longOutage.foldl Move.make cutOff).Idle := by
    unfold Idle
    decide +kernel
  rcases @outage_effect cutOff _ longOutage rfl (by decide) rfl rfl
    (fun task hmem => absurd hmem List.not_mem_nil) (by decide +kernel) hover with
    ⟨-, -, -, -, hsame, -, -, -, hlocal⟩
  rcases hlocal rfl with ⟨-, hreads⟩
  obtain ⟨earlier, kept, evicted, hended, hcalls, hkept, hevicted⟩ :
      ∃ earlier kept evicted, endings longOutage cutOff = earlier ++ [kept, evicted] ∧
        earlier.map Ending.call = [.put "a" "1", .put "b" "2", .put "c" "3"] ∧
        kept.call = .get "b" ∧ evicted.call = .get "a" :=
    ⟨[_, _, _], _, _, rfl, rfl, rfl, rfl⟩
  have hmirrors := LruMap.mirrors_ofRecent cutOff.cache.values
  refine ⟨hsame, earlier, kept, evicted, hended, hkept, ?_, hevicted, ?_⟩
  · have hread := (hreads earlier kept [evicted] "b" hended hkept).2
    rw [hcalls] at hread
    refine hread fun hgone => ?_
    have hnone := LruMap.get?_of_evictedSince hmirrors hgone
    revert hnone
    decide +kernel
  · have hread := (hreads (earlier ++ [kept]) evicted [] "a" (by rw [hended]; simp) hevicted).1
    rw [List.map_append, hcalls, List.map_singleton, hkept] at hread
    refine hread ⟨[.put "a" "1", .put "b" "2"], .put "c" "3", [.get "b"], rfl, ?_, ?_⟩
    · unfold LruMap.Evicts
      decide +kernel
    · intro next hnext
      rw [List.mem_singleton.1 hnext]
      exact id

end Session
end SharedGraph
