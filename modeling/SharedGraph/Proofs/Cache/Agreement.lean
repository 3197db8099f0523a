import Mathlib.Data.List.Induction
import SharedGraph.Proofs.Cache.Interleaving
import SharedGraph.Proofs.Cache.Outcome
import SharedGraph.Proofs.Cache.Recency

/-!
# Local values and those of the tier

A cache that is the only client of its tier learns from every answer, so what it keeps for a key
is what the tier has, as long as no mutation of that key was applied locally since the tier last
answered for it.  Evictions do no harm: they make the cache forget, never keep something else.
-/

namespace SharedGraph

/-!
## One operation
-/

namespace MemoryTier

theorem get?_serve_of_ne {store : MemoryTier} {call : CacheCall} {other : String}
    (hne : other ≠ call.key) :
    (store.serve call).2.entries.get? other = store.entries.get? other := by
  cases call with
  | get key => rfl
  | put key value => exact SortedMap.get?_insert_of_ne _ value hne
  | remove key => exact SortedMap.get?_erase_of_ne _ hne

end MemoryTier

namespace Cache

variable {cache : Cache} {call : CacheCall} {found : Option String} {key other value : String}

theorem create_eq_ok {name : String} {config : CacheSettings}
    (hcreate : create name config = .ok cache) :
    cache.config = config ∧ cache.values.entries = [] := by
  unfold create at hcreate
  split at hcreate
  · cases hcreate
  · cases hcreate
    exact ⟨rfl, rfl⟩

theorem kept?_learn_self (cache : Cache) (store : MemoryTier) (call : CacheCall) :
    (cache.learn call (store.entries.get? call.key)).kept? call.key =
      (store.serve call).2.entries.get? call.key := by
  cases call with
  | get key =>
    simp only [CacheCall.key, MemoryTier.serve, learn, kept?]
    cases store.entries.get? key with
    | none => exact RecentMap.peek?_erase_self
    | some value => exact RecentMap.peek?_put_self
  | put key value =>
    simp only [CacheCall.key, MemoryTier.serve, learn, kept?, SortedMap.get?_insert_self]
    exact RecentMap.peek?_put_self
  | remove key =>
    simp only [CacheCall.key, MemoryTier.serve, learn, kept?, SortedMap.get?_erase_self]
    exact RecentMap.peek?_erase_self

theorem kept?_of_learn (hne : other ≠ call.key)
    (hkept : (cache.learn call found).kept? other = some value) :
    cache.kept? other = some value := by
  cases call with
  | get key =>
    cases found with
    | none => exact (RecentMap.peek?_erase_of_ne hne).symm.trans hkept
    | some held => exact RecentMap.peek?_of_peek?_put hne hkept
  | put key held => exact RecentMap.peek?_of_peek?_put hne hkept
  | remove key => exact (RecentMap.peek?_erase_of_ne hne).symm.trans hkept

end Cache

/-!
## Runs
-/

namespace Ending

def AppliedLocally (behavior : TimeoutBehavior) (key : String) (ending : Ending) : Prop :=
  behavior = .localOnly ∧ ending.served = false ∧
    ((∃ value, ending.call = .put key value) ∨ ending.call = .remove key)

/-- Whether a mutation of a key was applied locally since the tier last answered for the key. -/
def Diverges (behavior : TimeoutBehavior) (key : String) (endings : List Ending) : Prop :=
  ∃ earlier ending later, endings = earlier ++ ending :: later ∧
    ending.AppliedLocally behavior key ∧
    ∀ next ∈ later, next.served = true → next.call.key ≠ key

variable {behavior : TimeoutBehavior} {key : String} {endings : List Ending} {ending : Ending}

theorem diverges_of_appliedLocally (happlied : ending.AppliedLocally behavior key) :
    Diverges behavior key (endings ++ [ending]) :=
  ⟨endings, ending, [], rfl, happlied, fun _ hmem => absurd hmem List.not_mem_nil⟩

theorem diverges_concat (hdiverges : Diverges behavior key endings)
    (hother : ending.served = true → ending.call.key ≠ key) :
    Diverges behavior key (endings ++ [ending]) := by
  rcases hdiverges with ⟨earlier, applied, later, rfl, happlied, hlater⟩
  refine ⟨earlier, applied, later ++ [ending], by simp, happlied, ?_⟩
  intro next hnext
  rcases List.mem_append.1 hnext with hold | hlast
  · exact hlater next hold
  · rw [List.mem_singleton.1 hlast]
    exact hother

theorem not_diverges_of_behavior (hbehavior : behavior ≠ .localOnly) :
    ¬Diverges behavior key endings := by
  rintro ⟨earlier, applied, later, -, ⟨hlocal, -⟩, -⟩
  exact hbehavior hlocal

end Ending

theorem Cache.kept?_of_timedOut {cache : Cache} {call : CacheCall} {key value : String}
    (hkept : (cache.timedOut call).2.kept? key = some value)
    (happlied : ¬Ending.AppliedLocally cache.config.behavior key
      ⟨call, (cache.timedOut call).1, false⟩) :
    cache.kept? key = some value := by
  rcases cache.timedOut_fallsBack call with ⟨values, hcache, hfalls⟩
  rw [hcache] at hkept
  have hvalues : values.peek? key = some value := hkept
  generalize (cache.timedOut call).1 = result at happlied hfalls
  generalize cache.config.behavior = behavior at happlied hfalls
  rw [kept?]
  cases hfalls with
  | anyFails call => exact hvalues
  | dropped call => exact hvalues
  | readKept hreads hheld => exact RecentMap.peek?_touch.symm.trans hvalues
  | readMissing hreads hmissing => exact hvalues
  | putFails written held => exact hvalues
  | removeFails removed => exact hvalues
  | putLocally written held =>
    have hne : key ≠ written := fun hsame => happlied ⟨rfl, rfl, Or.inl ⟨held, by rw [hsame]⟩⟩
    exact RecentMap.peek?_of_peek?_put hne hvalues
  | removeLocally removed =>
    have hne : key ≠ removed := fun hsame => happlied ⟨rfl, rfl, Or.inr (by rw [hsame])⟩
    exact (RecentMap.peek?_erase_of_ne hne).symm.trans hvalues

namespace Session

variable {session : Session} {store : MemoryTier}

/-- Whether a cache keeps only what its tier has, but for keys that mutations were applied to
locally. -/
structure Agrees (config : CacheSettings) (endings : List Ending) (store : MemoryTier)
    (cache : Cache) : Prop where
  configured : cache.config = config
  kept : ∀ key, ¬Ending.Diverges config.behavior key endings →
    ∀ value, cache.kept? key = some value → store.entries.get? key = some value

theorem agrees_new {name : String} {config : CacheSettings} {cache : Cache}
    (hcreate : Cache.create name config = .ok cache) (store : MemoryTier) :
    Agrees config [] store cache := by
  rcases Cache.create_eq_ok hcreate with ⟨hconfig, hentries⟩
  refine ⟨hconfig, fun key _ value hkept => ?_⟩
  have hmem := RecentMap.peek?_eq_some_iff.1 hkept
  rw [hentries] at hmem
  exact absurd hmem List.not_mem_nil

theorem agrees_step {config : CacheSettings} {endings : List Ending} {ending : Option Ending}
    {store store' : MemoryTier} {cache cache' : Cache}
    (hagrees : Agrees config endings store cache) (hstep : Step store cache ending store' cache') :
    Agrees config (endings ++ ending.toList) store' cache' := by
  cases hstep with
  | quiet connected =>
    rw [Option.toList_none, List.append_nil]
    exact ⟨hagrees.configured, hagrees.kept⟩
  | served call hconnected =>
    refine ⟨hagrees.configured, fun key hagreeing value hkept => ?_⟩
    by_cases hsame : key = call.key
    · subst hsame
      rw [← cache.kept?_learn_self]
      exact hkept
    · rw [MemoryTier.get?_serve_of_ne hsame]
      have hold := Cache.kept?_of_learn hsame hkept
      refine hagrees.kept key (fun hdiverges => hagreeing ?_) value hold
      exact Ending.diverges_concat hdiverges fun _ hcall => hsame hcall.symm
  | gaveUp call hdisconnected =>
    refine ⟨(cache.config_timedOut call).trans hagrees.configured, ?_⟩
    intro key hagreeing value hkept
    refine hagrees.kept key (fun hdiverges => hagreeing ?_) value ?_
    · exact Ending.diverges_concat hdiverges nofun
    · refine Cache.kept?_of_timedOut hkept fun happlied => hagreeing ?_
      rw [hagrees.configured] at happlied
      exact Ending.diverges_of_appliedLocally happlied

theorem agrees_run {config : CacheSettings} (hmemory : session.InMemory store)
    (hagrees : Agrees config [] store session.cache) (moves : List Move) :
    ∃ store', (moves.foldl Move.make session).InMemory store' ∧
      Agrees config (endings moves session) store' (moves.foldl Move.make session).cache := by
  induction moves using List.reverseRecOn with
  | nil => exact ⟨store, hmemory, hagrees⟩
  | append_singleton moves move ih =>
    rcases ih with ⟨reached, hreached, hkeeps⟩
    rcases step_make hreached move with ⟨store', hmade, -, hstep⟩
    rw [List.foldl_append, endings_concat]
    exact ⟨store', hmade, agrees_step hkeeps hstep⟩

theorem kept?_of_served (hmemory : session.InMemory store) {place : Nat} {ending : Ending}
    (hending : session.ending? (.turn place) = some ending) (hserved : ending.served = true) :
    (session.advanceAt place).cache.kept? ending.call.key =
      (session.advanceAt place).tier.value? ending.call.key := by
  rcases step_make hmemory (.turn place) with ⟨store', hmade, -, hstep⟩
  rw [hending] at hstep
  have htier : (session.advanceAt place).tier = .memory store' := hmade.tier
  rw [htier]
  change Step store session.cache (some ending) store' (session.advanceAt place).cache at hstep
  generalize (session.advanceAt place).cache = cache at hstep
  cases hstep with
  | served call hconnected => exact session.cache.kept?_learn_self store call
  | gaveUp call hdisconnected => cases hserved

/-- In every run of a new cache that is the only client of a tier in memory, what is kept for a
key agrees with the tier right after the tier has answered for the key, and stays so until a
mutation of the key is applied locally; if the behavior applies none, it always agrees. -/
theorem local_values_agree {name : String} {config : CacheSettings} {cache : Cache}
    (hcreate : Cache.create name config = .ok cache) (store : MemoryTier)
    (patience now turns : Nat) (moves : List Move) :
    let start : Session := { cache, tier := .memory store, patience, now, turns }
    let session := moves.foldl Move.make start
    (∀ place ending, session.ending? (.turn place) = some ending → ending.served = true →
        (session.advanceAt place).cache.kept? ending.call.key =
          (session.advanceAt place).tier.value? ending.call.key) ∧
      (∀ key, ¬Ending.Diverges config.behavior key (endings moves start) → ∀ value,
        session.cache.kept? key = some value → session.tier.value? key = some value) ∧
      (config.behavior ≠ .localOnly → ∀ key value,
        session.cache.kept? key = some value → session.tier.value? key = some value) := by
  intro start session
  have hstart : start.InMemory store := ⟨rfl, fun _ _ hmem => absurd hmem List.not_mem_nil⟩
  rcases agrees_run hstart (agrees_new hcreate store) moves with ⟨store', hmemory, hagrees⟩
  have hvalue : ∀ key, session.tier.value? key = store'.entries.get? key := by
    intro key
    rw [hmemory.tier]
    rfl
  refine ⟨?_, ?_, ?_⟩
  · intro place ending hending hserved
    exact kept?_of_served hmemory hending hserved
  · intro key hagreeing value hkept
    rw [hvalue]
    exact hagrees.kept key hagreeing value hkept
  · intro hbehavior key value hkept
    rw [hvalue]
    exact hagrees.kept key (Ending.not_diverges_of_behavior hbehavior) value hkept

def smallCache : CacheSettings := { timeout := 20, behavior := .localOnly, capacity := 2 }

/-- Two mutations that the tier answers, and two operations that overlap without a connection, of
which the first passes its limit. -/
def overlapping : List Move :=
  [.submit "first" (.put "key" "1"), .turn 0, .submit "second" (.put "other" "3"), .turn 0,
    .connect false, .submit "third" (.put "key" "2"), .wait 15, .submit "fourth" (.get "key"),
    .wait 5, .turn 1]

/-- The mutation that was applied locally only makes the cache differ from its tier for that key,
and the next answer of the tier ends this. -/
theorem local_values_around_outage :
    ∃ cache, Cache.create "prices" smallCache = .ok cache ∧
      let start : Session := { cache, tier := .memory {} }
      let session := overlapping.foldl Move.make start
      let restored := Move.make session (.connect true)
      session.cache.kept? "key" = some "2" ∧ session.tier.value? "key" = some "1" ∧
        session.tier.value? "other" = some "3" ∧
        (restored.advanceAt 0).cache.kept? "key" = (restored.advanceAt 0).tier.value? "key" := by
  refine ⟨_, rfl, ?_⟩
  intro start session restored
  have hcreate : Cache.create "prices" smallCache = .ok start.cache := rfl
  refine ⟨by decide +kernel, by decide +kernel, ?_, ?_⟩
  · have hcalls : (endings overlapping start).map (fun ending => (ending.call, ending.served)) =
        [(.put "key" "1", true), (.put "other" "3", true), (.put "key" "2", false)] := by
      decide +kernel
    have hagreeing : ¬Ending.Diverges smallCache.behavior "other" (endings overlapping start) := by
      rintro ⟨earlier, ending, later, hendings, ⟨-, hserved, happlied⟩, -⟩
      have hmem : (ending.call, false) ∈
          (endings overlapping start).map fun ending => (ending.call, ending.served) := by
        rw [hendings, ← hserved]
        exact List.mem_map.2 ⟨ending, by simp, rfl⟩
      rw [hcalls] at hmem
      have hcall : ending.call = .put "key" "2" := by simpa using hmem
      rw [hcall] at happlied
      simp at happlied
    have hkept : session.cache.kept? "other" = some "3" := by decide +kernel
    exact (local_values_agree hcreate {} SessionTask.patience 0 0 overlapping).2.1 "other"
      hagreeing "3" hkept
  · obtain ⟨ending, hending, hserved, hkey⟩ : ∃ ending, restored.ending? (.turn 0) = some ending ∧
        ending.served = true ∧ ending.call.key = "key" :=
      ⟨_, rfl, rfl, rfl⟩
    have hagrees := (local_values_agree hcreate {} SessionTask.patience 0 0
      (overlapping ++ [.connect true])).1 0 ending
    rw [List.foldl_append] at hagrees
    rw [← hkey]
    exact hagrees hending hserved

end Session
end SharedGraph
