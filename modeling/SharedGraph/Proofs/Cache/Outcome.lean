import SharedGraph.Proofs.Cache.Timing

/-!
# How an operation of a session ends

A foreground operation of a session whose other operations are over is alone with its tier.  It
ends at the first answer that its script has for it, or at its limit, and the tables `Learns` and
`FallsBack` say what it returns and what it leaves in the local values.
-/

namespace SharedGraph

/-!
## What local values become
-/

/-- What the answer of a tier to a call makes of the local values. -/
inductive Learns (values : RecentMap String String) :
    CacheCall → CacheAnswer → RecentMap String String → Prop where
  | failed (call : CacheCall) (failure : Failure) : Learns values call (.error failure) values
  | found (key value : String) :
      Learns values (.get key) (.ok (some value)) (values.put key value)
  | missing (key : String) : Learns values (.get key) (.ok none) (values.erase key)
  | stored (key value : String) (previous : Option String) :
      Learns values (.put key value) (.ok previous) (values.put key value)
  | removed (key : String) (previous : Option String) :
      Learns values (.remove key) (.ok previous) (values.erase key)

/-- What a behavior makes of a call whose limit has passed: its result, which may be `failure`,
and the local values. -/
inductive FallsBack (values : RecentMap String String) (failure : Failure) :
    TimeoutBehavior → CacheCall → CacheAnswer → RecentMap String String → Prop where
  | anyFails (call : CacheCall) : FallsBack values failure .failAll call (.error failure) values
  | readKept {behavior : TimeoutBehavior} {key value : String}
      (hreads : behavior = .failMutations ∨ behavior = .localOnly)
      (hkept : values.peek? key = some value) :
      FallsBack values failure behavior (.get key) (.ok (some value)) (values.touch key)
  | readMissing {behavior : TimeoutBehavior} {key : String}
      (hreads : behavior = .failMutations ∨ behavior = .localOnly)
      (hmissing : values.peek? key = none) :
      FallsBack values failure behavior (.get key) (.error failure) values
  | putFails (key value : String) :
      FallsBack values failure .failMutations (.put key value) (.error failure) values
  | removeFails (key : String) :
      FallsBack values failure .failMutations (.remove key) (.error failure) values
  | putLocally (key value : String) :
      FallsBack values failure .localOnly (.put key value) (.ok (values.peek? key))
        (values.put key value)
  | removeLocally (key : String) :
      FallsBack values failure .localOnly (.remove key) (.ok (values.peek? key))
        (values.erase key)
  | dropped (call : CacheCall) : FallsBack values failure .ignore call (.ok none) values

namespace Cache

theorem settled_answer (cache : Cache) (call : CacheCall) (answer : CacheAnswer) :
    (cache.settled call answer).1 = answer := by
  cases answer <;> rfl

theorem settled_learns (cache : Cache) (call : CacheCall) (answer : CacheAnswer) :
    ∃ values, (cache.settled call answer).2 = { cache with values } ∧
      Learns cache.values call answer values := by
  cases answer with
  | error failure => exact ⟨cache.values, rfl, .failed call failure⟩
  | ok found =>
    cases call with
    | get key =>
      cases found with
      | none => exact ⟨_, rfl, .missing key⟩
      | some value => exact ⟨_, rfl, .found key value⟩
    | put key value => exact ⟨_, rfl, .stored key value found⟩
    | remove key => exact ⟨_, rfl, .removed key found⟩

theorem timedOut_fallsBack (cache : Cache) (call : CacheCall) :
    ∃ values, (cache.timedOut call).2 = { cache with values } ∧
      FallsBack cache.values (cache.timeoutFailure call) cache.config.behavior call
        (cache.timedOut call).1 values := by
  unfold timedOut
  cases hbehavior : cache.config.behavior with
  | failAll => exact ⟨_, rfl, .anyFails call⟩
  | ignore => exact ⟨_, rfl, .dropped call⟩
  | failMutations =>
    cases call with
    | get key =>
      cases hkept : cache.values.peek? key with
      | none =>
        simp only [kept?, hkept]
        exact ⟨_, rfl, .readMissing (Or.inl rfl) hkept⟩
      | some value =>
        simp only [kept?, hkept]
        exact ⟨_, rfl, .readKept (Or.inl rfl) hkept⟩
    | put key value => exact ⟨_, rfl, .putFails key value⟩
    | remove key => exact ⟨_, rfl, .removeFails key⟩
  | localOnly =>
    cases call with
    | get key =>
      cases hkept : cache.values.peek? key with
      | none =>
        simp only [kept?, hkept]
        exact ⟨_, rfl, .readMissing (Or.inr rfl) hkept⟩
      | some value =>
        simp only [kept?, hkept]
        exact ⟨_, rfl, .readKept (Or.inr rfl) hkept⟩
    | put key value => exact ⟨_, rfl, .putLocally key value⟩
    | remove key => exact ⟨_, rfl, .removeLocally key⟩

theorem config_timedOut (cache : Cache) (call : CacheCall) :
    (cache.timedOut call).2.config = cache.config := by
  rcases cache.timedOut_fallsBack call with ⟨values, hcache, -⟩
  rw [hcache]

end Cache

/-!
## Sessions without background
-/

namespace Session

variable {session : Session} {ticket : Ticket} {call : CacheCall}

def Idle (session : Session) : Prop :=
  ∀ task ∈ session.tasks, task.2.isOver = true

theorem order_of_idle (hidle : session.Idle) : session.order = [] := by
  rw [order, List.filterMap_eq_nil_iff.2, List.mergeSort_nil, List.map_nil]
  rintro ⟨⟨name, task⟩, place⟩ hmem
  have hover := hidle (name, task) (List.fst_mem_of_mem_zipIdx hmem)
  cases task with
  | waiting ticket => cases hover
  | finished answer elapsed => rfl
  | abandoned => rfl

theorem settle_of_idle (hidle : session.Idle) : session.settle = session := by
  rw [settle, order_of_idle hidle]
  rfl

theorem nextInstant?_of_idle (hidle : session.Idle) (horizon : Nat) :
    session.nextInstant? horizon = none := by
  have hnone : (session.tasks.filterMap fun task => task.2.nextInstant? session.patience) = [] := by
    rw [List.filterMap_eq_nil_iff]
    intro task hmem
    have hover := hidle task hmem
    cases htask : task.2 with
    | waiting ticket =>
      rw [htask] at hover
      cases hover
    | finished answer elapsed => rfl
    | abandoned => rfl
  rw [nextInstant?, hnone]
  rfl

def after (session : Session) (cache : Cache) (tier : ServerTier) : Session :=
  { session with cache, tier, turns := session.turns + 1 }

theorem settleBehind_of_idle (hidle : session.Idle) (task : SessionTask) {next : SessionTask}
    {cache : Cache} {tier : ServerTier}
    (hadvance : task.advance session.patience session.now session.turns session.cache
      session.tier = (next, cache, tier)) :
    session.settleBehind task = (next, session.after cache tier) := by
  have hsettle : (session.after cache tier).settle = session.after cache tier :=
    settle_of_idle hidle
  rw [settleBehind, hadvance]
  dsimp only
  rw [after] at hsettle ⊢
  rw [hsettle, ite_self]

theorem passBehind_finished (hidle : session.Idle) (instants : Nat) {answer : CacheAnswer}
    {cache : Cache} {tier : ServerTier}
    (hadvance : ticket.advance session.now session.turns session.cache session.tier =
      (.inl answer, cache, tier)) :
    passBehind (instants + 1) (.waiting ticket) session =
      (.finished answer (session.now - ticket.submitted), session.after cache tier) := by
  have hturn : (SessionTask.waiting ticket).advance session.patience session.now session.turns
      session.cache session.tier =
        (.finished answer (session.now - ticket.submitted), cache, tier) := by
    rw [SessionTask.advance, hadvance]
  rw [passBehind, settleBehind_of_idle hidle _ hturn]
  rfl

theorem passBehind_waiting (hidle : session.Idle) (instants : Nat) {later : Ticket} {next : Nat}
    {cache : Cache} {tier : ServerTier}
    (hadvance : ticket.advance session.now session.turns session.cache session.tier =
      (.inr later, cache, tier))
    (hnext : later.nextInstant? = some next) (hsooner : session.now < next)
    (hlimit : next ≤ later.submitted + session.patience) :
    passBehind (instants + 1) (.waiting ticket) session =
      passBehind instants (.waiting later) { session.after cache tier with now := next } := by
  have hturn : (SessionTask.waiting ticket).advance session.patience session.now session.turns
      session.cache session.tier = (.waiting later, cache, tier) := by
    rw [SessionTask.advance, hadvance]
    dsimp only
    rw [if_neg (Nat.not_le.2 (Nat.lt_of_lt_of_le hsooner hlimit))]
  have hinstant : (SessionTask.waiting later).nextInstant? session.patience = some next := by
    simp [SessionTask.nextInstant?, hnext, hlimit]
  have hidle' : (session.after cache tier).Idle := hidle
  rw [passBehind, settleBehind_of_idle hidle _ hturn]
  dsimp only
  rw [show (session.after cache tier).patience = session.patience from rfl, hinstant]
  dsimp only
  rw [nextInstant?_of_idle hidle', Option.getD_none]
  have hnext : max (session.after cache tier).now next = next :=
    Nat.max_eq_right (Nat.le_of_lt hsooner)
  rw [hnext]

/-- An operation in the foreground ends with the answer that it is due to get, if that comes
before its limit has passed, and else at its limit. -/
theorem passBehind_ends {limit : Nat} (hidle : session.Idle)
    (hdeadline : ticket.deadline = some limit)
    (htimely : ticket.Timely session.now) (hnow : session.now ≤ limit)
    (hlimit : limit ≤ ticket.submitted + session.patience) {instants : Nat}
    (hinstants : limit - session.now < instants) :
    (∃ instant answer later,
        ticket.Due session.now session.tier instant answer ∧ instant ≤ limit ∧
          later.cache = (session.cache.settled ticket.call answer).2 ∧ later.now = instant ∧
          passBehind instants (.waiting ticket) session =
            (.finished answer (instant - ticket.submitted), later)) ∨
      ∃ later,
        (∀ instant answer, ticket.Due session.now session.tier instant answer → limit < instant) ∧
          later.cache = (session.cache.timedOut ticket.call).2 ∧ later.now = limit ∧
          passBehind instants (.waiting ticket) session =
            (.finished (session.cache.timedOut ticket.call).1 (limit - ticket.submitted),
              later) := by
  -- Each instant is later than the one before, so there are enough of them up to the limit; what
  -- the operation is due to get stays the same throughout.
  induction instants generalizing session ticket with
  | zero => exact absurd hinstants (Nat.not_lt_zero _)
  | succ instants ih =>
    rcases Ticket.advance_cases session.turns session.cache htimely with
      ⟨answer, tier, hdue, hadvance⟩ | ⟨later, tier', hgoes, hadvance⟩
    · refine Or.inl ⟨session.now, answer, session.after _ tier, hdue, hnow, rfl, rfl, ?_⟩
      rw [passBehind_finished hidle instants hadvance, Cache.settled_answer]
    · have hlater : later.deadline = some limit := hgoes.deadline.trans hdeadline
      by_cases hexpired : limit ≤ session.now
      · obtain rfl : session.now = limit := Nat.le_antisymm hnow hexpired
        have hgone : later.isExpired session.now = true := by
          simp [Ticket.isExpired, hlater]
        rw [Ticket.expire, if_pos hgone] at hadvance
        rw [hgoes.call] at hadvance
        exact Or.inr ⟨session.after _ tier', hgoes.after, rfl, rfl,
          passBehind_finished hidle instants hadvance⟩
      · have hstays : later.isExpired session.now = false := by
          simp [Ticket.isExpired, hlater, hexpired]
        rw [Ticket.expire, if_neg (ne_true_of_eq_false hstays)] at hadvance
        rcases Ticket.nextInstant?_eq_some hlater hgoes.timely (Nat.lt_of_not_le hexpired) with
          ⟨next, hnext, hsooner, hle, hthen⟩
        have hpatient : next ≤ later.submitted + session.patience := by
          rw [hgoes.submitted]
          exact Nat.le_trans hle hlimit
        rw [passBehind_waiting hidle instants hadvance hnext hsooner hpatient]
        have hsubmitted : limit ≤ later.submitted + session.patience := by
          rw [hgoes.submitted]
          exact hlimit
        have hfewer : limit - next < instants := by omega
        rw [← hgoes.call, ← hgoes.submitted]
        have hidle' : Idle { session.after session.cache tier' with now := next } := hidle
        rcases ih hidle' hlater hthen hle hsubmitted hfewer with
          ⟨instant, answer, ended, hdue, hrest⟩ | ⟨ended, hnone, hrest⟩
        · exact Or.inl ⟨instant, answer, ended, (hgoes.due _ _ _).1 hdue, hrest⟩
        · refine Or.inr ⟨ended, fun instant answer hdue => ?_, hrest⟩
          exact hnone instant answer ((hgoes.due _ _ _).2 hdue)

theorem lt_instantBound (session : Session) {limit : Nat}
    (hlimit : limit ≤ session.now + session.patience) :
    limit - session.now < session.instantBound (session.now + session.patience) + 1 := by
  have hmul : session.patience + 1 ≤ (session.patience + 1) * (session.tasks.length + 1) :=
    Nat.le_mul_of_pos_right _ (Nat.succ_pos _)
  rw [instantBound, Nat.add_sub_cancel_left]
  omega

theorem run_of_finished {answer : CacheAnswer} {elapsed : Nat} {later : Session}
    (hends : passBehind
        ((session.submit call).2.instantBound
          ((session.submit call).2.now + (session.submit call).2.patience) + 1)
        (.waiting (session.submit call).1) (session.submit call).2 =
      (.finished answer elapsed, later)) :
    session.run call = (some (answer, elapsed), later) := by
  rw [run]
  dsimp only
  rw [hends]

theorem run_ends (call : CacheCall) (henabled : session.cache.config.enabled = true)
    (hidle : session.Idle)
    (hpatient : session.cache.config.timeout.toNat ≤ session.patience) :
    (∃ instant answer later,
        FirstAnswer (fun number => session.tier.reply call number) session.now instant answer ∧
          instant ≤ session.now + session.cache.config.timeout.toNat ∧
          later.cache = (session.cache.settled call answer).2 ∧ later.now = instant ∧
          session.run call = (some (answer, instant - session.now), later)) ∨
      ∃ later,
        (∀ instant answer,
          FirstAnswer (fun number => session.tier.reply call number) session.now instant answer →
            session.now + session.cache.config.timeout.toNat < instant) ∧
          later.cache = (session.cache.timedOut call).2 ∧
          later.now = session.now + session.cache.config.timeout.toNat ∧
          session.run call =
            (some ((session.cache.timedOut call).1, session.cache.config.timeout.toNat),
              later) := by
  -- The ticket gets a name of its own, for all that matters of it are the facts that follow.
  obtain ⟨ticket, hticket⟩ : ∃ ticket : Ticket, ticket =
      (Ticket.submit session.cache call session.now session.turns session.tier).1 := ⟨_, rfl⟩
  have hcall : ticket.call = call := by
    rw [hticket]
    rfl
  have hsubmitted : ticket.submitted = session.now := by
    rw [hticket]
    rfl
  have hdeadline : ticket.deadline =
      some (session.now + session.cache.config.timeout.toNat) := by
    rw [hticket]
    simp [Ticket.submit, Cache.deadline?, henabled]
  have hphase : ticket.phase = Ticket.phaseOf session.now (session.tier.ask call).1 := by
    rw [hticket]
    rfl
  have hrun : ∀ {answer elapsed later},
      passBehind (session.instantBound (session.now + session.patience) + 1) (.waiting ticket)
          { session with tier := (session.tier.ask call).2, turns := session.turns + 1 } =
        (.finished answer elapsed, later) →
      session.run call = (some (answer, elapsed), later) := by
    intro answer elapsed later hends
    rw [hticket] at hends
    exact run_of_finished hends
  have hidle' : Idle
      { session with tier := (session.tier.ask call).2, turns := session.turns + 1 } := hidle
  have hlimit : session.now + session.cache.config.timeout.toNat ≤
      ticket.submitted + session.patience := by
    rw [hsubmitted]
    omega
  have hdue : ∀ instant answer,
      ticket.Due session.now (session.tier.ask call).2 instant answer ↔
        FirstAnswer (fun number => session.tier.reply call number) session.now instant answer :=
    fun instant answer => Ticket.due_of_ask hcall hphase
  rcases passBehind_ends hidle' hdeadline (Ticket.timely_phaseOf hphase) (Nat.le_add_right _ _)
    hlimit (session.lt_instantBound (Nat.add_le_add_left hpatient _)) with
    ⟨instant, answer, later, hthere, hinstant, hcache, hnow, hends⟩ |
      ⟨later, hnone, hcache, hnow, hends⟩
  · rw [hcall] at hcache
    refine Or.inl ⟨instant, answer, later, (hdue _ _).1 hthere, hinstant, hcache, hnow, ?_⟩
    rw [hrun hends, hsubmitted]
  · rw [hcall] at hcache
    refine Or.inr ⟨later, fun instant answer hfirst => hnone _ _ ((hdue _ _).2 hfirst), hcache,
      hnow, ?_⟩
    rw [hrun hends, hsubmitted, hcall, Nat.add_sub_cancel_left]

/-- An operation in the foreground returns the first answer that its script has for it, when that
arrives, and the local values learn from it; or at its limit, if no answer has arrived by then,
what the behavior of the cache makes of it. -/
theorem run_outcome (henabled : session.cache.config.enabled = true) (hidle : session.Idle)
    (hpatient : session.cache.config.timeout.toNat ≤ session.patience)
    {script : Nat → Expectation}
    (hscript : ∀ number, number * 50 ≤ session.cache.config.timeout.toNat →
      session.tier.reply call number = script number) :
    (∀ instant answer, FirstAnswer script session.now instant answer →
        instant ≤ session.now + session.cache.config.timeout.toNat →
        ∃ values later, Learns session.cache.values call answer values ∧
          later.cache = { session.cache with values } ∧ later.now = instant ∧
          session.run call = (some (answer, instant - session.now), later)) ∧
      ((∀ instant answer, FirstAnswer script session.now instant answer →
          session.now + session.cache.config.timeout.toNat < instant) →
        ∃ result values later,
          FallsBack session.cache.values
              (.nonstopTimeout s!"{session.cache.name}.{call.operation}"
                session.cache.config.timeout)
              session.cache.config.behavior call result values ∧
            later.cache = { session.cache with values } ∧
            later.now = session.now + session.cache.config.timeout.toNat ∧
            session.run call = (some (result, session.cache.config.timeout.toNat), later)) := by
  have hagree : ∀ {first second : Nat → Expectation},
      (∀ number, number * 50 ≤ session.cache.config.timeout.toNat →
        first number = second number) →
      ∀ {instant answer}, instant ≤ session.now + session.cache.config.timeout.toNat →
        FirstAnswer first session.now instant answer →
        FirstAnswer second session.now instant answer := by
    intro first second hsame instant answer hinstant hfirst
    exact hfirst.congr fun number hnumber => hsame number (by omega)
  rcases run_ends call henabled hidle hpatient with
    ⟨instant, answer, later, hfirst, hinstant, hcache, hnow, hrun⟩ |
      ⟨later, hnone, hcache, hnow, hrun⟩
  · have harrives := hagree hscript hinstant hfirst
    rcases session.cache.settled_learns call answer with ⟨values, hvalues, hlearns⟩
    constructor
    · intro instant' answer' hfirst' hinstant'
      rcases harrives.unique hfirst' with ⟨rfl, rfl⟩
      exact ⟨values, later, hlearns, hcache.trans hvalues, hnow, hrun⟩
    · intro hnone
      exact absurd (hnone instant answer harrives) (Nat.not_lt.2 hinstant)
  · rcases session.cache.timedOut_fallsBack call with ⟨values, hvalues, hfalls⟩
    constructor
    · intro instant answer hfirst hinstant
      have harrives := hagree (fun number hnumber => (hscript number hnumber).symm) hinstant hfirst
      exact absurd (hnone instant answer harrives) (Nat.not_lt.2 hinstant)
    · intro _
      exact ⟨_, values, later, hfalls, hcache.trans hvalues, hnow, hrun⟩

/-- What calls meet whose tier is disconnected first and then answers. -/
def refusedOnce (number : Nat) : Expectation :=
  if number = 0 then .answer 10 (.error (.reported .disconnected "no server"))
  else .answer 20 (.ok (some "new"))

def refused (timeout : UInt64) : Session where
  cache :=
    { name := "prices"
      config := { timeout, behavior := .localOnly, capacity := 2 }
      values := (RecentMap.empty 2 Nat.two_pos).put "key" "old" }
  tier := .scripted { replies := (List.range 4).map refusedOnce }

theorem firstAnswer_refusedOnce : FirstAnswer refusedOnce 0 80 (.ok (some "new")) :=
  .again rfl rfl (@FirstAnswer.arrives _ 60 20 _ rfl rfl)

/-- The answer to the second call is there after 80 milliseconds; an operation that has less time
falls back on the older value. -/
theorem outcome_after_refusal :
    (∃ later, (refused 120).run (.get "key") = (some (.ok (some "new"), 80), later) ∧
        later.now = 80 ∧ later.cache.kept? "key" = some "new") ∧
      ∃ later, (refused 70).run (.get "key") = (some (.ok (some "old"), 70), later) ∧
        later.now = 70 ∧ later.cache.kept? "key" = some "old" := by
  have hidle : ∀ timeout, (refused timeout).Idle :=
    fun timeout task hmem => absurd hmem List.not_mem_nil
  have hscript : ∀ timeout number, number * 50 ≤ 120 →
      (refused timeout).tier.reply (.get "key") number = refusedOnce number :=
    fun timeout number hnumber => ScriptedTier.reply_range refusedOnce 3 (by omega)
  constructor
  · have houtcome := @run_outcome (refused 120) (.get "key") rfl (hidle _) (by decide) refusedOnce
      fun number hnumber => hscript 120 number hnumber
    rcases houtcome.1 80 _ firstAnswer_refusedOnce (by decide) with
      ⟨values, later, hlearns, hcache, hnow, hrun⟩
    cases hlearns with
    | found key value => exact ⟨later, hrun, hnow, by rw [hcache]; rfl⟩
  · have hlate : ∀ instant answer, FirstAnswer refusedOnce 0 instant answer → 70 < instant := by
      intro instant answer hfirst
      rw [← (firstAnswer_refusedOnce.unique hfirst).1]
      decide
    rcases (@run_outcome (refused 70) (.get "key") rfl (hidle _) (by decide) refusedOnce
        (fun number hnumber => hscript 70 number (Nat.le_trans hnumber (by decide)))).2 hlate with
      ⟨result, values, later, hfalls, hcache, hnow, hrun⟩
    cases hfalls with
    | readKept hreads hkept =>
      cases hkept
      exact ⟨later, hrun, hnow, by rw [hcache]; rfl⟩
    | readMissing hreads hmissing => cases hmissing

end Session
end SharedGraph
