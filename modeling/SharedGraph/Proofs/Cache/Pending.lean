import Mathlib.Data.List.Induction
import Mathlib.Data.List.Perm.Basic
import SharedGraph.Proofs.Cache.Interleaving
import SharedGraph.Proofs.Cache.Outcome

/-!
# Operations that wait for the connection

Of an operation that waits for a tier in memory only its terms matter: its call, when it was
submitted, and its limit.  So two sessions that agree on the terms at every place do the same to
the tier, whatever they have brought to an end before (`shadows_make`); and as long as limits pass
before callers lose their patience, every operation that was submitted waits or has come to its
end (`ended_pending_perm`).
-/

namespace SharedGraph

/-!
## Terms
-/

/-- What was agreed for an operation that waits: its call, when it was submitted, and its
limit. -/
def SessionTask.terms? : SessionTask → Option (CacheCall × Nat × Option Nat)
  | .waiting ticket => some (ticket.call, ticket.submitted, ticket.deadline)
  | .finished .. | .abandoned => none

theorem SessionTask.terms?_eq_none_iff {task : SessionTask} :
    task.terms? = none ↔ task.isOver = true := by
  cases task <;> simp [terms?, isOver]

namespace Session

variable {session : Session} {store : MemoryTier} {place : Nat}

def termsAt? (session : Session) (place : Nat) : Option (CacheCall × Nat × Option Nat) :=
  session.tasks[place]?.bind fun task => task.2.terms?

def pending (session : Session) : List CacheCall :=
  session.tasks.reverse.filterMap fun task => task.2.terms?.map Prod.fst

theorem termsAt?_of_idle (hidle : session.Idle) (place : Nat) : session.termsAt? place = none := by
  rw [termsAt?, Option.bind_eq_none_iff]
  intro task htask
  exact SessionTask.terms?_eq_none_iff.2 (hidle task (List.mem_of_getElem? htask))

theorem pending_of_idle (hidle : session.Idle) : session.pending = [] := by
  rw [pending, List.filterMap_eq_nil_iff]
  intro task htask
  rw [SessionTask.terms?_eq_none_iff.2 (hidle task (List.mem_reverse.1 htask))]
  rfl

theorem termsAt?_enter_zero (session : Session) (name : String) (call : CacheCall) :
    (session.enter name call).termsAt? 0 =
      some (call, session.now, session.cache.deadline? session.now) :=
  rfl

theorem pending_enter (session : Session) (name : String) (call : CacheCall) :
    (session.enter name call).pending = session.pending ++ [call] := by
  simp only [pending, enter, submit, Ticket.submit, List.reverse_cons, List.filterMap_append]
  rfl

theorem waiting_of_termsAt? {terms : CacheCall × Nat × Option Nat}
    (hterms : session.termsAt? place = some terms) :
    ∃ name ticket, session.tasks[place]? = some (name, .waiting ticket) ∧
      terms = (ticket.call, ticket.submitted, ticket.deadline) := by
  rw [termsAt?, Option.bind_eq_some_iff] at hterms
  rcases hterms with ⟨⟨name, task⟩, hplace, hterms⟩
  cases task with
  | waiting ticket => exact ⟨name, ticket, hplace, (Option.some.inj hterms).symm⟩
  | finished answer elapsed => cases hterms
  | abandoned => cases hterms

theorem turn_of_termsAt?_eq_none (hnone : session.termsAt? place = none) :
    ∃ turns, session.advanceAt place = { session with turns } ∧
      session.ending? (.turn place) = none := by
  rcases turn_cases session place with hplace | ⟨name, task, hplace, hover⟩ | ⟨name, ticket, hplace⟩
  · exact ⟨session.turns, by rw [advanceAt, hplace], by rw [ending?, hplace]⟩
  · exact ⟨_, advanceAt_of_over hplace hover⟩
  · rw [termsAt?, hplace] at hnone
    cases hnone

theorem termsAt?_set {name : String} {task rest : SessionTask} {later : Session}
    (hplace : session.tasks[place]? = some (name, task))
    (htasks : later.tasks = session.tasks.set place (name, rest)) (other : Nat) :
    later.termsAt? other = if other = place then rest.terms? else session.termsAt? other := by
  rw [termsAt?, htasks]
  by_cases hsame : other = place
  · subst hsame
    obtain ⟨hlt, -⟩ := List.getElem?_eq_some_iff.1 hplace
    rw [if_pos rfl, List.getElem?_set_self hlt]
    rfl
  · rw [if_neg hsame, List.getElem?_set_ne (Ne.symm hsame)]
    rfl

/-!
## What a turn leaves alone
-/

theorem now_advanceAt (session : Session) (place : Nat) :
    (session.advanceAt place).now = session.now := by
  unfold advanceAt
  split <;> rfl

theorem patience_advanceAt (session : Session) (place : Nat) :
    (session.advanceAt place).patience = session.patience := by
  unfold advanceAt
  split <;> rfl

theorem patience_make (move : Move) (session : Session) :
    (move.make session).patience = session.patience := by
  cases move with
  | submit name call => rfl
  | turn place => exact patience_advanceAt session place
  | wait duration => rfl
  | connect connected => rfl

theorem Step.config_eq {cache cache' : Cache} {store' : MemoryTier} {ending : Option Ending}
    (hstep : Step store cache ending store' cache') : cache'.config = cache.config := by
  cases hstep with
  | quiet connected => rfl
  | served call hconnected => rfl
  | gaveUp call hdisconnected => exact cache.config_timedOut call

theorem config_make (hmemory : session.InMemory store) (move : Move) :
    (move.make session).cache.config = session.cache.config := by
  rcases step_make hmemory move with ⟨store', -, -, hstep⟩
  exact hstep.config_eq

/-!
## Sessions that differ in what is over
-/

theorem Turn.congr {first second : Session} {ticket ticket' : Ticket}
    {ending ending' : Option Ending} {reached reached' : MemoryTier} {cache cache' : Cache}
    {rest rest' : SessionTask}
    (hterms : (SessionTask.waiting ticket).terms? = (SessionTask.waiting ticket').terms?)
    (hnow : first.now = second.now) (hpatience : first.patience = second.patience)
    (hturn : Turn first store ticket ending reached cache rest)
    (hturn' : Turn second store ticket' ending' reached' cache' rest') :
    reached = reached' ∧ rest.terms? = rest'.terms? ∧
      (first.cache = second.cache → ending = ending' ∧ cache = cache') := by
  have hagreed := Option.some.inj hterms
  have hcall : ticket.call = ticket'.call := congrArg Prod.fst hagreed
  have hsubmitted : ticket.submitted = ticket'.submitted :=
    congrArg (fun terms => terms.2.1) hagreed
  have hdeadline : ticket.deadline = ticket'.deadline := congrArg (fun terms => terms.2.2) hagreed
  have hexpires : ticket.isExpired first.now = ticket'.isExpired second.now := by
    rw [Ticket.isExpired, Ticket.isExpired, hdeadline, hnow]
  -- The connection, the limit and the patience decide; where two turns would differ, one of the
  -- three contradicts itself.
  cases hturn with
  | served hconnected =>
    cases hturn' with
    | served hconnected' =>
      rw [hcall]
      exact ⟨rfl, rfl, fun hcache => ⟨rfl, by rw [hcache]⟩⟩
    | gaveUp hdown | abandoned hdown | waits hdown =>
      rw [hconnected] at hdown
      cases hdown
  | gaveUp hdisconnected hexpired =>
    cases hturn' with
    | served hconnected =>
      rw [hdisconnected] at hconnected
      cases hconnected
    | gaveUp hdown hexpired' =>
      rw [hcall]
      exact ⟨rfl, rfl, fun hcache => by rw [hcache]; exact ⟨rfl, rfl⟩⟩
    | abandoned hdown hunexpired | waits hdown hunexpired =>
      rw [← hexpires, hexpired] at hunexpired
      cases hunexpired
  | abandoned hdisconnected hunexpired hlost =>
    cases hturn' with
    | served hconnected =>
      rw [hdisconnected] at hconnected
      cases hconnected
    | gaveUp hdown hexpired =>
      rw [← hexpires, hunexpired] at hexpired
      cases hexpired
    | abandoned hdown hunexpired' hlost' => exact ⟨rfl, rfl, fun hcache => ⟨rfl, hcache⟩⟩
    | waits hdown hunexpired' hkept =>
      rw [hsubmitted, hpatience, hnow] at hlost
      exact absurd hlost (Nat.not_le.2 hkept)
  | waits hdisconnected hunexpired hkept =>
    cases hturn' with
    | served hconnected =>
      rw [hdisconnected] at hconnected
      cases hconnected
    | gaveUp hdown hexpired =>
      rw [← hexpires, hunexpired] at hexpired
      cases hexpired
    | abandoned hdown hunexpired' hlost =>
      rw [hsubmitted, hpatience, hnow] at hkept
      exact absurd hlost (Nat.not_le.2 hkept)
    | waits hdown hunexpired' hkept' => exact ⟨rfl, hterms, fun hcache => ⟨rfl, hcache⟩⟩

/-- Whether two sessions have the same operations waiting for the same tier; what is over, and
what is kept locally, may differ. -/
structure Shadows (store : MemoryTier) (first second : Session) : Prop where
  left : first.InMemory store
  right : second.InMemory store
  now : first.now = second.now
  patience : first.patience = second.patience
  config : first.cache.config = second.cache.config
  terms : ∀ place, first.termsAt? place = second.termsAt? place

variable {first second : Session}

theorem shadows_turn (hshadows : Shadows store first second) (place : Nat) :
    ∃ store', Shadows store' (first.advanceAt place) (second.advanceAt place) ∧
      (first.cache = second.cache →
        (first.advanceAt place).cache = (second.advanceAt place).cache ∧
          first.ending? (.turn place) = second.ending? (.turn place)) := by
  cases hterms : first.termsAt? place with
  | none =>
    have hterms' : second.termsAt? place = none := (hshadows.terms place).symm.trans hterms
    rcases turn_of_termsAt?_eq_none hterms with ⟨turns, hmade, hending⟩
    rcases turn_of_termsAt?_eq_none hterms' with ⟨turns', hmade', hending'⟩
    rw [hmade, hmade', hending, hending']
    refine ⟨store, ?_, fun hcache => ⟨hcache, rfl⟩⟩
    exact
      { left := ⟨hshadows.left.tier, hshadows.left.connecting⟩
        right := ⟨hshadows.right.tier, hshadows.right.connecting⟩
        now := hshadows.now
        patience := hshadows.patience
        config := hshadows.config
        terms := hshadows.terms }
  | some terms =>
    have hterms' : second.termsAt? place = some terms := (hshadows.terms place).symm.trans hterms
    rcases waiting_of_termsAt? hterms with ⟨name, ticket, hplace, hticket⟩
    rcases waiting_of_termsAt? hterms' with ⟨name', ticket', hplace', hticket'⟩
    rcases turn_of_waiting hshadows.left hplace with ⟨reached, rest, htier, htasks, hturn⟩
    rcases turn_of_waiting hshadows.right hplace' with ⟨reached', rest', htier', htasks', hturn'⟩
    rcases hturn.congr (congrArg some (hticket.symm.trans hticket')) hshadows.now
      hshadows.patience hturn' with ⟨rfl, hrest, hsame⟩
    refine ⟨reached, ?_, fun hcache => (hsame hcache).symm⟩
    rcases step_make hshadows.left (.turn place) with ⟨made, hmemory, -, -⟩
    rcases step_make hshadows.right (.turn place) with ⟨made', hmemory', -, -⟩
    have hfirst : (first.advanceAt place).InMemory reached := ⟨htier, hmemory.connecting⟩
    have hsecond : (second.advanceAt place).InMemory reached := ⟨htier', hmemory'.connecting⟩
    have hconfig := config_make hshadows.left (.turn place)
    have hconfig' := config_make hshadows.right (.turn place)
    refine ⟨hfirst, hsecond, ?_, ?_, ?_, fun other => ?_⟩
    · rw [now_advanceAt, now_advanceAt, hshadows.now]
    · rw [patience_advanceAt, patience_advanceAt, hshadows.patience]
    · exact hconfig.trans (hshadows.config.trans hconfig'.symm)
    · rw [termsAt?_set hplace htasks, termsAt?_set hplace' htasks', hrest, hshadows.terms]

theorem shadows_make (hshadows : Shadows store first second) (move : Move) :
    ∃ store', Shadows store' (move.make first) (move.make second) ∧
      (first.cache = second.cache → (move.make first).cache = (move.make second).cache ∧
        first.ending? move = second.ending? move) := by
  cases move with
  | turn place => exact shadows_turn hshadows place
  | wait duration =>
    refine ⟨store, ?_, fun hcache => ⟨hcache, rfl⟩⟩
    exact
      { left := ⟨hshadows.left.tier, hshadows.left.connecting⟩
        right := ⟨hshadows.right.tier, hshadows.right.connecting⟩
        now := congrArg (· + duration) hshadows.now
        patience := hshadows.patience
        config := hshadows.config
        terms := hshadows.terms }
  | connect connected =>
    refine ⟨{ store with connected }, ?_, fun hcache => ⟨hcache, rfl⟩⟩
    exact
      { left := ⟨congrArg (ServerTier.setConnected connected) hshadows.left.tier,
          hshadows.left.connecting⟩
        right := ⟨congrArg (ServerTier.setConnected connected) hshadows.right.tier,
          hshadows.right.connecting⟩
        now := hshadows.now
        patience := hshadows.patience
        config := hshadows.config
        terms := hshadows.terms }
  | submit name call =>
    refine ⟨store, ?_, fun hcache => ⟨hcache, rfl⟩⟩
    refine ⟨inMemory_enter hshadows.left name call, inMemory_enter hshadows.right name call,
      hshadows.now, hshadows.patience, hshadows.config, fun place => ?_⟩
    cases place with
    | zero =>
      change (first.enter name call).termsAt? 0 = (second.enter name call).termsAt? 0
      rw [termsAt?_enter_zero, termsAt?_enter_zero, Cache.deadline?, Cache.deadline?,
        hshadows.now, hshadows.config]
    | succ place => exact hshadows.terms place

theorem shadows_run (hshadows : Shadows store first second) (moves : List Move) :
    (∃ store', Shadows store' (moves.foldl Move.make first) (moves.foldl Move.make second)) ∧
      (first.cache = second.cache →
        (moves.foldl Move.make first).cache = (moves.foldl Move.make second).cache ∧
          endings moves first = endings moves second) := by
  induction moves generalizing first second store with
  | nil => exact ⟨⟨store, hshadows⟩, fun hcache => ⟨hcache, rfl⟩⟩
  | cons move rest ih =>
    rcases shadows_make hshadows move with ⟨store', hmade, hsame⟩
    rcases ih hmade with ⟨hreached, hcaches⟩
    refine ⟨hreached, fun hcache => ?_⟩
    rcases hsame hcache with ⟨hmadeCache, hending⟩
    rcases hcaches hmadeCache with ⟨hfinal, hendings⟩
    exact ⟨hfinal, by rw [endings, endings, hending, hendings]⟩

/-!
## What was submitted waits or has ended
-/

def Move.call? : Move → Option CacheCall
  | .submit _ call => some call
  | .turn _ | .wait _ | .connect _ => none

/-- Whether the limit of every operation passes before its caller walks away. -/
structure Punctual (session : Session) : Prop where
  enabled : session.cache.config.enabled = true
  patient : session.cache.config.timeout.toNat ≤ session.patience
  limits : ∀ place call submitted deadline,
    session.termsAt? place = some (call, submitted, deadline) →
      ∃ limit, deadline = some limit ∧ limit ≤ submitted + session.patience

theorem Turn.over_or_waits {ticket : Ticket} {ending : Option Ending} {store' : MemoryTier}
    {cache : Cache} {rest : SessionTask} {limit : Nat}
    (hturn : Turn session store ticket ending store' cache rest)
    (hdeadline : ticket.deadline = some limit)
    (hlimit : limit ≤ ticket.submitted + session.patience) :
    (∃ ended, ending = some ended ∧ ended.call = ticket.call ∧ rest.terms? = none) ∨
      (ending = none ∧ rest = .waiting ticket) := by
  cases hturn with
  | served hconnected => exact Or.inl ⟨_, rfl, rfl, rfl⟩
  | gaveUp hdisconnected hexpired => exact Or.inl ⟨_, rfl, rfl, rfl⟩
  | abandoned hdisconnected hunexpired hlost =>
    have hpassed : ticket.isExpired session.now = true := by
      simpa [Ticket.isExpired, hdeadline] using Nat.le_trans hlimit hlost
    rw [hunexpired] at hpassed
    cases hpassed
  | waits hdisconnected hunexpired hkept => exact Or.inr ⟨rfl, rfl⟩

theorem punctual_turn (hmemory : session.InMemory store) (hpunctual : session.Punctual)
    (place : Nat) : (session.advanceAt place).Punctual := by
  have hconfig : (session.advanceAt place).cache.config = session.cache.config :=
    config_make hmemory (.turn place)
  have hpatience := patience_advanceAt session place
  have hterms : ∀ other, (session.advanceAt place).termsAt? other = none ∨
      (session.advanceAt place).termsAt? other = session.termsAt? other := by
    intro other
    cases hwaits : session.termsAt? place with
    | none =>
      rcases turn_of_termsAt?_eq_none hwaits with ⟨turns, hmade, -⟩
      rw [hmade]
      exact Or.inr rfl
    | some terms =>
      rcases waiting_of_termsAt? hwaits with ⟨name, ticket, hplace, rfl⟩
      rcases turn_of_waiting hmemory hplace with ⟨reached, rest, -, htasks, hturn⟩
      rcases hpunctual.limits place _ _ _ hwaits with ⟨limit, hdeadline, hlimit⟩
      rw [termsAt?_set hplace htasks]
      by_cases hsame : other = place
      · subst hsame
        rw [if_pos rfl]
        rcases hturn.over_or_waits hdeadline hlimit with ⟨ended, -, -, hover⟩ | ⟨-, rfl⟩
        · exact Or.inl hover
        · exact Or.inr hwaits.symm
      · rw [if_neg hsame]
        exact Or.inr rfl
  refine ⟨by rw [hconfig]; exact hpunctual.enabled, ?_, ?_⟩
  · rw [hconfig, hpatience]
    exact hpunctual.patient
  · intro other call submitted deadline hother
    rw [hpatience]
    rcases hterms other with hnone | hsame
    · rw [hnone] at hother
      cases hother
    · exact hpunctual.limits other call submitted deadline (hsame.symm.trans hother)

theorem punctual_make (hmemory : session.InMemory store) (hpunctual : session.Punctual)
    (move : Move) : (move.make session).Punctual := by
  cases move with
  | turn place => exact punctual_turn hmemory hpunctual place
  | wait duration => exact ⟨hpunctual.enabled, hpunctual.patient, hpunctual.limits⟩
  | connect connected => exact ⟨hpunctual.enabled, hpunctual.patient, hpunctual.limits⟩
  | submit name call =>
    refine ⟨hpunctual.enabled, hpunctual.patient, fun place other submitted deadline hterms => ?_⟩
    cases place with
    | zero =>
      obtain ⟨rfl, rfl, rfl⟩ : call = other ∧ session.now = submitted ∧
          session.cache.deadline? session.now = deadline := by
        simpa [Move.make, termsAt?_enter_zero] using hterms
      refine ⟨session.now + session.cache.config.timeout.toNat, ?_, ?_⟩
      · rw [Cache.deadline?, if_pos hpunctual.enabled]
      · exact Nat.add_le_add_left hpunctual.patient _
    | succ place => exact hpunctual.limits place other submitted deadline hterms

theorem pending_make (hmemory : session.InMemory store) (hpunctual : session.Punctual)
    (move : Move) :
    (session.ending? move = none ∧
        (move.make session).pending = session.pending ++ move.call?.toList) ∨
      (move.call? = none ∧ ∃ earlier ending later, session.ending? move = some ending ∧
        session.pending = earlier ++ ending.call :: later ∧
        (move.make session).pending = earlier ++ later) := by
  cases move with
  | submit name call => exact Or.inl ⟨rfl, session.pending_enter name call⟩
  | wait duration => exact Or.inl ⟨rfl, (List.append_nil _).symm⟩
  | connect connected => exact Or.inl ⟨rfl, (List.append_nil _).symm⟩
  | turn place =>
    cases hwaits : session.termsAt? place with
    | none =>
      rcases turn_of_termsAt?_eq_none hwaits with ⟨turns, hmade, hending⟩
      refine Or.inl ⟨hending, ?_⟩
      rw [Move.make, hmade]
      exact (List.append_nil _).symm
    | some terms =>
      rcases waiting_of_termsAt? hwaits with ⟨name, ticket, hplace, rfl⟩
      rcases turn_of_waiting hmemory hplace with ⟨reached, rest, -, htasks, hturn⟩
      rcases hpunctual.limits place _ _ _ hwaits with ⟨limit, hdeadline, hlimit⟩
      obtain ⟨hlt, hget⟩ := List.getElem?_eq_some_iff.1 hplace
      -- The newest operation stands first, so what waits is read from the back.
      obtain ⟨newer, older, hsplit, -, hset⟩ : ∃ newer older,
          session.tasks = newer ++ session.tasks[place] :: older ∧ newer.length = place ∧
            session.tasks.set place (name, rest) = newer ++ (name, rest) :: older :=
        List.exists_of_set hlt
      rw [hget] at hsplit
      rcases hturn.over_or_waits hdeadline hlimit with ⟨ended, hending, hcall, hover⟩ |
        ⟨hending, rfl⟩
      · refine Or.inr ⟨rfl, pending { session with tasks := older }, ended,
          pending { session with tasks := newer }, hending, ?_, ?_⟩
        · rw [pending, hsplit, hcall]
          simp [pending, SessionTask.terms?]
        · rw [Move.make, pending, htasks, hset]
          simp [pending, hover]
      · refine Or.inl ⟨hending, ?_⟩
        rw [Move.make, pending, htasks, ← hget, List.set_getElem_self]
        exact (List.append_nil _).symm

theorem punctual_run (hmemory : session.InMemory store) (hpunctual : session.Punctual)
    (moves : List Move) :
    ∃ store', (moves.foldl Move.make session).InMemory store' ∧
      (moves.foldl Move.make session).Punctual := by
  induction moves generalizing session store with
  | nil => exact ⟨store, hmemory, hpunctual⟩
  | cons move rest ih =>
    rcases step_make hmemory move with ⟨reached, hmade, -, -⟩
    exact ih hmade (punctual_make hmemory hpunctual move)

/-- What has ended and what waits is what waited before and what was submitted. -/
theorem ended_pending_perm (hmemory : session.InMemory store) (hpunctual : session.Punctual)
    (moves : List Move) :
    ((endings moves session).map Ending.call ++ (moves.foldl Move.make session).pending).Perm
      (session.pending ++ moves.filterMap Move.call?) := by
  induction moves generalizing session store with
  | nil =>
    rw [List.filterMap_nil, List.append_nil]
    exact List.Perm.refl _
  | cons move rest ih =>
    rcases step_make hmemory move with ⟨reached, hmade, -, -⟩
    have hrest := ih hmade (punctual_make hmemory hpunctual move)
    rw [endings, List.foldl_cons]
    rcases pending_make hmemory hpunctual move with
      ⟨hending, hpending⟩ | ⟨hcall, earlier, ending, later, hending, hwaited, hpending⟩
    · rw [hpending, List.append_assoc] at hrest
      rw [hending, Option.toList_none, List.nil_append, List.filterMap_cons]
      cases hcall : move.call? with
      | none =>
        rw [hcall] at hrest
        exact hrest
      | some call =>
        rw [hcall] at hrest
        exact hrest
    · rw [hpending, List.append_assoc] at hrest
      rw [hending, Option.toList_some, List.singleton_append, List.map_cons, List.cons_append,
        List.filterMap_cons, hcall, hwaited, List.append_assoc, List.cons_append]
      exact (hrest.cons ending.call).trans List.perm_middle.symm

theorem ended_pending_eq (hmemory : session.InMemory store) (hpunctual : session.Punctual)
    (hidle : session.Idle) (moves : List Move)
    (halone : ∀ done name call, done ++ [.submit name call] <+: moves →
      (done.foldl Move.make session).Idle) :
    (endings moves session).map Ending.call ++ (moves.foldl Move.make session).pending =
        moves.filterMap Move.call? ∧
      (moves.foldl Move.make session).pending.length ≤ 1 := by
  induction moves using List.reverseRecOn with
  | nil =>
    rw [List.foldl_nil, pending_of_idle hidle]
    exact ⟨rfl, Nat.zero_le _⟩
  | append_singleton moves move ih =>
    have hbefore : ∀ done name call, done ++ [.submit name call] <+: moves →
        (done.foldl Move.make session).Idle := by
      intro done name call hdone
      exact halone done name call (hdone.trans (List.prefix_append _ _))
    rcases ih hbefore with ⟨heq, hone⟩
    rcases punctual_run hmemory hpunctual moves with ⟨reached, hreached, htimely⟩
    rw [endings_concat, List.foldl_append, List.foldl_cons, List.foldl_nil, List.filterMap_append,
      ← heq, List.map_append]
    rcases pending_make hreached htimely move with
      ⟨hending, hpending⟩ | ⟨hcall, earlier, ending, later, hending, hwaited, hpending⟩
    · rw [hending, hpending]
      cases hcall : move.call? with
      | none => simpa [hcall] using hone
      | some call =>
        have hempty : (moves.foldl Move.make session).pending = [] := by
          cases move with
          | submit name other =>
            exact pending_of_idle (halone moves name other (List.prefix_refl _))
          | turn place => cases hcall
          | wait duration => cases hcall
          | connect connected => cases hcall
        rw [hempty]
        simp [hcall]
    · have hlone : earlier = [] ∧ later = [] := by
        rw [hwaited, List.length_append, List.length_cons] at hone
        exact ⟨List.length_eq_zero_iff.1 (by omega), List.length_eq_zero_iff.1 (by omega)⟩
      rcases hlone with ⟨rfl, rfl⟩
      rw [hending, hpending, hwaited]
      simp [hcall]

end Session
end SharedGraph
