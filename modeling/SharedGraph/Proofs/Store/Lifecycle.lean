import SharedGraph.Proofs.Data.History
import SharedGraph.Store.StoreTransaction

/-!
# The life of a store transaction

A transaction may be asked to do anything at any time, from any thread and over a backend that
answers as it likes.  Still it is begun once and ended once, by the thread that began it, and the
backend hears of an end only when that thread asks for one.  The listeners that were there when it
ended have then heard of it once each, in their order, and nobody hears anything else
(`transaction_lifecycle`).
-/

namespace SharedGraph

/-!
## Phases
-/

namespace TransactionPhase

inductive LeadsTo : TransactionPhase → TransactionPhase → Prop where
  | begun : LeadsTo .notStarted .active
  | committed : LeadsTo .active .committed
  | aborted : LeadsTo .active .aborted

variable {first second : TransactionPhase}

theorem LeadsTo.not_isFinal (hleads : first.LeadsTo second) : first.isFinal ≠ true := by
  cases hleads with
  | begun => exact Bool.false_ne_true
  | committed => exact Bool.false_ne_true
  | aborted => exact Bool.false_ne_true

theorem LeadsTo.active_of_isFinal (hleads : first.LeadsTo second)
    (hfinal : second.isFinal = true) : first = .active := by
  cases hleads with
  | begun => cases hfinal
  | committed => rfl
  | aborted => rfl

end TransactionPhase

/-!
## Backends that are listened to
-/

inductive BackendCall where
  | opening
  | committing
  | aborting
deriving DecidableEq

/-- A backend with a list of what it was asked to do.  It answers as the backend in it does, so
whatever is done over the one is done over the other too. -/
structure Overheard (ε : Type) where
  backend : ε
  asked : List BackendCall := []
deriving DecidableEq

namespace Overheard

variable {ε : Type}

def noting (call : BackendCall) (ask : ε → Except Failure Unit × ε) (overheard : Overheard ε) :
    Except Failure Unit × Overheard ε :=
  match ask overheard.backend with
  | (answer, backend) => (answer, { backend, asked := overheard.asked ++ [call] })

def unheard {β τ : Type} (outcome : β × τ × Overheard ε) : β × τ × ε :=
  (outcome.1, outcome.2.1, outcome.2.2.backend)

instance [Backend ε] : Backend (Overheard ε) where
  open? := noting .opening Backend.open?
  commit? := noting .committing Backend.commit?
  canRollBack overheard := Backend.canRollBack overheard.backend
  abort? := noting .aborting Backend.abort?

end Overheard

namespace StoreTransaction

variable {α ε : Type} {transaction : StoreTransaction α} {backend : ε} {thread : Nat}

/-!
## Requests
-/

inductive Request (α ε : Type) where
  | begin (thread : Nat)
  | commit (thread : Nat)
  | abort (thread : Nat)
  | listen (listener : α)
  /-- Others have left the backend in some state. -/
  | elsewhere (backend : ε)

abbrev Heard (α : Type) := List (α × TransactionPhase)

def heardIn : Except Failure (Heard α) → Heard α
  | .ok heard => heard
  | .error _ => []

def added (requests : List (Request α ε)) : List α :=
  requests.filterMap fun request =>
    match request with
    | .listen listener => some listener
    | .begin _ | .commit _ | .abort _ | .elsewhere _ => none

theorem added_concat (done : List (Request α ε)) (request : Request α ε) :
    added (done ++ [request]) = added done ++ added [request] :=
  List.filterMap_append

/-!
## One attempt
-/

/-- How an attempt turns out that is made under a condition, asks the backend and, if the backend
agrees, gives a result and leaves the transaction in another state. -/
inductive Attempt {β : Type} (may : Prop) (ask : ε → Except Failure Unit × ε)
    (transaction next : StoreTransaction α) (result : β) (backend : ε) :
    Except Failure β × StoreTransaction α × ε → Prop where
  | barred {failure : Failure} (hbarred : ¬may) :
      Attempt may ask transaction next result backend (.error failure, transaction, backend)
  | refused {failure : Failure} {later : ε} (hmay : may)
      (hask : ask backend = (.error failure, later)) :
      Attempt may ask transaction next result backend (.error failure, transaction, later)
  | done {later : ε} (hmay : may) (hask : ask backend = (.ok (), later)) :
      Attempt may ask transaction next result backend (.ok result, next, later)

namespace Attempt

variable {β : Type} {may : Prop} {next : StoreTransaction α} {result : β}

theorem isOk_iff {ask : ε → Except Failure Unit × ε}
    {outcome : Except Failure β × StoreTransaction α × ε}
    (hattempt : Attempt may ask transaction next result backend outcome) :
    (∃ given, outcome.1 = .ok given) ↔ may ∧ (ask backend).1 = .ok () := by
  cases hattempt with
  | barred hbarred => exact iff_of_false nofun fun hboth => hbarred hboth.1
  | refused hmay hask =>
    rw [hask]
    exact iff_of_false nofun fun hboth => nomatch hboth.2
  | done hmay hask =>
    rw [hask]
    exact iff_of_true ⟨result, rfl⟩ ⟨hmay, rfl⟩

theorem done_of_ok {call : BackendCall} {ask : ε → Except Failure Unit × ε}
    {overheard : Overheard ε} {given : β}
    {outcome : Except Failure β × StoreTransaction α × Overheard ε}
    (hattempt : Attempt may (Overheard.noting call ask) transaction next result overheard outcome)
    (hok : outcome.1 = .ok given) :
    given = result ∧ outcome.2 =
      (next, { backend := (ask overheard.backend).2, asked := overheard.asked ++ [call] }) := by
  cases hattempt with
  | barred hbarred => cases hok
  | refused hmay hask => cases hok
  | done hmay hask =>
    cases hok
    rw [Overheard.noting] at hask
    rw [← (Prod.mk.inj hask).2]
    exact ⟨rfl, rfl⟩

theorem asked {call : BackendCall} {ask : ε → Except Failure Unit × ε} {overheard : Overheard ε}
    {outcome : Except Failure β × StoreTransaction α × Overheard ε}
    (hattempt : Attempt may (Overheard.noting call ask) transaction next result overheard outcome) :
    (¬may ∧ outcome.2.2.asked = overheard.asked) ∨
      (may ∧ outcome.2.2.asked = overheard.asked ++ [call]) := by
  cases hattempt with
  | barred hbarred => exact Or.inl ⟨hbarred, rfl⟩
  | refused hmay hask =>
    rw [Overheard.noting] at hask
    rw [← (Prod.mk.inj hask).2]
    exact Or.inr ⟨hmay, rfl⟩
  | done hmay hask =>
    rw [Overheard.noting] at hask
    rw [← (Prod.mk.inj hask).2]
    exact Or.inr ⟨hmay, rfl⟩

end Attempt

/-!
## The three attempts
-/

variable [Backend ε]

def HeldBy (transaction : StoreTransaction α) (thread : Nat) : Prop :=
  transaction.phase = .active ∧ transaction.owner = some thread

def ended (transaction : StoreTransaction α) (phase : TransactionPhase) : StoreTransaction α :=
  { transaction with phase, listeners := [] }

theorem requireOwner_cases (transaction : StoreTransaction α) (action : String) (thread : Nat) :
    (transaction.HeldBy thread ∧ transaction.requireOwner action thread = .ok ()) ∨
      (¬transaction.HeldBy thread ∧
        ∃ failure, transaction.requireOwner action thread = .error failure) := by
  unfold requireOwner HeldBy
  by_cases hactive : transaction.phase = .active
  · by_cases howner : transaction.owner = some thread
    · exact Or.inl ⟨⟨hactive, howner⟩, by simp [hactive, howner]⟩
    · exact Or.inr ⟨fun hheld => howner hheld.2, by simp [hactive, howner]⟩
  · exact Or.inr ⟨fun hheld => hactive hheld.1, by simp [hactive]⟩

theorem begin_attempt (transaction : StoreTransaction α) (thread : Nat) (backend : ε) :
    Attempt (transaction.phase = .notStarted) Backend.open? transaction
      { transaction with phase := .active, owner := some thread } () backend
      (transaction.begin thread backend) := by
  unfold begin
  by_cases hphase : transaction.phase = .notStarted
  · rw [if_neg (not_not_intro hphase)]
    cases hask : Backend.open? backend with
    | mk answer later =>
      cases answer with
      | error failure => exact .refused hphase hask
      | ok _ => exact .done hphase hask
  · rw [if_pos hphase]
    exact .barred hphase

theorem commit_attempt (transaction : StoreTransaction α) (thread : Nat) (backend : ε) :
    Attempt (transaction.HeldBy thread) Backend.commit? transaction (transaction.ended .committed)
      (transaction.listeners.map fun listener => (listener, .committed)) backend
      (transaction.commit thread backend) := by
  unfold commit
  rcases requireOwner_cases transaction "commit" thread with ⟨hheld, hok⟩ | ⟨hheld, failure, herror⟩
  · rw [hok]
    dsimp only
    cases hask : Backend.commit? backend with
    | mk answer later =>
      cases answer with
      | error failure => exact .refused hheld hask
      | ok _ => exact .done hheld hask
  · rw [herror]
    exact .barred hheld

theorem abort_attempt (transaction : StoreTransaction α) (thread : Nat) (backend : ε) :
    Attempt (Backend.canRollBack backend = true ∧ transaction.HeldBy thread) Backend.abort?
      transaction (transaction.ended .aborted)
      (transaction.listeners.map fun listener => (listener, .aborted)) backend
      (transaction.abort thread backend) := by
  unfold abort
  cases hroll : Backend.canRollBack backend with
  | false => exact .barred fun hmay => Bool.false_ne_true hmay.1
  | true =>
    rw [Bool.not_true, if_neg Bool.false_ne_true]
    rcases requireOwner_cases transaction "abort" thread with
      ⟨hheld, hok⟩ | ⟨hheld, failure, herror⟩
    · rw [hok]
      dsimp only
      cases hask : Backend.abort? backend with
      | mk answer later =>
        cases answer with
        | error failure => exact .refused ⟨rfl, hheld⟩ hask
        | ok _ => exact .done ⟨rfl, hheld⟩ hask
    · rw [herror]
      exact .barred fun hmay => hheld hmay.2

/-!
## Overheard transactions
-/

theorem begin_overheard (transaction : StoreTransaction α) (thread : Nat)
    (overheard : Overheard ε) :
    Overheard.unheard (transaction.begin thread overheard) =
      transaction.begin thread overheard.backend := by
  unfold begin
  by_cases hphase : transaction.phase = .notStarted
  · rw [if_neg (not_not_intro hphase), if_neg (not_not_intro hphase)]
    simp only [Backend.open?, Overheard.noting]
    cases Backend.open? overheard.backend with
    | mk answer later => cases answer <;> rfl
  · rw [if_pos hphase, if_pos hphase]
    rfl

theorem commit_overheard (transaction : StoreTransaction α) (thread : Nat)
    (overheard : Overheard ε) :
    Overheard.unheard (transaction.commit thread overheard) =
      transaction.commit thread overheard.backend := by
  unfold commit
  cases transaction.requireOwner "commit" thread with
  | error failure => rfl
  | ok _ =>
    simp only [Backend.commit?, Overheard.noting]
    cases Backend.commit? overheard.backend with
    | mk answer later => cases answer <;> rfl

theorem abort_overheard (transaction : StoreTransaction α) (thread : Nat)
    (overheard : Overheard ε) :
    Overheard.unheard (transaction.abort thread overheard) =
      transaction.abort thread overheard.backend := by
  unfold abort
  simp only [Backend.canRollBack, Backend.abort?, Overheard.noting]
  cases Backend.canRollBack overheard.backend with
  | false => rfl
  | true =>
    cases transaction.requireOwner "abort" thread with
    | error failure => rfl
    | ok _ =>
      cases Backend.abort? overheard.backend with
      | mk answer later => cases answer <;> rfl

/-!
## Runs
-/

def Request.serve (held : StoreTransaction α × Overheard ε) :
    Request α ε → Except Failure (Heard α) × StoreTransaction α × Overheard ε
  | .begin thread =>
    match held.1.begin thread held.2 with
    | (answer, left) => (answer.map fun _ => [], left)
  | .commit thread => held.1.commit thread held.2
  | .abort thread => held.1.abort thread held.2
  | .listen listener => (.ok [], held.1.withListener listener, held.2)
  | .elsewhere backend => (.ok [], held.1, { held.2 with backend })

def after (backend : ε) (requests : List (Request α ε)) : StoreTransaction α × Overheard ε :=
  requests.foldl (fun held request => (request.serve held).2) ({}, { backend })

def heard : List (Request α ε) → StoreTransaction α × Overheard ε → Heard α
  | [], _ => []
  | request :: rest, held => heardIn (request.serve held).1 ++ heard rest (request.serve held).2

/-- The thread of a request to begin that has succeeded. -/
def BegunBy (backend : ε) (done : List (Request α ε)) (thread : Nat) : Prop :=
  ∃ earlier later, done = earlier ++ .begin thread :: later ∧
    ((Request.begin thread).serve (after backend earlier)).1 = .ok []

variable {held : StoreTransaction α × Overheard ε} {request : Request α ε}
variable {done requests : List (Request α ε)}

theorem after_concat (backend : ε) (done : List (Request α ε)) (request : Request α ε) :
    after backend (done ++ [request]) = (request.serve (after backend done)).2 := by
  rw [after, List.foldl_append]
  rfl

theorem heard_concat (done : List (Request α ε)) (request : Request α ε)
    (held : StoreTransaction α × Overheard ε) :
    heard (done ++ [request]) held =
      heard done held ++
        heardIn
          (request.serve (done.foldl (fun held request => (request.serve held).2) held)).1 := by
  induction done generalizing held with
  | nil => simp [heard]
  | cons first rest ih =>
    rw [List.cons_append, heard, heard, ih, List.append_assoc]
    rfl

theorem begunBy_concat :
    BegunBy backend (done ++ [request]) thread ↔
      BegunBy backend done thread ∨
        (request = .begin thread ∧ (request.serve (after backend done)).1 = .ok []) := by
  unfold BegunBy
  rw [exists_split_eq_concat_iff, or_comm]
  apply or_congr_right
  apply and_congr_right
  intro hrequest
  rw [hrequest]

/-!
## What a request can do
-/

inductive Served (held : StoreTransaction α × Overheard ε) (request : Request α ε) :
    Except Failure (Heard α) × StoreTransaction α × Overheard ε → Prop where
  | unmoved {answer : Except Failure (Heard α)} {later : Overheard ε}
      (hsilent : heardIn answer = []) (hadds : added [request] = [])
      (hbegins : ∀ thread, request = .begin thread → answer ≠ .ok []) :
      Served held request (answer, held.1, later)
  | joined {listener : α} (hrequest : request = .listen listener) :
      Served held request (.ok [], held.1.withListener listener, held.2)
  | begun {thread : Nat} {later : Overheard ε} (hrequest : request = .begin thread)
      (hphase : held.1.phase = .notStarted) :
      Served held request (.ok [], { held.1 with phase := .active, owner := some thread }, later)
  | ended {phase : TransactionPhase} {later : Overheard ε} (hadds : added [request] = [])
      (hbegins : ∀ thread, request ≠ .begin thread) (hactive : held.1.phase = .active)
      (hfinal : phase = .committed ∨ phase = .aborted) :
      Served held request
        (.ok (held.1.listeners.map fun listener => (listener, phase)), held.1.ended phase, later)

theorem served (held : StoreTransaction α × Overheard ε) (request : Request α ε) :
    Served held request (request.serve held) := by
  cases request with
  | begin thread =>
    unfold Request.serve
    dsimp only
    have hattempt := begin_attempt held.1 thread held.2
    generalize held.1.begin thread held.2 = outcome at hattempt ⊢
    cases hattempt with
    | barred hbarred => exact .unmoved rfl rfl nofun
    | refused hmay hask => exact .unmoved rfl rfl nofun
    | done hmay hask => exact .begun rfl hmay
  | commit thread =>
    unfold Request.serve
    dsimp only
    have hattempt := commit_attempt held.1 thread held.2
    generalize held.1.commit thread held.2 = outcome at hattempt ⊢
    cases hattempt with
    | barred hbarred => exact .unmoved rfl rfl nofun
    | refused hmay hask => exact .unmoved rfl rfl nofun
    | done hmay hask => exact .ended rfl nofun hmay.1 (Or.inl rfl)
  | abort thread =>
    unfold Request.serve
    dsimp only
    have hattempt := abort_attempt held.1 thread held.2
    generalize held.1.abort thread held.2 = outcome at hattempt ⊢
    cases hattempt with
    | barred hbarred => exact .unmoved rfl rfl nofun
    | refused hmay hask => exact .unmoved rfl rfl nofun
    | done hmay hask => exact .ended rfl nofun hmay.2.1 (Or.inr rfl)
  | listen listener => exact .joined rfl
  | elsewhere backend => exact .unmoved rfl rfl nofun

/-!
## What the requests so far say of a transaction
-/

/-- Whether the state of a transaction is what the requests it has served call for: its owner is
the thread that began it, and until it ends its listeners are those that were added. -/
structure Recounts (backend : ε) (done : List (Request α ε)) (transaction : StoreTransaction α) :
    Prop where
  owner : ∀ thread, transaction.owner = some thread ↔ BegunBy backend done thread
  unowned : transaction.phase = .notStarted → transaction.owner = none
  listeners : transaction.phase.isFinal = false → transaction.listeners = added done

theorem owner_concat (howner : ∀ thread, transaction.owner = some thread ↔
      BegunBy backend done thread)
    (hbegins : ∀ thread, request = .begin thread → (request.serve (after backend done)).1 ≠ .ok [])
    (thread : Nat) :
    transaction.owner = some thread ↔ BegunBy backend (done ++ [request]) thread := by
  rw [begunBy_concat, howner]
  exact (or_iff_left fun hbegun => hbegins thread hbegun.1 hbegun.2).symm

theorem recounts_concat (hrecounts : Recounts backend done (after backend done).1)
    (request : Request α ε) :
    Recounts backend (done ++ [request]) (after backend (done ++ [request])).1 := by
  rw [after_concat]
  have hserved := served (after backend done) request
  have howner : (∀ thread, request = .begin thread →
      (request.serve (after backend done)).1 ≠ .ok []) → ∀ thread,
      (after backend done).1.owner = some thread ↔ BegunBy backend (done ++ [request]) thread :=
    owner_concat hrecounts.owner
  generalize hserve : request.serve (after backend done) = outcome at hserved howner ⊢
  cases hserved with
  | unmoved hsilent hadds hbegins =>
    constructor
    · exact howner hbegins
    · exact hrecounts.unowned
    · intro hphase
      rw [added_concat, hadds, List.append_nil]
      exact hrecounts.listeners hphase
  | joined hrequest =>
    constructor
    · apply howner
      intro thread hbegin
      rw [hrequest] at hbegin
      cases hbegin
    · exact hrecounts.unowned
    · intro hphase
      rw [added_concat, hrequest, ← hrecounts.listeners hphase]
      rfl
  | begun hrequest hphase =>
    have hnobody : ∀ thread, ¬BegunBy backend done thread := by
      intro thread hbegun
      have hsome := (hrecounts.owner thread).2 hbegun
      rw [hrecounts.unowned hphase] at hsome
      cases hsome
    constructor
    · intro thread
      rw [begunBy_concat, hserve, hrequest, or_iff_right (hnobody thread)]
      constructor
      · intro hsame
        cases hsame
        exact ⟨rfl, rfl⟩
      · intro hbegin
        cases hbegin.1
        rfl
    · exact nofun
    · intro _
      rw [added_concat, hrequest]
      have hlisteners := hrecounts.listeners (by rw [hphase]; rfl)
      exact hlisteners.trans (List.append_nil _).symm
  | ended hadds hbegins hactive hfinal =>
    constructor
    · exact howner fun thread hbegin => absurd hbegin (hbegins thread)
    · intro hphase
      rcases hfinal with hcommitted | haborted
      · cases hcommitted.symm.trans hphase
      · cases haborted.symm.trans hphase
    · intro hphase
      rcases hfinal with hcommitted | haborted
      · cases (congrArg TransactionPhase.isFinal hcommitted).symm.trans hphase
      · cases (congrArg TransactionPhase.isFinal haborted).symm.trans hphase

theorem recounts_after (backend : ε) (done : List (Request α ε)) :
    Recounts backend done (after backend done).1 := by
  induction done using List.reverseRecOn with
  | nil =>
    constructor
    · intro thread
      exact iff_of_false nofun fun ⟨earlier, later, hsplit, _⟩ => by simp at hsplit
    · exact fun _ => rfl
    · exact fun _ => rfl
  | append_singleton done request ih => exact recounts_concat ih request

theorem heldBy_after_iff :
    (after backend done).1.HeldBy thread ↔
      (after backend done).1.phase = .active ∧ BegunBy backend done thread :=
  and_congr_right fun _ => (recounts_after backend done).owner thread

/-!
## The life of a transaction
-/

/-- What the backend is asked to do when a request is served. -/
inductive CallsFor (backend : ε) (done : List (Request α ε))
    (before : StoreTransaction α × Overheard ε) : Request α ε → BackendCall → Prop where
  | opening {thread : Nat} (hphase : before.1.phase = .notStarted) :
      CallsFor backend done before (.begin thread) .opening
  | committing {thread : Nat} (hactive : before.1.phase = .active)
      (hbegun : BegunBy backend done thread) :
      CallsFor backend done before (.commit thread) .committing
  | aborting {thread : Nat} (hrollsBack : Backend.canRollBack before.2.backend = true)
      (hactive : before.1.phase = .active) (hbegun : BegunBy backend done thread) :
      CallsFor backend done before (.abort thread) .aborting

/-- What a request leaves that succeeds, and what is heard of it.  The listeners of an end are those
that were added before it. -/
inductive Succeeds (done : List (Request α ε)) (before : StoreTransaction α × Overheard ε) :
    Request α ε → Heard α → StoreTransaction α × Overheard ε → Prop where
  | begin (thread : Nat) :
      Succeeds done before (.begin thread) []
        ({ before.1 with phase := .active, owner := some thread },
          { backend := (Backend.open? before.2.backend).2
            asked := before.2.asked ++ [.opening] })
  | commit (thread : Nat) :
      Succeeds done before (.commit thread)
        ((added done).map fun listener => (listener, .committed))
        ({ before.1 with phase := .committed, listeners := [] },
          { backend := (Backend.commit? before.2.backend).2
            asked := before.2.asked ++ [.committing] })
  | abort (thread : Nat) :
      Succeeds done before (.abort thread)
        ((added done).map fun listener => (listener, .aborted))
        ({ before.1 with phase := .aborted, listeners := [] },
          { backend := (Backend.abort? before.2.backend).2
            asked := before.2.asked ++ [.aborting] })
  | listen (listener : α) :
      Succeeds done before (.listen listener) [] (before.1.withListener listener, before.2)
  | elsewhere (later : ε) :
      Succeeds done before (.elsewhere later) [] (before.1, { before.2 with backend := later })

/-- What a request does to a transaction that has served some requests already. -/
structure Lawful (backend : ε) (done : List (Request α ε)) (request : Request α ε)
    (before : StoreTransaction α × Overheard ε)
    (outcome : Except Failure (Heard α) × StoreTransaction α × Overheard ε) : Prop where
  moves : outcome.2.1.phase = before.1.phase ∨ before.1.phase.LeadsTo outcome.2.1.phase
  refused : ∀ failure, outcome.1 = .error failure → outcome.2.1 = before.1
  asked : ((∀ call, ¬CallsFor backend done before request call) ∧
      outcome.2.2.asked = before.2.asked) ∨
    ∃ call, CallsFor backend done before request call ∧
      outcome.2.2.asked = before.2.asked ++ [call]
  begun : ∀ thread, request = .begin thread →
    ((∃ heard, outcome.1 = .ok heard) ↔
      before.1.phase = .notStarted ∧ (Backend.open? before.2.backend).1 = .ok ())
  committed : ∀ thread, request = .commit thread →
    ((∃ heard, outcome.1 = .ok heard) ↔
      (before.1.phase = .active ∧ BegunBy backend done thread) ∧
        (Backend.commit? before.2.backend).1 = .ok ())
  aborted : ∀ thread, request = .abort thread →
    ((∃ heard, outcome.1 = .ok heard) ↔
      (Backend.canRollBack before.2.backend = true ∧
        before.1.phase = .active ∧ BegunBy backend done thread) ∧
          (Backend.abort? before.2.backend).1 = .ok ())
  succeeded : ∀ heard, outcome.1 = .ok heard → Succeeds done before request heard outcome.2
  heard : heardIn outcome.1 =
    if before.1.phase.isFinal = false ∧ outcome.2.1.phase.isFinal = true then
      (added done).map fun listener => (listener, outcome.2.1.phase)
    else []

theorem moves_serve (held : StoreTransaction α × Overheard ε) (request : Request α ε) :
    (request.serve held).2.1.phase = held.1.phase ∨
      held.1.phase.LeadsTo (request.serve held).2.1.phase := by
  have hserved := served held request
  generalize request.serve held = outcome at hserved ⊢
  cases hserved with
  | unmoved hsilent hadds hbegins => exact Or.inl rfl
  | joined hrequest => exact Or.inl rfl
  | begun hrequest hphase =>
    rw [hphase]
    exact Or.inr .begun
  | ended hadds hbegins hactive hfinal =>
    rw [hactive]
    rcases hfinal with rfl | rfl
    · exact Or.inr .committed
    · exact Or.inr .aborted

theorem refused_serve {failure : Failure}
    (herror : (request.serve held).1 = .error failure) : (request.serve held).2.1 = held.1 := by
  have hserved := served held request
  generalize request.serve held = outcome at hserved herror ⊢
  cases hserved with
  | unmoved hsilent hadds hbegins => rfl
  | joined hrequest => cases herror
  | begun hrequest hphase => cases herror
  | ended hadds hbegins hactive hfinal => cases herror

theorem asked_serve (backend : ε) (done : List (Request α ε)) (request : Request α ε) :
    ((∀ call, ¬CallsFor backend done (after backend done) request call) ∧
        (request.serve (after backend done)).2.2.asked = (after backend done).2.asked) ∨
      ∃ call, CallsFor backend done (after backend done) request call ∧
        (request.serve (after backend done)).2.2.asked =
          (after backend done).2.asked ++ [call] := by
  cases request with
  | begin thread =>
    rcases (begin_attempt (after backend done).1 thread (after backend done).2).asked with
      ⟨hstarted, hsame⟩ | ⟨hphase, hasked⟩
    · left
      apply And.intro _ hsame
      intro call hcalls
      cases hcalls with
      | opening hphase => exact hstarted hphase
    · exact Or.inr ⟨.opening, .opening hphase, hasked⟩
  | commit thread =>
    rcases (commit_attempt (after backend done).1 thread (after backend done).2).asked with
      ⟨hfree, hsame⟩ | ⟨hheld, hasked⟩
    · left
      apply And.intro _ hsame
      intro call hcalls
      cases hcalls with
      | committing hactive hbegun => exact hfree (heldBy_after_iff.2 ⟨hactive, hbegun⟩)
    · rcases heldBy_after_iff.1 hheld with ⟨hactive, hbegun⟩
      exact Or.inr ⟨.committing, .committing hactive hbegun, hasked⟩
  | abort thread =>
    rcases (abort_attempt (after backend done).1 thread (after backend done).2).asked with
      ⟨hfree, hsame⟩ | ⟨⟨hrollsBack, hheld⟩, hasked⟩
    · left
      apply And.intro _ hsame
      intro call hcalls
      cases hcalls with
      | aborting hrollsBack hactive hbegun =>
        exact hfree ⟨hrollsBack, heldBy_after_iff.2 ⟨hactive, hbegun⟩⟩
    · rcases heldBy_after_iff.1 hheld with ⟨hactive, hbegun⟩
      exact Or.inr ⟨.aborting, .aborting hrollsBack hactive hbegun, hasked⟩
  | listen listener => exact Or.inl ⟨nofun, rfl⟩
  | elsewhere later => exact Or.inl ⟨nofun, rfl⟩

theorem listeners_of_heldBy (hheld : (after backend done).1.HeldBy thread) :
    (after backend done).1.listeners = added done := by
  apply (recounts_after backend done).listeners
  rw [hheld.1]
  rfl

theorem serve_begin_eq_ok_iff {given : Heard α} :
    ((Request.begin thread).serve held).1 = .ok given ↔
      (held.1.begin thread held.2).1 = .ok () ∧ given = [] := by
  change (held.1.begin thread held.2).1.map (fun _ => []) = .ok given ↔ _
  cases (held.1.begin thread held.2).1 with
  | error failure => exact iff_of_false nofun fun hboth => nomatch hboth.1
  | ok _ =>
    rw [Except.map, Except.ok.injEq, eq_comm]
    exact (and_iff_right rfl).symm

theorem succeeds_serve {given : Heard α} (request : Request α ε)
    (hok : (request.serve (after backend done)).1 = .ok given) :
    Succeeds done (after backend done) request given (request.serve (after backend done)).2 := by
  cases request with
  | begin thread =>
    have hattempt := begin_attempt (after backend done).1 thread (after backend done).2
    rcases serve_begin_eq_ok_iff.1 hok with ⟨hbegun, hgiven⟩
    rw [hgiven]
    change Succeeds _ _ _ _ ((after backend done).1.begin thread (after backend done).2).2
    rw [(hattempt.done_of_ok hbegun).2]
    exact .begin thread
  | commit thread =>
    have hattempt := commit_attempt (after backend done).1 thread (after backend done).2
    have hheld := (hattempt.isOk_iff.1 ⟨given, hok⟩).1
    rcases hattempt.done_of_ok hok with ⟨hgiven, hleft⟩
    rw [listeners_of_heldBy hheld] at hgiven
    rw [hgiven]
    change Succeeds _ _ _ _ ((after backend done).1.commit thread (after backend done).2).2
    rw [hleft]
    exact .commit thread
  | abort thread =>
    have hattempt := abort_attempt (after backend done).1 thread (after backend done).2
    have hheld := (hattempt.isOk_iff.1 ⟨given, hok⟩).1.2
    rcases hattempt.done_of_ok hok with ⟨hgiven, hleft⟩
    rw [listeners_of_heldBy hheld] at hgiven
    rw [hgiven]
    change Succeeds _ _ _ _ ((after backend done).1.abort thread (after backend done).2).2
    rw [hleft]
    exact .abort thread
  | listen listener =>
    cases hok
    exact .listen listener
  | elsewhere later =>
    cases hok
    exact .elsewhere later

theorem heard_serve (backend : ε) (done : List (Request α ε)) (request : Request α ε) :
    heardIn (request.serve (after backend done)).1 =
      if (after backend done).1.phase.isFinal = false ∧
          (request.serve (after backend done)).2.1.phase.isFinal = true then
        (added done).map fun listener =>
          (listener, (request.serve (after backend done)).2.1.phase)
      else [] := by
  have hlisteners := (recounts_after backend done).listeners
  have hserved := served (after backend done) request
  generalize request.serve (after backend done) = outcome at hserved ⊢
  cases hserved with
  | unmoved hsilent hadds hbegins =>
    rw [hsilent, if_neg]
    exact fun hends => Bool.false_ne_true (hends.1.symm.trans hends.2)
  | joined hrequest =>
    rw [if_neg]
    · rfl
    · exact fun hends => Bool.false_ne_true (hends.1.symm.trans hends.2)
  | begun hrequest hphase =>
    rw [if_neg]
    · rfl
    · exact fun hends => nomatch hends.2
  | ended hadds hbegins hactive hfinal =>
    have hbefore : (after backend done).1.phase.isFinal = false := by
      rw [hactive]
      rfl
    rw [if_pos]
    · rw [← hlisteners hbefore]
      rfl
    · apply And.intro hbefore
      rcases hfinal with rfl | rfl
      · rfl
      · rfl

theorem begun_serve (backend : ε) (done : List (Request α ε)) (thread : Nat) :
    (∃ heard, ((Request.begin thread).serve (after backend done)).1 = .ok heard) ↔
      (after backend done).1.phase = .notStarted ∧
        (Backend.open? (after backend done).2.backend).1 = .ok () := by
  have hattempt := begin_attempt (after backend done).1 thread (after backend done).2
  refine Iff.trans ?_ hattempt.isOk_iff
  constructor
  · intro hserved
    rcases hserved with ⟨heard, hok⟩
    exact ⟨(), (serve_begin_eq_ok_iff.1 hok).1⟩
  · intro hbegun
    rcases hbegun with ⟨given, hok⟩
    exact ⟨[], serve_begin_eq_ok_iff.2 ⟨hok, rfl⟩⟩

theorem lawful_serve (backend : ε) (done : List (Request α ε)) (request : Request α ε) :
    Lawful backend done request (after backend done) (request.serve (after backend done)) := by
  constructor
  · exact moves_serve _ request
  · exact fun failure => refused_serve
  · exact asked_serve backend done request
  · intro thread hrequest
    rw [hrequest]
    exact begun_serve backend done thread
  · intro thread hrequest
    rw [hrequest, ← heldBy_after_iff]
    exact (commit_attempt (after backend done).1 thread (after backend done).2).isOk_iff
  · intro thread hrequest
    rw [hrequest, ← heldBy_after_iff]
    exact (abort_attempt (after backend done).1 thread (after backend done).2).isOk_iff
  · exact fun heard => succeeds_serve request
  · exact heard_serve backend done request

/-- Whether all that the listeners of a transaction have heard is of its end, once each, or
nothing as long as it has not ended. -/
def HeardOnce (backend : ε) (requests : List (Request α ε)) : Prop :=
  ((after backend requests).1.phase.isFinal = false ∧ heard requests ({}, { backend }) = []) ∨
    ((after backend requests).1.phase.isFinal = true ∧ ∃ done ending rest,
      requests = done ++ ending :: rest ∧ (after backend done).1.phase = .active ∧
        (after backend (done ++ [ending])).1.phase = (after backend requests).1.phase ∧
        heard requests ({}, { backend }) =
          (added done).map fun listener => (listener, (after backend requests).1.phase))

theorem heardOnce_concat (hheard : HeardOnce backend done) (request : Request α ε) :
    HeardOnce backend (done ++ [request]) := by
  have hmoves := moves_serve (after backend done) request
  have hserve := heard_serve backend done request
  have hconcat := heard_concat done request ({}, { backend })
  change heard (done ++ [request]) ({}, { backend }) = heard done ({}, { backend }) ++
    heardIn (request.serve (after backend done)).1 at hconcat
  rw [hserve] at hconcat
  rw [← after_concat] at hmoves hconcat
  unfold HeardOnce
  rcases hheard with
    ⟨hlive, hnothing⟩ | ⟨hfinal, before, ending, rest, hsplit, hactive, hended, hall⟩
  · -- Nobody has heard anything yet, and the request may be the one that ends the transaction.
    cases hafter : (after backend (done ++ [request])).1.phase.isFinal with
    | false =>
      refine Or.inl ⟨rfl, ?_⟩
      rw [hconcat, hnothing, if_neg]
      · rfl
      · exact fun hends => Bool.false_ne_true (hafter.symm.trans hends.2)
    | true =>
      refine Or.inr ⟨rfl, done, request, [], rfl, ?_, rfl, ?_⟩
      · rcases hmoves with hsame | hleads
        · rw [hsame, hlive] at hafter
          cases hafter
        · exact hleads.active_of_isFinal hafter
      · rw [hconcat, hnothing, if_pos ⟨hlive, hafter⟩, List.nil_append]
  · -- All has been heard, for no phase follows a final one.
    have hsame : (after backend (done ++ [request])).1.phase = (after backend done).1.phase :=
      hmoves.resolve_right fun hleads => hleads.not_isFinal hfinal
    refine Or.inr ⟨hsame ▸ hfinal, before, ending, rest ++ [request], ?_, hactive, ?_, ?_⟩
    · rw [hsplit, List.append_assoc]
      rfl
    · rw [hsame]
      exact hended
    · rw [hconcat, if_neg, List.append_nil, hall, hsame]
      exact fun hends => Bool.false_ne_true (hends.1.symm.trans hfinal)

theorem heardOnce_after (backend : ε) (requests : List (Request α ε)) :
    HeardOnce backend requests := by
  induction requests using List.reverseRecOn with
  | nil => exact Or.inl ⟨rfl, rfl⟩
  | append_singleton done request ih => exact heardOnce_concat ih request

/-- Whatever a transaction is asked, from whatever threads and however its backend answers: it is
begun and ended in that order, a request that succeeds has been carried out and one that is refused
changes nothing, the backend is asked to end it exactly when the thread that began it says so, and
the listeners hear of the end alone, once each. -/
theorem transaction_lifecycle (backend : ε) (requests : List (Request α ε)) :
    (∀ done request rest, requests = done ++ request :: rest →
      Lawful backend done request (after backend done) (request.serve (after backend done))) ∧
      HeardOnce backend requests :=
  ⟨fun done request _ _ => lawful_serve backend done request, heardOnce_after backend requests⟩

def willing : PresetBackend where
  canRollBack := true

/-- A transaction that a foreign thread cannot commit and that its backend does not let commit at
first, so that it is aborted in the end, and asked to commit once more. -/
def trial : List (Request Nat PresetBackend) :=
  [.listen 1, .begin 7, .commit 8, .listen 2,
    .elsewhere { willing with committing := some .rollbackUnsupported }, .commit 7,
    .elsewhere willing, .abort 7, .listen 3, .commit 7]

/-- The backend was asked to commit and to abort by the thread that began the transaction, and the
two listeners that were there when it was aborted have heard of it. -/
theorem heard_of_trial :
    Succeeds (trial.take 7) (after willing (trial.take 7)) (.abort 7) [(1, .aborted), (2, .aborted)]
        (after willing (trial.take 8)) ∧
      HeardOnce willing trial ∧
      heard trial ({}, { backend := willing }) = [(1, .aborted), (2, .aborted)] ∧
      (after willing trial).1 = { phase := .aborted, owner := some 7, listeners := [3] } ∧
      (after willing trial).2.asked = [.opening, .committing, .aborting] := by
  rcases transaction_lifecycle willing trial with ⟨hlawful, honce⟩
  have hended := hlawful (trial.take 7) (.abort 7) (trial.drop 8) rfl
  exact ⟨hended.succeeded _ rfl, honce, rfl, rfl, rfl⟩

end StoreTransaction
end SharedGraph
