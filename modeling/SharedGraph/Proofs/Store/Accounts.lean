import SharedGraph.Proofs.Store.Lifecycle
import SharedGraph.Store.Session
import SharedGraph.Store.Store

/-!
# The counters of a store

A store knows of its transactions by two numbers only.  They stand for the phases of all the
transactions that were ever made on it: whatever is done to these, and whenever the store is
started or shut down, one is the number of those that are active, kept or dropped, and the other
the number of those that were committed.  So there is always something to take away when an active
transaction is committed.
-/

namespace SharedGraph

/-!
## One transaction
-/

namespace StoreCounters

variable {counters : StoreCounters}

theorem openTransaction_cases (counters : StoreCounters) :
    (∃ failure, counters.openTransaction = (.error failure, counters)) ∨
      counters.openTransaction =
        (.ok (), { counters with openTransactions := counters.openTransactions + 1 }) := by
  unfold openTransaction requireStarted
  by_cases hstarted : counters.phase = .started
  · rw [if_pos hstarted]
    exact Or.inr rfl
  · rw [if_neg hstarted]
    exact Or.inl ⟨_, rfl⟩

theorem commitTransaction_cases (counters : StoreCounters) :
    (∃ failure, counters.commitTransaction = (.error failure, counters)) ∨
      ∃ remaining, counters.openTransactions = remaining + 1 ∧ counters.commitTransaction =
        (.ok (),
          { counters with openTransactions := remaining, commits := counters.commits + 1 }) := by
  unfold commitTransaction requireStarted
  by_cases hstarted : counters.phase = .started
  · rw [if_pos hstarted]
    dsimp only
    cases counters.openTransactions with
    | zero => exact Or.inl ⟨_, rfl⟩
    | succ remaining => exact Or.inr ⟨remaining, rfl, rfl⟩
  · rw [if_neg hstarted]
    exact Or.inl ⟨_, rfl⟩

theorem commitTransaction_of_started (hstarted : counters.phase = .started)
    (hopen : 0 < counters.openTransactions) : counters.commitTransaction.1 = .ok () := by
  unfold commitTransaction requireStarted
  rw [if_pos hstarted]
  dsimp only
  cases hcount : counters.openTransactions with
  | zero => omega
  | succ remaining => rfl

end StoreCounters

namespace StoreTransaction

variable {α : Type} {transaction : StoreTransaction α} {counters : StoreCounters}

def weight (phase : TransactionPhase) (transaction : StoreTransaction α) : Nat :=
  if transaction.phase = phase then 1 else 0

/-- Whether counters move by as much as one transaction does. -/
structure Balances (before after : StoreTransaction α × StoreCounters) : Prop where
  opened : after.2.openTransactions + before.1.weight .active =
    before.2.openTransactions + after.1.weight .active
  committed : after.2.commits + before.1.weight .committed =
    before.2.commits + after.1.weight .committed

theorem Balances.refl (held : StoreTransaction α × StoreCounters) : Balances held held :=
  ⟨rfl, rfl⟩

theorem balances_begin (transaction : StoreTransaction α) (thread : Nat)
    (counters : StoreCounters) :
    Balances (transaction, counters) (transaction.begin thread counters).2 := by
  have hattempt := begin_attempt transaction thread counters
  generalize transaction.begin thread counters = outcome at hattempt ⊢
  cases hattempt with
  | barred hbarred => exact .refl _
  | refused hmay hask =>
    rcases counters.openTransaction_cases with ⟨failure, hsame⟩ | hopened
    · cases hsame.symm.trans hask
      exact .refl _
    · cases hopened.symm.trans hask
  | done hmay hask =>
    rcases counters.openTransaction_cases with ⟨failure, hsame⟩ | hopened
    · cases hsame.symm.trans hask
    · cases hopened.symm.trans hask
      constructor
      · simp [weight, hmay]
      · simp [weight, hmay]

theorem balances_commit (transaction : StoreTransaction α) (thread : Nat)
    (counters : StoreCounters) :
    Balances (transaction, counters) (transaction.commit thread counters).2 := by
  have hattempt := commit_attempt transaction thread counters
  generalize transaction.commit thread counters = outcome at hattempt ⊢
  cases hattempt with
  | barred hbarred => exact .refl _
  | refused hmay hask =>
    rcases counters.commitTransaction_cases with ⟨failure, hsame⟩ | ⟨remaining, -, hdone⟩
    · cases hsame.symm.trans hask
      exact .refl _
    · cases hdone.symm.trans hask
  | done hmay hask =>
    rcases counters.commitTransaction_cases with ⟨failure, hsame⟩ | ⟨remaining, hcount, hdone⟩
    · cases hsame.symm.trans hask
    · cases hdone.symm.trans hask
      constructor
      · simp [weight, ended, hmay.1, hcount]
      · simp [weight, ended, hmay.1]

theorem abort_eq_error (transaction : StoreTransaction α) (thread : Nat)
    (counters : StoreCounters) :
    transaction.abort thread counters = (.error .abortUnsupported, transaction, counters) :=
  rfl

theorem commit_of_heldBy {thread : Nat} (hheld : transaction.HeldBy thread)
    (hstarted : counters.phase = .started) (hopen : 0 < counters.openTransactions) :
    ∃ heard, (transaction.commit thread counters).1 = .ok heard :=
  (commit_attempt transaction thread counters).isOk_iff.2
    ⟨hheld, counters.commitTransaction_of_started hstarted hopen⟩

theorem provide_cases (thread : Nat) (counters : StoreCounters) :
    (∃ failure, provide (α := α) thread counters = (.error failure, counters)) ∨
      provide (α := α) thread counters = (.ok { phase := .active, owner := some thread },
        { counters with openTransactions := counters.openTransactions + 1 }) := by
  unfold provide begin
  rw [if_neg (not_not_intro rfl)]
  have hopen : Backend.open? counters = counters.openTransaction := rfl
  rw [hopen]
  rcases counters.openTransaction_cases with ⟨failure, hsame⟩ | hopened
  · rw [hsame]
    exact Or.inl ⟨failure, rfl⟩
  · rw [hopened]
    exact Or.inr rfl

end StoreTransaction

/-!
## All transactions
-/

namespace StoreSession

variable {session : StoreSession StoreCounters} {number thread : Nat}
variable {slot : TransactionSlot} {phase : TransactionPhase}

def countKept (session : StoreSession StoreCounters) (phase : TransactionPhase) : Nat :=
  session.slots.countP fun slot => !slot.dropped && slot.transaction.phase == phase

def countDropped (session : StoreSession StoreCounters) (phase : TransactionPhase) : Nat :=
  session.slots.countP fun slot => slot.dropped && slot.transaction.phase == phase

theorem countIn_eq_add (session : StoreSession StoreCounters) (phase : TransactionPhase) :
    session.countIn phase = session.countKept phase + session.countDropped phase := by
  unfold countIn countKept countDropped
  induction session.slots with
  | nil => rfl
  | cons slot rest ih =>
    rw [List.countP_cons, List.countP_cons, List.countP_cons, ih]
    cases slot.dropped with
    | false =>
      simp only [Bool.not_false, Bool.true_and, Bool.false_and, Bool.false_eq_true, if_false]
      omega
    | true =>
      simp only [Bool.not_true, Bool.true_and, Bool.false_and, Bool.false_eq_true, if_false]
      omega

/-- Whether the counters of a store are what the transactions on it call for. -/
structure Balanced (session : StoreSession StoreCounters) : Prop where
  opened : session.backend.openTransactions = session.countIn .active
  committed : session.backend.commits = session.countIn .committed

theorem held?_eq_some {transaction : StoreTransaction Nat}
    (hheld : session.held? number = some transaction) :
    session.slots[number]? = some { transaction } := by
  unfold held? at hheld
  rcases Option.map_eq_some_iff.1 hheld with ⟨slot, hslot, rfl⟩
  rcases Option.filter_eq_some_iff.1 hslot with ⟨hfound, hkept⟩
  rw [hfound]
  cases slot with
  | mk transaction dropped =>
    cases dropped with
    | false => rfl
    | true => cases hkept

theorem act_cases (session : StoreSession StoreCounters) (number : Nat)
    (action : StoreTransaction Nat → StoreCounters →
      Except Failure Heard × StoreTransaction Nat × StoreCounters) :
    session.act number action = (.ok [], session) ∨
      ∃ held, session.held? number = some held ∧
        session.act number action =
          ((action held session.backend).1,
            { session with
              backend := (action held session.backend).2.2
              slots := session.slots.set number
                { transaction := (action held session.backend).2.1 } }) := by
  unfold act
  cases hheld : session.held? number with
  | none => exact Or.inl rfl
  | some held => exact Or.inr ⟨held, rfl, rfl⟩

theorem countIn_set (hslot : session.slots[number]? = some slot) (later : StoreCounters)
    (new : TransactionSlot) (phase : TransactionPhase) :
    countIn { session with backend := later, slots := session.slots.set number new } phase +
        slot.transaction.weight phase =
      session.countIn phase + new.transaction.weight phase := by
  rcases List.getElem?_eq_some_iff.1 hslot with ⟨hnumber, rfl⟩
  unfold countIn StoreTransaction.weight
  rw [List.countP_set hnumber]
  simp only [beq_iff_eq]
  by_cases hphase : session.slots[number].transaction.phase = phase
  · have hcounted : 0 < session.slots.countP fun slot => slot.transaction.phase == phase :=
      List.countP_pos_iff.2 ⟨_, List.getElem_mem hnumber, beq_iff_eq.2 hphase⟩
    rw [if_pos hphase]
    omega
  · rw [if_neg hphase]
    omega

theorem countIn_concat (session : StoreSession StoreCounters) (later : StoreCounters)
    (transaction : StoreTransaction Nat) (phase : TransactionPhase) :
    countIn { session with backend := later, slots := session.slots ++ [{ transaction }] } phase =
      session.countIn phase + transaction.weight phase := by
  unfold countIn StoreTransaction.weight
  rw [List.countP_append, List.countP_singleton]
  simp only [beq_iff_eq]

theorem transactions_drop (session : StoreSession StoreCounters) (number : Nat) :
    (session.drop number).slots.map TransactionSlot.transaction =
      session.slots.map TransactionSlot.transaction := by
  apply List.ext_getElem?
  intro place
  rw [drop, List.getElem?_map, List.getElem?_map, List.getElem?_modify]
  cases session.slots[place]? with
  | none => rfl
  | some slot => by_cases hsame : number = place <;> simp [hsame]

theorem countIn_drop (session : StoreSession StoreCounters) (number : Nat)
    (phase : TransactionPhase) : (session.drop number).countIn phase = session.countIn phase := by
  have hcount : ∀ slots : List TransactionSlot,
      (slots.countP fun slot => slot.transaction.phase == phase) =
        (slots.map TransactionSlot.transaction).countP fun transaction =>
          transaction.phase == phase :=
    fun slots => by rw [List.countP_map]; rfl
  rw [countIn, countIn, hcount, hcount, transactions_drop]

theorem balanced_act (hbalanced : session.Balanced) (number : Nat)
    (action : StoreTransaction Nat → StoreCounters →
      Except Failure Heard × StoreTransaction Nat × StoreCounters)
    (hbalances : ∀ held counters,
      StoreTransaction.Balances (held, counters) (action held counters).2) :
    (session.act number action).2.Balanced := by
  rcases act_cases session number action with hsame | ⟨held, hheld, hact⟩
  · rw [hsame]
    exact hbalanced
  · rw [hact]
    -- One transaction is replaced, and the counters move by the difference of its weights.
    rcases hbalances held session.backend with ⟨hopened, hcommitted⟩
    have hcount := countIn_set (held?_eq_some hheld) (action held session.backend).2.2
      { transaction := (action held session.backend).2.1 }
    have hactive := hcount .active
    have hended := hcount .committed
    have hbefore := hbalanced.opened
    have hcommits := hbalanced.committed
    dsimp only at hopened hcommitted hactive hended
    constructor
    · dsimp only
      omega
    · dsimp only
      omega

theorem balanced_create (hbalanced : session.Balanced) : session.create.Balanced := by
  constructor
  · exact hbalanced.opened.trans (countIn_concat session session.backend {} .active).symm
  · exact hbalanced.committed.trans (countIn_concat session session.backend {} .committed).symm

theorem balanced_provide (hbalanced : session.Balanced) (thread : Nat) :
    (session.provide thread).2.Balanced := by
  unfold provide
  rcases StoreTransaction.provide_cases (α := Nat) thread session.backend with
    ⟨failure, hsame⟩ | hprovided
  · rw [hsame]
    exact hbalanced
  · rw [hprovided]
    have hcount := countIn_concat session
      { session.backend with openTransactions := session.backend.openTransactions + 1 }
      { phase := .active, owner := some thread }
    constructor
    · exact (congrArg (· + 1) hbalanced.opened).trans (hcount .active).symm
    · exact hbalanced.committed.trans (hcount .committed).symm

/-!
## Runs
-/

inductive Call where
  | create
  | provide (thread : Nat)
  | begin (number thread : Nat)
  | commit (number thread : Nat)
  | abort (number thread : Nat)
  | listen (number : Nat)
  | drop (number : Nat)
  | start
  | shutdown

def Call.make (session : StoreSession StoreCounters) : Call → StoreSession StoreCounters
  | .create => session.create
  | .provide thread => (session.provide thread).2
  | .begin number thread => (session.begin number thread).2
  | .commit number thread => (session.commit number thread).2
  | .abort number thread => (session.abort number thread).2
  | .listen number => (session.listen number).2
  | .drop number => session.drop number
  | .start => { session with backend := session.backend.start.toOption.getD session.backend }
  | .shutdown => { session with backend := session.backend.shutdown }

theorem balanced_make (hbalanced : session.Balanced) (call : Call) :
    (call.make session).Balanced := by
  cases call with
  | create => exact balanced_create hbalanced
  | provide thread => exact balanced_provide hbalanced thread
  | begin number thread =>
    exact balanced_act hbalanced number _ fun held => held.balances_begin thread
  | commit number thread =>
    exact balanced_act hbalanced number _ fun held => held.balances_commit thread
  | abort number thread =>
    apply balanced_act hbalanced number
    intro held counters
    rw [StoreTransaction.abort_eq_error]
    exact .refl _
  | listen number =>
    have hact := balanced_act hbalanced number
      (fun held backend => (.ok [], held.withListener session.listeners, backend))
      fun held counters => ⟨rfl, rfl⟩
    exact ⟨hact.opened, hact.committed⟩
  | drop number =>
    constructor
    · exact hbalanced.opened.trans (countIn_drop session number .active).symm
    · exact hbalanced.committed.trans (countIn_drop session number .committed).symm
  | start =>
    unfold Call.make StoreCounters.start
    by_cases hphase : session.backend.phase = .configured
    · rw [if_pos hphase]
      exact ⟨hbalanced.opened, hbalanced.committed⟩
    · rw [if_neg hphase]
      exact hbalanced
  | shutdown => exact ⟨hbalanced.opened, hbalanced.committed⟩

theorem balanced_run (hbalanced : session.Balanced) (calls : List Call) :
    (calls.foldl Call.make session).Balanced := by
  induction calls generalizing session with
  | nil => exact hbalanced
  | cons call rest ih => exact ih (balanced_make hbalanced call)

/-- In a started store a transaction can be committed by the thread that began it. -/
theorem commit_of_balanced (hbalanced : session.Balanced) {held : StoreTransaction Nat}
    (hstarted : session.backend.phase = .started) (hheld : session.held? number = some held)
    (howner : held.HeldBy thread) : ∃ heard, (session.commit number thread).1 = .ok heard := by
  have hopen : 0 < session.backend.openTransactions := by
    rw [hbalanced.opened]
    exact List.countP_pos_iff.2
      ⟨_, List.mem_of_getElem? (held?_eq_some hheld), beq_iff_eq.2 howner.1⟩
  rcases StoreTransaction.commit_of_heldBy howner hstarted hopen with ⟨heard, hok⟩
  refine ⟨heard, ?_⟩
  unfold commit act
  rw [hheld]
  exact hok

/-- After every run on a new store the open transactions are those that are active, kept or
dropped, the commits are the committed transactions, and an active one can be committed while the
store is started. -/
theorem counters_account (calls : List Call) :
    let session := calls.foldl Call.make { backend := {} }
    session.backend.openTransactions = session.countKept .active + session.countDropped .active ∧
      session.backend.commits = session.countIn .committed ∧
      (session.backend.phase = .started → ∀ number thread held,
        session.held? number = some held → held.phase = .active → held.owner = some thread →
        ∃ heard, (session.commit number thread).1 = .ok heard) := by
  intro session
  have hnew : Balanced { backend := {} } := ⟨rfl, rfl⟩
  have hbalanced : session.Balanced := balanced_run hnew calls
  refine ⟨?_, hbalanced.committed, ?_⟩
  · rw [← countIn_eq_add]
    exact hbalanced.opened
  · intro hstarted number thread held hheld hactive howner
    exact commit_of_balanced hbalanced hstarted hheld ⟨hactive, howner⟩

/-- Two transactions of which one is dropped while active and the other one still open: neither a
foreign thread nor an abort has ended it. -/
def dealings : List Call :=
  [.create, .begin 0 7, .start, .begin 0 7, .provide 3, .drop 1, .commit 1 3, .commit 0 3,
    .abort 0 7]

/-- The one that is still open can be committed, though the other one stays open for ever. -/
theorem account_of_dealings :
    (dealings.foldl Call.make { backend := {} }).backend.openTransactions = 1 + 1 ∧
      ∃ heard, ((dealings.foldl Call.make { backend := {} }).commit 0 7).1 = .ok heard := by
  rcases counters_account dealings with ⟨hopen, -, hcommit⟩
  exact ⟨hopen, hcommit rfl 0 7 _ rfl rfl rfl⟩

end StoreSession
end SharedGraph
