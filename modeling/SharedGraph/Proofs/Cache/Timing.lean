import SharedGraph.Cache.Session

/-!
# When an operation ends, and with what

An operation that is alone with its tier ends with the first answer that is more than "the tier
is disconnected", at the very instant at which that answer arrives, or at its limit with what the
behavior of the cache makes of it.  The tier is seen here as a script of what each call will meet
(`ServerTier.reply`), and the script alone says when the first such answer comes (`FirstAnswer`).
-/

namespace SharedGraph

/-!
## First answers
-/

/-- The first answer that is more than "disconnected", and when it arrives, if the first call is
made at `start` and each further one 50 milliseconds after the answer to the one before. -/
inductive FirstAnswer : (Nat → Expectation) → Nat → Nat → CacheAnswer → Prop where
  | arrives {script : Nat → Expectation} {start delay : Nat} {answer : CacheAnswer}
      (hreply : script 0 = .answer delay answer)
      (hproper : Ticket.saysDisconnected answer = false) :
      FirstAnswer script start (start + delay) answer
  | again {script : Nat → Expectation} {start delay instant : Nat} {refusal answer : CacheAnswer}
      (hreply : script 0 = .answer delay refusal)
      (hrefusal : Ticket.saysDisconnected refusal = true)
      (hlater : FirstAnswer (fun number => script (number + 1)) (start + delay + 50) instant
        answer) :
      FirstAnswer script start instant answer

namespace FirstAnswer

variable {script other : Nat → Expectation} {start instant : Nat} {answer : CacheAnswer}

theorem start_le (hfirst : FirstAnswer script start instant answer) : start ≤ instant := by
  induction hfirst with
  | arrives hreply hproper => omega
  | again hreply hrefusal hlater ih => omega

theorem unique {instant' : Nat} {answer' : CacheAnswer}
    (hfirst : FirstAnswer script start instant answer)
    (hother : FirstAnswer script start instant' answer') :
    instant = instant' ∧ answer = answer' := by
  induction hfirst with
  | arrives hreply hproper =>
    cases hother with
    | arrives hreply' hproper' =>
      rw [hreply] at hreply'
      cases hreply'
      exact ⟨rfl, rfl⟩
    | again hreply' hrefusal' hlater' =>
      rw [hreply] at hreply'
      cases hreply'
      rw [hproper] at hrefusal'
      cases hrefusal'
  | again hreply hrefusal hlater ih =>
    cases hother with
    | arrives hreply' hproper' =>
      rw [hreply] at hreply'
      cases hreply'
      rw [hrefusal] at hproper'
      cases hproper'
    | again hreply' hrefusal' hlater' =>
      rw [hreply] at hreply'
      cases hreply'
      exact ih hlater'

theorem congr (hfirst : FirstAnswer script start instant answer)
    (hagree : ∀ number, start + number * 50 ≤ instant → script number = other number) :
    FirstAnswer other start instant answer := by
  induction hfirst generalizing other with
  | arrives hreply hproper =>
    refine .arrives ?_ hproper
    rw [← hagree 0 (by omega), hreply]
  | again hreply hrefusal hlater ih =>
    have hle := hlater.start_le
    refine .again ?_ hrefusal (ih ?_)
    · rw [← hagree 0 (by omega), hreply]
    · intro number hnumber
      exact hagree (number + 1) (by omega)

theorem iff_reply : FirstAnswer script start instant answer ↔
    match script 0 with
    | .answer delay reply =>
      if Ticket.saysDisconnected reply = true then
        FirstAnswer (fun number => script (number + 1)) (start + delay + 50) instant answer
      else instant = start + delay ∧ answer = reply
    | .connection | .nothing => False := by
  constructor
  · intro hfirst
    cases hfirst with
    | arrives hreply hproper =>
      rw [hreply]
      dsimp only
      rw [if_neg (ne_true_of_eq_false hproper)]
      exact ⟨rfl, rfl⟩
    | again hreply hrefusal hlater =>
      rw [hreply]
      dsimp only
      rw [if_pos hrefusal]
      exact hlater
  · intro hmatch
    cases hreply : script 0 with
    | connection =>
      rw [hreply] at hmatch
      exact hmatch.elim
    | nothing =>
      rw [hreply] at hmatch
      exact hmatch.elim
    | answer delay reply =>
      rw [hreply] at hmatch
      dsimp only at hmatch
      by_cases hrefusal : Ticket.saysDisconnected reply = true
      · rw [if_pos hrefusal] at hmatch
        exact .again hreply hrefusal hmatch
      · rw [if_neg hrefusal] at hmatch
        rw [hmatch.1, hmatch.2]
        exact .arrives hreply (eq_false_of_ne_true hrefusal)

end FirstAnswer

/-!
## Tiers as scripts
-/

def ScriptedTier.reply (tier : ScriptedTier) (number : Nat) : Expectation :=
  (tier.replies[min number (tier.replies.length - 1)]?).getD (.answer 0 (.ok none))

/-- What a call meets that comes after `number` like it, as long as the connection of the tier
stays as it is. -/
def ServerTier.reply (call : CacheCall) (number : Nat) : ServerTier → Expectation
  | .memory tier =>
    if tier.connected then .answer 0 (.ok (tier.entries.get? call.key)) else .nothing
  | .scripted tier => tier.reply number

theorem ScriptedTier.reply_range (script : Nat → Expectation) (bound : Nat) {number : Nat}
    (hnumber : number ≤ bound) :
    ScriptedTier.reply { replies := (List.range (bound + 1)).map script } number =
      script number := by
  have hmin : min number bound = number := Nat.min_eq_left hnumber
  have hlt : number < bound + 1 := Nat.lt_succ_of_le hnumber
  simp [reply, hmin, hlt]

theorem ScriptedTier.ask_reply (tier : ScriptedTier) (call : CacheCall) :
    (tier.ask call).1 = tier.reply 0 ∧
      ∀ number, (tier.ask call).2.reply number = tier.reply (number + 1) := by
  obtain ⟨replies, calls, connected⟩ := tier
  cases replies with
  | nil => exact ⟨rfl, fun number => rfl⟩
  | cons first rest =>
    cases rest with
    | nil => exact ⟨rfl, fun number => by simp [reply, ask]⟩
    | cons second rest =>
      refine ⟨rfl, fun number => ?_⟩
      have hmin : min (number + 1) (rest.length + 1) = min number rest.length + 1 := by omega
      simp [reply, ask, hmin]

namespace Ticket

variable {ticket : Ticket} {tier : ServerTier} {now : Nat}

/-!
## What an operation is due to get
-/

/-- The first answer that is more than "disconnected" and that an operation will get from a tier,
seen from the instant `now`, and when it arrives. -/
def Due (now : Nat) (ticket : Ticket) (tier : ServerTier) (instant : Nat)
    (answer : CacheAnswer) : Prop :=
  match ticket.phase with
  | .connecting => instant = now ∧ (tier.serve? ticket.call).map Prod.fst = some answer
  | .answering due reply =>
    if saysDisconnected reply = true then
      FirstAnswer (fun number => tier.reply ticket.call number) (due + 50) instant answer
    else instant = due ∧ answer = reply
  | .hanging => False
  | .pausing until_ =>
    FirstAnswer (fun number => tier.reply ticket.call number) until_ instant answer

/-- Whether what the operation waits for by itself is not over before `now`. -/
def Timely (now : Nat) (ticket : Ticket) : Prop :=
  match ticket.phase with
  | .answering due _ => now ≤ due
  | .pausing until_ => now ≤ until_
  | .connecting | .hanging => True

theorem timely_phaseOf {expectation : Expectation}
    (hphase : ticket.phase = phaseOf now expectation) : ticket.Timely now := by
  rw [Timely, hphase]
  cases expectation with
  | connection => trivial
  | answer delay answer => exact Nat.le_add_right now delay
  | nothing => trivial

theorem due_of_ask {call : CacheCall} {instant : Nat} {answer : CacheAnswer}
    (hcall : ticket.call = call) (hphase : ticket.phase = phaseOf now (tier.ask call).1) :
    ticket.Due now (tier.ask call).2 instant answer ↔
      FirstAnswer (fun number => tier.reply call number) now instant answer := by
  subst hcall
  rw [FirstAnswer.iff_reply, Due, hphase]
  cases tier with
  | memory store =>
    cases hconnected : store.connected with
    | false =>
      simp [ServerTier.ask, ServerTier.reply, ServerTier.serve?, phaseOf, hconnected]
    | true =>
      have hproper : saysDisconnected (.ok (store.entries.get? ticket.call.key)) ≠ true :=
        Bool.false_ne_true
      have hserved : (store.serve ticket.call).1 = store.entries.get? ticket.call.key := by
        cases ticket.call <;> rfl
      simp [ServerTier.ask, ServerTier.reply, ServerTier.serve?, phaseOf, hconnected, hserved,
        hproper, eq_comm]
  | scripted script =>
    rcases script.ask_reply ticket.call with ⟨hfirst, hlater⟩
    simp only [ServerTier.ask, ServerTier.reply, hfirst, hlater]
    cases hreply : script.reply 0 with
    | connection => simp [phaseOf, ServerTier.serve?]
    | nothing => simp [phaseOf]
    | answer delay reply => simp [phaseOf]

/-!
## One turn
-/

/-- What is left of an operation that got no answer at the instant `now`: it is due to get later
what it was due to get. -/
structure GoesOn (now : Nat) (ticket : Ticket) (tier : ServerTier) (later : Ticket)
    (tier' : ServerTier) : Prop where
  call : later.call = ticket.call
  submitted : later.submitted = ticket.submitted
  deadline : later.deadline = ticket.deadline
  timely : later.Timely (now + 1)
  due : ∀ next instant answer,
    later.Due next tier' instant answer ↔ ticket.Due now tier instant answer
  after : ∀ instant answer, ticket.Due now tier instant answer → now < instant

variable {answer : CacheAnswer} {tier' : ServerTier}

theorem not_saysDisconnected_of_serve? {call : CacheCall}
    (hserved : tier.serve? call = some (answer, tier')) : saysDisconnected answer = false := by
  cases tier with
  | scripted script => cases hserved
  | memory store =>
    rw [ServerTier.serve?] at hserved
    split at hserved
    · cases hserved
      rfl
    · cases hserved

theorem due_of_answer? (htimely : ticket.Timely now)
    (hanswer : ticket.answer? now tier = some (answer, tier'))
    (hproper : saysDisconnected answer = false) : ticket.Due now tier now answer := by
  cases hphase : ticket.phase with
  | connecting =>
    rw [answer?, hphase] at hanswer
    dsimp only at hanswer
    simp [Due, hphase, hanswer]
  | answering due reply =>
    simp only [answer?, hphase, Option.ite_none_right_eq_some] at hanswer
    simp only [Timely, hphase] at htimely
    obtain ⟨hthere, hsame⟩ := hanswer
    cases hsame
    simp [Due, hphase, hproper, Nat.le_antisymm hthere htimely]
  | hanging => simp [answer?, hphase] at hanswer
  | pausing until_ => simp [answer?, hphase] at hanswer

theorem phase_of_refusal (htimely : ticket.Timely now)
    (hanswer : ticket.answer? now tier = some (answer, tier'))
    (hrefusal : saysDisconnected answer = true) :
    ticket.phase = .answering now answer ∧ tier' = tier := by
  cases hphase : ticket.phase with
  | connecting =>
    rw [answer?, hphase] at hanswer
    rw [not_saysDisconnected_of_serve? hanswer] at hrefusal
    cases hrefusal
  | answering due reply =>
    simp only [answer?, hphase, Option.ite_none_right_eq_some] at hanswer
    simp only [Timely, hphase] at htimely
    obtain ⟨hthere, hsame⟩ := hanswer
    cases hsame
    rw [Nat.le_antisymm hthere htimely]
    exact ⟨rfl, rfl⟩
  | hanging => simp [answer?, hphase] at hanswer
  | pausing until_ => simp [answer?, hphase] at hanswer

theorem timely_succ (hanswer : ticket.answer? now tier = none)
    (hresumed : ∀ until_, ticket.phase = .pausing until_ → now < until_) :
    ticket.Timely (now + 1) := by
  cases hphase : ticket.phase with
  | connecting => simp [Timely, hphase]
  | answering due reply =>
    have hlater : now < due := by simpa [answer?, hphase] using hanswer
    simp only [Timely, hphase]
    exact hlater
  | hanging => simp [Timely, hphase]
  | pausing until_ =>
    simp only [Timely, hphase]
    exact hresumed until_ hphase

theorem goesOn_self (hanswer : ticket.answer? now tier = none)
    (htimely : ticket.Timely (now + 1)) : GoesOn now ticket tier ticket tier := by
  refine ⟨rfl, rfl, rfl, htimely, ?_, ?_⟩
  · intro next instant answer
    cases hphase : ticket.phase with
    | connecting =>
      have hnone : tier.serve? ticket.call = none := by simpa [answer?, hphase] using hanswer
      simp [Due, hphase, hnone]
    | answering due reply => simp [Due, hphase]
    | hanging => simp [Due, hphase]
    | pausing until_ => simp [Due, hphase]
  · intro instant answer hdue
    cases hphase : ticket.phase with
    | connecting =>
      have hnone : tier.serve? ticket.call = none := by simpa [answer?, hphase] using hanswer
      simp [Due, hphase, hnone] at hdue
    | answering due reply =>
      simp only [Timely, hphase] at htimely
      simp only [Due, hphase] at hdue
      split at hdue
      · have hstart := hdue.start_le
        omega
      · omega
    | hanging => simp [Due, hphase] at hdue
    | pausing until_ =>
      simp only [Timely, hphase] at htimely
      simp only [Due, hphase] at hdue
      exact Nat.lt_of_lt_of_le htimely hdue.start_le

theorem goesOn_pausing (turn : Nat) (hphase : ticket.phase = .answering now answer)
    (hrefusal : saysDisconnected answer = true) :
    GoesOn now ticket tier { ticket with phase := .pausing (now + pause), turn } tier := by
  refine ⟨rfl, rfl, rfl, ?_, ?_, ?_⟩
  · simp [Timely, pause]
  · intro next instant later
    simp [Due, hphase, hrefusal, pause]
  · intro instant later hdue
    simp only [Due, hphase, if_pos hrefusal] at hdue
    have hstart := hdue.start_le
    omega

theorem respond_cases (turn : Nat) (cache : Cache) (htimely : ticket.Timely now)
    (hresumed : ∀ until_, ticket.phase = .pausing until_ → now < until_) :
    (∃ answer tier', ticket.Due now tier now answer ∧ ticket.respond now turn cache tier =
        (.inl (cache.settled ticket.call answer).1, (cache.settled ticket.call answer).2, tier')) ∨
      ∃ later tier', GoesOn now ticket tier later tier' ∧
        ticket.respond now turn cache tier = later.expire now cache tier' := by
  rw [respond]
  cases hanswer : ticket.answer? now tier with
  | none =>
    exact Or.inr ⟨ticket, tier, goesOn_self hanswer (timely_succ hanswer hresumed), rfl⟩
  | some answered =>
    obtain ⟨answer, tier'⟩ := answered
    dsimp only
    by_cases hrefusal : saysDisconnected answer = true
    · rcases phase_of_refusal htimely hanswer hrefusal with ⟨hphase, rfl⟩
      rw [if_pos hrefusal]
      exact Or.inr ⟨_, _, goesOn_pausing turn hphase hrefusal, rfl⟩
    · rw [if_neg hrefusal]
      exact Or.inl ⟨answer, tier', due_of_answer? htimely hanswer (eq_false_of_ne_true hrefusal),
        rfl⟩

/-- A turn brings the answer that is due at this instant, or else the operation goes on unless
its limit has passed. -/
theorem advance_cases (turn : Nat) (cache : Cache) (htimely : ticket.Timely now) :
    (∃ answer tier', ticket.Due now tier now answer ∧ ticket.advance now turn cache tier =
        (.inl (cache.settled ticket.call answer).1, (cache.settled ticket.call answer).2, tier')) ∨
      ∃ later tier', GoesOn now ticket tier later tier' ∧
        ticket.advance now turn cache tier = later.expire now cache tier' := by
  by_cases hready : ticket.phase = .pausing now
  · -- The pause ends now, so the turn begins with a new call.
    have hresume : ticket.resume now turn tier =
        ({ ticket with phase := phaseOf now (tier.ask ticket.call).1, turn },
          (tier.ask ticket.call).2) := by
      simp [resume, hready]
    rw [advance, hresume]
    dsimp only
    have hdue : ∀ instant answer,
        Due now { ticket with phase := phaseOf now (tier.ask ticket.call).1, turn }
          (tier.ask ticket.call).2 instant answer ↔ ticket.Due now tier instant answer := by
      intro instant answer
      rw [due_of_ask rfl rfl, Due, hready]
    have hasked : Timely now { ticket with phase := phaseOf now (tier.ask ticket.call).1, turn } :=
      timely_phaseOf rfl
    have hnoPause : ∀ until_, phaseOf now (tier.ask ticket.call).1 = .pausing until_ →
        now < until_ := by
      cases (tier.ask ticket.call).1 <;> simp [phaseOf]
    rcases respond_cases turn cache hasked hnoPause with
      ⟨answer, tier', hthere, hrespond⟩ | ⟨later, tier', hgoes, hrespond⟩
    · exact Or.inl ⟨answer, tier', (hdue _ _).1 hthere, hrespond⟩
    · refine Or.inr ⟨later, tier', ?_, hrespond⟩
      exact
        { call := hgoes.call, submitted := hgoes.submitted, deadline := hgoes.deadline
          timely := hgoes.timely
          due := fun next instant answer => (hgoes.due next instant answer).trans (hdue _ _)
          after := fun instant answer hthere => hgoes.after _ _ ((hdue _ _).2 hthere) }
  · have hresumed : ∀ until_, ticket.phase = .pausing until_ → now < until_ := by
      intro until_ hphase
      have hle : now ≤ until_ := by simpa [Timely, hphase] using htimely
      refine Nat.lt_of_le_of_ne hle ?_
      rintro rfl
      exact hready hphase
    have hresume : ticket.resume now turn tier = (ticket, tier) := by
      unfold resume
      split
      · next until_ hphase => rw [if_neg (Nat.not_le.2 (hresumed until_ hphase))]
      · rfl
    rw [advance, hresume]
    exact respond_cases turn cache htimely hresumed

theorem nextInstant?_eq_some {limit : Nat} (hdeadline : ticket.deadline = some limit)
    (htimely : ticket.Timely (now + 1)) (hlimit : now < limit) :
    ∃ next, ticket.nextInstant? = some next ∧ now < next ∧ next ≤ limit ∧
      ticket.Timely next := by
  have hjust : ticket.nextInstant? = some limit → ticket.Timely limit →
      ∃ next, ticket.nextInstant? = some next ∧ now < next ∧ next ≤ limit ∧ ticket.Timely next :=
    fun hnext hthen => ⟨limit, hnext, hlimit, Nat.le_refl _, hthen⟩
  cases hphase : ticket.phase with
  | connecting =>
    exact hjust (by simp [nextInstant?, hphase, hdeadline]) (by simp [Timely, hphase])
  | hanging =>
    exact hjust (by simp [nextInstant?, hphase, hdeadline]) (by simp [Timely, hphase])
  | answering due reply =>
    have hdue : now + 1 ≤ due := by simpa [Timely, hphase] using htimely
    refine ⟨min due limit, ?_, Nat.lt_min.2 ⟨hdue, hlimit⟩, Nat.min_le_right _ _, ?_⟩
    · simp [nextInstant?, hphase, hdeadline]
    · simp only [Timely, hphase]
      exact Nat.min_le_left _ _
  | pausing until_ =>
    have hend : now + 1 ≤ until_ := by simpa [Timely, hphase] using htimely
    refine ⟨min until_ limit, ?_, Nat.lt_min.2 ⟨hend, hlimit⟩, Nat.min_le_right _ _, ?_⟩
    · simp [nextInstant?, hphase, hdeadline]
    · simp only [Timely, hphase]
      exact Nat.min_le_left _ _

end Ticket
end SharedGraph
