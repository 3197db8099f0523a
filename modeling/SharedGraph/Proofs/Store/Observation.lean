import SharedGraph.Store.ObjectIndex
import SharedGraph.Store.Objects

/-!
# Watching a map

A map may have any observers next to the one that keeps the index.  They act on one audience;
a view of the audience shows the index in it.  One observer tracks, that is, it does to the
viewed index what the index does by itself, and all others leave the index alone.  Then a
round in which nobody refuses takes the index along once, and a round that somebody ends
takes it along or not.
-/

namespace SharedGraph
namespace StoredObject

def kindOf? (value : Bytes) : Option ObjectKind :=
  value[tagOffset]?.bind ObjectKind.ofTag?

theorem classify_eq_ok_iff {id : ObjectId} {value : Bytes} {kind : ObjectKind} :
    classify id value = .ok kind ↔ kindOf? value = some kind := by
  unfold classify kindOf?
  cases value[tagOffset]? with
  | none => simp
  | some tag =>
    dsimp only [Option.bind_some]
    cases ObjectKind.ofTag? tag <;> simp

theorem kindOf?_of_classify_error {id : ObjectId} {value : Bytes} {failure : Failure}
    (herror : classify id value = .error failure) : kindOf? value = none := by
  cases hkind : kindOf? value with
  | none => rfl
  | some kind =>
    rw [classify_eq_ok_iff.2 hkind] at herror
    cases herror

theorem classify_encode (object : StoredObject) (id : ObjectId) :
    classify id object.encode = .ok object.kind := by
  have htag : object.encode[tagOffset]? = some object.kind.tag := by
    unfold encode
    rw [List.getElem?_append_right]
    · rw [MessagePack.length_writeWord]
      rfl
    · exact Nat.le_of_eq (MessagePack.length_writeWord _ _)
  unfold classify
  rw [htag]
  simp only [ObjectKind.ofTag?_tag]

end StoredObject

/-!
## Indexes that differ at one object
-/

namespace ObjectIndex

/-- Two indexes that have the same members, but for one object perhaps. -/
structure AgreeOff (object : ObjectId) (first second : ObjectIndex) : Prop where
  live : ∀ other, other ≠ object → (other ∈ first.live ↔ other ∈ second.live)
  evictable : ∀ other, other ≠ object → (other ∈ first.evictable ↔ other ∈ second.evictable)
  collections : ∀ other, other ≠ object →
    (other ∈ first.collections ↔ other ∈ second.collections)

variable {index : ObjectIndex} {object : ObjectId}

theorem agreeOff_refl (object : ObjectId) (index : ObjectIndex) :
    AgreeOff object index index := by
  constructor
  · intro other _
    exact Iff.rfl
  · intro other _
    exact Iff.rfl
  · intro other _
    exact Iff.rfl

theorem agreeOff_add (kind : ObjectKind) : AgreeOff object (index.add object kind) index := by
  constructor
  · intro other hother
    simp [add, hother]
  · intro other hother
    simp [add, mem_keep, hother]
  · intro other hother
    simp [add, mem_keep, hother]

theorem agreeOff_drop : AgreeOff object (index.drop object) index := by
  constructor
  · intro other hother
    simp [drop, hother]
  · intro other hother
    simp [drop, hother]
  · intro other hother
    simp [drop, hother]

theorem agreeOff_notice (event : MapEvent) (index : ObjectIndex) :
    AgreeOff event.object (index.notice event).2 index := by
  cases event with
  | added object value =>
    unfold notice
    dsimp only
    cases StoredObject.classify object value with
    | ok kind => exact agreeOff_add kind
    | error failure => exact agreeOff_refl object index
  | removed object value => exact agreeOff_drop

end ObjectIndex

/-!
## Those who watch
-/

namespace Observer

variable {σ : Type} {view : σ → ObjectIndex} {observer : Observer σ}
variable {before observers : List (Observer σ)} {event : MapEvent} {audience later : σ}

/-- Whether an observer does to the viewed index what the index does by itself. -/
def Tracks (view : σ → ObjectIndex) (observer : Observer σ) : Prop :=
  ∀ event audience, ((observer.notice event audience).1, view (observer.notice event audience).2) =
    (view audience).notice event

/-- Whether an observer leaves the viewed index alone. -/
def Ignores (view : σ → ObjectIndex) (observer : Observer σ) : Prop :=
  ∀ event audience, view (observer.notice event audience).2 = view audience

def Watched (view : σ → ObjectIndex) (observers : List (Observer σ)) : Prop :=
  ∃ before tracker after, observers = before ++ tracker :: after ∧ Tracks view tracker ∧
    ∀ other ∈ before ++ after, Ignores view other

/-- Whether one observer tracks, these are told before it, and all others ignore the index. -/
def WatchedAfter (view : σ → ObjectIndex) (before observers : List (Observer σ)) : Prop :=
  ∃ tracker after, observers = before ++ tracker :: after ∧ Tracks view tracker ∧
    ∀ other ∈ before ++ after, Ignores view other

def Refuses (observer : Observer σ) (object : ObjectId) : Prop :=
  ∃ event audience failure, event.object = object ∧
    (observer.notice event audience).1 = .error failure

theorem tracks_observer : Tracks id ObjectIndex.observer := by
  intro event index
  rfl

theorem ignores_refusing (refuses : MapEvent → Bool) : Ignores view (refusing refuses) := by
  intro event audience
  unfold refusing
  dsimp only
  split <;> rfl

/-!
## Rounds
-/

theorem announce_append (first second : List (Observer σ)) (audience : σ) :
    announce event (first ++ second) audience =
      match announce event first audience with
      | (.ok (), later) => announce event second later
      | (.error failure, later) => (.error failure, later) := by
  induction first generalizing audience with
  | nil => rfl
  | cons head rest ih =>
    rw [List.cons_append, announce, announce]
    cases hnotice : head.notice event audience with
    | mk answer later =>
      cases answer with
      | ok _ => exact ih later
      | error failure => rfl

theorem view_announce (event : MapEvent)
    (hignore : ∀ other ∈ observers, Ignores view other) (audience : σ) :
    view (announce event observers audience).2 = view audience := by
  induction observers generalizing audience with
  | nil => rfl
  | cons head rest ih =>
    have hhead := hignore head List.mem_cons_self event audience
    have hrest : ∀ other ∈ rest, Ignores view other := by
      intro other hother
      exact hignore other (List.mem_cons_of_mem _ hother)
    rw [announce]
    cases hnotice : head.notice event audience with
    | mk answer later =>
      rw [hnotice] at hhead
      cases answer with
      | ok _ => exact (ih hrest later).trans hhead
      | error failure => exact hhead

theorem refuses_of_announce {failure : Failure}
    (herror : announce event observers audience = (.error failure, later)) :
    ∃ observer ∈ observers, ∃ heard, (observer.notice event heard).1 = .error failure := by
  induction observers generalizing audience with
  | nil => cases herror
  | cons head rest ih =>
    rw [announce] at herror
    cases hnotice : head.notice event audience with
    | mk answer next =>
      rw [hnotice] at herror
      cases answer with
      | ok _ =>
        rcases ih herror with ⟨observer, hmem, hrefuses⟩
        exact ⟨observer, List.mem_cons_of_mem _ hmem, hrefuses⟩
      | error reason =>
        cases herror
        exact ⟨head, List.mem_cons_self, audience, by rw [hnotice]⟩

/-!
## What the index hears
-/

def accepts (observers : List (Observer σ)) (event : MapEvent) (audience : σ) : Bool :=
  (announce event observers audience).1.isOk

theorem announce_of_accepts (haccepts : accepts observers event audience = true) :
    announce event observers audience = (.ok (), (announce event observers audience).2) := by
  unfold accepts at haccepts
  cases hround : announce event observers audience with
  | mk answer later =>
    rw [hround] at haccepts
    cases answer with
    | ok _ => rfl
    | error failure => cases haccepts

theorem announce_of_refused (hrefused : accepts observers event audience = false) :
    ∃ failure, announce event observers audience =
      (.error failure, (announce event observers audience).2) := by
  unfold accepts at hrefused
  cases hround : announce event observers audience with
  | mk answer later =>
    rw [hround] at hrefused
    cases answer with
    | ok _ => cases hrefused
    | error failure => exact ⟨failure, rfl⟩

theorem accepts_of_passes
    (hpasses : ∀ observer ∈ observers, ∀ audience, (observer.notice event audience).1 = .ok ())
    (audience : σ) : accepts observers event audience = true := by
  cases haccepts : accepts observers event audience with
  | true => rfl
  | false =>
    rcases announce_of_refused haccepts with ⟨failure, hround⟩
    rcases refuses_of_announce hround with ⟨observer, hmem, heard, hrefuses⟩
    rw [hpasses observer hmem] at hrefuses
    cases hrefuses

theorem announceAll_of_accepts {events : List MapEvent}
    (haccepts : ∀ event ∈ events, ∀ audience, accepts observers event audience = true)
    (audience : σ) :
    announceAll observers events audience =
      (.ok (), (announceAll observers events audience).2) := by
  induction events generalizing audience with
  | nil => rfl
  | cons event rest ih =>
    rw [List.forall_mem_cons] at haccepts
    rw [announceAll, announce_of_accepts (haccepts.1 audience)]
    exact ih haccepts.2 _

/-- The index hears of an event if those before it let the event pass, and only then. -/
theorem view_round (hwatched : WatchedAfter view before observers) (event : MapEvent)
    (audience : σ) :
    view (announce event observers audience).2 =
      if accepts before event audience = true then ((view audience).notice event).2
      else view audience := by
  rcases hwatched with ⟨tracker, after, rfl, htracks, hignore⟩
  have hbefore := view_announce event
    (fun other hother => hignore other (List.mem_append_left _ hother)) audience
  rw [announce_append]
  unfold accepts
  cases hfirst : announce event before audience with
  | mk answer middle =>
    rw [hfirst] at hbefore
    dsimp only at hbefore
    cases answer with
    | error failure => exact hbefore
    | ok _ =>
      have htracked := congrArg Prod.snd (htracks event middle)
      dsimp only at htracked
      rw [hbefore] at htracked
      change view (announce event (tracker :: after) middle).2 = ((view audience).notice event).2
      rw [← htracked, announce]
      cases hnotice : tracker.notice event middle with
      | mk heard next =>
        cases heard with
        | error failure => rfl
        | ok _ =>
          exact view_announce event
            (fun other hother => hignore other (List.mem_append_right _ hother)) next

theorem accepts_index (hwatched : WatchedAfter view before observers)
    (haccepts : accepts observers event audience = true) :
    accepts before event audience = true ∧ ((view audience).notice event).1 = .ok () := by
  rcases hwatched with ⟨tracker, after, rfl, htracks, hignore⟩
  have hbefore := view_announce event
    (fun other hother => hignore other (List.mem_append_left _ hother)) audience
  unfold accepts at haccepts ⊢
  rw [announce_append] at haccepts
  cases hfirst : announce event before audience with
  | mk answer middle =>
    rw [hfirst] at haccepts hbefore
    dsimp only at hbefore
    cases answer with
    | error failure => cases haccepts
    | ok _ =>
      have htracked := congrArg Prod.fst (htracks event middle)
      dsimp only at htracked
      rw [hbefore] at htracked
      refine ⟨rfl, ?_⟩
      simp only [announce] at haccepts
      cases hnotice : tracker.notice event middle with
      | mk heard next =>
        rw [hnotice] at haccepts htracked
        cases heard with
        | error failure => cases haccepts
        | ok _ => exact htracked.symm

theorem announce_ok (hwatched : Watched view observers)
    (hok : announce event observers audience = (.ok (), later)) :
    (view audience).notice event = (.ok (), view later) := by
  rcases hwatched with ⟨before, hafter⟩
  have haccepts : accepts observers event audience = true := by
    unfold accepts
    rw [hok]
    rfl
  rcases accepts_index hafter haccepts with ⟨hbefore, hindex⟩
  have hround := view_round hafter event audience
  rw [hok, if_pos hbefore] at hround
  exact Prod.ext hindex hround.symm

/-- A round that somebody ends changes the index at the object of the event only. -/
theorem agreeOff_announce (event : MapEvent) (hwatched : Watched view observers) (audience : σ) :
    ObjectIndex.AgreeOff event.object (view (announce event observers audience).2)
      (view audience) := by
  rcases hwatched with ⟨before, hafter⟩
  rw [view_round hafter]
  split
  · exact ObjectIndex.agreeOff_notice event _
  · exact ObjectIndex.agreeOff_refl _ _

end Observer
end SharedGraph
