import SharedGraph.Proofs.Store.Calls
import SharedGraph.Store.Store

/-!
# Retracing a map from its events

Whoever is told last of a map's events, and refuses none, hears of a value only if all others have
let it pass, which is when it is written.  If nobody refuses removals, it also hears of every value
that is taken out.  So its journal, replayed over an empty map, gives what the map holds
(`replay_journal`).
-/

namespace SharedGraph

variable {σ : Type} {audience : σ} {before : List (Observer σ)} {last : Observer σ}

/-!
## Journals
-/

namespace Observer

/-- The observer in an audience that has a journal too, which it leaves alone. -/
def beside (observer : Observer σ) : Observer (σ × List MapEvent) :=
  ⟨fun event held =>
    ((observer.notice event held.1).1, ((observer.notice event held.1).2, held.2))⟩

/-- The observer, who now also writes down every event that it is told of. -/
def journaling (observer : Observer σ) : Observer (σ × List MapEvent) :=
  ⟨fun event held =>
    ((observer.notice event held.1).1, ((observer.notice event held.1).2, held.2 ++ [event]))⟩

def PassesRemovals (observer : Observer σ) : Prop :=
  ∀ object value audience, (observer.notice (.removed object value) audience).1 = .ok ()

def Passes (observer : Observer σ) : Prop :=
  ∀ event audience, (observer.notice event audience).1 = .ok ()

theorem announce_beside (event : MapEvent) (observers : List (Observer σ)) (audience : σ)
    (journal : List MapEvent) :
    announce event (observers.map beside) (audience, journal) =
      ((announce event observers audience).1,
        ((announce event observers audience).2, journal)) := by
  induction observers generalizing audience with
  | nil => rfl
  | cons head rest ih =>
    rw [List.map_cons, announce, announce, beside]
    dsimp only
    cases hnotice : head.notice event audience with
    | mk answer later =>
      cases answer with
      | ok _ => exact ih later
      | error failure => rfl

theorem announce_journaling (before : List (Observer σ)) (hlast : last.Passes) (event : MapEvent)
    (audience : σ) (journal : List MapEvent) :
    announce event (before.map beside ++ [last.journaling]) (audience, journal) =
      ((announce event (before ++ [last]) audience).1,
        ((announce event (before ++ [last]) audience).2,
          if accepts (before ++ [last]) event audience = true then journal ++ [event]
          else journal)) := by
  unfold accepts
  rw [announce_append, announce_append, announce_beside]
  cases hround : announce event before audience with
  | mk answer later =>
    cases answer with
    | error failure => rfl
    | ok _ =>
      have hnotice : last.notice event later = (.ok (), (last.notice event later).2) :=
        Prod.ext (hlast event later) rfl
      have hplain : announce event [last] later = (.ok (), (last.notice event later).2) := by
        rw [announce, hnotice]
        rfl
      have hnoted : announce event [last.journaling] (later, journal) =
          (.ok (), ((last.notice event later).2, journal ++ [event])) := by
        rw [announce, journaling]
        dsimp only
        rw [hlast]
        rfl
      simp only [hplain, hnoted]
      rfl

theorem accepts_journaling (before : List (Observer σ)) (hlast : last.Passes) (event : MapEvent)
    (audience : σ) (journal : List MapEvent) :
    accepts (before.map beside ++ [last.journaling]) event (audience, journal) =
      accepts (before ++ [last]) event audience := by
  unfold accepts
  rw [announce_journaling before hlast]

theorem accepts_removed (hremovals : ∀ observer ∈ before, observer.PassesRemovals)
    (hlast : last.Passes) (object : ObjectId) (value : Bytes) (audience : σ) :
    accepts (before ++ [last]) (.removed object value) audience = true := by
  apply accepts_of_passes
  intro observer hmem heard
  rcases List.mem_append.1 hmem with hbefore | hsame
  · exact hremovals observer hbefore object value heard
  · rw [List.mem_singleton.1 hsame]
    exact hlast _ heard

theorem announceAll_journaling (hlast : last.Passes) {events : List MapEvent}
    (haccepts : ∀ event ∈ events, ∀ audience, accepts (before ++ [last]) event audience = true)
    (audience : σ) (journal : List MapEvent) :
    announceAll (before.map beside ++ [last.journaling]) events (audience, journal) =
      ((announceAll (before ++ [last]) events audience).1,
        ((announceAll (before ++ [last]) events audience).2, journal ++ events)) := by
  induction events generalizing audience journal with
  | nil => simp [announceAll]
  | cons event rest ih =>
    rw [List.forall_mem_cons] at haccepts
    have hround := announce_of_accepts (haccepts.1 audience)
    rw [announceAll, announceAll, announce_journaling before hlast, if_pos (haccepts.1 audience),
      hround]
    dsimp only
    rw [ih haccepts.2, List.append_assoc]
    rfl

end Observer

def ValueMap.journaled (map : ValueMap σ) (before : List (Observer σ)) (last : Observer σ) :
    ValueMap (σ × List MapEvent) where
  name := map.name
  observers := before.map Observer.beside ++ [last.journaling]
  entries := map.entries

/-- The values that a map holds after an event, going by the event alone. -/
def MapEvent.replay (entries : SortedMap ObjectId Bytes) : MapEvent → SortedMap ObjectId Bytes
  | .added object value => entries.insert object value
  | .removed object _ => entries.erase object

/-- Whether every removal in a list of events carries the value that the events before it have left
for its object. -/
def MapEvent.Tells (entries : SortedMap ObjectId Bytes) (events : List MapEvent) : Prop :=
  ∀ front object value back, events = front ++ .removed object value :: back →
    (front.foldl replay entries).get? object = some value

namespace MapEvent

theorem tells_nil (entries : SortedMap ObjectId Bytes) : Tells entries [] := by
  intro front object value back hsplit
  exact absurd hsplit.symm (List.append_ne_nil_of_right_ne_nil front (List.cons_ne_nil _ back))

theorem tells_cons_iff {entries : SortedMap ObjectId Bytes} {event : MapEvent}
    {rest : List MapEvent} :
    Tells entries (event :: rest) ↔
      (∀ object value, event = .removed object value → entries.get? object = some value) ∧
        Tells (replay entries event) rest := by
  constructor
  · intro htells
    refine ⟨fun object value hevent => htells [] object value rest (by rw [hevent]; rfl), ?_⟩
    intro front object value back hsplit
    exact htells (event :: front) object value back (by rw [hsplit]; rfl)
  · rintro ⟨hfirst, hrest⟩ front object value back hsplit
    cases front with
    | nil => exact hfirst object value (List.cons.inj hsplit).1
    | cons head front =>
      rcases List.cons.inj hsplit with ⟨rfl, htail⟩
      exact hrest front object value back htail

theorem tells_append {entries : SortedMap ObjectId Bytes} {first second : List MapEvent}
    (hfirst : Tells entries first) (hsecond : Tells (first.foldl replay entries) second) :
    Tells entries (first ++ second) := by
  induction first generalizing entries with
  | nil => exact hsecond
  | cons event rest ih =>
    rcases tells_cons_iff.1 hfirst with ⟨hevent, hrest⟩
    exact tells_cons_iff.2 ⟨hevent, ih hrest hsecond⟩

end MapEvent

namespace MapCall

open Observer MapEvent

variable {held : ValueMap σ × σ} {calls : List MapCall}

/-!
## Events of a call
-/

def events (held : ValueMap σ × σ) : MapCall → List MapEvent
  | .put object value =>
    if accepts held.1.observers (.added object value) held.2 = true then [.added object value]
    else []
  | .remove object => (held.1.get? object).toList.map (MapEvent.removed object)
  | .clear => removals held.1.entries.toList

def allEvents : List MapCall → ValueMap σ × σ → List MapEvent
  | [], _ => []
  | call :: rest, held => call.events held ++ allEvents rest (call.make held)

/-- The journal takes down the events of a call, and changes nothing otherwise. -/
theorem make_journaled (hobservers : held.1.observers = before ++ [last])
    (hremovals : ∀ observer ∈ before, observer.PassesRemovals) (hlast : last.Passes)
    (call : MapCall) (journal : List MapEvent) :
    call.make (held.1.journaled before last, (held.2, journal)) =
      ((call.make held).1.journaled before last,
        ((call.make held).2, journal ++ call.events held)) := by
  cases call with
  | put object value =>
    -- The observers in front decide whether the last one, and so the journal, hears of the value.
    have hnoted := accepts_journaling before hlast (.added object value) held.2 journal
    have hround := announce_journaling before hlast (.added object value) held.2 journal
    cases haccepts : accepts (before ++ [last]) (.added object value) held.2 with
    | true =>
      rw [haccepts] at hnoted hround
      simp only [make_put, events, hobservers, ValueMap.journaled, haccepts, hnoted, hround,
        if_true]
    | false =>
      rw [haccepts] at hnoted hround
      simp only [make_put, events, hobservers, ValueMap.journaled, haccepts, hnoted, hround,
        Bool.false_eq_true, if_false, List.append_nil]
  | remove object =>
    cases hfound : held.1.get? object with
    | none =>
      have hnoted : make (held.1.journaled before last, (held.2, journal)) (.remove object) =
          (held.1.journaled before last, (held.2, journal)) := make_remove_absent hfound
      have hplain : make held (.remove object) = held := make_remove_absent hfound
      rw [hnoted, hplain, events, hfound]
      exact congrArg (fun later => (_, (_, later))) (List.append_nil journal).symm
    | some value =>
      have hnoted : make (held.1.journaled before last, (held.2, journal)) (.remove object) =
          ({ held.1.journaled before last with entries := held.1.entries.erase object },
            (announce (.removed object value) (before.map beside ++ [last.journaling])
              (held.2, journal)).2) := make_remove_stored hfound
      have hplain : make held (.remove object) =
          ({ held.1 with entries := held.1.entries.erase object },
            (announce (.removed object value) held.1.observers held.2).2) :=
        make_remove_stored hfound
      have haccepts := accepts_removed hremovals hlast object value held.2
      rw [hnoted, hplain, events, hfound, hobservers, announce_journaling before hlast,
        if_pos haccepts]
      rfl
  | clear =>
    have hall : ∀ event ∈ removals held.1.entries.toList, ∀ audience,
        accepts (before ++ [last]) event audience = true := by
      intro event hevent audience
      rcases List.mem_map.1 hevent with ⟨entry, -, rfl⟩
      exact accepts_removed hremovals hlast entry.1 entry.2 audience
    have hround := announceAll_journaling hlast hall held.2 journal
    have hlater := congrArg Prod.snd hround
    rw [make_clear, make_clear, hobservers]
    exact Prod.ext rfl hlater

theorem get?_replay_removals (entries : SortedMap ObjectId Bytes) (taken : List (ObjectId × Bytes))
    (other : ObjectId) :
    ((removals taken).foldl replay entries).get? other =
      if other ∈ taken.map Prod.fst then none else entries.get? other := by
  induction taken generalizing entries with
  | nil => rfl
  | cons entry rest ih =>
    rw [removals_cons, List.foldl_cons, ih, replay, SortedMap.get?_erase]
    by_cases hlater : other ∈ rest.map Prod.fst
    · simp [hlater]
    · by_cases hsame : other = entry.1
      · simp [hsame]
      · simp [hlater, hsame]

theorem tells_removals {entries : SortedMap ObjectId Bytes} {taken : List (ObjectId × Bytes)}
    (hdistinct : (taken.map Prod.fst).Nodup)
    (hheld : ∀ entry ∈ taken, entries.get? entry.1 = some entry.2) :
    Tells entries (removals taken) := by
  induction taken generalizing entries with
  | nil => exact tells_nil entries
  | cons entry rest ih =>
    rcases List.nodup_cons.1 hdistinct with ⟨hnew, hrest⟩
    rw [List.forall_mem_cons] at hheld
    refine tells_cons_iff.2 ⟨?_, ih hrest ?_⟩
    · intro object value hevent
      cases hevent
      exact hheld.1
    · intro next hnext
      have hapart : next.1 ≠ entry.1 := by
        intro hsame
        exact hnew (hsame ▸ List.mem_map_of_mem hnext)
      rw [replay, SortedMap.get?_erase_of_ne _ hapart]
      exact hheld.2 next hnext

/-- The events of a call turn what the map held into what it holds. -/
theorem replay_events (held : ValueMap σ × σ) (call : MapCall) :
    (call.events held).foldl replay held.1.entries = (call.make held).1.entries := by
  cases call with
  | put object value =>
    rw [make_put, events]
    split <;> rfl
  | remove object =>
    cases hfound : held.1.get? object with
    | none =>
      rw [make_remove_absent hfound, events, hfound]
      rfl
    | some value =>
      rw [make_remove_stored hfound, events, hfound]
      rfl
  | clear =>
    rw [make_clear, events]
    refine SortedMap.ext_get? fun other => ?_
    rw [get?_replay_removals, SortedMap.get?_empty]
    split
    case isTrue hlisted => rfl
    case isFalse hmissing =>
      cases hfound : held.1.entries.get? other with
      | none => rfl
      | some value =>
        exact absurd (List.mem_map_of_mem (SortedMap.mem_entries_iff.2 hfound)) hmissing

theorem get?_of_removed {call : MapCall} {object : ObjectId} {value : Bytes}
    (hremoved : .removed object value ∈ call.events held) :
    held.1.get? object = some value := by
  cases call with
  | put other added =>
    rw [events] at hremoved
    split at hremoved
    · cases List.mem_singleton.1 hremoved
    · cases hremoved
  | remove other =>
    rcases List.mem_map.1 hremoved with ⟨taken, htaken, hevent⟩
    cases hevent
    exact Option.mem_toList.1 htaken
  | clear =>
    rcases List.mem_map.1 hremoved with ⟨entry, hentry, hevent⟩
    cases hevent
    exact SortedMap.mem_entries_iff.1 hentry

theorem tells_events (held : ValueMap σ × σ) (call : MapCall) :
    Tells held.1.entries (call.events held) := by
  cases call with
  | put object value =>
    rw [events]
    split
    · exact tells_cons_iff.2 ⟨nofun, tells_nil _⟩
    · exact tells_nil _
  | remove object =>
    cases hfound : held.1.get? object with
    | none =>
      rw [events, hfound]
      exact tells_nil _
    | some value =>
      rw [events, hfound]
      refine tells_cons_iff.2 ⟨?_, tells_nil _⟩
      intro other taken hevent
      cases hevent
      exact hfound
  | clear =>
    refine tells_removals held.1.entries.nodup_keys ?_
    intro entry hentry
    exact SortedMap.mem_entries_iff.1 hentry

/-!
## Events of a run
-/

theorem allEvents_append (first second : List MapCall) (held : ValueMap σ × σ) :
    allEvents (first ++ second) held =
      allEvents first held ++ allEvents second (first.foldl make held) := by
  induction first generalizing held with
  | nil => rfl
  | cons call rest ih =>
    rw [List.cons_append, allEvents, ih, allEvents, List.append_assoc]
    rfl

theorem replay_allEvents (calls : List MapCall) (held : ValueMap σ × σ) :
    (allEvents calls held).foldl replay held.1.entries = (calls.foldl make held).1.entries := by
  induction calls generalizing held with
  | nil => rfl
  | cons call rest ih =>
    rw [allEvents, List.foldl_append, replay_events]
    exact ih _

theorem tells_allEvents (calls : List MapCall) (held : ValueMap σ × σ) :
    Tells held.1.entries (allEvents calls held) := by
  induction calls generalizing held with
  | nil => exact tells_nil _
  | cons call rest ih =>
    refine tells_append (tells_events held call) ?_
    rw [replay_events]
    exact ih _

theorem run_journaled (held : ValueMap σ × σ) (hobservers : held.1.observers = before ++ [last])
    (hremovals : ∀ observer ∈ before, observer.PassesRemovals) (hlast : last.Passes)
    (calls : List MapCall) (journal : List MapEvent) :
    calls.foldl make (held.1.journaled before last, (held.2, journal)) =
      ((calls.foldl make held).1.journaled before last,
        ((calls.foldl make held).2, journal ++ allEvents calls held)) := by
  induction calls generalizing held journal with
  | nil => rw [allEvents, List.append_nil]; rfl
  | cons call rest ih =>
    have hkept := (make_observers held call).trans hobservers
    rw [List.foldl_cons, make_journaled hobservers hremovals hlast, ih _ hkept, allEvents,
      List.append_assoc]
    rfl

end MapCall

/-!
## Maps of a store
-/

/-- Whether a store that is started, or that a map is attached to, hands out this map. -/
def Store.HandsOut (store : Store σ) (name : String) (map : ValueMap σ) : Prop :=
  (∃ started, store.start = .ok started ∧ started.map? name = .ok (some map)) ∨
    ∃ observers attached, store.attach name observers = .ok attached ∧
      attached.map? name = .ok (some map)

theorem Store.get?_of_map? {store : Store σ} {name : String} {map : ValueMap σ}
    (hmap : store.map? name = .ok (some map)) : store.maps.get? name = some map := by
  unfold Store.map? at hmap
  cases hstarted : store.counters.requireStarted with
  | error failure =>
    rw [hstarted] at hmap
    cases hmap
  | ok _ =>
    rw [hstarted] at hmap
    exact Except.ok.inj hmap

theorem Store.entries_of_handsOut {store : Store σ} {name : String} {map : ValueMap σ}
    (hfresh : store.HandsOut name map) : map.entries = ∅ := by
  rcases hfresh with ⟨started, hstart, hmap⟩ | ⟨observers, attached, hattach, hmap⟩
  · unfold Store.start at hstart
    cases hcounters : store.counters.start with
    | error failure =>
      rw [hcounters] at hstart
      cases hstart
    | ok counters =>
      rw [hcounters] at hstart
      cases hstart
      have hfound := get?_of_map? hmap
      rw [SortedMap.get?_filterMap] at hfound
      rcases Option.bind_eq_some_iff.1 hfound with ⟨observers, -, hnew⟩
      cases hnew
      rfl
  · unfold Store.attach at hattach
    split at hattach
    · cases hattach
    · split at hattach
      · cases hattach
      · cases hattach
        have hfound := get?_of_map? hmap
        rw [SortedMap.get?_insert_self] at hfound
        cases hfound
        rfl

namespace MapCall

open Observer MapEvent

def journal (map : ValueMap σ) (before : List (Observer σ)) (last : Observer σ) (audience : σ)
    (calls : List MapCall) : List MapEvent :=
  (calls.foldl make (map.journaled before last, (audience, []))).2.2

/-- A journal does not disturb the map or its audience, and tells at any time what the map holds.
A call adds its events to it, and what these take out is what the map held. -/
theorem replay_journal {store : Store σ} {name : String} {map : ValueMap σ}
    (hfresh : store.HandsOut name map) (hobservers : map.observers = before ++ [last])
    (hremovals : ∀ observer ∈ before, observer.PassesRemovals) (hlast : last.Passes)
    (audience : σ) (calls : List MapCall) :
    calls.foldl make (map.journaled before last, (audience, [])) =
        ((calls.foldl make (map, audience)).1.journaled before last,
          ((calls.foldl make (map, audience)).2, journal map before last audience calls)) ∧
      (journal map before last audience calls).foldl replay ∅ =
        (calls.foldl make (map, audience)).1.entries ∧
      Tells ∅ (journal map before last audience calls) ∧
      ∀ call : MapCall,
        journal map before last audience (calls ++ [call]) =
            journal map before last audience calls ++
              call.events (calls.foldl make (map, audience)) ∧
          ∀ object value,
            .removed object value ∈ call.events (calls.foldl make (map, audience)) →
              (calls.foldl make (map, audience)).1.get? object = some value := by
  have hrun : ∀ made : List MapCall,
      made.foldl make (map.journaled before last, (audience, [])) =
        ((made.foldl make (map, audience)).1.journaled before last,
          ((made.foldl make (map, audience)).2, allEvents made (map, audience))) := by
    intro made
    exact run_journaled (map, audience) hobservers hremovals hlast made []
  have hjournal : ∀ made : List MapCall,
      journal map before last audience made = allEvents made (map, audience) := by
    intro made
    unfold journal
    rw [hrun made]
  have hempty : ∅ = map.entries := (Store.entries_of_handsOut hfresh).symm
  refine ⟨?_, ?_, ?_, ?_⟩
  · rw [hjournal]
    exact hrun calls
  · rw [hjournal, hempty]
    exact replay_allEvents calls (map, audience)
  · rw [hjournal, hempty]
    exact tells_allEvents calls (map, audience)
  · intro call
    refine ⟨?_, fun object value hremoved => get?_of_removed hremoved⟩
    rw [hjournal, hjournal, allEvents_append, allEvents, allEvents, List.append_nil]

def guarding : Observer Unit :=
  .refusing fun event => event.isAddition && event.object == ⟨2⟩

def attending : Observer Unit :=
  .refusing fun _ => false

def attendedStore : Store Unit :=
  (Store.withObserver {} "objects" guarding).withObserver "objects" attending

def attendedMap : ValueMap Unit where
  name := "objects"
  observers := [guarding, attending]

theorem attendedStore_handsOut : attendedStore.HandsOut "objects" attendedMap := by
  refine Or.inl ⟨_, rfl, ?_⟩
  simp [attendedStore, attendedMap, Store.map?, Store.withObserver, StoreCounters.requireStarted,
    Except.map, SortedMap.get?_filterMap]

theorem guarding_passesRemovals : ∀ observer ∈ [guarding], observer.PassesRemovals := by
  intro observer hmem object value audience
  rw [List.mem_singleton.1 hmem]
  rfl

theorem attending_passes : attending.Passes := fun _ _ => rfl

/-- A value that is refused leaves no trace, and one that is replaced is not reported as removed. -/
theorem attendedMap_replayed :
    attendedStore.HandsOut "objects" attendedMap ∧
      attendedMap.observers = [guarding] ++ [attending] ∧
      (∀ observer ∈ [guarding], observer.PassesRemovals) ∧ attending.Passes ∧
      ∃ calls : List MapCall,
        journal attendedMap [guarding] attending () calls =
            [.added ⟨1⟩ [7], .added ⟨1⟩ [8], .added ⟨3⟩ [9], .removed ⟨1⟩ [8], .removed ⟨3⟩ [9]] ∧
          (journal attendedMap [guarding] attending () calls).foldl replay ∅ =
            (calls.foldl make (attendedMap, ())).1.entries := by
  refine ⟨attendedStore_handsOut, rfl, guarding_passesRemovals, attending_passes, ?_⟩
  refine ⟨[.put ⟨1⟩ [7], .put ⟨2⟩ [7], .put ⟨1⟩ [8], .put ⟨3⟩ [9], .clear], rfl, ?_⟩
  exact (replay_journal attendedStore_handsOut rfl guarding_passesRemovals attending_passes ()
    _).2.1

end MapCall
end SharedGraph
