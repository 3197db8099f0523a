import Mathlib.Data.List.Dedup
import SharedGraph.Proofs.Cache.Agreement

/-!
# How long local values stay

Where a cache has no room left, it drops the value that was used the longest ago.  So a value that
was used stays until its key is dropped or as many other keys were used as there is room for.  All
that counts is how operations end, for that says what becomes of the local values (`values_after`);
to look at one is no use of it.
-/

namespace SharedGraph

/-!
## Values with newer ones before them
-/

namespace RecentMap

variable {κ ν : Type} [DecidableEq κ] {map : RecentMap κ ν} {key other : κ} {value new : ν}
variable {newer : List κ}

theorem entries_put : (map.put key value).entries =
    ((key, value) :: map.others key).take map.capacity :=
  rfl

/-- Whether a map holds a value, and no key but some `newer` ones was used after it. -/
def HoldsBehind (map : RecentMap κ ν) (newer : List κ) (key : κ) (value : ν) : Prop :=
  ∃ front back, map.entries = front ++ (key, value) :: back ∧ ∀ entry ∈ front, entry.1 ∈ newer

theorem HoldsBehind.peek?_eq (hholds : map.HoldsBehind newer key value) :
    map.peek? key = some value := by
  rcases hholds with ⟨front, back, hentries, -⟩
  rw [peek?_eq_some_iff, hentries]
  exact List.mem_append_right front List.mem_cons_self

theorem holdsBehind_put_self : (map.put key value).HoldsBehind newer key value := by
  rcases Nat.exists_eq_succ_of_ne_zero (Nat.ne_of_gt map.positive) with ⟨room, hroom⟩
  refine ⟨[], (map.others key).take room, ?_, nofun⟩
  rw [entries_put, hroom, List.take_succ_cons, List.nil_append]

theorem others_of_split {front back : List (κ × ν)} (hne : key ≠ other)
    (hentries : map.entries = front ++ (key, value) :: back) :
    map.others other = (front.filter fun entry => entry.1 ≠ other) ++
      (key, value) :: back.filter fun entry => entry.1 ≠ other := by
  rw [others, hentries, List.filter_append, List.filter_cons, if_pos (decide_eq_true hne)]

theorem HoldsBehind.erase (hholds : map.HoldsBehind newer key value) (hne : key ≠ other) :
    (map.erase other).HoldsBehind newer key value := by
  rcases hholds with ⟨front, back, hentries, hfront⟩
  refine ⟨_, _, others_of_split hne hentries, ?_⟩
  intro entry hentry
  exact hfront entry (List.mem_of_mem_filter hentry)

theorem length_le_dedup {entries : List (κ × ν)} (hdistinct : (entries.map Prod.fst).Nodup)
    (hnewer : ∀ entry ∈ entries, entry.1 ∈ newer) : entries.length ≤ newer.dedup.length := by
  have hsubset : entries.map Prod.fst ⊆ newer.dedup := by
    intro used hused
    rcases List.mem_map.1 hused with ⟨entry, hentry, hsame⟩
    rw [List.mem_dedup, ← hsame]
    exact hnewer entry hentry
  have hle := (List.subperm_of_subset hdistinct hsubset).length_le
  rwa [List.length_map] at hle

/-- A value is not pushed out while there is room for all that are newer. -/
theorem HoldsBehind.put (hholds : map.HoldsBehind newer key value) (hother : other ∈ newer)
    (hkey : key ∉ newer) (hroom : newer.dedup.length < map.capacity) :
    (map.put other new).HoldsBehind newer key value := by
  rcases hholds with ⟨front, back, hentries, hfront⟩
  have hne : key ≠ other := fun hsame => hkey (hsame ▸ hother)
  have hothers := others_of_split hne hentries
  have hkept : ∀ entry ∈ front.filter fun entry => entry.1 ≠ other, entry.1 ∈ newer :=
    fun entry hentry => hfront entry (List.mem_of_mem_filter hentry)
  generalize (front.filter fun entry => entry.1 ≠ other) = kept at hothers hkept
  generalize (back.filter fun entry => entry.1 ≠ other) = older at hothers
  have hnewer : ∀ entry ∈ (other, new) :: kept, entry.1 ∈ newer :=
    List.forall_mem_cons.2 ⟨hother, hkept⟩
  -- The keys before the value are all different and all newer, so they leave a place for it.
  have hdistinct : (((other, new) :: kept).map Prod.fst).Nodup := by
    have hall := List.nodup_cons.2 ⟨map.not_mem_others other, map.distinct_others other⟩
    rw [hothers, List.map_append, ← List.cons_append] at hall
    exact (List.nodup_append.1 hall).1
  have hlength := Nat.lt_of_le_of_lt (length_le_dedup hdistinct hnewer) hroom
  rcases Nat.exists_eq_add_of_lt hlength with ⟨rest, hrest⟩
  refine ⟨(other, new) :: kept, older.take rest, ?_, hnewer⟩
  rw [entries_put, hothers, ← List.cons_append, hrest, Nat.add_assoc, List.take_length_add_append,
    List.take_succ_cons]

end RecentMap

/-!
## What endings leave
-/

namespace Ending

variable {behavior : TimeoutBehavior} {values : RecentMap String String} {since : List Ending}
variable {newer : List String} {key value : String}

/-- Whether a mutation that ended with success has reached the local values. -/
def reachesValues (behavior : TimeoutBehavior) (ending : Ending) : Bool :=
  ending.served || behavior == .localOnly

def used? (behavior : TimeoutBehavior) (ending : Ending) : Option (String × String) :=
  match ending.call, ending.answer with
  | .get key, .ok (some value) => some (key, value)
  | .put key value, .ok _ => if ending.reachesValues behavior then some (key, value) else none
  | _, _ => none

def dropped? (behavior : TimeoutBehavior) (ending : Ending) : Option String :=
  match ending.call, ending.answer with
  | .get key, .ok none => if ending.served then some key else none
  | .remove key, .ok _ => if ending.reachesValues behavior then some key else none
  | _, _ => none

def usedKeys (behavior : TimeoutBehavior) (endings : List Ending) : List String :=
  (endings.filterMap (used? behavior)).map Prod.fst

def droppedKeys (behavior : TimeoutBehavior) (endings : List Ending) : List String :=
  endings.filterMap (dropped? behavior)

def remember (behavior : TimeoutBehavior) (values : RecentMap String String) (ending : Ending) :
    RecentMap String String :=
  match ending.used? behavior, ending.dropped? behavior with
  | some (key, value), _ => values.put key value
  | none, some key => values.erase key
  | none, none => values

theorem capacity_remember (behavior : TimeoutBehavior) (values : RecentMap String String)
    (ending : Ending) : (remember behavior values ending).capacity = values.capacity := by
  unfold remember
  split <;> rfl

theorem capacity_foldl_remember (behavior : TimeoutBehavior) (endings : List Ending)
    (values : RecentMap String String) :
    (endings.foldl (remember behavior) values).capacity = values.capacity := by
  induction endings generalizing values with
  | nil => rfl
  | cons ending rest ih => exact (ih _).trans (capacity_remember behavior values ending)

theorem holdsBehind_remember {ending : Ending} (hholds : values.HoldsBehind newer key value)
    (hused : ∀ used, ending.used? behavior = some used → used.1 ∈ newer)
    (hdropped : ending.dropped? behavior ≠ some key) (hkey : key ∉ newer)
    (hroom : newer.dedup.length < values.capacity) :
    (remember behavior values ending).HoldsBehind newer key value := by
  unfold remember
  cases huse : ending.used? behavior with
  | some used => exact hholds.put (hused used huse) hkey hroom
  | none =>
    cases hdrop : ending.dropped? behavior with
    | some other =>
      rw [hdrop] at hdropped
      exact hholds.erase fun hsame => hdropped (congrArg some hsame.symm)
    | none => exact hholds

theorem holdsBehind_foldl_remember (hholds : values.HoldsBehind newer key value)
    (hused : ∀ ending ∈ since, ∀ used, ending.used? behavior = some used → used.1 ∈ newer)
    (hdropped : ∀ ending ∈ since, ending.dropped? behavior ≠ some key) (hkey : key ∉ newer)
    (hroom : newer.dedup.length < values.capacity) :
    (since.foldl (remember behavior) values).HoldsBehind newer key value := by
  induction since generalizing values with
  | nil => exact hholds
  | cons ending rest ih =>
    rw [List.forall_mem_cons] at hused hdropped
    refine ih ?_ hused.2 hdropped.2 ?_
    · exact holdsBehind_remember hholds hused.1 hdropped.1 hkey hroom
    · rw [capacity_remember]
      exact hroom

/-- A value that was used is held as long as its key is neither used again nor dropped and there
is room for all keys that were used since. -/
theorem peek?_of_used {earlier : List Ending} {ending : Ending}
    (huse : ending.used? behavior = some (key, value)) (hkey : key ∉ usedKeys behavior since)
    (hdropped : key ∉ droppedKeys behavior since)
    (hroom : (usedKeys behavior since).dedup.length < values.capacity) :
    ((earlier ++ ending :: since).foldl (remember behavior) values).peek? key = some value := by
  have hput : remember behavior (earlier.foldl (remember behavior) values) ending =
      (earlier.foldl (remember behavior) values).put key value := by
    rw [remember, huse]
  rw [List.foldl_append, List.foldl_cons, hput]
  refine (holdsBehind_foldl_remember RecentMap.holdsBehind_put_self ?_ ?_ hkey ?_).peek?_eq
  · intro next hnext used hused
    exact List.mem_map_of_mem (List.mem_filterMap.2 ⟨next, hnext, hused⟩)
  · intro next hnext hdrop
    exact hdropped (List.mem_filterMap.2 ⟨next, hnext, hdrop⟩)
  · change _ < (earlier.foldl (remember behavior) values).capacity
    rw [capacity_foldl_remember]
    exact hroom

end Ending

/-!
## Runs of a cache
-/

inductive CacheEvent where
  /-- The tier answers an operation, whatever it may say and whenever. -/
  | answered (call : CacheCall) (answer : CacheAnswer)
  | expired (call : CacheCall)
  | looked (key : String)

namespace CacheEvent

def follow (cache : Cache) : CacheEvent → Cache
  | .answered call answer => (cache.settled call answer).2
  | .expired call => (cache.timedOut call).2
  | .looked _ => cache

def ending? (cache : Cache) : CacheEvent → Option Ending
  | .answered call answer => some ⟨call, (cache.settled call answer).1, true⟩
  | .expired call => some ⟨call, (cache.timedOut call).1, false⟩
  | .looked _ => none

def isLook : CacheEvent → Bool
  | .looked _ => true
  | .answered .. | .expired _ => false

/-- A local read uses the value that it finds, which a `put` of this value does as well. -/
theorem values_follow (cache : Cache) (event : CacheEvent) :
    (event.follow cache).values =
        (event.ending? cache).toList.foldl (Ending.remember cache.config.behavior) cache.values ∧
      (event.follow cache).config = cache.config := by
  cases event with
  | looked key => exact ⟨rfl, rfl⟩
  | answered call answer =>
    rcases cache.settled_learns call answer with ⟨values, hcache, hlearns⟩
    rw [follow, ending?, Cache.settled_answer, hcache]
    refine ⟨?_, rfl⟩
    cases hlearns with
    | failed call failure => cases call <;> rfl
    | found key value => rfl
    | missing key => rfl
    | stored key value previous => rfl
    | removed key previous => rfl
  | expired call =>
    rcases cache.timedOut_fallsBack call with ⟨values, hcache, hfalls⟩
    rw [follow, ending?, hcache]
    refine ⟨?_, rfl⟩
    generalize (cache.timedOut call).1 = result at hfalls
    generalize cache.config.behavior = behavior at hfalls
    change values = Ending.remember behavior cache.values ⟨call, result, false⟩
    cases hfalls with
    | anyFails call => cases call <;> rfl
    | readKept hreads hkept =>
      rw [RecentMap.touch, hkept]
      rfl
    | readMissing hreads hmissing => rfl
    | putFails key value => rfl
    | removeFails key => rfl
    | putLocally key value => rfl
    | removeLocally key => rfl
    | dropped call => cases call <;> rfl

end CacheEvent

namespace Cache

variable {cache : Cache}

def after (cache : Cache) (events : List CacheEvent) : Cache :=
  events.foldl CacheEvent.follow cache

def endings (cache : Cache) : List CacheEvent → List Ending
  | [] => []
  | event :: rest => (event.ending? cache).toList ++ (event.follow cache).endings rest

theorem values_after (cache : Cache) (events : List CacheEvent) :
    (cache.after events).values =
      (cache.endings events).foldl (Ending.remember cache.config.behavior) cache.values := by
  induction events generalizing cache with
  | nil => rfl
  | cons event rest ih =>
    rcases event.values_follow cache with ⟨hvalues, hconfig⟩
    rw [endings, List.foldl_append, ← hvalues, ← hconfig]
    exact ih (event.follow cache)

theorem after_append (cache : Cache) (done rest : List CacheEvent) :
    cache.after (done ++ rest) = (cache.after done).after rest :=
  List.foldl_append

theorem endings_append (cache : Cache) (done rest : List CacheEvent) :
    cache.endings (done ++ rest) = cache.endings done ++ (cache.after done).endings rest := by
  induction done generalizing cache with
  | nil => rfl
  | cons event done ih =>
    rw [List.cons_append, endings, endings, ih, List.append_assoc]
    rfl

theorem after_filter_not_look (cache : Cache) (events : List CacheEvent) :
    cache.after (events.filter fun event => !event.isLook) = cache.after events ∧
      cache.endings (events.filter fun event => !event.isLook) = cache.endings events := by
  induction events generalizing cache with
  | nil => exact ⟨rfl, rfl⟩
  | cons event rest ih =>
    cases event with
    | looked key => exact ih cache
    | answered call answer =>
      rcases ih (cache.settled call answer).2 with ⟨hafter, hendings⟩
      exact ⟨hafter, congrArg (List.cons _) hendings⟩
    | expired call =>
      rcases ih (cache.timedOut call).2 with ⟨hafter, hendings⟩
      exact ⟨hafter, congrArg (List.cons _) hendings⟩

theorem capacity_after {name : String} {config : CacheSettings}
    (hcreate : create name config = .ok cache) (events : List CacheEvent) :
    (cache.after events).values.capacity = config.capacity.toNat := by
  rw [values_after, Ending.capacity_foldl_remember]
  unfold create at hcreate
  split at hcreate
  · cases hcreate
  · cases hcreate
    rfl

end Cache

/-!
## Sessions are runs
-/

namespace Ticket

variable {now turn : Nat} {ticket rest : Ticket} {cache later : Cache} {tier left : ServerTier}
variable {answer : CacheAnswer}

theorem call_resume (now turn : Nat) (ticket : Ticket) (tier : ServerTier) :
    (ticket.resume now turn tier).1.call = ticket.call := by
  unfold resume
  split
  · split <;> rfl
  · rfl

theorem event_of_expire_inl
    (hexpire : ticket.expire now cache tier = (.inl answer, later, left)) :
    (CacheEvent.expired ticket.call).follow cache = later ∧
      (CacheEvent.expired ticket.call).ending? cache = some ⟨ticket.call, answer, false⟩ := by
  unfold expire at hexpire
  split at hexpire
  · cases hexpire
    exact ⟨rfl, rfl⟩
  · cases hexpire

theorem cache_of_expire_inr
    (hexpire : ticket.expire now cache tier = (.inr rest, later, left)) : later = cache := by
  unfold expire at hexpire
  split at hexpire
  · cases hexpire
  · cases hexpire
    rfl

theorem exists_event_of_advance_inl
    (hadvance : ticket.advance now turn cache tier = (.inl answer, later, left)) :
    ∃ event : CacheEvent, event.follow cache = later ∧
      event.ending? cache = some ⟨ticket.call, answer, ticket.isServed now turn tier⟩ := by
  rw [← call_resume now turn ticket tier, isServed]
  unfold advance respond at hadvance
  dsimp only at hadvance ⊢
  generalize ticket.resume now turn tier = resumed at hadvance ⊢
  cases hanswer : resumed.1.answer? now resumed.2 with
  | none =>
    rw [hanswer] at hadvance
    exact ⟨_, event_of_expire_inl hadvance⟩
  | some answered =>
    rw [hanswer] at hadvance
    dsimp only at hadvance
    rw [Option.any_some]
    cases hlost : saysDisconnected answered.1 with
    | true =>
      rw [hlost, if_pos rfl] at hadvance
      have hended := event_of_expire_inl hadvance
      exact ⟨_, hended⟩
    | false =>
      rw [hlost, if_neg Bool.false_ne_true] at hadvance
      cases hadvance
      exact ⟨.answered resumed.1.call answered.1, rfl, rfl⟩

theorem cache_of_advance_inr
    (hadvance : ticket.advance now turn cache tier = (.inr rest, later, left)) :
    later = cache := by
  unfold advance respond at hadvance
  dsimp only at hadvance
  generalize ticket.resume now turn tier = resumed at hadvance
  split at hadvance
  · exact cache_of_expire_inr hadvance
  · split at hadvance
    · exact cache_of_expire_inr hadvance
    · cases hadvance

end Ticket

namespace Session

/-- Whatever the tier, a move is an event of the cache or none. -/
theorem exists_events_make (session : Session) (move : Move) :
    ∃ events, (move.make session).cache = session.cache.after events ∧
      (session.ending? move).toList = session.cache.endings events := by
  cases move with
  | submit name call => exact ⟨[], rfl, rfl⟩
  | wait duration => exact ⟨[], rfl, rfl⟩
  | connect connected => exact ⟨[], rfl, rfl⟩
  | turn place =>
    rw [Move.make]
    rcases turn_cases session place with
      hnone | ⟨name, task, hplace, hover⟩ | ⟨name, ticket, hplace⟩
    · rw [advanceAt, ending?, hnone]
      exact ⟨[], rfl, rfl⟩
    · rcases advanceAt_of_over hplace hover with ⟨hsame, hending⟩
      rw [hsame, hending]
      exact ⟨[], rfl, rfl⟩
    · rcases hadvance : ticket.advance session.now session.turns session.cache session.tier with
        ⟨answer | rest, later, left⟩
      · rcases advanceAt_inl hplace hadvance with ⟨hmade, hending⟩
        rcases Ticket.exists_event_of_advance_inl hadvance with ⟨event, hfollow, hended⟩
        refine ⟨[event], ?_, ?_⟩
        · rw [hmade]
          exact hfollow.symm
        · rw [hending, Cache.endings, hended]
          rfl
      · rcases advanceAt_inr hplace hadvance with ⟨hmade, hending⟩
        rw [hmade, hending, Ticket.cache_of_advance_inr hadvance]
        exact ⟨[], rfl, rfl⟩

theorem exists_events_run (session : Session) (moves : List Move) :
    ∃ events, (moves.foldl Move.make session).cache = session.cache.after events ∧
      endings moves session = session.cache.endings events := by
  induction moves generalizing session with
  | nil => exact ⟨[], rfl, rfl⟩
  | cons move rest ih =>
    rcases exists_events_make session move with ⟨first, hfirst, hended⟩
    rcases ih (move.make session) with ⟨later, hlater, hendings⟩
    rw [hfirst] at hlater hendings
    refine ⟨first ++ later, ?_, ?_⟩
    · rw [Cache.after_append]
      exact hlater
    · rw [Cache.endings_append, endings, hended, hendings]

end Session

namespace Cache

variable {cache : Cache} {name : String} {config : CacheSettings}

/-- However its operations end, a new cache never keeps more values than its capacity.  A value that
an operation has used is kept until the key is used again or dropped, or until as many other keys
were used as the capacity; to look at local values makes no difference to that.  And whatever its
tier is and however its operations overlap, a session does nothing else to its cache. -/
theorem used_value_kept (hcreate : create name config = .ok cache) :
    (∀ events : List CacheEvent,
        (cache.after events).size ≤ config.capacity.toNat ∧
        (∀ earlier ending since key value,
          cache.endings events = earlier ++ ending :: since →
          ending.used? config.behavior = some (key, value) →
          key ∉ Ending.usedKeys config.behavior since →
          key ∉ Ending.droppedKeys config.behavior since →
          (Ending.usedKeys config.behavior since).dedup.length < config.capacity.toNat →
          (cache.after events).kept? key = some value) ∧
        cache.after (events.filter fun event => !event.isLook) = cache.after events ∧
        cache.endings (events.filter fun event => !event.isLook) = cache.endings events) ∧
      ∀ (tier : ServerTier) (patience now turns : Nat) (moves : List Session.Move),
        let start : Session := { cache, tier, patience, now, turns }
        ∃ events, (moves.foldl Session.Move.make start).cache = cache.after events ∧
          Session.endings moves start = cache.endings events := by
  constructor
  · intro events
    refine ⟨?_, ?_, cache.after_filter_not_look events⟩
    · rw [← capacity_after hcreate events]
      exact (cache.after events).values.bounded
    · intro earlier ending since key value hendings huse hkey hdropped hroom
      have hcapacity : cache.values.capacity = config.capacity.toNat := capacity_after hcreate []
      rw [← hcapacity] at hroom
      rw [← (create_eq_ok hcreate).1] at huse hkey hdropped hroom
      rw [kept?, values_after, hendings]
      exact Ending.peek?_of_used huse hkey hdropped hroom
  · intro tier patience now turns moves
    exact Session.exists_events_run _ moves

/-- The limit of the third operation passes, so it uses the value that is kept. -/
def fullCache : List CacheEvent :=
  [.answered (.put "first" "1") (.ok none), .answered (.put "second" "2") (.ok none),
    .expired (.get "first"), .looked "second", .answered (.get "third") (.ok (some "3"))]

/-- With room for two values, the one that was read locally stays and the other one goes, although
it was looked at. -/
theorem kept_after_local_read :
    ∃ cache, create "prices" Session.smallCache = .ok cache ∧
      (cache.after fullCache).size ≤ 2 ∧ (cache.after fullCache).kept? "first" = some "1" ∧
      (cache.after fullCache).kept? "second" = none := by
  refine ⟨_, rfl, ?_⟩
  have hcreate : create "prices" Session.smallCache = .ok _ := rfl
  rcases (used_value_kept hcreate).1 fullCache with ⟨hsize, hkept, -⟩
  refine ⟨hsize, ?_, rfl⟩
  exact hkept [⟨.put "first" "1", .ok none, true⟩, ⟨.put "second" "2", .ok none, true⟩]
    ⟨.get "first", .ok (some "1"), false⟩ [⟨.get "third", .ok (some "3"), true⟩] "first" "1"
    rfl rfl (by decide) (by decide) (by decide)

end Cache

end SharedGraph
