import SharedGraph.Proofs.Relay.Cluster
import SharedGraph.Proofs.Relay.Trail

/-!
# Sites and the passives that they ship to

An exchange is a site together with the passives in memory that its drains deliver to: what
lands is delivered, and it can land only where the passive can be reached.  A call takes the
objects that its record creates to be held as soon as the record is queued.  That is sound
because what is queued later is delivered later, so that no update to an object that a passive
holds is ever pruned away.
-/

namespace SharedGraph

def Passives.receive? (passives : Passives) : Option (String × Queued) → Option Passives
  | none => some passives
  | some (name, entry) =>
    match passives.deliver name entry.delivery with
    | (.ok (), next) => some next
    | (.error _, _) => none

theorem Passives.deliveries_receive? {passives next : Passives}
    {landing : Option (String × Queued)} (hreceive : passives.receive? landing = some next)
    (passive : String) :
    next.deliveries passive =
      passives.deliveries passive ++ (Site.landedFor passive landing).map Queued.delivery := by
  cases landing with
  | none =>
    cases hreceive
    exact (List.append_nil _).symm
  | some landed =>
    rcases landed with ⟨name, entry⟩
    unfold receive? at hreceive
    cases hreaches : passives.reaches name with
    | false =>
      simp only [deliver_unreached hreaches] at hreceive
      cases hreceive
    | true =>
      rcases deliver_reached hreaches entry.delivery with ⟨later, hdeliver, hgrown, -⟩
      simp only [hdeliver] at hreceive
      cases hreceive
      rw [hgrown]
      by_cases hsame : passive = name
      · rw [if_pos hsame, Site.landedFor, if_pos hsame.symm]
        rfl
      · rw [if_neg hsame, Site.landedFor, if_neg (Ne.symm hsame)]
        rfl

structure Exchange where
  site : Site
  passives : Passives := {}

namespace Exchange

inductive Event where
  | happens (happening : Happening)
  | register (name : String)
  | isolate (name : String) (cut : Bool)

def after? (exchange : Exchange) : Event → Option Exchange
  | .happens happening =>
    (exchange.site.after? happening).bind fun site =>
      (exchange.passives.receive? (exchange.site.landing? happening)).map fun passives =>
        { site, passives }
  | .register name =>
    some { exchange with
      passives := Cluster.changed exchange.passives (exchange.passives.register name) }
  | .isolate name cut =>
    some { exchange with
      passives := Cluster.changed exchange.passives (exchange.passives.isolate name cut) }

def run? (exchange : Exchange) : List Event → Option Exchange
  | [] => some exchange
  | event :: rest => (exchange.after? event).bind fun exchange => exchange.run? rest

def opened (group : FailoverGroup) (policy : RelayPolicy) : Exchange :=
  { site := Site.opened group policy }

def relay (exchange : Exchange) : Relay :=
  exchange.site.inFlight.relay

/-- What a passive has got, and then what is queued for it. -/
def entries (exchange : Exchange) (passive : String) : List Delivery :=
  exchange.passives.deliveries passive ++ (exchange.relay.lane passive).map Queued.delivery

def Event.Removes (passive : String) : Event → Prop
  | .happens happening => happening.Removes passive
  | .register _ | .isolate .. => False

def Event.Keeps (passive : String) : Event → Prop
  | .happens happening => happening.Keeps passive
  | .register _ | .isolate .. => True

/-- Whether a passive comes to hold an object by an event: this is declared, or delivered, or
created by a record that is queued for the passive. -/
def Learns (exchange : Exchange) (passive : String) (object : ObjectId) : Event → Prop
  | .happens (.declareHeld name objects) => name = passive ∧ object ∈ objects
  | .happens (.widenHeld name objects) =>
    name = passive ∧ object ∈ objects ∧ exchange.relay.Tracks passive
  | .happens (.start transaction) =>
    exchange.site.accepts passive (.start transaction) ≠ [] ∧ exchange.relay.Tracks passive ∧
      object ∈ transaction.record.created
  | _ => False

/-- Whether a passive has come to hold an object in a run, and nothing was declared for it and
it was not removed since. -/
def Holds (passive : String) (object : ObjectId) (exchange : Exchange) (events : List Event) :
    Prop :=
  ∃ first event rest middle, events = first ++ event :: rest ∧
    exchange.run? first = some middle ∧ middle.Learns passive object event ∧
    ∀ later ∈ rest, later.Keeps passive

/-- Whether an id was queued for a passive in a run, and the passive was not removed since. -/
def WasQueued (passive : String) (id : GlobalId) (exchange : Exchange) (events : List Event) :
    Prop :=
  ∃ first transaction rest middle, events = first ++ .happens (.start transaction) :: rest ∧
    exchange.run? first = some middle ∧
    middle.site.accepts passive (.start transaction) = [id] ∧
    ∀ later ∈ rest, ¬later.Removes passive

variable {exchange next last : Exchange} {event : Event} {events : List Event}
variable {passive : String} {object : ObjectId} {id : GlobalId}

/-!
## Runs
-/

theorem run?_append (exchange : Exchange) (first second : List Event) :
    exchange.run? (first ++ second) =
      (exchange.run? first).bind fun exchange => exchange.run? second := by
  induction first generalizing exchange with
  | nil => rfl
  | cons event rest ih =>
    rw [List.cons_append, run?, run?]
    cases exchange.after? event with
    | none => rfl
    | some next => exact ih next

theorem run?_split {first rest : List Event} {middle : Exchange}
    (hrun : exchange.run? (first ++ event :: rest) = some last)
    (hfirst : exchange.run? first = some middle) :
    ∃ next, middle.after? event = some next ∧ next.run? rest = some last := by
  rw [run?_append, hfirst, Option.bind_some, run?] at hrun
  exact Option.bind_eq_some_iff.1 hrun

theorem run?_induction {holds : Exchange → Prop}
    (hstep : ∀ event ∈ events, ∀ exchange next : Exchange, exchange.after? event = some next →
      holds exchange → holds next)
    (hrun : exchange.run? events = some last) (hholds : holds exchange) : holds last := by
  induction events generalizing exchange with
  | nil =>
    cases hrun
    exact hholds
  | cons event rest ih =>
    rcases Option.bind_eq_some_iff.1 hrun with ⟨next, hafter, hrest⟩
    rw [List.forall_mem_cons] at hstep
    exact ih hstep.2 hrest (hstep.1 exchange next hafter hholds)

/-- An event is one of the site, and what lands is delivered; or it leaves the site and what was
delivered alone. -/
theorem after?_cases (hafter : exchange.after? event = some next) :
    (∃ happening, event = .happens happening ∧ exchange.site.after? happening = some next.site ∧
        ∀ passive, next.passives.deliveries passive = exchange.passives.deliveries passive ++
          (Site.landedFor passive (exchange.site.landing? happening)).map Queued.delivery) ∨
      ((∀ happening, event ≠ .happens happening) ∧ next.site = exchange.site ∧
        ∀ passive, next.passives.deliveries passive = exchange.passives.deliveries passive) := by
  cases event with
  | happens happening =>
    rcases Option.bind_eq_some_iff.1 hafter with ⟨site, hsite, hlands⟩
    rcases Option.map_eq_some_iff.1 hlands with ⟨passives, hreceive, rfl⟩
    exact Or.inl ⟨happening, rfl, hsite, Passives.deliveries_receive? hreceive⟩
  | register name =>
    cases hafter
    refine Or.inr ⟨fun _ hsame => Event.noConfusion hsame, rfl, fun passive => ?_⟩
    exact Cluster.changed_induction
      (fun passives : Passives =>
        passives.deliveries passive = exchange.passives.deliveries passive) rfl
      fun _ => Passives.deliveries_register
  | isolate name cut =>
    cases hafter
    refine Or.inr ⟨fun _ hsame => Event.noConfusion hsame, rfl, fun passive => ?_⟩
    exact Cluster.changed_induction
      (fun passives : Passives =>
        passives.deliveries passive = exchange.passives.deliveries passive) rfl
      fun _ => Passives.deliveries_isolate

/-!
## Nothing is behind the mark
-/

/-- Each lane admits one drain, and all that was queued has ids that are not behind the mark of
the relay. -/
structure Marked (exchange : Exchange) : Prop where
  housed : exchange.site.inFlight.Housed exchange.site.removed
  waiting : ∀ name, ∀ entry ∈ exchange.site.inFlight.lane name,
    UpTo exchange.relay.lastQueued entry.id
  delivered : ∀ passive, ∀ delivery ∈ exchange.passives.deliveries passive,
    ∃ id, delivery.globalId = some id ∧ UpTo exchange.relay.lastQueued id

theorem opened_marked (group : FailoverGroup) (policy : RelayPolicy) :
    (opened group policy).Marked := by
  refine ⟨Site.opened_housed group policy, ?_, ?_⟩
  · intro name entry hentry
    have hempty : (opened group policy).site.inFlight.lane name = [] := by
      cases hslot : name.dropped with
      | none => exact InFlight.lane_of_current _ hslot
      | some number => exact InFlight.lane_of_dropped _ hslot
    rw [hempty] at hentry
    cases hentry
  · intro passive delivery hdelivery
    cases hdelivery

theorem marked_after (hmarked : exchange.Marked) (hafter : exchange.after? event = some next) :
    next.Marked := by
  rcases after?_cases hafter with
    ⟨happening, rfl, hsite, hdeliveries⟩ | ⟨-, hsame, hdeliveries⟩
  · have hwaiting : ∀ name, ∀ entry ∈ exchange.site.inFlight.lane name,
        UpTo next.relay.lastQueued entry.id :=
      fun name entry hentry => Site.upTo_after hsite (hmarked.waiting name entry hentry)
    refine ⟨Site.housed_after hmarked.housed hsite, ?_, ?_⟩
    · intro name entry hentry
      rcases Site.lane_after hsite hentry with ⟨other, hold⟩ | ⟨passive, haccepts⟩
      · exact hwaiting other entry hold
      · exact ⟨entry.id, (Site.mark_of_accepts hsite haccepts).1, GlobalId.le_refl _⟩
    · intro passive delivery hdelivery
      rw [hdeliveries] at hdelivery
      rcases List.mem_append.1 hdelivery with hold | hnew
      · rcases hmarked.delivered passive delivery hold with ⟨id, hid, hupTo⟩
        exact ⟨id, hid, Site.upTo_after hsite hupTo⟩
      · rcases List.mem_map.1 hnew with ⟨entry, hentry, rfl⟩
        rcases Site.mem_lane_of_landed hentry with ⟨name, hin⟩
        exact ⟨entry.id, rfl, hwaiting name entry hin⟩
  · rcases hmarked with ⟨hhoused, hwaiting, hdelivered⟩
    unfold relay at hwaiting hdelivered
    rw [← hsame] at hhoused hwaiting hdelivered
    refine ⟨hhoused, hwaiting, fun passive delivery hdelivery => ?_⟩
    rw [hdeliveries] at hdelivery
    exact hdelivered passive delivery hdelivery

theorem marked_run (hmarked : exchange.Marked) (hrun : exchange.run? events = some last) :
    last.Marked :=
  run?_induction (fun _ _ _ _ hafter hholds => marked_after hholds hafter) hrun hmarked

theorem upTo_after (hafter : exchange.after? event = some next)
    (hupTo : UpTo exchange.relay.lastQueued id) : UpTo next.relay.lastQueued id := by
  rcases after?_cases hafter with ⟨happening, -, hsite, -⟩ | ⟨-, hsame, -⟩
  · exact Site.upTo_after hsite hupTo
  · unfold relay
    rw [hsame]
    exact hupTo

/-!
## Trails
-/

/-- Where the entries with ids that pass a test are. -/
structure Traces (test : GlobalId → Bool) (passive : String) (trail : List Delivery)
    (name : LaneName) (exchange : Exchange) : Prop where
  trail : exchange.site.inFlight.Trail test passive (exchange.passives.deliveries passive) trail
    exchange.site.removed name
  settled : exchange.site.inFlight.Settled test passive name

variable {test : GlobalId → Bool} {trail : List Delivery} {name : LaneName}

theorem traces_of_behind (hmarked : exchange.Marked) (passive : String)
    (hbehind : ∀ id, UpTo exchange.relay.lastQueued id → test id = false) :
    exchange.Traces test passive [] { passive } := by
  refine ⟨⟨rfl, LaneName.ownedBy_current _ _, ?_, ?_⟩, Or.inl rfl⟩
  · intro drain _ _ _ entry hentry
    exact hbehind entry.id (hmarked.waiting drain.lane entry hentry)
  · rw [List.filter_append, filter_passes_eq_nil fun entry hentry =>
      hbehind entry.id (hmarked.waiting _ entry hentry), List.append_nil, List.filter_eq_nil_iff]
    intro delivery hdelivery
    rcases hmarked.delivered passive delivery hdelivery with ⟨id, hid, hupTo⟩
    rw [Delivery.passes, hid, Option.any_some, hbehind id hupTo]
    exact Bool.false_ne_true

theorem traces_congr {other : GlobalId → Bool} (hmarked : exchange.Marked)
    (hagree : ∀ id, UpTo exchange.relay.lastQueued id → other id = test id)
    (htraces : exchange.Traces test passive trail name) :
    exchange.Traces other passive trail name := by
  rcases htraces with ⟨⟨hown, howned, helsewhere, hcontent⟩, hsettled⟩
  refine ⟨⟨hown, howned, ?_, ?_⟩, ?_⟩
  · intro drain hdrain hname hlane entry hentry
    rw [hagree entry.id (hmarked.waiting _ entry hentry)]
    exact helsewhere drain hdrain hname hlane entry hentry
  · rw [← hcontent]
    apply List.filter_congr
    intro delivery hdelivery
    have hid : ∃ id, delivery.globalId = some id ∧ UpTo exchange.relay.lastQueued id := by
      rcases List.mem_append.1 hdelivery with hold | hin
      · exact hmarked.delivered passive delivery hold
      · rcases List.mem_map.1 hin with ⟨entry, hentry, rfl⟩
        exact ⟨entry.id, rfl, hmarked.waiting name entry hentry⟩
    rcases hid with ⟨id, hid, hupTo⟩
    rw [Delivery.passes, Delivery.passes, hid]
    exact hagree id hupTo
  · rcases hsettled with hcurrent | hnone
    · exact Or.inl hcurrent
    · refine Or.inr fun entry hentry => ?_
      rw [hagree entry.id (hmarked.waiting { passive } entry hentry)]
      exact hnone entry hentry

theorem traces_start {transaction : Sequenced} (hmarked : exchange.Marked)
    (htraces : exchange.Traces test passive trail { passive }) (htest : test id = true)
    (haccepts : exchange.site.accepts passive (.start transaction) = [id])
    (hafter : exchange.after? (.happens (.start transaction)) = some next) :
    ∃ shipment added, exchange.relay.shipmentFor transaction.record passive = .ok shipment ∧
      added ≠ [] ∧ (∀ delivery ∈ added, delivery = ⟨some id, shipment⟩) ∧
      next.Traces test passive (trail ++ added) { passive } := by
  rcases exchange.relay.shipmentFor_ok transaction.record passive with ⟨shipment, hshipment, -⟩
  rcases Site.trail_start hmarked.housed htraces.trail htraces.settled transaction with
    ⟨added, hqueues, hgrown⟩
  rcases hgrown (Or.inl rfl) with ⟨htrail, hsettled⟩
  have hentries : ∀ delivery ∈ added.map Queued.delivery,
      delivery = ⟨some id, shipment⟩ := by
    intro delivery hdelivery
    rcases List.mem_map.1 hdelivery with ⟨entry, hentry, rfl⟩
    have hid := hqueues.ids entry hentry
    have hshare := hqueues.shipments transaction rfl entry hentry
    rw [haccepts] at hid
    cases hid
    cases hshipment.symm.trans hshare
    rfl
  have hall : (added.map Queued.delivery).filter (Delivery.passes test) =
      added.map Queued.delivery := by
    rw [List.filter_eq_self]
    intro delivery hdelivery
    rw [hentries delivery hdelivery]
    exact htest
  rw [hall] at htrail
  refine ⟨shipment, added.map Queued.delivery, hshipment, ?_, hentries, ?_⟩
  · rw [Ne, List.map_eq_nil_iff]
    apply hqueues.present
    rw [haccepts]
    exact List.cons_ne_nil id []
  · cases hafter
    exact ⟨htrail, hsettled⟩

theorem traces_after (hmarked : exchange.Marked)
    (htraces : exchange.Traces test passive trail name)
    (hlate : ∀ id, (∀ last, exchange.relay.lastQueued = some last → last < id) → test id = false)
    (hafter : exchange.after? event = some next) :
    ∃ other, next.Traces test passive trail other ∧ (¬event.Removes passive → other = name) := by
  rcases htraces with ⟨htrail, hsettled⟩
  rcases after?_cases hafter with
    ⟨happening, rfl, hsite, hdeliveries⟩ | ⟨-, hsame, hdeliveries⟩
  · by_cases hstart : ∃ transaction, happening = .start transaction
    · rcases hstart with ⟨transaction, rfl⟩
      rcases Site.trail_start hmarked.housed htrail hsettled transaction with
        ⟨added, hqueues, hgrown⟩
      have hnone : ∀ entry ∈ added, test entry.id = false := by
        intro entry hentry
        exact hlate entry.id (Site.mark_of_accepts hsite (hqueues.ids entry hentry)).2
      rcases hgrown (Or.inr hnone) with ⟨hstill, hsettles⟩
      rw [filter_passes_eq_nil hnone, List.append_nil] at hstill
      cases hafter
      exact ⟨name, ⟨hstill, hsettles⟩, fun _ => rfl⟩
    · rcases Site.trail_still hmarked.housed htrail hsettled hsite
        (fun transaction hsame => hstart ⟨transaction, hsame⟩) with
        ⟨other, hstill, hsettles, hstays⟩
      refine ⟨other, ⟨?_, hsettles⟩, hstays⟩
      rw [hdeliveries]
      exact hstill
  · refine ⟨name, ⟨?_, ?_⟩, fun _ => rfl⟩
    · rw [hdeliveries, hsame]
      exact htrail
    · rw [hsame]
      exact hsettled

/-- A trail that is complete, since no id behind the bound belongs to it, and whatever is queued
from now on is behind the bound. -/
structure Complete (bound : GlobalId) (test : GlobalId → Bool) (passive : String)
    (trail : List Delivery) (name : LaneName) (exchange : Exchange) : Prop where
  marked : exchange.Marked
  upTo : UpTo exchange.relay.lastQueued bound
  late : ∀ id, bound < id → test id = false
  traces : exchange.Traces test passive trail name

theorem complete_run {bound : GlobalId}
    (hcomplete : exchange.Complete bound test passive trail name)
    (hrun : exchange.run? events = some last) :
    ∃ other, last.Complete bound test passive trail other ∧
      ((∀ event ∈ events, ¬event.Removes passive) → other = name) := by
  induction events generalizing exchange name with
  | nil =>
    cases hrun
    exact ⟨name, hcomplete, fun _ => rfl⟩
  | cons event rest ih =>
    rcases Option.bind_eq_some_iff.1 hrun with ⟨next, hafter, hrest⟩
    rcases hcomplete with ⟨hmarked, hupTo, hlate, htraces⟩
    have hbehind : ∀ id, (∀ last, exchange.relay.lastQueued = some last → last < id) →
        test id = false :=
      fun id hid => hlate id (lt_of_upTo hid hupTo)
    rcases traces_after hmarked htraces hbehind hafter with ⟨middle, hmiddle, hkept⟩
    rcases ih ⟨marked_after hmarked hafter, upTo_after hafter hupTo, hlate, hmiddle⟩ hrest with
      ⟨other, hother, hstill⟩
    refine ⟨other, hother, fun hstays => ?_⟩
    rw [List.forall_mem_cons] at hstays
    exact (hstill hstays.2).trans (hkept hstays.1)

theorem entries_of_traces (htraces : exchange.Traces test passive trail name) :
    ((exchange.entries passive).filter (Delivery.passes test)).Sublist trail ∧
      (name = { passive } →
        (exchange.entries passive).filter (Delivery.passes test) = trail) := by
  rcases htraces with ⟨htrail, hsettled⟩
  have hcurrent : name = { passive } →
      (exchange.entries passive).filter (Delivery.passes test) = trail := by
    rintro rfl
    exact htrail.content
  refine ⟨?_, hcurrent⟩
  rcases hsettled with hsame | hnone
  · simp only [hcurrent hsame, List.Sublist.refl]
  · rw [entries, relay, List.filter_append, filter_passes_eq_nil hnone, List.append_nil,
      ← htrail.content, List.filter_append]
    exact List.sublist_append_left _ _

/-!
## What a passive holds
-/

theorem knows_of_learns (hlearns : exchange.Learns passive object event)
    (hafter : exchange.after? event = some next) : next.relay.Knows passive object := by
  unfold Learns at hlearns
  split at hlearns
  · rcases hlearns with ⟨rfl, hmem⟩
    cases hafter
    exact Relay.knows_of_declareHeld hmem
  · rcases hlearns with ⟨rfl, hmem, htracks⟩
    cases hafter
    exact Relay.knows_of_widenHeld htracks hmem
  · next transaction =>
    rcases hlearns with ⟨haccepts, htracks, hmem⟩
    cases hafter
    unfold relay
    rw [Site.inFlight_start]
    rcases exchange.site.inFlight.start_cases exchange.site.group transaction with
      ⟨hnone, -⟩ | ⟨id, targets, accepted, hadmits, haccept, hstart⟩
    · rw [Site.accepts, Relay.queuesFor, hnone] at haccepts
      exact absurd (ite_self _) haccepts
    · rw [hstart]
      apply Relay.knows_of_accept haccept _ htracks hmem
      apply Decidable.byContradiction
      intro hother
      rw [Site.accepts, Relay.queuesFor, if_neg hother] at haccepts
      exact haccepts rfl
  · exact hlearns.elim

theorem knows_after (hknows : exchange.relay.Knows passive object) (hkeeps : event.Keeps passive)
    (hafter : exchange.after? event = some next) : next.relay.Knows passive object := by
  rcases after?_cases hafter with ⟨happening, rfl, hsite, -⟩ | ⟨-, hsame, -⟩
  · exact Site.knows_after hknows hkeeps hsite
  · unfold relay
    rw [hsame]
    exact hknows

theorem knows_of_holds (hholds : Holds passive object exchange events)
    (hrun : exchange.run? events = some last) : last.relay.Knows passive object := by
  rcases hholds with ⟨first, event, rest, middle, rfl, hfirst, hlearns, hkeeps⟩
  rcases run?_split hrun hfirst with ⟨next, hafter, hrest⟩
  exact run?_induction (fun event hevent _ _ hstep hknows =>
    knows_after hknows (hkeeps event hevent) hstep) hrest (knows_of_learns hlearns hafter)

/-!
## What a passive has of an accepted record
-/

theorem mark_of_accepts {transaction : Sequenced}
    (haccepts : exchange.site.accepts passive (.start transaction) = [id]) :
    (exchange.site.start transaction).inFlight.relay.lastQueued = some id ∧
      ∀ last, exchange.relay.lastQueued = some last → last < id := by
  have hsite : exchange.site.after? (.start transaction) =
      some (exchange.site.start transaction) := rfl
  exact Site.mark_of_accepts hsite haccepts

theorem trail_of_accepted {transaction : Sequenced} (hmarked : exchange.Marked)
    (htraces : exchange.Traces test passive trail { passive }) (htest : test id = true)
    (hlate : ∀ other, id < other → test other = false)
    (haccepts : exchange.site.accepts passive (.start transaction) = [id])
    (hrun : exchange.run? (.happens (.start transaction) :: events) = some last) :
    ∃ shipment added name,
      exchange.relay.shipmentFor transaction.record passive = .ok shipment ∧ added ≠ [] ∧
      (∀ delivery ∈ added, delivery = ⟨some id, shipment⟩) ∧
      last.Complete id test passive (trail ++ added) name ∧
      ((∀ event ∈ events, ¬event.Removes passive) → name = { passive }) := by
  rcases Option.bind_eq_some_iff.1 hrun with ⟨next, hafter, hrest⟩
  rcases traces_start hmarked htraces htest haccepts hafter with
    ⟨shipment, added, hshipment, hadded, hentries, hgrown⟩
  have hmark : UpTo next.relay.lastQueued id := by
    cases hafter
    exact ⟨id, (mark_of_accepts haccepts).1, GlobalId.le_refl id⟩
  rcases complete_run ⟨marked_after hmarked hafter, hmark, hlate, hgrown⟩ hrest with
    ⟨name, hcomplete, hname⟩
  exact ⟨shipment, added, name, hshipment, hadded, hentries, hcomplete, hname⟩

theorem traces_new {transaction : Sequenced} (hmarked : exchange.Marked)
    (haccepts : exchange.site.accepts passive (.start transaction) = [id]) :
    exchange.Traces (· == id) passive [] { passive } := by
  apply traces_of_behind hmarked
  intro other hupTo
  rw [beq_eq_false_iff_ne]
  rintro rfl
  exact not_upTo (mark_of_accepts haccepts).2 hupTo

theorem complete_of_queued (hmarked : exchange.Marked) (hrun : exchange.run? events = some last)
    (hqueued : WasQueued passive id exchange events) :
    ∃ trail, trail ≠ [] ∧ (∀ delivery ∈ trail, delivery.globalId = some id) ∧
      last.Complete id (· == id) passive trail { passive } := by
  rcases hqueued with ⟨first, transaction, rest, middle, rfl, hfirst, haccepts, hstays⟩
  have hmiddle := marked_run hmarked hfirst
  have hrest : middle.run? (.happens (.start transaction) :: rest) = some last := by
    rw [run?_append, hfirst] at hrun
    exact hrun
  rcases trail_of_accepted hmiddle (traces_new hmiddle haccepts) (beq_self_eq_true id)
    (fun other hlt => beq_eq_false_iff_ne.2 (GlobalId.ne_of_gt hlt)) haccepts hrest with
    ⟨shipment, added, name, -, hadded, hentries, hcomplete, hname⟩
  rw [hname hstays, List.nil_append] at hcomplete
  refine ⟨added, hadded, ?_, hcomplete⟩
  intro delivery hdelivery
  rw [hentries delivery hdelivery]

theorem pairwise_front_back {front back : List Delivery} {other : GlobalId} (hne : other ≠ id)
    (hfront : ∀ delivery ∈ front, delivery.globalId = some other)
    (hback : ∀ delivery ∈ back, delivery.globalId = some id) :
    (front ++ back).Pairwise fun first second =>
      first.globalId = some id → second.globalId ≠ some other := by
  rw [List.pairwise_append]
  refine ⟨?_, ?_, ?_⟩
  · apply List.pairwise_of_forall_mem_list
    intro first hfirst second _ hid
    rw [hfront first hfirst] at hid
    exact absurd (Option.some.inj hid) hne
  · apply List.pairwise_of_forall_mem_list
    intro first _ second hsecond _ hid
    rw [hback second hsecond] at hid
    exact hne (Option.some.inj hid).symm
  · intro first hfirst second _ hid
    rw [hfront first hfirst] at hid
    exact absurd (Option.some.inj hid) hne

/-- What was queued earlier has its place before what is queued later. -/
theorem entries_ordered {start before : Exchange} {earlier later : List Event} {other : GlobalId}
    {transaction : Sequenced} (hmarked : start.Marked) (hearlier : start.run? earlier = some before)
    (hqueued : WasQueued passive other start earlier)
    (haccepts : before.site.accepts passive (.start transaction) = [id])
    (hlater : before.run? (.happens (.start transaction) :: later) = some last) :
    ((∀ event ∈ later, ¬event.Removes passive) →
        ∃ delivery ∈ last.entries passive, delivery.globalId = some other) ∧
      (last.entries passive).Pairwise fun first second =>
        first.globalId = some id → second.globalId ≠ some other := by
  rcases complete_of_queued hmarked hearlier hqueued with
    ⟨front, hfront, hothers, hbefore, ⟨mark, hmark, hle⟩, -, htrail⟩
  have hlt : other < id := GlobalId.lt_of_le_of_lt hle ((mark_of_accepts haccepts).2 mark hmark)
  -- the trail of both ids starts as that of the earlier one, since nothing has the later one yet
  have hboth : before.Traces (fun found => found == other || found == id) passive front
      { passive } := by
    apply traces_congr hbefore _ htrail
    intro found hupTo
    have hold : found ≠ id := by
      rintro rfl
      exact not_upTo (mark_of_accepts haccepts).2 hupTo
    rw [beq_eq_false_iff_ne.2 hold, Bool.or_false]
  have hlate : ∀ found, id < found → (found == other || found == id) = false := by
    intro found hbehind
    have hfar : other < found := GlobalId.lt_of_le_of_lt (GlobalId.le_of_lt hlt) hbehind
    rw [beq_eq_false_iff_ne.2 (GlobalId.ne_of_gt hbehind),
      beq_eq_false_iff_ne.2 (GlobalId.ne_of_gt hfar)]
    rfl
  rcases trail_of_accepted hbefore hboth (by rw [beq_self_eq_true, Bool.or_true]) hlate haccepts
    hlater with ⟨shipment, back, name, -, -, hback, hcomplete, hname⟩
  rcases entries_of_traces hcomplete.traces with ⟨hpart, hall⟩
  constructor
  · intro hstill
    rcases List.exists_mem_of_ne_nil front hfront with ⟨delivery, hdelivery⟩
    refine ⟨delivery, ?_, hothers delivery hdelivery⟩
    have hmem := List.mem_append_left back hdelivery
    rw [← hall (hname hstill)] at hmem
    exact (List.mem_filter.1 hmem).1
  · have hordered := pairwise_front_back (GlobalId.ne_of_lt hlt) hothers
      fun delivery hdelivery => congrArg Delivery.globalId (hback delivery hdelivery)
    have hfiltered := hordered.sublist hpart
    rw [List.pairwise_filter] at hfiltered
    apply hfiltered.imp
    intro first second hclash hfirst hsecond
    refine hclash ?_ ?_ hfirst hsecond
    · rw [Delivery.passes, hfirst]
      simp
    · rw [Delivery.passes, hsecond]
      simp

/-- A passive that the relay does not follow has the full record of whatever was queued for it;
one that it follows has every update to an object that it holds, in order and after the record
that created the object. -/
theorem updates_reach_holders {group : FailoverGroup} {policy : RelayPolicy}
    {earlier later : List Event} {before : Exchange} {transaction : Sequenced}
    (hearlier : (opened group policy).run? earlier = some before)
    (haccepts : before.site.accepts passive (.start transaction) = [id])
    (hlater : before.run? (.happens (.start transaction) :: later) = some last) :
    ∃ shipment,
      (∀ delivery ∈ last.entries passive, delivery.globalId = some id →
        delivery.shipment = shipment) ∧
      ((∀ event ∈ later, ¬event.Removes passive) →
        ⟨some id, shipment⟩ ∈ last.entries passive) ∧
      (¬before.relay.Tracks passive → shipment = .full transaction.record) ∧
      shipment.changes.Sublist transaction.record.changes ∧
      (∀ object, Holds passive object (opened group policy) earlier →
        shipment.changes.filter (fun change => change.object == object) =
          transaction.record.changes.filter fun change => change.object == object) ∧
      ∀ other, WasQueued passive other (opened group policy) earlier →
        ((∀ event ∈ later, ¬event.Removes passive) →
            ∃ delivery ∈ last.entries passive, delivery.globalId = some other) ∧
          (last.entries passive).Pairwise fun first second =>
            first.globalId = some id → second.globalId ≠ some other := by
  have hopened := opened_marked group policy
  have hmarked := marked_run hopened hearlier
  -- The entries with the id of the call are a trail that this call begins and nothing adds to.
  rcases trail_of_accepted hmarked (traces_new hmarked haccepts) (beq_self_eq_true id)
    (fun other hlt => beq_eq_false_iff_ne.2 (GlobalId.ne_of_gt hlt)) haccepts hlater with
    ⟨shipment, added, name, hshipment, hadded, hentries, hcomplete, hname⟩
  rcases entries_of_traces hcomplete.traces with ⟨hpart, hall⟩
  rcases before.relay.shipmentFor_ok transaction.record passive with
    ⟨share, hshare, hfull, hchanges, hheld, -⟩
  cases hshipment.symm.trans hshare
  refine ⟨shipment, ?_, ?_, hfull, hchanges, ?_, ?_⟩
  · intro delivery hdelivery hid
    have hmem : delivery ∈ (last.entries passive).filter (Delivery.passes (· == id)) := by
      rw [List.mem_filter, Delivery.passes, hid]
      exact ⟨hdelivery, beq_self_eq_true id⟩
    rw [hentries delivery (hpart.subset hmem)]
  · intro hstays
    rcases List.exists_mem_of_ne_nil added hadded with ⟨delivery, hdelivery⟩
    rw [← hentries delivery hdelivery]
    rw [← List.nil_append added, ← hall (hname hstays)] at hdelivery
    exact (List.mem_filter.1 hdelivery).1
  · intro object hholds
    exact hheld object (knows_of_holds hholds hearlier)
  · intro other hqueued
    exact entries_ordered hopened hearlier hqueued haccepts hlater

def writing (id : GlobalId) (changes : List Change) : Sequenced where
  record := {
    draft := { name := ⟨"client", id.number⟩, changes }
    rooted := fun _ hmem => absurd hmem List.not_mem_nil
    broadcast := fun _ hmem => absurd hmem List.not_mem_nil }
  globalId := some id

/-- A passive holds nothing when an object is created for it. -/
def creation : List Event :=
  [.register "b", .happens (.declareHeld "b" ∅),
    .happens (.start (writing ⟨1⟩ [.created ⟨7⟩ []]))]

/-- Then that object is changed together with another one, and the creation is delivered. -/
def update : List Event :=
  [.happens (.start (writing ⟨2⟩ [.updated ⟨7⟩ 2 [], .updated ⟨9⟩ 2 []])),
    .happens (.move 0 0 .take), .happens (.move 0 0 (.ship ⟨0, .arrives 0⟩)),
    .happens (.move 0 0 .land)]

theorem creation_runs : ∃ before last,
    (opened FailoverGroup.trio {}).run? creation = some before ∧
    before.run? update = some last ∧
    before.site.accepts "b" (.start (writing ⟨2⟩ [.updated ⟨7⟩ 2 [], .updated ⟨9⟩ 2 []])) =
      [⟨2⟩] ∧
    last.passives.received "b" = [⟨1⟩] ∧ last.relay.backlog "b" = [⟨2⟩] := by
  refine ⟨_, _, rfl, rfl, ?_, ?_, ?_⟩
  all_goals decide +kernel

theorem creation_holds : Holds "b" ⟨7⟩ (opened FailoverGroup.trio {}) creation ∧
    WasQueued "b" ⟨1⟩ (opened FailoverGroup.trio {}) creation := by
  refine ⟨⟨[.register "b", .happens (.declareHeld "b" ∅)], _, [], _, rfl, rfl, ⟨?_, ?_, ?_⟩, ?_⟩,
    ⟨[.register "b", .happens (.declareHeld "b" ∅)], _, [], _, rfl, rfl, ?_, ?_⟩⟩
  · decide +kernel
  · exact ⟨∅, rfl⟩
  · decide +kernel
  · exact fun _ hlater => absurd hlater List.not_mem_nil
  · decide +kernel
  · exact fun _ hlater => absurd hlater List.not_mem_nil

theorem update_follows_creation : ∃ before last shipment,
    (opened FailoverGroup.trio {}).run? creation = some before ∧
    before.run? update = some last ∧
    last.passives.received "b" = [⟨1⟩] ∧ last.relay.backlog "b" = [⟨2⟩] ∧
    ⟨some ⟨2⟩, shipment⟩ ∈ last.entries "b" ∧
    shipment.changes.filter (fun change => change.object == ⟨7⟩) = [.updated ⟨7⟩ 2 []] ∧
    (last.entries "b").Pairwise fun first second =>
      first.globalId = some ⟨2⟩ → second.globalId ≠ some ⟨1⟩ := by
  rcases creation_runs with ⟨before, last, hearlier, hlater, haccepts, hreceived, hbacklog⟩
  rcases creation_holds with ⟨hholds, hqueued⟩
  rcases updates_reach_holders hearlier haccepts hlater with
    ⟨shipment, -, hpresent, -, -, hupdates, hordered⟩
  refine ⟨before, last, shipment, hearlier, hlater, hreceived, hbacklog, hpresent ?_, ?_,
    (hordered ⟨1⟩ hqueued).2⟩
  · simp [Event.Removes, Happening.Removes]
  · exact hupdates ⟨7⟩ hholds

end Exchange
end SharedGraph
