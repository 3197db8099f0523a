import SharedGraph.Proofs.Record.Pruning
import SharedGraph.Record.Lineage

/-!
# One global id for all who share a record

A view does not copy its record, it refers to it.  Here records lie in a registry, each at its place
together with its global id, and whatever is made of a record keeps the place and nothing of the id.
One call writes at most one place, and only if nothing was written there (`transactions_make`), so
everybody who shares a record reports the id that it was first assigned (`global_id_shared`).
-/

namespace SharedGraph

theorem Record.record_of_project {record : Record} {changes : List Change}
    {referenced created : SortedSet ObjectId} {shipment : Shipment}
    (hproject : (record.project changes referenced created).map .pruned = .ok shipment) :
    shipment.record = record := by
  cases hview : record.project changes referenced created with
  | error failure =>
    rw [hview] at hproject
    cases hproject
  | ok view =>
    rw [hview] at hproject
    cases hproject
    rw [(project_eq_ok_iff.1 hview).2.2.2]
    rfl

theorem Record.record_of_prune {record : Record} {held : SortedSet ObjectId} {shipment : Shipment}
    (hprune : record.prune held = .ok shipment) : shipment.record = record := by
  by_cases hall : ∀ change ∈ record.changes, change.isNew = true ∨ change.object ∈ held
  · rw [prune_of_keepsAll hall] at hprune
    cases hprune
    rfl
  · rw [prune_of_not_keepsAll hall] at hprune
    cases hprune
    rfl

structure Share where
  place : Nat
  shipment : Shipment

/-- Records at their places, with all that was made of them, oldest first. -/
structure Registry where
  transactions : List Sequenced
  shares : List Share := []

/-- A call of the record at a place, or of a view that was made of one.  The record of a share is
called by its place. -/
inductive RegistryCall where
  | assign (place : Nat) (id : GlobalId)
  | assignThrough (share : Nat) (id : GlobalId)
  | project (place : Nat) (changes : List Change) (referenced created : SortedSet ObjectId)
  | prune (place : Nat) (held : SortedSet ObjectId)

namespace Registry

def ofRecords (records : List Record) : Registry where
  transactions := records.map fun record => { record }

def globalId? (registry : Registry) (share : Share) : Option GlobalId :=
  registry.transactions[share.place]?.bind Sequenced.globalId

def record? (registry : Registry) (place : Nat) : Option Record :=
  registry.transactions[place]?.map Sequenced.record

def Linked (registry : Registry) : Prop :=
  ∀ share ∈ registry.shares, registry.record? share.place = some share.shipment.record

def addShare (registry : Registry) (place : Nat) (shipment : Shipment) : Registry :=
  { registry with shares := registry.shares ++ [⟨place, shipment⟩] }

def derive (registry : Registry) (place : Nat) (made : Record → Except Failure Shipment) :
    Option (Except Failure Unit) × Registry :=
  match registry.transactions[place]? with
  | none => (none, registry)
  | some transaction =>
    match made transaction.record with
    | .error failure => (some (.error failure), registry)
    | .ok shipment => (some (.ok ()), registry.addShare place shipment)

variable {registry : Registry} {place : Nat} {made : Record → Except Failure Shipment}

theorem derive_cases (registry : Registry) (place : Nat)
    (made : Record → Except Failure Shipment) :
    ((registry.derive place made).2 = registry ∧
        ∀ record, registry.record? place = some record → ∃ failure, made record = .error failure) ∨
      ∃ record shipment, registry.record? place = some record ∧ made record = .ok shipment ∧
        (registry.derive place made).2 = registry.addShare place shipment := by
  unfold derive record?
  cases registry.transactions[place]? with
  | none =>
    dsimp only
    refine Or.inl ⟨rfl, ?_⟩
    intro record hrecord
    cases hrecord
  | some transaction =>
    dsimp only [Option.map_some]
    cases hmade : made transaction.record with
    | error failure =>
      dsimp only
      refine Or.inl ⟨rfl, ?_⟩
      intro record hrecord
      cases hrecord
      exact ⟨failure, hmade⟩
    | ok shipment =>
      dsimp only
      exact Or.inr ⟨_, shipment, rfl, hmade, rfl⟩

theorem transactions_derive (registry : Registry) (place : Nat)
    (made : Record → Except Failure Shipment) :
    (registry.derive place made).2.transactions = registry.transactions := by
  rcases derive_cases registry place made with ⟨hsame, -⟩ | ⟨record, shipment, -, -, hadded⟩
  · rw [hsame]
  · rw [hadded]
    rfl

theorem shares_derive (hmade : ∀ record shipment, made record = .ok shipment →
      shipment.record = record) (registry : Registry) (place : Nat) :
    ∃ added, (registry.derive place made).2.shares = registry.shares ++ added ∧
      ∀ share ∈ added, registry.record? share.place = some share.shipment.record := by
  rcases derive_cases registry place made with
    ⟨hsame, -⟩ | ⟨record, shipment, hrecord, hshipment, hadded⟩
  · rw [hsame]
    exact ⟨[], (List.append_nil _).symm, List.forall_mem_nil _⟩
  · rw [hadded]
    refine ⟨[⟨place, shipment⟩], rfl, ?_⟩
    intro share hshare
    rw [List.mem_singleton.1 hshare, hrecord, hmade record shipment hshipment]

end Registry

namespace RegistryCall

variable {registry : Registry} {place : Nat} {share : Share} {id : GlobalId}

/-- What a call answers, with the registry afterwards.  There is no answer if there is nothing at
the place, or if the share is no view. -/
def serve (registry : Registry) : RegistryCall → Option (Except Failure Unit) × Registry
  | .assign place id =>
    match registry.transactions[place]? with
    | none => (none, registry)
    | some transaction =>
      match transaction.assign id with
      | .error failure => (some (.error failure), registry)
      | .ok assigned =>
        (some (.ok ()),
          { registry with transactions := registry.transactions.set place assigned })
  | .assignThrough share id =>
    match registry.shares[share]? with
    | some ⟨_, .pruned view⟩ => (some (view.assign id), registry)
    | some ⟨_, .full _⟩ | none => (none, registry)
  | .project place changes referenced created =>
    registry.derive place fun record => (record.project changes referenced created).map .pruned
  | .prune place held => registry.derive place fun record => record.prune held

def make (registry : Registry) (call : RegistryCall) : Registry :=
  (call.serve registry).2

def assigned? (place : Nat) : RegistryCall → Option GlobalId
  | .assign other id => if other = place then some id else none
  | .assignThrough _ _ | .project _ _ _ _ | .prune _ _ => none

def firstAssigned? (place : Nat) (calls : List RegistryCall) : Option GlobalId :=
  calls.findSome? (assigned? place)

/-!
## What a call does
-/

/-- A record keeps the id that it has, and else takes the one that is assigned to it. -/
theorem transactions_make (registry : Registry) (call : RegistryCall) (place : Nat) :
    (make registry call).transactions[place]? = registry.transactions[place]?.map fun transaction =>
      { transaction with globalId := transaction.globalId.or (call.assigned? place) } := by
  have hkept : registry.transactions[place]? = registry.transactions[place]?.map
      fun transaction => { transaction with globalId := transaction.globalId.or none } := by
    simp
  cases call with
  | assign other id =>
    rw [make, serve]
    by_cases hsame : other = place
    · subst hsame
      cases hfound : registry.transactions[other]? with
      | none => exact hfound
      | some transaction =>
        dsimp only
        rw [Sequenced.assign]
        cases hid : transaction.globalId with
        | some existing =>
          dsimp only
          rw [hfound, Option.map_some, hid, Option.some_or, ← hid]
        | none =>
          -- The only case in which a call writes an id.
          have hlt := (List.getElem?_eq_some_iff.1 hfound).1
          dsimp only
          rw [List.getElem?_set_self hlt, Option.map_some, hid, Option.none_or, assigned?,
            if_pos rfl]
    · rw [assigned?, if_neg hsame, ← hkept]
      split
      · rfl
      · split
        · rfl
        · exact List.getElem?_set_ne hsame
  | assignThrough share id =>
    rw [make, serve]
    split <;> exact hkept
  | project other changes referenced created =>
    exact (congrArg (·[place]?) (Registry.transactions_derive _ _ _)).trans hkept
  | prune other held =>
    exact (congrArg (·[place]?) (Registry.transactions_derive _ _ _)).trans hkept

theorem record?_make (registry : Registry) (call : RegistryCall) (place : Nat) :
    (make registry call).record? place = registry.record? place := by
  rw [Registry.record?, transactions_make, Option.map_map]
  rfl

theorem shares_make (registry : Registry) (call : RegistryCall) :
    ∃ added, (make registry call).shares = registry.shares ++ added ∧
      ∀ share ∈ added, registry.record? share.place = some share.shipment.record := by
  have hnone : ∃ added, registry.shares = registry.shares ++ added ∧
      ∀ share ∈ added, registry.record? share.place = some share.shipment.record :=
    ⟨[], (List.append_nil _).symm, List.forall_mem_nil _⟩
  cases call with
  | assign place id =>
    rw [make, serve]
    split
    · exact hnone
    · split <;> exact hnone
  | assignThrough share id =>
    rw [make, serve]
    split <;> exact hnone
  | project place changes referenced created =>
    exact Registry.shares_derive (fun _ _ hmade => Record.record_of_project hmade) registry place
  | prune place held =>
    exact Registry.shares_derive (fun _ _ hmade => Record.record_of_prune hmade) registry place

/-!
## What calls do
-/

theorem firstAssigned?_cons (place : Nat) (call : RegistryCall) (rest : List RegistryCall) :
    firstAssigned? place (call :: rest) =
      (call.assigned? place).or (firstAssigned? place rest) := by
  rw [firstAssigned?, List.findSome?_cons]
  cases call.assigned? place <;> rfl

theorem transactions_run (calls : List RegistryCall) (registry : Registry) (place : Nat) :
    (calls.foldl make registry).transactions[place]? =
      registry.transactions[place]?.map fun transaction =>
        { transaction with globalId := transaction.globalId.or (firstAssigned? place calls) } := by
  induction calls generalizing registry with
  | nil => simp [firstAssigned?]
  | cons call rest ih =>
    rw [List.foldl_cons, ih, transactions_make, Option.map_map, firstAssigned?_cons]
    simp only [Function.comp_def, Option.or_assoc]

theorem shares_run (calls : List RegistryCall) (registry : Registry) :
    ∃ added, (calls.foldl make registry).shares = registry.shares ++ added := by
  induction calls generalizing registry with
  | nil => exact ⟨[], (List.append_nil _).symm⟩
  | cons call rest ih =>
    rcases shares_make registry call with ⟨first, hfirst, -⟩
    rcases ih (make registry call) with ⟨later, hlater⟩
    refine ⟨first ++ later, ?_⟩
    rw [List.foldl_cons, hlater, hfirst, List.append_assoc]

theorem linked_make (hlinked : registry.Linked) (call : RegistryCall) :
    (make registry call).Linked := by
  intro share hshare
  rcases shares_make registry call with ⟨added, hadded, hnew⟩
  rw [hadded, List.mem_append] at hshare
  rw [record?_make]
  rcases hshare with hold | hlatest
  · exact hlinked share hold
  · exact hnew share hlatest

theorem linked_run (hlinked : registry.Linked) (calls : List RegistryCall) :
    (calls.foldl make registry).Linked := by
  induction calls generalizing registry with
  | nil => exact hlinked
  | cons call rest ih => exact ih (linked_make hlinked call)

end RegistryCall

/-!
## Lineages
-/

def Share.view? (place : Nat) (share : Share) : Option View :=
  match share.shipment with
  | .full _ => none
  | .pruned view => if share.place = place then some view else none

def Registry.lineage? (registry : Registry) (place : Nat) : Option Lineage :=
  registry.transactions[place]?.map fun transaction =>
    { transaction, views := registry.shares.filterMap (Share.view? place) }

/-- A lineage with what was made of its record; only views are kept. -/
def Lineage.keep (lineage : Lineage) : Shipment → Lineage
  | .full _ => lineage
  | .pruned view => { lineage with views := lineage.views ++ [view] }

theorem Lineage.project_keep (lineage : Lineage) (changes : List Change)
    (referenced created : SortedSet ObjectId) :
    (lineage.project changes referenced created).map Prod.snd =
      ((lineage.record.project changes referenced created).map .pruned).map lineage.keep := by
  unfold project
  cases lineage.record.project changes referenced created <;> rfl

theorem Lineage.prune_keep (lineage : Lineage) (held : SortedSet ObjectId) :
    (lineage.prune held).map Prod.snd = (lineage.record.prune held).map lineage.keep := by
  unfold prune
  cases lineage.record.prune held with
  | error failure => rfl
  | ok shipment => cases shipment <;> rfl

namespace Registry

theorem lineage?_addShare (registry : Registry) (place other : Nat) (shipment : Shipment) :
    (registry.addShare other shipment).lineage? place = (registry.lineage? place).map
      fun lineage => if other = place then lineage.keep shipment else lineage := by
  simp only [lineage?, addShare, Option.map_map, List.filterMap_append]
  cases shipment with
  | full record =>
    have hview : Share.view? place ⟨other, .full record⟩ = none := rfl
    simp [hview, Lineage.keep, Function.comp_def]
  | pruned view =>
    by_cases hsame : other = place
    · simp [Share.view?, hsame, Lineage.keep, Function.comp_def]
    · simp [Share.view?, hsame, Function.comp_def]

theorem record?_eq_map_lineage? (registry : Registry) (place : Nat) :
    registry.record? place = (registry.lineage? place).map Lineage.record := by
  rw [record?, lineage?, Option.map_map]
  rfl

theorem lineage?_derive (registry : Registry) (other place : Nat)
    (made : Record → Except Failure Shipment) :
    (registry.derive other made).2.lineage? place = (registry.lineage? place).map fun lineage =>
      if other = place then ((made lineage.record).map lineage.keep).toOption.getD lineage
      else lineage := by
  by_cases hsame : other = place
  · subst hsame
    simp only [if_pos]
    rcases derive_cases registry other made with
      ⟨hderive, hnone⟩ | ⟨record, shipment, hrecord, hmade, hderive⟩
    · rw [hderive]
      rw [record?_eq_map_lineage?] at hnone
      cases hlineage : registry.lineage? other with
      | none => rfl
      | some lineage =>
        rw [hlineage] at hnone
        rcases hnone _ rfl with ⟨failure, hfailure⟩
        simp only [Option.map_some, hfailure]
        rfl
    · rw [hderive, lineage?_addShare]
      rw [record?_eq_map_lineage?] at hrecord
      cases hlineage : registry.lineage? other with
      | none => rfl
      | some lineage =>
        rw [hlineage] at hrecord
        cases hrecord
        simp only [Option.map_some, hmade, if_pos]
        rfl
  · simp only [if_neg hsame]
    rcases derive_cases registry other made with ⟨hderive, -⟩ | ⟨record, shipment, -, -, hderive⟩
    · rw [hderive, Option.map_id']
    · rw [hderive, lineage?_addShare]
      simp only [if_neg hsame]

end Registry

namespace RegistryCall

/-- What a call of a registry does to the lineage of a place. -/
def follow (place : Nat) (lineage : Lineage) : RegistryCall → Lineage
  | .assign other id =>
    if other = place then (lineage.assign id).toOption.getD lineage else lineage
  | .assignThrough _ _ => lineage
  | .project other changes referenced created =>
    if other = place then
      ((lineage.project changes referenced created).map Prod.snd).toOption.getD lineage
    else lineage
  | .prune other held =>
    if other = place then ((lineage.prune held).map Prod.snd).toOption.getD lineage else lineage

theorem lineage?_make (registry : Registry) (call : RegistryCall) (place : Nat) :
    (make registry call).lineage? place =
      (registry.lineage? place).map fun lineage => call.follow place lineage := by
  cases call with
  | assign other id =>
    by_cases hsame : other = place
    · subst hsame
      simp only [follow, if_pos, make, serve, Registry.lineage?]
      cases hfound : registry.transactions[other]? with
      | none => simp [hfound]
      | some transaction =>
        have hlt := (List.getElem?_eq_some_iff.1 hfound).1
        cases hassign : transaction.assign id with
        | error failure => simp [hfound, hassign, Lineage.assign, Except.map, Except.toOption]
        | ok assigned => simp [hassign, Lineage.assign, Except.map, Except.toOption, hlt]
    · simp only [follow, if_neg hsame, Option.map_id']
      rw [make, serve]
      split
      · rfl
      · split
        · rfl
        · simp only [Registry.lineage?, List.getElem?_set_ne hsame]
  | assignThrough share id =>
    simp only [follow, Option.map_id']
    rw [make, serve]
    split <;> rfl
  | project other changes referenced created =>
    simp only [follow, Lineage.project_keep]
    exact registry.lineage?_derive other place _
  | prune other held =>
    simp only [follow, Lineage.prune_keep]
    exact registry.lineage?_derive other place _

theorem lineage?_run (calls : List RegistryCall) (registry : Registry) (place : Nat) :
    (calls.foldl make registry).lineage? place =
      (registry.lineage? place).map fun lineage => calls.foldl (follow place) lineage := by
  induction calls generalizing registry with
  | nil => exact Option.map_id'.symm
  | cons call rest ih =>
    rw [List.foldl_cons, ih, lineage?_make, Option.map_map]
    rfl

/-!
## One id
-/

variable {records : List Record} {record : Record} {share : Share} {id : GlobalId}

def leaves (records : List Record) (calls : List RegistryCall) : Registry :=
  calls.foldl make (Registry.ofRecords records)

theorem leaves_append (records : List Record) (calls later : List RegistryCall) :
    leaves records (calls ++ later) = later.foldl make (leaves records calls) :=
  List.foldl_append

theorem transactions_leaves (records : List Record) (calls : List RegistryCall) (place : Nat) :
    (leaves records calls).transactions[place]? =
      records[place]?.map fun record => { record, globalId := firstAssigned? place calls } := by
  rw [leaves, transactions_run, Registry.ofRecords, List.getElem?_map, Option.map_map]
  simp only [Function.comp_def, Option.none_or]

theorem lineage?_leaves (hrecord : records[place]? = some record) (calls : List RegistryCall) :
    (leaves records calls).lineage? place =
      some (calls.foldl (follow place) { transaction := { record } }) := by
  have hstart : (Registry.ofRecords records).lineage? place =
      some { transaction := { record } } := by
    rw [Registry.lineage?, Registry.ofRecords, List.getElem?_map, hrecord]
    rfl
  rw [leaves, lineage?_run, hstart]
  rfl

theorem serve_assign (hrecord : records[place]? = some record) (calls : List RegistryCall)
    (id : GlobalId) :
    (serve (leaves records calls) (.assign place id)).1 = some
      (match firstAssigned? place calls with
      | none => .ok ()
      | some existing => .error (.alreadySequenced record.name existing id)) := by
  rw [serve, transactions_leaves, hrecord]
  dsimp only [Option.map_some]
  rw [Sequenced.assign]
  cases firstAssigned? place calls <;> rfl

theorem record_of_share {calls : List RegistryCall}
    (hshare : share ∈ (leaves records calls).shares) :
    records[share.place]? = some share.shipment.record := by
  have hstart : (Registry.ofRecords records).Linked := List.forall_mem_nil _
  have hlinked : (leaves records calls).record? share.place = some share.shipment.record :=
    linked_run hstart calls share hshare
  rw [Registry.record?, transactions_leaves, Option.map_map] at hlinked
  simp only [Function.comp_def, Option.map_id'] at hlinked
  exact hlinked

theorem globalId?_of_share {calls : List RegistryCall}
    (hshare : share ∈ (leaves records calls).shares) :
    (leaves records calls).globalId? share = firstAssigned? share.place calls := by
  rw [Registry.globalId?, transactions_leaves, record_of_share hshare]
  rfl

theorem share_lasts {calls : List RegistryCall} (hshare : share ∈ (leaves records calls).shares)
    (later : List RegistryCall) :
    share ∈ (leaves records (calls ++ later)).shares ∧
      ∀ id, (leaves records calls).globalId? share = some id →
        (leaves records (calls ++ later)).globalId? share = some id := by
  have hkept : share ∈ (leaves records (calls ++ later)).shares := by
    rcases shares_run later (leaves records calls) with ⟨added, hadded⟩
    rw [leaves_append, hadded]
    exact List.mem_append_left added hshare
  refine ⟨hkept, ?_⟩
  intro id hid
  rw [globalId?_of_share hshare] at hid
  rw [globalId?_of_share hkept, firstAssigned?, List.findSome?_append, ← firstAssigned?, hid]
  rfl

/-- Whatever is called in whatever order, a place keeps its record with the first id that the record
was assigned, and all else there is as in a lineage of that record.  The first assignment succeeds
and every later one fails, as does every assignment through a view.  All that was ever made of the
record reports the id of the record, and no call changes an id that is reported. -/
theorem global_id_shared (records : List Record) (calls : List RegistryCall) :
    (∀ place record, records[place]? = some record →
      (leaves records calls).transactions[place]? =
          some { record, globalId := firstAssigned? place calls } ∧
        (leaves records calls).lineage? place =
          some (calls.foldl (follow place) { transaction := { record } }) ∧
        ∀ id, (firstAssigned? place calls = none →
            (serve (leaves records calls) (.assign place id)).1 = some (.ok ())) ∧
          ∀ existing, firstAssigned? place calls = some existing →
            (serve (leaves records calls) (.assign place id)).1 =
                some (.error (.alreadySequenced record.name existing id)) ∧
              (Failure.alreadySequenced record.name existing id).kind = .illegalState) ∧
      (∀ index place view id, (leaves records calls).shares[index]? = some ⟨place, .pruned view⟩ →
        (serve (leaves records calls) (.assignThrough index id)).1 =
            some (.error (.assignThroughView id view.origin.name)) ∧
          (Failure.assignThroughView id view.origin.name).kind = .unsupported) ∧
      ∀ share ∈ (leaves records calls).shares,
        records[share.place]? = some share.shipment.record ∧
          (leaves records calls).globalId? share = firstAssigned? share.place calls ∧
          ∀ later, share ∈ (leaves records (calls ++ later)).shares ∧
            ∀ id, (leaves records calls).globalId? share = some id →
              (leaves records (calls ++ later)).globalId? share = some id := by
  refine ⟨?_, ?_, ?_⟩
  · intro place record hrecord
    refine ⟨?_, lineage?_leaves hrecord calls, ?_⟩
    · rw [transactions_leaves, hrecord]
      rfl
    · intro id
      rw [serve_assign hrecord]
      constructor
      · intro hnone
        rw [hnone]
      · intro existing hexisting
        rw [hexisting]
        exact ⟨rfl, rfl⟩
  · intro index place view id hview
    rw [serve, hview]
    exact ⟨rfl, rfl⟩
  · exact fun share hshare => ⟨record_of_share hshare, globalId?_of_share hshare,
      fun later => share_lasts hshare later⟩

/-- A view that was made before its record had an id reports that id too. -/
example :
    let draft : Draft := { name := ⟨"client", 1⟩, changes := [.updated ⟨1⟩ 2 []] }
    let registry := leaves [⟨draft, nofun, nofun⟩] [.prune 0 ∅, .assign 0 ⟨7⟩, .assign 0 ⟨8⟩]
    registry.shares.map registry.globalId? = [some ⟨7⟩] := rfl

end RegistryCall
end SharedGraph
