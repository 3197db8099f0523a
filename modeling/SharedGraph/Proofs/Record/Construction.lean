import SharedGraph.Proofs.Data.History
import SharedGraph.Record.Draft

/-!
# How records come about

A draft is filled by calls, each of which sets or extends one part of it.  What a part holds in the
end can be read off the calls (`collects_ofCalls`), and calls of different parts may be exchanged,
as may calls that extend the same set (`make_comm`).  So a record can be built exactly if the last
object of every root, and every object left out of the broadcast, is one that some call references
or changes; all that the record says of its objects follows from the calls (`build_ofCalls`).
-/

namespace SharedGraph

/-!
## Building
-/

namespace Draft

variable {draft : Draft} {record : Record} {failure : Failure}

/-- Building has three outcomes: the first dangling root, the first stray object, or a record. -/
theorem build_cases (draft : Draft) :
    (∃ root object, draft.roots.get? root = some object ∧ object ∉ draft.referenced ∧
        draft.build = .error (.danglingRoot root object draft.name)) ∨
      (∃ object ∈ draft.ignored, object ∉ draft.referenced ∧
        draft.build = .error (.strayIgnored object draft.name)) ∨
      ∃ record : Record, record.draft = draft ∧ draft.build = .ok record := by
  unfold build
  split
  case h_1 root object hdangling =>
    have hmem := List.mem_of_find?_eq_some hdangling
    have hmissing := List.find?_some hdangling
    exact Or.inl ⟨root, object, SortedMap.mem_entries_iff.1 hmem,
      SortedSet.not_contains_iff.1 hmissing, rfl⟩
  case h_2 hrooted =>
    split
    case h_1 object hstray =>
      have hmem := List.mem_of_find?_eq_some hstray
      have hmissing := List.find?_some hstray
      exact Or.inr (Or.inl ⟨object, SortedSet.mem_toList.1 hmem,
        SortedSet.not_contains_iff.1 hmissing, rfl⟩)
    case h_2 hbroadcast => exact Or.inr (Or.inr ⟨_, rfl, rfl⟩)

theorem draft_of_build (hbuild : draft.build = .ok record) : record.draft = draft := by
  rcases build_cases draft with ⟨root, object, -, -, herror⟩ | ⟨object, -, -, herror⟩ |
    ⟨built, hdraft, hok⟩
  · rw [herror] at hbuild
    cases hbuild
  · rw [herror] at hbuild
    cases hbuild
  · rw [hok] at hbuild
    cases hbuild
    exact hdraft

theorem exists_build_iff : (∃ record, draft.build = .ok record) ↔
    (∀ root object, draft.roots.get? root = some object → object ∈ draft.referenced) ∧
      ∀ object ∈ draft.ignored, object ∈ draft.referenced := by
  constructor
  · rintro ⟨record, hbuild⟩
    have hdraft := draft_of_build hbuild
    subst hdraft
    constructor
    · intro root object hroot
      exact record.rooted (root, object) (SortedMap.mem_entries_iff.2 hroot)
    · intro object hignored
      exact record.broadcast object (SortedSet.mem_toList.2 hignored)
  · rintro ⟨hrooted, hbroadcast⟩
    rcases build_cases draft with ⟨root, object, hroot, hmissing, -⟩ |
      ⟨object, hignored, hmissing, -⟩ | ⟨record, -, hok⟩
    · exact absurd (hrooted root object hroot) hmissing
    · exact absurd (hbroadcast object hignored) hmissing
    · exact ⟨record, hok⟩

end Draft

/-!
## Calls
-/

inductive DraftCall where
  | sequence (number : UInt64)
  | batch (number : UInt64)
  | change (added : Change)
  | changes (added : List Change)
  | lock (name : String)
  | reference (object : ObjectId)
  | root (name : String) (object : ObjectId)
  | notify (signal : Notify)
  | invocation (added : Invocation)
  | metadata (added : Metadata)
  | kind (purpose : Purpose)
  | active (flag : Bool)
  | resent (flag : Bool)
  | searchable (flag : Bool)
  | applications (count : UInt32)
  | marks (numbers : List UInt64)
  | exempt (object : ObjectId)

inductive DraftPart where
  | sequence | batch | changes | locks | reads | roots | notifies | invocations | metadata
  | kind | active | resent | searchable | applications | marks | ignored
deriving DecidableEq

namespace DraftCall

def make (draft : Draft) : DraftCall → Draft
  | .sequence number => { draft with sequence := number }
  | .batch number => { draft with batch := number }
  | .change added => draft.addChange added
  | .changes added => { draft with changes := draft.changes ++ added }
  | .lock name => draft.addLock name
  | .reference object => draft.reference object
  | .root name object => draft.setRoot name object
  | .notify signal => draft.addNotify signal
  | .invocation added => draft.addInvocation added
  | .metadata added => draft.addMetadata added
  | .kind purpose => { draft with kind := purpose }
  | .active flag => { draft with active := flag }
  | .resent flag => { draft with resent := flag }
  | .searchable flag => { draft with searchable := flag }
  | .applications count => { draft with applications := count }
  | .marks numbers => { draft with marks := numbers }
  | .exempt object => draft.exempt object

def part : DraftCall → DraftPart
  | .sequence _ => .sequence
  | .batch _ => .batch
  | .change _ | .changes _ => .changes
  | .lock _ => .locks
  | .reference _ => .reads
  | .root _ _ => .roots
  | .notify _ => .notifies
  | .invocation _ => .invocations
  | .metadata _ => .metadata
  | .kind _ => .kind
  | .active _ => .active
  | .resent _ => .resent
  | .searchable _ => .searchable
  | .applications _ => .applications
  | .marks _ => .marks
  | .exempt _ => .ignored

/-- Whether two calls are of different parts, or both extend the same set. -/
def Exchangeable (first second : DraftCall) : Prop :=
  first.part ≠ second.part ∨
    (first.part = second.part ∧ first.part ∈ [.reads, .locks, .notifies, .ignored])

def ofCalls (name : TransactionName) (calls : List DraftCall) : Draft :=
  calls.foldl make { name }

variable {draft : Draft} {call : DraftCall} {calls : List DraftCall} {name : TransactionName}

theorem ofCalls_concat (name : TransactionName) (calls : List DraftCall) (call : DraftCall) :
    ofCalls name (calls ++ [call]) = make (ofCalls name calls) call := by
  rw [ofCalls, List.foldl_append]
  rfl

/-!
## Exchanging calls
-/

theorem make_comm_of_part_ne {first second : DraftCall} (hparts : first.part ≠ second.part)
    (draft : Draft) : make (make draft first) second = make (make draft second) first := by
  -- A call sets the field of its part and looks at no other, so any two of them agree as they are.
  cases first <;> cases second <;> first | rfl | exact absurd rfl hparts

theorem make_comm {first second : DraftCall} (hexchange : first.Exchangeable second)
    (draft : Draft) : make (make draft first) second = make (make draft second) first := by
  rcases hexchange with hparts | ⟨hpart, hset⟩
  · exact make_comm_of_part_ne hparts draft
  · cases first with
    | reference object =>
      cases second with
      | reference other =>
        exact congrArg (fun reads => { draft with reads }) (SortedSet.insert_comm _ object other)
      | _ => cases hpart
    | lock name =>
      cases second with
      | lock other =>
        exact congrArg (fun locks => { draft with locks }) (SortedSet.insert_comm _ name other)
      | _ => cases hpart
    | notify signal =>
      cases second with
      | notify other =>
        exact congrArg (fun notifies => { draft with notifies })
          (SortedSet.insert_comm _ signal other)
      | _ => cases hpart
    | exempt object =>
      cases second with
      | exempt other =>
        exact congrArg (fun ignored => { draft with ignored })
          (SortedSet.insert_comm _ object other)
      | _ => cases hpart
    | _ => exact absurd hset (by simp [part])

theorem ofCalls_exchange {before after : List DraftCall} {first second : DraftCall}
    (hexchange : first.Exchangeable second) :
    ofCalls name (before ++ second :: first :: after) =
      ofCalls name (before ++ first :: second :: after) := by
  unfold ofCalls
  rw [List.foldl_append, List.foldl_append]
  simp only [List.foldl_cons]
  rw [make_comm hexchange]

/-!
## What a draft collects
-/

def added : DraftCall → List Change
  | .change added => [added]
  | .changes added => added
  | _ => []

def invocation? : DraftCall → Option Invocation
  | .invocation added => some added
  | _ => none

def metadata? : DraftCall → Option Metadata
  | .metadata added => some added
  | _ => none

/-- Whether a root names an object in the end: a call says so, and no later one says otherwise. -/
def Roots (calls : List DraftCall) (name : String) (object : ObjectId) : Prop :=
  ∃ before after, calls = before ++ .root name object :: after ∧
    ∀ later ∈ after, ∀ other, later ≠ .root name other

/-- Whether some call references an object or adds a change to it. -/
def References (calls : List DraftCall) (object : ObjectId) : Prop :=
  .reference object ∈ calls ∨ ∃ change ∈ calls.flatMap added, change.object = object

/-- What the parts of a draft that bear on its record hold after some calls. -/
structure Collects (calls : List DraftCall) (draft : Draft) : Prop where
  changes : draft.changes = calls.flatMap added
  invocations : draft.invocations = calls.filterMap invocation?
  metadata : draft.metadata = calls.filterMap metadata?
  reads : ∀ object, object ∈ draft.reads ↔ .reference object ∈ calls
  ignored : ∀ object, object ∈ draft.ignored ↔ .exempt object ∈ calls
  roots : ∀ name object, draft.roots.get? name = some object ↔ Roots calls name object

theorem changes_make (draft : Draft) (call : DraftCall) :
    (make draft call).changes = draft.changes ++ call.added := by
  cases call <;> first | rfl | exact (List.append_nil _).symm

theorem invocations_make (draft : Draft) (call : DraftCall) :
    (make draft call).invocations = draft.invocations ++ call.invocation?.toList := by
  cases call <;> first | rfl | exact (List.append_nil _).symm

theorem metadata_make (draft : Draft) (call : DraftCall) :
    (make draft call).metadata = draft.metadata ++ call.metadata?.toList := by
  cases call <;> first | rfl | exact (List.append_nil _).symm

theorem mem_reads_make {object : ObjectId} :
    object ∈ (make draft call).reads ↔ call = .reference object ∨ object ∈ draft.reads := by
  cases call with
  | reference other => simp [make, Draft.reference, eq_comm]
  | _ => exact (or_iff_right (by simp)).symm

theorem mem_ignored_make {object : ObjectId} :
    object ∈ (make draft call).ignored ↔ call = .exempt object ∨ object ∈ draft.ignored := by
  cases call with
  | exempt other => simp [make, Draft.exempt, eq_comm]
  | _ => exact (or_iff_right (by simp)).symm

theorem get?_roots_make {root : String} {object : ObjectId} :
    (make draft call).roots.get? root = some object ↔ call = .root root object ∨
      (¬(∃ other, call = .root root other) ∧ draft.roots.get? root = some object) := by
  cases call with
  | root other named =>
    by_cases hsame : root = other
    · simp [make, Draft.setRoot, hsame]
    · simp [make, Draft.setRoot, SortedMap.get?_insert_of_ne _ _ hsame, Ne.symm hsame]
  | _ => exact ((or_iff_right (by simp)).trans (and_iff_right (by simp))).symm

theorem roots_iff_since {root : String} {object : ObjectId} :
    Roots calls root object ↔
      Since (fun _ call => call = .root root object) (fun call => ∃ other, call = .root root other)
        calls := by
  unfold Roots Since
  rw [exists_split_eq_iff]
  simp only [not_exists]

theorem collects_ofCalls (name : TransactionName) (calls : List DraftCall) :
    Collects calls (ofCalls name calls) := by
  induction calls using List.reverseRecOn with
  | nil =>
    refine ⟨rfl, rfl, rfl, ?_, ?_, ?_⟩
    · exact fun object => iff_of_false (SortedSet.not_mem_empty object) List.not_mem_nil
    · exact fun object => iff_of_false (SortedSet.not_mem_empty object) List.not_mem_nil
    · intro root object
      rw [roots_iff_since]
      exact iff_of_false nofun not_since_nil
  | append_singleton calls call ih =>
    rw [ofCalls_concat]
    -- One lemma a part says what the last call does to it; the lists of calls grow in the same way.
    constructor
    · rw [changes_make, ih.changes, List.flatMap_append, List.flatMap_singleton]
    · rw [invocations_make, ih.invocations, List.filterMap_append]
      cases hadded : call.invocation? <;> simp [hadded]
    · rw [metadata_make, ih.metadata, List.filterMap_append]
      cases hadded : call.metadata? <;> simp [hadded]
    · intro object
      rw [mem_reads_make, ih.reads, List.mem_append, List.mem_singleton, or_comm, eq_comm]
    · intro object
      rw [mem_ignored_make, ih.ignored, List.mem_append, List.mem_singleton, or_comm, eq_comm]
    · intro root object
      rw [get?_roots_make, ih.roots, roots_iff_since, roots_iff_since, since_concat_iff]

theorem name_ofCalls (name : TransactionName) (calls : List DraftCall) :
    (ofCalls name calls).name = name := by
  induction calls using List.reverseRecOn with
  | nil => rfl
  | append_singleton calls call ih =>
    rw [ofCalls_concat]
    cases call <;> exact ih

theorem Collects.mem_referenced (hcollects : Collects calls draft) {object : ObjectId} :
    object ∈ draft.referenced ↔ References calls object := by
  rw [Draft.mem_referenced, hcollects.changes, hcollects.reads, or_comm]
  rfl

theorem Collects.mem_created (hcollects : Collects calls draft) {object : ObjectId} :
    object ∈ draft.created ↔
      ∃ change ∈ calls.flatMap added, change.isNew = true ∧ change.object = object := by
  rw [Draft.mem_created, hcollects.changes]

/-!
## Records
-/

/-- What a record says of the calls that it was drafted with. -/
structure Recorded (calls : List DraftCall) (record : Record) : Prop where
  referenced : ∀ object, object ∈ record.referenced ↔ References calls object
  created : ∀ object, object ∈ record.created ↔
    ∃ change ∈ calls.flatMap added, change.isNew = true ∧ change.object = object
  created_referenced : ∀ object ∈ record.created, References calls object
  changes : record.changes = calls.flatMap added
  invocations : record.draft.invocations = calls.filterMap invocation?
  metadata : record.draft.metadata = calls.filterMap metadata?

theorem recorded_of_build {record : Record} (hbuild : (ofCalls name calls).build = .ok record) :
    Recorded calls record := by
  have hcollects := collects_ofCalls name calls
  rw [← Draft.draft_of_build hbuild] at hcollects
  refine ⟨fun _ => hcollects.mem_referenced, fun _ => hcollects.mem_created, ?_, hcollects.changes,
    hcollects.invocations, hcollects.metadata⟩
  intro object hcreated
  exact hcollects.mem_referenced.1 (Draft.referenced_of_created hcreated)

/-- Whatever is said of a transaction, a record can be built exactly if the last object of every
root and every ignored object is referenced or changed, and else one that is not is named.  The
record references these objects, creates those whose changes are marked as new, and keeps changes,
invocations and metadata in the order of the calls.  Two calls in a row of different parts, or that
extend the same set, may be exchanged. -/
theorem build_ofCalls (name : TransactionName) (calls : List DraftCall) :
    ((∃ record, (ofCalls name calls).build = .ok record) ↔
        (∀ root object, Roots calls root object → References calls object) ∧
          ∀ object, .exempt object ∈ calls → References calls object) ∧
      (∀ failure, (ofCalls name calls).build = .error failure →
        (∃ root object, Roots calls root object ∧ ¬References calls object ∧
            failure = .danglingRoot root object name) ∨
          ∃ object, .exempt object ∈ calls ∧ ¬References calls object ∧
            failure = .strayIgnored object name) ∧
      (∀ record, (ofCalls name calls).build = .ok record → Recorded calls record) ∧
      ∀ before first second after, calls = before ++ first :: second :: after →
        first.Exchangeable second →
          (ofCalls name (before ++ second :: first :: after)).build =
            (ofCalls name calls).build := by
  have hcollects := collects_ofCalls name calls
  refine ⟨?_, ?_, fun record hbuild => recorded_of_build hbuild, ?_⟩
  · rw [Draft.exists_build_iff]
    simp only [hcollects.mem_referenced, hcollects.roots, hcollects.ignored]
  · intro failure herror
    rcases Draft.build_cases (ofCalls name calls) with ⟨root, object, hroot, hmissing, hbuild⟩ |
      ⟨object, hignored, hmissing, hbuild⟩ | ⟨record, -, hbuild⟩
    · rw [hbuild, name_ofCalls] at herror
      cases herror
      rw [hcollects.mem_referenced] at hmissing
      exact Or.inl ⟨root, object, (hcollects.roots root object).1 hroot, hmissing, rfl⟩
    · rw [hbuild, name_ofCalls] at herror
      cases herror
      rw [hcollects.mem_referenced] at hmissing
      exact Or.inr ⟨object, (hcollects.ignored object).1 hignored, hmissing, rfl⟩
    · rw [hbuild] at herror
      cases herror
  · rintro before first second after rfl hexchange
    rw [ofCalls_exchange hexchange]

/-- A root that is given another object may have named anything before. -/
example : (ofCalls ⟨"client", 1⟩
    [.root "head" ⟨9⟩, .root "head" ⟨1⟩, .change (.created ⟨1⟩ [])]).build.isOk = true := rfl

end DraftCall
end SharedGraph
