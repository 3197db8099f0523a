import Mathlib.Data.List.Basic
import SharedGraph.Proofs.Record.Pruning
import SharedGraph.Record.Lineage

/-!
# What a replica is sent

A replica is sent a record in full if each of its changes is new or one to an object that the
replica holds.  Otherwise it is sent exactly those changes, with the objects that they touch and
with all objects that the record creates (`prune_exact`).  A replica that holds more is sent no
less, and what no change of the record touches makes no difference (`prune_mono`).
-/

namespace SharedGraph

namespace Record

variable {record : Record} {held narrow wide extra : SortedSet ObjectId} {object : ObjectId}
variable {changes : List Change}

theorem prune_lineage {lineage : Lineage} {shipment : Shipment}
    (hprune : lineage.record.prune held = .ok shipment) :
    ∃ left, lineage.prune held = .ok (shipment, left) ∧ left.transaction = lineage.transaction := by
  unfold Lineage.prune
  rw [hprune]
  cases shipment with
  | full _ => exact ⟨lineage, rfl, rfl⟩
  | pruned view => exact ⟨_, rfl, rfl⟩

/-- Pruning succeeds for every set of held objects and leaves the record as it is.  A replica is
sent the full record exactly if every change is new or one to a held object; otherwise it is sent
those changes in order, with their objects, those that they refer to as far as the record
references them, and all that the record creates. -/
theorem prune_exact (record : Record) (held : SortedSet ObjectId) :
    ∃ shipment, record.prune held = .ok shipment ∧ shipment.record = record ∧
      (∀ lineage : Lineage, lineage.record = record →
        ∃ left, lineage.prune held = .ok (shipment, left) ∧
          left.transaction = lineage.transaction) ∧
      (shipment = .full record ↔
        ∀ change ∈ record.changes, change.isNew = true ∨ change.object ∈ held) ∧
      (shipment ≠ .full record → ∃ view, shipment = .pruned view ∧
        view.changes =
          (record.changes.filter fun change => change.isNew || held.contains change.object) ∧
        (∀ object, object ∈ view.referenced ↔
          (∃ change ∈ view.changes, change.object = object) ∨
            (object ∈ record.referenced ∧ ∃ change ∈ view.changes,
              ∃ field, Action.setReference field object ∈ change.actions)) ∧
        view.created = record.created) ∧
      shipment.created = record.created := by
  by_cases hall : ∀ change ∈ record.changes, change.isNew = true ∨ change.object ∈ held
  · have hprune := prune_of_keepsAll hall
    refine ⟨.full record, hprune, rfl, ?_, iff_of_true rfl hall, ?_, rfl⟩
    · intro lineage hsame
      rw [← hsame] at hprune ⊢
      exact prune_lineage hprune
    · exact fun hother => absurd rfl hother
  · have hprune := prune_of_not_keepsAll hall
    refine ⟨_, hprune, rfl, ?_, iff_of_false nofun hall, ?_, rfl⟩
    · intro lineage hsame
      rw [← hsame] at hprune ⊢
      exact prune_lineage hprune
    · intro _
      exact ⟨_, rfl, rfl, fun _ => mem_touched_iff, rfl⟩

/-!
## Replicas that hold more
-/

theorem keptChanges_sublist_of_subset (record : Record)
    (hsubset : ∀ object ∈ narrow, object ∈ wide) :
    (record.keptChanges narrow).Sublist (record.keptChanges wide) := by
  apply List.monotone_filter_right
  intro change hkept
  rcases Bool.or_eq_true_iff.1 hkept with hnew | hheld
  · exact Bool.or_eq_true_iff.2 (Or.inl hnew)
  · exact Bool.or_eq_true_iff.2 (Or.inr (hsubset change.object hheld))

theorem touched_subset_touched {part : List Change} (hpart : part.Sublist changes) :
    ∀ object ∈ record.touched part, object ∈ record.touched changes := by
  intro object hobject
  rw [mem_touched_iff] at hobject ⊢
  rcases hobject with ⟨change, hchange, hsame⟩ | ⟨hreferenced, change, hchange, hfield⟩
  · exact Or.inl ⟨change, hpart.subset hchange, hsame⟩
  · exact Or.inr ⟨hreferenced, change, hpart.subset hchange, hfield⟩

theorem prune_union_of_untouched (hextra : ∀ change ∈ record.changes, change.object ∉ extra) :
    record.prune (held.union extra) = record.prune held := by
  have hkept : record.keptChanges (held.union extra) = record.keptChanges held := by
    apply List.filter_congr
    intro change hchange
    have hheld : change.object ∈ held.union extra ↔ change.object ∈ held := by
      rw [SortedSet.mem_union]
      exact or_iff_left (hextra change hchange)
    rw [Bool.eq_iff_iff.2 hheld]
  unfold prune
  rw [hkept]

/-- A replica that holds more is sent no less: the changes for the narrow set are a part of those
for the wide one, in order, and their objects are among the others, while both create the same.  A
record that is sent in full for the narrow set is sent in full for the wide one.  Holding objects
that no change of the record touches alters nothing. -/
theorem prune_mono (record : Record) (hsubset : ∀ object ∈ narrow, object ∈ wide) :
    ∃ less more, record.prune narrow = .ok less ∧ record.prune wide = .ok more ∧
      less.changes.Sublist more.changes ∧
      (∀ object ∈ less.referenced, object ∈ more.referenced) ∧
      less.created = more.created ∧
      (less = .full record → more = .full record) ∧
      ∀ extra, (∀ change ∈ record.changes, change.object ∉ extra) →
        record.prune (narrow.union extra) = record.prune narrow := by
  by_cases hwide : ∀ change ∈ record.changes, change.isNew = true ∨ change.object ∈ wide
  · by_cases hnarrow : ∀ change ∈ record.changes, change.isNew = true ∨ change.object ∈ narrow
    · refine ⟨_, _, prune_of_keepsAll hnarrow, prune_of_keepsAll hwide, List.Sublist.refl _,
        fun _ hobject => hobject, rfl, fun _ => rfl, fun _ => prune_union_of_untouched⟩
    · refine ⟨_, _, prune_of_not_keepsAll hnarrow, prune_of_keepsAll hwide,
        keptChanges_sublist record narrow, touched_subset (keptChanges_sublist record narrow),
        rfl, nofun, fun _ => prune_union_of_untouched⟩
  · have hnarrow : ¬∀ change ∈ record.changes, change.isNew = true ∨ change.object ∈ narrow := by
      intro hall
      apply hwide
      intro change hchange
      exact (hall change hchange).imp_right (hsubset change.object)
    have hkept := keptChanges_sublist_of_subset record hsubset
    refine ⟨_, _, prune_of_not_keepsAll hnarrow, prune_of_not_keepsAll hwide, hkept,
      touched_subset_touched hkept, rfl, nofun, fun _ => prune_union_of_untouched⟩

/-- A transaction that updates object 1, creates object 2, lets object 3 refer to it and reads
object 9. -/
def linking : Draft where
  name := ⟨"client", 3⟩
  changes := [.updated ⟨1⟩ 2 [], .created ⟨2⟩ [], .updated ⟨3⟩ 4 [.setReference "next" ⟨2⟩]]
  reads := .ofList [⟨9⟩]

/-- A replica that holds object 3 gets less than one that holds object 1 too, and gets the same if
it holds object 9 in addition. -/
theorem prune_linking :
    let record : Record := ⟨linking, nofun, nofun⟩
    let narrow : SortedSet ObjectId := .ofList [⟨3⟩]
    let wide : SortedSet ObjectId := .ofList [⟨1⟩, ⟨3⟩]
    (∀ object ∈ narrow, object ∈ wide) ∧
      (∃ less more, record.prune narrow = .ok less ∧ record.prune wide = .ok more ∧
        less.changes.Sublist more.changes ∧ (∀ object ∈ less.referenced, object ∈ more.referenced) ∧
        less.referenced.toList = [⟨2⟩, ⟨3⟩] ∧ more.referenced.toList = [⟨1⟩, ⟨2⟩, ⟨3⟩, ⟨9⟩]) ∧
      record.prune (narrow.union (.ofList [⟨9⟩])) = record.prune narrow := by
  intro record narrow wide
  have hsubset : ∀ object ∈ narrow, object ∈ wide := SortedSet.isSubset_iff.1 (by decide)
  rcases prune_mono record hsubset with ⟨less, more, hless, hmore, hpart, hobjects, -, -, hextra⟩
  refine ⟨hsubset, ⟨less, more, hless, hmore, hpart, hobjects, ?_, ?_⟩, ?_⟩
  · rw [prune_of_not_keepsAll (by decide)] at hless
    cases hless
    rfl
  · rw [prune_of_keepsAll (by decide)] at hmore
    cases hmore
    rfl
  · apply hextra
    decide

end Record
end SharedGraph
