import SharedGraph.Proofs.Record.Projection

/-!
# What pruning keeps

Pruning never fails: what is kept is part of the record in every respect that a view is
checked for.  A pruned record has all changes to held objects, in the record's order, and it
creates all the objects that the record creates.  Changes are kept one by one, so a later
change to an object that the record creates is lost, unless the replica holds the object
(`prune_keeps_created_iff`).
-/

namespace SharedGraph

namespace Change

theorem mem_targets_iff {change : Change} {object : ObjectId} :
    object ∈ change.targets ↔ ∃ field, Action.setReference field object ∈ change.actions := by
  unfold targets
  rw [List.mem_filterMap]
  constructor
  · intro htarget
    rcases htarget with ⟨action, haction, hobject⟩
    cases action with
    | setReference field target =>
      cases hobject
      exact ⟨field, haction⟩
    | setField _ _ => cases hobject
    | collectionPut _ _ => cases hobject
    | collectionRemove _ => cases hobject
    | collectionClear => cases hobject
  · intro hreference
    rcases hreference with ⟨field, haction⟩
    exact ⟨_, haction, rfl⟩

end Change

namespace Record

variable {record : Record} {held : SortedSet ObjectId} {object : ObjectId}

/-!
## Pruning
-/

theorem keptChanges_sublist (record : Record) (held : SortedSet ObjectId) :
    (record.keptChanges held).Sublist record.changes :=
  List.filter_sublist

theorem mem_referenced_of_change {change : Change} (hchange : change ∈ record.changes) :
    change.object ∈ record.referenced :=
  Draft.mem_referenced.2 (.inl ⟨change, hchange, rfl⟩)

theorem mem_touched_iff {changes : List Change} : object ∈ record.touched changes ↔
    (∃ change ∈ changes, change.object = object) ∨
      (object ∈ record.referenced ∧
        ∃ change ∈ changes, ∃ field, Action.setReference field object ∈ change.actions) := by
  unfold touched
  rw [SortedSet.mem_ofList, List.mem_flatMap]
  simp only [List.mem_cons, List.mem_filter, Change.mem_targets_iff]
  constructor
  · intro htouched
    rcases htouched with ⟨change, hchange, hsame | ⟨hfield, hreferenced⟩⟩
    · exact Or.inl ⟨change, hchange, hsame.symm⟩
    · exact Or.inr ⟨hreferenced, change, hchange, hfield⟩
  · intro htouched
    rcases htouched with ⟨change, hchange, hsame⟩ | ⟨hreferenced, change, hchange, hfield⟩
    · exact ⟨change, hchange, Or.inl hsame.symm⟩
    · exact ⟨change, hchange, Or.inr ⟨hfield, hreferenced⟩⟩

theorem touched_subset {changes : List Change} (hchanges : changes.Sublist record.changes) :
    ∀ object ∈ record.touched changes, object ∈ record.referenced := by
  intro object hobject
  rcases mem_touched_iff.1 hobject with ⟨change, hchange, rfl⟩ | ⟨hreferenced, -⟩
  · exact mem_referenced_of_change (hchanges.subset hchange)
  · exact hreferenced

theorem touched_of_created (held : SortedSet ObjectId) (hcreated : object ∈ record.created) :
    object ∈ record.touched (record.keptChanges held) := by
  rcases Draft.mem_created.1 hcreated with ⟨change, hchange, hnew, hobject⟩
  apply mem_touched_iff.2
  refine Or.inl ⟨change, List.mem_filter.2 ⟨hchange, ?_⟩, hobject⟩
  rw [hnew, Bool.true_or]

theorem length_keptChanges_iff : (record.keptChanges held).length = record.changes.length ↔
    ∀ change ∈ record.changes, change.isNew = true ∨ change.object ∈ held := by
  unfold keptChanges
  rw [List.length_filter_eq_length_iff]
  simp only [Bool.or_eq_true]
  rfl

theorem prune_of_keepsAll
    (hall : ∀ change ∈ record.changes, change.isNew = true ∨ change.object ∈ held) :
    record.prune held = .ok (.full record) := by
  unfold prune
  exact if_pos (length_keptChanges_iff.2 hall)

theorem prune_of_not_keepsAll
    (hsome : ¬∀ change ∈ record.changes, change.isNew = true ∨ change.object ∈ held) :
    record.prune held = .ok (.pruned
      ⟨record, record.keptChanges held, record.touched (record.keptChanges held),
        record.created⟩) := by
  have hcreated : (record.touched (record.keptChanges held)).inter record.created =
      record.created := by
    apply SortedSet.ext
    intro object
    constructor
    · exact fun hobject => (SortedSet.mem_inter.1 hobject).2
    · exact fun hobject => SortedSet.mem_inter.2 ⟨touched_of_created held hobject, hobject⟩
  have hproject := project_eq_ok (keptChanges_sublist record held)
    (touched_subset (keptChanges_sublist record held)) (fun object hobject => hobject)
    (fun object => touched_of_created held)
  unfold prune
  dsimp only
  rw [if_neg (mt length_keptChanges_iff.1 hsome), hcreated, hproject]
  rfl

theorem prune_ok (record : Record) (held : SortedSet ObjectId) :
    ∃ shipment, record.prune held = .ok shipment ∧
      shipment.changes = record.keptChanges held ∧ shipment.created = record.created := by
  by_cases hall : ∀ change ∈ record.changes, change.isNew = true ∨ change.object ∈ held
  · have hsame := (keptChanges_sublist record held).eq_of_length (length_keptChanges_iff.2 hall)
    exact ⟨.full record, prune_of_keepsAll hall, hsame.symm, rfl⟩
  · exact ⟨_, prune_of_not_keepsAll hall, rfl, rfl⟩

theorem filter_keptChanges (record : Record) (hheld : object ∈ held) :
    (record.keptChanges held).filter (fun change => change.object == object) =
      record.changes.filter fun change => change.object == object := by
  unfold keptChanges
  rw [List.filter_filter]
  apply List.filter_congr
  intro change _
  by_cases hsame : change.object = object
  · rw [hsame]
    have hcontains : held.contains object = true := hheld
    simp [hcontains]
  · simp [hsame]

/-!
## Objects that a record creates
-/

theorem filter_sublist_filter_iff {α : Type} {narrow wide : α → Bool} {items : List α}
    (hwide : ∀ item ∈ items, narrow item = true → wide item = true) :
    (items.filter wide).Sublist (items.filter narrow) ↔
      ∀ item ∈ items, wide item = true → narrow item = true := by
  have hpart : items.filter narrow = (items.filter wide).filter narrow := by
    rw [List.filter_filter]
    apply List.filter_congr
    intro item hitem
    cases hnarrow : narrow item with
    | false => rfl
    | true => rw [hwide item hitem hnarrow, Bool.true_and]
  rw [hpart]
  constructor
  · intro hsub item hitem hmatch
    have hsame := List.filter_sublist.eq_of_length_le hsub.length_le
    exact List.filter_eq_self.1 hsame item (List.mem_filter.2 ⟨hitem, hmatch⟩)
  · intro hnarrow
    have hall : (items.filter wide).filter narrow = items.filter wide := by
      apply List.filter_eq_self.2
      intro item hkept
      rcases List.mem_filter.1 hkept with ⟨hitem, hmatch⟩
      exact hnarrow item hitem hmatch
    simp only [hall, List.Sublist.refl]

/-- Pruning succeeds, and it keeps all changes to objects that are held or that the transaction
creates, in the record's order, exactly if every change to an object that is created and not held
is marked as new. -/
theorem prune_keeps_created_iff (record : Record) (held : SortedSet ObjectId) :
    ∃ shipment, record.prune held = .ok shipment ∧
      ((record.changes.filter fun change =>
          held.contains change.object || record.created.contains change.object).Sublist
            shipment.changes ↔
        ∀ change ∈ record.changes, change.object ∈ record.created → change.object ∉ held →
          change.isNew = true) := by
  rcases prune_ok record held with ⟨shipment, hprune, hchanges, -⟩
  refine ⟨shipment, hprune, ?_⟩
  rw [hchanges, keptChanges, filter_sublist_filter_iff]
  · constructor
    · intro hkept change hchange hcreated hmissing
      have hmatch : (held.contains change.object || record.created.contains change.object) = true :=
        Bool.or_eq_true_iff.2 (Or.inr hcreated)
      exact (Bool.or_eq_true_iff.1 (hkept change hchange hmatch)).resolve_right hmissing
    · intro hnew change hchange hmatch
      by_cases hheld : change.object ∈ held
      · exact Bool.or_eq_true_iff.2 (Or.inr hheld)
      · have hcreated := (Bool.or_eq_true_iff.1 hmatch).resolve_left hheld
        exact Bool.or_eq_true_iff.2 (Or.inl (hnew change hchange hcreated hheld))
  · intro change hchange hkept
    rcases Bool.or_eq_true_iff.1 hkept with hnew | hheld
    · exact Bool.or_eq_true_iff.2 (Or.inr (Draft.mem_created.2 ⟨change, hchange, hnew, rfl⟩))
    · exact Bool.or_eq_true_iff.2 (Or.inl hheld)

/-- A transaction that creates object 1 and updates it, and updates object 9. -/
def revising : Draft where
  name := ⟨"client", 1⟩
  changes := [.created ⟨1⟩ [], .updated ⟨1⟩ 2 [], .updated ⟨9⟩ 5 []]

/-- A replica that holds nothing gets the creation without the update. -/
theorem update_of_created_pruned :
    ∃ record shipment, revising.build = .ok record ∧ record.prune ∅ = .ok shipment ∧
      shipment.changes = [.created ⟨1⟩ []] ∧ record.created.contains ⟨1⟩ = true ∧
      ¬(record.changes.filter fun change => (∅ : SortedSet ObjectId).contains change.object ||
          record.created.contains change.object).Sublist shipment.changes := by
  refine ⟨⟨revising, nofun, nofun⟩, _, rfl, rfl, rfl, rfl, ?_⟩
  intro hsub
  exact absurd hsub.length_le (by decide)

end Record
end SharedGraph
