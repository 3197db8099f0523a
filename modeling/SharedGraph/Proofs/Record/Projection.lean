import Mathlib.Data.List.Forall2
import SharedGraph.Document.Shipment

/-!
# What may be projected

A record may be projected to any part of it: to changes that stand in it at ascending places, to
objects that it references and to objects that it creates, as long as these are among the objects
of the projection (`project_iff`).  Changes are looked for from the front and each is taken where
it is first met.  That misses no part, although a change may stand in the record more than once:
what is found behind a later place is found behind an earlier one too.
-/

namespace SharedGraph

/-!
## Sameness is reflexive
-/

namespace FiniteDouble

theorem same_refl (double : FiniteDouble) : double.same double = true := by
  simp [same]

end FiniteDouble

namespace Value

mutual

theorem same_refl : ∀ value : Value, value.same value = true
  | .null => rfl
  | .bool _ | .int _ | .text _ => by simp [same]
  | .float number => by
    rw [same]
    exact FiniteDouble.same_refl number
  | .array items => by
    rw [same]
    exact sameItems_refl items
  | .object fields => by
    rw [same]
    exact sameFields_refl fields

theorem sameItems_refl : ∀ items : List Value, sameItems items items = true
  | [] => rfl
  | item :: rest => by
    rw [sameItems, same_refl item, sameItems_refl rest]
    rfl

theorem sameFields_refl : ∀ fields : List (String × Value), sameFields fields fields = true
  | [] => rfl
  | (name, value) :: rest => by
    rw [sameFields, same_refl value, sameFields_refl rest]
    simp

end

end Value

theorem Action.same_refl (action : Action) : action.same action = true := by
  cases action <;> simp [same, Value.same_refl]

namespace Change

theorem sameActions_refl (actions : List Action) : sameActions actions actions = true := by
  induction actions with
  | nil => rfl
  | cons action rest ih =>
    rw [sameActions, Action.same_refl, ih]
    rfl

theorem same_refl (change : Change) : change.same change = true := by
  simp [same, sameActions_refl]

/-!
## Parts of a list of changes
-/

variable {wanted : Change} {rest changes part : List Change}

theorem within_tail (hwithin : within (wanted :: rest) changes = true) :
    within rest changes = true := by
  induction changes generalizing wanted rest with
  | nil => cases hwithin
  | cons first others ih =>
    have hgrow : ∀ part, within part others = true → within part (first :: others) = true := by
      intro part hpart
      cases part with
      | nil => rfl
      | cons next later =>
        rw [within]
        split
        · exact ih hpart
        · exact hpart
    rw [within] at hwithin
    split at hwithin
    · exact hgrow rest hwithin
    · exact hgrow rest (ih hwithin)

theorem within_cons (change : Change) (hwithin : within part changes = true) :
    within part (change :: changes) = true := by
  cases part with
  | nil => rfl
  | cons wanted rest =>
    rw [within]
    split
    · exact within_tail hwithin
    · exact hwithin

theorem within_iff_sublistForall₂ : within part changes = true ↔
    List.SublistForall₂ (fun wanted change => change.same wanted = true) part changes := by
  induction changes generalizing part with
  | nil =>
    cases part with
    | nil => exact iff_of_true rfl .nil
    | cons wanted rest => exact iff_of_false nofun nofun
  | cons first others ih =>
    cases part with
    | nil => exact iff_of_true rfl .nil
    | cons wanted rest =>
      constructor
      · intro hwithin
        rw [within] at hwithin
        split at hwithin
        · next hsame => exact .cons hsame (ih.1 hwithin)
        · exact .cons_right (ih.1 hwithin)
      · intro hpart
        cases hpart with
        | cons hsame hrest =>
          rw [within, if_pos hsame]
          exact ih.2 hrest
        -- the first change is not used, although it may be the same as the first one wanted
        | cons_right hlater => exact within_cons first (ih.2 hlater)

theorem within_of_sublist (hpart : part.Sublist changes) : within part changes = true := by
  rw [within_iff_sublistForall₂, List.sublistForall₂_iff]
  exact ⟨part, List.forall₂_same.2 fun change _ => same_refl change, hpart⟩

/-- Some changes are found in others if they are the same, one by one, as those at some ascending
places. -/
theorem within_iff : within part changes = true ↔
    ∃ places : List (Fin changes.length), places.Pairwise (· < ·) ∧
      List.Forall₂ (fun wanted place => changes[place].same wanted = true) part places := by
  rw [within_iff_sublistForall₂, List.sublistForall₂_iff]
  constructor
  · intro hpart
    rcases hpart with ⟨found, hsame, hsublist⟩
    rcases List.sublist_eq_map_getElem hsublist with ⟨places, rfl, hascending⟩
    exact ⟨places, hascending, List.forall₂_map_right_iff.1 hsame⟩
  · intro hpart
    rcases hpart with ⟨places, hascending, hsame⟩
    exact ⟨_, List.forall₂_map_right_iff.2 hsame, List.map_getElem_sublist hascending⟩

end Change

/-!
## Views
-/

/-- What the receiver of a shipment is told if it asks for an attribute by name. -/
def Delivery.attribute? (delivery : Delivery) (name : String) : Option Value :=
  match delivery.toValue with
  | .object fields => Value.field? name fields
  | _ => none

namespace Record

variable {record : Record} {changes : List Change} {referenced created : SortedSet ObjectId}
variable {view : View}

theorem project_eq_ok_iff : record.project changes referenced created = .ok view ↔
    Change.within changes record.changes = true ∧
      (∀ object ∈ referenced, object ∈ record.referenced) ∧
      (∀ object ∈ created, object ∈ record.created ∧ object ∈ referenced) ∧
      view = ⟨record, changes, referenced, created⟩ := by
  rw [← SortedSet.isSubset_iff, forall₂_and, ← SortedSet.isSubset_iff, ← SortedSet.isSubset_iff,
    ← Bool.and_eq_true]
  unfold project
  cases Change.within changes record.changes with
  | false => simp
  | true =>
    cases referenced.isSubset record.referenced with
    | false => simp
    | true =>
      cases created.isSubset record.created && created.isSubset referenced with
      | false => simp
      | true => simp [eq_comm]

theorem project_eq_ok (hchanges : changes.Sublist record.changes)
    (hreferenced : ∀ object ∈ referenced, object ∈ record.referenced)
    (hcreated : ∀ object ∈ created, object ∈ record.created)
    (hnew : ∀ object ∈ created, object ∈ referenced) :
    record.project changes referenced created = .ok ⟨record, changes, referenced, created⟩ :=
  project_eq_ok_iff.2 ⟨Change.within_of_sublist hchanges, hreferenced,
    fun object hobject => ⟨hcreated object hobject, hnew object hobject⟩, rfl⟩

theorem attribute?_view (record : Record) (changes : List Change)
    (referenced created : SortedSet ObjectId) (id : Option GlobalId) {name : String}
    (hname : name ∉ ["changes", "refs", "new", "hwm"]) :
    (Delivery.mk id (.pruned ⟨record, changes, referenced, created⟩)).attribute? name =
      (Delivery.mk id (.full record)).attribute? name := by
  simp only [List.mem_cons, List.not_mem_nil, or_false, not_or] at hname
  rcases hname with ⟨hchanges, hreferenced, hcreated, hmarks⟩
  change SortedMap.get? (SortedMap.ofList _) name = SortedMap.get? (SortedMap.ofList _) name
  simp only [SortedMap.get?_ofList_cons, if_neg hchanges, if_neg hreferenced, if_neg hcreated,
    if_neg hmarks]
  rfl

/-- A record may be projected to some changes and objects exactly if the changes are the same, one
by one, as those at some ascending places of the record, it references the objects, and those that
are to be new are created by the record and among the others.  The view then has these changes and
objects and no high-water marks, and it tells whatever else the record tells. -/
theorem project_iff (record : Record) (changes : List Change)
    (referenced created : SortedSet ObjectId) :
    ((∃ view, record.project changes referenced created = .ok view) ↔
      (∃ places : List (Fin record.changes.length), places.Pairwise (· < ·) ∧
        List.Forall₂ (fun wanted place => record.changes[place].same wanted = true)
          changes places) ∧
      (∀ object ∈ referenced, object ∈ record.referenced) ∧
      ∀ object ∈ created, object ∈ record.created ∧ object ∈ referenced) ∧
    ∀ view, record.project changes referenced created = .ok view →
      view.changes = changes ∧ view.referenced = referenced ∧ view.created = created ∧
        (Shipment.pruned view).marks? = none ∧ view.origin = record ∧
        ∀ id name, name ∉ ["changes", "refs", "new", "hwm"] →
          (Delivery.mk id (.pruned view)).attribute? name =
            (Delivery.mk id (.full record)).attribute? name := by
  rw [← Change.within_iff]
  constructor
  · constructor
    · intro hproject
      rcases hproject with ⟨view, hview⟩
      rcases project_eq_ok_iff.1 hview with ⟨hwithin, hreferenced, hcreated, -⟩
      exact ⟨hwithin, hreferenced, hcreated⟩
    · intro hlegal
      rcases hlegal with ⟨hwithin, hreferenced, hcreated⟩
      exact ⟨_, project_eq_ok_iff.2 ⟨hwithin, hreferenced, hcreated, rfl⟩⟩
  · intro view hview
    rcases project_eq_ok_iff.1 hview with ⟨-, -, -, rfl⟩
    exact ⟨rfl, rfl, rfl, rfl, rfl,
      fun id _ => attribute?_view record changes referenced created id⟩

end Record

end SharedGraph
