import SharedGraph.Proofs.Store.ObjectCalls

/-!
# Objects that are nested too deeply

Writing an object knows no limit of nesting, and reading does.  So a map lets an object pass however
deep it is, and what it has taken is found again exactly if a reader admits the levels of the object
(`put_found_iff`).  A tower of arrays has any number of levels.
-/

namespace SharedGraph

/-!
## Towers
-/

namespace Value

def tower : Nat → Value
  | 0 => .null
  | levels + 1 => .array [tower levels]

theorem depth_tower (levels : Nat) : (tower levels).depth = levels := by
  induction levels with
  | zero => rfl
  | succ levels ih => rw [tower, depth, depthItems, depthItems, ih, Nat.max_zero]

theorem ordered_tower (levels : Nat) : (tower levels).Ordered := by
  induction levels with
  | zero => trivial
  | succ levels ih => exact ⟨ih, trivial⟩

theorem fits_tower (levels : Nat) : (tower levels).Fits := by
  induction levels with
  | zero => trivial
  | succ levels ih => exact ⟨(by decide : 1 < MessagePack.capacity 4), ih, trivial⟩

end Value

namespace StoredObject

def towering (levels : Nat) : StoredObject where
  id := ⟨1⟩
  kind := .physical
  fields := { entries := [("a", .tower levels)], ascending := List.pairwise_singleton _ _ }

theorem depth_towering (levels : Nat) : (towering levels).depth = levels := by
  rw [depth, towering, Value.depthFields, Value.depthFields, Value.depth_tower, Nat.max_zero]

theorem towering_wellFormed (levels : Nat) : (towering levels).WellFormed := by
  constructor
  · exact ⟨Value.ordered_tower levels, trivial⟩
  · exact (by decide : 1 < MessagePack.capacity 4)
  · exact ⟨by decide, Value.fits_tower levels, trivial⟩

end StoredObject

/-!
## Maps
-/

namespace ValueMap

open Observer StoredObject

variable {σ : Type} {map : ValueMap σ} {object : StoredObject} {audience : σ}

theorem accepts_of_put {object : ObjectId} {value : Bytes}
    (hput : (map.put object value audience).1 = .ok ()) :
    accepts map.observers (.added object value) audience = true := by
  cases haccepts : accepts map.observers (.added object value) audience with
  | true => rfl
  | false =>
    rcases announce_of_refused haccepts with ⟨failure, hround⟩
    rw [put, hround] at hput
    cases hput

theorem getObject?_putObject (hformed : object.WellFormed)
    (hput : (map.putObject object audience).1 = .ok ()) :
    (map.putObject object audience).2.1.getObject? object.id =
      if object.depth ≤ fieldLevels then .ok (some object) else .error .malformedBody := by
  have hread := decode_encode_append hformed []
  rw [List.append_nil] at hread
  rw [putObject, put_of_accepts (accepts_of_put hput), getObject?, get?_inserted]
  dsimp only
  rw [if_pos rfl]
  dsimp only
  rw [hread]
  split <;> rfl

/-- A map that lets objects pass takes every object.  It finds the object again exactly if its
fields are nested no deeper than a reader admits; else it fails when it is asked for it. -/
theorem put_found_iff (hformed : object.WellFormed)
    (hpasses : ∀ observer ∈ map.observers, observer.PassesObjects) (audience : σ) :
    let left := map.putObject object audience
    left.1 = .ok () ∧
      (left.2.1.getObject? object.id = .ok (some object) ↔ object.depth ≤ fieldLevels) ∧
      (fieldLevels < object.depth → left.2.1.getObject? object.id = .error .malformedBody) := by
  intro left
  have hput : left.1 = .ok () :=
    congrArg Prod.fst (put_of_accepts (accepts_added hpasses object audience))
  have hfound := getObject?_putObject hformed hput
  change left.2.1.getObject? object.id = _ at hfound
  refine ⟨hput, ?_, ?_⟩
  · rw [hfound]
    split
    case isTrue hdepth => exact iff_of_true rfl hdepth
    case isFalse hdepth => exact iff_of_false nofun hdepth
  · intro hdeep
    rw [hfound, if_neg (Nat.not_le.2 hdeep)]

def indexedMap : ValueMap ObjectIndex where
  name := "objects"
  observers := [ObjectIndex.observer]

theorem indexedMap_passes : ∀ observer ∈ indexedMap.observers, observer.PassesObjects := by
  intro observer hmem
  rw [List.mem_singleton.1 hmem]
  exact ObjectIndex.passesObjects

/-- The highest tower that is found again, and one that is higher by one level. -/
theorem towers_found :
    ((towering 1021).WellFormed ∧ ∀ observer ∈ indexedMap.observers, observer.PassesObjects) ∧
      (indexedMap.putObject (towering 1021) {}).2.1.getObject? ⟨1⟩ = .ok (some (towering 1021)) ∧
      (indexedMap.putObject (towering 1022) {}).2.1.getObject? ⟨1⟩ = .error .malformedBody := by
  have hhigh := put_found_iff (towering_wellFormed 1021) indexedMap_passes {}
  have hhigher := put_found_iff (towering_wellFormed 1022) indexedMap_passes {}
  rw [depth_towering] at hhigh hhigher
  refine ⟨⟨towering_wellFormed 1021, indexedMap_passes⟩, ?_, ?_⟩
  · exact hhigh.2.1.2 (by decide)
  · exact hhigher.2.2 (by decide)

/-- A map can take an object that it does not find again. -/
theorem taken_not_found :
    (indexedMap.putObject (towering 1022) {}).1 = .ok () ∧
      (indexedMap.putObject (towering 1022) {}).2.1.getObject? ⟨1⟩ = .error .malformedBody ∧
      ¬∀ object : StoredObject, object.WellFormed →
        (indexedMap.putObject object {}).1 = .ok () →
        (indexedMap.putObject object {}).2.1.getObject? object.id = .ok (some object) := by
  have htaken : (indexedMap.putObject (towering 1022) {}).1 = .ok () :=
    congrArg Prod.fst (put_of_accepts (accepts_added indexedMap_passes (towering 1022) {}))
  have hlost := getObject?_putObject (towering_wellFormed 1022) htaken
  rw [depth_towering, if_neg (by decide)] at hlost
  refine ⟨htaken, hlost, ?_⟩
  intro hclaim
  have hfound := hclaim (towering 1022) (towering_wellFormed 1022) htaken
  rw [hlost] at hfound
  cases hfound

end ValueMap
end SharedGraph
