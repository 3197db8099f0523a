/-!
# Identities

The numbers and names by which objects, transactions and groups are known.  Each is a
type of its own over a fixed-width word, ordered by that word, with one text that
messages use for it.
-/

namespace SharedGraph

/-- The handle of one shared object, unique in the whole cluster. -/
structure ObjectId where
  number : UInt64
deriving DecidableEq, Hashable, Inhabited

/-- A place in the order of all committed transactions. -/
structure GlobalId where
  number : UInt64
deriving DecidableEq, Hashable, Inhabited

structure GroupId where
  number : UInt32
deriving DecidableEq, Inhabited

/-- The name of a transaction before it has a place in the global order: the client or
server it comes from, and that source's own count. -/
structure TransactionName where
  source : String
  number : UInt64
deriving DecidableEq, Inhabited

instance : Ord ObjectId := ⟨compareOn ObjectId.number⟩

instance : Ord GlobalId := ⟨compareOn GlobalId.number⟩

instance : Ord GroupId := ⟨compareOn GroupId.number⟩

instance : Std.TransOrd ObjectId := inferInstanceAs (Std.TransCmp (compareOn ObjectId.number))

instance : Std.TransOrd GlobalId := inferInstanceAs (Std.TransCmp (compareOn GlobalId.number))

instance : Std.TransOrd GroupId := inferInstanceAs (Std.TransCmp (compareOn GroupId.number))

instance : Std.LawfulEqOrd ObjectId where
  eq_of_compare {first second} same := by
    have same : compare first.number second.number = .eq := same
    cases first
    exact congrArg ObjectId.mk (Std.LawfulEqCmp.eq_of_compare same)

instance : Std.LawfulEqOrd GlobalId where
  eq_of_compare {first second} same := by
    have same : compare first.number second.number = .eq := same
    cases first
    exact congrArg GlobalId.mk (Std.LawfulEqCmp.eq_of_compare same)

instance : Std.LawfulEqOrd GroupId where
  eq_of_compare {first second} same := by
    have same : compare first.number second.number = .eq := same
    cases first
    exact congrArg GroupId.mk (Std.LawfulEqCmp.eq_of_compare same)

namespace ObjectId

def text (id : ObjectId) : String :=
  s!"ObjectID={id.number.toNat}"

end ObjectId

namespace GlobalId

instance : LE GlobalId := ⟨fun first second => first.number ≤ second.number⟩

instance : LT GlobalId := ⟨fun first second => first.number < second.number⟩

instance (first second : GlobalId) : Decidable (first ≤ second) :=
  inferInstanceAs (Decidable (first.number ≤ second.number))

instance (first second : GlobalId) : Decidable (first < second) :=
  inferInstanceAs (Decidable (first.number < second.number))

theorem not_le {first second : GlobalId} : ¬first ≤ second ↔ second < first :=
  UInt64.not_le

theorem le_refl (id : GlobalId) : id ≤ id :=
  UInt64.le_refl id.number

theorem lt_irrefl (id : GlobalId) : ¬id < id :=
  UInt64.lt_irrefl id.number

theorem ne_of_lt {first second : GlobalId} (below : first < second) : first ≠ second := by
  rintro rfl
  exact lt_irrefl first below

theorem ne_of_gt {first second : GlobalId} (below : first < second) : second ≠ first :=
  (ne_of_lt below).symm

theorem le_of_lt {first second : GlobalId} (below : first < second) : first ≤ second :=
  UInt64.le_of_lt below

theorem le_total (first second : GlobalId) : first ≤ second ∨ second ≤ first :=
  UInt64.le_total first.number second.number

theorem lt_of_le_of_ne {first second : GlobalId} (below : first ≤ second)
    (differ : first ≠ second) : first < second :=
  UInt64.lt_of_le_of_ne below fun same => differ (congrArg GlobalId.mk same)

theorem le_trans {first second third : GlobalId} (left : first ≤ second)
    (right : second ≤ third) : first ≤ third :=
  UInt64.le_trans left right

theorem lt_of_le_of_lt {first second third : GlobalId} (left : first ≤ second)
    (right : second < third) : first < third :=
  UInt64.lt_of_le_of_lt left right

theorem lt_of_lt_of_le {first second third : GlobalId} (left : first < second)
    (right : second ≤ third) : first < third :=
  UInt64.lt_of_lt_of_le left right

def text (id : GlobalId) : String :=
  s!"gtx_{id.number.toNat}"

end GlobalId

namespace GroupId

def text (id : GroupId) : String :=
  s!"{id.number.toNat}"

def groupText (id : GroupId) : String :=
  s!"ActiveServerGroup\x7bgroupId={id.number.toNat}\x7d"

end GroupId

namespace TransactionName

def numberText (number : UInt64) : String :=
  s!"txn_{number.toNat}"

def text (name : TransactionName) : String :=
  s!"{name.source}:{numberText name.number}"

end TransactionName
end SharedGraph
