import SharedGraph.Data.SortedMap

/-!
# Documents

Field values, change actions and configuration documents are trees of null, booleans,
numbers, texts, arrays and objects.  Integers and doubles are different values.  Two
values count as the same when they agree up to the sign of a zero.
-/

namespace SharedGraph

/-- An integer that fits a signed or an unsigned 64-bit word. -/
structure WideInt where
  value : Int
  low : -9223372036854775808 ≤ value
  high : value < 18446744073709551616
deriving DecidableEq

namespace WideInt

instance : Inhabited WideInt := ⟨0, by decide, by decide⟩

def ofInt? (value : Int) : Option WideInt :=
  if range : -9223372036854775808 ≤ value ∧ value < 18446744073709551616 then
    some ⟨value, range.1, range.2⟩
  else none

def ofUInt64 (word : UInt64) : WideInt where
  value := word.toNat
  low := by omega
  high := by have := word.toNat_lt; omega

def ofInt64 (word : Int64) : WideInt where
  value := word.toInt
  low := word.le_toInt
  high := by have := word.toInt_lt; omega

def below? (number : WideInt) (bound : Nat) : Option Nat :=
  if 0 ≤ number.value ∧ number.value < bound then some number.value.toNat else none

end WideInt

/-- The bits of a finite double. -/
structure FiniteDouble where
  bits : UInt64
  finite : (bits >>> 52) &&& 0x7FF ≠ 0x7FF
deriving DecidableEq

namespace FiniteDouble

def ofBits? (bits : UInt64) : Option FiniteDouble :=
  if finite : (bits >>> 52) &&& 0x7FF ≠ 0x7FF then some ⟨bits, finite⟩ else none

def isZero (double : FiniteDouble) : Bool :=
  double.bits <<< 1 == 0

/-- Equality of the two numbers: equal bits, or two zeros. -/
def same (first second : FiniteDouble) : Bool :=
  first.bits == second.bits || first.isZero && second.isZero

end FiniteDouble

inductive Value where
  | null
  | bool (truth : Bool)
  | int (number : WideInt)
  | float (number : FiniteDouble)
  | text (chars : String)
  | array (items : List Value)
  | object (fields : List (String × Value))

namespace Value

instance : Inhabited Value := ⟨.null⟩

def ofUInt64 (word : UInt64) : Value :=
  .int (.ofUInt64 word)

/-- The object with these fields; of two fields with one name the later wins. -/
def ofFields (fields : List (String × Value)) : Value :=
  .object (SortedMap.ofList fields).entries

/-! ## Sameness -/

mutual

/-- Whether two documents agree up to the sign of a zero. -/
def same : Value → Value → Bool
  | .null, .null => true
  | .bool first, .bool second => first == second
  | .int first, .int second => first == second
  | .float first, .float second => first.same second
  | .text first, .text second => first == second
  | .array first, .array second => sameItems first second
  | .object first, .object second => sameFields first second
  | _, _ => false

def sameItems : List Value → List Value → Bool
  | [], [] => true
  | first :: rest, second :: others => first.same second && sameItems rest others
  | _, _ => false

def sameFields : List (String × Value) → List (String × Value) → Bool
  | [], [] => true
  | (name, first) :: rest, (other, second) :: others =>
    name == other && first.same second && sameFields rest others
  | _, _ => false

end

/-! ## Nesting -/

mutual

/-- How many arrays and objects lie around the innermost part. -/
def depth : Value → Nat
  | .array items => depthItems items + 1
  | .object fields => depthFields fields + 1
  | _ => 0

def depthItems : List Value → Nat
  | [] => 0
  | item :: rest => max item.depth (depthItems rest)

def depthFields : List (String × Value) → Nat
  | [] => 0
  | (_, value) :: rest => max value.depth (depthFields rest)

end

/-! ## Ordered objects -/

mutual

/-- Whether every object in the document lists its fields by ascending name, as
`ofFields` does; such a document has one form only. -/
def Ordered : Value → Prop
  | .array items => OrderedItems items
  | .object fields =>
    (fields.Pairwise fun first second => compare first.1 second.1 = .lt) ∧ OrderedFields fields
  | _ => True

def OrderedItems : List Value → Prop
  | [] => True
  | item :: rest => item.Ordered ∧ OrderedItems rest

def OrderedFields : List (String × Value) → Prop
  | [] => True
  | (_, value) :: rest => value.Ordered ∧ OrderedFields rest

end

end Value
end SharedGraph
