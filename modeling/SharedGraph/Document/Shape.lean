import SharedGraph.Document.Value

/-!
# Shapes of documents

How values of the library's own types stand in documents.  A structure is an object with
one field per part, or an array of its parts in their declared order; a choice is the
bare name of an alternative, or an object whose only field is named for it.  Parts that
the type does not know are ignored in an object and refused in an array.
-/

namespace SharedGraph
namespace Value

variable {α : Type}

/-! ## Single values -/

def asBool? : Value → Option Bool
  | .bool truth => some truth
  | _ => none

def asText? : Value → Option String
  | .text chars => some chars
  | _ => none

def asBelow? (bound : Nat) : Value → Option Nat
  | .int number => number.below? bound
  | _ => none

def asUInt64? (value : Value) : Option UInt64 :=
  (value.asBelow? UInt64.size).map UInt64.ofNat

def asUInt32? (value : Value) : Option UInt32 :=
  (value.asBelow? UInt32.size).map UInt32.ofNat

def asUInt16? (value : Value) : Option UInt16 :=
  (value.asBelow? UInt16.size).map UInt16.ofNat

def asList? (read : Value → Option α) : Value → Option (List α)
  | .array items => items.mapM read
  | _ => none

def asMap? (read : Value → Option α) : Value → Option (SortedMap String α)
  | .object fields =>
    (fields.mapM fun field => (read field.2).map (field.1, ·)).map SortedMap.ofList
  | _ => none

/-! ## Lists and options -/

def ofList (write : α → Value) (items : List α) : Value :=
  .array (items.map write)

def ofOption (write : α → Value) : Option α → Value
  | some item => write item
  | none => .null

/-! ## Structures -/

def field? (name : String) (fields : List (String × Value)) : Option Value :=
  SortedMap.lookup name fields

def namedParts? (names : List String) : Value → Option (List (Option Value))
  | .object fields => some (names.map fun name => field? name fields)
  | _ => none

/-- The parts of a structure, named in declared order; parts at the end may be missing. -/
def parts? (names : List String) : Value → Option (List (Option Value))
  | .object fields => some (names.map fun name => field? name fields)
  | .array items =>
    if items.length ≤ names.length then
      some (items.map some ++ List.replicate (names.length - items.length) none)
    else none
  | _ => none

def required (read : Value → Option α) (part : Option Value) : Option α :=
  part.bind read

def defaulting (fallback : α) (read : Value → Option α) : Option Value → Option α
  | none => some fallback
  | some value => read value

/-! ## Choices -/

def alternative? : Value → Option (String × Option Value)
  | .text name => some (name, none)
  | .object [(name, content)] => some (name, some content)
  | _ => none

/-- One of several alternatives without content; null counts as none. -/
def choice? (ofName : String → Option α) (value : Value) : Option α :=
  match value.alternative? with
  | some (name, none) | some (name, some .null) => ofName name
  | _ => none

end Value
end SharedGraph
