import SharedGraph.Document.Value
import SharedGraph.MessagePack.Single
import SharedGraph.MessagePack.Token

/-!
# Documents in MessagePack

A document is written with the shortest header for every part and doubles for all
floats.  It is read from any encoding of its parts, down to a given number of levels of
arrays and maps.  Binary strings and application data are no documents; they can only be
skipped.
-/

namespace SharedGraph
namespace MessagePack

/-! ## Writing -/

def writeText (chars : String) : Bytes :=
  (Token.text chars.toUTF8.data.toList).write

def writeInt (number : WideInt) : Bytes :=
  if 0 ≤ number.value then Token.writeUnsigned number.value.toNat
  else Token.writeSigned number.value

mutual

def writeValue : Value → Bytes
  | .null => Token.nil.write
  | .bool truth => (Token.bool truth).write
  | .int number => writeInt number
  | .float number => (Token.double number.bits).write
  | .text chars => writeText chars
  | .array items => Token.writeArrayHeader items.length ++ writeItems items
  | .object fields => Token.writeMapHeader fields.length ++ writeFields fields

def writeItems : List Value → Bytes
  | [] => []
  | item :: rest => writeValue item ++ writeItems rest

def writeFields : List (String × Value) → Bytes
  | [] => []
  | (name, value) :: rest => writeText name ++ writeValue value ++ writeFields rest

end

/-! ## Reading -/

def textOf? (content : Bytes) : Option String :=
  String.fromUTF8? ⟨content.toArray⟩

/-- The document of a double; one that is not finite is null. -/
def valueOfDouble (bits : UInt64) : Value :=
  match FiniteDouble.ofBits? bits with
  | some double => .float double
  | none => .null

namespace Token

def scalar? : Token → Option Value
  | .nil => some .null
  | .bool truth => some (.bool truth)
  | .unsigned word => some (.int (.ofUInt64 word))
  | .signed word => some (.int (.ofInt64 word))
  | .single bits => some (valueOfDouble (widen bits))
  | .double bits => some (valueOfDouble bits)
  | .text content => (textOf? content).map .text
  | .binary _ | .extension .. | .array _ | .map _ => none

def textName? : Token → Option String
  | .text content => textOf? content
  | _ => none

def anyName? : Token → Option String
  | .text content | .binary content => textOf? content
  | _ => none

end Token

variable {α : Type}

def readMany (readOne : Bytes → Option (α × Bytes)) : Nat → Bytes → Option (List α × Bytes)
  | 0, bytes => some ([], bytes)
  | count + 1, bytes =>
    (readOne bytes).bind fun (item, bytes) =>
      (readMany readOne count bytes).map fun (rest, bytes) => (item :: rest, bytes)

/-- Reads a given number of named items; the first name may be read in another way than
the later ones. -/
def readEntries (firstName laterName : Token → Option String)
    (readOne : Bytes → Option (α × Bytes)) : Nat → Bytes → Option (List (String × α) × Bytes)
  | 0, bytes => some ([], bytes)
  | count + 1, bytes =>
    (Token.read bytes).bind fun (token, bytes) =>
      (firstName token).bind fun name =>
        (readOne bytes).bind fun (item, bytes) =>
          (readEntries laterName laterName readOne count bytes).map fun (rest, bytes) =>
            ((name, item) :: rest, bytes)

/-- Reads a document with at most `levels` levels of arrays and maps.  The first name in
a map must be a text. -/
def readValue : Nat → Bytes → Option (Value × Bytes)
  | 0, bytes =>
    (Token.read bytes).bind fun (token, bytes) => token.scalar?.map fun value => (value, bytes)
  | levels + 1, bytes =>
    (Token.read bytes).bind fun (token, bytes) =>
      match token with
      | .array count =>
        (readMany (readValue levels) count bytes).map fun (items, bytes) => (.array items, bytes)
      | .map count =>
        (readEntries Token.textName? Token.anyName? (readValue levels) count bytes).map
          fun (fields, bytes) => (Value.ofFields fields, bytes)
      | scalar => scalar.scalar?.map fun value => (value, bytes)

def repeatSkip (skipOne : Bytes → Option Bytes) : Nat → Bytes → Option Bytes
  | 0, bytes => some bytes
  | count + 1, bytes => (skipOne bytes).bind (repeatSkip skipOne count)

/-- Skips anything with at most `levels` levels; application data counts as one. -/
def skip : Nat → Bytes → Option Bytes
  | 0, bytes =>
    (Token.read bytes).bind fun (token, bytes) =>
      match token with
      | .array _ | .map _ | .extension .. => none
      | _ => some bytes
  | levels + 1, bytes =>
    (Token.read bytes).bind fun (token, bytes) =>
      match token with
      | .array count => repeatSkip (skip levels) count bytes
      | .map count => repeatSkip (skip levels) (2 * count) bytes
      | _ => some bytes

end MessagePack
end SharedGraph
