import SharedGraph.Data.SortedMap
import SharedGraph.Failure
import SharedGraph.MessagePack.Document
import SharedGraph.Store.ObjectKind

/-!
# Stored objects

A stored value is the id of its object in eight bytes, the tag of its type, and a
MessagePack body with the version and the fields.  The type can be read without the
body.  A body is written as an array of two; it is also read as a map, whatever order its
keys have and whatever else they name, and bytes after it do not count.
-/

namespace SharedGraph

structure StoredObject where
  id : ObjectId
  kind : ObjectKind
  version : UInt64 := 1
  fields : SortedMap String Value := ∅

namespace StoredObject

open MessagePack

/-- Sameness of objects; field values count as the same up to the sign of a zero. -/
def same (first second : StoredObject) : Bool :=
  first.id == second.id && first.kind == second.kind && first.version == second.version &&
    Value.sameFields first.fields.toList second.fields.toList

def tagOffset : Nat := 8

def headerLength : Nat := 9

/-- How many levels of arrays and maps a body may have, itself included. -/
def bodyLevels : Nat := 1023

/-- The type of a stored value, from its tag alone. -/
def classify (id : ObjectId) (bytes : Bytes) : Except Failure ObjectKind :=
  match bytes[tagOffset]? with
  | none => .error (.shortValue id bytes.length)
  | some tag =>
    match ObjectKind.ofTag? tag with
    | some kind => .ok kind
    | none => .error (.unknownTag id tag)

/-! ## Writing -/

def writeBody (version : UInt64) (fields : SortedMap String Value) : Bytes :=
  Token.writeArrayHeader 2 ++ Token.writeUnsigned version.toNat ++
    (Token.writeMapHeader fields.size ++ writeFields fields.toList)

def encode (object : StoredObject) : Bytes :=
  writeWord tagOffset object.id.number.toNat ++ object.kind.tag ::
    writeBody object.version object.fields

/-! ## Reading -/

/-- A body as far as it has been read. -/
structure PartialBody where
  version : Option UInt64 := none
  fields : Option (SortedMap String Value) := none

inductive BodyPart where
  | version
  | fields
  | unknown
deriving DecidableEq

/-- The part that a key names: by its name, or by its place as an unsigned integer. -/
def BodyPart.ofKey? : Token → Option BodyPart
  | .unsigned word => some (if word = 0 then .version else if word = 1 then .fields else .unknown)
  | .text name | .binary name =>
    some (if name = "version".toUTF8.data.toList then .version
      else if name = "fields".toUTF8.data.toList then .fields
      else .unknown)
  | _ => none

def readVersion (bytes : Bytes) : Option (UInt64 × Bytes) :=
  (Token.read bytes).bind fun (token, bytes) =>
    match token with
    | .unsigned word => some (word, bytes)
    | .signed word => if 0 ≤ word.toInt then some (word.toUInt64, bytes) else none
    | _ => none

def readFields (levels : Nat) (bytes : Bytes) : Option (SortedMap String Value × Bytes) :=
  (Token.read bytes).bind fun (token, bytes) =>
    match token with
    | .map count =>
      (readEntries Token.anyName? Token.anyName? (readValue levels) count bytes).map
        fun (fields, bytes) => (SortedMap.ofList fields, bytes)
    | _ => none

/-- One entry of a body that is a map; a part that is named twice is refused. -/
def readPart (levels : Nat) (body : PartialBody) (bytes : Bytes) : Option (PartialBody × Bytes) :=
  (Token.read bytes).bind fun (key, bytes) =>
    (BodyPart.ofKey? key).bind fun part =>
      match part, body.version, body.fields with
      | .version, none, _ =>
        (readVersion bytes).map fun (version, bytes) =>
          ({ body with version := some version }, bytes)
      | .fields, _, none =>
        (readFields (levels - 1) bytes).map fun (fields, bytes) =>
          ({ body with fields := some fields }, bytes)
      | .unknown, _, _ => (skip levels bytes).map fun bytes => (body, bytes)
      | _, _, _ => none

def readParts (levels : Nat) : Nat → PartialBody → Bytes → Option PartialBody
  | 0, body, _ => some body
  | count + 1, body, bytes =>
    (readPart levels body bytes).bind fun (body, bytes) => readParts levels count body bytes

def readBody (bytes : Bytes) : Option (UInt64 × SortedMap String Value) :=
  (Token.read bytes).bind fun (token, bytes) =>
    match token with
    | .array 2 =>
      (readVersion bytes).bind fun (version, bytes) =>
        (readFields (bodyLevels - 2) bytes).map fun (fields, _) => (version, fields)
    | .map count =>
      (readParts (bodyLevels - 1) count {} bytes).bind fun body =>
        body.version.bind fun version => body.fields.map fun fields => (version, fields)
    | _ => none

def decode (bytes : Bytes) : Except Failure StoredObject :=
  if bytes.length < headerLength then .error (.shortObject bytes.length headerLength)
  else
    let id : ObjectId := ⟨UInt64.ofNat (wordValue (bytes.take tagOffset))⟩
    match classify id bytes with
    | .error failure => .error failure
    | .ok kind =>
      match readBody (bytes.drop headerLength) with
      | none => .error .malformedBody
      | some (version, fields) => .ok { id, kind, version, fields }

end StoredObject
end SharedGraph
