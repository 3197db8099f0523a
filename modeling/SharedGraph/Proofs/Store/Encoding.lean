import SharedGraph.Proofs.MessagePack.Document
import SharedGraph.Proofs.Store.Observation

/-!
# Stored objects read back

An object is read back from its encoding, whatever bytes follow it, exactly if its fields are
nested no deeper than a reader admits.  Other bytes may be read as an object too; what they are
read as can always be encoded and read back, so encoding it again gives a normal form.
-/

namespace SharedGraph
namespace StoredObject

open MessagePack

variable {object : StoredObject} {bytes rest : Bytes} {levels : Nat}
variable {fields : SortedMap String Value}

/-- How many arrays and objects lie around the innermost part of a field. -/
def depth (object : StoredObject) : Nat :=
  Value.depthFields object.fields.entries

def fieldLevels : Nat :=
  bodyLevels - 2

/-- Whether the objects in the fields list their names in order, and all lengths fit into
headers. -/
structure WellFormed (object : StoredObject) : Prop where
  ordered : Value.OrderedFields object.fields.entries
  count : object.fields.size < capacity 4
  fits : Value.FitsFields object.fields.entries

/-- The tokens of the body of an object: an array of its version and a map of its fields. -/
def bodyTokens (object : StoredObject) : List Token :=
  .array 2 :: .unsigned object.version :: .map object.fields.size ::
    Value.tokensOfFields object.fields.entries

/-!
## Bodies
-/

theorem writeBody_eq (object : StoredObject) :
    writeBody object.version object.fields = object.bodyTokens.flatMap Token.write := by
  rw [writeBody, bodyTokens, List.flatMap_cons, List.flatMap_cons, List.flatMap_cons,
    List.append_assoc, ← writeFields_eq]
  rfl

theorem readFields_write (levels : Nat) (hcount : fields.size < capacity 4)
    (hordered : Value.OrderedFields fields.entries) (hfits : Value.FitsFields fields.entries)
    (rest : Bytes) :
    readFields levels (Token.writeMapHeader fields.size ++ writeFields fields.toList ++ rest) =
      if Value.depthFields fields.entries ≤ levels then some (fields, rest) else none := by
  have hheader := Token.read_writeMapHeader hcount (writeFields fields.toList ++ rest)
  have hentries := readEntries_writeFields fields.entries Token.anyName? levels rest
    (fun _ => rfl) hfits hordered
  rw [readFields, List.append_assoc, hheader, Option.bind_some]
  dsimp only
  rw [SortedMap.size, SortedMap.toList, hentries]
  split
  · rw [Option.map_some, SortedMap.ofList_entries]
  · rfl

theorem readVersion_write (version : UInt64) (rest : Bytes) :
    readVersion (Token.writeUnsigned version.toNat ++ rest) = some (version, rest) := by
  have hread := Token.read_write (.unsigned version) trivial rest
  rw [Token.write] at hread
  rw [readVersion, hread]
  rfl

theorem readBody_write (hformed : object.WellFormed) (rest : Bytes) :
    readBody (writeBody object.version object.fields ++ rest) =
      if object.depth ≤ fieldLevels then some (object.version, object.fields) else none := by
  have hfields := readFields_write fieldLevels hformed.count hformed.ordered hformed.fits rest
  rw [readBody, writeBody, List.append_assoc, List.append_assoc,
    Token.read_writeArrayHeader (by decide), Option.bind_some]
  dsimp only
  rw [readVersion_write, Option.bind_some]
  dsimp only
  rw [← fieldLevels, hfields]
  unfold depth
  by_cases hdepth : Value.depthFields object.fields.entries ≤ fieldLevels
  · rw [if_pos hdepth, if_pos hdepth]
    rfl
  · rw [if_neg hdepth, if_neg hdepth]
    rfl

/-!
## Whole values
-/

theorem decode_header (id : ObjectId) (kind : ObjectKind) (body : Bytes) :
    decode (writeWord tagOffset id.number.toNat ++ kind.tag :: body) =
      match readBody body with
      | none => .error .malformedBody
      | some (version, fields) => .ok { id, kind, version, fields } := by
  have hlength : ¬(writeWord tagOffset id.number.toNat ++ kind.tag :: body).length <
      headerLength := by
    rw [List.length_append, length_writeWord, List.length_cons, tagOffset, headerLength]
    omega
  have hword : (writeWord tagOffset id.number.toNat ++ kind.tag :: body).take tagOffset =
      writeWord tagOffset id.number.toNat :=
    List.take_left' (length_writeWord _ _)
  have hid : wordValue (writeWord tagOffset id.number.toNat) = id.number.toNat := by
    rw [wordValue_writeWord]
    exact Nat.mod_eq_of_lt id.number.toNat_lt
  have hbody : (writeWord tagOffset id.number.toNat ++ kind.tag :: body).drop headerLength =
      body := by
    rw [List.append_cons]
    exact List.drop_left' (by simp [tagOffset, headerLength])
  have hkind : ∀ other, classify other (writeWord tagOffset id.number.toNat ++ kind.tag :: body) =
      .ok kind := by
    intro other
    rw [classify_eq_ok_iff, kindOf?, List.getElem?_append_right (by simp), length_writeWord]
    exact ObjectKind.ofTag?_tag kind
  rw [decode, if_neg hlength, hword, hid, UInt64.ofNat_toNat, hbody]
  cases readBody body with
  | none => simp only [hkind]
  | some parts => simp only [hkind]

/-- An object is read back from its encoding, whatever follows it, if its fields are not nested
too deeply; else its body is refused. -/
theorem decode_encode_append (hformed : object.WellFormed) (rest : Bytes) :
    decode (object.encode ++ rest) =
      if object.depth ≤ fieldLevels then .ok object else .error .malformedBody := by
  rw [encode, List.append_assoc, List.cons_append, decode_header, readBody_write hformed]
  by_cases hdepth : object.depth ≤ fieldLevels
  · rw [if_pos hdepth, if_pos hdepth]
  · rw [if_neg hdepth, if_neg hdepth]

/-!
## Objects that are read
-/

structure WritableFields (levels : Nat) (fields : SortedMap String Value) : Prop where
  depth : Value.depthFields fields.entries ≤ levels
  ordered : Value.OrderedFields fields.entries
  count : fields.size < capacity 4
  fits : Value.FitsFields fields.entries

theorem writable_of_readFields (hread : readFields levels bytes = some (fields, rest)) :
    WritableFields levels fields := by
  rcases Option.bind_eq_some_iff.1 hread with ⟨⟨token, left⟩, htoken, hmap⟩
  rcases Token.exists_encoding_of_read htoken with ⟨front, -, hencodes⟩
  cases token with
  | map count =>
    rcases Option.map_eq_some_iff.1 hmap with ⟨⟨entries, last⟩, hentries, hpair⟩
    cases hpair
    rcases readEntries_eq_some keepsLength_anyName keepsLength_anyName
      (fun _ _ _ => writable_of_readValue) hentries with ⟨rfl, hall⟩
    have hkept : ∀ field ∈ (SortedMap.ofList entries).entries,
        field.1.utf8ByteSize < capacity 4 ∧ field.2.Writable levels :=
      fun field hfield => hall field (SortedMap.mem_of_mem_ofList hfield)
    rcases writable_fields hkept with ⟨hdepth, hordered, hfits⟩
    exact ⟨hdepth, hordered, Nat.lt_of_le_of_lt (SortedMap.size_ofList_le entries) hencodes.fits,
      hfits⟩
  | _ => cases hmap

def WritableBody (levels : Nat) (body : PartialBody) : Prop :=
  ∀ fields, body.fields = some fields → WritableFields levels fields

theorem writableBody_of_readPart {body next : PartialBody}
    (hbody : WritableBody (levels - 1) body)
    (hread : readPart levels body bytes = some (next, rest)) : WritableBody (levels - 1) next := by
  rcases Option.bind_eq_some_iff.1 hread with ⟨⟨key, left⟩, hkey, hpart⟩
  rcases Option.bind_eq_some_iff.1 hpart with ⟨part, hnamed, hvalue⟩
  dsimp only at hvalue
  split at hvalue
  case h_1 =>
    rcases Option.map_eq_some_iff.1 hvalue with ⟨⟨version, last⟩, hversion, hpair⟩
    cases hpair
    exact hbody
  case h_2 =>
    rcases Option.map_eq_some_iff.1 hvalue with ⟨⟨fields, last⟩, hfields, hpair⟩
    cases hpair
    intro other hother
    cases hother
    exact writable_of_readFields hfields
  case h_3 =>
    rcases Option.map_eq_some_iff.1 hvalue with ⟨last, hskip, hpair⟩
    cases hpair
    exact hbody
  case h_4 => cases hvalue

theorem writableBody_of_readParts {count : Nat} {body next : PartialBody}
    (hbody : WritableBody (levels - 1) body)
    (hread : readParts levels count body bytes = some next) : WritableBody (levels - 1) next := by
  induction count generalizing body bytes with
  | zero =>
    cases hread
    exact hbody
  | succ count ih =>
    rcases Option.bind_eq_some_iff.1 hread with ⟨⟨middle, left⟩, hpart, hparts⟩
    exact ih (writableBody_of_readPart hbody hpart) hparts

theorem writable_of_readBody {version : UInt64}
    (hread : readBody bytes = some (version, fields)) : WritableFields fieldLevels fields := by
  rcases Option.bind_eq_some_iff.1 hread with ⟨⟨token, left⟩, htoken, hbody⟩
  dsimp only at hbody
  split at hbody
  case h_1 =>
    rcases Option.bind_eq_some_iff.1 hbody with ⟨⟨version, last⟩, hversion, hrest⟩
    rcases Option.map_eq_some_iff.1 hrest with ⟨⟨fields, final⟩, hfields, hpair⟩
    cases hpair
    exact writable_of_readFields hfields
  case h_2 =>
    rcases Option.bind_eq_some_iff.1 hbody with ⟨body, hparts, hversion⟩
    rcases Option.bind_eq_some_iff.1 hversion with ⟨version, hfound, hrest⟩
    rcases Option.map_eq_some_iff.1 hrest with ⟨fields, hfields, hpair⟩
    cases hpair
    have hnone : WritableBody (bodyLevels - 1 - 1) {} := by
      intro other hother
      cases hother
    exact writableBody_of_readParts hnone hparts fields hfields
  case h_3 => cases hbody

theorem decode_eq_ok (hdecode : decode bytes = .ok object) :
    object.WellFormed ∧ object.depth ≤ fieldLevels ∧ kindOf? bytes = some object.kind := by
  unfold decode at hdecode
  split at hdecode
  case isTrue => cases hdecode
  case isFalse =>
    dsimp only at hdecode
    split at hdecode
    case h_1 => cases hdecode
    case h_2 kind hkind =>
      split at hdecode
      case h_1 => cases hdecode
      case h_2 version fields hbody =>
        cases hdecode
        have hwritable := writable_of_readBody hbody
        refine ⟨⟨hwritable.ordered, hwritable.count, hwritable.fits⟩, hwritable.depth, ?_⟩
        exact classify_eq_ok_iff.1 hkind

/-!
## Round trips
-/

theorem decode_encode (hformed : object.WellFormed) (hdepth : object.depth ≤ fieldLevels) :
    decode object.encode = .ok object := by
  have hread := decode_encode_append hformed []
  rwa [List.append_nil, if_pos hdepth] at hread

/-- An object whose fields are nested no deeper than a reader admits is read back from its
encoding, and so is its type.  The encoding is the id, the tag and the tokens of the body, none
of which has a shorter encoding. -/
theorem encoding_reads_back (hformed : object.WellFormed) (hdepth : object.depth ≤ fieldLevels) :
    decode object.encode = .ok object ∧ classify object.id object.encode = .ok object.kind ∧
      object.encode = writeWord tagOffset object.id.number.toNat ++
        object.kind.tag :: object.bodyTokens.flatMap Token.write ∧
      ∀ token ∈ object.bodyTokens, ∀ front rest,
        Token.read (front ++ rest) = some (token, rest) →
          token.write.length ≤ front.length := by
  refine ⟨decode_encode hformed hdepth, classify_encode object object.id, ?_, ?_⟩
  · rw [encode, writeBody_eq]
  · intro token _ front rest hother
    exact Token.length_write_le hother

def nested : StoredObject where
  id := ⟨7⟩
  kind := .map
  fields :=
    { entries := [
        ("counts", .array [.int (.ofInt64 (-300)), .int (.ofUInt64 70000), .null]),
        ("note", .object [("half", .float ⟨0x3fe0000000000000, by decide⟩), ("text", .text "é")])]
      ascending := by decide }

theorem nested_wellFormed : nested.WellFormed := by
  constructor
  · simp [nested, Value.OrderedFields, Value.Ordered, Value.OrderedItems]
    decide
  · decide
  · simp [nested, Value.FitsFields, Value.Fits, Value.FitsItems, capacity]
    decide

theorem nested_depth : nested.depth ≤ fieldLevels := by
  decide

theorem nested_reads_back :
    nested.depth ≤ fieldLevels ∧ decode nested.encode = .ok nested :=
  ⟨nested_depth, (encoding_reads_back nested_wellFormed nested_depth).1⟩

/-- What is read can be encoded and read back, and then has its encoding again.  What is read
from an encoding with something behind it has that same encoding, unless the reader refuses it
for its depth. -/
theorem encoding_stable :
    (∀ bytes object, decode bytes = .ok object →
      object.WellFormed ∧ object.depth ≤ fieldLevels ∧
        (∀ id, classify id bytes = .ok object.kind) ∧
        decode object.encode = .ok object ∧
        (decode object.encode).map encode = .ok object.encode) ∧
      ∀ object, WellFormed object → ∀ rest, (decode (object.encode ++ rest)).map encode =
        if object.depth ≤ fieldLevels then .ok object.encode else .error .malformedBody := by
  constructor
  · intro bytes object hdecode
    rcases decode_eq_ok hdecode with ⟨hformed, hdepth, hkind⟩
    have hagain := decode_encode hformed hdepth
    refine ⟨hformed, hdepth, ?_, hagain, ?_⟩
    · intro id
      exact classify_eq_ok_iff.2 hkind
    · rw [hagain]
      rfl
  · intro object hformed rest
    rw [decode_encode_append hformed]
    split <;> rfl

/-- A stored value as others may write it.  Its body is a map with an unknown part, and its
fields are not in order, one is there twice, and another is a float that is no number. -/
def foreign : Bytes :=
  [0, 0, 0, 0, 0, 0, 0, 7, 1,
    0x83, 0xa6, 102, 105, 101, 108, 100, 115,
    0x83, 0xa1, 98, 0xca, 0x7f, 0xc0, 0, 0, 0xa1, 97, 0xd1, 0, 5, 0xd9, 1, 97, 0xd0, 6,
    0xa1, 120, 0xc4, 1, 9,
    0xa7, 118, 101, 114, 115, 105, 111, 110, 0xcd, 0, 3, 1, 2]

def foreignObject : StoredObject where
  id := ⟨7⟩
  kind := .physical
  version := 3
  fields := { entries := [("a", .int (.ofInt64 6)), ("b", .null)], ascending := by decide }

set_option maxRecDepth 2000 in
theorem decode_foreign : decode foreign = .ok foreignObject := rfl

theorem foreign_stable :
    (decode foreign = .ok foreignObject ∧
      (decode foreignObject.encode).map encode = .ok foreignObject.encode) ∧
      (decode (nested.encode ++ [1])).map encode = .ok nested.encode := by
  constructor
  · exact ⟨decode_foreign, (encoding_stable.1 foreign foreignObject decode_foreign).2.2.2.2⟩
  · have hnested := encoding_stable.2 nested nested_wellFormed [1]
    rwa [if_pos nested_depth] at hnested

end StoredObject
end SharedGraph
