import SharedGraph.Proofs.MessagePack.Delimiting
import SharedGraph.Proofs.Store.Encoding

/-!
# Stored values tell their end

The encoding of an object tells where it ends.  Bytes behind it make no difference, a value that has
lost bytes at its end is refused, and no encoding starts with the encoding of another object
(`encoding_delimits`).  The first nine bytes of a value have a fixed length; from there on it is the
reading of the body that delimits, and it takes an encoded body as a whole.
-/

namespace SharedGraph
namespace StoredObject

open MessagePack

variable {object other : StoredObject} {front more first second : Bytes}

/-!
## Bodies
-/

theorem delimits_readVersion : Delimits readVersion := by
  apply delimits_read.bind
  intro token
  cases token with
  | unsigned word => exact Delimits.done word
  | signed word =>
    dsimp only
    split
    · exact Delimits.done word.toUInt64
    · exact Delimits.nothing
  | _ => exact Delimits.nothing

theorem delimits_readFields (levels : Nat) : Delimits (readFields levels) := by
  apply delimits_read.bind
  intro token
  cases token with
  | map count =>
    have hentries := delimits_readEntries (delimits_readValue levels) Token.anyName?
      Token.anyName? count
    exact hentries.map SortedMap.ofList fun _ _ => rfl
  | _ => exact Delimits.nothing

def readListed (levels : Nat) (bytes : Bytes) :
    Option ((UInt64 × SortedMap String Value) × Bytes) :=
  (Token.read bytes).bind fun (token, bytes) =>
    if token = .array 2 then
      (readVersion bytes).bind fun (version, bytes) =>
        (readFields levels bytes).map fun (fields, bytes) => ((version, fields), bytes)
    else none

theorem delimits_readListed (levels : Nat) : Delimits (readListed levels) := by
  apply delimits_read.bind
  intro token
  change Delimits fun bytes => if token = .array 2 then (readVersion bytes).bind _ else none
  split
  · apply delimits_readVersion.bind
    intro version
    exact (delimits_readFields levels).map (version, ·) fun _ _ => rfl
  · exact Delimits.nothing

theorem read_writeBody (object : StoredObject) (rest : Bytes) :
    Token.read (writeBody object.version object.fields ++ rest) =
      some (.array 2, Token.writeUnsigned object.version.toNat ++
        (Token.writeMapHeader object.fields.size ++ writeFields object.fields.toList ++ rest)) := by
  rw [writeBody, List.append_assoc, List.append_assoc,
    Token.read_writeArrayHeader (by decide)]

theorem readListed_write (hformed : object.WellFormed) (levels : Nat) (rest : Bytes) :
    readListed levels (writeBody object.version object.fields ++ rest) =
      if object.depth ≤ levels then some ((object.version, object.fields), rest) else none := by
  have hfields := readFields_write levels hformed.count hformed.ordered hformed.fits rest
  rw [readListed, read_writeBody, Option.bind_some]
  dsimp only
  rw [if_pos rfl, readVersion_write, Option.bind_some]
  dsimp only
  rw [hfields, depth]
  split <;> rfl

theorem readBody_of_array {left : Bytes} (hread : Token.read front = some (.array 2, left)) :
    readBody front = (readListed fieldLevels front).map Prod.fst := by
  rw [readBody, readListed, hread, Option.bind_some, Option.bind_some]
  dsimp only
  rw [if_pos rfl, fieldLevels]
  cases readVersion left with
  | none => rfl
  | some found =>
    rcases found with ⟨version, bytes⟩
    rw [Option.bind_some, Option.bind_some]
    dsimp only
    rw [Option.map_map]
    rfl

theorem readBody_of_cut (hformed : object.WellFormed)
    (hcut : front ++ more = writeBody object.version object.fields) (hmore : more ≠ []) :
    readBody front = none := by
  have hwhole := readListed_write hformed fieldLevels []
  rw [List.append_nil, ← hcut] at hwhole
  have hlisted : readListed fieldLevels front = none := by
    split at hwhole
    · exact (delimits_readListed fieldLevels).eq_none hwhole hmore
    · cases hread : readListed fieldLevels front with
      | none => rfl
      | some found =>
        rw [delimits_readListed fieldLevels front found.1 found.2 hread more] at hwhole
        cases hwhole
  cases hread : Token.read front with
  | none =>
    rw [readBody, hread]
    rfl
  | some found =>
    rcases found with ⟨token, left⟩
    -- the whole body begins with the header of an array, so this part of it does
    have hfirst := delimits_read front token left hread more
    rw [hcut, ← List.append_nil (writeBody _ _), read_writeBody, Option.some.injEq,
      Prod.mk.injEq] at hfirst
    rw [← hfirst.1] at hread
    rw [readBody_of_array hread, hlisted]
    rfl

/-!
## Whole values
-/

def header (object : StoredObject) : Bytes :=
  writeWord tagOffset object.id.number.toNat ++ [object.kind.tag]

theorem length_header (object : StoredObject) : object.header.length = headerLength := by
  rw [header, List.length_append, length_writeWord]
  rfl

theorem encode_eq (object : StoredObject) :
    object.encode = object.header ++ writeBody object.version object.fields := by
  rw [encode, header, List.append_assoc]
  rfl

theorem decode_header_append (object : StoredObject) (body : Bytes) (hbody : readBody body = none) :
    decode (object.header ++ body) = .error .malformedBody := by
  rw [header, List.append_assoc]
  exact (decode_header object.id object.kind body).trans (by rw [hbody])

theorem decode_of_cut (hformed : object.WellFormed) (hcut : front ++ more = object.encode)
    (hmore : more ≠ []) :
    decode front = .error (if front.length < headerLength then
      .shortObject front.length headerLength else .malformedBody) := by
  by_cases hshort : front.length < headerLength
  · rw [decode, if_pos hshort, if_pos hshort]
  · rw [if_neg hshort]
    have hlong : object.header.length ≤ front.length := by
      rw [length_header]
      exact Nat.le_of_not_lt hshort
    have hprefix : object.header <+: front := by
      apply List.prefix_of_prefix_length_le _ (List.prefix_append front more) hlong
      rw [hcut, encode_eq]
      exact List.prefix_append _ _
    rcases hprefix with ⟨body, rfl⟩
    rw [encode_eq, List.append_assoc] at hcut
    exact decode_header_append object body
      (readBody_of_cut hformed (List.append_cancel_left hcut) hmore)

theorem eq_of_header_eq (hheader : other.header = object.header) :
    other.id = object.id ∧ other.kind = object.kind := by
  rcases List.append_inj hheader (by rw [length_writeWord, length_writeWord]) with ⟨hword, htag⟩
  constructor
  · have hfits : ∀ id : ObjectId, id.number.toNat % capacity tagOffset = id.number.toNat :=
      fun id => Nat.mod_eq_of_lt id.number.toNat_lt
    have hnumber := congrArg wordValue hword
    rw [wordValue_writeWord, wordValue_writeWord, hfits, hfits] at hnumber
    exact congrArg ObjectId.mk (UInt64.toNat_inj.1 hnumber)
  · have hkind := congrArg ObjectKind.ofTag? (List.head_eq_of_cons_eq htag)
    rw [ObjectKind.ofTag?_tag, ObjectKind.ofTag?_tag] at hkind
    exact Option.some.inj hkind

theorem encode_append_inj (hother : other.WellFormed) (hformed : object.WellFormed)
    (hsame : other.encode ++ first = object.encode ++ second) :
    other = object ∧ first = second := by
  rw [encode_eq, encode_eq, List.append_assoc, List.append_assoc] at hsame
  rcases List.append_inj hsame (by rw [length_header, length_header]) with ⟨hheader, hbodies⟩
  have hlevels := readListed_write hother (max other.depth object.depth) first
  rw [hbodies, readListed_write hformed, if_pos (Nat.le_max_right _ _),
    if_pos (Nat.le_max_left _ _), Option.some.injEq, Prod.mk.injEq, Prod.mk.injEq] at hlevels
  rcases hlevels with ⟨⟨hversion, hfields⟩, hrest⟩
  rcases eq_of_header_eq hheader with ⟨hid, hkind⟩
  constructor
  · cases object
    cases other
    simp_all
  · exact hrest.symm

/-- An object is read from its encoding, whatever follows; a value that is only the front of its
encoding is refused; and no other object has an encoding that is the front of this one. -/
theorem encoding_delimits (hformed : object.WellFormed) (hdepth : object.depth ≤ fieldLevels) :
    (∀ rest, decode (object.encode ++ rest) = .ok object) ∧
      (∀ front, front <+: object.encode → front ≠ object.encode →
        decode front = .error (if front.length < headerLength then
          .shortObject front.length headerLength else .malformedBody)) ∧
      ∀ other, WellFormed other → other.encode <+: object.encode → other = object := by
  constructor
  · intro rest
    rw [decode_encode_append hformed, if_pos hdepth]
  · constructor
    · intro front hfront hproper
      rcases hfront with ⟨more, hcut⟩
      apply decode_of_cut hformed hcut
      intro hnone
      rw [hnone, List.append_nil] at hcut
      exact hproper hcut
    · intro other hother hfront
      rcases hfront with ⟨more, hcut⟩
      rw [← List.append_nil object.encode] at hcut
      exact (encode_append_inj hother hformed hcut).1

/-- An object inside a stream of bytes, and the same object cut off within its header, right behind
it, and within a number of its body. -/
theorem nested_delimited :
    (nested.WellFormed ∧ nested.depth ≤ fieldLevels) ∧
      decode (nested.encode ++ [0x92, 0xc1]) = .ok nested ∧
      decode (nested.encode.take 8) = .error (.shortObject 8 9) ∧
      decode (nested.encode.take 9) = .error .malformedBody ∧
      decode (nested.encode.take 24) = .error .malformedBody := by
  rcases encoding_delimits nested_wellFormed nested_depth with ⟨hread, hrefused, -⟩
  have hcut : ∀ count < nested.encode.length, decode (nested.encode.take count) = .error
      (if count < headerLength then .shortObject count headerLength else .malformedBody) := by
    intro count hcount
    have hlength : (nested.encode.take count).length = count :=
      List.length_take_of_le (Nat.le_of_lt hcount)
    have hproper : nested.encode.take count ≠ nested.encode := by
      intro hsame
      rw [hsame] at hlength
      exact absurd hlength (Nat.ne_of_gt hcount)
    have hfront := hrefused _ (List.take_prefix count nested.encode) hproper
    rw [hlength] at hfront
    exact hfront
  have hlong : 24 < nested.encode.length := by decide
  refine ⟨⟨nested_wellFormed, nested_depth⟩, hread _, ?_, ?_, ?_⟩
  · exact hcut 8 (Nat.lt_trans (by decide) hlong)
  · exact hcut 9 (Nat.lt_trans (by decide) hlong)
  · exact hcut 24 hlong

end StoredObject
end SharedGraph
