import SharedGraph.MessagePack.Document
import SharedGraph.Proofs.MessagePack.Token

/-!
# Reading documents back

A document is written as a run of tokens, one for each scalar and name and one for the header
of each array and object, and is read back from it down to the levels that the reader admits
(`readValue_writeValue`).  What is read from any bytes is a document that can be written: its
levels are admitted, its objects are ordered, and its lengths fit into headers
(`writable_of_readValue`).
-/

namespace SharedGraph
namespace Value

open MessagePack

/-!
## Lengths
-/

mutual

/-- Whether all texts, names, arrays and objects in the document have a length that fits into a
header. -/
def Fits : Value → Prop
  | .text chars => chars.utf8ByteSize < capacity 4
  | .array items => items.length < capacity 4 ∧ FitsItems items
  | .object fields => fields.length < capacity 4 ∧ FitsFields fields
  | _ => True

def FitsItems : List Value → Prop
  | [] => True
  | item :: rest => item.Fits ∧ FitsItems rest

def FitsFields : List (String × Value) → Prop
  | [] => True
  | (name, value) :: rest =>
    name.utf8ByteSize < capacity 4 ∧ value.Fits ∧ FitsFields rest

end

/-- Whether a document can be written, and be read back where so many levels are admitted. -/
structure Writable (levels : Nat) (value : Value) : Prop where
  depth : value.depth ≤ levels
  ordered : value.Ordered
  fits : value.Fits

/-!
## Tokens
-/

mutual

/-- The tokens of a document: the header of an array or an object stands before its parts, an
integer is unsigned unless it is negative, and every float is a double. -/
def tokens : Value → List Token
  | .null => [.nil]
  | .bool truth => [.bool truth]
  | .int number =>
    [if 0 ≤ number.value then .unsigned (.ofNat number.value.toNat)
      else .signed (.ofInt number.value)]
  | .float number => [.double number.bits]
  | .text chars => [.text chars.toUTF8.data.toList]
  | .array items => .array items.length :: tokensOfItems items
  | .object fields => .map fields.length :: tokensOfFields fields

def tokensOfItems : List Value → List Token
  | [] => []
  | item :: rest => item.tokens ++ tokensOfItems rest

def tokensOfFields : List (String × Value) → List Token
  | [] => []
  | (name, value) :: rest =>
    .text name.toUTF8.data.toList :: (value.tokens ++ tokensOfFields rest)

end

end Value

namespace MessagePack

/-!
## Texts
-/

theorem textOf?_toUTF8 (chars : String) : textOf? chars.toUTF8.data.toList = some chars := by
  unfold textOf?
  rw [Array.toArray_toList]
  exact dif_pos chars.isValidUTF8

theorem textOf?_eq_some {content : Bytes} {chars : String} (htext : textOf? content = some chars) :
    chars.utf8ByteSize = content.length := by
  unfold textOf? String.fromUTF8? at htext
  split at htext
  · cases htext
    rfl
  · cases htext

/-!
## What is written
-/

variable {levels : Nat} {bytes rest : Bytes} {token : Token} {value : Value}

theorem readValue_zero (hread : Token.read bytes = some (token, rest)) :
    readValue 0 bytes = token.scalar?.map fun value => (value, rest) := by
  rw [readValue, hread]
  rfl

theorem readValue_scalar (hread : Token.read bytes = some (token, rest))
    (hscalar : token.scalar? = some value) (levels : Nat) :
    readValue levels bytes = some (value, rest) := by
  have hvalue : (token.scalar?.map fun value => (value, rest)) = some (value, rest) := by
    rw [hscalar]
    rfl
  cases levels with
  | zero => exact (readValue_zero hread).trans hvalue
  | succ levels =>
    rw [readValue, hread]
    cases token with
    | array count => cases hscalar
    | map count => cases hscalar
    | _ => exact hvalue

theorem readValue_array {count : Nat} (hread : Token.read bytes = some (.array count, rest))
    (levels : Nat) : readValue (levels + 1) bytes =
      (readMany (readValue levels) count rest).map fun (items, bytes) => (.array items, bytes) := by
  rw [readValue, hread]
  rfl

theorem readValue_map {count : Nat} (hread : Token.read bytes = some (.map count, rest))
    (levels : Nat) : readValue (levels + 1) bytes =
      (readEntries Token.textName? Token.anyName? (readValue levels) count rest).map
        fun (fields, bytes) => (Value.ofFields fields, bytes) := by
  rw [readValue, hread]
  rfl

theorem read_writeText {chars : String} (hfits : chars.utf8ByteSize < capacity 4) (rest : Bytes) :
    Token.read (writeText chars ++ rest) = some (.text chars.toUTF8.data.toList, rest) :=
  Token.read_write (.text chars.toUTF8.data.toList) hfits rest

theorem readValue_writeInt (number : WideInt) (levels : Nat) (rest : Bytes) :
    readValue levels (writeInt number ++ rest) = some (.int number, rest) := by
  rcases number with ⟨number, hlow, hhigh⟩
  unfold writeInt
  dsimp only
  split
  · apply readValue_scalar
      (Token.read_writeUnsigned number.toNat (by simp only [capacity]; omega) rest)
    simp only [Token.scalar?, WideInt.ofUInt64, UInt64.toNat_ofNat']
    congr
    omega
  · apply readValue_scalar (Token.read_writeSigned number (by simp only [capacity]; omega)
      (by simp only [capacity]; omega) rest)
    simp only [Token.scalar?, WideInt.ofInt64]
    congr
    exact Int64.toInt_ofInt_of_le (by omega) (by omega)

theorem valueOfDouble_bits (number : FiniteDouble) : valueOfDouble number.bits = .float number := by
  unfold valueOfDouble FiniteDouble.ofBits?
  rw [dif_pos number.finite]

theorem ofFields_of_ascending {fields : List (String × Value)}
    (hascending : fields.Pairwise fun first second => compare first.1 second.1 = .lt) :
    Value.ofFields fields = .object fields := by
  rw [Value.ofFields, SortedMap.entries_ofList hascending]

mutual

/-- A document is read back from what is written, whatever follows, if the reader admits its
levels; else it is refused. -/
theorem readValue_writeValue (value : Value) (levels : Nat) (rest : Bytes) (hfits : value.Fits)
    (hordered : value.Ordered) :
    readValue levels (writeValue value ++ rest) =
      if value.depth ≤ levels then some (value, rest) else none := by
  cases value with
  | null => exact readValue_scalar rfl rfl levels
  | bool truth => exact readValue_scalar (Token.read_write (.bool truth) trivial rest) rfl levels
  | int number => exact readValue_writeInt number levels rest
  | float number =>
    apply readValue_scalar (Token.read_write (.double number.bits) trivial rest)
    exact congrArg some (valueOfDouble_bits number)
  | text chars =>
    apply readValue_scalar (read_writeText hfits rest)
    rw [Token.scalar?, textOf?_toUTF8]
    rfl
  | array items =>
    have hheader := Token.read_writeArrayHeader hfits.1 (writeItems items ++ rest)
    rw [writeValue, List.append_assoc, Value.depth]
    cases levels with
    | zero => exact readValue_zero hheader
    | succ levels =>
      rw [readValue_array hheader, readMany_writeItems items levels rest hfits.2 hordered]
      simp only [Nat.add_le_add_iff_right]
      split <;> rfl
  | object fields =>
    have hheader := Token.read_writeMapHeader hfits.1 (writeFields fields ++ rest)
    rw [writeValue, List.append_assoc, Value.depth]
    cases levels with
    | zero => exact readValue_zero hheader
    | succ levels =>
      rw [readValue_map hheader, readEntries_writeFields fields Token.textName? levels rest
        (fun _ => rfl) hfits.2 hordered.2]
      simp only [Nat.add_le_add_iff_right]
      split
      · exact congrArg some (congrArg (·, rest) (ofFields_of_ascending hordered.1))
      · rfl

theorem readMany_writeItems (items : List Value) (levels : Nat) (rest : Bytes)
    (hfits : Value.FitsItems items) (hordered : Value.OrderedItems items) :
    readMany (readValue levels) items.length (writeItems items ++ rest) =
      if Value.depthItems items ≤ levels then some (items, rest) else none := by
  cases items with
  | nil => rfl
  | cons item others =>
    have hitem := readValue_writeValue item levels (writeItems others ++ rest) hfits.1 hordered.1
    have hothers := readMany_writeItems others levels rest hfits.2 hordered.2
    rw [writeItems, List.append_assoc, List.length_cons, readMany, hitem, Value.depthItems]
    by_cases hdepth : item.depth ≤ levels
    · rw [if_pos hdepth, Option.bind_some]
      dsimp only
      rw [hothers]
      simp only [Nat.max_le, hdepth, true_and]
      split <;> rfl
    · rw [if_neg hdepth, if_neg (fun hmax => hdepth (Nat.le_trans (Nat.le_max_left _ _) hmax))]
      rfl

theorem readEntries_writeFields (fields : List (String × Value))
    (firstName : Token → Option String) (levels : Nat) (rest : Bytes)
    (hname : ∀ content, firstName (.text content) = textOf? content)
    (hfits : Value.FitsFields fields) (hordered : Value.OrderedFields fields) :
    readEntries firstName Token.anyName? (readValue levels) fields.length
        (writeFields fields ++ rest) =
      if Value.depthFields fields ≤ levels then some (fields, rest) else none := by
  cases fields with
  | nil => rfl
  | cons field others =>
    rcases field with ⟨name, value⟩
    have hread := read_writeText hfits.1 (writeValue value ++ (writeFields others ++ rest))
    have hvalue := readValue_writeValue value levels (writeFields others ++ rest) hfits.2.1
      hordered.1
    have hothers := readEntries_writeFields others Token.anyName? levels rest (fun _ => rfl)
      hfits.2.2 hordered.2
    rw [writeFields, List.append_assoc, List.append_assoc, List.length_cons, readEntries, hread,
      Option.bind_some]
    dsimp only
    rw [hname, textOf?_toUTF8, Option.bind_some, hvalue, Value.depthFields]
    by_cases hdepth : value.depth ≤ levels
    · rw [if_pos hdepth, Option.bind_some]
      dsimp only
      rw [hothers]
      simp only [Nat.max_le, hdepth, true_and]
      split <;> rfl
    · rw [if_neg hdepth, if_neg (fun hmax => hdepth (Nat.le_trans (Nat.le_max_left _ _) hmax))]
      rfl

end

/-!
## Token by token
-/

theorem writeInt_eq (number : WideInt) :
    writeInt number = (Value.int number).tokens.flatMap Token.write := by
  rcases number with ⟨number, hlow, hhigh⟩
  simp only [writeInt, Value.tokens, List.flatMap_singleton]
  split
  · rw [Token.write, UInt64.toNat_ofNat', Nat.mod_eq_of_lt (by omega)]
  · rw [Token.write, Int64.toInt_ofInt_of_le (by omega) (by omega)]

mutual

theorem writeValue_eq (value : Value) : writeValue value = value.tokens.flatMap Token.write := by
  cases value with
  | int number => exact writeInt_eq number
  | array items =>
    rw [writeValue, writeItems_eq items, Value.tokens, List.flatMap_cons, Token.write]
  | object fields =>
    rw [writeValue, writeFields_eq fields, Value.tokens, List.flatMap_cons, Token.write]
  | _ => exact (List.flatMap_singleton _ _).symm

theorem writeItems_eq (items : List Value) :
    writeItems items = (Value.tokensOfItems items).flatMap Token.write := by
  cases items with
  | nil => rfl
  | cons item rest =>
    rw [writeItems, writeValue_eq item, writeItems_eq rest, Value.tokensOfItems,
      List.flatMap_append]

theorem writeFields_eq (fields : List (String × Value)) :
    writeFields fields = (Value.tokensOfFields fields).flatMap Token.write := by
  cases fields with
  | nil => rfl
  | cons field rest =>
    rcases field with ⟨name, value⟩
    rw [writeFields, writeValue_eq value, writeFields_eq rest, Value.tokensOfFields,
      List.flatMap_cons, List.flatMap_append, writeText, List.append_assoc]

end

/-!
## What is read
-/

theorem writable_valueOfDouble (bits : UInt64) (levels : Nat) :
    (valueOfDouble bits).Writable levels := by
  unfold valueOfDouble
  split <;> exact ⟨Nat.zero_le levels, trivial, trivial⟩

theorem writable_of_scalar (hfits : token.Fits) (hscalar : token.scalar? = some value)
    (levels : Nat) : value.Writable levels := by
  cases token with
  | text content =>
    rcases Option.map_eq_some_iff.1 hscalar with ⟨chars, htext, hchars⟩
    cases hchars
    have hlength : chars.utf8ByteSize < capacity 4 := textOf?_eq_some htext ▸ hfits
    exact ⟨Nat.zero_le levels, trivial, hlength⟩
  | single bits =>
    cases hscalar
    exact writable_valueOfDouble (widen bits) levels
  | double bits =>
    cases hscalar
    exact writable_valueOfDouble bits levels
  | nil | bool | unsigned | signed =>
    cases hscalar
    exact ⟨Nat.zero_le levels, trivial, trivial⟩
  | binary | extension | array | map => cases hscalar

theorem writable_items {items : List Value} (hitems : ∀ item ∈ items, item.Writable levels) :
    Value.depthItems items ≤ levels ∧ Value.OrderedItems items ∧ Value.FitsItems items := by
  induction items with
  | nil => exact ⟨Nat.zero_le levels, trivial, trivial⟩
  | cons item others ih =>
    have hitem := hitems item List.mem_cons_self
    rcases ih (fun other hother => hitems other (List.mem_cons_of_mem _ hother)) with
      ⟨hdepth, hordered, hfits⟩
    exact ⟨Nat.max_le.2 ⟨hitem.depth, hdepth⟩, ⟨hitem.ordered, hordered⟩, ⟨hitem.fits, hfits⟩⟩

theorem writable_fields {fields : List (String × Value)}
    (hfields : ∀ field ∈ fields, field.1.utf8ByteSize < capacity 4 ∧ field.2.Writable levels) :
    Value.depthFields fields ≤ levels ∧ Value.OrderedFields fields ∧ Value.FitsFields fields := by
  induction fields with
  | nil => exact ⟨Nat.zero_le levels, trivial, trivial⟩
  | cons field others ih =>
    rcases hfields field List.mem_cons_self with ⟨hname, hvalue⟩
    rcases ih (fun other hother => hfields other (List.mem_cons_of_mem _ hother)) with
      ⟨hdepth, hordered, hfits⟩
    exact ⟨Nat.max_le.2 ⟨hvalue.depth, hdepth⟩, ⟨hvalue.ordered, hordered⟩,
      ⟨hname, hvalue.fits, hfits⟩⟩

section Several

variable {α : Type} {readOne : Bytes → Option (α × Bytes)} {holds : α → Prop}

theorem readMany_eq_some {count : Nat} {items : List α}
    (hone : ∀ bytes item rest, readOne bytes = some (item, rest) → holds item)
    (hread : readMany readOne count bytes = some (items, rest)) :
    items.length = count ∧ ∀ item ∈ items, holds item := by
  induction count generalizing bytes items with
  | zero =>
    cases hread
    exact ⟨rfl, nofun⟩
  | succ count ih =>
    rcases Option.bind_eq_some_iff.1 hread with ⟨⟨item, left⟩, hitem, hothers⟩
    rcases Option.map_eq_some_iff.1 hothers with ⟨⟨others, last⟩, hmany, hpair⟩
    cases hpair
    rcases ih hmany with ⟨rfl, hall⟩
    exact ⟨rfl, List.forall_mem_cons.2 ⟨hone _ _ _ hitem, hall⟩⟩

def KeepsLength (nameOf : Token → Option String) : Prop :=
  ∀ token name, token.Fits → nameOf token = some name → name.utf8ByteSize < capacity 4

theorem keepsLength_textName : KeepsLength Token.textName? := by
  intro token name hfits hname
  cases token with
  | text content => exact textOf?_eq_some hname ▸ hfits
  | _ => cases hname

theorem keepsLength_anyName : KeepsLength Token.anyName? := by
  intro token name hfits hname
  cases token with
  | text content => exact textOf?_eq_some hname ▸ hfits
  | binary content => exact textOf?_eq_some hname ▸ hfits
  | _ => cases hname

theorem readEntries_eq_some {count : Nat} {entries : List (String × α)}
    {firstName laterName : Token → Option String} (hfirst : KeepsLength firstName)
    (hlater : KeepsLength laterName)
    (hone : ∀ bytes item rest, readOne bytes = some (item, rest) → holds item)
    (hread : readEntries firstName laterName readOne count bytes = some (entries, rest)) :
    entries.length = count ∧
      ∀ entry ∈ entries, entry.1.utf8ByteSize < capacity 4 ∧ holds entry.2 := by
  induction count generalizing bytes entries firstName with
  | zero =>
    cases hread
    exact ⟨rfl, nofun⟩
  | succ count ih =>
    rcases Option.bind_eq_some_iff.1 hread with ⟨⟨token, left⟩, htoken, hname⟩
    rcases Option.bind_eq_some_iff.1 hname with ⟨name, hnamed, hitem⟩
    rcases Option.bind_eq_some_iff.1 hitem with ⟨⟨item, last⟩, hfound, hothers⟩
    rcases Option.map_eq_some_iff.1 hothers with ⟨⟨others, final⟩, hmany, hpair⟩
    cases hpair
    rcases Token.exists_encoding_of_read htoken with ⟨front, -, hencodes⟩
    rcases ih hlater hmany with ⟨rfl, hall⟩
    exact ⟨rfl, List.forall_mem_cons.2
      ⟨⟨hfirst token name hencodes.fits hnamed, hone _ _ _ hfound⟩, hall⟩⟩

end Several

theorem writable_of_readValue (hread : readValue levels bytes = some (value, rest)) :
    value.Writable levels := by
  induction levels generalizing bytes value rest with
  | zero =>
    rcases Option.bind_eq_some_iff.1 hread with ⟨⟨token, left⟩, htoken, hscalar⟩
    rcases Option.map_eq_some_iff.1 hscalar with ⟨value, hvalue, hpair⟩
    cases hpair
    rcases Token.exists_encoding_of_read htoken with ⟨front, -, hencodes⟩
    exact writable_of_scalar hencodes.fits hvalue 0
  | succ levels ih =>
    rcases Option.bind_eq_some_iff.1 hread with ⟨⟨token, left⟩, htoken, hvalue⟩
    rcases Token.exists_encoding_of_read htoken with ⟨front, -, hencodes⟩
    have hcount := hencodes.fits
    dsimp only at hvalue
    split at hvalue
    · rcases Option.map_eq_some_iff.1 hvalue with ⟨⟨items, last⟩, hmany, hpair⟩
      cases hpair
      rcases readMany_eq_some (fun _ _ _ => ih) hmany with ⟨rfl, hall⟩
      rcases writable_items hall with ⟨hdepth, hordered, hfits⟩
      constructor
      · exact Nat.add_le_add_right hdepth 1
      · exact hordered
      · exact ⟨hcount, hfits⟩
    · rcases Option.map_eq_some_iff.1 hvalue with ⟨⟨fields, last⟩, hmany, hpair⟩
      cases hpair
      rcases readEntries_eq_some keepsLength_textName keepsLength_anyName (fun _ _ _ => ih) hmany
        with ⟨rfl, hall⟩
      have hkept : ∀ field ∈ (SortedMap.ofList fields).entries,
          field.1.utf8ByteSize < capacity 4 ∧ field.2.Writable levels :=
        fun field hfield => hall field (SortedMap.mem_of_mem_ofList hfield)
      rcases writable_fields hkept with ⟨hdepth, hordered, hfits⟩
      constructor
      · exact Nat.add_le_add_right hdepth 1
      · exact ⟨(SortedMap.ofList fields).ascending, hordered⟩
      · exact ⟨Nat.lt_of_le_of_lt (SortedMap.size_ofList_le fields) hcount, hfits⟩
    · rcases Option.map_eq_some_iff.1 hvalue with ⟨value, hscalar, hpair⟩
      cases hpair
      exact writable_of_scalar hcount hscalar _

end MessagePack
end SharedGraph
