import Mathlib.Tactic.SplitIfs
import SharedGraph.MessagePack.Token

/-!
# Encodings of a token

A token has several encodings, and each of them tells where it ends.  Whatever is read from
the front of some bytes is an encoding of a token whose length or count fits into a header
(`exists_encoding_of_read`).  What is written is an encoding too (`read_write`), and no
encoding of the token is shorter.
-/

namespace SharedGraph
namespace MessagePack

/-!
## Words and strings
-/

theorem takeBytes_eq_some {count : Nat} {bytes front rest : Bytes}
    (htaken : takeBytes count bytes = some (front, rest)) :
    bytes = front ++ rest ∧ front.length = count := by
  induction count generalizing bytes front with
  | zero =>
    cases htaken
    exact ⟨rfl, rfl⟩
  | succ count ih =>
    cases bytes with
    | nil => cases htaken
    | cons byte bytes =>
      rcases Option.map_eq_some_iff.1 htaken with ⟨⟨others, left⟩, hothers, hpair⟩
      cases hpair
      rcases ih hothers with ⟨rfl, rfl⟩
      exact ⟨rfl, rfl⟩

theorem wordValue_lt (bytes : Bytes) : wordValue bytes < capacity bytes.length := by
  induction bytes with
  | nil => decide
  | cons byte rest ih =>
    have hbyte : byte.toNat * capacity rest.length ≤ 255 * capacity rest.length :=
      Nat.mul_le_mul_right _ (Nat.le_of_lt_succ byte.toNat_lt)
    rw [wordValue, List.length_cons, capacity]
    omega

theorem capacity_pos (width : Nat) : 0 < capacity width := by
  induction width with
  | zero => decide
  | succ width ih => exact Nat.mul_pos ih (by decide)

theorem readWord_append (word rest : Bytes) :
    readWord word.length (word ++ rest) = some (wordValue word, rest) := by
  rw [readWord, takeBytes_append]
  rfl

theorem readWord_eq_some {width number : Nat} {bytes rest : Bytes}
    (hread : readWord width bytes = some (number, rest)) :
    ∃ word, bytes = word ++ rest ∧ word.length = width ∧ wordValue word = number := by
  rcases Option.map_eq_some_iff.1 hread with ⟨⟨word, left⟩, htaken, hpair⟩
  cases hpair
  rcases takeBytes_eq_some htaken with ⟨hbytes, hlength⟩
  exact ⟨word, hbytes, hlength, rfl⟩

namespace Token

variable {marker : UInt8} {width number : Nat} {bytes front rest content : Bytes} {token : Token}

theorem readSized_eq_some (hread : readSized width bytes = some (content, rest)) :
    ∃ word, bytes = word ++ content ++ rest ∧ word.length = width ∧
      wordValue word = content.length := by
  rcases Option.bind_eq_some_iff.1 hread with ⟨⟨length, left⟩, hword, htaken⟩
  rcases readWord_eq_some hword with ⟨word, hbytes, hwidth, hvalue⟩
  rcases takeBytes_eq_some htaken with ⟨rfl, rfl⟩
  exact ⟨word, by rw [hbytes, List.append_assoc], hwidth, hvalue⟩

theorem readSized_append {word : Bytes} (hvalue : wordValue word = content.length)
    (rest : Bytes) : readSized word.length (word ++ (content ++ rest)) = some (content, rest) := by
  rw [readSized, readWord_append, hvalue]
  exact takeBytes_append content rest

theorem readExtension_append (kind : UInt8) (content rest : Bytes) :
    readExtension content.length (kind :: (content ++ rest)) =
      some (.extension kind content, rest) := by
  rw [readExtension, takeBytes_append]
  rfl

theorem readExtension_eq_some {length : Nat}
    (hread : readExtension length bytes = some (token, rest)) :
    ∃ kind content, bytes = kind :: (content ++ rest) ∧ content.length = length ∧
      token = .extension kind content := by
  cases bytes with
  | nil => cases hread
  | cons kind bytes =>
    rcases Option.map_eq_some_iff.1 hread with ⟨⟨content, left⟩, htaken, hpair⟩
    cases hpair
    rcases takeBytes_eq_some htaken with ⟨rfl, hlength⟩
    exact ⟨kind, content, rfl, hlength, rfl⟩

/-!
## Lengths of headers
-/

/-- Whether the length or the count of a token fits into the widest header. -/
def Fits : Token → Prop
  | .text content | .binary content | .extension _ content => content.length < capacity 4
  | .array count | .map count => count < capacity 4
  | _ => True

abbrev IsWidth (width : Nat) : Prop :=
  width = 1 ∨ width = 2 ∨ width = 4 ∨ width = 8

theorem length_writeUnsigned_le (hwidth : IsWidth width) (hnumber : number < capacity width) :
    (writeUnsigned number).length ≤ 1 + width := by
  unfold writeUnsigned
  rcases hwidth with rfl | rfl | rfl | rfl <;> simp only [capacity] at hnumber <;>
    split_ifs <;> simp

theorem length_writeSigned_le {number : Int} (hwidth : IsWidth width)
    (hlow : -(capacity width : Int) ≤ 2 * number) (hhigh : 2 * number < capacity width) :
    (writeSigned number).length ≤ 1 + width := by
  unfold writeSigned
  rcases hwidth with rfl | rfl | rfl | rfl <;> simp only [capacity] at hlow hhigh <;>
    split_ifs <;> simp <;> omega

theorem length_writeTextHeader_le (hwidth : IsWidth width) (hnumber : number < capacity width) :
    (writeTextHeader number).length ≤ 1 + width := by
  unfold writeTextHeader
  rcases hwidth with rfl | rfl | rfl | rfl <;> simp only [capacity] at hnumber <;>
    split_ifs <;> simp

theorem length_writeBinaryHeader_le (hwidth : IsWidth width)
    (hnumber : number < capacity width) : (writeBinaryHeader number).length ≤ 1 + width := by
  unfold writeBinaryHeader
  rcases hwidth with rfl | rfl | rfl | rfl <;> simp only [capacity] at hnumber <;>
    split_ifs <;> simp

theorem length_writeExtensionHeader_le (kind : UInt8) (hwidth : IsWidth width)
    (hnumber : number < capacity width) :
    (writeExtensionHeader kind number).length ≤ 2 + width := by
  unfold writeExtensionHeader
  rcases hwidth with rfl | rfl | rfl | rfl <;> simp only [capacity] at hnumber <;>
    split_ifs <;> simp

theorem length_writeArrayHeader_le (hwidth : width = 2 ∨ width = 4) :
    number < capacity width → (writeArrayHeader number).length ≤ 1 + width := by
  intro hnumber
  unfold writeArrayHeader
  split_ifs
  · simp
  · simp
    omega
  · rcases hwidth with rfl | rfl
    · simp only [capacity] at hnumber
      omega
    · simp

theorem length_writeMapHeader_le (hwidth : width = 2 ∨ width = 4) :
    number < capacity width → (writeMapHeader number).length ≤ 1 + width := by
  intro hnumber
  unfold writeMapHeader
  split_ifs
  · simp
  · simp
    omega
  · rcases hwidth with rfl | rfl
    · simp only [capacity] at hnumber
      omega
    · simp

theorem length_writeFixedExtensionHeader (kind : UInt8)
    (hnumber : number = 1 ∨ number = 2 ∨ number = 4 ∨ number = 8 ∨ number = 16) :
    (writeExtensionHeader kind number).length = 2 := by
  rcases hnumber with rfl | rfl | rfl | rfl | rfl <;> rfl

/-!
## Ranges of marker bytes
-/

theorem marker_cases (marker : UInt8) :
    marker.toNat < 0x80 ∨ (0x80 ≤ marker.toNat ∧ marker.toNat < 0x90) ∨
      (0x90 ≤ marker.toNat ∧ marker.toNat < 0xa0) ∨ (0xa0 ≤ marker.toNat ∧ marker.toNat < 0xc0) ∨
      (0xc0 ≤ marker.toNat ∧ marker.toNat < 0xe0) ∨ 0xe0 ≤ marker.toNat := by
  omega

theorem read_number (hmarker : marker.toNat < 0x80) (bytes : Bytes) :
    read (marker :: bytes) = some (.unsigned marker.toUInt64, bytes) := by
  simp [read, UInt8.lt_iff_toNat_lt, hmarker]

theorem read_smallMap (hmarker : 0x80 ≤ marker.toNat ∧ marker.toNat < 0x90) (bytes : Bytes) :
    read (marker :: bytes) = some (.map (marker.toNat - 0x80), bytes) := by
  simp [read, UInt8.lt_iff_toNat_lt, Nat.not_lt.2 hmarker.1, hmarker.2]

theorem read_smallArray (hmarker : 0x90 ≤ marker.toNat ∧ marker.toNat < 0xa0) (bytes : Bytes) :
    read (marker :: bytes) = some (.array (marker.toNat - 0x90), bytes) := by
  have h1 : ¬marker.toNat < 0x80 := by omega
  simp [read, UInt8.lt_iff_toNat_lt, h1, Nat.not_lt.2 hmarker.1, hmarker.2]

theorem read_smallText (hmarker : 0xa0 ≤ marker.toNat ∧ marker.toNat < 0xc0) (bytes : Bytes) :
    read (marker :: bytes) =
      (takeBytes (marker.toNat - 0xa0) bytes).map fun (content, rest) => (.text content, rest) := by
  have h1 : ¬marker.toNat < 0x80 := by omega
  have h2 : ¬marker.toNat < 0x90 := by omega
  simp [read, UInt8.lt_iff_toNat_lt, h1, h2, Nat.not_lt.2 hmarker.1, hmarker.2]

theorem read_marked (hmarker : 0xc0 ≤ marker.toNat ∧ marker.toNat < 0xe0) (bytes : Bytes) :
    read (marker :: bytes) = readMarked marker bytes := by
  have h1 : ¬marker.toNat < 0x80 := by omega
  have h2 : ¬marker.toNat < 0x90 := by omega
  have h3 : ¬marker.toNat < 0xa0 := by omega
  simp [read, UInt8.lt_iff_toNat_lt, h1, h2, h3, Nat.not_lt.2 hmarker.1, hmarker.2]

theorem read_negative (hmarker : 0xe0 ≤ marker.toNat) (bytes : Bytes) :
    read (marker :: bytes) = some (.signed (signedValue 1 marker.toNat), bytes) := by
  have h1 : ¬marker.toNat < 0x80 := by omega
  have h2 : ¬marker.toNat < 0x90 := by omega
  have h3 : ¬marker.toNat < 0xa0 := by omega
  have h4 : ¬marker.toNat < 0xc0 := by omega
  simp [read, UInt8.lt_iff_toNat_lt, h1, h2, h3, h4, Nat.not_lt.2 hmarker]

/-!
## What is read
-/

/-- Whether `front` is an encoding of the token: the token is read from it, whatever follows.
The encoding that is written is not longer. -/
structure Encodes (front : Bytes) (token : Token) : Prop where
  reads : ∀ rest, read (front ++ rest) = some (token, rest)
  fits : token.Fits
  shortest : token.write.length ≤ front.length

theorem toInt_signedValue (hwidth : IsWidth width) (number : Nat) :
    (signedValue width number).toInt = Int.bmod number (capacity width) := by
  rw [signedValue, Int64.toInt_ofInt]
  apply Int.bmod_eq_of_le_mul_two
  · have hlow := Int.le_bmod (x := number) (capacity_pos width)
    rcases hwidth with rfl | rfl | rfl | rfl <;>
      simp only [capacity, Int64.size] at hlow ⊢ <;> omega
  · have hhigh := Int.bmod_lt (x := number) (capacity_pos width)
    rcases hwidth with rfl | rfl | rfl | rfl <;>
      simp only [capacity, Int64.size] at hhigh ⊢ <;> omega

theorem encodes_of_word (make : Nat → Token)
    (hread : (readWord width bytes).map (fun (number, rest) => (make number, rest)) =
      some (token, rest))
    (hform : ∀ bytes, read (marker :: bytes) =
      (readWord width bytes).map fun (number, rest) => (make number, rest))
    (hfits : ∀ number < capacity width, (make number).Fits)
    (hshort : ∀ number < capacity width, (make number).write.length ≤ 1 + width) :
    ∃ front, marker :: bytes = front ++ rest ∧ Encodes front token := by
  rcases Option.map_eq_some_iff.1 hread with ⟨⟨number, left⟩, hword, hpair⟩
  cases hpair
  rcases readWord_eq_some hword with ⟨word, rfl, rfl, rfl⟩
  refine ⟨marker :: word, rfl, ?_⟩
  constructor
  · intro other
    rw [List.cons_append, hform, readWord_append]
    rfl
  · exact hfits _ (wordValue_lt word)
  · rw [List.length_cons, Nat.add_comm]
    exact hshort _ (wordValue_lt word)

theorem encodes_of_sized (make : Bytes → Token)
    (hread : (readSized width bytes).map (fun (content, rest) => (make content, rest)) =
      some (token, rest))
    (hform : ∀ bytes, read (marker :: bytes) =
      (readSized width bytes).map fun (content, rest) => (make content, rest))
    (hfits : ∀ content, content.length < capacity width → (make content).Fits)
    (hshort : ∀ content, content.length < capacity width →
      (make content).write.length ≤ 1 + width + content.length) :
    ∃ front, marker :: bytes = front ++ rest ∧ Encodes front token := by
  rcases Option.map_eq_some_iff.1 hread with ⟨⟨content, left⟩, hsized, hpair⟩
  cases hpair
  rcases readSized_eq_some hsized with ⟨word, rfl, rfl, hvalue⟩
  have hlength := hvalue ▸ wordValue_lt word
  refine ⟨marker :: (word ++ content), rfl, ?_⟩
  constructor
  · intro other
    rw [List.cons_append, List.append_assoc, hform, readSized_append hvalue]
    rfl
  · exact hfits content hlength
  · have hwritten := hshort content hlength
    rw [List.length_cons, List.length_append]
    omega

theorem encodes_of_extension
    (hread : ((readWord width bytes).bind fun (length, rest) => readExtension length rest) =
      some (token, rest))
    (hform : ∀ bytes, read (marker :: bytes) =
      (readWord width bytes).bind fun (length, rest) => readExtension length rest)
    (hwidth : width = 1 ∨ width = 2 ∨ width = 4) :
    ∃ front, marker :: bytes = front ++ rest ∧ Encodes front token := by
  rcases Option.bind_eq_some_iff.1 hread with ⟨⟨length, left⟩, hword, hextension⟩
  rcases readWord_eq_some hword with ⟨word, rfl, rfl, rfl⟩
  rcases readExtension_eq_some hextension with ⟨kind, content, rfl, hlength, rfl⟩
  have hcontent := hlength ▸ wordValue_lt word
  refine ⟨marker :: (word ++ kind :: content), by simp, ?_⟩
  constructor
  · intro other
    rw [List.cons_append, List.append_assoc, hform, readWord_append, ← hlength]
    exact readExtension_append kind content other
  · have hwide : capacity word.length ≤ capacity 4 := by
      rcases hwidth with h | h | h <;> rw [h] <;> decide
    exact Nat.lt_of_lt_of_le hcontent hwide
  · have hheader := length_writeExtensionHeader_le kind
      (hwidth.imp_right (Or.imp_right Or.inl)) hcontent
    rw [write, List.length_append, List.length_cons, List.length_append, List.length_cons]
    omega

theorem encodes_of_fixedExtension {length : Nat}
    (hread : readExtension length bytes = some (token, rest))
    (hform : ∀ bytes, read (marker :: bytes) = readExtension length bytes)
    (hlength : length = 1 ∨ length = 2 ∨ length = 4 ∨ length = 8 ∨ length = 16) :
    ∃ front, marker :: bytes = front ++ rest ∧ Encodes front token := by
  rcases readExtension_eq_some hread with ⟨kind, content, rfl, rfl, rfl⟩
  refine ⟨marker :: kind :: content, rfl, ?_⟩
  constructor
  · intro other
    exact (hform _).trans (readExtension_append kind content other)
  · rcases hlength with h | h | h | h | h <;> rw [Fits, h] <;> decide
  · rw [write, List.length_append, length_writeFixedExtensionHeader kind hlength]
    simp only [List.length_cons]
    omega

theorem encodes_of_marker (hform : ∀ bytes, read (marker :: bytes) = some (token, bytes))
    (hfits : token.Fits) (hshort : token.write.length ≤ 1) : Encodes [marker] token := by
  constructor
  · exact hform
  · exact hfits
  · exact hshort

theorem lt_capacity_four (hwidth : width ≤ 4) (hnumber : number < capacity width) :
    number < capacity 4 := by
  have hwide : ∀ width ≤ 4, capacity width ≤ capacity 4 := by decide
  exact Nat.lt_of_lt_of_le hnumber (hwide width hwidth)

theorem encodes_unsigned
    (hread : (readWord width bytes).map (fun (number, rest) => (unsigned (.ofNat number), rest)) =
      some (token, rest))
    (hform : ∀ bytes, read (marker :: bytes) =
      (readWord width bytes).map fun (number, rest) => (unsigned (.ofNat number), rest))
    (hwidth : IsWidth width) :
    ∃ front, marker :: bytes = front ++ rest ∧ Encodes front token := by
  have hwide : capacity width ≤ 2 ^ 64 := by
    rcases hwidth with rfl | rfl | rfl | rfl <;> decide
  apply encodes_of_word (fun number => unsigned (.ofNat number)) hread hform
  · intro number _
    trivial
  · intro number hnumber
    rw [write, UInt64.toNat_ofNat', Nat.mod_eq_of_lt (Nat.lt_of_lt_of_le hnumber hwide)]
    exact length_writeUnsigned_le hwidth hnumber

theorem encodes_signed
    (hread : (readWord width bytes).map
      (fun (number, rest) => (signed (signedValue width number), rest)) = some (token, rest))
    (hform : ∀ bytes, read (marker :: bytes) = (readWord width bytes).map
      fun (number, rest) => (signed (signedValue width number), rest))
    (hwidth : IsWidth width) :
    ∃ front, marker :: bytes = front ++ rest ∧ Encodes front token := by
  apply encodes_of_word (fun number => signed (signedValue width number)) hread hform
  · intro number _
    trivial
  · intro number _
    have hlow := Int.le_bmod (x := number) (capacity_pos width)
    have hhigh := Int.bmod_lt (x := number) (capacity_pos width)
    rw [write, toInt_signedValue hwidth]
    apply length_writeSigned_le hwidth
    · omega
    · rcases hwidth with rfl | rfl | rfl | rfl <;> simp only [capacity] at hhigh ⊢ <;> omega

theorem encodes_text
    (hread : (readSized width bytes).map (fun (content, rest) => (text content, rest)) =
      some (token, rest))
    (hform : ∀ bytes, read (marker :: bytes) =
      (readSized width bytes).map fun (content, rest) => (text content, rest))
    (hwidth : width = 1 ∨ width = 2 ∨ width = 4) :
    ∃ front, marker :: bytes = front ++ rest ∧ Encodes front token := by
  apply encodes_of_sized text hread hform
  · intro content
    exact lt_capacity_four (by omega)
  · intro content hlength
    have hheader := length_writeTextHeader_le (by omega) hlength
    rw [write, List.length_append]
    omega

theorem encodes_binary
    (hread : (readSized width bytes).map (fun (content, rest) => (binary content, rest)) =
      some (token, rest))
    (hform : ∀ bytes, read (marker :: bytes) =
      (readSized width bytes).map fun (content, rest) => (binary content, rest))
    (hwidth : width = 1 ∨ width = 2 ∨ width = 4) :
    ∃ front, marker :: bytes = front ++ rest ∧ Encodes front token := by
  apply encodes_of_sized binary hread hform
  · intro content
    exact lt_capacity_four (by omega)
  · intro content hlength
    have hheader := length_writeBinaryHeader_le (by omega) hlength
    rw [write, List.length_append]
    omega

theorem exists_encoding_of_readMarked (hread : readMarked marker bytes = some (token, rest))
    (hform : ∀ bytes, read (marker :: bytes) = readMarked marker bytes) :
    ∃ front, marker :: bytes = front ++ rest ∧ Encodes front token := by
  unfold readMarked at hread
  split at hread
  -- nil and the two truths
  case h_1 | h_2 | h_3 =>
    cases hread
    exact ⟨[_], rfl, encodes_of_marker hform trivial (by decide)⟩
  case h_4 | h_5 | h_6 => exact encodes_binary hread hform (by decide)
  case h_7 | h_8 | h_9 => exact encodes_of_extension hread hform (by decide)
  -- the floats of both precisions
  case h_10 =>
    apply encodes_of_word (fun number => single (.ofNat number)) hread hform
    · intro number _
      trivial
    · intro number _
      simp [write]
  case h_11 =>
    apply encodes_of_word (fun number => double (.ofNat number)) hread hform
    · intro number _
      trivial
    · intro number _
      simp [write]
  case h_12 | h_13 | h_14 | h_15 => exact encodes_unsigned hread hform (by decide)
  case h_16 | h_17 | h_18 | h_19 => exact encodes_signed hread hform (by decide)
  case h_20 | h_21 | h_22 | h_23 | h_24 =>
    exact encodes_of_fixedExtension hread hform (by decide)
  case h_25 | h_26 | h_27 => exact encodes_text hread hform (by decide)
  case h_28 | h_29 =>
    apply encodes_of_word array hread hform
    · intro count
      exact lt_capacity_four (by decide)
    · intro count
      exact length_writeArrayHeader_le (by decide)
  case h_30 | h_31 =>
    apply encodes_of_word map hread hform
    · intro count
      exact lt_capacity_four (by decide)
    · intro count
      exact length_writeMapHeader_le (by decide)
  case h_32 => cases hread

/-- What is read is an encoding of the token, and nothing else is taken from the bytes. -/
theorem exists_encoding_of_read (hread : read bytes = some (token, rest)) :
    ∃ front, bytes = front ++ rest ∧ Encodes front token := by
  cases bytes with
  | nil => cases hread
  | cons marker bytes =>
    have hbyte := marker.toNat_lt
    rcases marker_cases marker with hmarker | hmarker | hmarker | hmarker | hmarker | hmarker
    · rw [read_number hmarker] at hread
      cases hread
      refine ⟨[marker], rfl, encodes_of_marker (read_number hmarker) trivial ?_⟩
      rw [write, writeUnsigned, UInt8.toNat_toUInt64, if_pos hmarker]
      exact Nat.le_refl _
    · rw [read_smallMap hmarker] at hread
      cases hread
      refine ⟨[marker], rfl, encodes_of_marker (read_smallMap hmarker) ?_ ?_⟩
      · exact lt_capacity_four (by decide : 1 ≤ 4) (Nat.lt_of_le_of_lt (Nat.sub_le _ _) hbyte)
      · rw [write, writeMapHeader, if_pos (by omega)]
        exact Nat.le_refl _
    · rw [read_smallArray hmarker] at hread
      cases hread
      refine ⟨[marker], rfl, encodes_of_marker (read_smallArray hmarker) ?_ ?_⟩
      · exact lt_capacity_four (by decide : 1 ≤ 4) (Nat.lt_of_le_of_lt (Nat.sub_le _ _) hbyte)
      · rw [write, writeArrayHeader, if_pos (by omega)]
        exact Nat.le_refl _
    · rw [read_smallText hmarker] at hread
      rcases Option.map_eq_some_iff.1 hread with ⟨⟨content, left⟩, htaken, hpair⟩
      cases hpair
      rcases takeBytes_eq_some htaken with ⟨rfl, hlength⟩
      refine ⟨marker :: content, rfl, ?_⟩
      constructor
      · intro other
        rw [List.cons_append, read_smallText hmarker, ← hlength, takeBytes_append]
        rfl
      · have hshort : content.length < capacity 1 := Nat.lt_of_le_of_lt (by omega) hbyte
        exact lt_capacity_four (by decide) hshort
      · rw [write, writeTextHeader, if_pos (by omega)]
        simp
    · rw [read_marked hmarker] at hread
      exact exists_encoding_of_readMarked hread (read_marked hmarker)
    · rw [read_negative hmarker] at hread
      cases hread
      refine ⟨[marker], rfl, encodes_of_marker (read_negative hmarker) trivial ?_⟩
      have hvalue : Int.bmod marker.toNat 256 = marker.toNat - 256 := by
        rw [Int.bmod_def]
        split <;> omega
      rw [write, toInt_signedValue (by decide)]
      change (writeSigned (Int.bmod marker.toNat 256)).length ≤ 1
      rw [hvalue, writeSigned, if_pos (by omega)]
      exact Nat.le_refl 1

/-- No encoding of a token is shorter than the one that is written. -/
theorem length_write_le (hread : read (front ++ rest) = some (token, rest)) :
    token.write.length ≤ front.length := by
  rcases exists_encoding_of_read hread with ⟨other, hfront, hencodes⟩
  rw [List.append_cancel_right hfront]
  exact hencodes.shortest

/-!
## What is written
-/

theorem read_word (marker : UInt8) (make : Nat → Token) (hnumber : number < capacity width)
    (hform : ∀ bytes, read (marker :: bytes) =
      (readWord width bytes).map fun (number, rest) => (make number, rest)) (rest : Bytes) :
    read (marker :: writeWord width number ++ rest) = some (make number, rest) := by
  rw [List.cons_append, hform, readWord_writeWord hnumber]
  rfl

theorem read_sized (marker : UInt8) (make : Bytes → Token)
    (hlength : content.length < capacity width)
    (hform : ∀ bytes, read (marker :: bytes) =
      (readSized width bytes).map fun (content, rest) => (make content, rest)) (rest : Bytes) :
    read (marker :: writeWord width content.length ++ content ++ rest) =
      some (make content, rest) := by
  have hword := wordValue_writeWord width content.length
  rw [Nat.mod_eq_of_lt hlength] at hword
  have hsized := readSized_append hword rest
  rw [length_writeWord] at hsized
  rw [List.cons_append, List.cons_append, List.append_assoc, hform, hsized]
  rfl

theorem toNat_ofNat_of_lt (hnumber : number < 0x100) : (UInt8.ofNat number).toNat = number := by
  rw [UInt8.toNat_ofNat', Nat.mod_eq_of_lt hnumber]

theorem read_writeUnsigned (number : Nat) (hnumber : number < capacity 8) (rest : Bytes) :
    read (writeUnsigned number ++ rest) = some (.unsigned (.ofNat number), rest) := by
  unfold writeUnsigned
  split
  case isTrue hsmall =>
    have hmarker : (UInt8.ofNat number).toNat = number := toNat_ofNat_of_lt (by omega)
    have hvalue : (UInt8.ofNat number).toUInt64 = UInt64.ofNat number := by
      apply UInt64.toNat_inj.1
      rw [UInt8.toNat_toUInt64, hmarker, UInt64.toNat_ofNat', Nat.mod_eq_of_lt (by omega)]
    rw [List.cons_append, read_number (hmarker.symm ▸ hsmall), hvalue]
    rfl
  split
  case isTrue hsmall =>
    exact read_word 0xcc (fun number => unsigned (.ofNat number)) hsmall (fun _ => rfl) rest
  split
  case isTrue hsmall =>
    exact read_word 0xcd (fun number => unsigned (.ofNat number)) hsmall (fun _ => rfl) rest
  split
  case isTrue hsmall =>
    exact read_word 0xce (fun number => unsigned (.ofNat number)) hsmall (fun _ => rfl) rest
  exact read_word 0xcf (fun number => unsigned (.ofNat number)) hnumber (fun _ => rfl) rest

theorem read_writeMapHeader (hnumber : number < capacity 4) (rest : Bytes) :
    read (writeMapHeader number ++ rest) = some (.map number, rest) := by
  unfold writeMapHeader
  split
  case isTrue hsmall =>
    have hmarker : (UInt8.ofNat (0x80 + number)).toNat = 0x80 + number :=
      toNat_ofNat_of_lt (by omega)
    rw [List.cons_append, read_smallMap (by omega), hmarker, Nat.add_sub_cancel_left]
    rfl
  split
  case isTrue hsmall => exact read_word 0xde map hsmall (fun _ => rfl) rest
  exact read_word 0xdf map hnumber (fun _ => rfl) rest

theorem read_writeArrayHeader (hnumber : number < capacity 4) (rest : Bytes) :
    read (writeArrayHeader number ++ rest) = some (.array number, rest) := by
  unfold writeArrayHeader
  split
  case isTrue hsmall =>
    have hmarker : (UInt8.ofNat (0x90 + number)).toNat = 0x90 + number :=
      toNat_ofNat_of_lt (by omega)
    rw [List.cons_append, read_smallArray (by omega), hmarker, Nat.add_sub_cancel_left]
    rfl
  split
  case isTrue hsmall => exact read_word 0xdc array hsmall (fun _ => rfl) rest
  exact read_word 0xdd array hnumber (fun _ => rfl) rest

theorem read_text (hlength : content.length < capacity 4) (rest : Bytes) :
    read (writeTextHeader content.length ++ content ++ rest) = some (.text content, rest) := by
  unfold writeTextHeader
  split
  case isTrue hsmall =>
    have hmarker : (UInt8.ofNat (0xa0 + content.length)).toNat = 0xa0 + content.length :=
      toNat_ofNat_of_lt (by omega)
    rw [List.append_assoc, List.cons_append, read_smallText (by omega), hmarker,
      Nat.add_sub_cancel_left, List.nil_append, takeBytes_append]
    rfl
  split
  case isTrue hsmall => exact read_sized 0xd9 text hsmall (fun _ => rfl) rest
  split
  case isTrue hsmall => exact read_sized 0xda text hsmall (fun _ => rfl) rest
  exact read_sized 0xdb text hlength (fun _ => rfl) rest

theorem signedValue_twosComplement {number : Int} (hlow : -(capacity width : Int) ≤ number * 2)
    (hhigh : number * 2 < capacity width) :
    signedValue width (twosComplement width number) = Int64.ofInt number := by
  have hpositive : (0 : Int) < capacity width := Int.natCast_pos.2 (capacity_pos width)
  have hcast : ((twosComplement width number : Nat) : Int) = number % capacity width :=
    Int.toNat_of_nonneg (Int.emod_nonneg _ (Int.ne_of_gt hpositive))
  rw [signedValue, hcast, Int.emod_bmod, Int.bmod_eq_of_le_mul_two hlow hhigh]

theorem twosComplement_lt (width : Nat) (number : Int) :
    twosComplement width number < capacity width := by
  have hpositive : (0 : Int) < capacity width := Int.natCast_pos.2 (capacity_pos width)
  have hrange := Int.emod_lt_of_pos number hpositive
  unfold twosComplement
  omega

theorem read_signedWord {number : Int} (marker : UInt8)
    (hform : ∀ bytes, read (marker :: bytes) = (readWord width bytes).map
      fun (number, rest) => (signed (signedValue width number), rest))
    (hlow : -(capacity width : Int) ≤ number * 2) (hhigh : number * 2 < capacity width)
    (rest : Bytes) :
    read (marker :: writeWord width (twosComplement width number) ++ rest) =
      some (.signed (Int64.ofInt number), rest) := by
  rw [read_word marker (fun number => signed (signedValue width number))
    (twosComplement_lt width number) hform, signedValue_twosComplement hlow hhigh]

theorem read_writeSigned (number : Int) (hlow : -(capacity 8 : Int) ≤ number * 2)
    (hhigh : number * 2 < capacity 8) (rest : Bytes) :
    read (writeSigned number ++ rest) = some (.signed (Int64.ofInt number), rest) := by
  unfold writeSigned
  split
  case isTrue hsmall =>
    have hlarge : 0xe0 ≤ twosComplement 1 number := by
      simp only [twosComplement, capacity]
      omega
    have hmarker : (UInt8.ofNat (twosComplement 1 number / capacity 0)).toNat =
        twosComplement 1 number := by
      rw [capacity, Nat.div_one]
      exact toNat_ofNat_of_lt (twosComplement_lt 1 number)
    rw [writeWord, writeWord, List.cons_append, read_negative (hmarker.symm ▸ hlarge), hmarker,
      signedValue_twosComplement (by simp only [capacity]; omega) (by simp only [capacity]; omega)]
    rfl
  split
  case isTrue hsmall =>
    exact read_signedWord 0xd0 (fun _ => rfl) (by simp only [capacity]; omega)
      (by simp only [capacity]; omega) rest
  split
  case isTrue hsmall =>
    exact read_signedWord 0xd1 (fun _ => rfl) (by simp only [capacity]; omega)
      (by simp only [capacity]; omega) rest
  split
  case isTrue hsmall =>
    exact read_signedWord 0xd2 (fun _ => rfl) (by simp only [capacity]; omega)
      (by simp only [capacity]; omega) rest
  exact read_signedWord 0xd3 (fun _ => rfl) hlow hhigh rest

theorem read_binary (hlength : content.length < capacity 4) (rest : Bytes) :
    read (writeBinaryHeader content.length ++ content ++ rest) = some (.binary content, rest) := by
  unfold writeBinaryHeader
  split
  case isTrue hsmall => exact read_sized 0xc4 binary hsmall (fun _ => rfl) rest
  split
  case isTrue hsmall => exact read_sized 0xc5 binary hsmall (fun _ => rfl) rest
  exact read_sized 0xc6 binary hlength (fun _ => rfl) rest

theorem read_fixedExtension (marker kind : UInt8)
    (hform : ∀ bytes, read (marker :: bytes) = readExtension content.length bytes)
    (rest : Bytes) :
    read ([marker, kind] ++ content ++ rest) = some (.extension kind content, rest) :=
  (hform _).trans (readExtension_append kind content rest)

theorem read_sizedExtension (marker kind : UInt8) (hlength : content.length < capacity width)
    (hform : ∀ bytes, read (marker :: bytes) =
      (readWord width bytes).bind fun (length, rest) => readExtension length rest)
    (rest : Bytes) :
    read (marker :: writeWord width content.length ++ [kind] ++ content ++ rest) =
      some (.extension kind content, rest) := by
  have hextension := readExtension_append kind content rest
  simp only [List.cons_append, List.append_assoc, List.nil_append, hform,
    readWord_writeWord hlength]
  exact hextension

theorem read_extension (kind : UInt8) (hlength : content.length < capacity 4) (rest : Bytes) :
    read (writeExtensionHeader kind content.length ++ content ++ rest) =
      some (.extension kind content, rest) := by
  unfold writeExtensionHeader
  split
  case isTrue hfixed => exact read_fixedExtension 0xd4 kind (fun _ => hfixed ▸ rfl) rest
  split
  case isTrue hfixed => exact read_fixedExtension 0xd5 kind (fun _ => hfixed ▸ rfl) rest
  split
  case isTrue hfixed => exact read_fixedExtension 0xd6 kind (fun _ => hfixed ▸ rfl) rest
  split
  case isTrue hfixed => exact read_fixedExtension 0xd7 kind (fun _ => hfixed ▸ rfl) rest
  split
  case isTrue hfixed => exact read_fixedExtension 0xd8 kind (fun _ => hfixed ▸ rfl) rest
  split
  case isTrue hsmall => exact read_sizedExtension 0xc7 kind hsmall (fun _ => rfl) rest
  split
  case isTrue hsmall => exact read_sizedExtension 0xc8 kind hsmall (fun _ => rfl) rest
  exact read_sizedExtension 0xc9 kind hlength (fun _ => rfl) rest

theorem read_write (token : Token) (hfits : token.Fits) (rest : Bytes) :
    read (token.write ++ rest) = some (token, rest) := by
  cases token with
  | nil => rfl
  | bool truth => cases truth <;> rfl
  | unsigned word =>
    have hread := read_writeUnsigned word.toNat word.toNat_lt rest
    rw [UInt64.ofNat_toNat] at hread
    exact hread
  | signed word =>
    have hlow := word.le_toInt
    have hhigh := word.toInt_lt
    have hread := read_writeSigned word.toInt (by simp only [capacity]; omega)
      (by simp only [capacity]; omega) rest
    rw [Int64.ofInt_toInt] at hread
    exact hread
  | single bits =>
    have hread := read_word 0xca (fun number => single (.ofNat number)) bits.toNat_lt
      (fun _ => rfl) rest
    rw [UInt32.ofNat_toNat] at hread
    exact hread
  | double bits =>
    have hread := read_word 0xcb (fun number => double (.ofNat number)) bits.toNat_lt
      (fun _ => rfl) rest
    rw [UInt64.ofNat_toNat] at hread
    exact hread
  | text content => exact read_text hfits rest
  | binary content => exact read_binary hfits rest
  | extension kind content => exact read_extension kind hfits rest
  | array count => exact read_writeArrayHeader hfits rest
  | map count => exact read_writeMapHeader hfits rest

end Token
end MessagePack
end SharedGraph
