import SharedGraph.MessagePack.Word

/-!
# MessagePack tokens

A token is a scalar, a text or binary string with its bytes, or the header of an array
or a map.  Each is read from any of its encodings and written in the shortest one.
Reading keeps apart the signed and the unsigned encodings of an integer, since only an
unsigned one may stand for the index of a field.
-/

namespace SharedGraph
namespace MessagePack

/-- The unit that MessagePack data is made of. -/
inductive Token where
  | nil
  | bool (truth : Bool)
  | unsigned (word : UInt64)
  | signed (word : Int64)
  | single (bits : UInt32)
  | double (bits : UInt64)
  /-- A text, which need not be well formed. -/
  | text (content : Bytes)
  | binary (content : Bytes)
  | extension (kind : UInt8) (content : Bytes)
  | array (count : Nat)
  | map (count : Nat)
deriving DecidableEq

namespace Token

/-! ## Reading -/

/-- A string of bytes whose length stands before it in a word of `width` bytes. -/
def readSized (width : Nat) (bytes : Bytes) : Option (Bytes × Bytes) :=
  (readWord width bytes).bind fun (length, rest) => takeBytes length rest

def readExtension (length : Nat) : Bytes → Option (Token × Bytes)
  | [] => none
  | kind :: rest =>
    (takeBytes length rest).map fun (content, rest) => (.extension kind content, rest)

/-- The signed number that a word of `width` bytes stands for. -/
def signedValue (width number : Nat) : Int64 :=
  Int64.ofInt (Int.bmod number (capacity width))

/-- The token after a marker byte that does not hold its length or value itself. -/
def readMarked (marker : UInt8) (rest : Bytes) : Option (Token × Bytes) :=
  match marker with
  | 0xc0 => some (.nil, rest)
  | 0xc2 => some (.bool false, rest)
  | 0xc3 => some (.bool true, rest)
  | 0xc4 => (readSized 1 rest).map fun (content, rest) => (.binary content, rest)
  | 0xc5 => (readSized 2 rest).map fun (content, rest) => (.binary content, rest)
  | 0xc6 => (readSized 4 rest).map fun (content, rest) => (.binary content, rest)
  | 0xc7 => (readWord 1 rest).bind fun (length, rest) => readExtension length rest
  | 0xc8 => (readWord 2 rest).bind fun (length, rest) => readExtension length rest
  | 0xc9 => (readWord 4 rest).bind fun (length, rest) => readExtension length rest
  | 0xca => (readWord 4 rest).map fun (number, rest) => (.single (.ofNat number), rest)
  | 0xcb => (readWord 8 rest).map fun (number, rest) => (.double (.ofNat number), rest)
  | 0xcc => (readWord 1 rest).map fun (number, rest) => (.unsigned (.ofNat number), rest)
  | 0xcd => (readWord 2 rest).map fun (number, rest) => (.unsigned (.ofNat number), rest)
  | 0xce => (readWord 4 rest).map fun (number, rest) => (.unsigned (.ofNat number), rest)
  | 0xcf => (readWord 8 rest).map fun (number, rest) => (.unsigned (.ofNat number), rest)
  | 0xd0 => (readWord 1 rest).map fun (number, rest) => (.signed (signedValue 1 number), rest)
  | 0xd1 => (readWord 2 rest).map fun (number, rest) => (.signed (signedValue 2 number), rest)
  | 0xd2 => (readWord 4 rest).map fun (number, rest) => (.signed (signedValue 4 number), rest)
  | 0xd3 => (readWord 8 rest).map fun (number, rest) => (.signed (signedValue 8 number), rest)
  | 0xd4 => readExtension 1 rest
  | 0xd5 => readExtension 2 rest
  | 0xd6 => readExtension 4 rest
  | 0xd7 => readExtension 8 rest
  | 0xd8 => readExtension 16 rest
  | 0xd9 => (readSized 1 rest).map fun (content, rest) => (.text content, rest)
  | 0xda => (readSized 2 rest).map fun (content, rest) => (.text content, rest)
  | 0xdb => (readSized 4 rest).map fun (content, rest) => (.text content, rest)
  | 0xdc => (readWord 2 rest).map fun (count, rest) => (.array count, rest)
  | 0xdd => (readWord 4 rest).map fun (count, rest) => (.array count, rest)
  | 0xde => (readWord 2 rest).map fun (count, rest) => (.map count, rest)
  | 0xdf => (readWord 4 rest).map fun (count, rest) => (.map count, rest)
  | _ => none

def read : Bytes → Option (Token × Bytes)
  | [] => none
  | marker :: rest =>
    if marker < 0x80 then some (.unsigned marker.toUInt64, rest)
    else if marker < 0x90 then some (.map (marker.toNat - 0x80), rest)
    else if marker < 0xa0 then some (.array (marker.toNat - 0x90), rest)
    else if marker < 0xc0 then
      (takeBytes (marker.toNat - 0xa0) rest).map fun (content, rest) => (.text content, rest)
    else if marker < 0xe0 then readMarked marker rest
    else some (.signed (signedValue 1 marker.toNat), rest)

/-! ## Writing -/

def writeUnsigned (number : Nat) : Bytes :=
  if number < 0x80 then [UInt8.ofNat number]
  else if number < 0x100 then 0xcc :: writeWord 1 number
  else if number < 0x10000 then 0xcd :: writeWord 2 number
  else if number < 0x100000000 then 0xce :: writeWord 4 number
  else 0xcf :: writeWord 8 number

/-- The number whose last bytes write a signed integer in two's complement. -/
def twosComplement (width : Nat) (number : Int) : Nat :=
  (number % (capacity width : Int)).toNat

def writeSigned (number : Int) : Bytes :=
  if -0x20 ≤ number ∧ number < 0 then writeWord 1 (twosComplement 1 number)
  else if -0x80 ≤ number ∧ number < 0x80 then 0xd0 :: writeWord 1 (twosComplement 1 number)
  else if -0x8000 ≤ number ∧ number < 0x8000 then 0xd1 :: writeWord 2 (twosComplement 2 number)
  else if -0x80000000 ≤ number ∧ number < 0x80000000 then
    0xd2 :: writeWord 4 (twosComplement 4 number)
  else 0xd3 :: writeWord 8 (twosComplement 8 number)

def writeTextHeader (length : Nat) : Bytes :=
  if length < 0x20 then [UInt8.ofNat (0xa0 + length)]
  else if length < 0x100 then 0xd9 :: writeWord 1 length
  else if length < 0x10000 then 0xda :: writeWord 2 length
  else 0xdb :: writeWord 4 length

def writeBinaryHeader (length : Nat) : Bytes :=
  if length < 0x100 then 0xc4 :: writeWord 1 length
  else if length < 0x10000 then 0xc5 :: writeWord 2 length
  else 0xc6 :: writeWord 4 length

def writeExtensionHeader (kind : UInt8) (length : Nat) : Bytes :=
  if length = 1 then [0xd4, kind]
  else if length = 2 then [0xd5, kind]
  else if length = 4 then [0xd6, kind]
  else if length = 8 then [0xd7, kind]
  else if length = 16 then [0xd8, kind]
  else if length < 0x100 then 0xc7 :: writeWord 1 length ++ [kind]
  else if length < 0x10000 then 0xc8 :: writeWord 2 length ++ [kind]
  else 0xc9 :: writeWord 4 length ++ [kind]

def writeArrayHeader (count : Nat) : Bytes :=
  if count < 0x10 then [UInt8.ofNat (0x90 + count)]
  else if count < 0x10000 then 0xdc :: writeWord 2 count
  else 0xdd :: writeWord 4 count

def writeMapHeader (count : Nat) : Bytes :=
  if count < 0x10 then [UInt8.ofNat (0x80 + count)]
  else if count < 0x10000 then 0xde :: writeWord 2 count
  else 0xdf :: writeWord 4 count

/-- The shortest encoding of a token. -/
def write : Token → Bytes
  | .nil => [0xc0]
  | .bool false => [0xc2]
  | .bool true => [0xc3]
  | .unsigned word => writeUnsigned word.toNat
  | .signed word => writeSigned word.toInt
  | .single bits => 0xca :: writeWord 4 bits.toNat
  | .double bits => 0xcb :: writeWord 8 bits.toNat
  | .text content => writeTextHeader content.length ++ content
  | .binary content => writeBinaryHeader content.length ++ content
  | .extension kind content => writeExtensionHeader kind content.length ++ content
  | .array count => writeArrayHeader count
  | .map count => writeMapHeader count

end Token
end MessagePack
end SharedGraph
