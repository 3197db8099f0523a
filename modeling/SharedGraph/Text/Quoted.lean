import SharedGraph.Text.Unprintable

/-!
# Quoted texts

Messages that show names exactly put them in quotation marks.  The mark, the backslash
and the common controls are escaped by a letter, and every other character without a
glyph of its own by its number in hexadecimal digits.
-/

namespace SharedGraph
namespace Text

def hexDigits (number : Nat) : String :=
  String.ofList (Nat.toDigits 16 number)

/-- How one character is written between quotation marks. -/
def quotedChar (char : Char) : String :=
  match char with
  | '"' => "\\\""
  | '\\' => "\\\\"
  | '\n' => "\\n"
  | '\r' => "\\r"
  | '\t' => "\\t"
  | '\x00' => "\\0"
  | other =>
    if isUnprintable other then "\\u\x7b" ++ hexDigits other.toNat ++ "\x7d"
    else other.toString

def quoted (text : String) : String :=
  "\"" ++ String.join (text.toList.map quotedChar) ++ "\""

def quotedList (texts : List String) : String :=
  "[" ++ ", ".intercalate (texts.map quoted) ++ "]"

end Text
end SharedGraph
