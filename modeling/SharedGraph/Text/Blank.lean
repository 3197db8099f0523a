/-!
# Blank characters

The characters with the Unicode property `White_Space`.  A name made of them alone
names nothing, so configurations refuse it.
-/

namespace SharedGraph
namespace Text

def blankRanges : List (Nat × Nat) :=
  [(0x09, 0x0D), (0x20, 0x20), (0x85, 0x85), (0xA0, 0xA0), (0x1680, 0x1680), (0x2000, 0x200A),
    (0x2028, 0x2029), (0x202F, 0x202F), (0x205F, 0x205F), (0x3000, 0x3000)]

def isBlank (char : Char) : Bool :=
  blankRanges.any fun range => range.1 ≤ char.toNat && char.toNat ≤ range.2

/-- Whether a text holds nothing but white space; the empty text does. -/
def blank (text : String) : Bool :=
  text.toList.all isBlank

theorem isBlank_of_isWhitespace {char : Char} (white : char.isWhitespace = true) :
    isBlank char = true := by
  rw [Char.isWhitespace] at white
  simp only [Bool.or_eq_true, decide_eq_true_eq] at white
  rcases white with ((rfl | rfl) | rfl) | rfl <;> decide

theorem blank_empty : blank "" = true := rfl

end Text
end SharedGraph
