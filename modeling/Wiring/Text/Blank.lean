/-!
# Blank characters

Blank characters are those with the Unicode property `White_Space`.  Trimming removes them from
both ends of a text.
-/

namespace Wiring
namespace Text

/-- Whether a character has the Unicode property `White_Space`. -/
def isBlank (char : Char) : Bool :=
  let code := char.toNat
  (0x9 ≤ code && code ≤ 0xd) || code == 0x20 || code == 0x85 || code == 0xa0 || code == 0x1680 ||
    (0x2000 ≤ code && code ≤ 0x200a) || code == 0x2028 || code == 0x2029 || code == 0x202f ||
    code == 0x205f || code == 0x3000

/-- Remove blank characters from both ends. -/
def trim (chars : List Char) : List Char :=
  ((chars.dropWhile isBlank).reverse.dropWhile isBlank).reverse

/-- Whether a text has no character other than blanks. -/
def isAllBlank (text : String) : Bool := text.toList.all isBlank

end Text
end Wiring
