/-!
# String and character literals

A string literal escapes the quote, the backslash, line feed, carriage return and tab, and writes
every other character as itself.  A character literal holds one character of the basic multilingual
plane; control characters without an escape letter are written as octal escapes.
-/

namespace Wiring
namespace Text

/-- One character inside a string literal. -/
def quotedChar : Char → List Char
  | '"' => ['\\', '"']
  | '\\' => ['\\', '\\']
  | '\n' => ['\\', 'n']
  | '\r' => ['\\', 'r']
  | '\t' => ['\\', 't']
  | char => [char]

/-- String literal that denotes the given characters. -/
def quoteChars (chars : List Char) : List Char :=
  '"' :: chars.flatMap quotedChar ++ ['"']

/-- String literal that denotes the given text. -/
def quote (text : String) : String := String.ofList (quoteChars text.toList)

/-- Whether a character is a control character (general category `Cc`). -/
def isControl (char : Char) : Bool :=
  char.toNat < 0x20 || (0x7f ≤ char.toNat && char.toNat < 0xa0)

/-- One character inside a character literal. -/
def charLiteralBody : Char → List Char
  | '\'' => ['\\', '\'']
  | '\\' => ['\\', '\\']
  | '\n' => ['\\', 'n']
  | '\r' => ['\\', 'r']
  | '\t' => ['\\', 't']
  | char => if isControl char then '\\' :: Nat.toDigits 8 char.toNat else [char]

/-- Character literal of a text that is one character of the basic multilingual plane. -/
def charLiteral? : List Char → Option (List Char)
  | [char] =>
      if char.toNat < 0x10000 then some ('\'' :: charLiteralBody char ++ ['\'']) else none
  | _ => none

end Text
end Wiring
