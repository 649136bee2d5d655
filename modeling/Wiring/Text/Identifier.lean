/-!
# Identifiers and package names

Identifiers are restricted to ASCII: a letter, `_` or `$` followed by letters, digits, `_` and `$`.
A package name is empty or a dotted sequence of identifiers.
-/

namespace Wiring
namespace Text

/-- Whether a character may start an identifier. -/
def startsIdentifier (char : Char) : Bool := char.isAlpha || char == '_' || char == '$'

/-- Whether a character may continue an identifier. -/
def continuesIdentifier (char : Char) : Bool := char.isAlphanum || char == '_' || char == '$'

/-- Whether characters spell an identifier. -/
def isIdentifier : List Char → Bool
  | [] => false
  | first :: rest => startsIdentifier first && rest.all continuesIdentifier

/-- Whether characters spell a package name. -/
def isPackageName (chars : List Char) : Bool :=
  chars.isEmpty || (chars.splitOn '.').all isIdentifier

end Text
end Wiring
