import Wiring.Source.Fragment
import Wiring.Text.Quoted

/-!
# Format strings

A format string is source text with placeholders: `$T` for a type, `$S` for a string literal, `$L`
and `$N` for text or code, and `$$` for a dollar sign.  Placeholders take the arguments in order;
one without an argument is kept, and arguments are never scanned for placeholders.
-/

namespace Wiring

/-- Argument of a format string. -/
inductive Argument where
  /-- A type. -/
  | type (name : TypeName)
  /-- A text. -/
  | text (content : String)
  /-- Code. -/
  | code (fragment : Fragment)
  deriving DecidableEq

/-- Kind of placeholder. -/
inductive Placeholder where
  | type
  | string
  | literal
  | name
  deriving DecidableEq, Repr

namespace Placeholder

/-- Placeholder that a letter after a dollar sign stands for. -/
def ofChar? : Char → Option Placeholder
  | 'T' => some type
  | 'S' => some string
  | 'L' => some literal
  | 'N' => some name
  | _ => none

/-- Code that replaces a placeholder. -/
def fill : Placeholder → Argument → Fragment
  | string, .code fragment => .text (Text.quote (fragment.render TypeName.canonicalName))
  | string, .type typeName => .text (Text.quote typeName.text)
  | string, .text content => .text (Text.quote content)
  | _, .code fragment => fragment
  | _, .type typeName => .type typeName
  | type, .text content => .type ⟨content⟩
  | _, .text content => .text content

end Placeholder

namespace Fragment

/-- Text of a single character. -/
def char (char : Char) : Fragment := text (String.singleton char)

/-- Expansion of a format string. -/
def expand : List Char → List Argument → Fragment
  | [], _ => empty
  | '$' :: '$' :: rest, arguments => char '$' ++ expand rest arguments
  | '$' :: letter :: rest, arguments =>
      match Placeholder.ofChar? letter, arguments with
      | none, _ => char '$' ++ expand (letter :: rest) arguments
      | some _, [] => char '$' ++ char letter ++ expand rest []
      | some placeholder, argument :: others => placeholder.fill argument ++ expand rest others
  | other :: rest, arguments => char other ++ expand rest arguments

/-- Code of a format string with its arguments. -/
def format (format : String) (arguments : List Argument) : Fragment :=
  expand format.toList arguments

end Fragment
end Wiring
