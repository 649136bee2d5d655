import Wiring.Decimal.Shortest
import Wiring.Source.Format
import Wiring.Text.Blank
import Wiring.Text.Identifier
import Wiring.TypeSystem

/-!
# Literals

An explicit text value is converted to a literal of its target type.  Numbers and truth values
ignore surrounding blanks; characters and texts are taken as they are.  A text that is no literal of
its target is refused.
-/

namespace Wiring

/-- Text that has no literal of a target type. -/
structure InvalidLiteral where
  /-- The text. -/
  value : String
  /-- The type asked for. -/
  target : TypeName
  deriving DecidableEq, Repr

/-- Text of the error. -/
def InvalidLiteral.message (error : InvalidLiteral) : String :=
  "value '" ++ error.value ++ "' is not a valid " ++ error.target.text ++ " literal"

namespace Literal

/-- How texts become literals of a target type. -/
inductive Form where
  /-- Signed integer of some bits, written between two texts. -/
  | integer (bits : Nat) (before after : String)
  /-- Floating-point number with a suffix. -/
  | floating (format : Decimal.BinaryFormat) (suffix : String)
  /-- Truth value. -/
  | boolean
  /-- Single character. -/
  | character
  /-- Text. -/
  | text
  deriving DecidableEq, Repr

/-- Form of the literals of a target type, by its name. -/
def forms : List (String × Form) :=
  [("int", .integer 32 "" ""), ("java.lang.Integer", .integer 32 "" ""),
    ("short", .integer 16 "(short) " ""), ("java.lang.Short", .integer 16 "(short) " ""),
    ("byte", .integer 8 "(byte) " ""), ("java.lang.Byte", .integer 8 "(byte) " ""),
    ("long", .integer 64 "" "L"), ("java.lang.Long", .integer 64 "" "L"),
    ("double", .floating .double "D"), ("java.lang.Double", .floating .double "D"),
    ("float", .floating .single "F"), ("java.lang.Float", .floating .single "F"),
    ("boolean", .boolean), ("java.lang.Boolean", .boolean),
    ("char", .character), ("java.lang.Character", .character),
    (TypeName.string.text, .text), (TypeName.object.text, .text),
    ("java.lang.CharSequence", .text), ("java.io.Serializable", .text)]

/-- Numbers from one ten-thousandth up to below ten to the sixteenth are written positionally. -/
def layout : Decimal.Layout := ⟨-4, 16⟩

/-- Least natural number that does not fit into signed bits. -/
def bound (bits : Nat) : Nat := Nat.pow 2 (bits - 1)

/-- Whether an integer fits into signed bits. -/
def fits (bits : Nat) (value : Int) : Bool := -(bound bits : Int) ≤ value && value < bound bits

/-- Integer literal of trimmed characters. -/
def integer? (bits : Nat) (before after : String) (trimmed : List Char) : Option String :=
  ((Decimal.integer? trimmed).filter (fits bits)).map fun value =>
    before ++ toString value ++ after

/-- Floating-point literal of trimmed characters. -/
def floating? (format : Decimal.BinaryFormat) (suffix : String) (trimmed : List Char) :
    Option String :=
  (Decimal.numeral? trimmed).bind fun numeral =>
    (Decimal.canonicalText? format layout numeral).map fun chars => String.ofList chars ++ suffix

/-- Truth value of trimmed characters. -/
def boolean? (trimmed : List Char) : Option String :=
  if trimmed = "true".toList ∨ trimmed = "false".toList then some (String.ofList trimmed) else none

/-- Literal of a form. -/
def ofForm? (value : String) : Form → Option String
  | .integer bits before after => integer? bits before after (Text.trim value.toList)
  | .floating format suffix => floating? format suffix (Text.trim value.toList)
  | .boolean => boolean? (Text.trim value.toList)
  | .character => (Text.charLiteral? value.toList).map String.ofList
  | .text => some (Text.quote value)

/-- Constant of an enumeration, named by a text. -/
def constant? (system : TypeSystem) (value : String) (target : TypeName) : Option Fragment :=
  let name := Text.trim value.toList
  if system.kind target = .enumType ∧ Text.isIdentifier name then
    some (.type target ++ .text ("." ++ String.ofList name))
  else
    none

/-- Literal of a text for a target type. -/
def ofText (system : TypeSystem) (value : String) (target : TypeName) :
    Except InvalidLiteral Fragment :=
  let literal? :=
    match forms.lookup target.text with
    | some form => (ofForm? value form).map Fragment.text
    | none => constant? system value target
  match literal? with
  | some literal => .ok literal
  | none => .error ⟨value, target⟩

end Literal
end Wiring
