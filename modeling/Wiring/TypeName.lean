import Wiring.Text.Cut

/-!
# Type names

A type name is the binary name of a type: packages are separated by dots, nested types by `$`, and
each array dimension adds `[]`.  The parts of a name are read off its element type, that is, after
all array dimensions are removed.
-/

namespace Wiring

/-- Binary name of a type, such as `com.example.Outer$Inner[]`. -/
structure TypeName where
  /-- Text of the name. -/
  text : String
  deriving DecidableEq, Repr, Inhabited

namespace TypeName

instance : Ord TypeName := ⟨compareOn text⟩

instance : Std.TransOrd TypeName := inferInstanceAs (Std.TransCmp (compareOn text))

instance : Std.LawfulEqOrd TypeName where
  compare_self {name} := Std.compare_self (a := name.text)
  eq_of_compare {left right} same := by
    have texts : left.text = right.text := Std.LawfulEqOrd.eq_of_compare same
    cases left
    cases right
    cases texts
    rfl

/-- Names of the primitive types, `void` included. -/
def primitives : List String :=
  ["boolean", "byte", "char", "short", "int", "long", "float", "double", "void"]

/-- Whether a name is that of a primitive type. -/
def isPrimitive (name : TypeName) : Bool := primitives.contains name.text

/-- Array dimensions of a reversed name, and the reversed name without them. -/
def stripDimensions : List Char → Nat × List Char
  | ']' :: '[' :: rest => ((stripDimensions rest).1 + 1, (stripDimensions rest).2)
  | chars => (0, chars)

/-- Number of array dimensions. -/
def dimensions (name : TypeName) : Nat := (stripDimensions name.text.toList.reverse).1

/-- Characters of the element type. -/
def elementChars (name : TypeName) : List Char := (stripDimensions name.text.toList.reverse).2.reverse

/-- Type left when all array dimensions are removed. -/
def element (name : TypeName) : TypeName := ⟨String.ofList name.elementChars⟩

/-- Whether a name is that of an array type. -/
def isArray (name : TypeName) : Bool := name.dimensions != 0

/-- Type left when one array dimension is removed. -/
def component? (name : TypeName) : Option TypeName :=
  match name.text.toList.reverse with
  | ']' :: '[' :: rest => some ⟨String.ofList rest.reverse⟩
  | _ => none

/-- Package of a type; empty for primitives and the default package. -/
def package (name : TypeName) : String := String.ofList (Text.beforeLast '.' name.elementChars)

/-- Type enclosing a nested type at the outermost level; a type that is not nested itself. -/
def topLevel (name : TypeName) : TypeName := ⟨String.ofList (Text.beforeFirst '$' name.elementChars)⟩

/-- Characters of the name without its package. -/
def binarySimpleChars (name : TypeName) : List Char := Text.afterLast '.' name.elementChars

/-- Name without its package, keeping the enclosing types. -/
def binarySimpleName (name : TypeName) : String := String.ofList name.binarySimpleChars

/-- Name of the innermost type alone. -/
def simpleName (name : TypeName) : String := String.ofList (Text.afterLast '$' name.binarySimpleChars)

/-- Name as written in a source file: nested types are separated by dots. -/
def canonicalName (name : TypeName) : String :=
  String.ofList (Text.substitute '$' '.' name.text.toList)

/-- Path of a dotted name with the given ending. -/
def pathWith (name : TypeName) (ending : String) : String :=
  String.ofList (Text.substitute '.' '/' name.text.toList) ++ ending

/-- Path of the class file of a type. -/
def classFile (name : TypeName) : String := name.pathWith ".class"

/-- Type of a package; the default package is empty. -/
def qualify (package simpleName : String) : TypeName :=
  if package.isEmpty then ⟨simpleName⟩ else ⟨package ++ "." ++ simpleName⟩

/-- Text in front of the simple names of a package. -/
def qualifier (package : String) : List Char :=
  if package = "" then [] else package.toList ++ ['.']

theorem toList_qualify (package simpleName : String) :
    (qualify package simpleName).text.toList = qualifier package ++ simpleName.toList := by
  rw [qualify, qualifier]
  by_cases default : package = ""
  · simp [default]
  · simp [default]

/-- Root of the class hierarchy. -/
def object : TypeName := ⟨"java.lang.Object"⟩

/-- Type of texts. -/
def string : TypeName := ⟨"java.lang.String"⟩

/-- Absence of a value. -/
def void : TypeName := ⟨"void"⟩

end TypeName
end Wiring
