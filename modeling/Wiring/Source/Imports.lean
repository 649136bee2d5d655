import Wiring.SortedMap
import Wiring.SortedSet
import Wiring.TypeName

/-!
# Imports of a source file

Each source file decides which top-level types it imports and how it writes every type.  Where two
referenced top-level types share a simple name, both are written with their packages, except that
the type of the file itself keeps its simple name.
-/

namespace Wiring

/-- Imports of a source file and the types it writes with their packages. -/
structure Imports where
  /-- Imported types. -/
  imported : SortedSet String
  /-- Top-level types written with their packages. -/
  qualified : SortedSet TypeName
  deriving DecidableEq

namespace Imports

/-- Top-level types by simple name. -/
abbrev Groups := SortedMap String (SortedSet TypeName)

/-- Add a top-level type under a simple name. -/
def addTo (groups : Groups) (simpleName : String) (top : TypeName) : Groups :=
  groups.update simpleName .empty (·.insert top)

/-- Group the own type and the top-level types of the referenced non-primitive ones. -/
def group (own : TypeName) (referenced : List TypeName) : Groups :=
  (referenced.filter fun name => !name.element.isPrimitive).foldl
    (fun groups name => addTo groups name.topLevel.simpleName name.topLevel)
    (addTo .empty own.simpleName own)

/-- Whether a package has to be imported from by a file of another package. -/
def needsImport (file package : String) : Bool :=
  package != file && package != "java.lang" && package != ""

/-- Imports for a file of a package that contains a type and references others. -/
def resolve (file : String) (own : TypeName) (referenced : SortedSet TypeName) : Imports :=
  let groups := (group own referenced.items).values
  let clashing := groups.filter fun tops => 1 < tops.size
  let alone := groups.filter fun tops => tops.size ≤ 1
  { imported :=
      .ofList
        ((alone.flatMap (·.items)).filter (fun top => needsImport file top.package)
          |>.map TypeName.text)
    qualified := .ofList ((clashing.flatMap (·.items)).filter (· != own)) }

/-- Array dimensions as written. -/
def brackets (dimensions : Nat) : String := String.join (List.replicate dimensions "[]")

/-- Text of a type in the file. -/
def typeText (imports : Imports) (name : TypeName) : String :=
  let element := name.element
  let base :=
    if element.isPrimitive || decide (element.topLevel ∈ imports.qualified) then
      element.canonicalName
    else
      String.ofList (Text.substitute '$' '.' element.binarySimpleChars)
  base ++ brackets name.dimensions

end Imports
end Wiring
