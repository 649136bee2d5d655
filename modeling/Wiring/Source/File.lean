import Wiring.Source.Imports
import Wiring.Source.Method

/-!
# Source files

A source file holds one top-level type.  Its imports are resolved from the types that the type
references, and every type name in the file is written as the imports prescribe.
-/

namespace Wiring

/-- Source file as written. -/
structure SourceFile where
  /-- Package of the file. -/
  package : String
  /-- Type of the file. -/
  typeName : TypeName
  /-- Text of the file. -/
  content : String
  deriving DecidableEq, Repr

namespace SourceFile

/-- Write the package and the imports of a file. -/
def printPreamble (package : String) (imports : Imports) (page : Page) : Page :=
  let page :=
    if package = "" then page else (page.line ("package " ++ package ++ ";")).blank
  if imports.imported.isEmpty then page
  else
    (imports.imported.items.foldl
      (fun page name => page.line ("import " ++ name ++ ";")) page).blank

/-- First line of a type, up to its opening brace. -/
def typeHeader (typeText : TypeName → String) (spec : TypeSpec) : String :=
  Modifier.render spec.modifiers ++ "class " ++ spec.name ++
    (if spec.superinterfaces.isEmpty then ""
      else " implements " ++ ", ".intercalate (spec.superinterfaces.map (·.render typeText))) ++
    " \x7b"

/-- Write methods with a blank line between neighbours. -/
def printMethods (typeText : TypeName → String) (page : Page) : List Method → Page
  | [] => page
  | [last] => last.print typeText page
  | first :: others => printMethods typeText (first.print typeText page).blank others

/-- Write a type into a file of the given package. -/
def ofSpec (package : String) (spec : TypeSpec) : SourceFile :=
  let typeName := TypeName.qualify package spec.name
  let imports := Imports.resolve package typeName spec.types
  let page := printPreamble package imports .standard
  let page := (page.line (typeHeader imports.typeText spec)).indent
  let page := (printMethods imports.typeText page spec.methods).unindent.line "\x7d"
  { package, typeName, content := page.text }

/-- Path of the file below a source root. -/
def path (file : SourceFile) : String := file.typeName.pathWith ".java"

end SourceFile
end Wiring
