import Wiring.Source.Block

/-!
# Methods and types to be written

Specifications of the methods and of the top-level type of a source file, with the types they
reference and the way a method is written.
-/

namespace Wiring

/-- Modifier of a method or type. -/
inductive Modifier where
  | publicMember
  | protectedMember
  | privateMember
  | staticMember
  | finalMember
  deriving DecidableEq, Repr

namespace Modifier

/-- Every modifier in the order of writing. -/
def all : List Modifier :=
  [publicMember, protectedMember, privateMember, staticMember, finalMember]

/-- Keyword of a modifier. -/
def keyword : Modifier → String
  | publicMember => "public"
  | protectedMember => "protected"
  | privateMember => "private"
  | staticMember => "static"
  | finalMember => "final"

/-- Keywords of modifiers, each followed by a space, in the order of writing. -/
def render (modifiers : List Modifier) : String :=
  String.join ((all.filter modifiers.contains).map fun modifier => modifier.keyword ++ " ")

end Modifier

/-- Parameter of a method. -/
structure Parameter where
  /-- Type of the parameter. -/
  type : TypeName
  /-- Name of the parameter. -/
  name : String
  deriving DecidableEq, Repr

/-- Method to be written. -/
structure Method where
  /-- Name of the method. -/
  name : String
  /-- Modifiers in any order. -/
  modifiers : List Modifier
  /-- Annotations in order. -/
  annotations : List TypeName
  /-- Type of the result; none for `void`. -/
  returnType : Option TypeName
  /-- Parameters in order. -/
  parameters : List Parameter
  /-- Body of the method. -/
  body : Block
  deriving DecidableEq

namespace Method

/-- Types referenced by a method. -/
def types (method : Method) : SortedSet TypeName :=
  method.body.types.insertAll
    (method.annotations ++ method.returnType.toList ++ method.parameters.map Parameter.type)

/-- First line of a method, up to its opening brace. -/
def header (typeText : TypeName → String) (method : Method) : String :=
  Modifier.render method.modifiers ++ (method.returnType.map typeText).getD "void" ++ " " ++
    method.name ++ "(" ++
    ", ".intercalate
      (method.parameters.map fun parameter => typeText parameter.type ++ " " ++ parameter.name) ++
    ") \x7b"

/-- Write a method. -/
def print (typeText : TypeName → String) (page : Page) (method : Method) : Page :=
  let page := method.annotations.foldl (fun page name => page.line ("@" ++ typeText name)) page
  let page := (page.line (method.header typeText)).indent
  (method.body.print typeText page).unindent.line "\x7d"

end Method

/-- Top-level type to be written. -/
structure TypeSpec where
  /-- Simple name of the type. -/
  name : String
  /-- Modifiers in any order. -/
  modifiers : List Modifier
  /-- Interfaces in order. -/
  superinterfaces : List Fragment
  /-- Methods in order. -/
  methods : List Method
  deriving DecidableEq

/-- Types referenced by a type. -/
def TypeSpec.types (spec : TypeSpec) : SortedSet TypeName :=
  .ofList
    (spec.superinterfaces.flatMap Fragment.types ++
      spec.methods.flatMap fun method => method.types.items)

end Wiring
