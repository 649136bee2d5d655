import Wiring.Member
import Wiring.SortedMap

/-!
# Component definitions

A definition says how a component is built.  Fields left open are taken from a parent definition;
`mergedWith` states the inheritance rule of every field.
-/

namespace Wiring

/-- Lifecycle scope of a component. -/
inductive Scope where
  | singleton
  | prototype
  | custom (name : String)
  deriving DecidableEq, Repr, Inhabited

/-- Name of a scope. -/
def Scope.name : Scope → String
  | singleton => "singleton"
  | prototype => "prototype"
  | custom name => name

/-- Part that a component plays in the application. -/
inductive Role where
  | application
  | support
  | infrastructure
  deriving DecidableEq, Repr, Inhabited

namespace Role

/-- Word for a role in descriptions. -/
def word : Role → String
  | application => "Application"
  | support => "Support"
  | infrastructure => "Infrastructure"

/-- Constant that stands for a role in generated code. -/
def constant : Role → String
  | application => "ROLE_APPLICATION"
  | support => "ROLE_SUPPORT"
  | infrastructure => "ROLE_INFRASTRUCTURE"

end Role

/-- Explicit value of an argument or property. -/
inductive Value where
  /-- Another component, by name. -/
  | reference (component : String)
  /-- Text to be converted to the target type. -/
  | literal (text : String)
  deriving DecidableEq, Repr, Inhabited

/-- Property with its explicit value. -/
structure PropertyValue where
  /-- Name of the property. -/
  name : String
  /-- Value to set. -/
  value : Value
  deriving DecidableEq, Repr, Inhabited

/-- Executable that creates the instances of a component. -/
inductive InstanceSource where
  /-- A constructor. -/
  | constructor (executable : Executable)
  /-- A method of another component. -/
  | factoryMethod (component : String) (method : Executable)
  /-- A static method. -/
  | staticFactoryMethod (method : Executable)
  deriving DecidableEq, Repr, Inhabited

/-- The executable itself. -/
def InstanceSource.executable : InstanceSource → Executable
  | constructor executable => executable
  | factoryMethod _ method => method
  | staticFactoryMethod method => method

/-- Place a definition was found. -/
inductive Origin where
  /-- Declared in the container. -/
  | declared
  /-- Listed in a factories file under a key type. -/
  | factories (key : TypeName)
  deriving DecidableEq, Repr, Inhabited

/-- Declarative description of how a component is built. -/
structure Definition where
  /-- Declared type of the component. -/
  beanClass : Option TypeName
  /-- Lifecycle scope, singleton if left open. -/
  scope : Option Scope
  /-- Part played in the application. -/
  role : Role
  /-- Whether the component is preferred among candidates. -/
  primary : Bool
  /-- Whether creation waits for first use. -/
  lazyInit : Bool
  /-- Executable that creates instances. -/
  instanceSource : Option InstanceSource
  /-- Explicit arguments of the creating executable, by position. -/
  arguments : SortedMap Nat Value
  /-- Explicit property values in order. -/
  properties : List PropertyValue
  /-- Method to call after creation. -/
  initMethod : Option String
  /-- Method to call before disposal. -/
  destroyMethod : Option String
  /-- Name of the definition to inherit from. -/
  parent : Option String
  /-- Place the definition was found. -/
  origin : Origin
  deriving DecidableEq

namespace Definition

/-- Scope with the default filled in. -/
def effectiveScope (definition : Definition) : Scope := definition.scope.getD .singleton

/-- Whether the definition was listed in a factories file under the given key. -/
def isFactoriesEntryFor (definition : Definition) (key : TypeName) : Bool :=
  definition.origin == .factories key

/-- Whether a property of the given name has an explicit value. -/
def hasProperty (definition : Definition) (name : String) : Bool :=
  definition.properties.any (·.name == name)

/-- Inherit from a parent definition.  Values set on the child win; arguments are merged by
position and properties by name; role, preference and origin are the child's alone. -/
def mergedWith (child parent : Definition) : Definition where
  beanClass := child.beanClass <|> parent.beanClass
  scope := child.scope <|> parent.scope
  role := child.role
  primary := child.primary
  lazyInit := child.lazyInit || parent.lazyInit
  instanceSource := child.instanceSource <|> parent.instanceSource
  arguments := parent.arguments.overrideWith child.arguments
  properties :=
    parent.properties.filter (fun property => !child.hasProperty property.name) ++
      child.properties
  initMethod := child.initMethod <|> parent.initMethod
  destroyMethod := child.destroyMethod <|> parent.destroyMethod
  parent := none
  origin := child.origin

/-- The definition cut off from its parent. -/
def detached (definition : Definition) : Definition := { definition with parent := none }

/-- Merge a definition with its ancestors, nearest first. -/
def mergeChain (definition : Definition) : List Definition → Definition
  | [] => definition.detached
  | parent :: ancestors => definition.mergedWith (parent.mergeChain ancestors)

/-- Word for a truth value. -/
def boolWord (flag : Bool) : String := if flag then "true" else "false"

/-- Optional clause of a description. -/
def clause (label : String) : Option String → String
  | none => ""
  | some text => "; " ++ label ++ "=" ++ text

/-- One-line description of a definition. -/
def describe (definition : Definition) : String :=
  "Generic bean: class [" ++ (definition.beanClass.map TypeName.text).getD "null" ++ "]; scope=" ++
    definition.effectiveScope.name ++ "; lazyInit=" ++ boolWord definition.lazyInit ++
    "; primary=" ++ boolWord definition.primary ++ "; role=" ++ definition.role.word ++
    clause "initMethodName" definition.initMethod ++
    clause "destroyMethodName" definition.destroyMethod ++ clause "parent" definition.parent

end Definition
end Wiring
