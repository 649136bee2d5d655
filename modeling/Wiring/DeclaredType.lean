import Wiring.Text.Uppercase
import Wiring.TypeName
import Wiring.Visibility

/-!
# Declared types

The declaration of one type: its kind, its direct supertypes and its own members.  Questions about
inherited members belong to the type system.
-/

namespace Wiring

/-- Kind of a declared type. -/
inductive TypeKind where
  | classType
  | interfaceType
  | annotationType
  | enumType
  | arrayType
  deriving DecidableEq, Repr, Inhabited

/-- Constructor as declared. -/
structure DeclaredConstructor where
  /-- Parameter types in order. -/
  parameters : List TypeName
  /-- Access level. -/
  visibility : Visibility
  /-- Annotations on the constructor. -/
  annotations : List TypeName
  deriving DecidableEq, Repr

/-- Method as declared. -/
structure DeclaredMethod where
  /-- Name of the method. -/
  name : String
  /-- Parameter types in order. -/
  parameters : List TypeName
  /-- Type of the result. -/
  returnType : TypeName
  /-- Access level. -/
  visibility : Visibility
  /-- Whether the method belongs to the type rather than to an instance. -/
  isStatic : Bool
  /-- Annotations on the method. -/
  annotations : List TypeName
  deriving DecidableEq, Repr

/-- Field as declared. -/
structure DeclaredField where
  /-- Name of the field. -/
  name : String
  /-- Type of the field. -/
  fieldType : TypeName
  /-- Access level. -/
  visibility : Visibility
  deriving DecidableEq, Repr

/-- Everything declared by one type. -/
structure DeclaredType where
  /-- Name of the type. -/
  name : TypeName
  /-- Kind of the type. -/
  kind : TypeKind
  /-- Access level. -/
  visibility : Visibility
  /-- Direct superclass, if one is declared. -/
  superclass : Option TypeName
  /-- Direct interfaces in declaration order. -/
  interfaces : List TypeName
  /-- Annotations on the type. -/
  annotations : List TypeName
  /-- Constructors in declaration order. -/
  constructors : List DeclaredConstructor
  /-- Methods in declaration order. -/
  methods : List DeclaredMethod
  /-- Fields in declaration order. -/
  fields : List DeclaredField
  deriving DecidableEq, Repr

/-- Name of the method that writes a property. -/
def setterName (property : String) : String :=
  "set" ++ String.ofList (Text.capitalize property.toList)

namespace DeclaredType

/-- Direct supertypes, the superclass first. -/
def supertypes (type : DeclaredType) : List TypeName := type.superclass.toList ++ type.interfaces

/-- Whether the type itself carries an annotation. -/
def isAnnotatedWith (type : DeclaredType) (marker : TypeName) : Bool :=
  type.annotations.contains marker

/-- Declared method with exactly the given name and parameter types. -/
def method? (type : DeclaredType) (name : String) (parameters : List TypeName) :
    Option DeclaredMethod :=
  type.methods.find? fun method => method.name == name && method.parameters == parameters

/-- First declared method with the given name. -/
def methodNamed? (type : DeclaredType) (name : String) : Option DeclaredMethod :=
  type.methods.find? fun method => method.name == name

/-- First declared instance method of one parameter that writes a property. -/
def setter? (type : DeclaredType) (property : String) : Option DeclaredMethod :=
  type.methods.find? fun method =>
    method.name == setterName property && method.parameters.length == 1 && !method.isStatic

/-- Declared field with the given name. -/
def field? (type : DeclaredType) (name : String) : Option DeclaredField :=
  type.fields.find? fun field => field.name == name

end DeclaredType
end Wiring
