import Wiring.Member
import Wiring.TypeSystem.Hierarchy

/-!
# Member look-up

Members are looked up along the hierarchy, and the reference found names the type that declares the
member.  Members that are not declared count as public.
-/

namespace Wiring
namespace TypeSystem

/-- Constructors of a type; a class that declares none has one without parameters. -/
def constructors (system : TypeSystem) (name : TypeName) : List DeclaredConstructor :=
  match system.get? name with
  | none => [⟨[], .publicAccess, []⟩]
  | some type =>
      if type.constructors.isEmpty then
        if type.kind = .classType then [⟨[], type.visibility, []⟩] else []
      else
        type.constructors

/-- Nearest method with exactly the given name and parameter types. -/
def findMethod (system : TypeSystem) (name : TypeName) (method : String)
    (parameters : List TypeName) : Option Executable :=
  (system.hierarchy name).findSome? fun type =>
    (type.method? method parameters).map fun _ => .ofMethod type.name method parameters

/-- Nearest method with the given name. -/
def findMethodNamed (system : TypeSystem) (name : TypeName) (method : String) :
    Option Executable :=
  (system.hierarchy name).findSome? fun type =>
    (type.methodNamed? method).map fun declared => .ofMethod type.name method declared.parameters

/-- Nearest method that writes a property. -/
def findSetter (system : TypeSystem) (name : TypeName) (property : String) : Option Executable :=
  (system.hierarchy name).findSome? fun type =>
    (type.setter? property).map fun declared =>
      .ofMethod type.name (setterName property) declared.parameters

/-- Nearest field with the given name along the superclass chain. -/
def findField (system : TypeSystem) (name : TypeName) (field : String) : Option Field :=
  (system.superclassChain name).findSome? fun type =>
    (type.field? field).map fun _ => ⟨type.name, field⟩

/-- Declaration of a referenced method. -/
def methodInfo (system : TypeSystem) (executable : Executable) : Option DeclaredMethod :=
  match executable.kind with
  | .constructor => none
  | .method name =>
      (system.get? executable.declaringType).bind (·.method? name executable.parameters)

/-- Access level of a constructor or method. -/
def executableVisibility (system : TypeSystem) (executable : Executable) : Visibility :=
  match executable.kind with
  | .constructor =>
      (((system.constructors executable.declaringType).find?
        (·.parameters == executable.parameters)).map (·.visibility)).getD .publicAccess
  | .method _ => ((system.methodInfo executable).map (·.visibility)).getD .publicAccess

/-- Whether an executable and its declaring type are both public. -/
def isPublic (system : TypeSystem) (executable : Executable) : Bool :=
  (system.visibility executable.declaringType).isPublic &&
    (system.executableVisibility executable).isPublic

/-- Whether code of a package can call an executable directly. -/
def isAccessible (system : TypeSystem) (executable : Executable) (user : String) : Bool :=
  let declaring := executable.declaringType.package
  (system.visibility executable.declaringType).isAccessibleFrom declaring user &&
    (system.executableVisibility executable).isAccessibleFrom declaring user

/-- Whether a value of one type can be assigned to another. -/
def isAssignable (system : TypeSystem) (source target : TypeName) : Bool :=
  source == target || target == .object ||
    (system.hierarchy source).any fun type => type.name == target || type.supertypes.contains target

end TypeSystem
end Wiring
