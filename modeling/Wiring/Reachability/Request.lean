import Wiring.Reachability.Hint

/-!
# Requests to a registry

A request is one addition to a registry.  A registry is the result of the requests made of it, and
`Reachability.replay` builds it from a list of them.
-/

namespace Wiring

/-- Section of a registry that holds members. -/
inductive MemberSection where
  | reflection
  | jni
  deriving DecidableEq, Repr, Inhabited

/-- One addition to a registry. -/
inductive Request where
  /-- A constructor or method, under the type that declares it. -/
  | executable (target : MemberSection) (executable : Executable)
  /-- A field, under the type that declares it. -/
  | field (target : MemberSection) (field : Field)
  /-- A type with access, executables and field names. -/
  | type (target : MemberSection) (name : TypeName) (entry : TypeEntry)
  /-- A resource. -/
  | resource (entry : ResourceEntry)
  /-- A proxy class. -/
  | proxy (interfaces : List TypeName)
  /-- Initialization of a class. -/
  | classPhase (name : String) (phase : Phase)
  /-- Initialization of a package. -/
  | packagePhase (name : String) (phase : Phase)
  /-- A serializable type. -/
  | serializable (name : TypeName)
  /-- The value of an option. -/
  | option (key value : String)
  /-- Everything a hint asks. -/
  | hint (hint : Hint)

namespace Reachability

/-- Change one member section. -/
def changeMembers (registry : Reachability) (target : MemberSection)
    (change : MemberTable → MemberTable) : Reachability :=
  match target with
  | .reflection => { registry with reflection := change registry.reflection }
  | .jni => { registry with jni := change registry.jni }

/-- Satisfy one request. -/
def satisfy (system : TypeSystem) (registry : Reachability) : Request → Reachability
  | .executable target executable =>
      registry.changeMembers target (MemberTable.addExecutable · executable)
  | .field target field => registry.changeMembers target (MemberTable.addField · field)
  | .type target name entry => registry.changeMembers target (MemberTable.require · name entry)
  | .resource entry => registry.addResource entry
  | .proxy interfaces => registry.addProxy interfaces
  | .classPhase name phase => registry.addClassPhase name phase
  | .packagePhase name phase => registry.addPackagePhase name phase
  | .serializable name => registry.addSerializable name
  | .option key value => registry.setOption key value
  | .hint hint => hint.apply system registry

/-- Registry built from a list of requests. -/
def replay (system : TypeSystem) (requests : List Request) : Reachability :=
  requests.foldl (satisfy system) empty

end Reachability
end Wiring
