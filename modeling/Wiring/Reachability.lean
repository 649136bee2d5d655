import Wiring.Reachability.Members
import Wiring.Reachability.Phases
import Wiring.Reachability.Resources

/-!
# Reachability registries

A registry holds everything a closed-world compiler must be told: reflective and native access,
resources, proxies, initialization phases, serializable types and free options.  Registries are
merged section by section; of two values of one option the right one wins.
-/

namespace Wiring

/-- Requirements of a native image. -/
structure Reachability where
  /-- Members used through reflection. -/
  reflection : MemberTable
  /-- Members used from native code. -/
  jni : MemberTable
  /-- Resources to keep. -/
  resources : Resources
  /-- Interface sets that need a proxy class; none is empty. -/
  proxies : SortedSet (SortedSet TypeName)
  /-- Initialization phases. -/
  phases : Phases
  /-- Types to be serialized. -/
  serialization : SortedSet TypeName
  /-- Options handed to the image build. -/
  options : SortedMap String String
  deriving DecidableEq

namespace Reachability

/-- Registry without requirements. -/
def empty : Reachability := ⟨.empty, .empty, .empty, .empty, .empty, .empty, .empty⟩

instance : EmptyCollection Reachability := ⟨empty⟩
instance : Inhabited Reachability := ⟨empty⟩

/-- Registry that holds options only. -/
def ofOptions (options : SortedMap String String) : Reachability := { empty with options }

/-- Add executables to the reflection section. -/
def reflect (registry : Reachability) (executables : List Executable) : Reachability :=
  { registry with reflection := registry.reflection.addExecutables executables }

/-- Keep a resource. -/
def addResource (registry : Reachability) (entry : ResourceEntry) : Reachability :=
  { registry with resources := registry.resources.add entry }

/-- Ask for a proxy class; the order of interfaces is irrelevant and none are ignored. -/
def addProxy (registry : Reachability) (interfaces : List TypeName) : Reachability :=
  if interfaces.isEmpty then registry
  else { registry with proxies := registry.proxies.insert (.ofList interfaces) }

/-- Ask for the initialization of a class in a phase. -/
def addClassPhase (registry : Reachability) (name : String) (phase : Phase) : Reachability :=
  { registry with phases := registry.phases.addClass name phase }

/-- Ask for the initialization of a package in a phase. -/
def addPackagePhase (registry : Reachability) (name : String) (phase : Phase) : Reachability :=
  { registry with phases := registry.phases.addPackage name phase }

/-- Keep a type serializable. -/
def addSerializable (registry : Reachability) (name : TypeName) : Reachability :=
  { registry with serialization := registry.serialization.insert name }

/-- Set an option, replacing an earlier value. -/
def setOption (registry : Reachability) (key value : String) : Reachability :=
  { registry with options := registry.options.insert key value }

/-- All requirements of two registries. -/
def merge (left right : Reachability) : Reachability where
  reflection := left.reflection.merge right.reflection
  jni := left.jni.merge right.jni
  resources := left.resources.merge right.resources
  proxies := left.proxies ∪ right.proxies
  phases := left.phases.merge right.phases
  serialization := left.serialization ∪ right.serialization
  options := left.options.overrideWith right.options

end Reachability
end Wiring
