import Wiring.Json
import Wiring.Reachability

/-!
# Snapshots and descriptor files

A snapshot is the content of a registry as ordered lists, ready to be written.  Each kind of
descriptor file has a JSON document of its own.
-/

namespace Wiring

/-- Method or constructor of a class descriptor. -/
structure MethodDescriptor where
  /-- Name of the method. -/
  name : String
  /-- Parameter types in order. -/
  parameterTypes : List TypeName
  deriving DecidableEq, Repr

namespace MethodDescriptor

/-- Descriptor of an executable, which drops its declaring type. -/
def ofExecutable (executable : Executable) : MethodDescriptor :=
  ⟨executable.name, executable.parameters⟩

/-- Descriptor of a constructor without parameters. -/
def defaultConstructor : MethodDescriptor := ⟨Executable.constructorName, []⟩

end MethodDescriptor

/-- Requirements of one type, ready to be written. -/
structure ClassDescriptor where
  /-- Name of the type. -/
  name : TypeName
  /-- Flags in order. -/
  access : List Access
  /-- Methods, unless none was requested. -/
  methods : Option (List MethodDescriptor)
  /-- Names of fields, unless none was requested. -/
  fields : Option (List String)
  deriving DecidableEq, Repr

namespace ClassDescriptor

/-- Whether a method is listed. -/
def containsMethod (descriptor : ClassDescriptor) (method : MethodDescriptor) : Bool :=
  descriptor.methods.any (·.contains method)

/-- List that stands for nothing when it is empty. -/
def listed {α : Type} : List α → Option (List α)
  | [] => none
  | items => some items

/-- Descriptor of an entry of a member table. -/
def ofEntry (name : TypeName) (entry : TypeEntry) : ClassDescriptor where
  name
  access := entry.access.items.filter Access.isReflectionFlag
  methods := listed (entry.executables.items.map MethodDescriptor.ofExecutable)
  fields := listed entry.fields.items

end ClassDescriptor

/-- Descriptors of a member table, ordered by type. -/
def MemberTable.descriptors (table : MemberTable) : List ClassDescriptor :=
  table.entries.map fun entry => .ofEntry entry.1 entry.2

/-- Names to be initialized, by phase. -/
structure PhasesDescriptor where
  /-- Classes initialized when the image is built. -/
  buildTimeClasses : List String
  /-- Packages initialized when the image is built. -/
  buildTimePackages : List String
  /-- Classes initialized when the image runs. -/
  runtimeClasses : List String
  /-- Packages initialized when the image runs. -/
  runtimePackages : List String
  deriving DecidableEq, Repr

/-- Names of a collection of phases. -/
def Phases.descriptor (phases : Phases) : PhasesDescriptor where
  buildTimeClasses := phases.classes.namesIn .buildTime
  buildTimePackages := phases.packages.namesIn .buildTime
  runtimeClasses := phases.classes.namesIn .runTime
  runtimePackages := phases.packages.namesIn .runTime

/-- Kind of descriptor file. -/
inductive DescriptorKind where
  | reflection
  | resources
  | proxy
  | initialization
  | serialization
  | jni
  deriving DecidableEq, Repr

namespace DescriptorKind

/-- Every kind of descriptor file. -/
def all : List DescriptorKind :=
  [reflection, resources, proxy, initialization, serialization, jni]

/-- Conventional name of a descriptor file. -/
def fileName : DescriptorKind → String
  | reflection => "reflect-config.json"
  | resources => "resource-config.json"
  | proxy => "proxy-config.json"
  | initialization => "initialization-config.json"
  | serialization => "serialization-config.json"
  | jni => "jni-config.json"

end DescriptorKind

/-- Content of a registry as ordered lists. -/
structure Snapshot where
  /-- Types used through reflection. -/
  reflection : List ClassDescriptor
  /-- Types used from native code. -/
  jni : List ClassDescriptor
  /-- Resource patterns. -/
  patterns : List String
  /-- Resource bundles. -/
  bundles : List String
  /-- Interfaces of each proxy. -/
  proxies : List (List TypeName)
  /-- Initialization phases. -/
  phases : PhasesDescriptor
  /-- Types to be serialized. -/
  serialization : List TypeName
  /-- Options with their values. -/
  options : List (String × String)
  deriving DecidableEq, Repr

/-- Snapshot of a registry. -/
def Reachability.snapshot (registry : Reachability) : Snapshot where
  reflection := registry.reflection.descriptors
  jni := registry.jni.descriptors
  patterns := registry.resources.patterns.items
  bundles := registry.resources.bundles.items
  proxies := registry.proxies.items.map (·.items)
  phases := registry.phases.descriptor
  serialization := registry.serialization.items
  options := registry.options.entries

namespace Json

/-- Array of strings. -/
def strings (texts : List String) : Json := .array (texts.map .string)

/-- Object with a single field named `name`. -/
def named (text : String) : Json := .object [("name", .string text)]

/-- Document of a method descriptor. -/
def ofMethod (method : MethodDescriptor) : Json :=
  .object
    [("name", .string method.name),
      ("parameterTypes", strings (method.parameterTypes.map TypeName.text))]

/-- Document of a class descriptor: name, flags, then methods and fields if there are any. -/
def ofClass (descriptor : ClassDescriptor) : Json :=
  .object
    (("name", .string descriptor.name.text) ::
      descriptor.access.map (fun access => (access.key, .bool true)) ++
      (descriptor.methods.map fun methods => ("methods", .array (methods.map ofMethod))).toList ++
      (descriptor.fields.map fun fields => ("fields", .array (fields.map named))).toList)

end Json

namespace Snapshot

/-- Document of a descriptor file. -/
def document (snapshot : Snapshot) : DescriptorKind → Json
  | .reflection => .array (snapshot.reflection.map .ofClass)
  | .resources =>
      .object
        [("resources",
          .object
            [("includes",
              .array (snapshot.patterns.map fun text => .object [("pattern", .string text)]))]),
          ("bundles", .array (snapshot.bundles.map .named))]
  | .proxy =>
      .array (snapshot.proxies.map fun interfaces =>
        .object [("interfaces", .strings (interfaces.map TypeName.text))])
  | .initialization =>
      .object
        [("buildTimeClasses", .strings snapshot.phases.buildTimeClasses),
          ("buildTimePackages", .strings snapshot.phases.buildTimePackages),
          ("runtimeClasses", .strings snapshot.phases.runtimeClasses),
          ("runtimePackages", .strings snapshot.phases.runtimePackages)]
  | .serialization => .array (snapshot.serialization.map fun name => .named name.text)
  | .jni => .array (snapshot.jni.map .ofClass)

/-- Text of a descriptor file. -/
def text (snapshot : Snapshot) (kind : DescriptorKind) : String := (snapshot.document kind).pretty

/-- Class descriptor of a reflectively used type. -/
def reflectionOf? (snapshot : Snapshot) (name : TypeName) : Option ClassDescriptor :=
  snapshot.reflection.find? fun descriptor => descriptor.name == name

end Snapshot
end Wiring
