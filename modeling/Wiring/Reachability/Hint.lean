import Wiring.Reachability
import Wiring.TypeSystem

/-!
# Hints

A hint bundles the requirements of a library and applies when its trigger type is present.  A type
hint resolves its access requests per type: automatic access becomes the flag that suits the kind,
a request for the class file becomes a resource, and a request for native access selects the JNI
section for everything else it asks.
-/

namespace Wiring

/-- Requirements for a group of types. -/
structure TypeHint where
  /-- Types the hint is about. -/
  types : List TypeName
  /-- Requested kinds of access. -/
  access : List Access
  /-- Names and parameter types of methods; the constructor name stands for constructors. -/
  methods : List (String × List TypeName)
  /-- Names of fields. -/
  fields : List String
  deriving DecidableEq, Repr

namespace TypeHint

/-- Hint that asks for automatic access. -/
def auto (types : List TypeName) : TypeHint := ⟨types, [.autoDetect], [], []⟩

/-- Kinds of access to which a request amounts for a type of the given kind. -/
def resolve (kind : TypeKind) : Access → List Access
  | .autoDetect => (Access.detected kind).toList
  | access => [access]

/-- Flags requested for a type of the given kind, without the selectors of sections. -/
def flags (hint : TypeHint) (kind : TypeKind) : List Access :=
  (hint.access.flatMap (resolve kind)).filter fun access => access != .jni && access != .resource

/-- Executable of a type that a method name and parameter types stand for. -/
def executable (name : TypeName) (method : String × List TypeName) : Executable :=
  if method.1 = Executable.constructorName then .ofConstructor name method.2
  else .ofMethod name method.1 method.2

/-- Requirements that a hint makes for one of its types. -/
def entry (hint : TypeHint) (system : TypeSystem) (name : TypeName) : TypeEntry :=
  .ofLists (hint.flags (system.kind name)) (hint.methods.map (executable name)) hint.fields

/-- Add the requirements for one type of a hint. -/
def applyTo (hint : TypeHint) (system : TypeSystem) (registry : Reachability) (name : TypeName) :
    Reachability :=
  let kept :=
    if hint.access.contains .resource then registry.addResource (.ofClass name) else registry
  if hint.access.contains .jni then
    { kept with jni := kept.jni.require name (hint.entry system name) }
  else
    { kept with reflection := kept.reflection.require name (hint.entry system name) }

/-- Add the requirements of a hint. -/
def apply (hint : TypeHint) (system : TypeSystem) (registry : Reachability) : Reachability :=
  hint.types.foldl (hint.applyTo system) registry

end TypeHint

/-- Requirements that apply when a trigger type is present. -/
structure Hint where
  /-- Type whose presence triggers the hint; without one the hint always applies. -/
  trigger : Option TypeName
  /-- Requirements for types. -/
  types : List TypeHint
  /-- Resources to keep. -/
  resources : List ResourceEntry
  /-- Interfaces of proxies. -/
  proxies : List (List TypeName)
  /-- Types to be serialized. -/
  serializables : List TypeName
  /-- Classes with their initialization phases. -/
  classPhases : List (String × Phase)
  deriving DecidableEq, Repr

namespace Hint

/-- Hint about types alone. -/
def ofTypes (trigger : Option TypeName) (types : List TypeHint) : Hint :=
  ⟨trigger, types, [], [], [], []⟩

/-- Whether a hint applies when the given types are present. -/
def isTriggeredBy (hint : Hint) (present : SortedSet TypeName) : Bool :=
  hint.trigger.all fun trigger => decide (trigger ∈ present)

/-- Add the requirements of a hint, whatever its trigger. -/
def apply (hint : Hint) (system : TypeSystem) (registry : Reachability) : Reachability :=
  let registry := hint.types.foldl (fun registry types => types.apply system registry) registry
  let registry := hint.resources.foldl Reachability.addResource registry
  let registry := hint.proxies.foldl Reachability.addProxy registry
  let registry := hint.serializables.foldl Reachability.addSerializable registry
  hint.classPhases.foldl (fun registry entry => registry.addClassPhase entry.1 entry.2) registry

/-- Add the requirements of those hints that the present types trigger. -/
def applyTriggered (hints : List Hint) (present : SortedSet TypeName) (system : TypeSystem)
    (registry : Reachability) : Reachability :=
  (hints.filter (·.isTriggeredBy present)).foldl (fun registry hint => hint.apply system registry)
    registry

/-- Configuration that manages transactions through proxies. -/
def proxyTransactions : TypeName :=
  ⟨"org.springframework.transaction.annotation.ProxyTransactionManagementConfiguration"⟩

/-- Annotation that marks transactional code. -/
def transactional : TypeName := ⟨"org.springframework.transaction.annotation.Transactional"⟩

/-- Configuration that weaves transactions into classes. -/
def wovenTransactions : TypeName :=
  ⟨"org.springframework.transaction.aspectj.AspectJJtaTransactionManagementConfiguration"⟩

/-- Hints for annotation-driven transaction management. -/
def transactionManagement : List Hint :=
  [ofTypes (some proxyTransactions)
      [.auto [⟨"org.springframework.context.annotation.AutoProxyRegistrar"⟩, proxyTransactions],
        .auto
          [⟨"org.springframework.transaction.interceptor." ++
              "BeanFactoryTransactionAttributeSourceAdvisor$1"⟩]],
    ofTypes (some transactional)
      [⟨[transactional, ⟨"javax.transaction.Transactional"⟩], [.publicMethods], [], []⟩,
        ⟨[⟨"org.springframework.transaction.annotation.Propagation"⟩],
          [.declaredMethods, .declaredFields], [], []⟩],
    ofTypes (some wovenTransactions)
      [.auto
        [wovenTransactions,
          ⟨"org.springframework.transaction.aspectj.AspectJTransactionManagementConfiguration"⟩]]]

end Hint
end Wiring
