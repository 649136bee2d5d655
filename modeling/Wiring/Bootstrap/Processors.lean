import Wiring.Reachability.Hint
import Wiring.Registration.Component

/-!
# Processors of reachability

After every component is written, processors add requirements to the registry.  Container processors
look at the container as a whole, component processors at the plans of the written components.
-/

namespace Wiring

namespace Container

/-- Types whose presence a component type implies: its superclasses and their annotations. -/
def impliedTypes (container : Container) (type : TypeName) : List TypeName :=
  (container.types.superclassChain type).flatMap (fun declared =>
    declared.name :: declared.annotations) ++ [type]

/-- Declared and produced type of a definition. -/
def componentTypes (container : Container) (definition : Definition) : List TypeName :=
  definition.beanClass.toList ++ (container.producedType definition).toList

/-- Types present in a container: component types with what they imply, and the annotations of the
configuration. -/
def presentTypes (container : Container) : Except ContainerError (SortedSet TypeName) :=
  container.names.foldlM
    (fun present name =>
      (container.merged name).map fun definition =>
        present.insertAll
          ((container.componentTypes definition).flatMap container.impliedTypes))
    (.ofList container.metadata.annotations)

end Container

/-- Processor that looks at the whole container. -/
inductive ContainerProcessor where
  /-- Applies the hints that the present types trigger. -/
  | hints (hints : List Hint)
  /-- Keeps the resources of class path property sources. -/
  | propertySources
  /-- Applies one hint whatever its trigger. -/
  | always (hint : Hint)

namespace ContainerProcessor

/-- Add the requirements of a processor. -/
def process (container : Container) (registry : Reachability) :
    ContainerProcessor → Except ContainerError Reachability
  | hints candidates =>
      container.presentTypes.map fun present =>
        Hint.applyTriggered candidates present container.types registry
  | propertySources =>
      .ok ((container.metadata.propertySources.filterMap (·.classpathLocation?)).foldl
        (fun registry location => registry.addResource (.pattern location)) registry)
  | always hint => .ok (hint.apply container.types registry)

/-- Built-in container processors, with hints beside the built-in ones. -/
def builtIn (extra : List Hint) : List ContainerProcessor :=
  [hints (Hint.transactionManagement ++ extra), propertySources]

/-- Add the requirements of several processors; the first error stops, keeping what was added. -/
def processAll (container : Container) (registry : Reachability) :
    List ContainerProcessor → Reachability × Option ContainerError
  | [] => (registry, none)
  | processor :: rest =>
      match processor.process container registry with
      | .ok next => processAll container next rest
      | .error cause => (registry, some cause)

end ContainerProcessor

namespace Plan

/-- Make the types of reference parameters of a creator present. -/
def touchParameters (registry : Reachability) (creator : Executable) : Reachability :=
  { registry with
    reflection :=
      (creator.parameters.filter fun parameter => !parameter.isPrimitive).foldl MemberTable.touch
        registry.reflection }

/-- Executables of a list that are not public. -/
def hidden (types : TypeSystem) (executables : List Executable) : List Executable :=
  executables.filter fun executable => !types.isPublic executable

/-- Add the members that the context calls for a component at run time. -/
def require (types : TypeSystem) (registry : Reachability) (plan : Plan) : Reachability :=
  let created :=
    match plan.creator with
    | none => registry
    | some creator => touchParameters (registry.reflect (hidden types [creator])) creator
  created.reflect
    (hidden types (plan.injections.map (·.2)) ++ plan.initMethods ++ plan.destroyMethods)

end Plan

/-- Processor that looks at the plans of written components. -/
inductive ComponentProcessor where
  /-- Keeps the members that the context calls at run time. -/
  | injectionPoints
  /-- Keeps the types of components serializable. -/
  | serialization

namespace ComponentProcessor

/-- Add the requirements of a processor. -/
def process (types : TypeSystem) (plans : List Plan) (registry : Reachability) :
    ComponentProcessor → Reachability
  | injectionPoints => plans.foldl (Plan.require types) registry
  | serialization =>
      plans.foldl (fun registry plan => registry.addSerializable plan.userType) registry

/-- Add the requirements of several processors. -/
def processAll (types : TypeSystem) (plans : List Plan) (registry : Reachability)
    (processors : List ComponentProcessor) : Reachability :=
  processors.foldl (process types plans) registry

end ComponentProcessor

/-- Processors that run after every component is written. -/
structure Processors where
  /-- Processors of the container, in order. -/
  ofContainer : List ContainerProcessor
  /-- Processors of the plans, in order. -/
  ofComponents : List ComponentProcessor

namespace Processors

/-- No processors. -/
def none : Processors := ⟨[], []⟩

/-- Built-in processors, with hints beside the built-in ones. -/
def builtIn (extra : List Hint) : Processors :=
  ⟨ContainerProcessor.builtIn extra, [.injectionPoints]⟩

/-- Processors followed by others. -/
def append (first second : Processors) : Processors :=
  ⟨first.ofContainer ++ second.ofContainer, first.ofComponents ++ second.ofComponents⟩

instance : Append Processors := ⟨append⟩

end Processors
end Wiring
