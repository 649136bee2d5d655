import Wiring.Definition
import Wiring.TypeSystem.Lookup

/-!
# Containers

A container is seen through its component names, the merged definition of each name, its metadata
and its type system.  Names may repeat and need not have a definition.
-/

namespace Wiring

/-- Reasons why a name has no merged definition. -/
inductive ContainerError where
  /-- The name itself is not registered. -/
  | noSuchComponent (name : String)
  /-- The parent links of a name end at an unregistered one. -/
  | missingParent (name parent : String)
  /-- The parent links of a name revisit a definition. -/
  | cyclicParent (name : String)
  deriving DecidableEq, Repr

/-- Text of a container error. -/
def ContainerError.message : ContainerError → String
  | noSuchComponent name => "No component named '" ++ name ++ "' is defined"
  | missingParent name parent =>
      "Component '" ++ name ++ "' declares unknown parent '" ++ parent ++ "'"
  | cyclicParent name => "Cyclic parent chain detected for component '" ++ name ++ "'"

/-- Property source registered with the environment. -/
structure PropertySource where
  /-- Name of the source. -/
  name : String
  /-- Location, with a scheme such as `classpath:`. -/
  location : String
  deriving DecidableEq, Repr, Inhabited

/-- Resource path of a class path location, without leading slashes. -/
def PropertySource.classpathLocation? (source : PropertySource) : Option String :=
  (Text.afterStart? "classpath:".toList source.location.toList).map fun path =>
    String.ofList (path.dropWhile (· == '/'))

/-- Annotated event listener method of a component. -/
structure EventListener where
  /-- Name of the component. -/
  component : String
  /-- Type of the component. -/
  componentType : TypeName
  /-- Method to call. -/
  method : Executable
  deriving DecidableEq, Repr, Inhabited

/-- State of a container beside its definitions. -/
structure ContainerMetadata where
  /-- Annotations on the configuration. -/
  annotations : List TypeName
  /-- Property sources in order. -/
  propertySources : List PropertySource
  /-- Active profiles in order. -/
  activeProfiles : List String
  /-- Event listener methods in order. -/
  eventListeners : List EventListener
  deriving DecidableEq, Repr, Inhabited

/-- Populated container as a generation run sees it. -/
structure Container where
  /-- Component names in registration order. -/
  names : List String
  /-- Definition of a name with its ancestors merged in. -/
  merged : String → Except ContainerError Definition
  /-- State beside the definitions. -/
  metadata : ContainerMetadata
  /-- Known types. -/
  types : TypeSystem

namespace Container

/-- Type of the instances that a definition produces. -/
def producedType (container : Container) (definition : Definition) : Option TypeName :=
  match definition.instanceSource with
  | some (.factoryMethod _ method) | some (.staticFactoryMethod method) =>
      ((container.types.methodInfo method).map (·.returnType)) <|> definition.beanClass
  | _ => definition.beanClass

/-- Type of the instances that a named component produces. -/
def producedTypeOf? (container : Container) (name : String) : Option TypeName :=
  (container.merged name).toOption.bind container.producedType

/-- Names of the components whose instances can be assigned to a type. -/
def namesForType (container : Container) (target : TypeName) : List String :=
  container.names.filter fun name =>
    (container.producedTypeOf? name).any fun produced =>
      container.types.isAssignable produced target

end Container
end Wiring
