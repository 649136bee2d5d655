import Wiring.Failure
import Wiring.Framework

/-!
# Components to be registered

For a component with its merged definition, this module resolves the executable that creates its
instances, the setters of its properties and its lifecycle methods.  What cannot be resolved is a
problem; problems are listed in the order creator, properties, lifecycle methods.
-/

namespace Wiring

/-- Component of a container with its merged definition. -/
structure Component where
  /-- Container of the component. -/
  container : Container
  /-- Name of the component. -/
  name : String
  /-- Merged definition. -/
  definition : Definition

/-- Property with the method that writes it. -/
structure Injection where
  /-- Property with its value. -/
  property : PropertyValue
  /-- Method that writes the property. -/
  setter : Executable
  deriving DecidableEq, Repr

namespace Component

/-- Known types. -/
def types (component : Component) : TypeSystem := component.container.types

/-- Declared type of the component. -/
def beanType (component : Component) : TypeName := component.definition.beanClass.getD .object

/-- Type of the instances. -/
def producedType (component : Component) : TypeName :=
  (component.container.producedType component.definition).getD component.beanType

/-- Type that an explicit value has by itself. -/
def valueType (container : Container) : Value → TypeName
  | .literal _ => .string
  | .reference component => (container.producedTypeOf? component).getD .object

/-- Parameter types that fit explicit arguments at positions counted from a start, if the positions
leave no gap. -/
def inferredParameters (container : Container) : Nat → List (Nat × Value) → Option (List TypeName)
  | _, [] => some []
  | position, (index, value) :: rest =>
      if index = position then
        (inferredParameters container (position + 1) rest).map (valueType container value :: ·)
      else
        none

/-- The only item of a list of one. -/
def sole? {α : Type} : List α → Option α
  | [item] => some item
  | _ => none

/-- Constructor that stands out among the declared ones: the only autowired one, the only one, the
only one with as many parameters as there are explicit arguments, or the one without parameters. -/
def chosenConstructor? (constructors : List DeclaredConstructor) (argumentCount : Nat) :
    Option DeclaredConstructor :=
  sole? (constructors.filter fun declared => declared.annotations.contains Framework.autowired) <|>
    sole? constructors <|>
    (if argumentCount = 0 then none
      else sole? (constructors.filter fun declared =>
        declared.parameters.length == argumentCount)) <|>
    constructors.find? fun declared => declared.parameters.isEmpty

/-- Executable that creates the instances: the declared source, a constructor inferred from the
arguments of an unknown type, or the constructor that stands out. -/
def creator? (component : Component) : Option Executable :=
  match component.definition.instanceSource with
  | some source => some source.executable
  | none =>
      let arguments := component.definition.arguments
      let parameters? :=
        if !component.types.contains component.beanType && !arguments.isEmpty then
          inferredParameters component.container 0 arguments.entries
        else
          (chosenConstructor? (component.types.constructors component.beanType)
            arguments.size).map (·.parameters)
      parameters?.map (.ofConstructor component.beanType)

/-- Method that writes a property; on an unknown type it is inferred from the value. -/
def setter? (component : Component) (property : PropertyValue) : Option Executable :=
  let target := component.producedType
  if component.types.contains target then component.types.findSetter target property.name
  else
    some (.ofMethod target (setterName property.name)
      [valueType component.container property.value])

/-- Lifecycle method without parameters; an unknown type is trusted to declare it. -/
def lifecycleMethod? (component : Component) (method : String) : Option Executable :=
  let target := component.producedType
  if component.types.contains target then component.types.findMethod target method []
  else some (.ofMethod target method [])

/-- Properties whose setters are resolved, in order. -/
def injections (component : Component) : List Injection :=
  component.definition.properties.filterMap fun property =>
    (component.setter? property).map (⟨property, ·⟩)

/-- Resolved methods to call after creation. -/
def initMethods (component : Component) : List Executable :=
  (component.definition.initMethod.bind component.lifecycleMethod?).toList

/-- Resolved methods to call before disposal. -/
def destroyMethods (component : Component) : List Executable :=
  (component.definition.destroyMethod.bind component.lifecycleMethod?).toList

/-- Problem with the creator. -/
def creatorProblem? (component : Component) : Option WriteProblem :=
  match component.creator? with
  | none => some (.noUniqueConstructor component.beanType)
  | some creator =>
      (component.definition.arguments.keys.find? (creator.parameters.length ≤ ·)).map
        (.argumentOutOfRange · creator)

/-- Problem with a property. -/
def propertyProblem? (component : Component) (property : PropertyValue) : Option WriteProblem :=
  if (component.setter? property).isSome then none
  else some (.noSetter property.name component.producedType)

/-- Problem with a lifecycle method. -/
def lifecycleProblem? (component : Component) (problem : String → TypeName → WriteProblem)
    (method : String) : Option WriteProblem :=
  if (component.lifecycleMethod? method).isSome then none
  else some (problem method component.producedType)

/-- Problems of resolution, in order. -/
def problems (component : Component) : List WriteProblem :=
  component.creatorProblem?.toList ++
    component.definition.properties.filterMap component.propertyProblem? ++
    (component.definition.initMethod.bind (component.lifecycleProblem? .noInitMethod)).toList ++
    (component.definition.destroyMethod.bind
      (component.lifecycleProblem? .noDestroyMethod)).toList

end Component

/-- How a component is created and initialized. -/
structure Plan where
  /-- Name of the component. -/
  component : String
  /-- Type of the instances. -/
  userType : TypeName
  /-- Executable that creates instances, if it is resolved. -/
  creator : Option Executable
  /-- Names of injected properties with their setters, all of them required. -/
  injections : List (String × Executable)
  /-- Methods to call after creation. -/
  initMethods : List Executable
  /-- Methods to call before disposal. -/
  destroyMethods : List Executable
  deriving DecidableEq, Repr

/-- Plan of a component as far as it is resolved. -/
def Component.plan (component : Component) : Plan where
  component := component.name
  userType := component.producedType
  creator := component.creator?
  injections := component.injections.map fun injection =>
    (injection.property.name, injection.setter)
  initMethods := component.initMethods
  destroyMethods := component.destroyMethods

end Wiring
