import Wiring.Bootstrap.Draft
import Wiring.Registration.Code
import Wiring.Text.Uppercase

/-!
# Registration writers

A writer adds the registration of one component to a draft.  A registration that must live in
another package becomes a method of that package's bootstrap class, called from the entry method.
Suppliers decide which writer a component gets; the first one that offers a writer wins.
-/

namespace Wiring

/-- Outcome of one write. -/
structure Written where
  /-- Draft as the write leaves it. -/
  draft : Draft
  /-- Problem that stopped the write. -/
  problem? : Option WriteProblem
  deriving DecidableEq

/-- Statement that calls a helper method. -/
def Draft.helperStatement (cls : TypeName) (helper : String) : Line :=
  .statement (.format "$T.$N(context)" [.type cls, .text helper])

namespace Component

/-- Base of the names of helper methods for a component. -/
def helperBase (component : Component) : String :=
  "register" ++ String.ofList (Text.capitalize component.producedType.simpleName.toList)

/-- Helper method that holds a registration. -/
def helperMethod (name : String) (body : Block) : Method where
  name
  modifiers := [.publicMember, .staticMember]
  annotations := []
  returnType := none
  parameters := [⟨Framework.genericContext, "context"⟩]
  body

/-- Add a registration to the class of its package: inline in the entry method of the main class, or
as a method of a helper class that the entry method calls. -/
def place (component : Component) (draft : Draft) (package : String) (block : Block) : Draft :=
  if package = draft.package then draft.append block
  else
    let (name, cls) := (draft.classOf package).allocate component.helperBase
    (draft.setClass package (cls.addMethod (helperMethod name block))).append
      [Draft.helperStatement cls.typeName name]

/-- Write a component whose creator is resolved. -/
def writeWith (component : Component) (draft : Draft) (creator : Executable) : Written :=
  let package := component.targetPackage draft.package
  let recorded := draft.reflect (component.recordedMembers package creator)
  match component.registration package creator with
  | .ok block => ⟨component.place recorded package block, none⟩
  | .error problem => ⟨recorded, some problem⟩

/-- Write a component, unless resolution left a problem. -/
def write (component : Component) (draft : Draft) : Written :=
  match component.creator?, component.problems with
  | some creator, [] => component.writeWith draft creator
  | none, [] => ⟨draft, some (.noUniqueConstructor component.beanType)⟩
  | _, problem :: _ => ⟨draft, some problem⟩

end Component

/-- Writer of the registration of one component. -/
inductive Writer where
  /-- Adds a test execution listener to the static factories. -/
  | listener (component : String) (implementation : TypeName)
  /-- Registers a component with the context. -/
  | registration (component : Component)

namespace Writer

/-- How the component is created and initialized. -/
def plan : Writer → Plan
  | listener component implementation =>
      { component
        userType := implementation
        creator := some (.ofConstructor implementation [])
        injections := []
        initMethods := []
        destroyMethods := [] }
  | registration component => component.plan

/-- Statement that adds a test execution listener. -/
def listenerCode (implementation : TypeName) : Block :=
  .statement "$T.names.add($T.class, $S)"
    [.type Framework.staticFactories, .type Framework.testExecutionListener,
      .text implementation.text]

/-- Add the registration to a draft. -/
def write (draft : Draft) : Writer → Written
  | listener _ implementation =>
      ⟨(draft.append (listenerCode implementation)).reflect [.ofConstructor implementation []],
        none⟩
  | registration component => component.write draft

end Writer

/-- Source of writers for the components it recognizes. -/
inductive Supplier where
  /-- Offers writers for test execution listeners listed in factories files. -/
  | testExecutionListeners
  /-- Offers writers for all components with a declared type, once it knows the container. -/
  | registrations (container : Option Container)

namespace Supplier

/-- Name of a supplier. -/
def name : Supplier → String
  | testExecutionListeners => "test-execution-listener-factories"
  | registrations _ => "default"

/-- Whether a supplier reads the container. -/
def isContainerAware : Supplier → Bool
  | testExecutionListeners => false
  | registrations _ => true

/-- Make a container known to a supplier that reads it. -/
def attach (container : Container) : Supplier → Supplier
  | testExecutionListeners => testExecutionListeners
  | registrations _ => registrations (some container)

/-- Writer for a component, if the supplier recognizes it. -/
def writer? (name : String) (definition : Definition) : Supplier → Option Writer
  | testExecutionListeners =>
      if definition.isFactoriesEntryFor Framework.testExecutionListener then
        definition.beanClass.map (.listener name)
      else
        none
  | registrations container? => do
      let container ← container?
      let _ ← definition.beanClass
      return .registration ⟨container, name, definition⟩

/-- Built-in suppliers in order. -/
def builtIn : List Supplier := [testExecutionListeners, registrations none]

end Supplier
end Wiring
