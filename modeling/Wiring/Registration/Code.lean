import Wiring.Registration.Component
import Wiring.Source.Block

/-!
# Registration code

The registration of a component is one call that hands the context a name, a type and a supplier of
instances.  Members that code of the target package can reach are called directly; the others are
called reflectively, and `recordedMembers` lists them.
-/

namespace Wiring
namespace Component

/-- Look-up of a named component. -/
def lookupCode (component : String) (type : TypeName) : Fragment :=
  .format "context.getBean($S, $T.class)" [.text component, .type type]

/-- Value for a parameter without explicit argument: the environment, the context, the only other
component whose instances fit, or whatever the context finds by type. -/
def autowireCode (component : Component) (parameter : TypeName) : Fragment :=
  if Framework.environmentTypes.contains parameter then .text "context.getEnvironment()"
  else if Framework.contextTypes.contains parameter then .text "context"
  else
    match (component.container.namesForType parameter).filter (· != component.name) with
    | [candidate] => lookupCode candidate parameter
    | _ => .format "context.getBean($T.class)" [.type parameter]

/-- Code of an explicit value for a target type. -/
def valueCode (component : Component) (target : TypeName) : Value → Except InvalidLiteral Fragment
  | .reference other => .ok (lookupCode other target)
  | .literal text => Literal.ofText component.types text target

/-- Value of the parameter at a position. -/
def argumentCode (component : Component) (parameter : TypeName × Nat) :
    Except WriteProblem Fragment :=
  match component.definition.arguments.get? parameter.2 with
  | some value => (component.valueCode parameter.1 value).mapError (.invalidArgument parameter.2)
  | none => .ok (component.autowireCode parameter.1)

/-- Values of the parameters of the creator. -/
def argumentCodes (component : Component) (creator : Executable) :
    Except WriteProblem (List Fragment) :=
  creator.parameters.zipIdx.mapM component.argumentCode

/-- Class literals of parameter types, each after a comma. -/
def classLiterals (parameters : List TypeName) : Fragment :=
  .concat (parameters.map fun parameter => .format ", $T.class" [.type parameter])

/-- Values, each after a comma. -/
def trailing (arguments : List Fragment) : Fragment :=
  .concat (arguments.map fun argument => .format ", $L" [.code argument])

/-- Direct call of the creator. -/
def directCreation (component : Component) (creator : Executable) (arguments : List Fragment) :
    Fragment :=
  let list : Argument := .code (.join ", " arguments)
  match component.definition.instanceSource with
  | some (.factoryMethod factory method) =>
      .format "context.getBean($S, $T.class).$N($L)"
        [.text factory, .type creator.declaringType, .text method.name, list]
  | some (.staticFactoryMethod method) =>
      .format "$T.$N($L)" [.type creator.declaringType, .text method.name, list]
  | _ => .format "new $T($L)" [.type creator.declaringType, list]

/-- Reflective call of the creator. -/
def reflectiveCreation (component : Component) (creator : Executable)
    (arguments : List Fragment) : Fragment :=
  let classes : Argument := .code (classLiterals creator.parameters)
  let values : Argument := .code (trailing arguments)
  match component.definition.instanceSource with
  | some (.factoryMethod factory method) =>
      .format "($T) $T.invokeMethod($T.findMethod($T.class, $S$L), context.getBean($S)$L)"
        [.type component.producedType, .type Framework.reflectionUtils,
          .type Framework.reflectionUtils, .type creator.declaringType, .text method.name, classes,
          .text factory, values]
  | some (.staticFactoryMethod method) =>
      .format "($T) $T.invokeMethod($T.findMethod($T.class, $S$L), null$L)"
        [.type component.producedType, .type Framework.reflectionUtils,
          .type Framework.reflectionUtils, .type creator.declaringType, .text method.name, classes,
          values]
  | _ =>
      .format "$T.instantiateClass($T.accessibleConstructor($T.class$L)$L)"
        [.type Framework.beanUtils, .type Framework.reflectionUtils, .type creator.declaringType,
          classes, values]

/-- Expression that creates an instance in code of a package. -/
def instanceCode (component : Component) (package : String) (creator : Executable) :
    Except WriteProblem Fragment :=
  (component.argumentCodes creator).map fun arguments =>
    if component.types.isAccessible creator package then
      component.directCreation creator arguments
    else
      component.reflectiveCreation creator arguments

/-- Type of the value that a setter takes. -/
def setterTarget (setter : Executable) : TypeName := setter.parameters.head?.getD .object

/-- Call of a setter in code of a package. -/
def setterCode (component : Component) (package : String) (setter : Executable)
    (value : Fragment) : Fragment :=
  if component.types.isAccessible setter package then
    .format "bean.$N($L)" [.text setter.name, .code value]
  else
    .format "$T.invokeMethod($T.findMethod($T.class, $S, $T.class), bean, $L)"
      [.type Framework.reflectionUtils, .type Framework.reflectionUtils,
        .type setter.declaringType, .text setter.name, .type (setterTarget setter), .code value]

/-- Value of a property. -/
def injectionValue (component : Component) (injection : Injection) :
    Except WriteProblem Fragment :=
  (component.valueCode (setterTarget injection.setter) injection.property.value).mapError
    (.invalidProperty injection.property.name)

/-- Statement that sets a property in code of a package. -/
def injectionCode (component : Component) (package : String) (injection : Injection) :
    Except WriteProblem Line :=
  (component.injectionValue injection).map fun value =>
    .statement (component.setterCode package injection.setter value)

/-- Statement without arguments of its own, present under a condition. -/
def statementIf (condition : Bool) (statement : Block) : Block :=
  if condition then statement else []

/-- Statement about a name that may be open. -/
def statementFor (format : String) : Option String → Block
  | none => []
  | some name => .statement format [.text name]

/-- Statements that set the attributes in which a definition differs from the default. -/
def customizers (definition : Definition) : Block :=
  statementIf (definition.effectiveScope != .singleton)
      (Block.statement "definition.setScope($S)" [.text definition.effectiveScope.name]) ++
    statementIf definition.primary (Block.statement "definition.setPrimary(true)" []) ++
    statementIf definition.lazyInit (Block.statement "definition.setLazyInit(true)" []) ++
    statementIf (definition.role != .application)
      (Block.statement "definition.setRole($T.$N)"
        [.type Framework.beanDefinition, .text definition.role.constant]) ++
    statementFor "definition.setInitMethodNames($S)" definition.initMethod ++
    statementFor "definition.setDestroyMethodNames($S)" definition.destroyMethod

/-- Call that registers a component with a given instance expression and property statements. -/
def registrationCall (component : Component) (instanceCode : Fragment) (setters : Block) : Block :=
  let name : Argument := .text component.name
  let produced : Argument := .type component.producedType
  let customized := customizers component.definition
  if component.definition.properties.isEmpty then
    if customized.isEmpty then
      Block.statement "context.registerBean($S, $T.class, () -> $L)" [name, produced, .code instanceCode]
    else
      Block.openBrace "context.registerBean($S, $T.class, () -> $L, (definition) ->"
          [name, produced, .code instanceCode] ++
        customized ++ Block.closeStatement ")" []
  else
    Block.openBrace "context.registerBean($S, $T.class, () ->" [name, produced] ++
      Block.statement "$T bean = $L" [produced, .code instanceCode] ++ setters ++
      Block.statement "return bean" [] ++
      (if customized.isEmpty then [] else Block.nextBrace ", (definition) ->" [] ++ customized) ++
      Block.closeStatement ")" []

/-- Registration of a component in code of a package. -/
def registration (component : Component) (package : String) (creator : Executable) :
    Except WriteProblem Block := do
  let instanceCode ← component.instanceCode package creator
  let setters ← component.injections.mapM (component.injectionCode package)
  return component.registrationCall instanceCode setters

/-- Members that the registration calls reflectively: the creator once its arguments are converted,
and the setters up to the first value that cannot be converted. -/
def recordedMembers (component : Component) (package : String) (creator : Executable) :
    List Executable :=
  let reached :=
    if (component.argumentCodes creator).isOk then
      creator ::
        (component.injections.takeWhile fun injection =>
          (component.injectionValue injection).isOk).map (·.setter)
    else
      []
  reached.filter fun executable => !component.types.isAccessible executable package

/-- Package in which the registration sees the declared and the produced type. -/
def targetPackage (component : Component) (main : String) : String :=
  (([component.beanType, component.producedType].find? fun type =>
    !(component.types.visibility type).isPublic).map TypeName.package).getD main

end Component
end Wiring
