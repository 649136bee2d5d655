import Wiring.Proofs.StatementTexts

/-!
# Texts of creator calls

A creator is called in one of six forms: a constructor, a method of another component or a static
method, each directly or reflectively.  `render_creation` gives the text of every form, with one
expression for each argument.
-/

namespace Wiring
namespace Component

variable (typeText : TypeName → String)

/-- Text of a direct call in front of the arguments in parentheses. -/
def directCallee (creator : Executable) : Option InstanceSource → String
  | some (.factoryMethod factory method) =>
      "context.getBean(" ++ Text.quote factory ++ ", " ++ typeText creator.declaringType ++
        ".class)." ++ method.name
  | some (.staticFactoryMethod method) => typeText creator.declaringType ++ "." ++ method.name
  | _ => "new " ++ typeText creator.declaringType

/-- Class literals of the parameters, each after a comma. -/
def parameterClasses (creator : Executable) : String :=
  String.join (creator.parameters.map fun parameter => ", " ++ typeText parameter ++ ".class")

/-- Text that looks up a method and calls it, in front of the object it is called on. -/
def methodLookup (produced : TypeName) (creator : Executable) (method : Executable) : String :=
  "(" ++ typeText produced ++ ") " ++ typeText Framework.reflectionUtils ++ ".invokeMethod(" ++
    typeText Framework.reflectionUtils ++ ".findMethod(" ++ typeText creator.declaringType ++
    ".class, " ++ Text.quote method.name ++ parameterClasses typeText creator ++ "), "

/-- Text of a reflective call in front of the arguments, each of which follows a comma. -/
def reflectiveCallee (produced : TypeName) (creator : Executable) : Option InstanceSource → String
  | some (.factoryMethod factory method) =>
      methodLookup typeText produced creator method ++ "context.getBean(" ++ Text.quote factory ++
        ")"
  | some (.staticFactoryMethod method) => methodLookup typeText produced creator method ++ "null"
  | _ =>
      typeText Framework.beanUtils ++ ".instantiateClass(" ++ typeText Framework.reflectionUtils ++
        ".accessibleConstructor(" ++ typeText creator.declaringType ++ ".class" ++
        parameterClasses typeText creator ++ ")"

/-- Text of a direct call, with the texts of its arguments. -/
def directCall (creator : Executable) (source : Option InstanceSource) (arguments : List String) :
    String :=
  directCallee typeText creator source ++ "(" ++ ", ".intercalate arguments ++ ")"

/-- Text of a reflective call, with the texts of its arguments. -/
def reflectiveCall (produced : TypeName) (creator : Executable) (source : Option InstanceSource)
    (arguments : List String) : String :=
  reflectiveCallee typeText produced creator source ++
    String.join (arguments.map fun argument => ", " ++ argument) ++ ")"

/-- Text of the call of a creator in code of a package, with the texts of its arguments. -/
def creationText (component : Component) (package : String) (creator : Executable)
    (arguments : List String) : String :=
  let source := component.definition.instanceSource
  if component.types.isAccessible creator package then
    directCall typeText creator source arguments
  else reflectiveCall typeText component.producedType creator source arguments

/-- Expression that calls a creator with given arguments in code of a package. -/
def creation (component : Component) (package : String) (creator : Executable)
    (arguments : List Fragment) : Fragment :=
  if component.types.isAccessible creator package then
    component.directCreation creator arguments
  else component.reflectiveCreation creator arguments

theorem toList_map_render (fragments : List Fragment) :
    (fragments.map (·.render typeText)).map String.toList =
      fragments.map (Fragment.chars typeText) := by
  simp [Fragment.toList_render]

theorem toList_parameterClasses (creator : Executable) :
    (parameterClasses typeText creator).toList =
      (classLiterals creator.parameters).chars typeText := by
  rw [parameterClasses, classLiterals, Fragment.chars_concat, String.toList_join, List.flatMap_map,
    List.flatMap_map]
  simp [Fragment.format, Placeholder.fill]

theorem chars_trailing (arguments : List Fragment) :
    (trailing arguments).chars typeText =
      (String.join ((arguments.map (·.render typeText)).map fun argument =>
        ", " ++ argument)).toList := by
  rw [trailing, Fragment.chars_concat, String.toList_join, List.flatMap_map, List.flatMap_map,
    List.flatMap_map]
  simp [Fragment.format, Placeholder.fill, Fragment.toList_render]

theorem render_directCreation (component : Component) (creator : Executable)
    (arguments : List Fragment) :
    (component.directCreation creator arguments).render typeText =
      directCall typeText creator component.definition.instanceSource
        (arguments.map (·.render typeText)) := by
  apply String.toList_inj.mp
  simp only [directCall, String.toList_append, String.toList_intercalate, toList_map_render,
    Fragment.toList_render]
  unfold directCreation directCallee
  cases component.definition.instanceSource with
  | none => simp [Fragment.format, Placeholder.fill, Fragment.chars_join]
  | some source =>
      cases source <;>
        simp [Fragment.format, Placeholder.fill, Fragment.chars_join, Text.quote]

theorem render_reflectiveCreation (component : Component) (creator : Executable)
    (arguments : List Fragment) :
    (component.reflectiveCreation creator arguments).render typeText =
      reflectiveCall typeText component.producedType creator component.definition.instanceSource
        (arguments.map (·.render typeText)) := by
  apply String.toList_inj.mp
  simp only [reflectiveCall, String.toList_append, ← chars_trailing, Fragment.toList_render]
  unfold reflectiveCreation reflectiveCallee methodLookup
  cases component.definition.instanceSource with
  | none => simp [Fragment.format, Placeholder.fill, toList_parameterClasses]
  | some source =>
      cases source <;>
        simp [Fragment.format, Placeholder.fill, toList_parameterClasses, Text.quote]

/-- The call of a creator holds one expression for each of its arguments, in order. -/
theorem render_creation (component : Component) (package : String) (creator : Executable)
    (arguments : List Fragment) :
    (component.creation package creator arguments).render typeText =
      component.creationText typeText package creator (arguments.map (·.render typeText)) := by
  unfold creation creationText
  dsimp only
  split
  · exact render_directCreation typeText component creator arguments
  · exact render_reflectiveCreation typeText component creator arguments

end Component
end Wiring
