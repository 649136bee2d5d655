import Wiring.Proofs.BalancedBlocks
import Wiring.Proofs.BalancedLiterals
import Wiring.Proofs.CleanContainers
import Wiring.Proofs.Outcome

/-!
# Brackets of registrations

The registration of a clean component is balanced, in every combination of properties, attributes
and direct or reflective calls.  Names, values and scopes only enter it as quoted literals.
-/

namespace Wiring

open Fragment

theorem Executable.IsClean.balanced_name {executable : Executable} (clean : executable.IsClean) :
    (text executable.name).Balanced := by
  apply moves_text
  unfold Executable.name
  cases named : executable.kind.methodName? with
  | none =>
      have fixed : Scanner.Balanced Executable.constructorName.toList := by decide
      exact fixed
  | some method => exact (clean.name method (by simp [named])).balanced

namespace Component

variable {component : Component}

theorem balanced_lookupCode (name : String) {type : TypeName} (clean : type.IsClean) :
    (lookupCode name type).Balanced :=
  moves_format [.string, .type] (by decide)
    ⟨balanced_quoted name, balanced_type clean, trivial⟩

theorem balanced_autowireCode (component : Component) {parameter : TypeName}
    (clean : parameter.IsClean) : (component.autowireCode parameter).Balanced := by
  unfold autowireCode
  split
  · have fixed : Scanner.Balanced "context.getEnvironment()".toList := by decide
    exact moves_text fixed
  split
  · have fixed : Scanner.Balanced "context".toList := by decide
    exact moves_text fixed
  split
  next candidate single => exact balanced_lookupCode candidate clean
  next => exact moves_format [.type] (by decide) ⟨balanced_type clean, trivial⟩

/-- Explicit values are balanced, whatever they say. -/
theorem balanced_valueCode {target : TypeName} (clean : target.IsClean) {value : Value}
    {code : Fragment} (converted : component.valueCode target value = .ok code) :
    code.Balanced := by
  cases value with
  | reference other =>
      obtain rfl := Except.ok.inj converted
      exact balanced_lookupCode other clean
  | literal text => exact Literal.balanced_ofText clean converted

theorem balanced_argumentCodes {creator : Executable} (clean : creator.IsClean)
    {arguments : List Fragment} (converted : component.argumentCodes creator = .ok arguments) :
    ∀ argument ∈ arguments, argument.Balanced := by
  intro argument mem
  obtain ⟨⟨parameter, position⟩, listed, coded⟩ := Except.exists_of_mem_mapM converted mem
  have clean_parameter := clean.parameters parameter (List.fst_mem_of_mem_zipIdx listed)
  unfold argumentCode at coded
  split at coded
  · exact balanced_valueCode clean_parameter (Except.mapError_eq_ok.mp coded)
  · obtain rfl := Except.ok.inj coded
    exact balanced_autowireCode component clean_parameter

theorem balanced_classLiterals {parameters : List TypeName}
    (clean : ∀ parameter ∈ parameters, parameter.IsClean) :
    (classLiterals parameters).Balanced := by
  apply balanced_concat
  intro fragment mem
  obtain ⟨parameter, listed, rfl⟩ := List.mem_map.mp mem
  exact moves_format [.type] (by decide)
    ⟨balanced_type (clean parameter listed), trivial⟩

theorem balanced_trailing {arguments : List Fragment}
    (balanced : ∀ argument ∈ arguments, argument.Balanced) : (trailing arguments).Balanced := by
  apply balanced_concat
  intro fragment mem
  obtain ⟨argument, listed, rfl⟩ := List.mem_map.mp mem
  exact moves_format [.literal] (by decide) ⟨balanced argument listed, trivial⟩

theorem isClean_framework :
    Framework.reflectionUtils.IsClean ∧ Framework.beanUtils.IsClean ∧
      Framework.beanDefinition.IsClean := by
  decide

section Creation

variable {creator : Executable} {arguments : List Fragment}

theorem balanced_directCreation (component : Component) (clean : creator.IsClean)
    (source : ∀ source ∈ component.definition.instanceSource.toList, source.executable.IsClean)
    (balanced : ∀ argument ∈ arguments, argument.Balanced) :
    (component.directCreation creator arguments).Balanced := by
  have comma : Scanner.Balanced ", ".toList := by decide
  have list := balanced_join comma balanced
  have declaring := balanced_type clean.declaringType
  unfold directCreation
  dsimp only
  split
  next factory method declared =>
    have clean_method : method.IsClean :=
      source (.factoryMethod factory method) (by simp [declared])
    have named := clean_method.balanced_name
    exact moves_format [.string, .type, .name, .literal] (by decide)
      ⟨balanced_quoted factory, declaring, named, list, trivial⟩
  next method declared =>
    have clean_method : method.IsClean := source (.staticFactoryMethod method) (by simp [declared])
    have named := clean_method.balanced_name
    exact moves_format [.type, .name, .literal] (by decide)
      ⟨declaring, named, list, trivial⟩
  next => exact moves_format [.type, .literal] (by decide) ⟨declaring, list, trivial⟩

theorem balanced_reflectiveCreation (component : Component) (clean : creator.IsClean)
    (produced : component.producedType.IsClean)
    (balanced : ∀ argument ∈ arguments, argument.Balanced) :
    (component.reflectiveCreation creator arguments).Balanced := by
  have classes := balanced_classLiterals clean.parameters
  have values := balanced_trailing balanced
  have declaring := balanced_type clean.declaringType
  have utils := balanced_type isClean_framework.1
  unfold reflectiveCreation
  dsimp only
  split
  next factory method declared =>
    exact moves_format [.type, .type, .type, .type, .string, .literal, .string, .literal]
      (by decide)
      ⟨balanced_type produced, utils, utils, declaring, balanced_quoted method.name, classes,
        balanced_quoted factory, values, trivial⟩
  next method declared =>
    exact moves_format [.type, .type, .type, .type, .string, .literal, .literal]
      (by decide)
      ⟨balanced_type produced, utils, utils, declaring, balanced_quoted method.name, classes,
        values, trivial⟩
  next =>
    exact moves_format [.type, .type, .type, .literal, .literal] (by decide)
      ⟨balanced_type isClean_framework.2.1, utils, declaring, classes, values, trivial⟩

theorem IsClean.balanced_instanceCode (clean : component.IsClean) {package : String}
    (resolved : component.creator? = some creator) {code : Fragment}
    (created : component.instanceCode package creator = .ok code) : code.Balanced := by
  have clean_creator := clean.creator? resolved
  obtain ⟨arguments, converted, rfl⟩ := Except.map_eq_ok.mp created
  have balanced := balanced_argumentCodes clean_creator converted
  split
  · exact balanced_directCreation component clean_creator clean.definition.instanceSource balanced
  · exact balanced_reflectiveCreation component clean_creator clean.producedType balanced

end Creation

theorem isClean_setterTarget {setter : Executable} (clean : setter.IsClean) :
    (setterTarget setter).IsClean := by
  unfold setterTarget
  cases first : setter.parameters.head? with
  | none => exact TypeName.isClean_object
  | some parameter => exact clean.parameters parameter (List.mem_of_mem_head? first)

theorem balanced_setterCode (component : Component) (package : String) {setter : Executable}
    (clean : setter.IsClean) {value : Fragment} (balanced : value.Balanced) :
    (component.setterCode package setter value).Balanced := by
  have utils := balanced_type isClean_framework.1
  unfold setterCode
  split
  · exact moves_format [.name, .literal] (by decide)
      ⟨clean.balanced_name, balanced, trivial⟩
  · exact moves_format [.type, .type, .type, .string, .type, .literal] (by decide)
      ⟨utils, utils, balanced_type clean.declaringType, balanced_quoted setter.name,
        balanced_type (isClean_setterTarget clean), balanced, trivial⟩

theorem IsClean.balanced_setters (clean : component.IsClean) {package : String}
    {setters : List Line}
    (converted : component.injections.mapM (component.injectionCode package) = .ok setters) :
    Block.Balanced setters := by
  apply Block.balanced_of_lines
  intro line mem
  obtain ⟨injection, listed, value, valued, rfl⟩ := exists_injection_of_mem_setters converted mem
  have clean_setter := clean.injection listed
  have balanced := balanced_valueCode (isClean_setterTarget clean_setter)
    (Except.mapError_eq_ok.mp valued)
  exact Block.moves_statementLine (balanced_setterCode component package clean_setter balanced)

theorem balanced_statementIf {condition : Bool} {block : Block} (balanced : block.Balanced) :
    Block.Balanced (statementIf condition block) := by
  cases condition with
  | false => exact Block.moves_nil []
  | true => exact balanced

theorem balanced_statementFor {format : String}
    (outlined : HasOutline format [.string] [] []) (name : Option String) :
    Block.Balanced (statementFor format name) := by
  cases name with
  | none => exact Block.moves_nil []
  | some name =>
      exact Block.balanced_statement [.string] outlined ⟨balanced_quoted name, trivial⟩

theorem balanced_role (role : Role) : (text role.constant).Balanced := by
  apply moves_text
  cases role with
  | application => decide
  | support => decide
  | infrastructure => decide

theorem balanced_customizers (definition : Definition) :
    Block.Balanced (customizers definition) := by
  have scope : Block.Balanced
      (Block.statement "definition.setScope($S)" [.text definition.effectiveScope.name]) :=
    Block.balanced_statement [.string] (by decide) ⟨balanced_quoted _, trivial⟩
  have primary : Block.Balanced (Block.statement "definition.setPrimary(true)" []) :=
    Block.balanced_statement [] (by decide) trivial
  have lazyInit : Block.Balanced (Block.statement "definition.setLazyInit(true)" []) :=
    Block.balanced_statement [] (by decide) trivial
  have role : Block.Balanced (Block.statement "definition.setRole($T.$N)"
      [.type Framework.beanDefinition, .text definition.role.constant]) :=
    Block.balanced_statement [.type, .name] (by decide)
      ⟨balanced_type isClean_framework.2.2, balanced_role definition.role, trivial⟩
  exact (((((balanced_statementIf scope).append (balanced_statementIf primary)).append
    (balanced_statementIf lazyInit)).append (balanced_statementIf role)).append
    (balanced_statementFor (by decide) definition.initMethod)).append
    (balanced_statementFor (by decide) definition.destroyMethod)

/-- A registration call closes what it opens, with and without properties and attributes. -/
theorem balanced_registrationCall (component : Component)
    (produced : component.producedType.IsClean) {code : Fragment} (balanced : code.Balanced)
    {setters : Block} (setting : setters.Balanced) :
    Block.Balanced (component.registrationCall code setters) := by
  have type := balanced_type produced
  have name := balanced_quoted component.name
  have customized := balanced_customizers component.definition
  have closing : Block.Moves (Block.closeStatement ")" []) ['\x7d', ')'] [] :=
    Block.moves_closeStatement [] (by decide) trivial
  unfold registrationCall
  dsimp only
  split
  · split
    · exact Block.balanced_statement [.string, .type, .literal] (by decide)
        ⟨name, type, balanced, trivial⟩
    · have opening : Block.Moves
          (Block.openBrace "context.registerBean($S, $T.class, () -> $L, (definition) ->"
            [.text component.name, .type component.producedType, .code code]) [] ['\x7d', ')'] :=
        Block.moves_openBrace [.string, .type, .literal] (by decide)
          ⟨name, type, balanced, trivial⟩
      exact (opening.append (customized.moves _)).append closing
  · have opening : Block.Moves
        (Block.openBrace "context.registerBean($S, $T.class, () ->"
          [.text component.name, .type component.producedType]) [] ['\x7d', ')'] :=
      Block.moves_openBrace [.string, .type] (by decide) ⟨name, type, trivial⟩
    have creation : Block.Balanced
        (Block.statement "$T bean = $L" [.type component.producedType, .code code]) :=
      Block.balanced_statement [.type, .literal] (by decide) ⟨type, balanced, trivial⟩
    have returning : Block.Balanced (Block.statement "return bean" []) :=
      Block.balanced_statement [] (by decide) trivial
    have turning : Block.Moves (Block.nextBrace ", (definition) ->" []) ['\x7d'] ['\x7d'] :=
      Block.moves_nextBrace [] (by decide) trivial
    have attributes : Block.Moves
        (if (customizers component.definition).isEmpty then []
          else Block.nextBrace ", (definition) ->" [] ++ customizers component.definition)
        ['\x7d', ')'] ['\x7d', ')'] := by
      split
      · exact Block.moves_nil _
      · exact (turning.within [')']).append (customized.moves _)
    exact ((((opening.append (creation.moves _)).append (setting.moves _)).append
      (returning.moves _)).append attributes).append closing

/-- The registration of a clean component is balanced. -/
theorem IsClean.balanced_registration (clean : component.IsClean) {package : String}
    {creator : Executable} (resolved : component.creator? = some creator) {block : Block}
    (coded : component.registration package creator = .ok block) : block.Balanced := by
  simp only [registration, Except.bind_eq_ok] at coded
  obtain ⟨code, created, setters, converted, finished⟩ := coded
  cases finished
  exact balanced_registrationCall component clean.producedType
    (clean.balanced_instanceCode resolved created) (clean.balanced_setters converted)

end Component
end Wiring
