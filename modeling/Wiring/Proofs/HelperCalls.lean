import Wiring.Proofs.Run
import Wiring.Proofs.StatementTexts

/-!
# Calls of helper methods

With type names left out, the call of a helper method begins with `.r`, and no statement of a
registration, of the infrastructure section or of the event listener section does.  Hence a call in
the entry method stands for exactly one placement.
-/

namespace Wiring

/-- Whether a line is a statement that begins like the call of a helper method. -/
def Line.CallsHelper : Line → Prop
  | statement fragment => ∃ rest, fragment.chars (fun _ => "") = '.' :: 'r' :: rest
  | _ => False

/-- No line of a block begins like the call of a helper method. -/
def Block.IsOrdinary (block : Block) : Prop := ∀ line ∈ block, ¬ line.CallsHelper

namespace Block

@[simp]
theorem isOrdinary_nil : IsOrdinary [] := by simp [IsOrdinary]

@[simp]
theorem isOrdinary_append {first second : Block} :
    IsOrdinary (first ++ second) ↔ first.IsOrdinary ∧ second.IsOrdinary :=
  List.forall_mem_append

@[simp]
theorem isOrdinary_cons {line : Line} {block : Block} :
    IsOrdinary (line :: block) ↔ ¬ line.CallsHelper ∧ block.IsOrdinary :=
  List.forall_mem_cons

@[simp]
theorem isOrdinary_statement {format : String} {arguments : List Argument} :
    IsOrdinary (statement format arguments) ↔
      ¬ ∃ rest, (Fragment.format format arguments).chars (fun _ => "") = '.' :: 'r' :: rest := by
  simp [statement, Line.CallsHelper]

@[simp]
theorem isOrdinary_openBrace (format : String) (arguments : List Argument) :
    IsOrdinary (openBrace format arguments) := by
  simp [openBrace, Line.CallsHelper]

@[simp]
theorem isOrdinary_nextBrace (format : String) (arguments : List Argument) :
    IsOrdinary (nextBrace format arguments) := by
  simp [nextBrace, Line.CallsHelper]

@[simp]
theorem isOrdinary_closeStatement (format : String) (arguments : List Argument) :
    IsOrdinary (closeStatement format arguments) := by
  simp [closeStatement, Line.CallsHelper]

end Block

namespace Component

theorem isOrdinary_statementIf {condition : Bool} {block : Block} (ordinary : block.IsOrdinary) :
    (statementIf condition block).IsOrdinary := by
  cases condition with
  | false => exact Block.isOrdinary_nil
  | true => exact ordinary

theorem isOrdinary_customizers (definition : Definition) :
    (customizers definition).IsOrdinary := by
  simp only [customizers, Block.isOrdinary_append]
  refine ⟨⟨⟨⟨⟨?_, ?_⟩, ?_⟩, ?_⟩, ?_⟩, ?_⟩
  · apply isOrdinary_statementIf
    simp [Fragment.format]
  · apply isOrdinary_statementIf
    simp [Fragment.format]
  · apply isOrdinary_statementIf
    simp [Fragment.format]
  · apply isOrdinary_statementIf
    simp [Fragment.format]
  · cases definition.initMethod with
    | none => exact Block.isOrdinary_nil
    | some name => simp [statementFor, Fragment.format]
  · cases definition.destroyMethod with
    | none => exact Block.isOrdinary_nil
    | some name => simp [statementFor, Fragment.format]

/-- A setter is called through `bean.` or `.invokeMethod`. -/
theorem not_callsHelper_setterCode (component : Component) (package : String) (setter : Executable)
    (value : Fragment) :
    ¬ (Line.statement (component.setterCode package setter value)).CallsHelper := by
  unfold setterCode
  split
  · simp [Line.CallsHelper, Fragment.format]
  · simp [Line.CallsHelper, Fragment.format, Placeholder.fill]

theorem isOrdinary_registrationCall (component : Component) (instanceCode : Fragment)
    {setters : Block} (ordinary : setters.IsOrdinary) :
    (component.registrationCall instanceCode setters).IsOrdinary := by
  have customized := isOrdinary_customizers component.definition
  unfold registrationCall
  dsimp only
  split
  · split
    · simp [Fragment.format]
    · simp [customized]
  · have bean : (Block.statement "$T bean = $L"
        [.type component.producedType, .code instanceCode]).IsOrdinary := by
      simp [Fragment.format, Placeholder.fill]
    have result : (Block.statement "return bean" []).IsOrdinary := by
      simp [Fragment.format]
    simp only [Block.isOrdinary_append, Block.isOrdinary_openBrace,
      Block.isOrdinary_closeStatement, bean, result, ordinary, true_and, and_true]
    split
    · exact Block.isOrdinary_nil
    · simp [customized]

theorem isOrdinary_of_mapM_injectionCode {component : Component} {package : String}
    {injections : List Injection} {setters : List Line}
    (coded : injections.mapM (component.injectionCode package) = .ok setters) :
    Block.IsOrdinary setters := by
  intro line mem
  obtain ⟨injection, -, value, -, rfl⟩ := exists_injection_of_mem_setters coded mem
  exact component.not_callsHelper_setterCode package injection.setter value

/-- The registration of a component never calls a helper method. -/
theorem isOrdinary_of_registration {component : Component} {package : String}
    {creator : Executable} {block : Block}
    (coded : component.registration package creator = .ok block) : block.IsOrdinary := by
  simp only [registration, Except.bind_eq_ok] at coded
  obtain ⟨instanceCode, -, setters, converted, finished⟩ := coded
  cases finished
  exact component.isOrdinary_registrationCall instanceCode
    (isOrdinary_of_mapM_injectionCode converted)

end Component

theorem ContainerMetadata.isOrdinary_infrastructureSection (metadata : ContainerMetadata) :
    metadata.infrastructureSection.IsOrdinary := by
  have sources : Block.IsOrdinary (metadata.propertySources.flatMap fun source =>
      Block.statement "context.getEnvironment().getPropertySources().addLast(new $T($S, $S))"
        [.type Framework.resourcePropertySource, .text source.name, .text source.location]) := by
    intro line mem
    obtain ⟨source, -, mem⟩ := List.mem_flatMap.mp mem
    have ordinary : Block.IsOrdinary
        (Block.statement "context.getEnvironment().getPropertySources().addLast(new $T($S, $S))"
          [.type Framework.resourcePropertySource, .text source.name, .text source.location]) := by
      simp [Fragment.format]
    exact ordinary line mem
  simp only [infrastructureSection, infrastructureCode, Block.isOrdinary_append,
    Block.isOrdinary_cons, List.cons_append]
  refine ⟨id, ⟨⟨?_, ?_⟩, sources⟩, id, Block.isOrdinary_nil⟩
  · simp [Fragment.format]
  · split
    · exact Block.isOrdinary_nil
    · simp [Fragment.format]

theorem EventListener.isOrdinary_listenersSection (listeners : List EventListener) :
    Block.IsOrdinary (listenersSection listeners) := by
  have described : ∀ listeners : List EventListener, Block.IsOrdinary (lines listeners) := by
    intro listeners
    fun_induction lines listeners with
    | case1 => exact Block.isOrdinary_nil
    | case2 last => simp [Line.CallsHelper]
    | case3 first others nonempty ih => simp [Line.CallsHelper, ih]
  unfold listenersSection
  split
  · exact Block.isOrdinary_nil
  · simp [Line.CallsHelper, Block.line, described, Fragment.format]

namespace Draft

theorem callsHelper_helperStatement (cls : TypeName) {helper : String} {rest : List Char}
    (named : helper.toList = 'r' :: rest) : (helperStatement cls helper).CallsHelper := by
  refine ⟨rest ++ "(context)".toList, ?_⟩
  rw [chars_helperStatement, named]
  rfl

/-- Calls of helper methods differ when their classes or their names do. -/
theorem helperStatement_inj {cls cls' : TypeName} {helper helper' : String} :
    helperStatement cls helper = helperStatement cls' helper' ↔ cls = cls' ∧ helper = helper' := by
  constructor
  · intro same
    -- a choice of type texts that tells the first class from all others
    let telling : TypeName → String := fun name => if name = cls then "" else "x"
    have fragments := congrArg (Fragment.chars telling) (Line.statement.inj same)
    rw [chars_helperStatement, chars_helperStatement] at fragments
    by_cases classes : cls' = cls
    · subst classes
      have names := List.append_cancel_right (List.cons.inj (List.append_cancel_left fragments)).2
      exact ⟨rfl, String.toList_inj.mp names⟩
    · simp [telling, classes] at fragments
  · rintro ⟨rfl, rfl⟩
    rfl

end Draft

namespace TypeName

/-- A package and a class name are recovered from each other. -/
theorem qualify_injective (simpleName : String) :
    Function.Injective fun package => qualify package simpleName := by
  intro first second same
  have lists := congrArg (fun name => name.text.toList) same
  simp only [toList_qualify, qualifier] at lists
  have packages := List.append_cancel_right lists
  by_cases empty : first = ""
  · by_cases empty' : second = ""
    · rw [empty, empty']
    · simp [empty, empty'] at packages
  · by_cases empty' : second = ""
    · simp [empty, empty'] at packages
    · simp only [empty, empty', if_false] at packages
      exact String.toList_inj.mp (List.append_cancel_right packages)

end TypeName

namespace BootstrapClass

theorem toList_candidate (base : String) (number : Nat) :
    ∃ digits, (candidate base number).toList = base.toList ++ digits := by
  cases number with
  | zero => exact ⟨[], by simp [candidate]⟩
  | succ number => exact ⟨_, toList_candidate_succ base number⟩

end BootstrapClass

namespace Placement

/-- A placement in a helper method has a helper name that begins with `r`. -/
theorem Registers.exists_toList_helper {main : String} {writer : Writer} {placement : Placement}
    (registers : placement.Registers main writer) {helper : String}
    (named : placement.helper = some helper)
    (derived : ∃ number,
      helper = BootstrapClass.candidate placement.registration.helperBase number) :
    ∃ rest, helper.toList = 'r' :: rest := by
  cases writer with
  | listener component implementation =>
      rw [registers.1] at named
      cases named
  | registration component =>
      obtain ⟨creator, -, -, -, -, base, -, -⟩ := registers
      obtain ⟨number, rfl⟩ := derived
      obtain ⟨digits, spelled⟩ :=
        BootstrapClass.toList_candidate placement.registration.helperBase number
      rw [spelled, base, Component.helperBase, String.toList_append]
      exact ⟨_, rfl⟩

theorem Registers.isOrdinary_block {main : String} {writer : Writer} {placement : Placement}
    (registers : placement.Registers main writer) : placement.registration.block.IsOrdinary := by
  cases writer with
  | listener component implementation =>
      rw [registers.2.1]
      simp [Writer.listenerCode, Fragment.format, Placeholder.fill]
  | registration component =>
      obtain ⟨creator, -, -, coded, -⟩ := registers
      exact Component.isOrdinary_of_registration coded

/-- Whether a placement is the helper method of a given name in the class of a package. -/
def IsHelper (package helper : String) (placement : Placement) : Prop :=
  placement.registration.package = package ∧ placement.helper = some helper

instance (package helper : String) (placement : Placement) :
    Decidable (placement.IsHelper package helper) :=
  inferInstanceAs (Decidable (_ ∧ _))

/-- The segment of a placement calls its own helper method and no other. -/
theorem count_code {className package helper : String} {placement : Placement}
    (ordinary : placement.registration.block.IsOrdinary)
    (spelled : ∃ rest, helper.toList = 'r' :: rest) :
    (placement.code className).count (Draft.helperStatement (.qualify package className) helper) =
      if placement.IsHelper package helper then 1 else 0 := by
  obtain ⟨rest, spelled⟩ := spelled
  unfold code
  split
  next inline =>
    rw [if_neg (by simp [IsHelper, inline])]
    refine List.count_eq_zero.mpr fun mem => ?_
    exact ordinary _ mem (Draft.callsHelper_helperStatement _ spelled)
  next name named =>
    rw [List.count_singleton]
    refine if_congr ?_ rfl rfl
    rw [beq_iff_eq, Draft.helperStatement_inj, IsHelper, named, Option.some.injEq]
    exact and_congr_left' (TypeName.qualify_injective className).eq_iff

theorem count_flatMap_code (className package : String) {helper : String}
    {placements : List Placement}
    (ordinary : ∀ placement ∈ placements, placement.registration.block.IsOrdinary)
    (spelled : ∃ rest, helper.toList = 'r' :: rest) :
    (placements.flatMap (code className)).count
        (Draft.helperStatement (.qualify package className) helper) =
      placements.countP fun placement => placement.IsHelper package helper := by
  induction placements with
  | nil => rfl
  | cons placement placements ih =>
      rw [List.flatMap_cons, List.count_append, List.countP_cons,
        count_code (ordinary placement (by simp)) spelled,
        ih fun other mem => ordinary other (by simp [mem])]
      simp [Nat.add_comm]

theorem countP_isHelper (package helper : String) (placements : List Placement) :
    placements.countP (fun placement => placement.IsHelper package helper) =
      ((methodsIn package placements).map Method.name).count helper := by
  induction placements with
  | nil => rfl
  | cons placement placements ih =>
      rw [List.countP_cons, ih]
      by_cases home : placement.registration.package = package
      · cases named : placement.helper with
        | none => simp [methodsIn, methodIn?, IsHelper, named]
        | some name =>
            simp [methodsIn, methodIn?, IsHelper, home, named, List.count_cons,
              Component.helperMethod]
      · simp [methodsIn, methodIn?, IsHelper, home]

end Placement
end Wiring
