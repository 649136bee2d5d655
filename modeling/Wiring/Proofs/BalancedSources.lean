import Wiring.Proofs.BalancedFiles
import Wiring.Proofs.BalancedRegistrations
import Wiring.Proofs.Run

/-!
# Generated sources are well-formed

In every source file of a run over a clean container, literals end on their line and brackets are
nested and closed.  Component names, values, profiles, property sources, scopes and lifecycle
methods may be any texts.
-/

namespace Wiring

open Fragment

theorem isClean_sectionTypes :
    ∀ type ∈ [Framework.candidateResolver, Framework.resourcePropertySource,
      Framework.eventListenerMetadata, Framework.eventListenerRegistrar, Framework.list,
      Framework.staticFactories, Framework.testExecutionListener, Framework.genericContext,
      Framework.override], type.IsClean := by
  decide

/-- The infrastructure section is balanced, whatever its profiles and property sources. -/
theorem ContainerMetadata.balanced_infrastructureSection (metadata : ContainerMetadata) :
    Block.Balanced metadata.infrastructureSection := by
  have comma : Scanner.Balanced ", ".toList := by decide
  have profiles : (join ", " (metadata.activeProfiles.map fun profile =>
      Fragment.format "$S" [.text profile])).Balanced := by
    apply balanced_join comma
    intro fragment mem
    obtain ⟨profile, -, rfl⟩ := List.mem_map.mp mem
    exact moves_format [.string] (by decide) ⟨balanced_quoted profile, trivial⟩
  have resolver : Block.Balanced (Block.statement
      "context.getDefaultListableBeanFactory().setAutowireCandidateResolver(new $T())"
      [.type Framework.candidateResolver]) :=
    Block.balanced_statement [.type] (by decide)
      ⟨balanced_type (isClean_sectionTypes _ (by simp)), trivial⟩
  have activation : Block.Balanced (if metadata.activeProfiles.isEmpty then []
      else
        Block.statement "context.getEnvironment().setActiveProfiles($L)"
          [.code (.join ", " (metadata.activeProfiles.map fun profile =>
            .format "$S" [.text profile]))]) :=
    Block.balanced_ite (Block.moves_nil [])
      (Block.balanced_statement [.literal] (by decide) ⟨profiles, trivial⟩)
  have sources : Block.Balanced (metadata.propertySources.flatMap fun source =>
      Block.statement "context.getEnvironment().getPropertySources().addLast(new $T($S, $S))"
        [.type Framework.resourcePropertySource, .text source.name, .text source.location]) :=
    Block.balanced_flatMap fun source _ =>
      Block.balanced_statement [.type, .string, .string] (by decide)
        ⟨balanced_type (isClean_sectionTypes _ (by simp)), balanced_quoted source.name,
          balanced_quoted source.location, trivial⟩
  have title : Block.Balanced [.comment "infrastructure"] :=
    Block.balanced_comment (by decide)
  exact (title.append ((resolver.append activation).append sources)).append Block.balanced_blank

namespace EventListener

theorem IsClean.balanced_code {listener : EventListener} (clean : listener.IsClean) :
    listener.code.Balanced := by
  have parameters : (concat (listener.method.parameters.map fun parameter =>
      Fragment.format ", $T.class" [.type parameter])).Balanced := by
    apply balanced_concat
    intro fragment mem
    obtain ⟨parameter, listed, rfl⟩ := List.mem_map.mp mem
    exact moves_format [.type] (by decide)
      ⟨balanced_type (clean.parameters parameter listed), trivial⟩
  exact moves_format [.type, .string, .type, .string, .literal] (by decide)
    ⟨balanced_type (isClean_sectionTypes _ (by simp)), balanced_quoted listener.component,
      balanced_type clean.componentType, balanced_quoted listener.method.name, parameters, trivial⟩

theorem balanced_lines {listeners : List EventListener}
    (clean : ∀ listener ∈ listeners, listener.IsClean) : Block.Balanced (lines listeners) := by
  induction listeners with
  | nil => exact Block.moves_nil []
  | cons first others ih =>
      have code := (clean first (by simp)).balanced_code
      cases others with
      | nil => exact Block.moves_code code
      | cons second others =>
          have comma : Scanner.Balanced ",".toList := by decide
          exact Block.Moves.append (Block.moves_code (code.append (moves_text comma)))
            (ih fun other mem => clean other (by simp [mem]))

/-- The event listener section closes the three calls that it opens. -/
theorem balanced_listenersSection {listeners : List EventListener}
    (clean : ∀ listener ∈ listeners, listener.IsClean) :
    Block.Balanced (listenersSection listeners) := by
  have registrar := balanced_type (isClean_sectionTypes Framework.eventListenerRegistrar (by simp))
  have title : Block.Balanced [.comment "event listeners"] :=
    Block.balanced_comment (by decide)
  have opening : Block.Moves
      (Block.line "context.registerBean($S, $T.class, () -> new $T(context, $T.of("
        [.text Framework.eventListenerRegistrar.text, .type Framework.eventListenerRegistrar,
          .type Framework.eventListenerRegistrar, .type Framework.list]) [] [')', ')', ')'] :=
    Block.moves_code (moves_format [.string, .type, .type, .type] (by decide)
      ⟨balanced_quoted _, registrar, registrar,
        balanced_type (isClean_sectionTypes _ (by simp)), trivial⟩)
  have closing : Block.Moves (Block.statement ")))" []) [')', ')', ')'] [] :=
    Block.moves_statementLine (moves_format [] (by decide) trivial)
  unfold listenersSection
  split
  · exact Block.moves_nil []
  · exact ((((Block.Moves.append title opening).append (Block.balanced_indent.moves _)).append
      ((balanced_lines clean).moves _)).append (Block.balanced_unindent.moves _)).append closing

end EventListener

theorem Writer.balanced_listenerCode (implementation : TypeName) :
    Block.Balanced (listenerCode implementation) :=
  Block.balanced_statement [.type, .type, .string] (by decide)
    ⟨balanced_type (isClean_sectionTypes _ (by simp)),
      balanced_type (isClean_sectionTypes _ (by simp)), balanced_quoted _, trivial⟩

namespace BootstrapClass

/-- Numbers keep a clean name clean. -/
theorem isCleanText_candidate {base : String} (clean : IsCleanText base) (number : Nat) :
    IsCleanText (candidate base number) := by
  cases number with
  | zero => exact clean
  | succ number =>
      rw [IsCleanText, candidate, String.toList_append, List.all_append, clean]
      apply List.all_eq_true.mpr
      intro char mem
      have listed : char ∈ Nat.toDigits 10 (number + 1) := by simpa using mem
      have digit : char.isDigit = true :=
        Nat.isDigit_of_mem_toDigits (by decide) (by decide) listed
      simp [isNameChar, Char.isAlphanum, digit]

end BootstrapClass

namespace Component

theorem IsClean.helperBase {component : Component} (clean : component.IsClean) :
    IsCleanText component.helperBase := by
  have named := List.all_eq_true.mp clean.producedType.simpleName
  have fixed : "register".toList.all isNameChar = true := by decide
  rw [IsCleanText, Component.helperBase, String.toList_append, List.all_append, fixed]
  apply List.all_eq_true.mpr
  intro char mem
  rw [String.toList_ofList] at mem
  exact Text.isNameChar_of_mem_capitalize named mem

theorem isClean_helperMethod {name : String} (clean : IsCleanText name) {body : Block}
    (balanced : body.Balanced) : (helperMethod name body).IsClean where
  name := clean
  annotations := by simp [helperMethod]
  returnType := by simp [helperMethod]
  parameterTypes := by
    intro parameter mem
    obtain rfl := List.mem_singleton.mp mem
    exact isClean_sectionTypes _ (by simp)
  parameterNames := by
    intro parameter mem
    obtain rfl := List.mem_singleton.mp mem
    decide
  body := balanced

end Component

theorem isCleanText_initialize : IsCleanText "initialize" := by decide

theorem isClean_entryMethod {body : Block} (balanced : body.Balanced) :
    (entryMethod body).IsClean where
  name := isCleanText_initialize
  annotations := by
    intro annotation mem
    obtain rfl := List.mem_singleton.mp mem
    exact isClean_sectionTypes _ (by simp)
  returnType := by simp [entryMethod]
  parameterTypes := by
    intro parameter mem
    obtain rfl := List.mem_singleton.mp mem
    exact isClean_sectionTypes _ (by simp)
  parameterNames := by
    intro parameter mem
    obtain rfl := List.mem_singleton.mp mem
    decide
  body := balanced

/-- Settings and packages that are in order are clean. -/
theorem Settings.isCleanText_of_faultFor? {settings : Settings} {package : String}
    (valid : settings.faultFor? package = none) :
    IsCleanText settings.className ∧ IsCleanText package := by
  obtain ⟨className, named⟩ := Settings.names_of_faultFor? valid
  exact ⟨List.all_eq_true.mpr fun char mem => Text.isNameChar_of_mem_identifier className mem,
    List.all_eq_true.mpr fun char mem => Text.isNameChar_of_mem_packageName named mem⟩

namespace Generator

theorem isClean_of_mem_writers {generator : Generator} {container : Container}
    (clean : container.IsClean) {component : Component}
    (written : .registration component ∈ generator.writers container) : component.IsClean := by
  obtain ⟨name, -, offered⟩ := List.mem_filterMap.mp written
  obtain ⟨rfl, -, merged⟩ := component_of_writerOf? offered
  exact ⟨clean, clean.definitions name component.definition merged⟩

namespace Produces

variable {generator : Generator} {container : Container} {package : String} {result : Progress}
  {outcomes : List Outcome} {placements : List Placement}

/-- Placements in a clean container have clean packages, clean helper names and balanced code. -/
theorem isClean_placement (run : generator.Produces container package result outcomes placements)
    (clean : container.IsClean) {placement : Placement} (placed : placement ∈ placements) :
    placement.registration.block.Balanced ∧ ∀ helper, placement.helper = some helper →
      IsCleanText helper ∧ IsCleanText placement.registration.package := by
  have main := (Settings.isCleanText_of_faultFor? run.valid).2
  obtain ⟨writer, written, registers⟩ := run.exists_registers placed
  cases writer with
  | listener component implementation =>
      obtain ⟨inline, block_eq, -⟩ := registers
      refine ⟨?_, fun helper named => ?_⟩
      · rw [block_eq]
        exact Writer.balanced_listenerCode implementation
      · rw [inline] at named
        cases named
  | registration component =>
      obtain ⟨creator, resolved, -, coded, home, based, -, -⟩ := registers
      have clean_component := isClean_of_mem_writers clean written
      refine ⟨clean_component.balanced_registration resolved coded, fun helper named => ?_⟩
      obtain ⟨number, rfl⟩ := run.names_derived placement placed helper named
      rw [based, home]
      exact ⟨BootstrapClass.isCleanText_candidate clean_component.helperBase number,
        clean_component.targetPackage main⟩

/-- The code of a placement in the entry method is balanced. -/
theorem balanced_code (run : generator.Produces container package result outcomes placements)
    (clean : container.IsClean) {placement : Placement} (placed : placement ∈ placements) :
    Block.Balanced (placement.code generator.settings.className) := by
  have className := (Settings.isCleanText_of_faultFor? run.valid).1
  obtain ⟨block, called⟩ := run.isClean_placement clean placed
  unfold Placement.code
  split
  next => exact block
  next helper named =>
    obtain ⟨clean_helper, clean_package⟩ := called helper named
    have type := TypeName.isClean_of_text
      (TypeName.isCleanText_qualify clean_package className)
    exact Block.balanced_statement [.type, .name] (by decide)
      ⟨balanced_type type, balanced_clean clean_helper, trivial⟩

theorem isClean_main (run : generator.Produces container package result outcomes placements)
    (clean : container.IsClean) : result.draft.main.IsClean := by
  obtain ⟨className, main⟩ := Settings.isCleanText_of_faultFor? run.valid
  have opening : Block.Balanced (generator.opening container) :=
    Block.balanced_ite container.metadata.balanced_infrastructureSection (Block.moves_nil [])
  have listening : ∀ listener ∈ generator.listeners container, listener.IsClean := by
    intro listener mem
    unfold listeners at mem
    split at mem
    · exact clean.eventListeners listener mem
    · cases mem
  have body : Block.Balanced (generator.entryBody container placements) :=
    (Block.Moves.append opening
      (Block.balanced_flatMap fun placement => run.balanced_code clean)).append
      (EventListener.balanced_listenersSection listening)
  rw [run.main_eq]
  constructor
  · exact TypeName.isClean_of_text (TypeName.isCleanText_qualify main className)
  · intro method mem
    obtain rfl := List.mem_singleton.mp mem
    exact isClean_entryMethod body

theorem isClean_helper (run : generator.Produces container package result outcomes placements)
    (clean : container.IsClean) {other : String} {cls : BootstrapClass}
    (stored : result.draft.helpers.get? other = some cls) :
    IsCleanText other ∧ cls.IsClean := by
  have className := (Settings.isCleanText_of_faultFor? run.valid).1
  have methods : ∀ method ∈ Placement.methodsIn other placements,
      IsCleanText other ∧ method.IsClean := by
    intro method mem
    obtain ⟨placement, placed, found⟩ := List.mem_filterMap.mp mem
    obtain ⟨rfl, helper, named, rfl⟩ := Placement.methodIn?_eq_some_iff.mp found
    obtain ⟨block, called⟩ := run.isClean_placement clean placed
    obtain ⟨clean_helper, clean_package⟩ := called helper named
    exact ⟨clean_package, Component.isClean_helperMethod clean_helper block⟩
  rw [run.helpers_eq, Placement.helperClass?] at stored
  split at stored
  next => cases stored
  next nonempty =>
    obtain rfl := Option.some.inj stored
    obtain ⟨first, first_mem⟩ := List.exists_mem_of_ne_nil _ nonempty
    have clean_other := (methods first first_mem).1
    exact ⟨clean_other,
      TypeName.isClean_of_text (TypeName.isCleanText_qualify clean_other className),
      fun method mem => (methods method mem).2⟩

end Produces

/-- No text of a clean container breaks the generated source: scanning a source file ends in code
with nothing left open. -/
theorem readAll_source_of_generate {generator : Generator} {container : Container}
    {package : String} {result : Progress} (clean : container.IsClean)
    (run : generator.generate container package = .ok result) :
    ∀ file ∈ result.sources,
      Scanner.start.readAll file.content.toList = some Scanner.start := by
  obtain ⟨outcomes, placements, produces⟩ := exists_produces run
  intro file mem
  rcases List.mem_cons.mp mem with rfl | mem
  · have main := (Settings.isCleanText_of_faultFor? produces.valid).2
    rw [produces.package_eq]
    exact SourceFile.balanced_ofSpec main (produces.isClean_main clean)
  · obtain ⟨⟨other, cls⟩, entry, rfl⟩ := List.mem_map.mp mem
    obtain ⟨clean_other, clean_cls⟩ :=
      produces.isClean_helper clean (SortedMap.mem_entries_iff.mp entry)
    exact SourceFile.balanced_ofSpec clean_other clean_cls

theorem readAll_source_sample :
    Sample.container.IsClean ∧
      ∃ result, Sample.generator.generate Sample.container "com.app" = .ok result ∧
        ∀ file ∈ result.sources,
          Scanner.start.readAll file.content.toList = some Scanner.start := by
  have clean : (Sample.catalog Sample.components).IsClean :=
    ⟨by decide +kernel, by decide +kernel, by decide +kernel⟩
  obtain ⟨result, run⟩ := Sample.generates
  exact ⟨clean.toContainer, result, run, readAll_source_of_generate clean.toContainer run⟩

end Generator
end Wiring
