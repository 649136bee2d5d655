import Wiring.Bootstrap.Sections
import Wiring.Proofs.RegistrationTexts

/-!
# Texts of sections

Beside the registrations of components, the entry method adds test execution listeners, sets up the
context in front of the components and registers event listeners behind them.  The code of each is
described by the texts of its lines.
-/

namespace Wiring

/-- Whether a line adds a test execution listener to the static factories. -/
def Line.AddsListener (line : Line) (implementation : TypeName) : Prop :=
  line.States fun typeText =>
    typeText Framework.staticFactories ++ ".names.add(" ++
      typeText Framework.testExecutionListener ++ ".class, " ++
      Text.quote implementation.text ++ ")"

theorem Writer.exists_addsListener (implementation : TypeName) :
    ∃ line, listenerCode implementation = [line] ∧ line.AddsListener implementation := by
  refine ⟨_, rfl, Line.states_statement_iff.mpr fun typeText => ?_⟩
  simp [Fragment.format, Placeholder.fill, Text.quote]

namespace ContainerMetadata

/-- Whether a block activates profiles, if there are any. -/
inductive ActivatesProfiles : List String → Block → Prop
  | nothing : ActivatesProfiles [] []
  | together {profiles : List String} {line : Line} (nonempty : profiles ≠ [])
      (activates : line.States fun _ => "context.getEnvironment().setActiveProfiles(" ++
        ", ".intercalate (profiles.map Text.quote) ++ ")") :
      ActivatesProfiles profiles [line]

/-- Whether a line adds a property source. -/
def AddsSource (source : PropertySource) (line : Line) : Prop :=
  line.States fun typeText =>
    "context.getEnvironment().getPropertySources().addLast(new " ++
      typeText Framework.resourcePropertySource ++ "(" ++ Text.quote source.name ++ ", " ++
      Text.quote source.location ++ "))"

/-- Whether a block sets up the context: between a comment and a blank line, candidates get their
resolver, profiles are activated, and property sources are added one after another. -/
inductive SetsUp (metadata : ContainerMetadata) : Block → Prop
  | framed {resolver : Line} {profiles sources : Block}
      (resolves : resolver.States fun typeText =>
        "context.getDefaultListableBeanFactory().setAutowireCandidateResolver(new " ++
          typeText Framework.candidateResolver ++ "())")
      (activates : ActivatesProfiles metadata.activeProfiles profiles)
      (adds : List.Forall₂ AddsSource metadata.propertySources sources) :
      SetsUp metadata (.comment "infrastructure" :: resolver :: profiles ++ sources ++ [.blank])

theorem activatesProfiles (profiles : List String) :
    ActivatesProfiles profiles
      (if profiles.isEmpty then []
        else Block.statement "context.getEnvironment().setActiveProfiles($L)"
          [.code (.join ", " (profiles.map fun profile => .format "$S" [.text profile]))]) := by
  cases profiles with
  | nil => exact .nothing
  | cons first others =>
      refine .together (by simp) (Line.states_statement_iff.mpr fun typeText => ?_)
      simp [Fragment.format, Placeholder.fill, Fragment.chars_join, String.toList_intercalate,
        Function.comp_def]

theorem forall₂_addsSource (sources : List PropertySource) :
    List.Forall₂ AddsSource sources
      (sources.flatMap fun source =>
        Block.statement "context.getEnvironment().getPropertySources().addLast(new $T($S, $S))"
          [.type Framework.resourcePropertySource, .text source.name, .text source.location]) := by
  induction sources with
  | nil => exact .nil
  | cons source sources ih =>
      refine .cons (Line.states_statement_iff.mpr fun typeText => ?_) ih
      simp [Fragment.format, Placeholder.fill, Text.quote]

theorem setsUp_infrastructureSection (metadata : ContainerMetadata) :
    metadata.SetsUp metadata.infrastructureSection := by
  refine .framed (Line.states_statement_iff.mpr fun typeText => ?_)
    (activatesProfiles metadata.activeProfiles) (forall₂_addsSource metadata.propertySources)
  simp [Fragment.format, Placeholder.fill]

end ContainerMetadata

namespace EventListener

/-- Text of the description of a listener method. -/
def descriptionText (listener : EventListener) : Wording := fun typeText =>
  typeText Framework.eventListenerMetadata ++ ".forBean(" ++ Text.quote listener.component ++
    ", " ++ typeText listener.componentType ++ ".class).annotatedMethod(" ++
    Text.quote listener.method.name ++ Component.parameterClasses typeText listener.method ++ ")"

/-- Whether lines describe listeners one by one, with a comma after each but the last. -/
inductive Describes : List EventListener → Block → Prop
  | last {listener : EventListener} {description : Fragment}
      (reads : description.Reads listener.descriptionText) :
      Describes [listener] [.code description]
  | cons {listener : EventListener} {others : List EventListener} {description : Fragment}
      {descriptions : Block}
      (reads : description.Reads fun typeText => listener.descriptionText typeText ++ ",")
      (rest : Describes others descriptions) :
      Describes (listener :: others) (.code description :: descriptions)

/-- Whether a block, behind a comment, registers event listeners in one call. -/
inductive Announces (listeners : List EventListener) : Block → Prop
  | called {opening : Fragment} {descriptions : Block} {closing : Line}
      (opens : opening.Reads fun typeText =>
        registrationOpening typeText Framework.eventListenerRegistrar.text
            Framework.eventListenerRegistrar ++
          " new " ++ typeText Framework.eventListenerRegistrar ++ "(context, " ++
          typeText Framework.list ++ ".of(")
      (describes : Describes listeners descriptions)
      (closes : closing.States fun _ => ")))") :
      Announces listeners
        (.comment "event listeners" :: .code opening :: .indent :: descriptions ++
          [.unindent, closing])

theorem reads_code (listener : EventListener) : listener.code.Reads listener.descriptionText := by
  refine Fragment.reads_iff.mpr fun typeText => ?_
  have classes := Component.toList_parameterClasses typeText listener.method
  rw [Component.classLiterals] at classes
  unfold code descriptionText
  simp [Fragment.format, Placeholder.fill, Text.quote, classes]

theorem describes_lines {listeners : List EventListener} (nonempty : listeners ≠ []) :
    Describes listeners (lines listeners) := by
  induction listeners with
  | nil => exact absurd rfl nonempty
  | cons listener others ih =>
      cases others with
      | nil => exact .last listener.reads_code
      | cons second others =>
          refine .cons (Fragment.reads_iff.mpr fun typeText => ?_) (ih (by simp))
          simp [Fragment.reads_iff.mp listener.reads_code]

theorem announces_listenersSection {listeners : List EventListener} (nonempty : listeners ≠ []) :
    Announces listeners (listenersSection listeners) := by
  have section_eq : listenersSection listeners =
      .comment "event listeners" ::
        Block.line "context.registerBean($S, $T.class, () -> new $T(context, $T.of("
          [.text Framework.eventListenerRegistrar.text, .type Framework.eventListenerRegistrar,
            .type Framework.eventListenerRegistrar, .type Framework.list] ++
        [.indent] ++ lines listeners ++ [.unindent] ++ Block.statement ")))" [] :=
    if_neg (by simpa using nonempty)
  rw [section_eq]
  simp only [Block.line, Block.statement, List.cons_append, List.nil_append, List.append_assoc]
  refine .called (Fragment.reads_iff.mpr fun typeText => ?_) (describes_lines nonempty)
    (Line.states_statement_iff.mpr fun typeText => ?_)
  · simp [Component.toList_registrationOpening, Fragment.format, Placeholder.fill, Text.quote]
  · simp [Fragment.format]

end EventListener
end Wiring
