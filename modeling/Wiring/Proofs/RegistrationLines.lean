import Wiring.Proofs.FileLines
import Wiring.Proofs.HonouredValues

/-!
# Registrations leave the indentation as it is

Every block that a run puts into a method body takes back the indentation that it gives, whichever
braces it opens.  Hence a registration is shown by the same rows inline in the entry method and in a
helper method of another class, and the two differ in the texts of types alone.
-/

namespace Wiring

namespace Block

variable {depth : Nat}

theorem climbs_openBrace (format : String) (arguments : List Argument) :
    Climbs depth (openBrace format arguments) (depth + 1) :=
  .line rfl (.indent (.nil _))

theorem climbs_nextBrace (format : String) (arguments : List Argument) :
    Climbs (depth + 1) (nextBrace format arguments) (depth + 1) :=
  .unindent (.line rfl (.indent (.nil _)))

theorem climbs_closeStatement (format : String) (arguments : List Argument) :
    Climbs (depth + 1) (closeStatement format arguments) depth :=
  .unindent (.line rfl (.nil _))

theorem isLevel_statement (format : String) (arguments : List Argument) :
    IsLevel (statement format arguments) :=
  fun depth => .line rfl (.nil depth)

end Block

namespace Component

theorem isLevel_statementIf {condition : Bool} {block : Block} (level : block.IsLevel) :
    (statementIf condition block).IsLevel := by
  cases condition with
  | false => exact Block.isLevel_nil
  | true => exact level

theorem isLevel_statementFor (format : String) (name : Option String) :
    (statementFor format name).IsLevel := by
  cases name with
  | none => exact Block.isLevel_nil
  | some name => exact Block.isLevel_statement _ _

theorem isLevel_customizers (definition : Definition) : (customizers definition).IsLevel := by
  have conditional (condition : Bool) (format : String) (arguments : List Argument) :
      (statementIf condition (Block.statement format arguments)).IsLevel :=
    isLevel_statementIf (Block.isLevel_statement format arguments)
  exact (((((conditional _ _ _).append (conditional _ _ _)).append (conditional _ _ _)).append
    (conditional _ _ _)).append (isLevel_statementFor _ _)).append (isLevel_statementFor _ _)

theorem isLevel_of_mapM_injectionCode {component : Component} {package : String}
    {injections : List Injection} {setters : Block}
    (converted : injections.mapM (component.injectionCode package) = .ok setters) :
    setters.IsLevel := by
  apply Block.isLevel_of_writes
  intro line mem
  obtain ⟨injection, -, value, -, rfl⟩ := exists_injection_of_mem_setters converted mem
  rfl

/-- A registration call goes back to the depth it starts from, with and without properties and
attributes. -/
theorem isLevel_registrationCall (component : Component) (code : Fragment) {setters : Block}
    (setting : setters.IsLevel) : (component.registrationCall code setters).IsLevel := by
  have customized := isLevel_customizers component.definition
  intro depth
  unfold registrationCall
  dsimp only
  split
  · split
    · exact Block.isLevel_statement _ _ depth
    · exact ((Block.climbs_openBrace ..).append (customized _)).append
        (Block.climbs_closeStatement ..)
  · have attributes : Block.Climbs (depth + 1)
        (if (customizers component.definition).isEmpty then []
          else Block.nextBrace ", (definition) ->" [] ++ customizers component.definition)
        (depth + 1) := by
      split
      · exact .nil _
      · exact (Block.climbs_nextBrace ..).append (customized _)
    exact (((((Block.climbs_openBrace ..).append (Block.isLevel_statement _ _ _)).append
      (setting _)).append (Block.isLevel_statement _ _ _)).append attributes).append
      (Block.climbs_closeStatement ..)

/-- The registration of a component is level, in code of every package. -/
theorem isLevel_of_registration {component : Component} {package : String}
    {creator : Executable} {block : Block}
    (coded : component.registration package creator = .ok block) : block.IsLevel := by
  obtain ⟨arguments, setters, -, converted, rfl⟩ := registration_eq_ok_iff.mp coded
  exact component.isLevel_registrationCall _ (isLevel_of_mapM_injectionCode converted)

end Component

/-- A block that prints the same rows wherever it stands in a method body. -/
structure Block.FitsAnywhere (block : Block) : Prop where
  /-- No beginning takes back more indentation than it gave. -/
  nested : block.IsNested
  /-- Printing leaves the depth as it is. -/
  depth_eq : ∀ typeText page, (block.print typeText page).depth = page.depth
  /-- Inline in the entry method, behind a level block, the file shows the rows. -/
  inline : ∀ (package : String) (spec : TypeSpec) (front back : Block),
    entryMethod (front ++ block ++ back) ∈ spec.methods → front.IsLevel →
      (∀ method ∈ spec.methods, method.body.IsLevel) →
        SourceFile.Shows package spec (block.rows 2)
  /-- As the body of a helper method, the file shows the same rows. -/
  helper : ∀ (package : String) (spec : TypeSpec) (name : String),
    Component.helperMethod name block ∈ spec.methods →
      (∀ method ∈ spec.methods, method.body.IsLevel) →
        SourceFile.Shows package spec (block.rows 2)

theorem Block.IsLevel.fitsAnywhere {block : Block} (level : block.IsLevel) :
    block.FitsAnywhere where
  nested := (isLevel_iff.mp level).1
  depth_eq := level.depth_print
  inline package _ _ _ mem front_level levels :=
    SourceFile.shows_of_body_eq package levels mem front_level rfl
  helper package _ _ mem levels :=
    SourceFile.shows_of_body_eq package levels mem isLevel_nil (List.append_nil block).symm

/-! ### Blocks of a run -/

theorem ContainerMetadata.isLevel_infrastructureSection (metadata : ContainerMetadata) :
    metadata.infrastructureSection.IsLevel := by
  have activation : Block.IsLevel (if metadata.activeProfiles.isEmpty then []
      else
        Block.statement "context.getEnvironment().setActiveProfiles($L)"
          [.code (.join ", " (metadata.activeProfiles.map fun profile =>
            .format "$S" [.text profile]))]) := by
    split
    · exact Block.isLevel_nil
    · exact Block.isLevel_statement _ _
  have title : Block.IsLevel [.comment "infrastructure"] := fun depth => .line rfl (.nil depth)
  have ending : Block.IsLevel [.blank] := fun depth => .line rfl (.nil depth)
  exact (title.append (((Block.isLevel_statement _ _).append activation).append
    (Block.isLevel_flatMap fun _ _ => Block.isLevel_statement _ _))).append ending

theorem EventListener.isLevel_listenersSection (listeners : List EventListener) :
    Block.IsLevel (listenersSection listeners) := by
  have described (listeners : List EventListener) : Block.IsLevel (lines listeners) := by
    induction listeners with
    | nil => exact Block.isLevel_nil
    | cons first others ih =>
        cases others with
        | nil => exact fun depth => .line rfl (.nil depth)
        | cons second others => exact fun depth => .line rfl (ih depth)
  intro depth
  unfold listenersSection
  split
  · exact .nil depth
  · have opening : Block.Climbs depth
        (.comment "event listeners" ::
          Block.line "context.registerBean($S, $T.class, () -> new $T(context, $T.of("
            [.text Framework.eventListenerRegistrar.text, .type Framework.eventListenerRegistrar,
              .type Framework.eventListenerRegistrar, .type Framework.list] ++ [.indent])
        (depth + 1) :=
      .line rfl (.line rfl (.indent (.nil _)))
    exact (((opening.append (described listeners _))).append (.unindent (.nil _))).append
      (Block.isLevel_statement _ _ depth)

namespace Placement

theorem Registers.isLevel_block {main : String} {writer : Writer} {placement : Placement}
    (registers : placement.Registers main writer) : placement.registration.block.IsLevel := by
  cases writer with
  | listener component implementation =>
      rw [registers.2.1]
      exact Block.isLevel_statement _ _
  | registration component =>
      obtain ⟨creator, -, -, coded, -⟩ := registers
      exact Component.isLevel_of_registration coded

theorem isLevel_code {placement : Placement} (level : placement.registration.block.IsLevel)
    (className : String) : (placement.code className).IsLevel := by
  unfold code
  split
  · exact level
  · exact Block.isLevel_statement _ _

end Placement

namespace Generator

theorem isLevel_opening (generator : Generator) (container : Container) :
    (generator.opening container).IsLevel := by
  unfold opening
  split
  · exact container.metadata.isLevel_infrastructureSection
  · exact Block.isLevel_nil

namespace Produces

variable {generator : Generator} {container : Container} {package : String} {result : Progress}
  {outcomes : List Outcome} {placements : List Placement}

theorem isLevel_block (run : generator.Produces container package result outcomes placements)
    {placement : Placement} (placed : placement ∈ placements) :
    placement.registration.block.IsLevel := by
  obtain ⟨writer, -, registers⟩ := run.exists_registers placed
  exact registers.isLevel_block

/-- The opening of the entry method with the code of placements behind it is level. -/
theorem isLevel_front (run : generator.Produces container package result outcomes placements)
    {before : List Placement} (placed : ∀ placement ∈ before, placement ∈ placements) :
    Block.IsLevel (generator.opening container ++
      before.flatMap (Placement.code generator.settings.className)) :=
  (generator.isLevel_opening container).append
    (Block.isLevel_flatMap fun placement mem =>
      Placement.isLevel_code (run.isLevel_block (placed placement mem)) _)

/-- Every method of a bootstrap class of a run has a level body. -/
theorem isLevel_body (run : generator.Produces container package result outcomes placements)
    (home : String) : ∀ method ∈ (result.draft.classOf home).methods, method.body.IsLevel := by
  intro method mem
  rw [Draft.classOf, run.package_eq] at mem
  split at mem
  · rw [run.main_eq] at mem
    obtain rfl := List.mem_singleton.mp mem
    exact (run.isLevel_front fun _ placed => placed).append
      (EventListener.isLevel_listenersSection _)
  · rw [run.helpers_eq, Placement.helperClass?] at mem
    split at mem
    · cases mem
    · obtain ⟨placement, placed, found⟩ := List.mem_filterMap.mp mem
      obtain ⟨-, helper, -, rfl⟩ := Placement.methodIn?_eq_some_iff.mp found
      exact run.isLevel_block placed

/-- The class that holds a registration is written to a source file. -/
theorem ofSpec_mem_sources (run : generator.Produces container package result outcomes placements)
    {placement : Placement} (placed : placement ∈ placements) :
    .ofSpec placement.registration.package
        (result.draft.classOf placement.registration.package).toSpec ∈ result.sources := by
  obtain ⟨method, held, -⟩ := run.exists_body_eq placed
  rw [Draft.classOf, run.package_eq] at held ⊢
  rw [Progress.sources, Draft.sourceFiles]
  split
  next home =>
    rw [home, run.package_eq]
    exact List.mem_cons_self
  next away =>
    rw [if_neg away] at held
    cases stored : result.draft.helpers.get? placement.registration.package with
    | none =>
        rw [stored] at held
        cases held
    | some cls =>
        exact List.mem_cons_of_mem _
          (List.mem_map.mpr ⟨(_, cls), SortedMap.mem_entries_iff.mpr stored, rfl⟩)

/-- The file of its class shows the rows of every registration. -/
theorem shows_block (run : generator.Produces container package result outcomes placements)
    {placement : Placement} (placed : placement ∈ placements) :
    SourceFile.Shows placement.registration.package
      (result.draft.classOf placement.registration.package).toSpec
      (placement.registration.block.rows 2) := by
  obtain ⟨method, mem, front, back, body_eq, shape⟩ := run.exists_body_eq placed
  have level : front.IsLevel := by
    rcases shape with rfl | ⟨before, earlier, rfl⟩
    · exact Block.isLevel_nil
    · exact run.isLevel_front earlier
  exact SourceFile.shows_of_body_eq _ (run.isLevel_body _) mem level body_eq.symm

end Produces

/-- Where the source files of a run show the registrations of the written components. -/
structure Displays (generator : Generator) (container : Container) (package : String)
    (result : Progress) (placements : List Placement) : Prop
    extends generator.Places container package result placements where
  /-- The class of its package is a source file of the run. -/
  written : ∀ placement ∈ placements,
    .ofSpec placement.registration.package
      (result.draft.classOf placement.registration.package).toSpec ∈ result.sources
  /-- The file shows the rows of the registration, whether it is the file of the main class or of a
  helper class. -/
  shows : ∀ placement ∈ placements,
    SourceFile.Shows placement.registration.package
      (result.draft.classOf placement.registration.package).toSpec
      (placement.registration.block.rows 2)

end Generator

/-- Printing is compositional in the depth: one block behind another is printed from the depth that
the first leaves behind, and what a nested block prints moves with the depth.  Registrations go back
to the depth they start from; so inline and in helper methods the same rows are shown. -/
theorem Block.prints_from_every_depth :
    (∀ (typeText : TypeName → String) (unit : String) (depth : Nat) (first second : Block),
      (first ++ second).print typeText (.startAt unit depth) =
        let left := first.print typeText (.startAt unit depth)
        let right := second.print typeText (.startAt unit left.depth)
        { right with text := left.text ++ right.text }) ∧
    (∀ block : Block, block.IsNested →
      ∀ typeText unit depth, block.ShiftsTo typeText unit depth) ∧
    (∀ (component : Component) (package : String) (creator : Executable) (block : Block),
      component.registration package creator = .ok block → block.FitsAnywhere) ∧
    ∀ (generator : Generator) (container : Container) (package : String) (result : Progress),
      generator.generate container package = .ok result →
        ∃ placements, generator.Displays container package result placements := by
  refine ⟨print_append_startAt, fun block nested => nested.shiftsTo, ?_, ?_⟩
  · intro component package creator block coded
    exact (Component.isLevel_of_registration coded).fitsAnywhere
  · intro generator container package result run
    obtain ⟨outcomes, placements, produces⟩ := Generator.exists_produces run
    exact ⟨placements, produces.places, fun _ => produces.ofSpec_mem_sources,
      fun _ => produces.shows_block⟩

/-- Block with an inner brace and a blank line. -/
def Sample.probe : Block :=
  Block.openBrace "if ($T.active())" [.type ⟨"com.app.Probe"⟩] ++ [.blank] ++ Block.closeBrace

theorem Block.prints_from_every_depth_sample :
    (Sample.probe.IsNested ∧ Sample.probe.ShiftsTo TypeName.canonicalName "  " 2) ∧
      (∃ creator block, Sample.connector.registration "com.app" creator = .ok block ∧
        block.FitsAnywhere) ∧
      ∃ result placements, Sample.generator.generate Sample.container "com.app" = .ok result ∧
        Sample.generator.Displays Sample.container "com.app" result placements := by
  obtain ⟨-, shifts, fits, displays⟩ := Block.prints_from_every_depth
  have nested : Sample.probe.IsNested :=
    isNested_iff.mpr ⟨0, .line rfl (.indent (.line rfl (.unindent (.line rfl (.nil 0)))))⟩
  let creator : Executable := .ofConstructor ⟨"com.app.Connector"⟩ [⟨"com.app.Server"⟩, ⟨"int"⟩]
  have succeeds : (Sample.connector.registration "com.app" creator).isOk = true := by
    decide +kernel
  obtain ⟨block, coded⟩ := Except.exists_eq_ok succeeds
  obtain ⟨result, run⟩ := Sample.generates
  obtain ⟨placements, displayed⟩ := displays _ _ _ _ run
  exact ⟨⟨nested, shifts _ nested _ _ _⟩, ⟨creator, block, coded, fits _ _ _ _ coded⟩,
    result, placements, run, displayed⟩

end Wiring
