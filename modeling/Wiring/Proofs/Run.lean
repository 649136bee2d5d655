import Mathlib.Data.List.Forall2
import Wiring.Catalog
import Wiring.Proofs.Layout

/-!
# Successful runs

A run that succeeds has an outcome for every component, a layout of the registrations among them,
and a registry that the processors accepted.  `Generator.Produces` collects these facts; everything
said about results of runs starts from it.
-/

namespace Wiring

namespace Progress

/-- Following outcomes lays out their registrations behind those placed before. -/
theorem exists_laysOut_foldl_follow {progress : Progress} {start : Draft}
    {placements : List Placement} (layout : progress.draft.LaysOut start placements)
    (outcomes : List Outcome) :
    ∃ added : List Placement,
      added.map (·.registration) = outcomes.filterMap (·.registration?) ∧
        (outcomes.foldl follow progress).draft.LaysOut start (placements ++ added) := by
  induction outcomes generalizing progress placements with
  | nil => exact ⟨[], rfl, by simpa using layout⟩
  | cons outcome outcomes ih =>
      rw [List.foldl_cons]
      cases outcome with
      | skipped =>
          have kept : progress.skip.draft.LaysOut start placements := layout
          exact ih kept
      | leftOut name definition =>
          have kept : (progress.leaveOut name definition).draft.LaysOut start placements := layout
          exact ih kept
      | written registration =>
          have extended : (progress.add registration).draft.LaysOut start
              (placements ++ [⟨registration, progress.draft.helperFor registration⟩]) :=
            layout.add registration
          obtain ⟨added, placed, laid⟩ := ih extended
          rw [List.append_assoc] at laid
          refine ⟨⟨registration, progress.draft.helperFor registration⟩ :: added, ?_, laid⟩
          simp [Outcome.registration?, placed]

theorem plans_foldl_follow (outcomes : List Outcome) (progress : Progress) :
    (outcomes.foldl follow progress).plans =
      progress.plans ++ (outcomes.filterMap (·.registration?)).map (·.plan) := by
  induction outcomes generalizing progress with
  | nil => simp
  | cons outcome outcomes ih =>
      rw [List.foldl_cons, ih]
      cases outcome with
      | skipped => rfl
      | leftOut name definition => rfl
      | written registration => simp [follow, add, Outcome.registration?]

theorem written_foldl_follow (outcomes : List Outcome) (progress : Progress) :
    (outcomes.foldl follow progress).statistics.written =
      progress.statistics.written + (outcomes.filterMap (·.registration?)).length := by
  induction outcomes generalizing progress with
  | nil => rfl
  | cons outcome outcomes ih =>
      rw [List.foldl_cons, ih]
      cases outcome with
      | skipped => rfl
      | leftOut name definition => rfl
      | written registration =>
          simp only [follow, add, Outcome.registration?, List.filterMap_cons, List.length_cons]
          omega

/-- Processors leave everything but the registry as it is. -/
theorem process_eq_ok_iff {progress processed : Progress} {container : Container}
    {processors : Processors} :
    progress.process container processors = .ok processed ↔
      ∃ registry,
        ContainerProcessor.processAll container progress.draft.registry processors.ofContainer =
          (registry, none) ∧
        processed =
          { progress with
            draft :=
              { progress.draft with
                registry :=
                  ComponentProcessor.processAll container.types progress.plans registry
                    processors.ofComponents } } := by
  unfold process
  split
  next registry cause ran => simp [ran, stop]
  next registry ran => simp [ran, eq_comm]

end Progress

/-- Whether a placement holds the registration that a writer gives its component, in a run with a
main class in a given package. -/
def Placement.Registers (main : String) : Writer → Placement → Prop
  | .listener _ implementation, placement =>
      placement.helper = none ∧ placement.registration.block = Writer.listenerCode implementation ∧
        placement.registration.recorded = [.ofConstructor implementation []]
  | .registration component, placement =>
      ∃ creator, component.creator? = some creator ∧ component.problems = [] ∧
        component.registration (component.targetPackage main) creator =
          .ok placement.registration.block ∧
        placement.registration.package = component.targetPackage main ∧
        placement.registration.helperBase = component.helperBase ∧
        placement.registration.recorded =
          component.recordedMembers (component.targetPackage main) creator ∧
        (placement.helper = none ↔ component.targetPackage main = main)

theorem Placement.registers_of_prepare {main : String} {writer : Writer} {placement : Placement}
    (prepared : writer.prepare main = .ok placement.registration)
    (inline_iff : placement.helper = none ↔ placement.registration.package = main) :
    placement.Registers main writer := by
  obtain ⟨registration, helper⟩ := placement
  cases writer with
  | listener component implementation =>
      cases prepared
      exact ⟨inline_iff.mpr rfl, rfl, rfl⟩
  | registration component =>
      simp only [Writer.prepare, Component.prepare] at prepared
      split at prepared
      next creator resolved no_problem =>
        obtain ⟨block, coded, rfl⟩ := Except.map_eq_ok.mp prepared
        exact ⟨creator, resolved, no_problem, coded, rfl, rfl, rfl, inline_iff⟩
      next => cases prepared
      next => cases prepared

namespace Generator

/-- Code of the entry method in front of the registrations. -/
def opening (generator : Generator) (container : Container) : Block :=
  if generator.settings.infrastructure then container.metadata.infrastructureSection else []

/-- Event listeners that the entry method registers. -/
def listeners (generator : Generator) (container : Container) : List EventListener :=
  if generator.settings.eventListeners then container.metadata.eventListeners else []

/-- Code of the entry method behind the registrations. -/
def closing (generator : Generator) (container : Container) : Block :=
  EventListener.listenersSection (generator.listeners container)

/-- Body of the entry method for given placements. -/
def entryBody (generator : Generator) (container : Container) (placements : List Placement) :
    Block :=
  generator.opening container ++
    placements.flatMap (Placement.code generator.settings.className) ++ generator.closing container

theorem addListeners_eq (generator : Generator) (container : Container) (draft : Draft) :
    generator.addListeners container draft =
      (draft.append (generator.closing container)).reflect
        ((generator.listeners container).map EventListener.method) := by
  unfold addListeners closing listeners
  split
  next => rfl
  next => simp [EventListener.listenersSection, Draft.append, Draft.reflect, Reachability.reflect,
    MemberTable.addExecutables]

/-- How a successful run comes about. -/
structure Produces (generator : Generator) (container : Container) (package : String)
    (result : Progress) (outcomes : List Outcome) (placements : List Placement) : Prop where
  /-- The settings and the package are in order. -/
  valid : generator.settings.faultFor? package = none
  /-- Every component has its outcome. -/
  decided : container.names.map (generator.outcome container package) = outcomes.map .ok
  /-- The placements hold the registrations of the written components, in order. -/
  placed : placements.map (·.registration) = outcomes.filterMap (·.registration?)
  /-- The main class has the entry method alone. -/
  main_eq : result.draft.main =
    (BootstrapClass.create package generator.settings.className true).addMethod
      (entryMethod (generator.entryBody container placements))
  /-- The main package stands in the draft. -/
  package_eq : result.draft.package = package
  /-- Every helper class holds the helper methods of its package, in order. -/
  helpers_eq : ∀ package, result.draft.helpers.get? package =
    Placement.helperClass? generator.settings.className package placements
  /-- Registrations of the main package stand inline, and only they. -/
  inline_iff : ∀ placement ∈ placements,
    placement.helper = none ↔ placement.registration.package = package
  /-- Helper methods of one package have different names. -/
  names_distinct : ∀ package, ((Placement.methodsIn package placements).map Method.name).Nodup
  /-- Helper names are made from the bases of their registrations. -/
  names_derived : ∀ placement ∈ placements, ∀ helper, placement.helper = some helper →
    ∃ number, helper = BootstrapClass.candidate placement.registration.helperBase number
  /-- The result lists the plans of the written components, in order. -/
  plans_eq : result.plans = placements.map (·.registration.plan)
  /-- Components are counted by outcome. -/
  statistics_eq : result.statistics =
    (outcomes.foldl Progress.follow (generator.start container package)).statistics
  /-- Processors extend what the registrations recorded, and listener methods come last. -/
  registry_eq : ∃ registry,
    ContainerProcessor.processAll container
        ((Reachability.ofOptions generator.settings.options).reflect
          (placements.flatMap (·.registration.recorded)))
        (Processors.builtIn generator.hints ++ generator.processors).ofContainer =
      (registry, none) ∧
    result.draft.registry =
      (ComponentProcessor.processAll container.types result.plans registry
          (Processors.builtIn generator.hints ++ generator.processors).ofComponents).reflect
        ((generator.listeners container).map EventListener.method)

/-- Every successful run comes about in this way. -/
theorem exists_produces {generator : Generator} {container : Container} {package : String}
    {result : Progress} (run : generator.generate container package = .ok result) :
    ∃ outcomes placements, generator.Produces container package result outcomes placements := by
  obtain ⟨valid, outcomes, decided, processed, ran, rfl⟩ := generate_eq_ok_iff.mp run
  have bare : (generator.start container package).draft.helpers = .empty := rfl
  obtain ⟨placements, placed, laid⟩ :=
    Progress.exists_laysOut_foldl_follow (Draft.LaysOut.start bare) outcomes
  obtain ⟨registry, accepted, rfl⟩ := Progress.process_eq_ok_iff.mp ran
  rw [List.nil_append] at laid
  have plans : (outcomes.foldl Progress.follow (generator.start container package)).plans =
      placements.map (·.registration.plan) := by
    rw [Progress.plans_foldl_follow, ← placed]
    simp [start]
  refine ⟨outcomes, placements, ?_⟩
  constructor
  · exact valid
  · exact decided
  · exact placed
  · simp only [Progress.finish, Draft.finish, addListeners_eq, Draft.append, Draft.reflect,
      laid.main_eq, laid.body_eq]
    rfl
  · rw [addListeners_eq]
    exact laid.package_eq
  · intro package
    rw [addListeners_eq]
    exact laid.helpers_eq package
  · exact laid.inline_iff
  · exact laid.names_distinct
  · exact laid.names_derived
  · exact plans
  · rfl
  · refine ⟨registry, ?_, ?_⟩
    · rw [← accepted, laid.registry_eq]
      rfl
    · rw [addListeners_eq]
      rfl

/-- Where a result holds the registrations of the written components. -/
structure Places (generator : Generator) (container : Container) (package : String)
    (result : Progress) (placements : List Placement) : Prop where
  /-- Every written component has one placement of its registration, in container order. -/
  registers : List.Forall₂ (fun writer placement => placement.Registers package writer)
    (generator.writers container) placements
  /-- The bootstrap class of its package holds the code of every registration. -/
  held : ∀ placement ∈ placements,
    ∃ method ∈ (result.draft.classOf placement.registration.package).methods,
      placement.registration.block <:+: method.body

namespace Produces

variable {generator : Generator} {container : Container} {package : String} {result : Progress}
  {outcomes : List Outcome} {placements : List Placement}

theorem map_prepare (run : generator.Produces container package result outcomes placements) :
    (generator.writers container).map (·.prepare package) =
      placements.map fun placement => .ok placement.registration := by
  rw [writers, map_prepare_writers run.decided, ← run.placed, List.map_map]
  rfl

/-- Every written component has one placement, in the order of the container. -/
theorem forall₂_registers
    (run : generator.Produces container package result outcomes placements) :
    List.Forall₂ (fun writer placement => placement.Registers package writer)
      (generator.writers container) placements := by
  have prepared := run.map_prepare
  have inline_iff := run.inline_iff
  revert prepared inline_iff
  generalize generator.writers container = writers
  clear run
  intro prepared inline_iff
  induction writers generalizing placements with
  | nil =>
      cases placements with
      | nil => exact .nil
      | cons placement placements => cases prepared
  | cons writer writers ih =>
      cases placements with
      | nil => cases prepared
      | cons placement placements =>
          simp only [List.map_cons, List.cons.injEq] at prepared
          refine .cons ?_ (ih prepared.2 fun other mem => inline_iff other (by simp [mem]))
          exact Placement.registers_of_prepare prepared.1 (inline_iff placement (by simp))

/-- Every placement registers the component of a writer. -/
theorem exists_registers (run : generator.Produces container package result outcomes placements)
    {placement : Placement} (placed : placement ∈ placements) :
    ∃ writer ∈ generator.writers container,
      placement.Registers package writer := by
  have shown : Except.ok placement.registration ∈
      placements.map fun placement => (.ok placement.registration : Except WriteProblem _) :=
    List.mem_map_of_mem (f := fun placement => Except.ok placement.registration) placed
  rw [← run.map_prepare] at shown
  obtain ⟨writer, offered, prepared⟩ := List.mem_map.mp shown
  exact ⟨writer, offered,
    Placement.registers_of_prepare prepared (run.inline_iff placement placed)⟩

/-- The class of its package holds the code of every placement: in the entry method, behind the
opening and the code of other placements, or alone in a helper method. -/
theorem exists_body_eq (run : generator.Produces container package result outcomes placements)
    {placement : Placement} (placed : placement ∈ placements) :
    ∃ method ∈ (result.draft.classOf placement.registration.package).methods, ∃ front back,
      front ++ placement.registration.block ++ back = method.body ∧
        (front = [] ∨ ∃ before : List Placement, (∀ other ∈ before, other ∈ placements) ∧
          front = generator.opening container ++
            before.flatMap (Placement.code generator.settings.className)) := by
  cases named : placement.helper with
  | none =>
      have home := (run.inline_iff placement placed).mp named
      rw [Draft.classOf, run.package_eq, if_pos home, run.main_eq]
      refine ⟨entryMethod (generator.entryBody container placements), by
        simp [BootstrapClass.addMethod], ?_⟩
      obtain ⟨before, after, rfl⟩ := List.append_of_mem placed
      refine ⟨generator.opening container ++
          before.flatMap (Placement.code generator.settings.className),
        after.flatMap (Placement.code generator.settings.className) ++
          generator.closing container, ?_, .inr ⟨before, fun other mem => by simp [mem], rfl⟩⟩
      simp [entryMethod, entryBody, Placement.code, named]
  | some helper =>
      have away : placement.registration.package ≠ package := by
        intro home
        rw [(run.inline_iff placement placed).mpr home] at named
        cases named
      have mem : Component.helperMethod helper placement.registration.block ∈
          Placement.methodsIn placement.registration.package placements :=
        List.mem_filterMap.mpr ⟨placement, placed,
          Placement.methodIn?_eq_some_iff.mpr ⟨rfl, helper, named, rfl⟩⟩
      rw [Draft.classOf, run.package_eq, if_neg away, run.helpers_eq, Placement.helperClass?,
        if_neg (List.ne_nil_of_mem mem)]
      exact ⟨_, mem, [], [], List.append_nil _, .inl rfl⟩

/-- The class of its package holds the code of every placement. -/
theorem exists_holding_method
    (run : generator.Produces container package result outcomes placements)
    {placement : Placement} (placed : placement ∈ placements) :
    ∃ method ∈ (result.draft.classOf placement.registration.package).methods,
      placement.registration.block <:+: method.body := by
  obtain ⟨method, mem, front, back, body_eq, -⟩ := run.exists_body_eq placed
  exact ⟨method, mem, front, back, body_eq⟩

theorem places (run : generator.Produces container package result outcomes placements) :
    generator.Places container package result placements :=
  ⟨run.forall₂_registers, fun _ placed => run.exists_holding_method placed⟩

end Produces
end Generator
theorem Except.exists_eq_ok {ε α : Type} {result : Except ε α} (succeeds : result.isOk = true) :
    ∃ value, result = .ok value := by
  cases result with
  | error cause => cases succeeds
  | ok value => exact ⟨value, rfl⟩

/-! ## A sample catalog

Two hidden types of one package whose helper names collide, a public type with hidden members, a
test execution listener and an event listener; names and values hold quotes, brackets and line
breaks. -/

namespace Sample

/-- Class with one constructor and some methods. -/
def classType (name : String) (visibility constructor : Visibility)
    (methods : List DeclaredMethod) : DeclaredType :=
  ⟨⟨name⟩, .classType, visibility, none, [], [], [⟨[], constructor, []⟩], methods, []⟩

/-- Definition of a singleton. -/
def definition (name : String) (origin : Origin) (properties : List PropertyValue)
    (initMethod : Option String) : Definition :=
  ⟨some ⟨name⟩, none, .application, false, false, none, .empty, properties, initMethod, none, none,
    origin⟩

/-- Components by name. -/
def components : List (String × Definition) :=
  [("first", definition "com.acme.Foo" .declared [] none),
    ("server \"(\n", definition "com.app.Server" .declared
      [⟨"port", .literal " +080 "⟩, ⟨"mark", .literal "'"⟩, ⟨"title", .literal "\"\\\n\x7b// ("⟩]
      (some "start")),
    ("second", definition "com.acme.Foo" .declared [] none),
    ("third", definition "com.acme.Foo1" .declared [] none),
    ("watch", definition "com.app.Watch" (.factories Framework.testExecutionListener) [] none)]

/-- Catalog of components in a given order. -/
def catalog (components : List (String × Definition)) : Catalog where
  definitions := .ofList components
  metadata :=
    ⟨[], [⟨"\"", "classpath:a"⟩], ["]"],
      [⟨"server \"(\n", ⟨"com.app.Server"⟩, .ofMethod ⟨"com.app.Server"⟩ "onStart" []⟩]⟩
  types := .ofList
    [classType "com.acme.Foo" .packageAccess .publicAccess [],
      classType "com.acme.Foo1" .packageAccess .publicAccess [],
      classType "com.app.Server" .publicAccess .privateAccess
        [⟨"setPort", [⟨"int"⟩], .void, .privateAccess, false, []⟩,
          ⟨"setMark", [⟨"char"⟩], .void, .publicAccess, false, []⟩,
          ⟨"setTitle", [.string], .void, .packageAccess, false, []⟩,
          ⟨"start", [], .void, .publicAccess, false, []⟩]]

/-- Container of the sample components. -/
def container : Container := (catalog components).toContainer

/-- Generator with standard settings. -/
def generator : Generator := .ofSettings .standard

theorem generates : ∃ result, generator.generate container "com.app" = .ok result :=
  Except.exists_eq_ok (by decide +kernel)

end Sample
end Wiring
