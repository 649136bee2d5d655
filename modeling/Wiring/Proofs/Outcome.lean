import Wiring.Bootstrap.Generation

/-!
# Outcomes of components

What a run does with a component depends on the container and the main package, not on the
components handled before.  A run is therefore the list of its outcomes, one per name, followed one
after another from the start.
-/

namespace Wiring

namespace Except

variable {ε ε' α β : Type}

theorem bind_eq_ok {result : Except ε α} {next : α → Except ε β} {value : β} :
    result >>= next = .ok value ↔ ∃ first, result = .ok first ∧ next first = .ok value := by
  cases result with
  | error cause => simp [bind, Except.bind]
  | ok first => simp [bind, Except.bind]

theorem bind_eq_error {result : Except ε α} {next : α → Except ε β} {cause : ε} :
    result >>= next = .error cause ↔
      result = .error cause ∨ ∃ first, result = .ok first ∧ next first = .error cause := by
  cases result with
  | error cause => simp [bind, Except.bind]
  | ok first => simp [bind, Except.bind]

theorem map_eq_ok {result : Except ε α} {change : α → β} {value : β} :
    result.map change = .ok value ↔ ∃ first, result = .ok first ∧ change first = value := by
  cases result with
  | error cause => simp [Except.map]
  | ok first => simp [Except.map]

theorem map_eq_error {result : Except ε α} {change : α → β} {cause : ε} :
    result.map change = .error cause ↔ result = .error cause := by
  cases result with
  | error cause => simp [Except.map]
  | ok first => simp [Except.map]

@[simp]
theorem mapError_error {cause : ε} {wrap : ε → ε'} :
    (.error cause : Except ε α).mapError wrap = .error (wrap cause) := rfl

@[simp]
theorem mapError_ok {value : α} {wrap : ε → ε'} :
    (.ok value : Except ε α).mapError wrap = .ok value := rfl

theorem mapError_eq_ok {result : Except ε α} {wrap : ε → ε'} {value : α} :
    result.mapError wrap = .ok value ↔ result = .ok value := by
  cases result with
  | error cause => simp
  | ok first => simp

theorem mapError_eq_error {result : Except ε α} {wrap : ε → ε'} {cause : ε'} :
    result.mapError wrap = .error cause ↔ ∃ inner, result = .error inner ∧ wrap inner = cause := by
  cases result with
  | error cause => simp
  | ok first => simp

/-- A list is converted item by item, and every item has to succeed. -/
theorem mapM_eq_ok_iff {convert : α → Except ε β} {items : List α} {values : List β} :
    items.mapM convert = .ok values ↔ items.map convert = values.map .ok := by
  induction items generalizing values with
  | nil =>
      cases values with
      | nil => simp [pure, Except.pure]
      | cons value values => simp [pure, Except.pure]
  | cons item items ih =>
      rw [List.mapM_cons, bind_eq_ok]
      simp only [bind_eq_ok, ih, pure, Except.pure, Except.ok.injEq]
      constructor
      · rintro ⟨first, converted, rest, rest_converted, rfl⟩
        simp [converted, rest_converted]
      · intro converted
        cases values with
        | nil => simp at converted
        | cons value values =>
            simp only [List.map_cons, List.cons.injEq] at converted
            exact ⟨value, converted.1, values, converted.2, rfl⟩

/-- A converted list holds nothing but converted items. -/
theorem exists_of_mem_mapM {convert : α → Except ε β} {items : List α} {values : List β}
    (converted : items.mapM convert = .ok values) {value : β} (mem : value ∈ values) :
    ∃ item ∈ items, convert item = .ok value := by
  have shown : .ok value ∈ values.map (Except.ok (ε := ε)) := List.mem_map_of_mem mem
  rw [← mapM_eq_ok_iff.mp converted] at shown
  exact List.mem_map.mp shown

/-- The conversion of a list fails with the error of its first item that does not convert. -/
theorem mapM_eq_error_iff {convert : α → Except ε β} {items : List α} {cause : ε} :
    items.mapM convert = .error cause ↔ ∃ before item after, items = before ++ item :: after ∧
      (∀ earlier ∈ before, ∃ value, convert earlier = .ok value) ∧
        convert item = .error cause := by
  induction items with
  | nil => simp [pure, Except.pure]
  | cons first items ih =>
      rw [List.mapM_cons]
      simp only [bind_eq_error, ih, pure, Except.pure, reduceCtorEq, and_false, exists_false,
        or_false]
      constructor
      · rintro (failed | ⟨value, converted, before, item, after, rfl, earlier, failed⟩)
        · exact ⟨[], first, items, rfl, fun _ mem => absurd mem List.not_mem_nil, failed⟩
        · exact ⟨first :: before, item, after, rfl,
            List.forall_mem_cons.mpr ⟨⟨value, converted⟩, earlier⟩, failed⟩
      · rintro ⟨before, item, after, split, earlier, failed⟩
        cases before with
        | nil =>
            obtain ⟨rfl, rfl⟩ := List.cons.inj split
            exact .inl failed
        | cons other before =>
            obtain ⟨rfl, rfl⟩ := List.cons.inj split
            obtain ⟨⟨value, converted⟩, others⟩ := List.forall_mem_cons.mp earlier
            exact .inr ⟨value, converted, before, item, after, rfl, others, failed⟩

end Except

/-- Registration of a component, ready to be placed in the class of its package. -/
structure Registration where
  /-- How the component is created and initialized. -/
  plan : Plan
  /-- Package whose class holds the registration. -/
  package : String
  /-- Base of the name of a helper method. -/
  helperBase : String
  /-- Code that registers the component. -/
  block : Block
  /-- Executables recorded for reflection. -/
  recorded : List Executable
  deriving DecidableEq

namespace Component

/-- The setter statements of a registration call the setters of its injections with their values. -/
theorem exists_injection_of_mem_setters {component : Component} {package : String}
    {injections : List Injection} {setters : List Line}
    (converted : injections.mapM (component.injectionCode package) = .ok setters) {line : Line}
    (mem : line ∈ setters) :
    ∃ injection ∈ injections, ∃ value, component.injectionValue injection = .ok value ∧
      .statement (component.setterCode package injection.setter value) = line := by
  obtain ⟨injection, listed, coded⟩ := Except.exists_of_mem_mapM converted mem
  exact ⟨injection, listed, Except.map_eq_ok.mp coded⟩

/-- Registration of a component whose creator is resolved, for a main class in a given package. -/
def prepareWith (component : Component) (main : String) (creator : Executable) :
    Except WriteProblem Registration :=
  (component.registration (component.targetPackage main) creator).map fun block =>
    { plan := component.plan
      package := component.targetPackage main
      helperBase := component.helperBase
      block
      recorded := component.recordedMembers (component.targetPackage main) creator }

/-- Registration of a component, unless resolution left a problem. -/
def prepare (component : Component) (main : String) : Except WriteProblem Registration :=
  match component.creator?, component.problems with
  | some creator, [] => component.prepareWith main creator
  | none, [] => .error (.noUniqueConstructor component.beanType)
  | _, problem :: _ => .error problem

end Component

/-- Registration that a writer adds to a run with a main class in a given package. -/
def Writer.prepare (main : String) : Writer → Except WriteProblem Registration
  | listener component implementation =>
      .ok
        { plan := (listener component implementation).plan
          package := main
          helperBase := ""
          block := listenerCode implementation
          recorded := [.ofConstructor implementation []] }
  | registration component => component.prepare main

namespace Draft

/-- Name of the helper method for a registration; none when the entry method holds it inline. -/
def helperFor (draft : Draft) (registration : Registration) : Option String :=
  if registration.package = draft.package then none
  else some ((draft.classOf registration.package).freeName registration.helperBase)

/-- Add the code of a registration, under a helper name unless it stands inline. -/
def addCode (draft : Draft) (registration : Registration) : Option String → Draft
  | none => draft.append registration.block
  | some helper =>
      let cls := (draft.classOf registration.package).reserve helper
      (draft.setClass registration.package
        (cls.addMethod (Component.helperMethod helper registration.block))).append
        [helperStatement cls.typeName helper]

/-- Place a registration and record its executables. -/
def add (draft : Draft) (registration : Registration) : Draft :=
  (draft.addCode registration (draft.helperFor registration)).reflect registration.recorded

end Draft

namespace Draft

@[simp]
theorem reflect_package (draft : Draft) (executables : List Executable) :
    (draft.reflect executables).package = draft.package := rfl

@[simp]
theorem append_package (draft : Draft) (block : Block) :
    (draft.append block).package = draft.package := rfl

@[simp]
theorem setClass_package (draft : Draft) (package : String) (cls : BootstrapClass) :
    (draft.setClass package cls).package = draft.package := by
  unfold setClass
  split <;> rfl

@[simp]
theorem reflect_classOf (draft : Draft) (executables : List Executable) (package : String) :
    (draft.reflect executables).classOf package = draft.classOf package := rfl

theorem append_reflect (draft : Draft) (executables : List Executable) (block : Block) :
    (draft.reflect executables).append block = (draft.append block).reflect executables := rfl

theorem setClass_reflect (draft : Draft) (executables : List Executable) (package : String)
    (cls : BootstrapClass) :
    (draft.reflect executables).setClass package cls =
      (draft.setClass package cls).reflect executables := by
  unfold setClass
  split
  next same => rw [if_pos (by simpa using same)]; rfl
  next differs => rw [if_neg (by simpa using differs)]; rfl

end Draft

theorem Component.place_reflect (component : Component) (draft : Draft) (package : String)
    (block : Block) (executables : List Executable) :
    component.place (draft.reflect executables) package block =
      (component.place draft package block).reflect executables := by
  unfold place
  by_cases same : package = draft.package
  · simp [same, Draft.append_reflect]
  · simp [same, Draft.append_reflect, Draft.setClass_reflect]

/-- A writer succeeds exactly when its registration can be prepared, and then adds it. -/
theorem Writer.write_of_prepare_eq_ok {writer : Writer} {draft : Draft}
    {registration : Registration} (prepared : writer.prepare draft.package = .ok registration) :
    writer.write draft = ⟨draft.add registration, none⟩ := by
  cases writer with
  | listener component implementation =>
      cases prepared
      simp [write, Draft.add, Draft.helperFor, Draft.addCode]
  | registration component =>
      simp only [prepare, Component.prepare] at prepared
      split at prepared
      next creator resolved no_problem =>
        obtain ⟨block, coded, rfl⟩ := Except.map_eq_ok.mp prepared
        simp only [write, Component.write, resolved, no_problem, Component.writeWith, coded,
          Component.place_reflect]
        simp only [Draft.add, Draft.helperFor, Component.place]
        split
        · rfl
        · rfl
      next => cases prepared
      next => cases prepared

theorem Writer.write_of_prepare_eq_error {writer : Writer} {draft : Draft}
    {problem : WriteProblem} (refused : writer.prepare draft.package = .error problem) :
    (writer.write draft).problem? = some problem := by
  cases writer with
  | listener component implementation => cases refused
  | registration component =>
      simp only [prepare, Component.prepare] at refused
      split at refused
      next creator resolved no_problem =>
        have stopped : component.registration (component.targetPackage draft.package) creator =
            .error problem := Except.map_eq_error.mp refused
        simp [write, Component.write, resolved, no_problem, Component.writeWith, stopped]
      next absent no_problem =>
        cases refused
        simp [write, Component.write, absent, no_problem]
      next first others found =>
        cases refused
        simp [write, Component.write, found]

/-- What becomes of a component in a run. -/
inductive Outcome where
  | skipped
  | leftOut (name : String) (definition : Definition)
  | written (registration : Registration)

/-- Registration of a written component. -/
def Outcome.registration? : Outcome → Option Registration
  | written registration => some registration
  | _ => none

namespace Generator

/-- Writer of a component with a merged definition, if a supplier recognizes it. -/
def writer? (generator : Generator) (container : Container) (name : String)
    (definition : Definition) : Option Writer :=
  (generator.suppliers.map (·.attach container)).findSome? (·.writer? name definition)

/-- Writer of a component that a run writes; none for components it skips or leaves out. -/
def writerOf? (generator : Generator) (container : Container) (name : String) : Option Writer :=
  (container.merged name).toOption.bind fun definition =>
    if (generator.selector.select name definition).toOption = some true then
      generator.writer? container name definition
    else none

/-- Writers of the components that a run writes, in the order of the container. -/
def writers (generator : Generator) (container : Container) : List Writer :=
  container.names.filterMap (generator.writerOf? container)

/-- Outcome of a component in a run with a main class in a given package. -/
def outcome (generator : Generator) (container : Container) (main name : String) :
    Except Failure Outcome := do
  let definition ← (container.merged name).mapError .container
  let selected ← generator.selector.select name definition
  if !selected then return .skipped
  match generator.writer? container name definition with
  | some writer => return .written (← (writer.prepare main).mapError (.writeFailed name))
  | none => return .leftOut name definition

end Generator

namespace Progress

/-- Write a prepared registration. -/
def add (progress : Progress) (registration : Registration) : Progress :=
  { progress with
    draft := progress.draft.add registration
    plans := progress.plans ++ [registration.plan]
    statistics := { progress.statistics with written := progress.statistics.written + 1 } }

/-- Act on the outcome of one component. -/
def follow (progress : Progress) : Outcome → Progress
  | .skipped => progress.skip
  | .leftOut name definition => progress.leaveOut name definition
  | .written registration => progress.add registration

end Progress

@[simp]
theorem Draft.add_package (draft : Draft) (registration : Registration) :
    (draft.add registration).package = draft.package := by
  unfold add addCode
  split <;> simp

@[simp]
theorem Progress.follow_package (progress : Progress) (outcome : Outcome) :
    (progress.follow outcome).draft.package = progress.draft.package := by
  cases outcome with
  | skipped => rfl
  | leftOut name definition => rfl
  | written registration => exact Draft.add_package progress.draft registration

theorem Writer.plan_of_prepare {writer : Writer} {main : String} {registration : Registration}
    (prepared : writer.prepare main = .ok registration) : registration.plan = writer.plan := by
  cases writer with
  | listener component implementation =>
      cases prepared
      rfl
  | registration component =>
      simp only [prepare, Component.prepare] at prepared
      split at prepared
      next creator resolved no_problem =>
        obtain ⟨block, coded, rfl⟩ := Except.map_eq_ok.mp prepared
        rfl
      next => cases prepared
      next => cases prepared

/-- Writing succeeds exactly when the registration can be prepared. -/
theorem Progress.write_eq_ok_iff {progress next : Progress} {name : String} {writer : Writer} :
    progress.write name writer = .ok next ↔
      ∃ registration, writer.prepare progress.draft.package = .ok registration ∧
        next = progress.add registration := by
  cases prepared : writer.prepare progress.draft.package with
  | error problem =>
      simp [write, Writer.write_of_prepare_eq_error prepared, stop]
  | ok registration =>
      simp only [write, Writer.write_of_prepare_eq_ok prepared, Except.ok.injEq, add,
        Writer.plan_of_prepare prepared, exists_eq_left']
      exact eq_comm

/-- One component is handled by following its outcome, and handling fails only with it. -/
theorem Progress.handle_eq_ok_iff {generator : Generator} {container : Container}
    {progress next : Progress} {name : String} :
    progress.handle generator.selector (generator.suppliers.map (·.attach container)) container
        name = .ok next ↔
      ∃ outcome, generator.outcome container progress.draft.package name = .ok outcome ∧
        next = progress.follow outcome := by
  cases merged : container.merged name with
  | error cause => simp [handle, Generator.outcome, merged, attempt, bind, Except.bind]
  | ok definition =>
      cases chosen : generator.selector.select name definition with
      | error failure =>
          simp [handle, Generator.outcome, merged, chosen, attempt, bind, Except.bind]
      | ok selected =>
          cases selected with
          | false =>
              simp [handle, Generator.outcome, merged, chosen, attempt, bind,
                Except.bind, pure, Except.pure, follow, eq_comm]
          | true =>
              cases offered : generator.writer? container name definition with
              | none =>
                  have declined := offered
                  unfold Generator.writer? at declined
                  simp [handle, Generator.outcome, merged, chosen, attempt, bind,
                    Except.bind, pure, Except.pure, follow, eq_comm, offered, declined]
              | some writer =>
                  have handled : progress.handle generator.selector
                      (generator.suppliers.map (·.attach container)) container name =
                        progress.write name writer := by
                    unfold Generator.writer? at offered
                    simp [handle, merged, chosen, attempt, bind, Except.bind, offered]
                  have decided : generator.outcome container progress.draft.package name =
                      ((writer.prepare progress.draft.package).mapError (.writeFailed name)).map
                        .written := by
                    simp [Generator.outcome, merged, chosen, bind, Except.bind, pure,
                      Except.pure, offered, Except.map]
                  rw [handled, decided, write_eq_ok_iff]
                  simp only [Except.map_eq_ok, Except.mapError_eq_ok]
                  constructor
                  · rintro ⟨registration, prepared, rfl⟩
                    exact ⟨_, ⟨registration, prepared, rfl⟩, rfl⟩
                  · rintro ⟨outcome, ⟨registration, prepared, rfl⟩, rfl⟩
                    exact ⟨registration, prepared, rfl⟩

/-- A run over names follows their outcomes in order, and fails only with one of them. -/
theorem Progress.foldlM_handle_eq_ok_iff {generator : Generator} {container : Container}
    {names : List String} {progress next : Progress} :
    names.foldlM
        (handle generator.selector (generator.suppliers.map (·.attach container)) container)
        progress = .ok next ↔
      ∃ outcomes : List Outcome,
        names.map (generator.outcome container progress.draft.package) = outcomes.map .ok ∧
          next = outcomes.foldl follow progress := by
  induction names generalizing progress with
  | nil =>
      constructor
      · intro finished
        exact ⟨[], rfl, by simpa [pure, Except.pure, eq_comm] using finished⟩
      · rintro ⟨outcomes, same, rfl⟩
        cases outcomes with
        | nil => rfl
        | cons first rest => cases same
  | cons name names ih =>
      rw [List.foldlM_cons, Except.bind_eq_ok]
      constructor
      · rintro ⟨middle, handled, finished⟩
        obtain ⟨first, decided, rfl⟩ := handle_eq_ok_iff.mp handled
        obtain ⟨rest, same, rfl⟩ := ih.mp finished
        rw [follow_package] at same
        exact ⟨first :: rest, by simp [decided, same], rfl⟩
      · rintro ⟨outcomes, same, rfl⟩
        cases outcomes with
        | nil => cases same
        | cons first rest =>
            simp only [List.map_cons, List.cons.injEq] at same
            refine ⟨progress.follow first, handle_eq_ok_iff.mpr ⟨first, same.1, rfl⟩, ih.mpr ?_⟩
            exact ⟨rest, by rw [follow_package]; exact same.2, rfl⟩

namespace Generator

/-- A writer is about the component it was asked for. -/
theorem writer_of_writer? {generator : Generator} {container : Container} {name : String}
    {definition : Definition} {writer : Writer}
    (offered : generator.writer? container name definition = some writer) :
    (∃ implementation, writer = .listener name implementation) ∨
      writer = .registration ⟨container, name, definition⟩ := by
  obtain ⟨supplier, mem, found⟩ := List.exists_of_findSome?_eq_some offered
  obtain ⟨source, -, rfl⟩ := List.mem_map.mp mem
  cases source with
  | testExecutionListeners =>
      simp only [Supplier.attach, Supplier.writer?] at found
      split at found
      · obtain ⟨implementation, -, rfl⟩ := Option.map_eq_some_iff.mp found
        exact .inl ⟨implementation, rfl⟩
      · cases found
  | registrations known =>
      simp only [Supplier.attach, Supplier.writer?, Option.bind_eq_bind, Option.bind_some] at found
      obtain ⟨type, -, same⟩ := Option.bind_eq_some_iff.mp found
      cases same
      exact .inr rfl

theorem component_of_writer? {generator : Generator} {container : Container} {name : String}
    {definition : Definition} {component : Component}
    (offered : generator.writer? container name definition = some (.registration component)) :
    component = ⟨container, name, definition⟩ := by
  rcases writer_of_writer? offered with ⟨implementation, same⟩ | same
  · cases same
  · exact Writer.registration.inj same

theorem component_plan_of_writer? {generator : Generator} {container : Container} {name : String}
    {definition : Definition} {writer : Writer}
    (offered : generator.writer? container name definition = some writer) :
    writer.plan.component = name := by
  rcases writer_of_writer? offered with ⟨implementation, rfl⟩ | rfl
  · rfl
  · rfl

theorem component_of_writerOf? {generator : Generator} {container : Container} {name : String}
    {component : Component}
    (offered : generator.writerOf? container name = some (.registration component)) :
    component.container = container ∧ component.name = name ∧
      container.merged name = .ok component.definition := by
  obtain ⟨definition, merged, chosen⟩ := Option.bind_eq_some_iff.mp offered
  have merged_eq : container.merged name = .ok definition := by
    cases found : container.merged name with
    | error cause => simp [found, Except.toOption] at merged
    | ok value => simpa [found, Except.toOption] using merged
  split at chosen
  next =>
    rw [component_of_writer? chosen]
    exact ⟨rfl, rfl, merged_eq⟩
  next => cases chosen

/-- The outcome of a component shows the registration that its writer prepares. -/
theorem registration?_of_outcome {generator : Generator} {container : Container}
    {main name : String} {outcome : Outcome}
    (decided : generator.outcome container main name = .ok outcome) :
    outcome.registration?.map .ok = (generator.writerOf? container name).map (·.prepare main) := by
  simp only [Generator.outcome, Except.bind_eq_ok, Except.mapError_eq_ok] at decided
  obtain ⟨definition, merged, selected, chosen, decided⟩ := decided
  simp only [writerOf?, merged, chosen, Except.toOption, Option.bind_some, Option.some.injEq]
  cases selected with
  | false =>
      simp only [Bool.not_false, if_true, pure, Except.pure, Except.ok.injEq] at decided
      subst decided
      rfl
  | true =>
      simp only [Bool.not_true, Bool.false_eq_true, if_false] at decided
      cases offered : generator.writer? container name definition with
      | none =>
          simp only [offered, pure, Except.pure, Except.ok.injEq] at decided
          subst decided
          simp [Outcome.registration?]
      | some writer =>
          simp only [offered, Except.bind_eq_ok, Except.mapError_eq_ok, pure, Except.pure,
            Except.ok.injEq] at decided
          obtain ⟨registration, prepared, rfl⟩ := decided
          simp [Outcome.registration?, prepared]

/-- The registrations of a run are those that the offered writers prepare, in order. -/
theorem map_prepare_writers {generator : Generator} {container : Container}
    {main : String} {names : List String} {outcomes : List Outcome}
    (decided : names.map (generator.outcome container main) = outcomes.map .ok) :
    (names.filterMap (generator.writerOf? container)).map (·.prepare main) =
      (outcomes.filterMap (·.registration?)).map .ok := by
  induction names generalizing outcomes with
  | nil =>
      cases outcomes with
      | nil => rfl
      | cons first rest => cases decided
  | cons name names ih =>
      cases outcomes with
      | nil => cases decided
      | cons first rest =>
          simp only [List.map_cons, List.cons.injEq] at decided
          have shown := registration?_of_outcome decided.1
          have remaining := ih decided.2
          cases offered : generator.writerOf? container name with
          | none =>
              have absent : first.registration? = none := by simpa [offered] using shown
              simpa [offered, absent] using remaining
          | some writer =>
              rw [offered] at shown
              obtain ⟨registration, present, prepared⟩ := Option.map_eq_some_iff.mp shown
              simp [offered, present, ← prepared, remaining]

/-- A run succeeds exactly when settings, outcomes and processors raise no failure. -/
theorem generate_eq_ok_iff {generator : Generator} {container : Container} {package : String}
    {result : Progress} :
    generator.generate container package = .ok result ↔
      generator.settings.faultFor? package = none ∧
        ∃ outcomes : List Outcome,
          container.names.map (generator.outcome container package) = outcomes.map .ok ∧
            ∃ processed,
              (outcomes.foldl Progress.follow (generator.start container package)).process container
                (Processors.builtIn generator.hints ++ generator.processors) = .ok processed ∧
              result = { processed with
                draft := generator.addListeners container processed.draft }.finish := by
  unfold generate
  cases generator.settings.faultFor? package with
  | some fault => simp
  | none =>
      have started : (generator.start container package).draft.package = package := rfl
      simp only [Except.bind_eq_ok, handleAll, Progress.foldlM_handle_eq_ok_iff, started, pure,
        Except.pure, Except.ok.injEq, true_and]
      constructor
      · rintro ⟨_, ⟨outcomes, decided, rfl⟩, processed, ran, rfl⟩
        exact ⟨outcomes, decided, processed, ran, rfl⟩
      · rintro ⟨outcomes, decided, processed, ran, rfl⟩
        exact ⟨_, ⟨outcomes, decided, rfl⟩, processed, ran, rfl⟩

end Generator

end Wiring
