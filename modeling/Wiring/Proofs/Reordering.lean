import Wiring.Proofs.Additions
import Wiring.Proofs.Run

/-!
# Reordered containers

A container is reordered by listing its components in another order.  Neither the code of a
component nor the types present depend on the order, so components keep their outcomes and
processors add the same requirements.
-/

namespace Wiring

namespace Container

/-- The container with its names in another order. -/
def reorder (container : Container) (names : List String) : Container := { container with names }

theorem namesForType_reorder (container : Container) {names : List String}
    (perm : container.names.Perm names) (target : TypeName) :
    (container.namesForType target).Perm ((container.reorder names).namesForType target) :=
  perm.filter _

/-- Types that the definition of a name makes present. -/
def typesOf (container : Container) (definition : Definition) : List TypeName :=
  (container.componentTypes definition).flatMap container.impliedTypes

theorem foldlM_presentTypes_eq_ok {container : Container} {names : List String}
    {start present : SortedSet TypeName}
    (found : names.foldlM (fun present name => (container.merged name).map fun definition =>
      present.insertAll (container.typesOf definition)) start = .ok present) (type : TypeName) :
    type ∈ present ↔ type ∈ start ∨ ∃ name ∈ names, ∃ definition,
      container.merged name = .ok definition ∧ type ∈ container.typesOf definition := by
  induction names generalizing start with
  | nil =>
      cases found
      simp
  | cons name names ih =>
      obtain ⟨middle, added, found⟩ := Except.bind_eq_ok.mp found
      obtain ⟨definition, merged, rfl⟩ := Except.map_eq_ok.mp added
      rw [ih found, SortedSet.mem_insertAll]
      simp only [List.mem_cons, exists_eq_or_imp, merged, Except.ok.injEq, exists_eq_left',
        or_assoc, or_left_comm]

/-- The present types are those of the merged definitions and the annotations. -/
theorem mem_presentTypes {container : Container} {present : SortedSet TypeName}
    (known : container.presentTypes = .ok present) (type : TypeName) :
    type ∈ present ↔ type ∈ container.metadata.annotations ∨ ∃ name ∈ container.names,
      ∃ definition, container.merged name = .ok definition ∧
        type ∈ container.typesOf definition := by
  rw [foldlM_presentTypes_eq_ok known, SortedSet.mem_ofList]

theorem exists_presentTypes {container : Container}
    (merged : ∀ name ∈ container.names, ∃ definition, container.merged name = .ok definition) :
    ∃ present, container.presentTypes = .ok present := by
  unfold presentTypes
  generalize SortedSet.ofList container.metadata.annotations = start
  revert merged
  generalize container.names = names
  intro merged
  induction names generalizing start with
  | nil => exact ⟨start, rfl⟩
  | cons name names ih =>
      obtain ⟨definition, found⟩ := merged name (by simp)
      rw [List.foldlM_cons, found]
      exact ih _ fun other mem => merged other (by simp [mem])

/-- A reordered container has the same types present. -/
theorem presentTypes_reorder {container : Container} {names : List String}
    (perm : container.names.Perm names)
    (merged : ∀ name ∈ container.names, ∃ definition, container.merged name = .ok definition) :
    (container.reorder names).presentTypes = container.presentTypes := by
  obtain ⟨present, known⟩ := exists_presentTypes merged
  obtain ⟨present', known'⟩ :
      ∃ present', (container.reorder names).presentTypes = .ok present' :=
    exists_presentTypes fun name mem => merged name (perm.mem_iff.mpr mem)
  rw [known, known']
  congr 1
  apply SortedSet.ext
  intro type
  rw [mem_presentTypes known, mem_presentTypes known']
  apply or_congr_right
  constructor
  · rintro ⟨name, mem, implied⟩
    exact ⟨name, perm.mem_iff.mpr mem, implied⟩
  · rintro ⟨name, mem, implied⟩
    exact ⟨name, perm.mem_iff.mp mem, implied⟩

end Container

namespace ContainerProcessor

/-- Container processors do not depend on the order of the names. -/
theorem processAll_reorder {container : Container} {names : List String}
    (perm : container.names.Perm names)
    (merged : ∀ name ∈ container.names, ∃ definition, container.merged name = .ok definition)
    (registry : Reachability) (processors : List ContainerProcessor) :
    processAll (container.reorder names) registry processors =
      processAll container registry processors := by
  induction processors generalizing registry with
  | nil => rfl
  | cons processor rest ih =>
      have same : processor.process (container.reorder names) registry =
          processor.process container registry := by
        cases processor with
        | hints candidates =>
            simp only [process, Container.presentTypes_reorder perm merged]
            rfl
        | propertySources => rfl
        | always hint => rfl
      simp only [processAll, same, ih]

end ContainerProcessor

namespace Component

/-- The component in a container with its names in another order. -/
def reorder (component : Component) (names : List String) : Component :=
  { component with container := component.container.reorder names }

theorem inferredParameters_reorder (container : Container) (names : List String) (position : Nat)
    (arguments : List (Nat × Value)) :
    inferredParameters (container.reorder names) position arguments =
      inferredParameters container position arguments := by
  induction arguments generalizing position with
  | nil => rfl
  | cons argument arguments ih =>
      obtain ⟨index, value⟩ := argument
      simp only [inferredParameters, ih]
      rfl

theorem creator?_reorder (component : Component) (names : List String) :
    (component.reorder names).creator? = component.creator? := by
  unfold creator?
  simp only [reorder, inferredParameters_reorder]
  rfl

theorem problems_reorder (component : Component) (names : List String) :
    (component.reorder names).problems = component.problems := by
  simp only [problems, creatorProblem?, creator?_reorder]
  rfl

theorem plan_reorder (component : Component) (names : List String) :
    (component.reorder names).plan = component.plan := by
  simp only [plan, creator?_reorder]
  rfl

/-- Autowiring looks for a single candidate, which does not depend on the order. -/
theorem autowireCode_reorder (component : Component) {names : List String}
    (perm : component.container.names.Perm names) (parameter : TypeName) :
    (component.reorder names).autowireCode parameter = component.autowireCode parameter := by
  have candidates := (component.container.namesForType_reorder perm parameter).filter
    (· != component.name)
  unfold autowireCode
  split
  · rfl
  split
  · rfl
  split
  next candidate single =>
    have same : (component.container.namesForType parameter).filter (· != component.name) =
        [candidate] := List.perm_singleton.mp (single ▸ candidates)
    rw [same]
  next several =>
    split
    next candidate single =>
      exact absurd (List.perm_singleton.mp (single ▸ candidates.symm)) (several candidate)
    next => rfl

theorem argumentCode_reorder (component : Component) {names : List String}
    (perm : component.container.names.Perm names) :
    (component.reorder names).argumentCode = component.argumentCode := by
  funext parameter
  simp only [argumentCode, component.autowireCode_reorder perm]
  rfl

theorem argumentCodes_reorder (component : Component) {names : List String}
    (perm : component.container.names.Perm names) (creator : Executable) :
    (component.reorder names).argumentCodes creator = component.argumentCodes creator := by
  rw [argumentCodes, component.argumentCode_reorder perm]
  rfl

/-- A component is registered in the same way whatever the order of the container. -/
theorem prepare_reorder (component : Component) {names : List String}
    (perm : component.container.names.Perm names) (main : String) :
    (component.reorder names).prepare main = component.prepare main := by
  have created : ∀ package creator, (component.reorder names).instanceCode package creator =
      component.instanceCode package creator := by
    intro package creator
    rw [instanceCode, component.argumentCodes_reorder perm]
    rfl
  have recorded : ∀ package creator, (component.reorder names).recordedMembers package creator =
      component.recordedMembers package creator := by
    intro package creator
    simp only [recordedMembers, component.argumentCodes_reorder perm]
    rfl
  have registered : ∀ package creator, (component.reorder names).registration package creator =
      component.registration package creator := by
    intro package creator
    rw [registration, created]
    rfl
  have prepared : ∀ creator, (component.reorder names).prepareWith main creator =
      component.prepareWith main creator := by
    intro creator
    simp only [prepareWith, registered, recorded, plan_reorder]
    rfl
  rw [prepare, creator?_reorder, problems_reorder]
  simp only [prepared]
  rfl

end Component

/-- The writer in a container with its names in another order. -/
def Writer.reorder (names : List String) : Writer → Writer
  | listener component implementation => listener component implementation
  | registration component => registration (component.reorder names)

namespace Generator

theorem writer?_reorder (generator : Generator) (container : Container) (names : List String)
    (name : String) (definition : Definition) :
    generator.writer? (container.reorder names) name definition =
      (generator.writer? container name definition).map (Writer.reorder names) := by
  unfold writer?
  induction generator.suppliers with
  | nil => rfl
  | cons supplier suppliers ih =>
      have first : (supplier.attach (container.reorder names)).writer? name definition =
          ((supplier.attach container).writer? name definition).map (Writer.reorder names) := by
        cases supplier with
        | testExecutionListeners =>
            simp only [Supplier.attach, Supplier.writer?]
            split
            · rw [Option.map_map]
              rfl
            · rfl
        | registrations known =>
            simp only [Supplier.attach, Supplier.writer?, Option.bind_eq_bind, Option.bind_some]
            cases definition.beanClass with
            | none => rfl
            | some type => rfl
      rw [List.map_cons, List.map_cons, List.findSome?_cons, List.findSome?_cons, first, ih]
      cases (supplier.attach container).writer? name definition with
      | none => rfl
      | some writer => rfl

/-- A component has the same outcome whatever the order of the container. -/
theorem outcome_reorder (generator : Generator) {container : Container} {names : List String}
    (perm : container.names.Perm names) (main name : String) :
    generator.outcome (container.reorder names) main name =
      generator.outcome container main name := by
  have prepared : ∀ definition writer,
      generator.writer? container name definition = some writer →
        (writer.reorder names).prepare main = writer.prepare main := by
    intro definition writer offered
    cases writer with
    | listener component implementation => rfl
    | registration component =>
        rw [component_of_writer? offered]
        exact Component.prepare_reorder ⟨container, name, definition⟩ perm main
  unfold outcome
  congr 1
  funext definition
  congr 1
  funext selected
  congr 1
  rw [writer?_reorder]
  cases offered : generator.writer? container name definition with
  | none => rfl
  | some writer => simp only [Option.map_some, prepared definition writer offered]

end Generator
end Wiring
