import Wiring.Proofs.ParentLinks
import Wiring.Proofs.Reordering
import Wiring.Proofs.Superclasses

/-!
# Triggered hints

A hint is due when its trigger is an annotation of the configuration, the declared or produced type
of a component, a superclass of such a type, or an annotation on one of these.  The processor of
hints applies the hints that are due, except those whose trigger is overlooked: superclasses that
are only named by a subclass and not registered themselves.
-/

namespace Wiring

namespace Container

variable {container : Container} {type : TypeName}

/-- Whether a type is the declared or the produced type of a component. -/
def IsComponentType (container : Container) (type : TypeName) : Prop :=
  ∃ name ∈ container.names, ∃ definition, container.merged name = .ok definition ∧
    (definition.beanClass = some type ∨ container.producedType definition = some type)

/-- Whether a type is a component type or a superclass of one, registered or not. -/
def HasInLineage (container : Container) (type : TypeName) : Prop :=
  ∃ start, container.IsComponentType start ∧ container.types.Inherits start type

/-- Whether an annotation stands on the configuration or on a registered component type or
superclass of one. -/
def HasAnnotation (container : Container) (marker : TypeName) : Prop :=
  marker ∈ container.metadata.annotations ∨ ∃ type declared, container.HasInLineage type ∧
    container.types.get? type = some declared ∧ marker ∈ declared.annotations

/-- Whether the presence of a type in the container triggers hints. -/
def Shows (container : Container) (type : TypeName) : Prop :=
  container.HasAnnotation type ∨ container.HasInLineage type

/-- Whether a type is known to the container only as a superclass that is not registered. -/
structure Overlooks (container : Container) (type : TypeName) : Prop where
  /-- Superclass links of a component type lead to the type. -/
  lineage : container.HasInLineage type
  /-- The type has no declaration. -/
  unregistered : container.types.get? type = none
  /-- No component has the type itself. -/
  not_component : ¬ container.IsComponentType type
  /-- The type is no annotation of the container. -/
  not_annotation : ¬ container.HasAnnotation type

theorem IsComponentType.hasInLineage (component : container.IsComponentType type) :
    container.HasInLineage type :=
  ⟨type, component, .refl⟩

theorem mem_componentTypes {definition : Definition} :
    type ∈ container.componentTypes definition ↔
      definition.beanClass = some type ∨ container.producedType definition = some type := by
  simp [componentTypes]

/-- A component type implies itself, its registered superclasses and the annotations on them. -/
theorem mem_impliedTypes {start : TypeName} :
    type ∈ container.impliedTypes start ↔ type = start ∨
      ∃ declared ∈ container.types.superclassChain start,
        type = declared.name ∨ type ∈ declared.annotations := by
  simp [impliedTypes, or_comm]

theorem mem_typesOf {definition : Definition} :
    type ∈ container.typesOf definition ↔
      ∃ start ∈ container.componentTypes definition, type ∈ container.impliedTypes start := by
  simp [typesOf]

/-- The present types are those the container shows and does not overlook. -/
theorem mem_presentTypes_iff {present : SortedSet TypeName}
    (known : container.presentTypes = .ok present) :
    type ∈ present ↔ container.Shows type ∧ ¬ container.Overlooks type := by
  rw [mem_presentTypes known]
  constructor
  · rintro (marked | ⟨name, listed, definition, merged, mem⟩)
    · exact ⟨.inl (.inl marked), fun overlooked => overlooked.not_annotation (.inl marked)⟩
    obtain ⟨start, start_mem, implied⟩ := mem_typesOf.mp mem
    have component : container.IsComponentType start :=
      ⟨name, listed, definition, merged, mem_componentTypes.mp start_mem⟩
    rcases mem_impliedTypes.mp implied with rfl | ⟨declared, chained, here⟩
    · exact ⟨.inr component.hasInLineage, fun overlooked => overlooked.not_component component⟩
    obtain ⟨above, registered⟩ := TypeSystem.mem_superclassChain_iff.mp chained
    rcases here with rfl | marked
    · refine ⟨.inr ⟨start, component, above⟩, fun overlooked => ?_⟩
      cases overlooked.unregistered.symm.trans registered
    · have annotation : container.HasAnnotation type :=
        .inr ⟨declared.name, declared, ⟨start, component, above⟩, registered, marked⟩
      exact ⟨.inl annotation, fun overlooked => overlooked.not_annotation annotation⟩
  · rintro ⟨shown, seen⟩
    -- what a registered type of a lineage implies is present
    have implied {middle : TypeName} {declared : DeclaredType}
        (lineage : container.HasInLineage middle)
        (registered : container.types.get? middle = some declared)
        (here : type = declared.name ∨ type ∈ declared.annotations) :
        ∃ name ∈ container.names, ∃ definition, container.merged name = .ok definition ∧
          type ∈ container.typesOf definition := by
      obtain ⟨start, ⟨name, listed, definition, merged, component⟩, above⟩ := lineage
      refine ⟨name, listed, definition, merged, mem_typesOf.mpr
        ⟨start, mem_componentTypes.mpr component, mem_impliedTypes.mpr (.inr ⟨declared, ?_, here⟩)⟩⟩
      exact TypeSystem.mem_superclassChain_of_inherits above registered
    rcases shown with (marked | ⟨middle, declared, lineage, registered, marked⟩) | lineage
    · exact .inl marked
    · exact .inr (implied lineage registered (.inr marked))
    · cases registered : container.types.get? type with
      | some declared =>
          exact .inr (implied lineage registered (.inl (TypeSystem.name_of_get? registered).symm))
      | none =>
          by_cases annotation : container.HasAnnotation type
          · rcases annotation with marked | ⟨middle, declared, middle_lineage, found, marked⟩
            · exact .inl marked
            · exact .inr (implied middle_lineage found (.inr marked))
          · -- only a component type itself is present without a declaration
            obtain ⟨name, listed, definition, merged, component⟩ :
                container.IsComponentType type :=
              by_contra fun other => seen ⟨lineage, registered, other, annotation⟩
            exact .inr ⟨name, listed, definition, merged, mem_typesOf.mpr
              ⟨type, mem_componentTypes.mpr component, mem_impliedTypes.mpr (.inl rfl)⟩⟩

end Container

namespace Hint

/-- Whether a hint has no trigger or one that satisfies a condition. -/
def FiresOn (hint : Hint) (condition : TypeName → Prop) : Prop :=
  ∀ trigger, hint.trigger = some trigger → condition trigger

open Classical in
/-- Hints of a list that fire on a condition, in order. -/
noncomputable def firing (candidates : List Hint) (condition : TypeName → Prop) : List Hint :=
  candidates.filter fun hint => decide (hint.FiresOn condition)

/-- Add the requirements of every hint of a list, in order. -/
def applyAll (hints : List Hint) (system : TypeSystem) (registry : Reachability) : Reachability :=
  hints.foldl (fun registry hint => hint.apply system registry) registry

theorem mem_firing {candidates : List Hint} {condition : TypeName → Prop} {hint : Hint} :
    hint ∈ firing candidates condition ↔ hint ∈ candidates ∧ hint.FiresOn condition := by
  simp [firing]

theorem isTriggeredBy_iff {hint : Hint} {present : SortedSet TypeName} :
    hint.isTriggeredBy present ↔ hint.FiresOn (· ∈ present) := by
  unfold isTriggeredBy FiresOn
  cases hint.trigger with
  | none => simp
  | some trigger => simp

theorem applyTriggered_eq {candidates : List Hint} {present : SortedSet TypeName}
    {condition : TypeName → Prop} (same : ∀ type, type ∈ present ↔ condition type)
    (system : TypeSystem) (registry : Reachability) :
    applyTriggered candidates present system registry =
      applyAll (firing candidates condition) system registry := by
  unfold applyTriggered applyAll firing
  congr 1
  refine List.filter_congr fun hint _ => ?_
  have fires : hint.isTriggeredBy present ↔ hint.FiresOn condition := by
    simp only [isTriggeredBy_iff, FiresOn, same]
  exact Bool.eq_iff_iff.mpr (by simp [fires])

/-- Leaving out some types as triggers keeps the list of firing hints exactly when no hint has one
of them as its trigger. -/
theorem firing_and_not_eq_iff {candidates : List Hint} {condition omitted : TypeName → Prop}
    (within : ∀ type, omitted type → condition type) :
    firing candidates (fun type => condition type ∧ ¬ omitted type) = firing candidates condition ↔
      ∀ hint ∈ candidates, ∀ trigger, hint.trigger = some trigger → ¬ omitted trigger := by
  have same : ∀ hint : Hint, (hint.FiresOn condition →
      hint.FiresOn (fun type => condition type ∧ ¬ omitted type)) ↔
        ∀ trigger, hint.trigger = some trigger → ¬ omitted trigger := by
    intro hint
    unfold FiresOn
    cases hint.trigger with
    | none => simp
    | some trigger =>
        simp only [Option.some.injEq, forall_eq']
        exact ⟨fun both out => (both (within trigger out)).2 out, fun kept holds => ⟨holds, kept⟩⟩
  simp only [← same]
  constructor
  · intro lists hint mem fires
    have listed : hint ∈ firing candidates condition := mem_firing.mpr ⟨mem, fires⟩
    exact (mem_firing.mp (lists ▸ listed)).2
  · intro agree
    refine List.filter_congr fun hint mem => ?_
    exact decide_eq_decide.mpr
      ⟨fun fires trigger named => (fires trigger named).1, agree hint mem⟩

end Hint

/-- The processor of hints applies, in order, the hints whose trigger the container shows and does
not overlook, which are all that are due unless some hint has an overlooked trigger. -/
theorem ContainerProcessor.process_hints_eq {container : Container}
    (merges : ∀ name ∈ container.names, ∃ definition, container.merged name = .ok definition)
    (candidates : List Hint) (registry : Reachability) :
    (hints candidates).process container registry =
        .ok (Hint.applyAll
          (Hint.firing candidates fun type => container.Shows type ∧ ¬ container.Overlooks type)
          container.types registry) ∧
      (Hint.firing candidates (fun type => container.Shows type ∧ ¬ container.Overlooks type) =
          Hint.firing candidates container.Shows ↔
        ∀ hint ∈ candidates, ∀ trigger, hint.trigger = some trigger →
          ¬ container.Overlooks trigger) := by
  obtain ⟨present, known⟩ := Container.exists_presentTypes merges
  refine ⟨?_, Hint.firing_and_not_eq_iff fun type overlooked => .inr overlooked.lineage⟩
  rw [process, known, Except.map,
    Hint.applyTriggered_eq fun type => Container.mem_presentTypes_iff known]

namespace Sample

/-- Class of a library. -/
def baseType : DeclaredType := classType "com.lib.Base" .publicAccess .publicAccess []

/-- Class that extends the one of the library. -/
def serviceType : DeclaredType :=
  { classType "com.app.Service" .publicAccess .publicAccess [] with
    superclass := some baseType.name }

/-- Catalog of one component, whose class stands beside the types of a library. -/
def serviceCatalog (library : TypeSystem) : Catalog :=
  { catalog [("service", definition "com.app.Service" .declared [] none)] with
    types := library.register serviceType }

/-- Hint that the class of the library triggers. -/
def baseHint : Hint := .ofTypes (some baseType.name) [.auto [⟨"com.lib.Support"⟩]]

theorem merged_service (library : TypeSystem) :
    (serviceCatalog library).toContainer.merged "service" =
      .ok (definition "com.app.Service" .declared [] none) := by
  change (serviceCatalog library).merged "service" = _
  exact Catalog.merged_eq_ok_iff.mpr
    ⟨definition "com.app.Service" .declared [] none, [], .root rfl rfl, rfl⟩

theorem merges_service (library : TypeSystem) :
    ∀ name ∈ (serviceCatalog library).toContainer.names, ∃ definition,
      (serviceCatalog library).toContainer.merged name = .ok definition := by
  intro name mem
  obtain rfl : name = "service" := List.mem_singleton.mp mem
  exact ⟨_, merged_service library⟩

theorem shows_baseType (library : TypeSystem) :
    (serviceCatalog library).toContainer.Shows baseType.name := by
  have extended : (serviceCatalog library).toContainer.types.Extends serviceType.name
      baseType.name :=
    ⟨serviceType, by simp [serviceCatalog, Catalog.toContainer, TypeSystem.get?_register], rfl⟩
  exact .inr ⟨serviceType.name, ⟨"service", List.mem_singleton_self _, _, merged_service library,
    .inl rfl⟩, .single extended⟩

theorem firing_baseHint (library : TypeSystem) :
    Hint.firing [baseHint] (serviceCatalog library).toContainer.Shows = [baseHint] := by
  have fires : baseHint.FiresOn (serviceCatalog library).toContainer.Shows :=
    fun trigger named => Option.some.inj named ▸ shows_baseType library
  simp [Hint.firing, fires]

end Sample

theorem ContainerProcessor.process_hints_sample :
    (hints [Sample.baseHint]).process
        (Sample.serviceCatalog (.ofList [Sample.baseType])).toContainer .empty =
      .ok (Hint.applyAll [Sample.baseHint]
        (Sample.serviceCatalog (.ofList [Sample.baseType])).types .empty) := by
  obtain ⟨result, all⟩ :=
    process_hints_eq (Sample.merges_service (.ofList [Sample.baseType])) [Sample.baseHint] .empty
  have registered : ∀ hint ∈ [Sample.baseHint], ∀ trigger, hint.trigger = some trigger →
      ¬ (Sample.serviceCatalog (.ofList [Sample.baseType])).toContainer.Overlooks trigger := by
    rintro hint mem trigger named overlooked
    obtain rfl : hint = Sample.baseHint := List.mem_singleton.mp mem
    cases named
    exact absurd overlooked.unregistered (by decide +kernel)
  rw [result, all.mpr registered, Sample.firing_baseHint]
  rfl

/-- A hint that a superclass without declaration triggers is due and not applied. -/
theorem ContainerProcessor.not_forall_process_hints :
    ¬ ∀ (container : Container) (candidates : List Hint) (registry : Reachability),
      (∀ name ∈ container.names, ∃ definition, container.merged name = .ok definition) →
        (hints candidates).process container registry =
          .ok (Hint.applyAll (Hint.firing candidates container.Shows) container.types
            registry) := by
  intro applies
  have applied := applies _ [Sample.baseHint] .empty (Sample.merges_service .empty)
  rw [Sample.firing_baseHint] at applied
  exact absurd applied (by decide +kernel)

end Wiring
