import Wiring.Catalog
import Wiring.Proofs.CatalogOrder
import Wiring.Proofs.CleanNames
import Wiring.Registration.Code

/-!
# Clean containers

A container is clean if the names of types, executables and properties in it are clean; component
names, values, profiles, scopes and lifecycle methods may be any texts.  Everything that a clean
component resolves is clean.
-/

namespace Wiring

/-- Whether an executable has a clean type, clean parameters and a clean name. -/
structure Executable.IsClean (executable : Executable) : Prop where
  /-- The declaring type is clean. -/
  declaringType : executable.declaringType.IsClean
  /-- The parameter types are clean. -/
  parameters : ∀ parameter ∈ executable.parameters, parameter.IsClean
  /-- The name of a method is clean. -/
  name : ∀ method ∈ executable.kind.methodName?.toList, IsCleanText method

/-- Whether the names that a definition brings are clean. -/
structure Definition.IsClean (definition : Definition) : Prop where
  /-- The declared type is clean. -/
  beanClass : ∀ type ∈ definition.beanClass.toList, type.IsClean
  /-- The declared creator is clean. -/
  instanceSource : ∀ source ∈ definition.instanceSource.toList, source.executable.IsClean
  /-- The names of properties are clean. -/
  properties : ∀ property ∈ definition.properties, IsCleanText property.name

/-- Whether the types that a declaration names are clean. -/
structure DeclaredType.IsClean (type : DeclaredType) : Prop where
  /-- The name is clean. -/
  name : type.name.IsClean
  /-- Parameter types of constructors are clean. -/
  constructors : ∀ declared ∈ type.constructors, ∀ parameter ∈ declared.parameters,
    parameter.IsClean
  /-- Parameter types of methods are clean. -/
  methods : ∀ declared ∈ type.methods, ∀ parameter ∈ declared.parameters, parameter.IsClean
  /-- Result types of methods are clean. -/
  results : ∀ declared ∈ type.methods, declared.returnType.IsClean

/-- Whether the types that an event listener names are clean. -/
structure EventListener.IsClean (listener : EventListener) : Prop where
  /-- The type of the component is clean. -/
  componentType : listener.componentType.IsClean
  /-- The parameter types are clean. -/
  parameters : ∀ parameter ∈ listener.method.parameters, parameter.IsClean

/-- Whether the names of types, executables and properties in a container are clean. -/
structure Container.IsClean (container : Container) : Prop where
  /-- Merged definitions are clean. -/
  definitions : ∀ name definition, container.merged name = .ok definition → definition.IsClean
  /-- Registered types are clean. -/
  types : ∀ name type, container.types.get? name = some type → type.IsClean
  /-- Event listeners are clean. -/
  eventListeners : ∀ listener ∈ container.metadata.eventListeners, listener.IsClean

instance (executable : Executable) : Decidable executable.IsClean :=
  decidable_of_iff
    (executable.declaringType.IsClean ∧ (∀ parameter ∈ executable.parameters, parameter.IsClean) ∧
      ∀ method ∈ executable.kind.methodName?.toList, IsCleanText method)
    ⟨fun ⟨type, parameters, name⟩ => ⟨type, parameters, name⟩,
      fun ⟨type, parameters, name⟩ => ⟨type, parameters, name⟩⟩

instance (definition : Definition) : Decidable definition.IsClean :=
  decidable_of_iff
    ((∀ type ∈ definition.beanClass.toList, type.IsClean) ∧
      (∀ source ∈ definition.instanceSource.toList, source.executable.IsClean) ∧
      ∀ property ∈ definition.properties, IsCleanText property.name)
    ⟨fun ⟨type, source, properties⟩ => ⟨type, source, properties⟩,
      fun ⟨type, source, properties⟩ => ⟨type, source, properties⟩⟩

instance (type : DeclaredType) : Decidable type.IsClean :=
  decidable_of_iff
    (type.name.IsClean ∧
      (∀ declared ∈ type.constructors, ∀ parameter ∈ declared.parameters, parameter.IsClean) ∧
      (∀ declared ∈ type.methods, ∀ parameter ∈ declared.parameters, parameter.IsClean) ∧
      ∀ declared ∈ type.methods, declared.returnType.IsClean)
    ⟨fun ⟨name, constructors, methods, results⟩ => ⟨name, constructors, methods, results⟩,
      fun ⟨name, constructors, methods, results⟩ => ⟨name, constructors, methods, results⟩⟩

instance (listener : EventListener) : Decidable listener.IsClean :=
  decidable_of_iff
    (listener.componentType.IsClean ∧ ∀ parameter ∈ listener.method.parameters, parameter.IsClean)
    ⟨fun ⟨type, parameters⟩ => ⟨type, parameters⟩, fun ⟨type, parameters⟩ => ⟨type, parameters⟩⟩

theorem TypeName.isClean_object : object.IsClean := by decide

namespace TypeSystem

variable {system : TypeSystem}

/-- Types reached along the hierarchy are registered. -/
theorem exists_get?_of_mem_reachable {queue : List TypeName} {type : DeclaredType}
    (mem : type ∈ system.reachable queue) : ∃ name, system.get? name = some type := by
  induction system, queue using reachable.induct with
  | case1 system queue absent =>
      rw [reachable] at mem
      split at mem
      next => cases mem
      next first => rw [absent] at first; cases first
  | case2 system queue first rest found ih =>
      rw [reachable] at mem
      split at mem
      next => cases mem
      next first' rest' found' =>
        obtain ⟨rfl, rfl⟩ := Prod.mk.inj (Option.some.inj (found.symm.trans found'))
        rcases List.mem_cons.mp mem with rfl | mem
        · exact ⟨_, get?_of_firstRegistered? found⟩
        · obtain ⟨name, stored⟩ := ih mem
          rw [get?_erase] at stored
          split at stored
          · cases stored
          · exact ⟨name, stored⟩

/-- A setter is clean if its property and the registered types are. -/
theorem isClean_findSetter (clean : ∀ name type, system.get? name = some type → type.IsClean)
    {name : TypeName} {property : String} (named : IsCleanText property) {setter : Executable}
    (found : system.findSetter name property = some setter) : setter.IsClean := by
  obtain ⟨type, mem, declared_here⟩ := List.exists_of_findSome?_eq_some found
  obtain ⟨declared, listed, rfl⟩ := Option.map_eq_some_iff.mp declared_here
  obtain ⟨other, stored⟩ := exists_get?_of_mem_reachable mem
  have type_clean := clean other type stored
  exact ⟨type_clean.name, type_clean.methods declared (List.mem_of_find?_eq_some listed), by
    intro method method_mem
    obtain rfl := List.mem_singleton.mp method_mem
    exact named.setterName⟩

theorem isClean_methodInfo (clean : ∀ name type, system.get? name = some type → type.IsClean)
    {executable : Executable} {declared : DeclaredMethod}
    (found : system.methodInfo executable = some declared) : declared.returnType.IsClean := by
  unfold methodInfo at found
  split at found
  · cases found
  · obtain ⟨type, stored, listed⟩ := Option.bind_eq_some_iff.mp found
    exact (clean _ type stored).results declared (List.mem_of_find?_eq_some listed)

theorem isClean_constructors (clean : ∀ name type, system.get? name = some type → type.IsClean)
    {name : TypeName} {declared : DeclaredConstructor}
    (mem : declared ∈ system.constructors name) :
    ∀ parameter ∈ declared.parameters, parameter.IsClean := by
  unfold constructors at mem
  split at mem
  next =>
    obtain rfl := List.mem_singleton.mp mem
    exact nofun
  next type stored =>
    split at mem
    · split at mem
      · obtain rfl := List.mem_singleton.mp mem
        exact nofun
      · cases mem
    · exact (clean name type stored).constructors declared mem

end TypeSystem
namespace Definition

/-- A definition that inherits from a clean one stays clean. -/
theorem IsClean.mergedWith {child parent : Definition} (clean : child.IsClean)
    (clean' : parent.IsClean) : (child.mergedWith parent).IsClean where
  beanClass type mem := by
    cases declared : child.beanClass with
    | none => exact clean'.beanClass type (by simpa [Definition.mergedWith, declared] using mem)
    | some own =>
        exact clean.beanClass type (by simpa [Definition.mergedWith, declared] using mem)
  instanceSource source mem := by
    cases declared : child.instanceSource with
    | none =>
        exact clean'.instanceSource source (by simpa [Definition.mergedWith, declared] using mem)
    | some own =>
        exact clean.instanceSource source (by simpa [Definition.mergedWith, declared] using mem)
  properties property mem := by
    rcases List.mem_append.mp mem with mem | mem
    · exact clean'.properties property (List.mem_filter.mp mem).1
    · exact clean.properties property mem

theorem IsClean.mergeChain {definition : Definition} {ancestors : List Definition}
    (clean : definition.IsClean) (clean' : ∀ ancestor ∈ ancestors, ancestor.IsClean) :
    (definition.mergeChain ancestors).IsClean := by
  induction ancestors generalizing definition with
  | nil => exact ⟨clean.beanClass, clean.instanceSource, clean.properties⟩
  | cons parent ancestors ih =>
      exact clean.mergedWith
        (ih (clean' parent (by simp)) fun other mem => clean' other (by simp [mem]))

end Definition

/-- Whether the names of types, executables and properties in a catalog are clean. -/
structure Catalog.IsClean (catalog : Catalog) : Prop where
  /-- Registered definitions are clean. -/
  definitions : ∀ entry ∈ catalog.definitions.entries, entry.2.IsClean
  /-- Registered types are clean. -/
  types : ∀ entry ∈ catalog.types.types.entries, entry.2.IsClean
  /-- Event listeners are clean. -/
  eventListeners : ∀ listener ∈ catalog.metadata.eventListeners, listener.IsClean

namespace Catalog

theorem isClean_of_mem_ancestors {catalog : Catalog} {requested : String}
    {unvisited : ArrivalMap String Definition} {definition : Definition}
    {ancestors : List Definition}
    (clean : ∀ name next, unvisited.get? name = some next → next.IsClean)
    (found : catalog.ancestors requested unvisited definition = .ok ancestors) :
    ∀ ancestor ∈ ancestors, ancestor.IsClean := by
  induction unvisited, definition using Catalog.ancestors.induct catalog
    generalizing ancestors with
  | case1 unvisited definition no_parent =>
      rw [ancestors_of_no_parent no_parent] at found
      cases found
      simp
  | case2 unvisited definition parent named next stored ih =>
      rw [ancestors_of_found named stored] at found
      obtain ⟨others, walked, rfl⟩ := Except.map_eq_ok.mp found
      intro ancestor mem
      rcases List.mem_cons.mp mem with rfl | mem
      · exact clean parent ancestor stored
      · refine ih (fun name next stored => ?_) walked ancestor mem
        rw [ArrivalMap.get?_erase] at stored
        split at stored
        · cases stored
        · exact clean name next stored
  | case3 unvisited definition parent named absent cyclic =>
      rw [ancestors_of_absent named absent, if_pos cyclic] at found
      cases found
  | case4 unvisited definition parent named absent missing =>
      rw [ancestors_of_absent named absent, if_neg missing] at found
      cases found

/-- A clean catalog is a clean container: what definitions inherit is clean as well. -/
theorem IsClean.toContainer {catalog : Catalog} (clean : catalog.IsClean) :
    catalog.toContainer.IsClean where
  definitions name definition merged := by
    have registered : ∀ name definition, catalog.definitions.get? name = some definition →
        definition.IsClean := fun name definition stored =>
      clean.definitions (name, definition) (ArrivalMap.get?_eq_some_iff.mp stored)
    simp only [Catalog.toContainer, Catalog.merged] at merged
    split at merged
    next => cases merged
    next own stored =>
      obtain ⟨ancestors, walked, rfl⟩ := Except.map_eq_ok.mp merged
      refine (registered name own stored).mergeChain
        (isClean_of_mem_ancestors (fun other next stored => ?_) walked)
      rw [ArrivalMap.get?_erase] at stored
      split at stored
      · cases stored
      · exact registered other next stored
  types name type stored :=
    clean.types (name, type) (SortedMap.mem_entries_iff.mpr stored)
  eventListeners := clean.eventListeners

end Catalog

namespace Container

variable {container : Container}

theorem IsClean.producedType (clean : container.IsClean) {definition : Definition}
    (clean' : definition.IsClean) {type : TypeName}
    (produced : container.producedType definition = some type) : type.IsClean := by
  have declared : definition.beanClass = some type → type.IsClean :=
    fun same => clean'.beanClass type (by simp [same])
  have resulting : ∀ method,
      (((container.types.methodInfo method).map (·.returnType)) <|> definition.beanClass) =
        some type → type.IsClean := by
    intro method found
    cases known : container.types.methodInfo method with
    | none => exact declared (by simpa [known] using found)
    | some declared =>
        have returned : declared.returnType = type := by simpa [known] using found
        rw [← returned]
        exact TypeSystem.isClean_methodInfo clean.types known
  unfold Container.producedType at produced
  split at produced
  · exact resulting _ produced
  · exact resulting _ produced
  · exact declared produced

theorem IsClean.producedTypeOf? (clean : container.IsClean) {name : String} {type : TypeName}
    (produced : container.producedTypeOf? name = some type) : type.IsClean := by
  obtain ⟨definition, merged, found⟩ := Option.bind_eq_some_iff.mp produced
  cases result : container.merged name with
  | error cause => simp [result, Except.toOption] at merged
  | ok own =>
      obtain rfl : own = definition := by simpa [result, Except.toOption] using merged
      exact clean.producedType (clean.definitions name own result) found

end Container

/-- Whether a component is clean: its container is, and its definition too. -/
structure Component.IsClean (component : Component) : Prop where
  /-- The container is clean. -/
  container : component.container.IsClean
  /-- The definition is clean. -/
  definition : component.definition.IsClean

namespace Component

variable {component : Component}

theorem isClean_valueType {container : Container} (clean : container.IsClean) (value : Value) :
    (valueType container value).IsClean := by
  cases value with
  | literal text =>
      have string_clean : TypeName.string.IsClean := by decide
      exact string_clean
  | reference name =>
      unfold valueType
      dsimp only
      cases produced : container.producedTypeOf? name with
      | none => exact TypeName.isClean_object
      | some type => exact clean.producedTypeOf? produced

theorem isClean_inferredParameters {container : Container} (clean : container.IsClean)
    {position : Nat} {arguments : List (Nat × Value)} {parameters : List TypeName}
    (inferred : inferredParameters container position arguments = some parameters) :
    ∀ parameter ∈ parameters, parameter.IsClean := by
  induction arguments generalizing position parameters with
  | nil =>
      cases inferred
      exact nofun
  | cons argument arguments ih =>
      obtain ⟨index, value⟩ := argument
      simp only [inferredParameters] at inferred
      split at inferred
      · obtain ⟨others, inferred_others, rfl⟩ := Option.map_eq_some_iff.mp inferred
        intro parameter mem
        rcases List.mem_cons.mp mem with rfl | mem
        · exact isClean_valueType clean value
        · exact ih inferred_others parameter mem
      · cases inferred

theorem mem_of_sole? {α : Type} {items : List α} {item : α} (sole : sole? items = some item) :
    item ∈ items := by
  unfold sole? at sole
  split at sole
  · cases sole
    simp
  · cases sole

theorem mem_of_chosenConstructor? {constructors : List DeclaredConstructor} {count : Nat}
    {chosen : DeclaredConstructor} (found : chosenConstructor? constructors count = some chosen) :
    chosen ∈ constructors := by
  simp only [chosenConstructor?, Option.orElse_eq_orElse, Option.orElse_eq_or,
    Option.or_eq_some_iff] at found
  rcases found with found | ⟨-, found | ⟨-, found | ⟨-, found⟩⟩⟩
  · exact (List.mem_filter.mp (mem_of_sole? found)).1
  · exact mem_of_sole? found
  · split at found
    · cases found
    · exact (List.mem_filter.mp (mem_of_sole? found)).1
  · exact List.mem_of_find?_eq_some found

theorem IsClean.beanType (clean : component.IsClean) : component.beanType.IsClean := by
  unfold Component.beanType
  cases declared : component.definition.beanClass with
  | none => exact TypeName.isClean_object
  | some type => exact clean.definition.beanClass type (by simp [declared])

theorem IsClean.producedType (clean : component.IsClean) : component.producedType.IsClean := by
  unfold Component.producedType
  cases produced : component.container.producedType component.definition with
  | none => exact clean.beanType
  | some type => exact clean.container.producedType clean.definition produced

/-- The creator of a clean component is clean. -/
theorem IsClean.creator? (clean : component.IsClean) {creator : Executable}
    (resolved : component.creator? = some creator) : creator.IsClean := by
  have constructor : ∀ parameters : List TypeName, (∀ parameter ∈ parameters, parameter.IsClean) →
      (Executable.ofConstructor component.beanType parameters).IsClean :=
    fun parameters clean_parameters => ⟨clean.beanType, clean_parameters, nofun⟩
  unfold Component.creator? at resolved
  split at resolved
  next source declared =>
    obtain rfl := Option.some.inj resolved
    exact clean.definition.instanceSource source (by simp [declared])
  next undeclared =>
    dsimp only at resolved
    obtain ⟨parameters, found, rfl⟩ := Option.map_eq_some_iff.mp resolved
    refine constructor parameters ?_
    split at found
    · exact isClean_inferredParameters clean.container found
    · obtain ⟨declared, chosen, rfl⟩ := Option.map_eq_some_iff.mp found
      exact TypeSystem.isClean_constructors clean.container.types
        (mem_of_chosenConstructor? chosen)

/-- The setters of a clean component are clean. -/
theorem IsClean.setter? (clean : component.IsClean) {property : PropertyValue}
    (mem : property ∈ component.definition.properties) {setter : Executable}
    (resolved : component.setter? property = some setter) : setter.IsClean := by
  have named := clean.definition.properties property mem
  unfold Component.setter? at resolved
  dsimp only at resolved
  split at resolved
  · exact TypeSystem.isClean_findSetter clean.container.types named resolved
  · obtain rfl := Option.some.inj resolved
    refine ⟨clean.producedType, ?_, ?_⟩
    · intro parameter mem
      obtain rfl := List.mem_singleton.mp mem
      exact isClean_valueType clean.container property.value
    · intro method mem
      obtain rfl := List.mem_singleton.mp mem
      exact named.setterName

theorem IsClean.injection (clean : component.IsClean) {injection : Injection}
    (mem : injection ∈ component.injections) : injection.setter.IsClean := by
  obtain ⟨property, listed, found⟩ := List.mem_filterMap.mp mem
  obtain ⟨setter, resolved, rfl⟩ := Option.map_eq_some_iff.mp found
  exact clean.setter? listed resolved

/-- The package that holds a clean component is clean. -/
theorem IsClean.targetPackage (clean : component.IsClean) {main : String}
    (clean_main : IsCleanText main) : IsCleanText (component.targetPackage main) := by
  unfold Component.targetPackage
  cases hidden : [component.beanType, component.producedType].find? fun type =>
      !(component.types.visibility type).isPublic with
  | none => exact clean_main
  | some type =>
      have mem := List.mem_of_find?_eq_some hidden
      simp only [List.mem_cons, List.not_mem_nil, or_false] at mem
      rcases mem with rfl | rfl
      · exact clean.beanType.package
      · exact clean.producedType.package

end Component
end Wiring
