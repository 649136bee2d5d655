import Wiring.Proofs.HonouredValues
import Wiring.Proofs.ParentLinks

/-!
# Inherited fields

Definitions inherit field by field: an open field takes the value of the nearest ancestor that sets
it.  The class and the constructor of a merged definition may therefore come from two definitions.
Even where every raw definition declares the class that its constructor makes, a definition nearer
than the constructor may register its instances under another class, and this is the only way for
the two to differ.
-/

namespace Wiring

namespace Definition

variable {α : Type} {field : Definition → Option α}

/-- Whether a field is left alone by detaching, and taken from the parent if it is open. -/
structure Inherits (field : Definition → Option α) : Prop where
  /-- Detaching keeps the field. -/
  detached : ∀ definition, field (detached definition) = field definition
  /-- Merging takes the value of the child, and that of the parent if the child leaves it open. -/
  mergedWith : ∀ child parent, field (mergedWith child parent) = (field child).or (field parent)

theorem inherits_beanClass : Inherits beanClass :=
  ⟨fun _ => rfl, fun _ _ => Option.orElse_eq_or⟩

theorem inherits_instanceSource : Inherits instanceSource :=
  ⟨fun _ => rfl, fun _ _ => Option.orElse_eq_or⟩

/-- An inherited field is that of the nearest definition that sets it. -/
theorem Inherits.mergeChain (inherits : Inherits field) (definition : Definition)
    (ancestors : List Definition) :
    field (definition.mergeChain ancestors) = (definition :: ancestors).findSome? field := by
  induction ancestors generalizing definition with
  | nil =>
      rw [Definition.mergeChain, inherits.detached]
      cases set : field definition <;> simp [set]
  | cons next ancestors ih =>
      rw [Definition.mergeChain, inherits.mergedWith, ih]
      cases set : field definition <;> simp [set]

end Definition

/-- Text of the call of a constructor in code of a package, with the texts of its arguments. -/
def Component.constructionText (component : Component) (typeText : TypeName → String)
    (package : String) (constructor : Executable) (arguments : List String) : String :=
  if component.types.isAccessible constructor package then
    "new " ++ typeText constructor.declaringType ++ "(" ++ ", ".intercalate arguments ++ ")"
  else
    typeText Framework.beanUtils ++ ".instantiateClass(" ++ typeText Framework.reflectionUtils ++
      ".accessibleConstructor(" ++ typeText constructor.declaringType ++ ".class" ++
      Component.parameterClasses typeText constructor ++ ")" ++
      String.join (arguments.map fun argument => ", " ++ argument) ++ ")"

/-- Whether a block of a package registers a component under a type and has a constructor make its
instances. -/
def Component.Constructs (component : Component) (package : String) (registered : TypeName)
    (constructor : Executable) (block : Block) : Prop :=
  ∃ arguments : List Fragment,
    block.Supplies component.name registered fun typeText =>
      component.constructionText typeText package constructor (arguments.map (·.render typeText))

namespace Component

variable {component : Component} {constructor : Executable} {registered : TypeName}

theorem creationText_of_constructor
    (source : component.definition.instanceSource = some (.constructor constructor))
    (typeText : TypeName → String) (package : String) (arguments : List String) :
    creationText typeText component package constructor arguments =
      component.constructionText typeText package constructor arguments := by
  rw [creationText, constructionText, source]
  rfl

theorem creator?_of_constructor
    (source : component.definition.instanceSource = some (.constructor constructor)) :
    component.creator? = some constructor := by
  rw [creator?, source]
  rfl

theorem producedType_of_constructor
    (source : component.definition.instanceSource = some (.constructor constructor))
    (declared : component.definition.beanClass = some registered) :
    component.producedType = registered := by
  rw [producedType, Container.producedType, source, declared]
  rfl

/-- A component with a constructor is registered under its class, whatever the constructor makes. -/
theorem exists_constructs_of_write {draft : Draft}
    (source : component.definition.instanceSource = some (.constructor constructor))
    (declared : component.definition.beanClass = some registered)
    (succeeds : (component.write draft).problem? = none) :
    ∃ block,
      draft.Hosts (component.write draft).draft block (component.targetPackage draft.package) ∧
      component.Constructs (component.targetPackage draft.package) registered constructor
        block := by
  obtain ⟨creator, resolved, no_problem, block, coded⟩ := problem?_write_eq_none_iff.mp succeeds
  obtain rfl : creator = constructor :=
    Option.some.inj (resolved.symm.trans (creator?_of_constructor source))
  refine ⟨block, hosts_of_registration draft resolved no_problem coded, ?_⟩
  obtain ⟨arguments, setters, -, -, rfl⟩ := registration_eq_ok_iff.mp coded
  have reads : (component.creation (component.targetPackage draft.package) creator
      arguments).Reads fun typeText =>
        component.constructionText typeText (component.targetPackage draft.package) creator
          (arguments.map (·.render typeText)) := by
    intro typeText
    rw [render_creation, creationText_of_constructor source]
  refine ⟨arguments, ?_⟩
  rw [← producedType_of_constructor source declared]
  exact component.supplies_registrationCall reads setters

end Component

namespace Catalog

variable {catalog : Catalog} {name : String} {merged : Definition} {constructor : Executable}

/-- Whether every raw definition with a constructor declares the class that it makes. -/
def DeclaresConstructed (catalog : Catalog) : Prop :=
  ∀ name definition constructor, catalog.raw? name = some definition →
    definition.instanceSource = some (.constructor constructor) →
      definition.beanClass = some constructor.declaringType

theorem Lineage.registered {definition : Definition} {ancestors : List Definition}
    (lineage : catalog.Lineage name definition ancestors) :
    ∀ member ∈ definition :: ancestors, ∃ other, catalog.raw? other = some member := by
  induction lineage with
  | root found _ => exact List.forall_mem_singleton.mpr ⟨_, found⟩
  | child found _ _ ih => exact List.forall_mem_cons.mpr ⟨⟨_, found⟩, ih⟩

/-- Component of a name with its merged definition. -/
def component (catalog : Catalog) (name : String) (merged : Definition) : Component :=
  ⟨catalog.toContainer, name, merged⟩

/-- How a merged definition with a constructor comes by its class, with the definitions that are
nearer than the one that brings the constructor. -/
structure Divides (catalog : Catalog) (name : String) (merged : Definition)
    (constructor : Executable) (nearer : List Definition) : Prop where
  /-- The definitions begin the chain of the name, up to the one that brings the constructor. -/
  lineage : ∃ definition ancestors bringing farther, catalog.Lineage name definition ancestors ∧
    definition :: ancestors = nearer ++ bringing :: farther ∧
    bringing.instanceSource = some (.constructor constructor)
  /-- None of them says how instances are made. -/
  openSource : ∀ definition ∈ nearer, definition.instanceSource = none
  /-- The class is the nearest one that they declare, and otherwise the one constructed. -/
  beanClass : merged.beanClass =
    some ((nearer.findSome? Definition.beanClass).getD constructor.declaringType)
  /-- The class is the one constructed unless they declare another one first. -/
  beanClass_iff : merged.beanClass = some constructor.declaringType ↔
    ∀ type, nearer.findSome? Definition.beanClass = some type → type = constructor.declaringType
  /-- The class of a package then holds code that registers the component under this class and has
  the constructor make its instances. -/
  written : ∀ draft, ((catalog.component name merged).write draft).problem? = none →
    let package := (catalog.component name merged).targetPackage draft.package
    ∃ block, draft.Hosts ((catalog.component name merged).write draft).draft block package ∧
      (catalog.component name merged).Constructs package
        ((nearer.findSome? Definition.beanClass).getD constructor.declaringType) constructor block

/-- The class of a merged definition is the one that its constructor makes, unless a definition
nearer than the constructor declares another one. -/
theorem exists_divides_of_merged (declares : catalog.DeclaresConstructed)
    (result : catalog.merged name = .ok merged)
    (source : merged.instanceSource = some (.constructor constructor)) :
    ∃ nearer, catalog.Divides name merged constructor nearer := by
  obtain ⟨definition, ancestors, lineage, rfl⟩ := merged_eq_ok_iff.mp result
  have brought := source
  rw [Definition.inherits_instanceSource.mergeChain, List.findSome?_eq_some_iff] at brought
  obtain ⟨nearer, bringing, farther, chain, brings, openSource⟩ := brought
  obtain ⟨other, registered⟩ := lineage.registered bringing (by simp [chain])
  have constructed := declares other bringing constructor registered brings
  have beanClass : (definition.mergeChain ancestors).beanClass =
      some ((nearer.findSome? Definition.beanClass).getD constructor.declaringType) := by
    rw [Definition.inherits_beanClass.mergeChain, chain, List.findSome?_append,
      List.findSome?_cons, constructed]
    cases nearer.findSome? Definition.beanClass <;> rfl
  refine ⟨nearer, ⟨definition, ancestors, bringing, farther, lineage, chain, brings⟩, openSource,
    beanClass, ?_, fun draft succeeds => ?_⟩
  · rw [beanClass, Option.some.injEq]
    cases nearer.findSome? Definition.beanClass with
    | none => simp
    | some type => simp
  · exact Component.exists_constructs_of_write source beanClass succeeds

end Catalog

namespace Sample

/-- Definition with a constructor of the given class. -/
def constructed (name constructor : String) : Definition :=
  { definition name .declared [] none with
    instanceSource := some (.constructor (.ofConstructor ⟨constructor⟩ [])) }

/-- Catalog in which one definition inherits a constructor under a class of its own. -/
def renamed : Catalog where
  definitions := .ofList
    [("base", constructed "com.app.Base" "com.app.Base"), ("heir", heir "base")]
  metadata := ⟨[], [], [], []⟩
  types := .empty

theorem declaresConstructed_renamed : renamed.DeclaresConstructed := by
  intro name definition constructor found source
  have entries : renamed.definitions.entries =
      [("base", constructed "com.app.Base" "com.app.Base"), ("heir", heir "base")] := rfl
  have listed := ArrivalMap.get?_eq_some_iff.mp found
  rw [entries] at listed
  rcases List.mem_pair.mp listed with same | same
  · cases same
    cases source
    rfl
  · cases same
    cases source

theorem merged_heir : renamed.merged "heir" = .ok (constructed "com.app.Heir" "com.app.Base") :=
  Catalog.merged_eq_ok_iff.mpr ⟨_, _, .child rfl rfl (.root rfl rfl), rfl⟩

end Sample

theorem Catalog.exists_divides_heir :
    ∃ nearer, Sample.renamed.Divides "heir" (Sample.constructed "com.app.Heir" "com.app.Base")
      (.ofConstructor ⟨"com.app.Base"⟩ []) nearer :=
  Catalog.exists_divides_of_merged Sample.declaresConstructed_renamed Sample.merged_heir rfl

/-- The class that is registered need not be the one that is constructed. -/
theorem Catalog.not_forall_beanClass_eq :
    ¬ ∀ (catalog : Catalog) (name : String) (merged : Definition) (constructor : Executable),
      catalog.DeclaresConstructed → catalog.merged name = .ok merged →
        merged.instanceSource = some (.constructor constructor) →
          merged.beanClass = some constructor.declaringType := by
  intro agrees
  have same := agrees _ _ _ _ Sample.declaresConstructed_renamed Sample.merged_heir rfl
  revert same
  decide

end Wiring
