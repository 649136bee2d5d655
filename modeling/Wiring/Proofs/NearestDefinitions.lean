import Wiring.Proofs.Inheritance

/-!
# Values of the nearest definition

A merged definition is read off its parent chain level by level.  Fields and arguments are those of
the nearest definition that sets them, and so are all the entries of one property name; entries of
different levels keep apart, the farthest level first.
-/

namespace Wiring
namespace Definition

variable {chain : List Definition} {level : Nat} {name : String}

/-! ### Fields and arguments -/

theorem inherits_scope : Inherits scope := ⟨fun _ => rfl, fun _ _ => Option.orElse_eq_or⟩

theorem inherits_initMethod : Inherits initMethod :=
  ⟨fun _ => rfl, fun _ _ => Option.orElse_eq_or⟩

theorem inherits_destroyMethod : Inherits destroyMethod :=
  ⟨fun _ => rfl, fun _ _ => Option.orElse_eq_or⟩

theorem inherits_argument (position : Nat) : Inherits (·.arguments.get? position) := by
  refine ⟨fun _ => rfl, fun child parent => ?_⟩
  simp only [mergedWith, SortedMap.overrideWith, SortedMap.get?_mergeWith]
  cases child.arguments.get? position <;> cases parent.arguments.get? position <;> rfl

theorem lazyInit_mergeChain (definition : Definition) (ancestors : List Definition) :
    (definition.mergeChain ancestors).lazyInit = (definition :: ancestors).any lazyInit := by
  induction ancestors generalizing definition with
  | nil => simp [mergeChain, detached]
  | cons next ancestors ih => rw [mergeChain, List.any_cons, ← ih, mergedWith]

/-! ### Properties -/

/-- Position in a chain of the nearest definition that has an entry of a property name. -/
def levelOf (chain : List Definition) (name : String) : Nat :=
  chain.findIdx (·.hasProperty name)

/-- Entries of one definition of a chain that no nearer definition replaces. -/
def keptEntries (chain : List Definition) (level : Nat) (definition : Definition) :
    List PropertyValue :=
  definition.properties.filter fun property => levelOf chain property.name == level

/-- Entries that each definition of a chain keeps, the farthest definition first. -/
def layeredEntries (chain : List Definition) : List PropertyValue :=
  chain.zipIdx.reverse.flatMap fun entry => keptEntries chain entry.2 entry.1

/-- Entries of one property name in the nearest definition that has any. -/
def nearestEntries (chain : List Definition) (name : String) : List PropertyValue :=
  (chain.find? (·.hasProperty name)).elim [] fun definition =>
    definition.properties.filter (·.name == name)

theorem hasProperty_of_mem {definition : Definition} {property : PropertyValue}
    (mem : property ∈ definition.properties) : definition.hasProperty property.name = true :=
  List.any_eq_true.mpr ⟨property, mem, beq_self_eq_true _⟩

theorem filter_properties_of_not_hasProperty {definition : Definition}
    (absent : definition.hasProperty name = false) :
    definition.properties.filter (·.name == name) = [] :=
  List.filter_eq_nil_iff.mpr fun property mem => List.any_eq_false.mp absent property mem

theorem levelOf_cons (definition : Definition) (chain : List Definition) (name : String) :
    levelOf (definition :: chain) name =
      if definition.hasProperty name then 0 else levelOf chain name + 1 := by
  rw [levelOf, List.findIdx_cons]
  cases definition.hasProperty name <;> rfl

theorem nearestEntries_cons (definition : Definition) (chain : List Definition) (name : String) :
    nearestEntries (definition :: chain) name =
      if definition.hasProperty name then definition.properties.filter (·.name == name)
      else nearestEntries chain name := by
  rw [nearestEntries, List.find?_cons]
  cases definition.hasProperty name <;> rfl

/-- The nearest definition keeps all of its entries. -/
theorem keptEntries_zero (definition : Definition) (chain : List Definition) :
    keptEntries (definition :: chain) 0 definition = definition.properties := by
  refine List.filter_eq_self.mpr fun property mem => ?_
  rw [levelOf_cons, hasProperty_of_mem mem, if_pos rfl, beq_self_eq_true]

/-- A nearer definition replaces the entries whose names it has. -/
theorem keptEntries_succ (definition farther : Definition) :
    keptEntries (definition :: chain) (level + 1) farther =
      (keptEntries chain level farther).filter (!definition.hasProperty ·.name) := by
  rw [keptEntries, keptEntries, List.filter_filter]
  refine List.filter_congr fun property _ => ?_
  rw [levelOf_cons]
  cases definition.hasProperty property.name <;> simp

theorem layeredEntries_cons (definition : Definition) (chain : List Definition) :
    layeredEntries (definition :: chain) =
      (layeredEntries chain).filter (!definition.hasProperty ·.name) ++
        definition.properties := by
  rw [layeredEntries, List.zipIdx_cons, List.zipIdx_succ, List.reverse_cons, List.flatMap_append,
    List.flatMap_singleton, keptEntries_zero, ← List.map_reverse, List.flatMap_map,
    layeredEntries, List.filter_flatMap]
  simp only [keptEntries_succ]

theorem properties_mergeChain (definition : Definition) (ancestors : List Definition) :
    (definition.mergeChain ancestors).properties = layeredEntries (definition :: ancestors) := by
  induction ancestors generalizing definition with
  | nil => rw [layeredEntries_cons]; rfl
  | cons next ancestors ih => rw [layeredEntries_cons, ← ih]; rfl

/-- Merging takes the entries of a name from the child if it has any, and else from the parent. -/
theorem filter_properties_mergedWith (child parent : Definition) (name : String) :
    (child.mergedWith parent).properties.filter (·.name == name) =
      if child.hasProperty name then child.properties.filter (·.name == name)
      else parent.properties.filter (·.name == name) := by
  rw [mergedWith, List.filter_append, List.filter_filter]
  split
  next has =>
    have none_left : parent.properties.filter
        (fun property => property.name == name && !child.hasProperty property.name) = [] := by
      refine List.filter_eq_nil_iff.mpr fun property _ both => ?_
      obtain ⟨named, replaced⟩ := Bool.and_eq_true_iff.mp both
      rw [eq_of_beq named, has] at replaced
      cases replaced
    rw [none_left, List.nil_append]
  next has_not =>
    have absent := Bool.eq_false_iff.mpr has_not
    rw [filter_properties_of_not_hasProperty absent, List.append_nil]
    refine List.filter_congr fun property _ => ?_
    by_cases same : property.name = name
    · rw [same, absent, Bool.not_false, Bool.and_true]
    · rw [beq_false_of_ne same, Bool.false_and]

theorem filter_properties_mergeChain (definition : Definition) (ancestors : List Definition)
    (name : String) :
    (definition.mergeChain ancestors).properties.filter (·.name == name) =
      nearestEntries (definition :: ancestors) name := by
  induction ancestors generalizing definition with
  | nil =>
      rw [nearestEntries_cons]
      split
      next => rfl
      next has_not => exact filter_properties_of_not_hasProperty (Bool.eq_false_iff.mpr has_not)
  | cons next ancestors ih =>
      rw [nearestEntries_cons, mergeChain, filter_properties_mergedWith, ih]

/-- What a merged definition takes from the definitions of a parent chain, nearest first. -/
structure TakesNearest (merged nearest : Definition) (ancestors : List Definition) : Prop where
  /-- The class is the first one that is set. -/
  beanClass : merged.beanClass = (nearest :: ancestors).findSome? beanClass
  /-- The scope is the first one that is set. -/
  scope : merged.scope = (nearest :: ancestors).findSome? scope
  /-- The way to make instances is the first one that is set. -/
  instanceSource : merged.instanceSource = (nearest :: ancestors).findSome? instanceSource
  /-- The method to call after creation is the first one that is set. -/
  initMethod : merged.initMethod = (nearest :: ancestors).findSome? initMethod
  /-- The method to call before disposal is the first one that is set. -/
  destroyMethod : merged.destroyMethod = (nearest :: ancestors).findSome? destroyMethod
  /-- The argument of a position is the first one that is set. -/
  argument : ∀ position,
    merged.arguments.get? position = (nearest :: ancestors).findSome? (·.arguments.get? position)
  /-- The entries of a property name are those of the first definition that has any, in order. -/
  entries : ∀ name,
    merged.properties.filter (·.name == name) = nearestEntries (nearest :: ancestors) name
  /-- Each definition adds the entries that it keeps, the farthest definition first. -/
  properties : merged.properties = layeredEntries (nearest :: ancestors)
  /-- One definition that waits for first use is enough. -/
  lazyInit : merged.lazyInit = true ↔
    ∃ definition ∈ nearest :: ancestors, definition.lazyInit = true
  /-- The role is that of the nearest definition. -/
  role : merged.role = nearest.role
  /-- The preference is that of the nearest definition. -/
  primary : merged.primary = nearest.primary
  /-- The origin is that of the nearest definition. -/
  origin : merged.origin = nearest.origin

theorem takesNearest_mergeChain (definition : Definition) (ancestors : List Definition) :
    (definition.mergeChain ancestors).TakesNearest definition ancestors where
  beanClass := inherits_beanClass.mergeChain definition ancestors
  scope := inherits_scope.mergeChain definition ancestors
  instanceSource := inherits_instanceSource.mergeChain definition ancestors
  initMethod := inherits_initMethod.mergeChain definition ancestors
  destroyMethod := inherits_destroyMethod.mergeChain definition ancestors
  argument position := (inherits_argument position).mergeChain definition ancestors
  entries := filter_properties_mergeChain definition ancestors
  properties := properties_mergeChain definition ancestors
  lazyInit := by rw [lazyInit_mergeChain, List.any_eq_true]
  role := by cases ancestors <;> rfl
  primary := by cases ancestors <;> rfl
  origin := by cases ancestors <;> rfl

end Definition

namespace Catalog

/-- A merged definition takes every value from the nearest definition of its parent chain that sets
it, however long the chain is. -/
theorem exists_takesNearest_of_merged {catalog : Catalog} {name : String} {merged : Definition}
    (result : catalog.merged name = .ok merged) :
    ∃ nearest ancestors, catalog.Lineage name nearest ancestors ∧
      merged.TakesNearest nearest ancestors := by
  obtain ⟨definition, ancestors, lineage, rfl⟩ := merged_eq_ok_iff.mp result
  exact ⟨definition, ancestors, lineage, definition.takesNearest_mergeChain ancestors⟩

end Catalog

namespace Sample

/-- Definition of a class with explicit arguments and properties. -/
def layer (arguments : List (Nat × Value)) (properties : List (String × String))
    (parent : Option String) : Definition :=
  { definition "com.app.Pool" .declared
      (properties.map fun (name, text) => ⟨name, .literal text⟩) none with
    arguments := .ofList arguments, parent }

/-- Catalog with a chain of three definitions; the one in the middle has two entries of a name that
the root has too. -/
def layers : Catalog where
  definitions := .ofList
    [("leaf", layer [] [("name", "leaf")] (some "mid")),
      ("mid", layer [(1, .literal "mid")] [("size", "1"), ("size", "2")] (some "root")),
      ("root", { layer [(0, .reference "store"), (1, .literal "root")]
        [("size", "9"), ("name", "root"), ("mode", "fast")] none with lazyInit := true })]
  metadata := ⟨[], [], [], []⟩
  types := .empty

/-- Merged definition of the leaf of the chain. -/
def mergedLeaf : Definition :=
  { layer [(0, .reference "store"), (1, .literal "mid")]
      [("mode", "fast"), ("size", "1"), ("size", "2"), ("name", "leaf")] none with
    lazyInit := true }

theorem merged_leaf : layers.merged "leaf" = .ok mergedLeaf :=
  Catalog.merged_eq_ok_iff.mpr
    ⟨_, _, .child rfl rfl (.child rfl rfl (.root rfl rfl)), by decide +kernel⟩

end Sample

theorem Catalog.exists_takesNearest_leaf :
    Sample.layers.merged "leaf" = .ok Sample.mergedLeaf ∧
      ∃ nearest ancestors, Sample.layers.Lineage "leaf" nearest ancestors ∧
        Sample.mergedLeaf.TakesNearest nearest ancestors :=
  ⟨Sample.merged_leaf, Catalog.exists_takesNearest_of_merged Sample.merged_leaf⟩

end Wiring
