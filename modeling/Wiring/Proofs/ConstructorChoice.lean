import Wiring.Proofs.CleanContainers
import Wiring.Proofs.ConstructorOrder
import Wiring.Proofs.Run

/-!
# Choice of constructors

The creator of a component without a declared source is a constructor of its type that stands out,
or one inferred from explicit arguments without gaps.  The order in which types list constructors
plays no part in it, nor in anything else that is written for the component.
-/

namespace Wiring

namespace Component

/-! ### Unique choices -/

theorem sole?_eq_some_iff {α : Type} {items : List α} {item : α} :
    sole? items = some item ↔ items = [item] := by
  match items with
  | [] => simp [sole?]
  | [_] => simp [sole?]
  | _ :: _ :: _ => simp [sole?]

theorem sole?_perm {α : Type} {left right : List α} (perm : left.Perm right) :
    sole? left = sole? right := by
  ext item
  rw [sole?_eq_some_iff, sole?_eq_some_iff]
  constructor
  · rintro rfl
    exact List.perm_singleton.mp perm.symm
  · rintro rfl
    exact List.perm_singleton.mp perm

/-- A search for a constructor without parameters finds parameters exactly if they are none and some
constructor has none. -/
theorem map_find?_isEmpty_eq_some_iff {constructors : List DeclaredConstructor}
    {parameters : List TypeName} :
    (constructors.find? (·.parameters.isEmpty)).map (·.parameters) = some parameters ↔
      parameters = [] ∧ ∃ declared ∈ constructors, declared.parameters = [] := by
  constructor
  · intro found
    obtain ⟨declared, first, rfl⟩ := Option.map_eq_some_iff.mp found
    have none : declared.parameters = [] := by simpa using List.find?_some first
    exact ⟨none, declared, List.mem_of_find?_eq_some first, none⟩
  · rintro ⟨rfl, declared, mem, none⟩
    have exists_first : (constructors.find? (·.parameters.isEmpty)).isSome :=
      List.find?_isSome.mpr ⟨declared, mem, by simp [none]⟩
    obtain ⟨first, found⟩ := Option.isSome_iff_exists.mp exists_first
    have first_none : first.parameters = [] := by simpa using List.find?_some found
    rw [found, Option.map_some, first_none]

/-- The parameters of the constructor that stands out do not depend on the order of the list. -/
theorem map_chosenConstructor?_perm {left right : List DeclaredConstructor}
    (perm : left.Perm right) (count : Nat) :
    (chosenConstructor? left count).map (·.parameters) =
      (chosenConstructor? right count).map (·.parameters) := by
  -- the first constructor without parameters may be another one, but has the same parameters
  have default : (left.find? (·.parameters.isEmpty)).map (·.parameters) =
      (right.find? (·.parameters.isEmpty)).map (·.parameters) := by
    ext parameters
    simp only [map_find?_isEmpty_eq_some_iff, perm.mem_iff]
  simp only [chosenConstructor?, Option.orElse_eq_orElse, Option.orElse_eq_or, Option.map_or,
    sole?_perm perm, sole?_perm (perm.filter _), default]

end Component

/-! ### Reordered constructors -/

/-- The container with other types. -/
def Container.withTypes (container : Container) (types : TypeSystem) : Container :=
  { container with types }

/-- The component in a container with other types. -/
def Component.withTypes (component : Component) (types : TypeSystem) : Component :=
  { component with container := component.container.withTypes types }

section InContainer

variable {container : Container} {types : TypeSystem}
  (reorders : types.ReordersConstructorsOf container.types)

include reorders

theorem Container.producedType_withTypes :
    (container.withTypes types).producedType = container.producedType := by
  funext definition
  simp only [producedType, withTypes, reorders.methodInfo_eq]

theorem Container.producedTypeOf?_withTypes :
    (container.withTypes types).producedTypeOf? = container.producedTypeOf? := by
  funext name
  rw [producedTypeOf?, producedType_withTypes reorders]
  rfl

theorem Container.namesForType_withTypes :
    (container.withTypes types).namesForType = container.namesForType := by
  funext target
  simp only [namesForType, producedTypeOf?_withTypes reorders]
  simp only [withTypes, reorders.isAssignable_eq]

theorem Component.valueType_withTypes :
    valueType (container.withTypes types) = valueType container := by
  funext value
  cases value with
  | literal text => rfl
  | reference name => rw [valueType, valueType, Container.producedTypeOf?_withTypes reorders]

theorem Component.inferredParameters_withTypes (position : Nat) (arguments : List (Nat × Value)) :
    inferredParameters (container.withTypes types) position arguments =
      inferredParameters container position arguments := by
  induction arguments generalizing position with
  | nil => rfl
  | cons argument arguments ih =>
      rw [inferredParameters, inferredParameters, valueType_withTypes reorders, ih]

end InContainer

namespace Component

section Reordered

variable {component : Component} {types : TypeSystem}
  (reorders : types.ReordersConstructorsOf component.types)

section Resolved

include reorders

theorem producedType_withTypes :
    (component.withTypes types).producedType = component.producedType := by
  rw [producedType, withTypes, Container.producedType_withTypes reorders]
  rfl

/-- Reordered constructors leave the creator as it is. -/
theorem creator?_withTypes : (component.withTypes types).creator? = component.creator? := by
  have known : types.contains component.beanType = component.types.contains component.beanType :=
    reorders.contains_eq _
  have declared := map_chosenConstructor?_perm (reorders.constructors_perm component.beanType)
    component.definition.arguments.size
  have inferred := inferredParameters_withTypes reorders 0 component.definition.arguments.entries
  simp only [creator?, ← known, ← declared, ← inferred]
  rfl

theorem setter?_withTypes : (component.withTypes types).setter? = component.setter? := by
  funext property
  have target := producedType_withTypes reorders
  have value := congrFun (valueType_withTypes reorders) property.value
  simp only [setter?, target, ← reorders.contains_eq, ← reorders.findSetter_eq, ← value]
  rfl

theorem lifecycleMethod?_withTypes :
    (component.withTypes types).lifecycleMethod? = component.lifecycleMethod? := by
  funext method
  have target := producedType_withTypes reorders
  simp only [lifecycleMethod?, target, ← reorders.contains_eq, ← reorders.findMethod_eq]
  rfl

theorem problems_withTypes : (component.withTypes types).problems = component.problems := by
  have property : (component.withTypes types).propertyProblem? = component.propertyProblem? := by
    funext property
    rw [propertyProblem?, propertyProblem?, setter?_withTypes reorders,
      producedType_withTypes reorders]
  have lifecycle :
      (component.withTypes types).lifecycleProblem? = component.lifecycleProblem? := by
    funext problem method
    rw [lifecycleProblem?, lifecycleProblem?, lifecycleMethod?_withTypes reorders,
      producedType_withTypes reorders]
  rw [problems, creatorProblem?, creator?_withTypes reorders, property, lifecycle]
  rfl

theorem injections_withTypes : (component.withTypes types).injections = component.injections := by
  rw [injections, setter?_withTypes reorders]
  rfl

theorem targetPackage_withTypes :
    (component.withTypes types).targetPackage = component.targetPackage := by
  have visible : types.visibility = component.types.visibility := funext reorders.visibility_eq
  funext main
  simp only [targetPackage, producedType_withTypes reorders, ← visible]
  rfl

theorem valueCode_withTypes : (component.withTypes types).valueCode = component.valueCode := by
  funext target value
  cases value with
  | reference other => rfl
  | literal text =>
      have constant : Literal.constant? types text target =
          Literal.constant? component.types text target := by
        simp only [Literal.constant?, reorders.kind_eq]
      simp only [valueCode, Literal.ofText, ← constant]
      rfl

theorem argumentCodes_withTypes :
    (component.withTypes types).argumentCodes = component.argumentCodes := by
  have candidates : (component.withTypes types).container.namesForType =
      component.container.namesForType := Container.namesForType_withTypes reorders
  have each : (component.withTypes types).argumentCode = component.argumentCode := by
    funext parameter
    simp only [argumentCode, autowireCode, candidates, valueCode_withTypes reorders]
    rfl
  funext creator
  rw [argumentCodes, each, argumentCodes]

theorem injectionValue_withTypes :
    (component.withTypes types).injectionValue = component.injectionValue := by
  funext injection
  rw [injectionValue, valueCode_withTypes reorders, injectionValue]

end Resolved

/-- Setters are methods. -/
theorem kind_ne_constructor_of_mem_injections {injection : Injection}
    (mem : injection ∈ component.injections) : injection.setter.kind ≠ .constructor := by
  obtain ⟨property, -, injected⟩ := List.mem_filterMap.mp mem
  obtain ⟨setter, resolved, rfl⟩ := Option.map_eq_some_iff.mp injected
  simp only [setter?] at resolved
  split at resolved
  · obtain ⟨type, -, found⟩ := List.exists_of_findSome?_eq_some resolved
    obtain ⟨declared, -, rfl⟩ := Option.map_eq_some_iff.mp found
    exact nofun
  · cases resolved
    exact nofun

section Written

variable (distinct : ((component.types.constructors component.beanType).map (·.parameters)).Nodup)

include reorders distinct

/-- Calls reach the same executables, the constructors of the component's type as long as their
parameters tell them apart. -/
theorem isAccessible_withTypes {executable : Executable}
    (own : executable.kind = .constructor → executable.declaringType = component.beanType)
    (package : String) :
    (component.withTypes types).types.isAccessible executable package =
      component.types.isAccessible executable package :=
  reorders.isAccessible_eq (fun constructor => own constructor ▸ distinct) package

theorem registration_withTypes {creator : Executable}
    (own : creator.kind = .constructor → creator.declaringType = component.beanType)
    (package : String) :
    (component.withTypes types).registration package creator =
      component.registration package creator := by
  have produced := producedType_withTypes reorders
  have created : (component.withTypes types).instanceCode package creator =
      component.instanceCode package creator := by
    simp only [instanceCode, argumentCodes_withTypes reorders,
      isAccessible_withTypes reorders distinct own, reflectiveCreation, produced]
    rfl
  have injected : (component.withTypes types).injections.mapM
        ((component.withTypes types).injectionCode package) =
      component.injections.mapM (component.injectionCode package) := by
    have each : ∀ injection ∈ component.injections,
        (component.withTypes types).injectionCode package injection =
          component.injectionCode package injection := by
      intro injection mem
      have method := kind_ne_constructor_of_mem_injections mem
      simp only [injectionCode, injectionValue_withTypes reorders, setterCode,
        isAccessible_withTypes reorders distinct fun constructor => absurd constructor method]
    have mapped := congrArg (List.mapM id) (List.map_congr_left each)
    rw [List.mapM_map, List.mapM_map] at mapped
    rw [injections_withTypes reorders]
    exact mapped
  have called : (component.withTypes types).registrationCall = component.registrationCall := by
    funext instanceCode setters
    simp only [registrationCall, produced]
    rfl
  rw [registration, created, injected, called, registration]

theorem recordedMembers_withTypes {creator : Executable}
    (own : creator.kind = .constructor → creator.declaringType = component.beanType)
    (package : String) :
    (component.withTypes types).recordedMembers package creator =
      component.recordedMembers package creator := by
  simp only [recordedMembers, argumentCodes_withTypes reorders, injections_withTypes reorders,
    injectionValue_withTypes reorders]
  refine List.filter_congr fun executable mem => ?_
  -- the creator is the only constructor among the executables that are called
  have own_or_method : executable.kind = .constructor →
      executable.declaringType = component.beanType := by
    split at mem
    · rcases List.mem_cons.mp mem with rfl | mem
      · exact own
      · obtain ⟨injection, taken, rfl⟩ := List.mem_map.mp mem
        have injected := (List.takeWhile_sublist _).subset taken
        exact fun constructor =>
          absurd constructor (kind_ne_constructor_of_mem_injections injected)
    · cases mem
  rw [isAccessible_withTypes reorders distinct own_or_method]

/-- A component is written in the same way whatever the order of constructors. -/
theorem write_withTypes
    (own : ∀ creator, component.creator? = some creator → creator.kind = .constructor →
      creator.declaringType = component.beanType) :
    (component.withTypes types).write = component.write := by
  have placed : (component.withTypes types).place = component.place := by
    funext draft package block
    simp only [place, helperBase, producedType_withTypes reorders]
  funext draft
  rw [write, write, creator?_withTypes reorders, problems_withTypes reorders]
  cases resolved : component.creator? with
  | none => cases component.problems <;> rfl
  | some creator =>
      have written : (component.withTypes types).writeWith draft creator =
          component.writeWith draft creator := by
        simp only [writeWith, targetPackage_withTypes reorders, placed,
          registration_withTypes reorders distinct (own creator resolved),
          recordedMembers_withTypes reorders distinct (own creator resolved)]
      cases component.problems with
      | nil => exact written
      | cons => rfl

end Written
end Reordered

/-! ### Declared and inferred creators -/

/-- Arguments fit parameters exactly if their positions count up from the start. -/
theorem inferredParameters_eq_some_iff {container : Container} {position : Nat}
    {arguments : List (Nat × Value)} {parameters : List TypeName} :
    inferredParameters container position arguments = some parameters ↔
      arguments.map (·.1) = List.range' position arguments.length ∧
        parameters = arguments.map (valueType container ·.2) := by
  induction arguments generalizing position parameters with
  | nil => simp [inferredParameters, eq_comm]
  | cons argument arguments ih =>
      obtain ⟨index, value⟩ := argument
      rw [inferredParameters]
      split
      next start =>
        simp only [Option.map_eq_some_iff, ih, List.map_cons, List.length_cons, List.range'_succ,
          start, List.cons.injEq, true_and]
        constructor
        · rintro ⟨others, ⟨counted, rfl⟩, rfl⟩
          exact ⟨counted, rfl⟩
        · rintro ⟨counted, rfl⟩
          exact ⟨_, ⟨counted, rfl⟩, rfl⟩
      next gap =>
        simp only [List.map_cons, List.length_cons, List.range'_succ, List.cons.injEq, gap,
          false_and, reduceCtorEq]

variable {component : Component}

/-- A type that is registered, or that is created without explicit arguments, is created by the
constructor that stands out. -/
theorem creator?_of_declared (undeclared : component.definition.instanceSource = none)
    (declared : component.types.contains component.beanType = true ∨
      component.definition.arguments.isEmpty = true) :
    component.creator? =
      (chosenConstructor? (component.types.constructors component.beanType)
        component.definition.arguments.size).map
          fun chosen => .ofConstructor component.beanType chosen.parameters := by
  have standing : (!component.types.contains component.beanType &&
      !component.definition.arguments.isEmpty) = false := by
    rcases declared with known | none
    · simp [known]
    · simp [none]
  simp only [creator?, undeclared, standing, Bool.false_eq_true, if_false, Option.map_map]
  rfl

/-- An unknown type with explicit arguments is created by a constructor for exactly the arguments,
if their positions leave no gap. -/
theorem creator?_eq_some_iff_of_unknown (undeclared : component.definition.instanceSource = none)
    (unknown : component.types.contains component.beanType = false)
    (explicit : component.definition.arguments.isEmpty = false) {creator : Executable} :
    component.creator? = some creator ↔
      component.definition.arguments.keys = List.range component.definition.arguments.size ∧
        creator = .ofConstructor component.beanType
          (component.definition.arguments.values.map (valueType component.container)) := by
  have inferred : component.creator? =
      (inferredParameters component.container 0 component.definition.arguments.entries).map
        (.ofConstructor component.beanType) := by
    simp [creator?, undeclared, unknown, explicit]
  rw [inferred, Option.map_eq_some_iff, SortedMap.values, List.map_map, List.range_eq_range']
  simp only [inferredParameters_eq_some_iff]
  constructor
  · rintro ⟨parameters, ⟨counted, rfl⟩, rfl⟩
    exact ⟨counted, rfl⟩
  · rintro ⟨counted, rfl⟩
    exact ⟨_, ⟨counted, rfl⟩, rfl⟩

/-- Without a declared source, the creator of a type that is registered or has no explicit arguments
is one of its constructors, no order of constructors changes what is resolved and written, and a
creator of an unknown type has one parameter for each of the arguments, which must leave no gap. -/
theorem creator?_declared_or_inferred (component : Component)
    (undeclared : component.definition.instanceSource = none) :
    (component.types.contains component.beanType = true ∨
        component.definition.arguments.isEmpty = true →
      ∀ creator, component.creator? = some creator →
        ∃ declared ∈ component.types.constructors component.beanType,
          creator = .ofConstructor component.beanType declared.parameters) ∧
      (∀ types : TypeSystem, types.ReordersConstructorsOf component.types →
        (component.withTypes types).creator? = component.creator? ∧
          (((component.types.constructors component.beanType).map (·.parameters)).Nodup →
            (component.withTypes types).write = component.write)) ∧
      (component.types.contains component.beanType = false →
        component.definition.arguments.isEmpty = false →
          ((∃ creator, component.creator? = some creator) ↔
            component.definition.arguments.keys =
              List.range component.definition.arguments.size) ∧
            ∀ creator, component.creator? = some creator →
              creator.parameters.length = component.definition.arguments.size) := by
  refine ⟨?declared, fun types reorders => ⟨creator?_withTypes reorders, ?written⟩, ?inferred⟩
  case declared =>
    intro declared creator resolved
    rw [creator?_of_declared undeclared declared] at resolved
    obtain ⟨chosen, found, rfl⟩ := Option.map_eq_some_iff.mp resolved
    exact ⟨chosen, mem_of_chosenConstructor? found, rfl⟩
  case written =>
    intro distinct
    refine write_withTypes reorders distinct fun creator resolved _ => ?_
    simp only [creator?, undeclared] at resolved
    obtain ⟨parameters, -, rfl⟩ := Option.map_eq_some_iff.mp resolved
    rfl
  case inferred =>
    intro unknown explicit
    have inferred (creator : Executable) :=
      @creator?_eq_some_iff_of_unknown component undeclared unknown explicit creator
    constructor
    · constructor
      · exact fun ⟨creator, resolved⟩ => ((inferred creator).mp resolved).1
      · exact fun counted => ⟨_, (inferred _).mpr ⟨counted, rfl⟩⟩
    · intro creator resolved
      obtain ⟨-, rfl⟩ := (inferred creator).mp resolved
      simp [Executable.ofConstructor, SortedMap.values, SortedMap.size]

end Component

namespace Sample

/-- Class with the given constructors. -/
def poolType (constructors : List DeclaredConstructor) : DeclaredType :=
  { classType "com.app.Pool" .publicAccess .publicAccess [] with constructors }

/-- Constructors of a pool: one for its size, one without parameters. -/
def poolConstructors : List DeclaredConstructor :=
  [⟨[⟨"int"⟩], .packageAccess, []⟩, ⟨[], .privateAccess, []⟩]

/-- Component that is created for one explicit argument. -/
def pool (types : TypeSystem) : Component where
  container := container.withTypes types
  name := "pool"
  definition :=
    { definition "com.app.Pool" .declared [] none with
      arguments := SortedMap.empty.insert 0 (.literal "4") }

end Sample

/-- The constructor for the size is chosen in either order, and one is inferred for an unknown
type. -/
theorem Component.creator?_declared_or_inferred_pool :
    let types := TypeSystem.ofList [Sample.poolType Sample.poolConstructors]
    let reordered := types.register (Sample.poolType Sample.poolConstructors.reverse)
    (∃ declared ∈ types.constructors ⟨"com.app.Pool"⟩,
        Executable.ofConstructor ⟨"com.app.Pool"⟩ [⟨"int"⟩] =
          .ofConstructor ⟨"com.app.Pool"⟩ declared.parameters) ∧
      ((Sample.pool types).withTypes reordered).creator? = (Sample.pool types).creator? ∧
      ((Sample.pool types).withTypes reordered).write = (Sample.pool types).write ∧
      ∃ creator, (Sample.pool .empty).creator? = some creator ∧ creator.parameters.length = 1 := by
  intro types reordered
  obtain ⟨declared, order, -⟩ := creator?_declared_or_inferred (Sample.pool types) rfl
  obtain ⟨-, -, inferred⟩ := creator?_declared_or_inferred (Sample.pool .empty) rfl
  have registered :
      types.get? ⟨"com.app.Pool"⟩ = some (Sample.poolType Sample.poolConstructors) := by
    decide +kernel
  have reversed : (Sample.poolType Sample.poolConstructors.reverse).ReordersConstructorsOf
      (Sample.poolType Sample.poolConstructors) := ⟨_, List.reverse_perm _, rfl⟩
  have reorders := TypeSystem.reordersConstructorsOf_register registered reversed
  obtain ⟨same, written⟩ := order reordered reorders
  obtain ⟨resolves, counted⟩ := inferred (by decide +kernel) (by decide +kernel)
  obtain ⟨creator, resolved⟩ := resolves.mpr (by decide +kernel)
  exact ⟨declared (.inl (by decide +kernel)) _ (by decide +kernel), same,
    written (by decide +kernel), creator, resolved, counted creator resolved⟩

end Wiring
