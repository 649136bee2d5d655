import Wiring.Proofs.Additions
import Wiring.Reachability.Request

/-!
# Executables listed by a registry

A member table is read through the executables it lists under each type.  Additions keep what was
listed and list what they add, so the reflection section of a registry is described by the hints and
plans that went into it.
-/

namespace Wiring

/-- A fold holds what its start holds and what any of its items adds. -/
theorem foldl_holds_iff {σ α : Type} (step : σ → α → σ) (holds : σ → Prop) (adds : α → Prop)
    (each : ∀ state item, holds (step state item) ↔ holds state ∨ adds item)
    (items : List α) (state : σ) :
    holds (items.foldl step state) ↔ holds state ∨ ∃ item ∈ items, adds item := by
  induction items generalizing state with
  | nil => simp
  | cons item items ih =>
      rw [List.foldl_cons, ih, each]
      simp [or_assoc]

/-- A fold of steps that keep what is read of a state keeps it. -/
theorem foldl_keeps {σ α β : Type} (read : σ → β) {step : σ → α → σ}
    (each : ∀ state item, read (step state item) = read state) (items : List α) (state : σ) :
    read (items.foldl step state) = read state := by
  induction items generalizing state with
  | nil => rfl
  | cons item items ih => rw [List.foldl_cons, ih, each]

namespace MemberTable

/-- Whether a table lists an executable under a type. -/
def Lists (table : MemberTable) (name : TypeName) (executable : Executable) : Prop :=
  ∃ entry, table.get? name = some entry ∧ executable ∈ entry.executables

theorem get?_require (table : MemberTable) (name other : TypeName) (entry : TypeEntry) :
    (table.require name entry).get? other =
      if other = name then some ((table.get? name).getD .empty ∪ entry) else table.get? other :=
  SortedMap.get?_update ..

theorem lists_iff_getD {table : MemberTable} {name : TypeName} {executable : Executable} :
    table.Lists name executable ↔ executable ∈ ((table.get? name).getD .empty).executables := by
  cases stored : table.get? name with
  | none => simp [Lists, stored, TypeEntry.empty]
  | some entry => simp [Lists, stored]

/-- A property that passes to unions holds of an entry exactly if it did before or some addition
under the name has it. -/
theorem getD_requireAll_iff (property : TypeEntry → Prop)
    (union : ∀ left right, property (left ∪ right) ↔ property left ∨ property right)
    (table : MemberTable) (additions : List (TypeName × TypeEntry)) (name : TypeName) :
    property (((table.requireAll additions).get? name).getD .empty) ↔
      property ((table.get? name).getD .empty) ∨
        ∃ addition ∈ additions, name = addition.1 ∧ property addition.2 := by
  rw [requireAll]
  refine foldl_holds_iff _ (fun table => property ((table.get? name).getD .empty))
    (fun addition => name = addition.1 ∧ property addition.2) (fun table addition => ?_)
    additions table
  rw [get?_require]
  by_cases same : name = addition.1
  · simp [same, union]
  · simp [same]

/-- Additions list their executables under their types. -/
theorem lists_requireAll {table : MemberTable} {additions : List (TypeName × TypeEntry)}
    {name : TypeName} {executable : Executable} :
    (table.requireAll additions).Lists name executable ↔
      table.Lists name executable ∨
        ∃ addition ∈ additions, name = addition.1 ∧ executable ∈ addition.2.executables := by
  rw [lists_iff_getD, lists_iff_getD]
  exact getD_requireAll_iff (executable ∈ ·.executables) (fun left right => SortedSet.mem_union)
    table additions name

/-- Additions of executables list each of them under the type that declares it. -/
theorem exists_mem_map_additionOf_iff {executables : List Executable} {name : TypeName}
    {executable : Executable} :
    (∃ addition ∈ executables.map additionOf,
        name = addition.1 ∧ executable ∈ addition.2.executables) ↔
      name = executable.declaringType ∧ executable ∈ executables := by
  have listed : ∀ added, executable ∈ (additionOf added).2.executables ↔ executable = added := by
    simp [additionOf, TypeEntry.ofLists]
  constructor
  · rintro ⟨addition, mem, home, here⟩
    obtain ⟨added, added_mem, rfl⟩ := List.mem_map.mp mem
    obtain rfl := (listed added).mp here
    exact ⟨home, added_mem⟩
  · rintro ⟨home, mem⟩
    exact ⟨additionOf executable, List.mem_map_of_mem mem, home, (listed executable).mpr rfl⟩

/-- Added executables are listed under the types that declare them. -/
theorem lists_addExecutables {table : MemberTable} {executables : List Executable}
    {name : TypeName} {executable : Executable} :
    (table.addExecutables executables).Lists name executable ↔
      table.Lists name executable ∨ name = executable.declaringType ∧ executable ∈ executables := by
  rw [addExecutables_eq_requireAll, lists_requireAll, exists_mem_map_additionOf_iff]

end MemberTable

namespace Reachability

/-- Member table of a section. -/
def members (registry : Reachability) : MemberSection → MemberTable
  | .reflection => registry.reflection
  | .jni => registry.jni

end Reachability

namespace TypeHint

/-- Whether a hint asks for an executable of a type by reflection. -/
def Asks (hint : TypeHint) (name : TypeName) (executable : Executable) : Prop :=
  name ∈ hint.types ∧ .jni ∉ hint.access ∧
    ∃ method ∈ hint.methods, executable = TypeHint.executable name method

theorem declaringType_executable (name : TypeName) (method : String × List TypeName) :
    (executable name method).declaringType = name := by
  unfold executable
  split <;> rfl

/-- Section in which the requirements of a hint about types are added. -/
def target (hint : TypeHint) : MemberSection := if .jni ∈ hint.access then .jni else .reflection

/-- Additions that a hint about types makes to its section. -/
def additions (hint : TypeHint) (system : TypeSystem) : List (TypeName × TypeEntry) :=
  hint.types.map fun name => (name, hint.entry system name)

theorem members_applyTo (hint : TypeHint) (system : TypeSystem) (registry : Reachability)
    (name : TypeName) (target : MemberSection) :
    (hint.applyTo system registry name).members target =
      if hint.target = target then (registry.members target).require name (hint.entry system name)
      else registry.members target := by
  unfold applyTo TypeHint.target
  by_cases file : .resource ∈ hint.access <;> by_cases native : .jni ∈ hint.access <;>
    cases target <;> simp [file, native, Reachability.members, Reachability.addResource]

theorem members_apply (hint : TypeHint) (system : TypeSystem) (registry : Reachability)
    (target : MemberSection) :
    (hint.apply system registry).members target =
      if hint.target = target then (registry.members target).requireAll (hint.additions system)
      else registry.members target := by
  unfold apply additions
  generalize hint.types = names
  induction names generalizing registry with
  | nil => simp [MemberTable.requireAll]
  | cons name names ih =>
      rw [List.foldl_cons, ih, members_applyTo]
      split
      next => rfl
      next => rfl

end TypeHint

namespace Hint

/-- Whether a hint asks for an executable of a type by reflection. -/
def Asks (hint : Hint) (name : TypeName) (executable : Executable) : Prop :=
  ∃ types ∈ hint.types, types.Asks name executable

/-- Additions that a hint makes to a section. -/
def additions (hint : Hint) (target : MemberSection) (system : TypeSystem) :
    List (TypeName × TypeEntry) :=
  (hint.types.filter (·.target = target)).flatMap (·.additions system)

/-- The member tables of a hint are those that its hints about types make one after another. -/
theorem members_apply_eq_foldl (hint : Hint) (system : TypeSystem) (registry : Reachability)
    (target : MemberSection) :
    (hint.apply system registry).members target =
      (hint.types.foldl (fun registry types => types.apply system registry)
        registry).members target := by
  have keeps {α : Type} {step : Reachability → α → Reachability}
      (each : ∀ registry item, (step registry item).members = registry.members)
      (items : List α) (registry : Reachability) :
      (items.foldl step registry).members target = registry.members target :=
    congrFun (foldl_keeps Reachability.members each items registry) target
  have proxies (registry : Reachability) (interfaces : List TypeName) :
      (registry.addProxy interfaces).members = registry.members := by
    unfold Reachability.addProxy
    split <;> rfl
  rw [apply, keeps, keeps, keeps proxies, keeps]
  · exact fun registry resource => rfl
  · exact fun registry type => rfl
  · exact fun registry entry => rfl

/-- A hint makes its additions to a section. -/
theorem members_apply (hint : Hint) (system : TypeSystem) (registry : Reachability)
    (target : MemberSection) :
    (hint.apply system registry).members target =
      (registry.members target).requireAll (hint.additions target system) := by
  rw [members_apply_eq_foldl, additions]
  generalize hint.types = types
  induction types generalizing registry with
  | nil => rfl
  | cons types rest ih =>
      rw [List.foldl_cons, ih, TypeHint.members_apply]
      split
      next same => simp [same, MemberTable.requireAll_append]
      next differs => simp [differs]

theorem exists_mem_additions_iff {hint : Hint} {target : MemberSection} {system : TypeSystem}
    {name : TypeName} (property : TypeEntry → Prop) :
    (∃ addition ∈ hint.additions target system, name = addition.1 ∧ property addition.2) ↔
      ∃ types ∈ hint.types, types.target = target ∧
        name ∈ types.types ∧ property (types.entry system name) := by
  simp only [additions, TypeHint.additions, List.mem_flatMap, List.mem_filter, List.mem_map,
    decide_eq_true_eq]
  constructor
  · rintro ⟨_, ⟨types, ⟨listed, here⟩, name, mem, rfl⟩, rfl, holds⟩
    exact ⟨types, listed, here, mem, holds⟩
  · rintro ⟨types, listed, here, mem, holds⟩
    exact ⟨_, ⟨types, ⟨listed, here⟩, name, mem, rfl⟩, rfl, holds⟩

end Hint

namespace Plan

/-- Executables that the context calls for a plan at run time and that have to be kept. -/
def kept (types : TypeSystem) (plan : Plan) : List Executable :=
  hidden types plan.creator.toList ++
    (hidden types (plan.injections.map (·.2)) ++ plan.initMethods ++ plan.destroyMethods)

theorem mem_kept {types : TypeSystem} {plan : Plan} {executable : Executable} :
    executable ∈ plan.kept types ↔
      ((plan.creator = some executable ∨ ∃ property, (property, executable) ∈ plan.injections) ∧
          ¬ types.isPublic executable) ∨
        executable ∈ plan.initMethods ∨ executable ∈ plan.destroyMethods := by
  simp [kept, hidden, or_and_right, or_assoc]

/-- The additions of a plan list the executables it keeps. -/
theorem exists_mem_additions_iff {types : TypeSystem} {plan : Plan} {name : TypeName}
    {executable : Executable} :
    (∃ addition ∈ plan.additions types,
        name = addition.1 ∧ executable ∈ addition.2.executables) ↔
      name = executable.declaringType ∧ executable ∈ plan.kept types := by
  unfold additions kept
  have touching : ∀ (names : List TypeName), ¬ ∃ addition ∈ names.map (·, TypeEntry.empty),
      name = addition.1 ∧ executable ∈ addition.2.executables := by
    rintro names ⟨addition, mem, -, listed⟩
    obtain ⟨touched, -, rfl⟩ := List.mem_map.mp mem
    exact SortedSet.not_mem_empty _ listed
  simp only [List.mem_append, or_and_right, exists_or, MemberTable.exists_mem_map_additionOf_iff]
  cases plan.creator with
  | none => simp [hidden]
  | some creator =>
      simp only [creatorAdditions, Option.toList_some, List.flatMap_singleton, List.mem_append,
        or_and_right, exists_or, MemberTable.exists_mem_map_additionOf_iff, touching, or_false,
        and_or_left]

end Plan
end Wiring
