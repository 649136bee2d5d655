import Wiring.Proofs.BreadthFirst

/-!
# Supertype links

Declarations name their superclass and their interfaces, which need not be registered themselves.
The hierarchy of a type lists exactly the registered types to which such links lead, and its first
type with some property is as few links away as any type with it, also where links run in a circle.
-/

namespace Wiring
namespace TypeSystem

variable {system : TypeSystem} {name lower upper : TypeName} {type : DeclaredType} {count : Nat}

/-- Whether the declaration of one type names another as its superclass or among its interfaces. -/
def Links (system : TypeSystem) (lower upper : TypeName) : Prop :=
  ∃ type, system.get? lower = some type ∧
    (type.superclass = some upper ∨ upper ∈ type.interfaces)

/-- Whether a given number of links, one after another, lead from one type to another. -/
inductive LeadsIn (system : TypeSystem) : Nat → TypeName → TypeName → Prop
  | here (name : TypeName) : LeadsIn system 0 name name
  | up {count : Nat} {lower next upper : TypeName} (link : system.Links lower next)
      (rest : LeadsIn system count next upper) : LeadsIn system (count + 1) lower upper

/-- Whether a declaration is registered and links lead to it. -/
structure Reaches (system : TypeSystem) (name : TypeName) (type : DeclaredType) : Prop where
  /-- The declaration is registered. -/
  registered : system.get? type.name = some type
  /-- Links lead to its name. -/
  linked : Relation.ReflTransGen system.Links name type.name

/-- Whether a declaration has some property and no reached declaration that is fewer links away has
it. -/
structure IsNearest (system : TypeSystem) (name : TypeName) (condition : DeclaredType → Prop)
    (type : DeclaredType) : Prop where
  /-- The declaration is reached. -/
  reaches : system.Reaches name type
  /-- The declaration has the property. -/
  holds : condition type
  /-- All that are fewer links away do not have it. -/
  fewest : ∃ count, system.LeadsIn count name type.name ∧
    ∀ fewer < count, ∀ other, system.Reaches name other →
      system.LeadsIn fewer name other.name → ¬ condition other

theorem mem_supertypes_iff :
    upper ∈ type.supertypes ↔ type.superclass = some upper ∨ upper ∈ type.interfaces := by
  rw [DeclaredType.supertypes, List.mem_append, Option.mem_toList]

theorem links_iff_of_found (found : system.get? lower = some type) :
    system.Links lower upper ↔ upper ∈ type.supertypes := by
  rw [mem_supertypes_iff]
  constructor
  · rintro ⟨other, stored, named⟩
    obtain rfl := Option.some.inj (found.symm.trans stored)
    exact named
  · exact fun named => ⟨type, found, named⟩

theorem LeadsIn.linked (leads : system.LeadsIn count lower upper) :
    Relation.ReflTransGen system.Links lower upper := by
  induction leads with
  | here name => exact .refl
  | up link _ ih => exact .head link ih

theorem exists_leadsIn (linked : Relation.ReflTransGen system.Links lower upper) :
    ∃ count, system.LeadsIn count lower upper := by
  induction linked using Relation.ReflTransGen.head_induction_on with
  | refl => exact ⟨0, .here upper⟩
  | head link _ ih =>
      obtain ⟨count, leads⟩ := ih
      exact ⟨count + 1, .up link leads⟩

/-! ### Links and routes -/

/-- A route takes as many links as it has positions. -/
theorem leadsIn_of_typeAt? {route : List Nat} (leads : system.typeAt? name route = some type) :
    system.LeadsIn route.length name type.name ∧ system.get? type.name = some type := by
  induction route generalizing name with
  | nil =>
      rw [typeAt?_nil] at leads
      rw [name_of_get? leads]
      exact ⟨.here name, leads⟩
  | cons position route ih =>
      obtain ⟨first, next, found, picked, leads⟩ := typeAt?_cons_eq_some_iff.mp leads
      obtain ⟨above, stored⟩ := ih leads
      exact ⟨.up ((links_iff_of_found found).mpr (List.mem_of_getElem? picked)) above, stored⟩

/-- Links to a registered type are the links of some route. -/
theorem exists_typeAt?_of_leadsIn (leads : system.LeadsIn count name upper)
    (found : system.get? upper = some type) :
    ∃ route, route.length = count ∧ system.typeAt? name route = some type := by
  induction leads with
  | here name => exact ⟨[], rfl, found⟩
  | up link _ ih =>
      obtain ⟨route, rfl, leads⟩ := ih found
      obtain ⟨first, stored, named⟩ := link
      obtain ⟨position, picked⟩ := List.mem_iff_getElem?.mp (mem_supertypes_iff.mpr named)
      exact ⟨position :: route, rfl,
        typeAt?_cons_eq_some_iff.mpr ⟨first, _, stored, picked, leads⟩⟩

theorem reaches_of_typeAt? {route : List Nat} (leads : system.typeAt? name route = some type) :
    system.Reaches name type :=
  ⟨(leadsIn_of_typeAt? leads).2, (leadsIn_of_typeAt? leads).1.linked⟩

/-! ### The hierarchy -/

/-- The first type of the hierarchy with some property is one of the nearest. -/
theorem isNearest_of_find?_hierarchy {condition : DeclaredType → Bool}
    (found : (system.hierarchy name).find? condition = some type) :
    system.IsNearest name (condition · = true) type := by
  obtain ⟨route, leads, holds, least⟩ := exists_isFirst_of_find?_hierarchy found
  refine ⟨reaches_of_typeAt? leads, holds, route.length, (leadsIn_of_typeAt? leads).1, ?_⟩
  intro fewer shorter other reached otherLeads otherHolds
  obtain ⟨otherRoute, rfl, arrives⟩ := exists_typeAt?_of_leadsIn otherLeads reached.registered
  exact least otherRoute other arrives otherHolds (.of_length_lt shorter)

/-- The hierarchy of a type lists exactly the registered types to which links lead. -/
theorem mem_hierarchy_iff : type ∈ system.hierarchy name ↔ system.Reaches name type := by
  constructor
  · intro mem
    have listed : ((system.hierarchy name).find? (· == type)).isSome = true :=
      List.find?_isSome.mpr ⟨type, mem, beq_self_eq_true type⟩
    obtain ⟨first, found⟩ := Option.isSome_iff_exists.mp listed
    have same : (first == type) = true := List.find?_some (p := (· == type)) found
    obtain rfl := eq_of_beq same
    exact (isNearest_of_find?_hierarchy found).reaches
  · rintro ⟨registered, linked⟩
    obtain ⟨count, leads⟩ := exists_leadsIn linked
    obtain ⟨route, -, leads⟩ := exists_typeAt?_of_leadsIn leads registered
    exact mem_hierarchy_of_typeAt? leads

end TypeSystem

namespace Sample

/-- Public class with the given supertypes and methods. -/
def linkedType (name : String) (superclass : Option String) (interfaces : List String)
    (methods : List DeclaredMethod) : DeclaredType :=
  ⟨⟨name⟩, .classType, .publicAccess, superclass.map TypeName.mk, interfaces.map TypeName.mk,
    [], [], methods, []⟩

/-- Two classes that extend each other.  One of them has an interface that is registered and
declares a method, the other one that is not registered. -/
def circle : TypeSystem :=
  .ofList [linkedType "com.app.Left" (some "com.app.Right") ["com.lib.Open"] [],
    linkedType "com.app.Right" (some "com.app.Left") ["com.app.Able"] [],
    linkedType "com.app.Able" none [] [⟨"run", [.string], .void, .publicAccess, false, []⟩]]

end Sample
end Wiring
