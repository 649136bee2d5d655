import Wiring.Proofs.BreadthFirst
import Wiring.Proofs.Run
import Wiring.TypeSystem.Lookup

/-!
# Members found along the superclass chain

Methods and setters are looked up breadth first, so an interface close to a type comes before a
superclass further up.  A member that the superclass chain declares is found there unless another
type that declares it is fewer supertypes away.
-/

namespace Wiring

namespace DeclaredMethod

/-- Whether a method has the given name and parameter types. -/
structure HasSignature (declared : DeclaredMethod) (name : String) (parameters : List TypeName) :
    Prop where
  /-- The names agree. -/
  name : declared.name = name
  /-- The parameter types agree in order. -/
  parameters : declared.parameters = parameters

/-- Whether a method is an instance method of one parameter named after a property. -/
structure IsSetter (declared : DeclaredMethod) (property : String) : Prop where
  /-- The method bears the name that setters of the property have. -/
  name : declared.name = setterName property
  /-- The method takes one value. -/
  one_parameter : declared.parameters.length = 1
  /-- The method is called on an instance. -/
  not_static : declared.isStatic = false

instance (declared : DeclaredMethod) (name : String) (parameters : List TypeName) :
    Decidable (declared.HasSignature name parameters) :=
  decidable_of_iff (declared.name = name ∧ declared.parameters = parameters)
    ⟨fun ⟨named, same⟩ => ⟨named, same⟩, fun ⟨named, same⟩ => ⟨named, same⟩⟩

instance (declared : DeclaredMethod) (property : String) : Decidable (declared.IsSetter property) :=
  decidable_of_iff (declared.name = setterName property ∧ declared.parameters.length = 1 ∧
      declared.isStatic = false)
    ⟨fun ⟨named, one, dynamic⟩ => ⟨named, one, dynamic⟩,
      fun ⟨named, one, dynamic⟩ => ⟨named, one, dynamic⟩⟩

end DeclaredMethod

namespace DeclaredType

/-- Whether a type declares a method with the given name and parameter types. -/
def Declares (type : DeclaredType) (name : String) (parameters : List TypeName) : Prop :=
  ∃ declared ∈ type.methods, declared.HasSignature name parameters

/-- Whether a type declares a setter of a property. -/
def DeclaresSetter (type : DeclaredType) (property : String) : Prop :=
  ∃ declared ∈ type.methods, declared.IsSetter property

instance (type : DeclaredType) (name : String) (parameters : List TypeName) :
    Decidable (type.Declares name parameters) :=
  inferInstanceAs (Decidable (∃ declared ∈ type.methods, declared.HasSignature name parameters))

instance (type : DeclaredType) (property : String) : Decidable (type.DeclaresSetter property) :=
  inferInstanceAs (Decidable (∃ declared ∈ type.methods, declared.IsSetter property))

theorem isSome_method? {type : DeclaredType} {name : String} {parameters : List TypeName} :
    (type.method? name parameters).isSome ↔ type.Declares name parameters := by
  simp only [method?, List.find?_isSome, Declares, Bool.and_eq_true, beq_iff_eq]
  exact exists_congr fun declared => and_congr_right fun _ =>
    ⟨fun ⟨named, same⟩ => ⟨named, same⟩, fun ⟨named, same⟩ => ⟨named, same⟩⟩

theorem isSome_setter? {type : DeclaredType} {property : String} :
    (type.setter? property).isSome ↔ type.DeclaresSetter property := by
  simp only [setter?, List.find?_isSome, DeclaresSetter, Bool.and_eq_true, beq_iff_eq,
    Bool.not_eq_true']
  exact exists_congr fun declared => and_congr_right fun _ =>
    ⟨fun ⟨⟨named, one⟩, dynamic⟩ => ⟨named, one, dynamic⟩,
      fun ⟨named, one, dynamic⟩ => ⟨⟨named, one⟩, dynamic⟩⟩

theorem isSetter_of_setter? {type : DeclaredType} {property : String} {declared : DeclaredMethod}
    (found : type.setter? property = some declared) :
    declared ∈ type.methods ∧ declared.IsSetter property := by
  have holds := List.find?_some found
  simp only [Bool.and_eq_true, beq_iff_eq, Bool.not_eq_true'] at holds
  exact ⟨List.mem_of_find?_eq_some found, holds.1.1, holds.1.2, holds.2⟩

end DeclaredType

namespace TypeSystem

variable {system : TypeSystem} {name : TypeName} {type : DeclaredType}

/-- Whether a type with some property is found ahead of every other one that takes fewer steps than
the first one of the superclass chain. -/
def Precedes (system : TypeSystem) (name : TypeName) (condition : DeclaredType → Bool)
    (type : DeclaredType) : Prop :=
  ∀ other otherType, system.typeAt? name other = some otherType → condition otherType →
    other.length < (system.superclassChain name).findIdx condition → otherType ≠ type →
      ∃ route, system.typeAt? name route = some type ∧ List.Shortlex (· < ·) route other

/-- A type of the superclass chain is reached by taking the superclass each time. -/
theorem typeAt?_replicate {nearer farther : List DeclaredType}
    (split : system.superclassChain name = nearer ++ type :: farther) :
    system.typeAt? name (.replicate nearer.length 0) = some type := by
  induction system, name using superclassChain.induct generalizing nearer with
  | case1 system name absent => simp [superclassChain_of_absent absent] at split
  | case2 system name first found ih =>
      rw [superclassChain_of_found found] at split
      cases nearer with
      | nil =>
          obtain ⟨rfl, -⟩ := List.cons.inj split
          exact found
      | cons _ nearer =>
          obtain ⟨-, above⟩ := List.cons.inj split
          cases extended : first.superclass with
          | none => simp [extended] at above
          | some superclass =>
              simp only [extended, Option.toList_some, List.flatMap_singleton] at above
              rw [List.length_cons, List.replicate_succ, typeAt?_cons_of_found found,
                DeclaredType.supertypes, extended]
              exact typeAt?_of_erase (ih superclass above)

theorem not_lex_replicate (route : List Nat) :
    ¬ List.Lex (· < ·) route (.replicate route.length 0) := by
  induction route with
  | nil => nofun
  | cons position route ih =>
      rw [List.length_cons, List.replicate_succ, List.cons_lex_cons_iff]
      rintro (less | ⟨-, less⟩)
      · omega
      · exact ih less

/-- No route of the same length comes before the one that takes the superclass each time. -/
theorem length_lt_of_shortlex_replicate {route : List Nat} {count : Nat}
    (before : List.Shortlex (· < ·) route (.replicate count 0)) : route.length < count := by
  rcases List.shortlex_def.mp before with shorter | ⟨same, less⟩
  · simpa using shorter
  · rw [List.length_replicate] at same
    exact absurd (same ▸ less) (not_lex_replicate route)

theorem get?_of_typeAt? {route : List Nat} (leads : system.typeAt? name route = some type) :
    system.get? type.name = some type := by
  induction route generalizing name with
  | nil => rwa [name_of_get? leads]
  | cons position route ih =>
      obtain ⟨first, next, -, -, leads⟩ := typeAt?_cons_eq_some_iff.mp leads
      exact ih leads

/-- Of two routes to different types the one comes before the other. -/
theorem shortlex_or_of_typeAt?_ne {route other : List Nat} {otherType : DeclaredType}
    (leads : system.typeAt? name route = some type)
    (otherLeads : system.typeAt? name other = some otherType) (differs : otherType ≠ type) :
    List.Shortlex (· < ·) route other ∨ List.Shortlex (· < ·) other route := by
  by_contra neither
  obtain ⟨not_before, not_after⟩ := not_or.mp neither
  obtain rfl : route = other :=
    Std.Trichotomous.trichotomous (r := List.Shortlex (· < ·)) route other not_before not_after
  exact differs (Option.some.inj (otherLeads.symm.trans leads))

/-- Where the superclass chain has a type with some property, the hierarchy has one too, and its
first one is that of the chain exactly if this precedes the others. -/
theorem exists_find?_hierarchy {condition : DeclaredType → Bool}
    (found : (system.superclassChain name).find? condition = some type) :
    ∃ winner, (system.hierarchy name).find? condition = some winner ∧
      (winner.name = type.name ↔ system.Precedes name condition type) := by
  obtain ⟨holds, nearer, farther, split, others⟩ := List.find?_eq_some_iff_append.mp found
  have along : system.typeAt? name (.replicate nearer.length 0) = some type :=
    typeAt?_replicate split
  have position : (system.superclassChain name).findIdx condition = nearer.length := by
    have none_nearer : ¬ ∃ lower ∈ nearer, condition lower = true := by simpa using others
    rw [split, List.findIdx_append, if_neg (List.findIdx_lt_length.not.mpr none_nearer),
      List.findIdx_cons, holds]
    simp
  obtain ⟨winner, won⟩ : ∃ winner, (system.hierarchy name).find? condition = some winner :=
    Option.isSome_iff_exists.mp
      (List.find?_isSome.mpr ⟨type, mem_hierarchy_of_typeAt? along, holds⟩)
  obtain ⟨best, first⟩ := exists_isFirst_of_find?_hierarchy won
  refine ⟨winner, won, fun same => ?_, fun precedes => ?_⟩
  · -- the least route of all leads to the type
    obtain rfl : winner = type := by
      have stored := get?_of_typeAt? first.leads
      rw [same, get?_of_typeAt? along] at stored
      exact (Option.some.inj stored).symm
    intro other otherType leads otherHolds _ differs
    exact ⟨best, first.leads, (shortlex_or_of_typeAt?_ne first.leads leads differs).resolve_right
      (first.least other otherType leads otherHolds)⟩
  · -- another winner is nearer than the chain leads, and then the type itself came before it
    by_contra renamed
    have differs : winner ≠ type := fun same => renamed (congrArg DeclaredType.name same)
    have shorter : best.length < nearer.length :=
      length_lt_of_shortlex_replicate <|
        (shortlex_or_of_typeAt?_ne along first.leads differs).resolve_left
          (first.least _ type along holds)
    obtain ⟨route, leads, before⟩ :=
      precedes best winner first.leads first.holds (position ▸ shorter) differs
    exact first.least route type leads holds before

theorem findSome?_eq_bind_find? {α β : Type} {items : List α} {pick : α → Option β}
    (condition : α → Bool) (same : ∀ item, (pick item).isSome = condition item) :
    items.findSome? pick = (items.find? condition).bind pick := by
  induction items with
  | nil => rfl
  | cons item items ih =>
      rw [List.findSome?_cons, List.find?_cons, ← same]
      cases picked : pick item with
      | none => exact ih
      | some => simp [picked]

/-- Where the superclass chain of a type declares a method, the method is found, and the reference
is keyed by the first type of the chain that declares it exactly if this type precedes the others
that do.  The same holds of setters. -/
theorem exists_findMethod_and_exists_findSetter (system : TypeSystem) (name : TypeName) :
    (∀ method parameters type,
      (system.superclassChain name).find? (·.Declares method parameters) = some type →
        ∃ winner : DeclaredType, winner.Declares method parameters ∧
          system.findMethod name method parameters =
            some (.ofMethod winner.name method parameters) ∧
          (winner.name = type.name ↔
            system.Precedes name (·.Declares method parameters) type)) ∧
    ∀ property type,
      (system.superclassChain name).find? (·.DeclaresSetter property) = some type →
        ∃ winner : DeclaredType, ∃ declared ∈ winner.methods, declared.IsSetter property ∧
          system.findSetter name property =
            some (.ofMethod winner.name (setterName property) declared.parameters) ∧
          (winner.name = type.name ↔ system.Precedes name (·.DeclaresSetter property) type) := by
  constructor
  · intro method parameters type found
    obtain ⟨winner, won, keyed⟩ := exists_find?_hierarchy found
    have declares : winner.Declares method parameters := by simpa using List.find?_some won
    refine ⟨winner, declares, ?_, keyed⟩
    obtain ⟨declared, here⟩ :=
      Option.isSome_iff_exists.mp (DeclaredType.isSome_method?.mpr declares)
    rw [findMethod, findSome?_eq_bind_find? (·.Declares method parameters), won,
      Option.bind_some, here, Option.map_some]
    intro candidate
    simp [Option.isSome_map, ← DeclaredType.isSome_method?]
  · intro property type found
    obtain ⟨winner, won, keyed⟩ := exists_find?_hierarchy found
    have declares : winner.DeclaresSetter property := by simpa using List.find?_some won
    obtain ⟨declared, here⟩ :=
      Option.isSome_iff_exists.mp (DeclaredType.isSome_setter?.mpr declares)
    obtain ⟨listed, isSetter⟩ := DeclaredType.isSetter_of_setter? here
    refine ⟨winner, declared, listed, isSetter, ?_, keyed⟩
    rw [findSetter, findSome?_eq_bind_find? (·.DeclaresSetter property), won,
      Option.bind_some, here, Option.map_some]
    intro candidate
    simp [Option.isSome_map, ← DeclaredType.isSome_setter?]

end TypeSystem

namespace Sample

/-- Method without parameters. -/
def runMethod : DeclaredMethod := ⟨"run", [], .void, .publicAccess, false, []⟩

/-- Type that declares the method if it is to. -/
def member (name : String) (declares : Bool) : DeclaredType :=
  classType name .publicAccess .publicAccess (if declares then [runMethod] else [])

/-- Bottom class of the family. -/
def leafType : DeclaredType :=
  { member "com.app.Leaf" false with
    superclass := some ⟨"com.app.Middle"⟩, interfaces := [⟨"com.app.Able"⟩] }

/-- Class in the middle of the family. -/
def middleType (declares : Bool) : DeclaredType :=
  { member "com.app.Middle" declares with superclass := some ⟨"com.app.Root"⟩ }

/-- Three generations of classes of which the last also has an interface.  The interface and the
first class declare the method, and the class in the middle may do so. -/
def family (declares : Bool) : TypeSystem :=
  .ofList [leafType, middleType declares, member "com.app.Root" true,
    { member "com.app.Able" true with kind := .interfaceType }]

theorem precedes_middleType :
    (family true).Precedes leafType.name (·.Declares "run" []) (middleType true) := by
  intro other otherType leads holds shorter
  have position : ((family true).superclassChain leafType.name).findIdx (·.Declares "run" []) = 1 :=
    by decide +kernel
  obtain rfl : other = [] := List.length_eq_zero_iff.mp (by omega)
  have stored : (family true).get? leafType.name = some leafType := by decide +kernel
  cases leads.symm.trans stored
  exact absurd holds (by decide +kernel)

end Sample

theorem TypeSystem.findMethod_family :
    (Sample.family true).findMethod Sample.leafType.name "run" [] =
      some (.ofMethod (Sample.middleType true).name "run" []) := by
  obtain ⟨winner, -, found, keyed⟩ :=
    (TypeSystem.exists_findMethod_and_exists_findSetter (Sample.family true) Sample.leafType.name).1
      "run" [] (Sample.middleType true) (by decide +kernel)
  rw [found, keyed.mpr Sample.precedes_middleType]

/-- The method of an interface is found ahead of the one of a superclass further up. -/
theorem TypeSystem.not_forall_findMethod :
    ¬ ∀ (system : TypeSystem) (name : TypeName) (method : String) (parameters : List TypeName)
        (type : DeclaredType),
      (system.superclassChain name).find? (·.Declares method parameters) = some type →
        system.findMethod name method parameters =
          some (.ofMethod type.name method parameters) := by
  intro walks
  have found := walks (Sample.family false) Sample.leafType.name "run" []
    (Sample.member "com.app.Root" true) (by decide +kernel)
  exact absurd found (by decide +kernel)

end Wiring
