import Wiring.Proofs.MemberLookup
import Wiring.Proofs.Superclasses
import Wiring.Proofs.SupertypeLinks

/-!
# Members of reached types

Looking up a method, a setter or a field finds one exactly if some registered type to which links
lead declares it, and the reference found names a nearest such type.  The look-ups by signature and
by name alone agree with each other.
-/

namespace Wiring

/-- Whether a type declares a method with the given name. -/
def DeclaredType.DeclaresNamed (type : DeclaredType) (name : String) : Prop :=
  ∃ declared ∈ type.methods, declared.name = name

/-- Whether a type declares a field with the given name. -/
def DeclaredType.DeclaresField (type : DeclaredType) (name : String) : Prop :=
  ∃ declared ∈ type.fields, declared.name = name

instance (type : DeclaredType) (name : String) : Decidable (type.DeclaresNamed name) :=
  inferInstanceAs (Decidable (∃ declared ∈ type.methods, declared.name = name))

instance (type : DeclaredType) (name : String) : Decidable (type.DeclaresField name) :=
  inferInstanceAs (Decidable (∃ declared ∈ type.fields, declared.name = name))

namespace DeclaredType

variable {type : DeclaredType} {name : String} {parameters : List TypeName}
  {declared : DeclaredMethod}

theorem hasSignature_of_method? (found : type.method? name parameters = some declared) :
    declared.HasSignature name parameters := by
  have holds := List.find?_some found
  simp only [Bool.and_eq_true, beq_iff_eq] at holds
  exact ⟨holds.1, holds.2⟩

theorem exists_method?_iff :
    (∃ declared, type.method? name parameters = some declared) ↔ type.Declares name parameters := by
  rw [← Option.isSome_iff_exists, isSome_method?]

theorem isSome_methodNamed? : (type.methodNamed? name).isSome ↔ type.DeclaresNamed name := by
  simp only [methodNamed?, List.find?_isSome, DeclaresNamed, beq_iff_eq]

theorem name_of_methodNamed? (found : type.methodNamed? name = some declared) :
    declared ∈ type.methods ∧ declared.name = name :=
  ⟨List.mem_of_find?_eq_some found, by simpa using List.find?_some found⟩

theorem isSome_field? : (type.field? name).isSome ↔ type.DeclaresField name := by
  simp only [field?, List.find?_isSome, DeclaresField, beq_iff_eq]

end DeclaredType

namespace TypeSystem

variable {system : TypeSystem} {name : TypeName} {method property field : String}
  {parameters : List TypeName} {found : Executable}

section Search

variable {α : Type} {pick : DeclaredType → Option α} {condition : DeclaredType → Prop} {result : α}

/-- The hierarchy of a type has a hit exactly if a reached type is one. -/
theorem exists_findSome?_hierarchy_iff
    (isHit : ∀ type, (pick type).isSome = true ↔ condition type) :
    (∃ result, (system.hierarchy name).findSome? pick = some result) ↔
      ∃ type, system.Reaches name type ∧ condition type := by
  rw [← Option.isSome_iff_exists, List.findSome?_isSome_iff]
  simp only [mem_hierarchy_iff, isHit]

/-- The first hit of the hierarchy is a nearest one. -/
theorem isNearest_of_findSome?_hierarchy
    (isHit : ∀ type, (pick type).isSome = true ↔ condition type)
    (hit : (system.hierarchy name).findSome? pick = some result) :
    ∃ type, pick type = some result ∧ system.IsNearest name condition type := by
  rw [findSome?_eq_bind_find? (fun type => (pick type).isSome) fun _ => rfl] at hit
  obtain ⟨type, first, picked⟩ := Option.bind_eq_some_iff.mp hit
  have nearest := isNearest_of_find?_hierarchy first
  simp only [isHit] at nearest
  exact ⟨type, picked, nearest⟩

end Search

/-! ### Methods by signature -/

theorem isSome_map_method? (type : DeclaredType) :
    ((type.method? method parameters).map
      fun _ => Executable.ofMethod type.name method parameters).isSome = true ↔
      type.Declares method parameters := by
  rw [Option.isSome_map, DeclaredType.isSome_method?]

theorem isNearest_of_findMethod (hit : system.findMethod name method parameters = some found) :
    ∃ type, system.IsNearest name (·.Declares method parameters) type ∧
      found = .ofMethod type.name method parameters := by
  obtain ⟨type, picked, nearest⟩ := isNearest_of_findSome?_hierarchy isSome_map_method? hit
  obtain ⟨declared, -, rfl⟩ := Option.map_eq_some_iff.mp picked
  exact ⟨type, nearest, rfl⟩

theorem methodInfo_ofMethod {type : DeclaredType} (registered : system.get? type.name = some type) :
    system.methodInfo (.ofMethod type.name method parameters) = type.method? method parameters := by
  simp only [methodInfo, Executable.ofMethod, registered, Option.bind_some]

/-! ### Methods by name -/

theorem isSome_map_methodNamed? (type : DeclaredType) :
    ((type.methodNamed? method).map
      fun declared => Executable.ofMethod type.name method declared.parameters).isSome = true ↔
      type.DeclaresNamed method := by
  rw [Option.isSome_map, DeclaredType.isSome_methodNamed?]

/-- A method found by its name alone is found by its signature too. -/
theorem findMethod_of_findMethodNamed (hit : system.findMethodNamed name method = some found) :
    system.findMethod name method found.parameters = some found := by
  obtain ⟨nearer, type, farther, listed, picked, misses⟩ := List.findSome?_eq_some_iff.mp hit
  obtain ⟨declared, first, rfl⟩ := Option.map_eq_some_iff.mp picked
  obtain ⟨mem, named⟩ := DeclaredType.name_of_methodNamed? first
  refine List.findSome?_eq_some_iff.mpr ⟨nearer, type, farther, listed, ?_, fun lower before => ?_⟩
  · obtain ⟨same, stored⟩ := DeclaredType.exists_method?_iff.mpr ⟨declared, mem, named, rfl⟩
    exact Option.map_eq_some_iff.mpr ⟨same, stored, rfl⟩
  · -- a nearer type would have been hit by the name already
    have unnamed : ¬ lower.DeclaresNamed method := by
      rw [← isSome_map_methodNamed?, misses lower before]
      exact Bool.false_ne_true
    rw [← Option.not_isSome_iff_eq_none, isSome_map_method?]
    rintro ⟨other, other_mem, signature⟩
    exact unnamed ⟨other, other_mem, signature.name⟩

/-! ### Setters and fields -/

theorem isSome_map_setter? (type : DeclaredType) :
    ((type.setter? property).map fun declared =>
      Executable.ofMethod type.name (setterName property) declared.parameters).isSome = true ↔
      type.DeclaresSetter property := by
  rw [Option.isSome_map, DeclaredType.isSome_setter?]

theorem isNearest_of_findSetter (hit : system.findSetter name property = some found) :
    ∃ type, system.IsNearest name (·.DeclaresSetter property) type ∧
      ∃ declared ∈ type.methods, declared.IsSetter property ∧
        found = .ofMethod type.name declared.name declared.parameters := by
  obtain ⟨type, picked, nearest⟩ := isNearest_of_findSome?_hierarchy isSome_map_setter? hit
  obtain ⟨declared, first, rfl⟩ := Option.map_eq_some_iff.mp picked
  obtain ⟨mem, isSetter⟩ := DeclaredType.isSetter_of_setter? first
  exact ⟨type, nearest, declared, mem, isSetter, by rw [isSetter.name]⟩

theorem first_of_findField {reference : Field}
    (hit : system.findField name field = some reference) :
    ∃ nearer type farther, system.superclassChain name = nearer ++ type :: farther ∧
      type.DeclaresField field ∧ (∀ lower ∈ nearer, ¬ lower.DeclaresField field) ∧
      reference = ⟨type.name, field⟩ := by
  obtain ⟨nearer, type, farther, listed, picked, misses⟩ := List.findSome?_eq_some_iff.mp hit
  obtain ⟨declared, stored, rfl⟩ := Option.map_eq_some_iff.mp picked
  refine ⟨nearer, type, farther, listed, ?_, fun lower before => ?_, rfl⟩
  · exact DeclaredType.isSome_field?.mp (Option.isSome_iff_exists.mpr ⟨declared, stored⟩)
  · rw [← DeclaredType.isSome_field?, Option.map_eq_none_iff.mp (misses lower before)]
    exact Bool.false_ne_true

theorem exists_findField_iff :
    (∃ reference, system.findField name field = some reference) ↔
      ∃ type ∈ system.superclassChain name, type.DeclaresField field := by
  rw [← Option.isSome_iff_exists, findField, List.findSome?_isSome_iff]
  simp only [Option.isSome_map, DeclaredType.isSome_field?]

/-! ### All look-ups -/

/-- Look-up by signature finds a method of a nearest reached type that declares it. -/
structure FindsMethods (system : TypeSystem) (name : TypeName) : Prop where
  /-- A method is found exactly if a reached type declares it. -/
  found_iff : ∀ method parameters,
    (∃ found, system.findMethod name method parameters = some found) ↔
      ∃ type, system.Reaches name type ∧ type.Declares method parameters
  /-- The reference names a nearest type that declares the method. -/
  nearest : ∀ method parameters found, system.findMethod name method parameters = some found →
    ∃ type, system.IsNearest name (·.Declares method parameters) type ∧
      found = .ofMethod type.name method parameters
  /-- The reference has a declaration with the signature looked up. -/
  described : ∀ method parameters found, system.findMethod name method parameters = some found →
    ∃ declared, system.methodInfo found = some declared ∧ declared.HasSignature method parameters

/-- Look-up by name alone agrees with look-up by signature. -/
structure FindsNamedMethods (system : TypeSystem) (name : TypeName) : Prop where
  /-- What is found is also found by its signature. -/
  agrees : ∀ method found, system.findMethodNamed name method = some found →
    system.findMethod name method found.parameters = some found
  /-- Nothing is found exactly if no reached type declares a method of the name. -/
  none_iff : ∀ method, system.findMethodNamed name method = none ↔
    ∀ type, system.Reaches name type → ¬ type.DeclaresNamed method

/-- Look-up of setters finds an instance method of one parameter of a nearest reached type. -/
structure FindsSetters (system : TypeSystem) (name : TypeName) : Prop where
  /-- A setter is found exactly if a reached type declares one. -/
  found_iff : ∀ property, (∃ found, system.findSetter name property = some found) ↔
    ∃ type, system.Reaches name type ∧ type.DeclaresSetter property
  /-- The reference names a setter that its declaring type declares. -/
  nearest : ∀ property found, system.findSetter name property = some found →
    ∃ type, system.IsNearest name (·.DeclaresSetter property) type ∧
      ∃ declared ∈ type.methods, declared.IsSetter property ∧
        found = .ofMethod type.name declared.name declared.parameters

/-- Look-up of fields finds the first type of the superclass chain that declares the field. -/
structure FindsFields (system : TypeSystem) (name : TypeName) : Prop where
  /-- The chain begins with the type itself, if it is registered. -/
  begins : (system.superclassChain name).head? = system.get? name
  /-- Every type of the chain names the next one as its superclass. -/
  linked : (system.superclassChain name).IsChain fun lower upper =>
    lower.superclass = some upper.name
  /-- The chain lists the registered types to which superclass links lead. -/
  chain_iff : ∀ type, type ∈ system.superclassChain name ↔
    system.Inherits name type.name ∧ system.get? type.name = some type
  /-- A field is found exactly if a registered type to which superclass links lead declares it. -/
  found_iff : ∀ field, (∃ reference, system.findField name field = some reference) ↔
    ∃ type, (system.Inherits name type.name ∧ system.get? type.name = some type) ∧
      type.DeclaresField field
  /-- The reference names the first type of the chain that declares the field. -/
  first : ∀ field reference, system.findField name field = some reference →
    ∃ nearer type farther, system.superclassChain name = nearer ++ type :: farther ∧
      type.DeclaresField field ∧ (∀ lower ∈ nearer, ¬ lower.DeclaresField field) ∧
      reference = ⟨type.name, field⟩

theorem findsMethods (system : TypeSystem) (name : TypeName) : system.FindsMethods name where
  found_iff _ _ := exists_findSome?_hierarchy_iff isSome_map_method?
  nearest _ _ _ := isNearest_of_findMethod
  described method parameters found hit := by
    obtain ⟨type, nearest, rfl⟩ := isNearest_of_findMethod hit
    obtain ⟨declared, stored⟩ := DeclaredType.exists_method?_iff.mpr nearest.holds
    exact ⟨declared, (methodInfo_ofMethod nearest.reaches.registered).trans stored,
      DeclaredType.hasSignature_of_method? stored⟩

theorem findsNamedMethods (system : TypeSystem) (name : TypeName) :
    system.FindsNamedMethods name where
  agrees _ _ := findMethod_of_findMethodNamed
  none_iff method := by
    have found_iff : (∃ found, system.findMethodNamed name method = some found) ↔
        ∃ type, system.Reaches name type ∧ type.DeclaresNamed method :=
      exists_findSome?_hierarchy_iff isSome_map_methodNamed?
    rw [← Option.not_isSome_iff_eq_none, Option.isSome_iff_exists, found_iff]
    simp only [not_exists, not_and]

theorem findsSetters (system : TypeSystem) (name : TypeName) : system.FindsSetters name where
  found_iff _ := exists_findSome?_hierarchy_iff isSome_map_setter?
  nearest _ _ := isNearest_of_findSetter

theorem findsFields (system : TypeSystem) (name : TypeName) : system.FindsFields name where
  begins := system.head?_superclassChain name
  linked := system.isChain_superclassChain name
  chain_iff _ := mem_superclassChain_iff
  found_iff _ := by simp only [exists_findField_iff, mem_superclassChain_iff]
  first _ _ := first_of_findField

/-- On every type system, circles and unregistered supertypes included, members are found exactly
where reached types declare them. -/
theorem finds_reached_members (system : TypeSystem) (name : TypeName) :
    system.FindsMethods name ∧ system.FindsNamedMethods name ∧ system.FindsSetters name ∧
      system.FindsFields name :=
  ⟨system.findsMethods name, system.findsNamedMethods name, system.findsSetters name,
    system.findsFields name⟩

end TypeSystem

theorem TypeSystem.finds_reached_members_circle :
    Sample.circle.findMethodNamed ⟨"com.app.Left"⟩ "run" =
        some (.ofMethod ⟨"com.app.Able"⟩ "run" [.string]) ∧
      Sample.circle.findMethod ⟨"com.app.Left"⟩ "run" [.string] =
        some (.ofMethod ⟨"com.app.Able"⟩ "run" [.string]) ∧
      ∃ declared,
        Sample.circle.methodInfo (.ofMethod ⟨"com.app.Able"⟩ "run" [.string]) = some declared ∧
          declared.HasSignature "run" [.string] := by
  have named : Sample.circle.findMethodNamed ⟨"com.app.Left"⟩ "run" =
      some (.ofMethod ⟨"com.app.Able"⟩ "run" [.string]) := by decide +kernel
  obtain ⟨methods, namedMethods, -, -⟩ :=
    TypeSystem.finds_reached_members Sample.circle ⟨"com.app.Left"⟩
  have found := namedMethods.agrees _ _ named
  exact ⟨named, found, methods.described _ _ _ found⟩

end Wiring
