import Wiring.Proofs.HonouredValues

/-!
# Host packages

A registration stands in the class of one package, and this package is chosen from the declared
type and the type of the instances: the first of them that is not public decides.  The package then
sees both types, unless they are hidden in two different packages, which no package sees at once.
-/

namespace Wiring

/-- Whether code of a package can name a type: it is public or belongs to the package. -/
def TypeSystem.IsSeenFrom (system : TypeSystem) (type : TypeName) (package : String) : Prop :=
  (system.visibility type).isPublic ∨ type.package = package

namespace Component

/-- Whether code of a package can name the declared type and the type of the instances. -/
def IsSeenFrom (component : Component) (package : String) : Prop :=
  component.types.IsSeenFrom component.beanType package ∧
    component.types.IsSeenFrom component.producedType package

/-- Whether the declared type and the type of the instances are hidden in different packages. -/
def HidesApart (component : Component) : Prop :=
  ¬ (component.types.visibility component.beanType).isPublic ∧
    ¬ (component.types.visibility component.producedType).isPublic ∧
    component.beanType.package ≠ component.producedType.package

instance (component : Component) : Decidable component.HidesApart :=
  inferInstanceAs (Decidable (_ ∧ _ ∧ _))

/-- Types hidden in different packages are not seen from any package. -/
theorem HidesApart.not_isSeenFrom {component : Component} (apart : component.HidesApart)
    (package : String) : ¬ component.IsSeenFrom package := by
  rintro ⟨declared, produced⟩
  obtain ⟨hidden, hidden', differ⟩ := apart
  exact differ ((declared.resolve_left hidden).trans (produced.resolve_left hidden').symm)

theorem getD_beanClass (component : Component) :
    component.definition.beanClass.getD component.beanType = component.beanType := by
  unfold beanType
  cases component.definition.beanClass <;> rfl

/-- A factory method makes what its declaration returns, and the declared type if it has none. -/
theorem producedType_of_factory {component : Component} {source : InstanceSource}
    (made : component.definition.instanceSource = some source)
    (factory : ∀ constructor, source ≠ .constructor constructor) :
    component.producedType =
      ((component.types.methodInfo source.executable).map (·.returnType)).getD
        component.beanType := by
  have returned (method : Executable) :
      (((component.types.methodInfo method).map (·.returnType)) <|>
        component.definition.beanClass).getD component.beanType =
        ((component.types.methodInfo method).map (·.returnType)).getD component.beanType := by
    cases component.types.methodInfo method with
    | none => exact component.getD_beanClass
    | some declared => rfl
  cases source with
  | constructor constructor => exact absurd rfl (factory constructor)
  | factoryMethod owner method =>
      rw [← returned, producedType, Container.producedType, made]
      rfl
  | staticFactoryMethod method =>
      rw [← returned, producedType, Container.producedType, made]
      rfl

/-- Only a factory method whose declaration is known makes instances of a type hidden apart. -/
theorem HidesApart.exists_factory {component : Component} (apart : component.HidesApart) :
    ∃ source declared, component.definition.instanceSource = some source ∧
      (∀ constructor, source ≠ .constructor constructor) ∧
      component.types.methodInfo source.executable = some declared ∧
      declared.returnType = component.producedType := by
  have differ : component.producedType ≠ component.beanType := fun same =>
    apart.2.2 (by rw [same])
  cases made : component.definition.instanceSource with
  | none => simp [producedType, Container.producedType, made, getD_beanClass] at differ
  | some source =>
      have factory : ∀ constructor, source ≠ .constructor constructor := by
        rintro constructor rfl
        simp [producedType, Container.producedType, made, getD_beanClass] at differ
      have produced := producedType_of_factory made factory
      cases known : component.types.methodInfo source.executable with
      | none => exact absurd (by rw [produced, known]; rfl) differ
      | some declared => exact ⟨source, declared, rfl, factory, known, by rw [produced, known]; rfl⟩

/-- The target package sees both types unless no package does. -/
theorem isSeenFrom_targetPackage_iff (component : Component) (main : String) :
    component.IsSeenFrom (component.targetPackage main) ↔ ¬ component.HidesApart := by
  refine ⟨fun seen apart => apart.not_isSeenFrom _ seen, fun together => ?_⟩
  by_cases declared : (component.types.visibility component.beanType).isPublic
  · by_cases produced : (component.types.visibility component.producedType).isPublic
    · exact ⟨.inl declared, .inl produced⟩
    · have target : component.targetPackage main = component.producedType.package := by
        simp [targetPackage, declared, produced]
      exact ⟨.inl declared, .inr target.symm⟩
  · have target : component.targetPackage main = component.beanType.package := by
      simp [targetPackage, declared]
    refine ⟨.inr target.symm, ?_⟩
    by_cases produced : (component.types.visibility component.producedType).isPublic
    · exact .inl produced
    · exact .inr (by_contra fun differ =>
        together ⟨declared, produced, fun same => differ (same.symm.trans target.symm)⟩)

/-- A written registration stands in the class of a package, which sees both types of the component
unless they are hidden in different packages. -/
theorem exists_hosts_of_write (component : Component) (draft : Draft)
    (succeeds : (component.write draft).problem? = none) :
    ∃ creator block package, component.creator? = some creator ∧
      component.registration package creator = .ok block ∧
      draft.Hosts (component.write draft).draft block package ∧
      (component.IsSeenFrom package ↔ ¬ component.HidesApart) := by
  obtain ⟨creator, resolved, no_problem, block, coded⟩ := problem?_write_eq_none_iff.mp succeeds
  exact ⟨creator, block, component.targetPackage draft.package, resolved, coded,
    hosts_of_registration draft resolved no_problem coded,
    component.isSeenFrom_targetPackage_iff draft.package⟩

end Component

namespace Sample

/-- Component of a class that is hidden in its package and whose static factory method returns a
protected type nested in its superclass. -/
def made (product : TypeName) : Component where
  container :=
    { container with
      types := .ofList
        [⟨product, .classType, .protectedAccess, none, [], [], [], [], []⟩,
          { classType "com.acme.Holder" .packageAccess .publicAccess
              [⟨"make", [], product, .packageAccess, true, []⟩] with
            superclass := some product.topLevel }] }
  name := "product"
  definition :=
    { definition "com.acme.Holder" .declared [] none with
      instanceSource := some (.staticFactoryMethod (.ofMethod ⟨"com.acme.Holder"⟩ "make" [])) }

theorem hidesApart_made : (made ⟨"com.other.Outer$Product"⟩).HidesApart := by
  decide +kernel

end Sample

theorem Component.exists_hosts_sample :
    ∃ block package,
      Sample.blank.Hosts ((Sample.made ⟨"com.acme.Outer$Product"⟩).write Sample.blank).draft block
        package ∧ (Sample.made ⟨"com.acme.Outer$Product"⟩).IsSeenFrom package := by
  obtain ⟨creator, block, package, -, -, hosts, seen⟩ :=
    Component.exists_hosts_of_write (Sample.made ⟨"com.acme.Outer$Product"⟩) Sample.blank
      (by decide +kernel)
  exact ⟨block, package, hosts, seen.mpr (by decide +kernel)⟩

/-- A component may be written although no package sees its types. -/
theorem Component.not_forall_isSeenFrom :
    ¬ ∀ (component : Component) (draft : Draft), (component.write draft).problem? = none →
      ∃ block package, draft.Hosts (component.write draft).draft block package ∧
        component.IsSeenFrom package := by
  intro sees
  obtain ⟨block, package, -, seen⟩ :=
    sees (Sample.made ⟨"com.other.Outer$Product"⟩) Sample.blank (by decide +kernel)
  exact Sample.hidesApart_made.not_isSeenFrom package seen

end Wiring
