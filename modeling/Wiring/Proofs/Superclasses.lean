import Mathlib.Data.List.Chain
import Mathlib.Logic.Relation
import Wiring.TypeSystem.Hierarchy

/-!
# Superclass links

Declarations name their superclasses, which need not be registered themselves.  The superclass chain
of a type lists exactly the registered types to which such links lead, also where the links run in a
circle.
-/

namespace Wiring
namespace TypeSystem

variable {system : TypeSystem} {name : TypeName} {type : DeclaredType}

/-- Whether the declaration of one type names another as its superclass. -/
def Extends (system : TypeSystem) (lower upper : TypeName) : Prop :=
  ∃ type, system.get? lower = some type ∧ type.superclass = some upper

/-- Whether a type is another one or has it among its superclasses, registered or not. -/
abbrev Inherits (system : TypeSystem) : TypeName → TypeName → Prop :=
  Relation.ReflTransGen system.Extends

theorem get?_of_get?_erase {other : TypeName}
    (found : (system.erase other).get? name = some type) :
    system.get? name = some type ∧ name ≠ other := by
  rw [get?_erase] at found
  split at found
  · cases found
  · exact ⟨found, ‹_›⟩

theorem Extends.of_erase {lower upper : TypeName} (link : (system.erase name).Extends lower upper) :
    system.Extends lower upper := by
  obtain ⟨type, found, named⟩ := link
  exact ⟨type, (get?_of_get?_erase found).1, named⟩

theorem superclassChain_of_absent (absent : system.get? name = none) :
    system.superclassChain name = [] := by
  rw [superclassChain]
  split
  next => rfl
  next found => exact absurd (absent.symm.trans found) (by simp)

/-- A registered type comes first, and the walk goes on without it at its superclass. -/
theorem superclassChain_of_found (found : system.get? name = some type) :
    system.superclassChain name =
      type :: type.superclass.toList.flatMap (system.erase name).superclassChain := by
  rw [superclassChain]
  split
  next absent => exact absurd (absent.symm.trans found) (by simp)
  next first first_found =>
    cases first_found.symm.trans found
    cases type.superclass <;> simp

/-- The chain of a registered type begins with the type. -/
theorem head?_superclassChain (system : TypeSystem) (name : TypeName) :
    (system.superclassChain name).head? = system.get? name := by
  cases found : system.get? name with
  | none => rw [superclassChain_of_absent found, List.head?_nil]
  | some type => rw [superclassChain_of_found found, List.head?_cons]

/-- Every type of the chain names the next one as its superclass. -/
theorem isChain_superclassChain (system : TypeSystem) (name : TypeName) :
    (system.superclassChain name).IsChain fun lower upper =>
      lower.superclass = some upper.name := by
  induction system, name using superclassChain.induct with
  | case1 system name absent =>
      rw [superclassChain_of_absent absent]
      exact .nil
  | case2 system name type found ih =>
      rw [superclassChain_of_found found]
      cases named : type.superclass with
      | none => exact .singleton type
      | some superclass =>
          rw [Option.toList_some, List.flatMap_singleton]
          refine List.isChain_cons.mpr ⟨fun next next_mem => ?_, ih superclass⟩
          rw [head?_superclassChain] at next_mem
          rw [named, name_of_get? (get?_of_get?_erase next_mem).1]

/-- Listed types are registered, and links lead to them. -/
theorem inherits_of_mem_superclassChain (mem : type ∈ system.superclassChain name) :
    system.Inherits name type.name ∧ system.get? type.name = some type := by
  induction system, name using superclassChain.induct with
  | case1 system name absent => simp [superclassChain_of_absent absent] at mem
  | case2 system name first found ih =>
      rw [superclassChain_of_found found] at mem
      rcases List.mem_cons.mp mem with rfl | mem
      · rw [name_of_get? found]
        exact ⟨.refl, found⟩
      · obtain ⟨superclass, named, mem⟩ := List.mem_flatMap.mp mem
        obtain ⟨above, stored⟩ := ih superclass mem
        exact ⟨.head ⟨first, found, Option.mem_toList.mp named⟩
          (Relation.ReflTransGen.mono (fun _ _ => Extends.of_erase) _ _ above),
          (get?_of_get?_erase stored).1⟩

theorem mem_superclassChain_self (found : system.get? name = some type) :
    type ∈ system.superclassChain name := by
  simp [superclassChain_of_found found]

/-- The registered superclass of a listed type is listed. -/
theorem mem_superclassChain_of_extends {upper : DeclaredType}
    (mem : type ∈ system.superclassChain name) {superclass : TypeName}
    (named : type.superclass = some superclass) (found : system.get? superclass = some upper) :
    upper ∈ system.superclassChain name := by
  induction system, name using superclassChain.induct with
  | case1 system name absent => simp [superclassChain_of_absent absent] at mem
  | case2 system name first first_found ih =>
      rw [superclassChain_of_found first_found] at mem ⊢
      by_cases same : superclass = name
      · -- the link leads back to the type that was listed and forgotten
        rw [same, first_found] at found
        cases found
        exact List.mem_cons_self
      · have kept : (system.erase name).get? superclass = some upper := by
          rw [get?_erase, if_neg same, found]
        refine List.mem_cons_of_mem _ (List.mem_flatMap.mpr ?_)
        rcases List.mem_cons.mp mem with rfl | mem
        · exact ⟨superclass, Option.mem_toList.mpr named, mem_superclassChain_self kept⟩
        · obtain ⟨next, next_named, mem⟩ := List.mem_flatMap.mp mem
          exact ⟨next, next_named, ih next mem kept⟩

theorem mem_superclassChain_of_inherits {upper : TypeName} (above : system.Inherits name upper)
    (found : system.get? upper = some type) : type ∈ system.superclassChain name := by
  induction above generalizing type with
  | refl => exact mem_superclassChain_self found
  | tail _ link ih =>
      obtain ⟨lower, lower_found, named⟩ := link
      exact mem_superclassChain_of_extends (ih lower_found) named found

/-- The superclass chain lists exactly the registered types to which superclass links lead. -/
theorem mem_superclassChain_iff :
    type ∈ system.superclassChain name ↔
      system.Inherits name type.name ∧ system.get? type.name = some type :=
  ⟨inherits_of_mem_superclassChain, fun ⟨above, found⟩ =>
    mem_superclassChain_of_inherits above found⟩

end TypeSystem
end Wiring
