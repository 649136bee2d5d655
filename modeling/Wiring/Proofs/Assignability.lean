import Wiring.Proofs.SupertypeLinks
import Wiring.TypeSystem.Lookup

/-!
# Assignable types

A value can be assigned to its own type, to the type of all objects, and to every type to which the
supertype links of declarations lead, registered or not.  Unless the type of all objects has
supertypes of its own, assignability is therefore a preorder, and further declarations only add to
it.
-/

namespace Wiring
namespace TypeSystem

variable {system : TypeSystem} {source target lower upper : TypeName} {type : DeclaredType}

/-- Links to a type are none, or come last from a type of the hierarchy that names it. -/
theorem transGen_links_iff :
    Relation.TransGen system.Links source target ↔
      ∃ type ∈ system.hierarchy source, target ∈ type.supertypes := by
  rw [Relation.TransGen.tail'_iff]
  constructor
  · rintro ⟨lower, linked, type, found, named⟩
    have same := name_of_get? found
    refine ⟨type, mem_hierarchy_iff.mpr ⟨?_, ?_⟩, mem_supertypes_iff.mpr named⟩
    · rw [same, found]
    · rwa [same]
  · rintro ⟨type, mem, named⟩
    obtain ⟨registered, linked⟩ := mem_hierarchy_iff.mp mem
    exact ⟨type.name, linked, (links_iff_of_found registered).mpr named⟩

/-- Assignability is what the declared links say. -/
theorem isAssignable_iff :
    system.isAssignable source target = true ↔
      source = target ∨ target = .object ∨ Relation.TransGen system.Links source target := by
  have hits : (system.hierarchy source).any
      (fun type => type.name == target || type.supertypes.contains target) = true ↔
      (∃ type ∈ system.hierarchy source, type.name = target) ∨
        Relation.TransGen system.Links source target := by
    rw [transGen_links_iff, List.any_eq_true]
    simp only [Bool.or_eq_true, beq_iff_eq, List.contains_iff_mem, and_or_left, exists_or]
  rw [isAssignable, Bool.or_eq_true, Bool.or_eq_true, beq_iff_eq, beq_iff_eq, hits, or_assoc]
  constructor
  · rintro (same | object | ⟨type, mem, rfl⟩ | linked)
    · exact .inl same
    · exact .inr (.inl object)
    · -- links to a listed type are none at all or some
      rcases Relation.reflTransGen_iff_eq_or_transGen.mp (mem_hierarchy_iff.mp mem).linked with
        same | linked
      · exact .inl same.symm
      · exact .inr (.inr linked)
    · exact .inr (.inr linked)
  · rintro (same | object | linked)
    · exact .inl same
    · exact .inr (.inl object)
    · exact .inr (.inr (.inr linked))

theorem isAssignable_refl (system : TypeSystem) (type : TypeName) :
    system.isAssignable type type = true :=
  isAssignable_iff.mpr (.inl rfl)

/-- Links that lead to the type of all objects lead nowhere else if it names no supertype. -/
theorem isAssignable_trans (top : ∀ upper, ¬ system.Links .object upper) {middle : TypeName}
    (first : system.isAssignable source middle = true)
    (second : system.isAssignable middle target = true) :
    system.isAssignable source target = true := by
  rw [isAssignable_iff] at *
  rcases second with rfl | object | above
  · exact first
  · exact .inr (.inl object)
  · rcases first with rfl | rfl | below
    · exact .inr (.inr above)
    · obtain ⟨upper, link, -⟩ := Relation.TransGen.head'_iff.mp above
      exact absurd link (top upper)
    · exact .inr (.inr (below.trans above))

theorem Links.register (absent : system.get? type.name = none)
    (link : system.Links lower upper) : (system.register type).Links lower upper := by
  obtain ⟨declared, found, named⟩ := link
  refine ⟨declared, ?_, named⟩
  rw [get?_register, if_neg, found]
  rintro rfl
  rw [absent] at found
  cases found

/-- Whether assignability is a preorder. -/
structure OrdersAssignments (system : TypeSystem) : Prop where
  /-- Every type can be assigned to itself. -/
  refl : ∀ type, system.isAssignable type type = true
  /-- Assignments follow one another. -/
  trans : ∀ source middle target, system.isAssignable source middle = true →
    system.isAssignable middle target = true → system.isAssignable source target = true

/-- Assignability is the declared subtype relation, which is a preorder unless the type of all
objects has supertypes of its own, and to which the declaration of a new name only adds. -/
theorem isAssignable_follows_links (system : TypeSystem) :
    (∀ source target, system.isAssignable source target = true ↔
        source = target ∨ target = .object ∨ Relation.TransGen system.Links source target) ∧
      ((∀ upper, ¬ system.Links .object upper) → system.OrdersAssignments) ∧
      ∀ type, system.get? type.name = none → ∀ source target,
        system.isAssignable source target = true →
          (system.register type).isAssignable source target = true := by
  refine ⟨fun source target => isAssignable_iff, fun top => ?_, fun type absent => ?_⟩
  · exact ⟨isAssignable_refl system, fun _ _ _ => isAssignable_trans top⟩
  · intro source target assignable
    rw [isAssignable_iff] at assignable ⊢
    exact assignable.imp_right (Or.imp_right fun linked =>
      Relation.TransGen.mono (fun _ _ => Links.register absent) _ _ linked)

end TypeSystem

namespace Sample

theorem circle_links_object (upper : TypeName) : ¬ circle.Links .object upper := by
  rintro ⟨type, found, -⟩
  have absent : circle.get? .object = none := by decide +kernel
  rw [absent] at found
  cases found

end Sample

theorem TypeSystem.isAssignable_circle :
    (∀ upper, ¬ Sample.circle.Links .object upper) ∧
      Sample.circle.isAssignable ⟨"com.app.Left"⟩ ⟨"com.lib.Open"⟩ = true ∧
      Sample.circle.isAssignable ⟨"com.app.Right"⟩ ⟨"com.lib.Open"⟩ = true ∧
      (Sample.circle.register (Sample.linkedType "com.lib.Open" none [] [])).isAssignable
        ⟨"com.app.Right"⟩ ⟨"com.lib.Open"⟩ = true := by
  obtain ⟨links, orders, grows⟩ := TypeSystem.isAssignable_follows_links Sample.circle
  have left : Sample.circle.isAssignable ⟨"com.app.Left"⟩ ⟨"com.lib.Open"⟩ = true :=
    (links _ _).mpr (.inr (.inr (.single ⟨_, rfl, .inr (by decide)⟩)))
  have right : Sample.circle.isAssignable ⟨"com.app.Right"⟩ ⟨"com.lib.Open"⟩ = true :=
    (orders Sample.circle_links_object).trans _ ⟨"com.app.Left"⟩ _ (by decide +kernel) left
  exact ⟨Sample.circle_links_object, left, right, grows _ (by decide +kernel) _ _ right⟩

end Wiring
