import Mathlib.Data.List.Nodup
import Mathlib.Data.List.Perm.Basic
import Wiring.Proofs.BreadthFirst
import Wiring.Registration.Writer

/-!
# Reordered constructors

Type systems may differ in the order in which their types list constructors.  Look-ups of methods do
not see constructors at all, no rule of the choice of a creator takes the first of several
constructors, and a component is therefore written in the same way for both type systems.
-/

namespace Wiring

/-- Whether a declaration differs from another one only in the order of its constructors. -/
def DeclaredType.ReordersConstructorsOf (reordered type : DeclaredType) : Prop :=
  ∃ constructors, constructors.Perm type.constructors ∧ reordered = { type with constructors }

/-- Whether the declarations of a type system differ from those of another one only in the order of
their constructors. -/
def TypeSystem.ReordersConstructorsOf (reordered system : TypeSystem) : Prop :=
  ∀ name, Option.Rel DeclaredType.ReordersConstructorsOf (reordered.get? name) (system.get? name)

namespace TypeSystem

/-- Replacing a declaration by one with reordered constructors reorders the type system. -/
theorem reordersConstructorsOf_register {system : TypeSystem} {reordered type : DeclaredType}
    (found : system.get? reordered.name = some type)
    (reorders : reordered.ReordersConstructorsOf type) :
    (system.register reordered).ReordersConstructorsOf system := by
  intro name
  rw [get?_register]
  split
  next same =>
    rw [same, found]
    exact .some reorders
  next other =>
    cases system.get? name with
    | none => exact .none
    | some type => exact .some ⟨type.constructors, .refl _, rfl⟩

namespace ReordersConstructorsOf

variable {reordered system : TypeSystem} (reorders : reordered.ReordersConstructorsOf system)

include reorders

theorem erase (name : TypeName) :
    (reordered.erase name).ReordersConstructorsOf (system.erase name) := by
  intro other
  rw [get?_erase, get?_erase]
  split
  · exact .none
  · exact reorders other

/-- What does not look at constructors finds the same in a registered type. -/
theorem bind_get?_eq {α : Type} {view : DeclaredType → Option α}
    (blind : ∀ type constructors, view { type with constructors } = view type) (name : TypeName) :
    (reordered.get? name).bind view = (system.get? name).bind view :=
  match reordered.get? name, system.get? name, reorders name with
  | _, _, .none => rfl
  | _, _, .some ⟨constructors, _, rfl⟩ => blind _ constructors

theorem map_get?_eq {α : Type} {view : DeclaredType → α}
    (blind : ∀ type constructors, view { type with constructors } = view type) (name : TypeName) :
    (reordered.get? name).map view = (system.get? name).map view := by
  rw [Option.map_eq_bind, Option.map_eq_bind]
  refine reorders.bind_get?_eq (fun type constructors => ?_) name
  exact congrArg some (blind type constructors)

theorem contains_eq (name : TypeName) :
    reordered.contains name = system.contains name := by
  have registered : (reordered.get? name).map (fun _ => ()) = (system.get? name).map fun _ => () :=
    reorders.map_get?_eq (fun _ _ => rfl) name
  have same := congrArg Option.isSome registered
  rwa [Option.isSome_map, Option.isSome_map] at same

theorem kind_eq (name : TypeName) : reordered.kind name = system.kind name := by
  rw [kind, kind, reorders.map_get?_eq (fun _ _ => rfl) name]

theorem visibility_eq (name : TypeName) : reordered.visibility name = system.visibility name := by
  rw [visibility, visibility, reorders.map_get?_eq (fun _ _ => rfl) name]

theorem methodInfo_eq (executable : Executable) :
    reordered.methodInfo executable = system.methodInfo executable := by
  unfold methodInfo
  split
  · rfl
  · exact reorders.bind_get?_eq (fun _ _ => rfl) _

/-- The walk along supertypes passes the same types but for their constructors. -/
theorem map_reachable_eq {α : Type} {view : DeclaredType → α}
    (blind : ∀ type constructors, view { type with constructors } = view type)
    (queue : List TypeName) :
    (reordered.reachable queue).map view = (system.reachable queue).map view := by
  -- forgetting the type that was passed leaves the rest of both type systems related
  induction system, queue using reachable_induction generalizing reordered with
  | nil system => rw [reachable_nil, reachable_nil]
  | absent system name rest absent ih =>
      have absent' : reordered.get? name = none := by
        have related := reorders name
        rw [absent] at related
        generalize reordered.get? name = type? at related ⊢
        cases related
        rfl
      rw [reachable_cons_of_absent absent, reachable_cons_of_absent absent', ih reorders]
  | found system name rest type found ih =>
      obtain ⟨constructors, found'⟩ :
          ∃ constructors, reordered.get? name = some { type with constructors } := by
        have related := reorders name
        rw [found] at related
        generalize reordered.get? name = type? at related ⊢
        obtain ⟨constructors, -, rfl⟩ := related
        exact ⟨constructors, rfl⟩
      rw [reachable_cons_of_found found, reachable_cons_of_found found', List.map_cons,
        List.map_cons, blind, ← ih (reorders.erase name)]
      rfl

theorem findSome?_hierarchy_eq {α : Type} {pick : DeclaredType → Option α}
    (blind : ∀ type constructors, pick { type with constructors } = pick type) (name : TypeName) :
    (reordered.hierarchy name).findSome? pick = (system.hierarchy name).findSome? pick := by
  have same := congrArg (List.findSome? id) (reorders.map_reachable_eq blind [name])
  rwa [List.findSome?_map, List.findSome?_map] at same

theorem findMethod_eq (name : TypeName) (method : String) (parameters : List TypeName) :
    reordered.findMethod name method parameters = system.findMethod name method parameters :=
  reorders.findSome?_hierarchy_eq (fun _ _ => rfl) name

theorem findSetter_eq (name : TypeName) (property : String) :
    reordered.findSetter name property = system.findSetter name property :=
  reorders.findSome?_hierarchy_eq (fun _ _ => rfl) name

theorem isAssignable_eq (source target : TypeName) :
    reordered.isAssignable source target = system.isAssignable source target := by
  let fits (type : DeclaredType) : Bool := type.name == target || type.supertypes.contains target
  have blind : ∀ type constructors, fits { type with constructors } = fits type := fun _ _ => rfl
  have same := congrArg (fun found => List.any found id) (reorders.map_reachable_eq blind [source])
  rw [List.any_map, List.any_map] at same
  exact congrArg (source == target || target == .object || ·) same

/-- The constructors of a type are the same in some order, implicit ones included. -/
theorem constructors_perm (name : TypeName) :
    (reordered.constructors name).Perm (system.constructors name) := by
  unfold constructors
  match reordered.get? name, system.get? name, reorders name with
  | _, _, .none => exact .refl _
  | _, some type, .some ⟨constructors, perm, rfl⟩ =>
      have none_iff : constructors.isEmpty = type.constructors.isEmpty := perm.isEmpty_eq
      dsimp only
      rw [none_iff]
      split
      · exact .refl _
      · exact perm

end ReordersConstructorsOf

/-- Different parameters tell the constructors of a list apart. -/
theorem find?_parameters_eq_some_iff {constructors : List DeclaredConstructor}
    (distinct : (constructors.map (·.parameters)).Nodup) {parameters : List TypeName}
    {declared : DeclaredConstructor} :
    constructors.find? (·.parameters == parameters) = some declared ↔
      declared ∈ constructors ∧ declared.parameters = parameters := by
  constructor
  · intro found
    exact ⟨List.mem_of_find?_eq_some found, by simpa using List.find?_some found⟩
  · rintro ⟨mem, rfl⟩
    cases found : constructors.find? (·.parameters == declared.parameters) with
    | none => exact absurd (List.find?_eq_none.mp found declared mem) (by simp)
    | some other =>
        have same : other.parameters = declared.parameters := by simpa using List.find?_some found
        rw [List.inj_on_of_nodup_map distinct (List.mem_of_find?_eq_some found) mem same]

namespace ReordersConstructorsOf

variable {reordered system : TypeSystem} {executable : Executable}
  (reorders : reordered.ReordersConstructorsOf system)
  (distinct : executable.kind = .constructor →
    ((system.constructors executable.declaringType).map (·.parameters)).Nodup)

include reorders distinct

/-- Executables have the same access level, constructors as long as the parameters tell them
apart. -/
theorem executableVisibility_eq :
    reordered.executableVisibility executable = system.executableVisibility executable := by
  unfold executableVisibility
  split
  next constructor =>
    have perm := reorders.constructors_perm executable.declaringType
    have apart := distinct constructor
    have apart' := ((perm.map (·.parameters)).nodup_iff).mpr apart
    congr 2
    ext declared
    rw [find?_parameters_eq_some_iff apart, find?_parameters_eq_some_iff apart', perm.mem_iff]
  next => rw [reorders.methodInfo_eq]

theorem isAccessible_eq (user : String) :
    reordered.isAccessible executable user = system.isAccessible executable user := by
  rw [isAccessible, isAccessible, reorders.visibility_eq, reorders.executableVisibility_eq distinct]

end ReordersConstructorsOf
end TypeSystem
end Wiring
