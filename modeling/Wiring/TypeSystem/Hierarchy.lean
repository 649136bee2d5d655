import Wiring.TypeSystem

/-!
# Supertypes of a type

The superclass chain and the breadth-first hierarchy of a type list registered declarations only.
Each step forgets the declaration it has listed, so a declaration is listed once and both walks end
on cyclic declarations too.
-/

namespace Wiring
namespace TypeSystem

/-- A registered type followed by its registered superclasses, nearest first. -/
def superclassChain (system : TypeSystem) (name : TypeName) : List DeclaredType :=
  match _ : system.get? name with
  | none => []
  | some type =>
      type ::
        match type.superclass with
        | none => []
        | some superclass => (system.erase name).superclassChain superclass
termination_by system.size
decreasing_by exact size_erase_lt ‹_›

/-- First registered type of a queue of names, and the names after it. -/
def firstRegistered? (system : TypeSystem) :
    List TypeName → Option (DeclaredType × List TypeName)
  | [] => none
  | name :: rest =>
      match system.get? name with
      | some type => some (type, rest)
      | none => system.firstRegistered? rest

theorem get?_of_firstRegistered? {system : TypeSystem} {queue rest : List TypeName}
    {type : DeclaredType} (found : system.firstRegistered? queue = some (type, rest)) :
    system.get? type.name = some type := by
  induction queue with
  | nil => cases found
  | cons name others ih =>
      simp only [firstRegistered?] at found
      split at found
      next stored =>
        cases found
        rw [name_of_get? stored]
        exact stored
      next => exact ih found

/-- Registered types reachable from a queue of names, in breadth-first order. -/
def reachable (system : TypeSystem) (queue : List TypeName) : List DeclaredType :=
  match _ : system.firstRegistered? queue with
  | none => []
  | some (type, rest) => type :: (system.erase type.name).reachable (rest ++ type.supertypes)
termination_by system.size
decreasing_by exact size_erase_lt (get?_of_firstRegistered? ‹_›)

theorem reachable_nil (system : TypeSystem) : system.reachable [] = [] := by
  rw [reachable]
  rfl

theorem reachable_cons_of_absent {system : TypeSystem} {name : TypeName} {rest : List TypeName}
    (absent : system.get? name = none) : system.reachable (name :: rest) = system.reachable rest := by
  have skip : system.firstRegistered? (name :: rest) = system.firstRegistered? rest := by
    simp only [firstRegistered?, absent]
  rw [reachable, reachable]
  split <;> split <;> simp_all

theorem reachable_cons_of_found {system : TypeSystem} {name : TypeName} {rest : List TypeName}
    {type : DeclaredType} (found : system.get? name = some type) :
    system.reachable (name :: rest) =
      type :: (system.erase name).reachable (rest ++ type.supertypes) := by
  have take : system.firstRegistered? (name :: rest) = some (type, rest) := by
    simp only [firstRegistered?, found]
  rw [reachable]
  split
  next none_left =>
    rw [take] at none_left
    cases none_left
  next first =>
    rw [take] at first
    cases first
    rw [name_of_get? found]

/-- A registered type and its registered supertypes, nearest first. -/
def hierarchy (system : TypeSystem) (name : TypeName) : List DeclaredType :=
  system.reachable [name]

end TypeSystem
end Wiring
