import Wiring.DeclaredType
import Wiring.SortedMap

/-!
# Type systems

A type system holds the declarations that are known, at most one per name.  A type that is not
registered counts as a public class.
-/

namespace Wiring

/-- Known declarations by name. -/
structure TypeSystem where
  /-- Declarations in the order of their names. -/
  types : SortedMap TypeName DeclaredType
  /-- Every declaration is stored under its own name. -/
  named : ∀ name type, types.get? name = some type → type.name = name

namespace TypeSystem

/-- The type system without declarations. -/
def empty : TypeSystem := ⟨.empty, by simp⟩

instance : EmptyCollection TypeSystem := ⟨empty⟩
instance : Inhabited TypeSystem := ⟨empty⟩

/-- Add a declaration, replacing an earlier one of the same name. -/
def register (system : TypeSystem) (type : DeclaredType) : TypeSystem where
  types := system.types.insert type.name type
  named name found stored := by
    rw [SortedMap.get?_insert] at stored
    split at stored
    · cases stored
      exact Eq.symm ‹_›
    · exact system.named name found stored

/-- Type system of a list of declarations, later ones replacing earlier ones. -/
def ofList (types : List DeclaredType) : TypeSystem := types.foldl register empty

/-- Forget the declaration of a name. -/
def erase (system : TypeSystem) (name : TypeName) : TypeSystem where
  types := system.types.erase name
  named other found stored := by
    rw [SortedMap.get?_erase] at stored
    split at stored
    · cases stored
    · exact system.named other found stored

/-- Declaration of a name. -/
def get? (system : TypeSystem) (name : TypeName) : Option DeclaredType := system.types.get? name

/-- Whether a name is registered. -/
def contains (system : TypeSystem) (name : TypeName) : Bool := system.types.contains name

/-- Number of registered types. -/
def size (system : TypeSystem) : Nat := system.types.size

/-- Registered names in order. -/
def names (system : TypeSystem) : List TypeName := system.types.keys

/-- Kind of a type, read off the name for arrays. -/
def kind (system : TypeSystem) (name : TypeName) : TypeKind :=
  if name.isArray then .arrayType else ((system.get? name).map (·.kind)).getD .classType

/-- Access level of a type. -/
def visibility (system : TypeSystem) (name : TypeName) : Visibility :=
  ((system.get? name).map (·.visibility)).getD .publicAccess

/-- Whether a registered type itself carries an annotation. -/
def isAnnotatedWith (system : TypeSystem) (name marker : TypeName) : Bool :=
  (system.get? name).any (·.isAnnotatedWith marker)

theorem name_of_get? {system : TypeSystem} {name : TypeName} {type : DeclaredType}
    (found : system.get? name = some type) : type.name = name :=
  system.named name type found

theorem get?_register (system : TypeSystem) (type : DeclaredType) (name : TypeName) :
    (system.register type).get? name = if name = type.name then some type else system.get? name :=
  SortedMap.get?_insert ..

theorem get?_erase (system : TypeSystem) (name other : TypeName) :
    (system.erase name).get? other = if other = name then none else system.get? other :=
  SortedMap.get?_erase ..

theorem size_erase_lt {system : TypeSystem} {name : TypeName} {type : DeclaredType}
    (found : system.get? name = some type) : (system.erase name).size < system.size :=
  SortedMap.size_erase_lt found

end TypeSystem
end Wiring
