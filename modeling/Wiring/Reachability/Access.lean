import Wiring.DeclaredType

/-!
# Reflective access

The kinds of access to a type that a closed-world compiler can be asked to keep.  Three of them are
requests only: one is resolved by the kind of the type, one selects the JNI section and one keeps
the class file.  The others are flags of a class descriptor.
-/

namespace Wiring

/-- Kind of access requested for a type. -/
inductive Access where
  /-- Access that suits the kind of the type. -/
  | autoDetect
  /-- Access from native code instead of reflection. -/
  | jni
  /-- The class file as a resource. -/
  | resource
  | publicFields
  | declaredFields
  | declaredConstructors
  | publicConstructors
  | declaredMethods
  | publicMethods
  | declaredClasses
  | publicClasses
  | queryDeclaredMethods
  | queryPublicMethods
  | queryDeclaredConstructors
  | queryPublicConstructors
  deriving DecidableEq, Repr, Inhabited

namespace Access

/-- Every kind of access, in order. -/
def all : List Access :=
  [autoDetect, jni, resource, publicFields, declaredFields, declaredConstructors,
    publicConstructors, declaredMethods, publicMethods, declaredClasses, publicClasses,
    queryDeclaredMethods, queryPublicMethods, queryDeclaredConstructors,
    queryPublicConstructors]

/-- Key of a kind of access in descriptors. -/
def key : Access → String
  | autoDetect => "autoDetect"
  | jni => "jni"
  | resource => "resource"
  | publicFields => "allPublicFields"
  | declaredFields => "allDeclaredFields"
  | declaredConstructors => "allDeclaredConstructors"
  | publicConstructors => "allPublicConstructors"
  | declaredMethods => "allDeclaredMethods"
  | publicMethods => "allPublicMethods"
  | declaredClasses => "allDeclaredClasses"
  | publicClasses => "allPublicClasses"
  | queryDeclaredMethods => "queryAllDeclaredMethods"
  | queryPublicMethods => "queryAllPublicMethods"
  | queryDeclaredConstructors => "queryAllDeclaredConstructors"
  | queryPublicConstructors => "queryAllPublicConstructors"

/-- Kind of access with a given key. -/
def ofKey? (key : String) : Option Access := all.find? fun access => access.key == key

/-- Place of a kind of access in the order. -/
def position (access : Access) : Nat := all.idxOf access

/-- Whether a kind of access is a flag of class descriptors. -/
def isReflectionFlag : Access → Bool
  | autoDetect | jni | resource => false
  | _ => true

/-- Concrete access that suits a kind of type. -/
def detected : TypeKind → Option Access
  | .annotationType | .interfaceType => some publicMethods
  | .arrayType => none
  | .classType | .enumType => some declaredConstructors

theorem eq_of_position_eq {left right : Access} (same : left.position = right.position) :
    left = right := by
  revert same
  cases left <;> cases right <;> decide

instance : Ord Access := ⟨compareOn position⟩

instance : Std.TransOrd Access := inferInstanceAs (Std.TransCmp (compareOn position))

instance : Std.LawfulEqOrd Access where
  compare_self {access} := Std.compare_self (a := access.position)
  eq_of_compare same := eq_of_position_eq (Std.LawfulEqOrd.eq_of_compare same)

/-- Keys identify kinds of access. -/
theorem ofKey?_key (access : Access) : ofKey? access.key = some access := by
  cases access <;> decide

end Access
end Wiring
