/-!
# Visibility

Access levels of types and members, and from which packages each level can be used.  Access through
subclasses is left out: protected members count as visible in their own package only.
-/

namespace Wiring

/-- Access level of a type or member. -/
inductive Visibility where
  | publicAccess
  | protectedAccess
  | packageAccess
  | privateAccess
  deriving DecidableEq, Repr, Inhabited

namespace Visibility

/-- Whether every package may use the declaration. -/
def isPublic (visibility : Visibility) : Bool := visibility == .publicAccess

/-- Whether code in one package may use a declaration of another. -/
def isAccessibleFrom (visibility : Visibility) (declaring user : String) : Bool :=
  match visibility with
  | .publicAccess => true
  | .protectedAccess | .packageAccess => declaring == user
  | .privateAccess => false

/-- A public declaration is usable everywhere. -/
theorem isAccessibleFrom_of_isPublic {visibility : Visibility} {declaring user : String}
    (everyone : visibility.isPublic) : visibility.isAccessibleFrom declaring user := by
  cases visibility <;> simp_all [isPublic, isAccessibleFrom]

end Visibility
end Wiring
