import Wiring.TypeName

/-!
# References to members

A member is identified by the type that declares it.  Executables are ordered by declaring type,
then constructors before methods, then method name, then parameter types.
-/

namespace Wiring

/-- A constructor, or a method of some name. -/
inductive ExecutableKind where
  | constructor
  | method (name : String)
  deriving DecidableEq, Repr, Inhabited

namespace ExecutableKind

/-- Name of a method, none for a constructor. -/
def methodName? : ExecutableKind → Option String
  | constructor => none
  | method name => some name

theorem eq_of_methodName?_eq {left right : ExecutableKind}
    (same : left.methodName? = right.methodName?) : left = right := by
  cases left <;> cases right <;> simp_all [methodName?]

end ExecutableKind

/-- Identity of a constructor or method. -/
structure Executable where
  /-- Type that declares the executable. -/
  declaringType : TypeName
  /-- Constructor or method. -/
  kind : ExecutableKind
  /-- Parameter types in order. -/
  parameters : List TypeName
  deriving DecidableEq, Repr, Inhabited

namespace Executable

/-- Name under which constructors are reported. -/
def constructorName : String := "<init>"

/-- Constructor of a type. -/
def ofConstructor (declaringType : TypeName) (parameters : List TypeName) : Executable :=
  ⟨declaringType, .constructor, parameters⟩

/-- Method of a type. -/
def ofMethod (declaringType : TypeName) (name : String) (parameters : List TypeName) :
    Executable :=
  ⟨declaringType, .method name, parameters⟩

/-- Method name, or the reported name of constructors. -/
def name (executable : Executable) : String :=
  executable.kind.methodName?.getD constructorName

/-- Signature with its declaring type. -/
def signature (executable : Executable) : String :=
  executable.declaringType.text ++ "." ++ executable.name ++ "(" ++
    ", ".intercalate (executable.parameters.map TypeName.text) ++ ")"

instance : Ord Executable :=
  ⟨compareLex (compareOn declaringType)
    (compareLex (compareOn fun executable => executable.kind.methodName?) (compareOn parameters))⟩

instance : Std.TransOrd Executable :=
  inferInstanceAs (Std.TransCmp (compareLex (compareOn declaringType)
    (compareLex (compareOn fun executable : Executable => executable.kind.methodName?)
      (compareOn parameters))))

instance : Std.LawfulEqOrd Executable where
  compare_self := Std.ReflCmp.compare_self
  eq_of_compare {left right} same := by
    obtain ⟨declaring, rest⟩ := compareLex_eq_eq.mp same
    obtain ⟨kind, parameters⟩ := compareLex_eq_eq.mp rest
    have declaring_eq : left.declaringType = right.declaringType :=
      Std.LawfulEqOrd.eq_of_compare declaring
    have kind_eq : left.kind = right.kind :=
      ExecutableKind.eq_of_methodName?_eq (Std.LawfulEqOrd.eq_of_compare kind)
    have parameters_eq : left.parameters = right.parameters :=
      Std.LawfulEqOrd.eq_of_compare parameters
    cases left
    cases right
    simp_all

end Executable

/-- Identity of a field. -/
structure Field where
  /-- Type that declares the field. -/
  declaringType : TypeName
  /-- Name of the field. -/
  name : String
  deriving DecidableEq, Repr, Inhabited

namespace Field

/-- Name of the field with its declaring type. -/
def qualifiedName (field : Field) : String := field.declaringType.text ++ "." ++ field.name

instance : Ord Field := ⟨compareLex (compareOn declaringType) (compareOn name)⟩

end Field
end Wiring
