import Wiring.Framework
import Wiring.Source.File

/-!
# Bootstrap classes

Each package has at most one bootstrap class.  Method names are allocated from a base: the base
itself if it is free, and otherwise the base with the least positive number that makes it free.
-/

namespace Wiring

/-- Generated class of one package. -/
structure BootstrapClass where
  /-- Name of the class. -/
  typeName : TypeName
  /-- Whether the class is the entry point. -/
  isMain : Bool
  /-- Methods in order. -/
  methods : List Method
  /-- Names of methods, added or allocated. -/
  reserved : SortedSet String
  deriving DecidableEq

namespace BootstrapClass

/-- Class of a package without methods. -/
def create (package className : String) (isMain : Bool) : BootstrapClass :=
  ⟨.qualify package className, isMain, [], .empty⟩

/-- Whether a method name was added or allocated. -/
def hasMethod (cls : BootstrapClass) (name : String) : Bool := decide (name ∈ cls.reserved)

/-- The base for number zero, and otherwise the base followed by the number. -/
def candidate (base : String) : Nat → String
  | 0 => base
  | number + 1 => base ++ toString (number + 1)

/-- First free candidate from a number on.  A rejected candidate is not looked at again, which ends
the search. -/
def freeCandidate (reserved : SortedSet String) (base : String) (number : Nat) : String :=
  if _ : candidate base number ∈ reserved then
    freeCandidate (reserved.erase (candidate base number)) base (number + 1)
  else
    candidate base number
termination_by reserved.size
decreasing_by exact SortedSet.size_erase_lt ‹_›

/-- Free method name made from a base. -/
def freeName (cls : BootstrapClass) (base : String) : String := freeCandidate cls.reserved base 0

/-- Reserve a method name. -/
def reserve (cls : BootstrapClass) (name : String) : BootstrapClass :=
  { cls with reserved := cls.reserved.insert name }

/-- Reserve a free method name made from a base. -/
def allocate (cls : BootstrapClass) (base : String) : String × BootstrapClass :=
  (cls.freeName base, cls.reserve (cls.freeName base))

/-- Append a method and reserve its name. -/
def addMethod (cls : BootstrapClass) (method : Method) : BootstrapClass :=
  { cls with methods := cls.methods ++ [method], reserved := cls.reserved.insert method.name }

/-- Interface of the entry point. -/
def entryInterface : Fragment :=
  .format "$T<$T>" [.type Framework.contextInitializer, .type Framework.genericContext]

/-- Type to be written for a class. -/
def toSpec (cls : BootstrapClass) : TypeSpec where
  name := cls.typeName.simpleName
  modifiers := if cls.isMain then [.publicMember] else [.publicMember, .finalMember]
  superinterfaces := if cls.isMain then [entryInterface] else []
  methods := cls.methods

end BootstrapClass
end Wiring
