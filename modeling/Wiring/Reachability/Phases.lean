import Wiring.SortedMap

/-!
# Initialization phases

Classes and packages are initialized when the image is built or when it runs.  Of two requests for
one name the later phase wins, whatever their order.
-/

namespace Wiring

/-- Time at which a class or package is initialized. -/
inductive Phase where
  | buildTime
  | runTime
  deriving DecidableEq, Repr, Inhabited

namespace Phase

/-- The later of two phases. -/
def later : Phase → Phase → Phase
  | buildTime, phase => phase
  | runTime, _ => runTime

theorem later_comm (left right : Phase) : left.later right = right.later left := by
  cases left <;> cases right <;> rfl

theorem later_assoc (first second third : Phase) :
    (first.later second).later third = first.later (second.later third) := by
  cases first <;> rfl

@[simp]
theorem later_self (phase : Phase) : phase.later phase = phase := by cases phase <;> rfl

end Phase

/-- Requested phases by name. -/
abbrev PhaseTable := SortedMap String Phase

namespace PhaseTable

/-- Add a request for a name. -/
def request (table : PhaseTable) (name : String) (phase : Phase) : PhaseTable :=
  table.update name phase (·.later phase)

/-- Names to be initialized in a phase, in order. -/
def namesIn (table : PhaseTable) (phase : Phase) : List String :=
  (table.entries.filter fun entry => entry.2 == phase).map (·.1)

end PhaseTable

/-- Phases requested for classes and packages. -/
structure Phases where
  /-- Phases of classes. -/
  classes : PhaseTable
  /-- Phases of packages. -/
  packages : PhaseTable
  deriving DecidableEq

namespace Phases

/-- No request. -/
def empty : Phases := ⟨.empty, .empty⟩

instance : Inhabited Phases := ⟨empty⟩

/-- Whether nothing was requested. -/
def isEmpty (phases : Phases) : Bool := phases.classes.isEmpty && phases.packages.isEmpty

/-- Request a phase for a class. -/
def addClass (phases : Phases) (name : String) (phase : Phase) : Phases :=
  { phases with classes := phases.classes.request name phase }

/-- Request a phase for a package. -/
def addPackage (phases : Phases) (name : String) (phase : Phase) : Phases :=
  { phases with packages := phases.packages.request name phase }

/-- All requests of two collections. -/
def merge (left right : Phases) : Phases where
  classes := SortedMap.mergeWith Phase.later left.classes right.classes
  packages := SortedMap.mergeWith Phase.later left.packages right.packages

end Phases
end Wiring
