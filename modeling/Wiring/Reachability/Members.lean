import Wiring.Member
import Wiring.Reachability.Access
import Wiring.SortedMap
import Wiring.SortedSet

/-!
# Member tables

A member table collects, per type, the access, the executables and the fields that must stay
reachable.  Additions only ever enlarge a table, and a type may be present without any requirement.
-/

namespace Wiring

/-- Requirements collected for one type. -/
structure TypeEntry where
  /-- Requested kinds of access. -/
  access : SortedSet Access
  /-- Requested constructors and methods. -/
  executables : SortedSet Executable
  /-- Names of requested fields. -/
  fields : SortedSet String
  deriving DecidableEq

namespace TypeEntry

/-- Entry without requirements. -/
def empty : TypeEntry := ⟨.empty, .empty, .empty⟩

instance : Inhabited TypeEntry := ⟨empty⟩

/-- Whether an entry has no requirement. -/
def isEmpty (entry : TypeEntry) : Bool :=
  entry.access.isEmpty && entry.executables.isEmpty && entry.fields.isEmpty

/-- Union of two entries. -/
def union (left right : TypeEntry) : TypeEntry where
  access := left.access ∪ right.access
  executables := left.executables ∪ right.executables
  fields := left.fields ∪ right.fields

instance : Union TypeEntry := ⟨union⟩

/-- Entry of the given requirements. -/
def ofLists (access : List Access) (executables : List Executable) (fields : List String) :
    TypeEntry :=
  ⟨.ofList access, .ofList executables, .ofList fields⟩

end TypeEntry

/-- Requirements by type. -/
abbrev MemberTable := SortedMap TypeName TypeEntry

namespace MemberTable

/-- Add requirements for a type, which makes the type present. -/
def require (table : MemberTable) (name : TypeName) (entry : TypeEntry) : MemberTable :=
  table.update name .empty (· ∪ entry)

/-- Add an executable under the type that declares it. -/
def addExecutable (table : MemberTable) (executable : Executable) : MemberTable :=
  require table executable.declaringType (.ofLists [] [executable] [])

/-- Add executables, each under the type that declares it. -/
def addExecutables (table : MemberTable) (executables : List Executable) : MemberTable :=
  executables.foldl addExecutable table

/-- Add a field under the type that declares it. -/
def addField (table : MemberTable) (field : Field) : MemberTable :=
  require table field.declaringType (.ofLists [] [] [field.name])

/-- Make a type present. -/
def touch (table : MemberTable) (name : TypeName) : MemberTable := require table name .empty

/-- Whether an executable is required under the type that declares it. -/
def hasExecutable (table : MemberTable) (executable : Executable) : Bool :=
  (table.get? executable.declaringType).any fun entry =>
    decide (executable ∈ entry.executables)

/-- Union of two tables. -/
def merge (left right : MemberTable) : MemberTable := SortedMap.mergeWith (· ∪ ·) left right

end MemberTable
end Wiring
