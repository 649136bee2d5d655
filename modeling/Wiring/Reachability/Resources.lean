import Wiring.SortedSet
import Wiring.TypeName

/-!
# Resources

Resource patterns and resource bundles that must stay in a native image.
-/

namespace Wiring

/-- Resource to keep. -/
inductive ResourceEntry where
  | pattern (text : String)
  | bundle (name : String)
  deriving DecidableEq, Repr, Inhabited

/-- Class file of a type, as a pattern. -/
def ResourceEntry.ofClass (name : TypeName) : ResourceEntry := pattern name.classFile

/-- Patterns and bundles to keep. -/
structure Resources where
  /-- Resource patterns. -/
  patterns : SortedSet String
  /-- Names of resource bundles. -/
  bundles : SortedSet String
  deriving DecidableEq

namespace Resources

/-- Nothing to keep. -/
def empty : Resources := ⟨.empty, .empty⟩

instance : Inhabited Resources := ⟨empty⟩

/-- Whether nothing is to be kept. -/
def isEmpty (resources : Resources) : Bool :=
  resources.patterns.isEmpty && resources.bundles.isEmpty

/-- Add one resource. -/
def add (resources : Resources) : ResourceEntry → Resources
  | .pattern text => { resources with patterns := resources.patterns.insert text }
  | .bundle name => { resources with bundles := resources.bundles.insert name }

/-- Union of two collections. -/
def merge (left right : Resources) : Resources :=
  ⟨left.patterns ∪ right.patterns, left.bundles ∪ right.bundles⟩

end Resources
end Wiring
