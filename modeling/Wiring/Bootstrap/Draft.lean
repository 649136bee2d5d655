import Wiring.Bootstrap.Class
import Wiring.Reachability

/-!
# Drafts

A draft is the output of a generation run under construction: the main bootstrap class, the helper
classes of other packages, the body of the main class's entry method so far, and the registry.
-/

namespace Wiring

/-- Output under construction. -/
structure Draft where
  /-- Package of the main class. -/
  package : String
  /-- Simple name of every bootstrap class. -/
  className : String
  /-- Main class. -/
  main : BootstrapClass
  /-- Helper classes by package. -/
  helpers : SortedMap String BootstrapClass
  /-- Body of the entry method so far. -/
  body : Block
  /-- Requirements recorded so far. -/
  registry : Reachability
  deriving DecidableEq

namespace Draft

/-- Draft that holds only a registry. -/
def start (package className : String) (registry : Reachability) : Draft :=
  ⟨package, className, .create package className true, .empty, [], registry⟩

/-- Whether a package has its class already. -/
def hasClass (draft : Draft) (package : String) : Bool :=
  package == draft.package || draft.helpers.contains package

/-- Class of a package, without methods if it does not exist yet. -/
def classOf (draft : Draft) (package : String) : BootstrapClass :=
  if package = draft.package then draft.main
  else (draft.helpers.get? package).getD (.create package draft.className false)

/-- Name of the class of a package, whether or not it exists. -/
def classNameOf (draft : Draft) (package : String) : TypeName :=
  if package = draft.package then draft.main.typeName else .qualify package draft.className

/-- Store the class of a package. -/
def setClass (draft : Draft) (package : String) (cls : BootstrapClass) : Draft :=
  if package = draft.package then { draft with main := cls }
  else { draft with helpers := draft.helpers.insert package cls }

/-- Append code to the body of the entry method. -/
def append (draft : Draft) (block : Block) : Draft := { draft with body := draft.body ++ block }

/-- Record executables that are called reflectively. -/
def reflect (draft : Draft) (executables : List Executable) : Draft :=
  { draft with registry := draft.registry.reflect executables }

/-- Helper classes as source files, by package. -/
def helperFiles (draft : Draft) : List SourceFile :=
  draft.helpers.entries.map fun entry => .ofSpec entry.1 entry.2.toSpec

/-- Source files, the main class first. -/
def sourceFiles (draft : Draft) : List SourceFile :=
  .ofSpec draft.package draft.main.toSpec :: draft.helperFiles

end Draft
end Wiring
