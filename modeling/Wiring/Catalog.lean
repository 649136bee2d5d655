import Wiring.ArrivalMap
import Wiring.Container

/-!
# Catalogs of definitions

A catalog is a container held in memory: definitions in the order of their registration, each of
which may name a parent.  `merged` follows parent links from the requested definition; since every
step forgets the definition it reaches, the walk ends on cyclic links too.
-/

namespace Wiring

/-- Registered definitions, metadata and types. -/
structure Catalog where
  /-- Definitions in registration order. -/
  definitions : ArrivalMap String Definition
  /-- State beside the definitions. -/
  metadata : ContainerMetadata
  /-- Known types. -/
  types : TypeSystem

namespace Catalog

/-- Register a definition; a known name keeps its place. -/
def register (catalog : Catalog) (name : String) (definition : Definition) : Catalog :=
  { catalog with definitions := catalog.definitions.insert name definition }

/-- Register a type. -/
def registerType (catalog : Catalog) (type : DeclaredType) : Catalog :=
  { catalog with types := catalog.types.register type }

/-- Add an annotation to the configuration. -/
def annotate (catalog : Catalog) (marker : TypeName) : Catalog :=
  { catalog with
    metadata :=
      { catalog.metadata with annotations := catalog.metadata.annotations ++ [marker] } }

/-- Definition as registered. -/
def raw? (catalog : Catalog) (name : String) : Option Definition := catalog.definitions.get? name

/-- Ancestors of a definition, nearest first, among the definitions not visited yet. -/
def ancestors (catalog : Catalog) (requested : String) (unvisited : ArrivalMap String Definition)
    (definition : Definition) : Except ContainerError (List Definition) :=
  match definition.parent with
  | none => .ok []
  | some parent =>
      match _ : unvisited.get? parent with
      | some next =>
          (catalog.ancestors requested (unvisited.erase parent) next).map (next :: ·)
      | none =>
          if catalog.definitions.contains parent then .error (.cyclicParent requested)
          else .error (.missingParent requested parent)
termination_by unvisited.size
decreasing_by exact ArrivalMap.size_erase_lt ‹_›

/-- Definition of a name with its ancestors merged in. -/
def merged (catalog : Catalog) (name : String) : Except ContainerError Definition :=
  match catalog.raw? name with
  | none => .error (.noSuchComponent name)
  | some definition =>
      (catalog.ancestors name (catalog.definitions.erase name) definition).map definition.mergeChain

/-- The catalog as a container. -/
def toContainer (catalog : Catalog) : Container where
  names := catalog.definitions.keys
  merged := catalog.merged
  metadata := catalog.metadata
  types := catalog.types

end Catalog
end Wiring
