import Wiring.Catalog
import Wiring.Proofs.Reordering

/-!
# Catalogs in another order

Look-up and the walk along parent links do not see the order of registration.  Hence two catalogs
with the same definitions, metadata and types are one container with its names reordered.
-/

namespace Wiring

namespace ArrivalMap

variable {κ ν : Type} [DecidableEq κ]

theorem lookup_of_mem {key : κ} {value : ν} {entries : List (κ × ν)}
    (distinct : (entries.map (·.1)).Nodup) (mem : (key, value) ∈ entries) :
    lookup key entries = some value := by
  induction entries with
  | nil => cases mem
  | cons head rest ih =>
      obtain ⟨other, stored⟩ := head
      obtain ⟨absent, distinct_rest⟩ := List.nodup_cons.mp distinct
      rcases List.mem_cons.mp mem with same | mem
      · cases same
        simp [lookup]
      · have differs : other ≠ key := by
          rintro rfl
          exact absent (List.mem_map_of_mem (f := (·.1)) mem)
        rw [lookup, if_neg differs, ih distinct_rest mem]

/-- Look-up finds exactly the entries. -/
theorem get?_eq_some_iff {map : ArrivalMap κ ν} {key : κ} {value : ν} :
    map.get? key = some value ↔ (key, value) ∈ map.entries :=
  ⟨key_mem_of_lookup, lookup_of_mem map.distinct⟩

/-- Look-up does not depend on the order of the entries. -/
theorem get?_perm {left right : ArrivalMap κ ν} (perm : left.entries.Perm right.entries)
    (key : κ) : left.get? key = right.get? key := by
  apply Option.ext
  intro value
  rw [get?_eq_some_iff, get?_eq_some_iff, perm.mem_iff]

end ArrivalMap

namespace Catalog

/-- Two catalogs with the same definitions, metadata and types, registered in any order. -/
structure Reorders (left right : Catalog) : Prop where
  /-- The definitions are the same up to their order. -/
  definitions : left.definitions.entries.Perm right.definitions.entries
  /-- The metadata are the same. -/
  metadata : left.metadata = right.metadata
  /-- The types are the same. -/
  types : left.types = right.types

theorem ancestors_of_no_parent {catalog : Catalog} {requested : String}
    {unvisited : ArrivalMap String Definition} {definition : Definition}
    (no_parent : definition.parent = none) :
    catalog.ancestors requested unvisited definition = .ok [] := by
  rw [ancestors]
  simp only [no_parent]

theorem ancestors_of_found {catalog : Catalog} {requested parent : String}
    {unvisited : ArrivalMap String Definition} {definition next : Definition}
    (named : definition.parent = some parent) (found : unvisited.get? parent = some next) :
    catalog.ancestors requested unvisited definition =
      (catalog.ancestors requested (unvisited.erase parent) next).map (next :: ·) := by
  rw [ancestors]
  simp only [named]
  split
  next other stored =>
    obtain rfl := Option.some.inj (found.symm.trans stored)
    rfl
  next absent =>
    rw [found] at absent
    cases absent

theorem ancestors_of_absent {catalog : Catalog} {requested parent : String}
    {unvisited : ArrivalMap String Definition} {definition : Definition}
    (named : definition.parent = some parent) (absent : unvisited.get? parent = none) :
    catalog.ancestors requested unvisited definition =
      if catalog.definitions.contains parent then .error (.cyclicParent requested)
      else .error (.missingParent requested parent) := by
  rw [ancestors]
  simp only [named]
  split
  next other stored =>
    rw [absent] at stored
    cases stored
  next => rfl

/-- The ancestors of a definition depend on look-ups only. -/
theorem ancestors_eq {left right : Catalog}
    (same : ∀ name, left.definitions.get? name = right.definitions.get? name) (requested : String)
    (unvisited unvisited' : ArrivalMap String Definition) (definition : Definition)
    (remaining : ∀ name, unvisited.get? name = unvisited'.get? name) :
    left.ancestors requested unvisited definition =
      right.ancestors requested unvisited' definition := by
  have known : ∀ name, left.definitions.contains name = right.definitions.contains name := by
    intro name
    rw [ArrivalMap.contains, ArrivalMap.contains, same]
  induction unvisited, definition using ancestors.induct left generalizing unvisited' with
  | case1 unvisited definition no_parent =>
      rw [ancestors_of_no_parent no_parent, ancestors_of_no_parent no_parent]
  | case2 unvisited definition parent named next found ih =>
      have erased : ∀ name,
          (unvisited.erase parent).get? name = (unvisited'.erase parent).get? name := by
        intro name
        rw [ArrivalMap.get?_erase, ArrivalMap.get?_erase, remaining]
      rw [ancestors_of_found named found,
        ancestors_of_found named ((remaining parent).symm.trans found), ih _ erased]
  | case3 unvisited definition parent named absent cyclic =>
      rw [ancestors_of_absent named absent,
        ancestors_of_absent named ((remaining parent).symm.trans absent), known]
  | case4 unvisited definition parent named absent missing =>
      rw [ancestors_of_absent named absent,
        ancestors_of_absent named ((remaining parent).symm.trans absent), known]

theorem merged_eq {left right : Catalog}
    (same : ∀ name, left.definitions.get? name = right.definitions.get? name) :
    left.merged = right.merged := by
  funext name
  have erased : ∀ other,
      (left.definitions.erase name).get? other = (right.definitions.erase name).get? other := by
    intro other
    rw [ArrivalMap.get?_erase, ArrivalMap.get?_erase, same]
  have raw : left.raw? name = right.raw? name := same name
  simp only [merged, raw, ancestors_eq same name _ _ _ erased]

/-- A catalog in another order is seen as a reordered container. -/
theorem Reorders.toContainer_eq {left right : Catalog} (reorders : left.Reorders right) :
    right.toContainer = left.toContainer.reorder right.definitions.keys := by
  simp only [toContainer, Container.reorder, reorders.metadata, reorders.types,
    merged_eq (ArrivalMap.get?_perm reorders.definitions)]

theorem Reorders.perm_names {left right : Catalog} (reorders : left.Reorders right) :
    left.toContainer.names.Perm right.definitions.keys :=
  reorders.definitions.map _

end Catalog
end Wiring
