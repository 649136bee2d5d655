import Mathlib.Logic.Relation
import Wiring.Proofs.CatalogOrder
import Wiring.Proofs.Run

/-!
# Parent links of definitions

Every definition of a catalog names at most one parent, so the links from a registered name end at
a definition without parent, lead to an unregistered name, or revisit a name.  `FollowsLinks` says
that the merged definition exists in the first case alone, which error the other two give, and that
merging obeys the law one states by recursion on the parent.
-/

namespace Wiring
namespace Catalog

variable {catalog : Catalog} {name parent : String} {definition : Definition}
  {ancestors : List Definition}

/-- Whether the definition of one name inherits from another name. -/
def ParentLink (catalog : Catalog) (child parent : String) : Prop :=
  ∃ definition, catalog.raw? child = some definition ∧ definition.parent = some parent

/-- Whether the parent links of a name come to some name twice. -/
def Revisits (catalog : Catalog) (name : String) : Prop :=
  ∃ other, Relation.ReflTransGen catalog.ParentLink name other ∧
    Relation.TransGen catalog.ParentLink other other

/-- Whether the parent links of a name lead to an unregistered one. -/
def Misses (catalog : Catalog) (name parent : String) : Prop :=
  Relation.ReflTransGen catalog.ParentLink name parent ∧ catalog.raw? parent = none

/-- The definition of a name with its ancestors, nearest first, up to one without parent. -/
inductive Lineage (catalog : Catalog) : String → Definition → List Definition → Prop
  | root {name : String} {definition : Definition} (found : catalog.raw? name = some definition)
      (no_parent : definition.parent = none) : Lineage catalog name definition []
  | child {name parent : String} {definition next : Definition} {ancestors : List Definition}
      (found : catalog.raw? name = some definition) (named : definition.parent = some parent)
      (inherited : Lineage catalog parent next ancestors) :
      Lineage catalog name definition (next :: ancestors)

/-! ### One link at a time -/

theorem parentLink_iff (found : catalog.raw? name = some definition) :
    catalog.ParentLink name parent ↔ definition.parent = some parent := by
  constructor
  · rintro ⟨other, stored, named⟩
    obtain rfl := Option.some.inj (found.symm.trans stored)
    exact named
  · exact fun named => ⟨definition, found, named⟩

theorem ParentLink.eq {parent' : String} (link : catalog.ParentLink name parent)
    (link' : catalog.ParentLink name parent') : parent = parent' := by
  obtain ⟨definition, found, named⟩ := link
  exact Option.some.inj (named.symm.trans ((parentLink_iff found).mp link'))

theorem not_parentLink_of_absent (absent : catalog.raw? name = none) :
    ¬ catalog.ParentLink name parent := by
  rintro ⟨definition, found, -⟩
  rw [absent] at found
  cases found

theorem Revisits.of_link (link : catalog.ParentLink name parent)
    (revisits : catalog.Revisits parent) : catalog.Revisits name := by
  obtain ⟨other, reached, again⟩ := revisits
  exact ⟨other, reached.head link, again⟩

theorem Misses.of_link {missing : String} (link : catalog.ParentLink name parent)
    (misses : catalog.Misses parent missing) : catalog.Misses name missing :=
  ⟨misses.1.head link, misses.2⟩

/-- A name that is missed from a registered one is missed from its parent. -/
theorem Misses.exists_link {missing : String} (misses : catalog.Misses name missing)
    (found : catalog.raw? name = some definition) :
    ∃ parent, catalog.ParentLink name parent ∧ catalog.Misses parent missing := by
  obtain ⟨reached, absent⟩ := misses
  rcases reached.cases_head with rfl | ⟨parent, link, rest⟩
  · rw [absent] at found
    cases found
  · exact ⟨parent, link, rest, absent⟩

theorem Misses.eq {missing missing' : String} (misses : catalog.Misses name missing)
    (misses' : catalog.Misses name missing') : missing = missing' := by
  obtain ⟨reached, absent⟩ := misses
  induction reached using Relation.ReflTransGen.head_induction_on with
  | refl =>
      rcases misses'.1.cases_head with rfl | ⟨parent, link, -⟩
      · rfl
      · exact absurd link (not_parentLink_of_absent absent)
  | head link reached ih =>
      obtain ⟨definition, found, named⟩ := link
      obtain ⟨parent, link', rest⟩ := misses'.exists_link found
      obtain rfl := link'.eq ⟨definition, found, named⟩
      exact ih rest

/-! ### The three cases exclude each other -/

/-- Whether the parent links of a name come to an end. -/
def Settles (catalog : Catalog) (name : String) : Prop :=
  Acc (fun parent child => catalog.ParentLink child parent) name

theorem Settles.of_link (link : catalog.ParentLink name parent)
    (settles : catalog.Settles parent) : catalog.Settles name := by
  constructor
  intro other link'
  rwa [link'.eq link]

theorem Settles.of_reaches {other : String} (settles : catalog.Settles name)
    (reached : Relation.ReflTransGen catalog.ParentLink name other) : catalog.Settles other := by
  induction reached with
  | refl => exact settles
  | tail _ link ih => exact ih.inv link

/-- Links that come to an end revisit nothing. -/
theorem Settles.not_revisits (settles : catalog.Settles name) : ¬ catalog.Revisits name := by
  rintro ⟨other, reached, again⟩
  have settled := settles.of_reaches reached
  clear reached
  induction settled with
  | intro other _ ih =>
      -- The successor of a name on a cycle lies on the same cycle.
      obtain ⟨parent, link, rest⟩ := Relation.TransGen.head'_iff.mp again
      exact ih parent link (Relation.TransGen.tail' rest link)

theorem Lineage.found (lineage : catalog.Lineage name definition ancestors) :
    catalog.raw? name = some definition := by
  cases lineage with
  | root found _ => exact found
  | child found _ _ => exact found

theorem Lineage.settles (lineage : catalog.Lineage name definition ancestors) :
    catalog.Settles name := by
  induction lineage with
  | root found no_parent =>
      constructor
      intro parent link
      rw [parentLink_iff found, no_parent] at link
      cases link
  | child found named _ ih => exact ih.of_link ((parentLink_iff found).mpr named)

theorem Misses.settles (misses : catalog.Misses name parent) : catalog.Settles name := by
  obtain ⟨reached, absent⟩ := misses
  induction reached using Relation.ReflTransGen.head_induction_on with
  | refl => exact ⟨_, fun _ link => absurd link (not_parentLink_of_absent absent)⟩
  | head link _ ih => exact ih.of_link link

theorem Lineage.not_misses (lineage : catalog.Lineage name definition ancestors) :
    ¬ catalog.Misses name parent := by
  intro misses
  induction lineage with
  | root found no_parent =>
      obtain ⟨next, link, -⟩ := misses.exists_link found
      rw [parentLink_iff found, no_parent] at link
      cases link
  | child found named _ ih =>
      obtain ⟨next, link, rest⟩ := misses.exists_link found
      obtain rfl := Option.some.inj (named.symm.trans ((parentLink_iff found).mp link))
      exact ih rest

theorem Lineage.eq {definition' : Definition} {ancestors' : List Definition}
    (lineage : catalog.Lineage name definition ancestors)
    (lineage' : catalog.Lineage name definition' ancestors') :
    definition = definition' ∧ ancestors = ancestors' := by
  induction lineage generalizing definition' ancestors' with
  | root found no_parent =>
      obtain rfl := Option.some.inj (found.symm.trans lineage'.found)
      cases lineage' with
      | root _ _ => exact ⟨rfl, rfl⟩
      | child _ named _ =>
          rw [no_parent] at named
          cases named
  | child found named _ ih =>
      obtain rfl := Option.some.inj (found.symm.trans lineage'.found)
      cases lineage' with
      | root _ no_parent =>
          rw [no_parent] at named
          cases named
      | child _ named' inherited =>
          obtain rfl := Option.some.inj (named.symm.trans named')
          obtain ⟨rfl, rfl⟩ := ih inherited
          exact ⟨rfl, rfl⟩

/-! ### The walk along the links -/

/-- What the walk knows at a name: it will find raw definitions only, and every registered name that
it has met before leads to this one. -/
structure Walks (catalog : Catalog) (unvisited : ArrivalMap String Definition) (name : String) :
    Prop where
  /-- Unvisited definitions are registered. -/
  remaining : ∀ other definition, unvisited.get? other = some definition →
    catalog.raw? other = some definition
  /-- Visited names lead to the current one. -/
  met : ∀ other, unvisited.get? other = none → (catalog.raw? other).isSome →
    Relation.ReflTransGen catalog.ParentLink other name

theorem Walks.start (catalog : Catalog) (name : String) :
    catalog.Walks (catalog.definitions.erase name) name := by
  constructor
  · intro other definition stored
    rw [ArrivalMap.get?_erase] at stored
    split at stored
    · cases stored
    · exact stored
  · intro other absent known
    rw [ArrivalMap.get?_erase] at absent
    split at absent
    next same => rw [same]
    next =>
      rw [raw?, absent] at known
      cases known

theorem Walks.step {unvisited : ArrivalMap String Definition}
    (walks : catalog.Walks unvisited name) (link : catalog.ParentLink name parent) :
    catalog.Walks (unvisited.erase parent) parent := by
  constructor
  · intro other definition stored
    rw [ArrivalMap.get?_erase] at stored
    split at stored
    · cases stored
    · exact walks.remaining other definition stored
  · intro other absent known
    rw [ArrivalMap.get?_erase] at absent
    split at absent
    next same => rw [same]
    next => exact (walks.met other absent known).tail link

/-- What the walk finds: the ancestors, or why there are none. -/
def Walked (catalog : Catalog) (requested name : String) (definition : Definition) :
    Except ContainerError (List Definition) → Prop
  | .ok ancestors => catalog.Lineage name definition ancestors
  | .error cause =>
      (cause = .cyclicParent requested ∧ catalog.Revisits name) ∨
        ∃ missing, cause = .missingParent requested missing ∧ catalog.Misses name missing

theorem walked_ancestors (requested : String) {unvisited : ArrivalMap String Definition}
    (walks : catalog.Walks unvisited name) (found : catalog.raw? name = some definition) :
    catalog.Walked requested name definition
      (catalog.ancestors requested unvisited definition) := by
  induction unvisited, definition using ancestors.induct catalog generalizing name with
  | case1 unvisited definition no_parent =>
      rw [ancestors_of_no_parent no_parent]
      exact .root found no_parent
  | case2 unvisited definition parent named next stored ih =>
      rw [ancestors_of_found named stored]
      have link := (parentLink_iff found).mpr named
      have walked := ih (walks.step link) (walks.remaining parent next stored)
      cases rest : catalog.ancestors requested (unvisited.erase parent) next with
      | ok ancestors =>
          rw [rest] at walked
          exact .child found named walked
      | error cause =>
          rw [rest] at walked
          rcases walked with ⟨rfl, revisits⟩ | ⟨missing, rfl, misses⟩
          · exact .inl ⟨rfl, revisits.of_link link⟩
          · exact .inr ⟨missing, rfl, misses.of_link link⟩
  | case3 unvisited definition parent named absent known =>
      rw [ancestors_of_absent named absent, if_pos known]
      have link := (parentLink_iff found).mpr named
      -- The parent was met before, so it leads back to the name that names it.
      exact .inl ⟨rfl, name, .refl, .head' link (walks.met parent absent known)⟩
  | case4 unvisited definition parent named absent unknown =>
      rw [ancestors_of_absent named absent, if_neg unknown]
      have link := (parentLink_iff found).mpr named
      exact .inr ⟨parent, rfl, .single link, by simpa [ArrivalMap.contains, raw?] using unknown⟩

/-! ### Merged definitions -/

/-- What merging gives for a registered name. -/
theorem merged_cases (found : catalog.raw? name = some definition) :
    (∃ ancestors, catalog.Lineage name definition ancestors ∧
      catalog.merged name = .ok (definition.mergeChain ancestors)) ∨
    (catalog.Revisits name ∧ catalog.merged name = .error (.cyclicParent name)) ∨
    ∃ missing, catalog.Misses name missing ∧
      catalog.merged name = .error (.missingParent name missing) := by
  have walked := walked_ancestors name (Walks.start catalog name) found
  have merged : catalog.merged name =
      (catalog.ancestors name (catalog.definitions.erase name) definition).map
        definition.mergeChain := by
    rw [Catalog.merged, found]
  rw [merged]
  cases rest : catalog.ancestors name (catalog.definitions.erase name) definition with
  | ok ancestors =>
      rw [rest] at walked
      exact .inl ⟨ancestors, walked, rfl⟩
  | error cause =>
      rw [rest] at walked
      rcases walked with ⟨rfl, revisits⟩ | ⟨missing, rfl, misses⟩
      · exact .inr (.inl ⟨revisits, rfl⟩)
      · exact .inr (.inr ⟨missing, misses, rfl⟩)

theorem merged_of_absent (absent : catalog.raw? name = none) :
    catalog.merged name = .error (.noSuchComponent name) := by
  rw [merged, absent]

/-- Merged definitions are those of the names with a lineage. -/
theorem merged_eq_ok_iff {merged : Definition} :
    catalog.merged name = .ok merged ↔
      ∃ definition ancestors, catalog.Lineage name definition ancestors ∧
        merged = definition.mergeChain ancestors := by
  constructor
  · intro result
    cases found : catalog.raw? name with
    | none =>
        rw [merged_of_absent found] at result
        cases result
    | some definition =>
        rcases merged_cases found with ⟨ancestors, lineage, same⟩ | ⟨-, same⟩ | ⟨missing, -, same⟩
        · rw [same] at result
          cases result
          exact ⟨definition, ancestors, lineage, rfl⟩
        · rw [same] at result
          cases result
        · rw [same] at result
          cases result
  · rintro ⟨definition, ancestors, lineage, rfl⟩
    rcases merged_cases lineage.found with ⟨_, lineage', same⟩ | ⟨revisits, -⟩ | ⟨_, misses, -⟩
    · obtain ⟨-, rfl⟩ := lineage.eq lineage'
      exact same
    · exact absurd revisits lineage.settles.not_revisits
    · exact absurd misses lineage.not_misses

theorem parent_mergeChain (definition : Definition) (ancestors : List Definition) :
    (definition.mergeChain ancestors).parent = none := by
  cases ancestors with
  | nil => rfl
  | cons next ancestors => rfl

/-- How merging treats a name registered with a definition. -/
structure FollowsLinks (catalog : Catalog) (name : String) (definition : Definition) : Prop where
  /-- The parent chain is cyclic exactly when it revisits a name. -/
  cyclic_iff : catalog.merged name = .error (.cyclicParent name) ↔ catalog.Revisits name
  /-- A parent is missing exactly when the links lead to an unregistered name. -/
  missing_iff : ∀ missing,
    catalog.merged name = .error (.missingParent name missing) ↔ catalog.Misses name missing
  /-- In all other cases there is a merged definition. -/
  ok_iff : (∃ merged, catalog.merged name = .ok merged) ↔
    ¬ catalog.Revisits name ∧ ∀ missing, ¬ catalog.Misses name missing
  /-- Merged definitions have no parent. -/
  no_parent : ∀ merged, catalog.merged name = .ok merged → merged.parent = none
  /-- A definition without parent is merged as it stands, and any other with its merged parent. -/
  recursive : ∀ merged, catalog.merged name = .ok merged ↔
    (definition.parent = none ∧ merged = definition.detached) ∨
    ∃ parent inherited, definition.parent = some parent ∧ (catalog.raw? parent).isSome ∧
      catalog.merged parent = .ok inherited ∧ merged = definition.mergedWith inherited

theorem merged_eq_ok_iff_recursive (found : catalog.raw? name = some definition)
    {merged : Definition} :
    catalog.merged name = .ok merged ↔
      (definition.parent = none ∧ merged = definition.detached) ∨
      ∃ parent inherited, definition.parent = some parent ∧ (catalog.raw? parent).isSome ∧
        catalog.merged parent = .ok inherited ∧ merged = definition.mergedWith inherited := by
  rw [merged_eq_ok_iff]
  constructor
  · rintro ⟨other, ancestors, lineage, rfl⟩
    obtain rfl := Option.some.inj (found.symm.trans lineage.found)
    cases lineage with
    | root _ no_parent => exact .inl ⟨no_parent, rfl⟩
    | @child _ parent _ next ancestors _ named inherited =>
        have known : (catalog.raw? parent).isSome := by simp [inherited.found]
        exact .inr ⟨parent, next.mergeChain ancestors, named, known,
          merged_eq_ok_iff.mpr ⟨next, ancestors, inherited, rfl⟩, rfl⟩
  · rintro (⟨no_parent, rfl⟩ | ⟨parent, inherited, named, -, merged, rfl⟩)
    · exact ⟨definition, [], .root found no_parent, rfl⟩
    · obtain ⟨next, ancestors, lineage, rfl⟩ := merged_eq_ok_iff.mp merged
      exact ⟨definition, next :: ancestors, .child found named lineage, rfl⟩

theorem followsLinks_of_found (found : catalog.raw? name = some definition) :
    catalog.FollowsLinks name definition := by
  have cases := merged_cases found
  constructor
  · constructor
    · intro cyclic
      simpa [cyclic] using cases
    · intro revisits
      rcases cases with ⟨ancestors, lineage, -⟩ | ⟨-, same⟩ | ⟨missing, misses, -⟩
      · exact absurd revisits lineage.settles.not_revisits
      · exact same
      · exact absurd revisits misses.settles.not_revisits
  · intro missing
    constructor
    · intro refused
      simpa [refused] using cases
    · intro misses
      rcases cases with ⟨ancestors, lineage, -⟩ | ⟨revisits, -⟩ | ⟨other, misses', same⟩
      · exact absurd misses lineage.not_misses
      · exact absurd revisits misses.settles.not_revisits
      · rw [same, misses.eq misses']
  · constructor
    · rintro ⟨merged, result⟩
      obtain ⟨_, ancestors, lineage, -⟩ := merged_eq_ok_iff.mp result
      exact ⟨lineage.settles.not_revisits, fun missing => lineage.not_misses⟩
    · rintro ⟨no_cycle, none_missing⟩
      rcases cases with ⟨ancestors, -, same⟩ | ⟨revisits, -⟩ | ⟨missing, misses, -⟩
      · exact ⟨_, same⟩
      · exact absurd revisits no_cycle
      · exact absurd misses (none_missing missing)
  · intro merged result
    obtain ⟨_, ancestors, -, rfl⟩ := merged_eq_ok_iff.mp result
    exact parent_mergeChain _ ancestors
  · exact fun merged => merged_eq_ok_iff_recursive found

/-- Merging refuses the unregistered names, and for the others does what their parent links say. -/
theorem merged_follows_links (catalog : Catalog) (name : String) :
    (catalog.merged name = .error (.noSuchComponent name) ↔ catalog.raw? name = none) ∧
      ∀ definition, catalog.raw? name = some definition →
        catalog.FollowsLinks name definition := by
  refine ⟨⟨fun refused => ?_, merged_of_absent⟩, fun definition => followsLinks_of_found⟩
  cases found : catalog.raw? name with
  | none => rfl
  | some definition =>
      have cases := merged_cases found
      simp [refused] at cases

end Catalog

namespace Sample

/-- Definition that inherits from another one. -/
def heir (parent : String) : Definition :=
  { definition "com.app.Heir" .declared [] none with parent := some parent }

/-- Catalog with a chain, a cycle that does not come back to the name leading to it, and a parent
that is not registered. -/
def heirs : Catalog where
  definitions := .ofList
    [("leaf", heir "mid"), ("mid", heir "root"),
      ("root", definition "com.app.Root" .declared [] none), ("lead", heir "left"),
      ("left", heir "right"), ("right", heir "left"), ("orphan", heir "gone")]
  metadata := ⟨[], [], [], []⟩
  types := .empty

end Sample

theorem Catalog.merged_follows_links_sample :
    Sample.heirs.Revisits "lead" ∧ Sample.heirs.Misses "orphan" "gone" ∧
      ¬ Sample.heirs.Revisits "leaf" ∧ Sample.heirs.raw? "gone" = none := by
  have lead := (Catalog.merged_follows_links Sample.heirs "lead").2 (Sample.heir "left")
    (by decide +kernel)
  have orphan := (Catalog.merged_follows_links Sample.heirs "orphan").2 (Sample.heir "gone")
    (by decide +kernel)
  have leaf := (Catalog.merged_follows_links Sample.heirs "leaf").2 (Sample.heir "mid")
    (by decide +kernel)
  exact ⟨lead.cyclic_iff.mp (by decide +kernel), (orphan.missing_iff _).mp (by decide +kernel),
    (leaf.ok_iff.mp (Except.exists_eq_ok (by decide +kernel))).1,
    (Catalog.merged_follows_links Sample.heirs "gone").1.mp (by decide +kernel)⟩

end Wiring
