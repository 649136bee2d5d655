import Wiring.Proofs.Merging
import Wiring.Proofs.NearestDefinitions

/-!
# Grouped levels

Merging definitions is associative, although the two sides of the law drop inherited properties by
different sets of names.  The levels of a parent chain may therefore be merged in any groups: all
groupings of the same levels make the same definition, and the merged definition of a name is the
one that they make of its parent chain.
-/

namespace Wiring
namespace Definition

/-! ### Associativity -/

/-- A merged definition has the properties of both sides. -/
theorem hasProperty_mergedWith (child parent : Definition) (name : String) :
    (child.mergedWith parent).hasProperty name =
      (parent.hasProperty name || child.hasProperty name) := by
  rw [hasProperty, mergedWith, List.any_append, List.any_filter]
  by_cases own : child.hasProperty name = true
  · rw [hasProperty] at own
    rw [hasProperty, hasProperty, own, Bool.or_true, Bool.or_true]
  · -- an entry of this name is inherited, since the child has none
    have kept : (fun property : PropertyValue =>
        !child.hasProperty property.name && property.name == name) = (·.name == name) := by
      funext property
      by_cases same : property.name = name
      · simp [same, own]
      · simp [same]
    rw [kept]
    rfl

/-- The nearest level replaces the properties of the two others at once or one after the other. -/
theorem properties_mergedWith_assoc (first second third : Definition) :
    (first.mergedWith (second.mergedWith third)).properties =
      ((first.mergedWith second).mergedWith third).properties := by
  have replaced : ∀ property : PropertyValue,
      (!first.hasProperty property.name && !second.hasProperty property.name) =
        !(first.mergedWith second).hasProperty property.name := by
    intro property
    rw [hasProperty_mergedWith, Bool.not_or, Bool.and_comm]
  calc (first.mergedWith (second.mergedWith third)).properties
      _ = (third.properties.filter (!second.hasProperty ·.name) ++ second.properties).filter
            (!first.hasProperty ·.name) ++ first.properties := rfl
      _ = third.properties.filter (!(first.mergedWith second).hasProperty ·.name) ++
            (second.properties.filter (!first.hasProperty ·.name) ++ first.properties) := by
        rw [List.filter_append, List.filter_filter, List.append_assoc]
        simp only [replaced]
      _ = ((first.mergedWith second).mergedWith third).properties := rfl

theorem mergedWith_assoc (first second third : Definition) :
    first.mergedWith (second.mergedWith third) = (first.mergedWith second).mergedWith third := by
  have properties := properties_mergedWith_assoc first second third
  have arguments : (first.mergedWith (second.mergedWith third)).arguments =
      ((first.mergedWith second).mergedWith third).arguments :=
    SortedMap.mergeWith_assoc third.arguments second.arguments first.arguments
  simp only [mergedWith] at properties arguments ⊢
  rw [properties, arguments]
  simp only [Option.orElse_eq_orElse, Option.orElse_eq_or, Option.or_assoc, Bool.or_assoc]

/-! ### Groupings -/

/-- Way to merge the levels of a chain, two neighbouring groups at a time. -/
inductive Grouping where
  /-- A single level. -/
  | level (definition : Definition)
  /-- Two groups, of which the nearer one inherits from the farther one. -/
  | join (nearer farther : Grouping)

namespace Grouping

/-- Levels of a grouping, nearest first. -/
def levels : Grouping → List Definition
  | level definition => [definition]
  | join nearer farther => nearer.levels ++ farther.levels

/-- Definition that a grouping makes of its levels. -/
def merged : Grouping → Definition
  | level definition => definition
  | join nearer farther => nearer.merged.mergedWith farther.merged

theorem exists_levels_eq_cons (grouping : Grouping) :
    ∃ nearest ancestors, grouping.levels = nearest :: ancestors := by
  induction grouping with
  | level definition => exact ⟨definition, [], rfl⟩
  | join nearer farther ih _ =>
      obtain ⟨nearest, ancestors, levels_eq⟩ := ih
      exact ⟨nearest, ancestors ++ farther.levels, by rw [levels, levels_eq, List.cons_append]⟩

end Grouping

/-- A chain may be cut anywhere, and its two parts merged by themselves. -/
theorem mergeChain_append (definition next : Definition) (nearer farther : List Definition) :
    definition.mergeChain (nearer ++ next :: farther) =
      (definition.mergeChain nearer).mergedWith (next.mergeChain farther) := by
  induction nearer generalizing definition with
  | nil => rfl
  | cons other nearer ih =>
      rw [List.cons_append, mergeChain, ih, mergeChain, mergedWith_assoc]

namespace Grouping

/-- Every grouping makes of its levels what merging them one after another makes. -/
theorem detached_merged {grouping : Grouping} {nearest : Definition} {ancestors : List Definition}
    (chain : grouping.levels = nearest :: ancestors) :
    grouping.merged.detached = nearest.mergeChain ancestors := by
  induction grouping generalizing nearest ancestors with
  | level definition =>
      cases chain
      rfl
  | join nearer farther ih ih' =>
      obtain ⟨first, between, nearer_eq⟩ := nearer.exists_levels_eq_cons
      obtain ⟨next, beyond, farther_eq⟩ := farther.exists_levels_eq_cons
      rw [levels, nearer_eq, farther_eq] at chain
      obtain ⟨rfl, rfl⟩ := List.cons.inj chain
      calc (nearer.join farther).merged.detached
          _ = nearer.merged.detached.mergedWith farther.merged.detached := rfl
          _ = (first.mergeChain between).mergedWith (next.mergeChain beyond) := by
            rw [ih nearer_eq, ih' farther_eq]
          _ = first.mergeChain (between ++ next :: beyond) :=
            (mergeChain_append first next between beyond).symm

/-- The groups do not matter, only the levels. -/
theorem merged_eq_of_levels_eq {first second : Grouping} (same : first.levels = second.levels) :
    first.merged = second.merged := by
  obtain ⟨nearest, ancestors, chain⟩ := first.exists_levels_eq_cons
  have detached : first.merged.detached = second.merged.detached := by
    rw [detached_merged chain, detached_merged (same ▸ chain)]
  -- joined groups have no parent left, so only single levels can differ from what is detached
  have joined (nearer farther : Grouping) : 2 ≤ (nearer.join farther).levels.length := by
    obtain ⟨_, _, nearer_eq⟩ := nearer.exists_levels_eq_cons
    obtain ⟨_, _, farther_eq⟩ := farther.exists_levels_eq_cons
    simp [levels, nearer_eq, farther_eq]
    omega
  cases first with
  | level definition =>
      cases second with
      | level other => exact List.singleton_inj.mp same
      | join nearer farther =>
          have two := joined nearer farther
          rw [← same] at two
          exact absurd two (by simp [levels])
  | join nearer farther =>
      cases second with
      | level other =>
          have two := joined nearer farther
          rw [same] at two
          exact absurd two (by simp [levels])
      | join nearer' farther' => exact detached

end Grouping
end Definition

/-- Merging is associative, so the definitions of a parent chain of any length make the same merged
definition in whatever groups they are merged. -/
theorem Catalog.merges_in_any_grouping :
    (∀ first second third : Definition, first.mergedWith (second.mergedWith third) =
      (first.mergedWith second).mergedWith third) ∧
    (∀ first second : Definition.Grouping, first.levels = second.levels →
      first.merged = second.merged) ∧
    ∀ (catalog : Catalog) (name : String) (merged : Definition),
      catalog.merged name = .ok merged → ∃ nearest ancestors,
        catalog.Lineage name nearest ancestors ∧
          ∀ grouping : Definition.Grouping, grouping.levels = nearest :: ancestors →
            merged = grouping.merged.detached := by
  refine ⟨Definition.mergedWith_assoc, fun _ _ => Definition.Grouping.merged_eq_of_levels_eq, ?_⟩
  intro catalog name merged result
  obtain ⟨nearest, ancestors, lineage, rfl⟩ := merged_eq_ok_iff.mp result
  exact ⟨nearest, ancestors, lineage, fun grouping chain =>
    (Definition.Grouping.detached_merged chain).symm⟩

namespace Sample

/-- Definition without parent, with two entries of a name. -/
def ground : Definition :=
  layer [(0, .literal "ground")] [("mode", "fast"), ("mode", "slow"), ("name", "ground")] none

/-- Definition that replaces one name of its parent. -/
def lower : Definition :=
  layer [(1, .literal "lower")] [("size", "1"), ("name", "lower")] (some "ground")

/-- Definition that replaces another name, with two entries. -/
def upper : Definition := layer [] [("mode", "safe"), ("mode", "safest")] (some "lower")

/-- Definition that replaces names of two ancestors. -/
def top : Definition := layer [(0, .reference "top")] [("name", "top"), ("size", "9")] (some "upper")

/-- Catalog with a chain of four definitions. -/
def tiers : Catalog where
  definitions := .ofList [("top", top), ("upper", upper), ("lower", lower), ("ground", ground)]
  metadata := ⟨[], [], [], []⟩
  types := .empty

/-- The chain merged in two pairs. -/
def pairs : Definition.Grouping :=
  .join (.join (.level top) (.level upper)) (.join (.level lower) (.level ground))

/-- The chain merged from its nearest level on. -/
def downwards : Definition.Grouping :=
  .join (.join (.join (.level top) (.level upper)) (.level lower)) (.level ground)

end Sample

theorem Catalog.merges_in_any_grouping_tiers :
    Sample.pairs.levels = Sample.downwards.levels ∧
      Sample.pairs.merged = Sample.downwards.merged ∧
      Sample.tiers.merged "top" = .ok Sample.pairs.merged.detached := by
  have same : Sample.pairs.levels = Sample.downwards.levels := rfl
  obtain ⟨-, groupings, chains⟩ := Catalog.merges_in_any_grouping
  have lineage : Sample.tiers.Lineage "top" Sample.top [Sample.upper, Sample.lower, Sample.ground] :=
    .child rfl rfl (.child rfl rfl (.child rfl rfl (.root rfl rfl)))
  have result := merged_eq_ok_iff.mpr ⟨_, _, lineage, rfl⟩
  obtain ⟨nearest, ancestors, lineage', merges⟩ := chains Sample.tiers "top" _ result
  obtain ⟨rfl, rfl⟩ := lineage.eq lineage'
  rw [merges Sample.pairs rfl] at result
  exact ⟨same, groupings _ _ same, result⟩

end Wiring
