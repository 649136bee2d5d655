import Wiring.Bootstrap.Processors
import Wiring.Proofs.Merging

/-!
# Additions in any order

Requirements enter a member table by union, so the order in which they are added is irrelevant.  A
plan is a list of such additions, and processors of components therefore do not depend on the order
of the plans.
-/

namespace Wiring

theorem SortedSet.insert_right_comm {α : Type} [Ord α] [Std.TransOrd α] [Std.LawfulEqOrd α]
    (set : SortedSet α) (first second : α) :
    (set.insert first).insert second = (set.insert second).insert first := by
  apply ext
  intro item
  simp [or_left_comm]

theorem TypeEntry.union_right_comm (start first second : TypeEntry) :
    start ∪ first ∪ second = start ∪ second ∪ first := by
  rw [union_assoc, union_comm first, ← union_assoc]

namespace MemberTable

/-- Two additions may change places. -/
theorem require_right_comm (table : MemberTable) (first second : TypeName × TypeEntry) :
    (table.require first.1 first.2).require second.1 second.2 =
      (table.require second.1 second.2).require first.1 first.2 := by
  apply SortedMap.ext
  intro name
  simp only [require, SortedMap.get?_update]
  by_cases same : second.1 = first.1
  · rw [same]
    split
    next here => simp [TypeEntry.union_right_comm _ first.2]
    next elsewhere => rfl
  · by_cases here : name = second.1
    · simp [here, same]
    · simp [here, Ne.symm same]

/-- Add the entries of a list. -/
def requireAll (table : MemberTable) (additions : List (TypeName × TypeEntry)) : MemberTable :=
  additions.foldl (fun table addition => table.require addition.1 addition.2) table

theorem requireAll_append (table : MemberTable) (first second : List (TypeName × TypeEntry)) :
    table.requireAll (first ++ second) = (table.requireAll first).requireAll second :=
  List.foldl_append

/-- Additions may be made in any order. -/
theorem requireAll_perm (table : MemberTable) {additions additions' : List (TypeName × TypeEntry)}
    (perm : additions.Perm additions') :
    table.requireAll additions = table.requireAll additions' :=
  perm.foldl_eq' (fun first _ second _ table => table.require_right_comm first second) table

/-- Addition of an executable under the type that declares it. -/
def additionOf (executable : Executable) : TypeName × TypeEntry :=
  (executable.declaringType, .ofLists [] [executable] [])

theorem addExecutables_eq_requireAll (table : MemberTable) (executables : List Executable) :
    table.addExecutables executables = table.requireAll (executables.map additionOf) := by
  rw [requireAll, List.foldl_map]
  rfl

end MemberTable

theorem Reachability.reflect_perm (registry : Reachability)
    {executables executables' : List Executable} (perm : executables.Perm executables') :
    registry.reflect executables = registry.reflect executables' := by
  simp only [reflect, MemberTable.addExecutables_eq_requireAll,
    MemberTable.requireAll_perm _ (perm.map MemberTable.additionOf)]

namespace Plan

/-- Additions that a plan makes for its creator. -/
def creatorAdditions (types : TypeSystem) (creator : Executable) : List (TypeName × TypeEntry) :=
  (hidden types [creator]).map MemberTable.additionOf ++
    (creator.parameters.filter fun parameter => !parameter.isPrimitive).map (·, .empty)

/-- Additions that a plan makes to the reflection section. -/
def additions (types : TypeSystem) (plan : Plan) : List (TypeName × TypeEntry) :=
  plan.creator.toList.flatMap (creatorAdditions types) ++
    (hidden types (plan.injections.map (·.2)) ++ plan.initMethods ++ plan.destroyMethods).map
      MemberTable.additionOf

/-- A plan makes its additions and changes nothing else. -/
theorem require_eq (types : TypeSystem) (registry : Reachability) (plan : Plan) :
    plan.require types registry =
      { registry with reflection := registry.reflection.requireAll (plan.additions types) } := by
  have touched : ∀ (table : MemberTable) (names : List TypeName),
      names.foldl MemberTable.touch table = table.requireAll (names.map (·, .empty)) := by
    intro table names
    rw [MemberTable.requireAll, List.foldl_map]
    rfl
  unfold require additions
  rw [MemberTable.requireAll_append, ← MemberTable.addExecutables_eq_requireAll]
  cases plan.creator with
  | none => rfl
  | some creator =>
      simp only [touchParameters, Reachability.reflect, touched, Option.toList_some,
        List.flatMap_singleton, creatorAdditions, MemberTable.requireAll_append,
        MemberTable.addExecutables_eq_requireAll]

theorem require_right_comm (types : TypeSystem) (registry : Reachability) (first second : Plan) :
    second.require types (first.require types registry) =
      first.require types (second.require types registry) := by
  simp only [require_eq, ← MemberTable.requireAll_append]
  rw [MemberTable.requireAll_perm _ List.perm_append_comm]

end Plan

namespace ComponentProcessor

theorem process_perm (types : TypeSystem) (registry : Reachability) {plans plans' : List Plan}
    (perm : plans.Perm plans') (processor : ComponentProcessor) :
    processor.process types plans registry = processor.process types plans' registry := by
  cases processor with
  | injectionPoints =>
      exact perm.foldl_eq'
        (fun first _ second _ registry => Plan.require_right_comm types registry first second)
        registry
  | serialization =>
      refine perm.foldl_eq' (fun first _ second _ registry => ?_) registry
      simp only [Reachability.addSerializable, SortedSet.insert_right_comm _ first.userType]

/-- Processors of components do not depend on the order of the plans. -/
theorem processAll_perm (types : TypeSystem) (registry : Reachability)
    (processors : List ComponentProcessor) {plans plans' : List Plan} (perm : plans.Perm plans') :
    processAll types plans registry processors = processAll types plans' registry processors := by
  unfold processAll
  congr 1
  funext registry processor
  exact process_perm types registry perm processor

end ComponentProcessor
end Wiring
