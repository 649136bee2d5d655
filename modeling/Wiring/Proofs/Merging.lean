import Wiring.Reachability

/-!
# Laws of merging

Registries are merged section by section.  Every section but the options is joined by an operation
that is associative, commutative and idempotent; options keep the right value, which is associative
and idempotent only.
-/

namespace Wiring

namespace SortedSet

variable {α : Type} [Ord α] [Std.TransOrd α] [Std.LawfulEqOrd α]

theorem union_assoc (first second third : SortedSet α) :
    first ∪ second ∪ third = first ∪ (second ∪ third) :=
  ext fun item => by simp [or_assoc]

theorem union_comm (left right : SortedSet α) : left ∪ right = right ∪ left :=
  ext fun item => by simp [or_comm]

@[simp]
theorem union_self (set : SortedSet α) : set ∪ set = set := ext fun item => by simp

/-- Adding a member joins the set of that member. -/
theorem insert_eq_union (set : SortedSet α) (item : α) :
    set.insert item = set ∪ empty.insert item :=
  ext fun found => by simp [or_comm]

end SortedSet

namespace TypeEntry

theorem union_assoc (first second third : TypeEntry) :
    first ∪ second ∪ third = first ∪ (second ∪ third) := by
  show union (union _ _) _ = union _ (union _ _)
  simp only [union, SortedSet.union_assoc]

theorem union_comm (left right : TypeEntry) : left ∪ right = right ∪ left := by
  show union _ _ = union _ _
  simp only [union, SortedSet.union_comm left.access, SortedSet.union_comm left.executables,
    SortedSet.union_comm left.fields]

@[simp]
theorem union_self (entry : TypeEntry) : entry ∪ entry = entry := by
  show union _ _ = _
  simp only [union, SortedSet.union_self]

instance : Std.Associative (Union.union : TypeEntry → TypeEntry → TypeEntry) := ⟨union_assoc⟩
instance : Std.Commutative (Union.union : TypeEntry → TypeEntry → TypeEntry) := ⟨union_comm⟩
instance : Std.IdempotentOp (Union.union : TypeEntry → TypeEntry → TypeEntry) := ⟨union_self⟩

end TypeEntry

namespace Phase

instance : Std.Associative later := ⟨later_assoc⟩
instance : Std.Commutative later := ⟨later_comm⟩
instance : Std.IdempotentOp later := ⟨later_self⟩

end Phase

namespace SortedMap

variable {κ ν : Type} [Ord κ] [Std.TransOrd κ] [Std.LawfulEqOrd κ] [DecidableEq κ]
variable {combine : ν → ν → ν}

theorem mergeWith_assoc [Std.Associative combine] (first second third : SortedMap κ ν) :
    mergeWith combine (mergeWith combine first second) third =
      mergeWith combine first (mergeWith combine second third) := by
  apply ext
  intro key
  simp only [get?_mergeWith]
  exact Std.Associative.assoc _ _ _

theorem mergeWith_comm [Std.Commutative combine] (left right : SortedMap κ ν) :
    mergeWith combine left right = mergeWith combine right left := by
  apply ext
  intro key
  simp only [get?_mergeWith]
  exact Std.Commutative.comm _ _

theorem mergeWith_self [Std.IdempotentOp combine] (map : SortedMap κ ν) :
    mergeWith combine map map = map := by
  apply ext
  intro key
  simp only [get?_mergeWith]
  exact Std.IdempotentOp.idempotent _

/-- A change that joins to each value what it makes of absence is a merge. -/
theorem alter_eq_mergeWith {change : Option ν → Option ν}
    (joins : ∀ value?, change value? = Option.merge combine value? (change none))
    (map : SortedMap κ ν) (key : κ) :
    map.alter key change = mergeWith combine map (empty.alter key change) := by
  apply ext
  intro other
  rw [get?_mergeWith, get?_alter, get?_alter]
  split
  next same => rw [get?_empty, joins, same]
  next => simp

/-- The right value wins for every key of both. -/
instance : Std.Associative fun _ value : ν => value := ⟨fun _ _ _ => rfl⟩
instance : Std.IdempotentOp fun _ value : ν => value := ⟨fun _ => rfl⟩

theorem insert_eq_overrideWith (map : SortedMap κ ν) (key : κ) (value : ν) :
    map.insert key value = map.overrideWith (empty.insert key value) :=
  alter_eq_mergeWith (fun value? => by cases value? <;> rfl) map key

end SortedMap

namespace MemberTable

/-- A requirement joins the table of that requirement. -/
theorem require_eq_merge (table : MemberTable) (name : TypeName) (entry : TypeEntry) :
    table.require name entry = table.merge (require .empty name entry) := by
  refine SortedMap.alter_eq_mergeWith (fun value? => ?_) table name
  cases value? with
  | none => rfl
  | some value =>
      have joined : value ∪ entry = value ∪ (.empty ∪ entry) := by
        rw [← TypeEntry.union_assoc]
        rfl
      exact congrArg some joined

end MemberTable

namespace PhaseTable

/-- A request joins the table of that request. -/
theorem request_eq_mergeWith (table : PhaseTable) (name : String) (phase : Phase) :
    table.request name phase =
      SortedMap.mergeWith Phase.later table (request .empty name phase) := by
  refine SortedMap.alter_eq_mergeWith (fun value? => ?_) table name
  cases value? <;> simp

end PhaseTable

namespace Resources

theorem merge_assoc (first second third : Resources) :
    (first.merge second).merge third = first.merge (second.merge third) := by
  simp only [merge, SortedSet.union_assoc]

theorem merge_comm (left right : Resources) : left.merge right = right.merge left := by
  simp only [merge, SortedSet.union_comm left.patterns, SortedSet.union_comm left.bundles]

theorem merge_self (resources : Resources) : resources.merge resources = resources := by
  simp only [merge, SortedSet.union_self]

/-- A resource joins the collection of that resource. -/
theorem add_eq_merge (resources : Resources) (entry : ResourceEntry) :
    resources.add entry = resources.merge (Resources.empty.add entry) := by
  cases entry with
  | pattern text =>
      exact congrArg (fun patterns => { resources with patterns })
        (SortedSet.insert_eq_union resources.patterns text)
  | bundle name =>
      exact congrArg (fun bundles => { resources with bundles })
        (SortedSet.insert_eq_union resources.bundles name)

end Resources

namespace Phases

theorem merge_assoc (first second third : Phases) :
    (first.merge second).merge third = first.merge (second.merge third) := by
  simp only [merge, SortedMap.mergeWith_assoc]

theorem merge_comm (left right : Phases) : left.merge right = right.merge left := by
  simp only [merge, SortedMap.mergeWith_comm left.classes, SortedMap.mergeWith_comm left.packages]

theorem merge_self (phases : Phases) : phases.merge phases = phases := by
  simp only [merge, SortedMap.mergeWith_self]

end Phases

namespace Reachability

theorem merge_assoc (first second third : Reachability) :
    (first.merge second).merge third = first.merge (second.merge third) := by
  simp only [merge, MemberTable.merge, SortedMap.overrideWith, SortedMap.mergeWith_assoc,
    Resources.merge_assoc, Phases.merge_assoc, SortedSet.union_assoc]

@[simp]
theorem merge_empty (registry : Reachability) : registry.merge .empty = registry := rfl

theorem merge_self (registry : Reachability) : registry.merge registry = registry := by
  simp only [merge, MemberTable.merge, SortedMap.overrideWith, SortedMap.mergeWith_self,
    Resources.merge_self, Phases.merge_self, SortedSet.union_self]

/-- Registries without options may be merged in either order. -/
theorem merge_comm {left right : Reachability} (left_free : left.options = .empty)
    (right_free : right.options = .empty) : left.merge right = right.merge left := by
  simp only [merge, MemberTable.merge, SortedMap.mergeWith_comm left.reflection,
    SortedMap.mergeWith_comm left.jni, Resources.merge_comm left.resources,
    Phases.merge_comm left.phases, SortedSet.union_comm left.proxies,
    SortedSet.union_comm left.serialization, left_free, right_free]

end Reachability
end Wiring
