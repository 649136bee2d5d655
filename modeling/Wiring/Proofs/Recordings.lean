import Wiring.Proofs.Histories

/-!
# Recordings in a member table

A member table comes about by recording members, types and hints, and by merging such tables.  What
it holds in the end is the union of what its recordings ask, whichever tables they were made in.
-/

namespace Wiring

/-- One recording in a member table. -/
inductive Recording where
  /-- A constructor or method, under the type that declares it. -/
  | executable (executable : Executable)
  /-- A field, under the type that declares it. -/
  | field (field : Field)
  /-- A type, perhaps with kinds of access and fields. -/
  | type (name : TypeName) (access : List Access) (fields : List String)
  /-- What a hint asks of the section to which the table belongs. -/
  | hint (target : MemberSection) (system : TypeSystem) (hint : Hint)

/-- Whether a kind of access is the one that suits a kind of type; none suits arrays. -/
inductive TypeKind.SuitedBy : TypeKind → Access → Prop
  | classType : SuitedBy .classType .declaredConstructors
  | interfaceType : SuitedBy .interfaceType .publicMethods
  | annotationType : SuitedBy .annotationType .publicMethods
  | enumType : SuitedBy .enumType .declaredConstructors

theorem Access.detected_eq_some_iff {kind : TypeKind} {access : Access} :
    detected kind = some access ↔ kind.SuitedBy access := by
  constructor
  · intro found
    cases kind <;> cases found <;> constructor
  · rintro (_ | _ | _ | _) <;> rfl

namespace Recording

/-- Whether a recording makes a type present. -/
def Touches : Recording → TypeName → Prop
  | .executable recorded, name => name = recorded.declaringType
  | .field recorded, name => name = recorded.declaringType
  | .type touched _ _, name => name = touched
  | .hint target _ asked, name => ∃ types ∈ asked.types, types.target = target ∧ name ∈ types.types

/-- Whether a recording requests a kind of access to a type, automatic access standing for the kind
that suits the type. -/
def Requests : Recording → TypeName → Access → Prop
  | .executable _, _, _ => False
  | .field _, _, _ => False
  | .type touched requested _, name, access => name = touched ∧ access ∈ requested
  | .hint target system asked, name, access => ∃ types ∈ asked.types, types.target = target ∧
      name ∈ types.types ∧ (access ∈ types.access ∨
        .autoDetect ∈ types.access ∧ (system.kind name).SuitedBy access)

/-- Whether a recording is about an executable. -/
def Records : Recording → Executable → Prop
  | .executable recorded, wanted => recorded = wanted
  | .field _, _ => False
  | .type _ _ _, _ => False
  | .hint target _ asked, wanted => ∃ types ∈ asked.types, types.target = target ∧
      ∃ name ∈ types.types, ∃ method ∈ types.methods, TypeHint.executable name method = wanted

/-- Whether a recording is about a field. -/
def RecordsField : Recording → Field → Prop
  | .executable _, _ => False
  | .field recorded, wanted => recorded = wanted
  | .type touched _ names, wanted => wanted.declaringType = touched ∧ wanted.name ∈ names
  | .hint target _ asked, wanted => ∃ types ∈ asked.types, types.target = target ∧
      wanted.declaringType ∈ types.types ∧ wanted.name ∈ types.fields

end Recording

namespace MemberTable

/-- Whether a table comes about by a history of recordings, in it and in the tables merged into
it. -/
inductive Recorded : MemberTable → List Recording → Prop
  | empty : Recorded .empty []
  | executable {table : MemberTable} {history : List Recording} (recorded : Recorded table history)
      (executable : Executable) :
      Recorded (table.addExecutable executable) (history ++ [.executable executable])
  | field {table : MemberTable} {history : List Recording} (recorded : Recorded table history)
      (field : Field) : Recorded (table.addField field) (history ++ [.field field])
  | type {table : MemberTable} {history : List Recording} (recorded : Recorded table history)
      (name : TypeName) (access : List Access) (fields : List String) :
      Recorded (table.require name (.ofLists access [] fields))
        (history ++ [.type name access fields])
  | hint {registry : Reachability} {target : MemberSection} {history : List Recording}
      (recorded : Recorded (registry.members target) history) (system : TypeSystem) (hint : Hint) :
      Recorded ((hint.apply system registry).members target)
        (history ++ [.hint target system hint])
  | merge {left right : MemberTable} {first second : List Recording}
      (recorded : Recorded left first) (merged : Recorded right second) :
      Recorded (left.merge right) (first ++ second)

end MemberTable

/-! ### Recordings as additions -/

/-- Additions that a recording makes to its table. -/
def Recording.additions : Recording → List (TypeName × TypeEntry)
  | .executable recorded => [MemberTable.additionOf recorded]
  | .field recorded => [(recorded.declaringType, .ofLists [] [] [recorded.name])]
  | .type name access fields => [(name, .ofLists access [] fields)]
  | .hint target system asked => asked.additions target system

/-- Of the flags of class descriptors, a hint requests those it names and the one that suits the
type. -/
theorem TypeHint.mem_flags_iff {hint : TypeHint} {kind : TypeKind} {access : Access}
    (flag : access.isReflectionFlag) :
    access ∈ hint.flags kind ↔
      access ∈ hint.access ∨ .autoDetect ∈ hint.access ∧ kind.SuitedBy access := by
  have resolved : ∀ requested, access ∈ resolve kind requested ↔
      access = requested ∨ kind.SuitedBy access ∧ requested = .autoDetect := by
    intro requested
    by_cases auto : requested = .autoDetect
    · subst auto
      have differs : access ≠ .autoDetect := by
        rintro rfl
        cases flag
      simp [resolve, differs, Access.detected_eq_some_iff]
    · have kept : resolve kind requested = [requested] := by
        cases requested <;> first | rfl | exact absurd rfl auto
      simp [kept, auto]
  have concrete : access ≠ .jni ∧ access ≠ .resource := by
    constructor <;> rintro rfl <;> cases flag
  simp only [flags, List.mem_filter, List.mem_flatMap, resolved, and_or_left, exists_or,
    exists_eq_right', exists_eq_right_right]
  simp [concrete]

namespace Recording

variable {recording : Recording} {name : TypeName}

theorem exists_mem_additions_iff_touches :
    (∃ addition ∈ recording.additions, name = addition.1) ↔ recording.Touches name := by
  cases recording with
  | executable recorded => simp [additions, Touches, MemberTable.additionOf]
  | field recorded => simp [additions, Touches]
  | type touched requested names => simp [additions, Touches]
  | hint target system asked =>
      simpa only [additions, Touches, and_true] using Hint.exists_mem_additions_iff fun _ => True

theorem exists_mem_additions_iff_requests {access : Access} (flag : access.isReflectionFlag) :
    (∃ addition ∈ recording.additions, name = addition.1 ∧ access ∈ addition.2.access) ↔
      recording.Requests name access := by
  cases recording with
  | executable recorded =>
      simp [additions, Requests, MemberTable.additionOf, TypeEntry.ofLists]
  | field recorded => simp [additions, Requests, TypeEntry.ofLists]
  | type touched requested names => simp [additions, Requests, TypeEntry.ofLists]
  | hint target system asked =>
      rw [additions, Hint.exists_mem_additions_iff (access ∈ ·.access)]
      simp [Requests, TypeHint.entry, TypeEntry.ofLists, TypeHint.mem_flags_iff flag]

theorem exists_mem_additions_iff_records {executable : Executable} :
    (∃ addition ∈ recording.additions, name = addition.1 ∧ executable ∈ addition.2.executables) ↔
      executable.declaringType = name ∧ recording.Records executable := by
  cases recording with
  | executable recorded =>
      simp only [additions, Records, MemberTable.additionOf, TypeEntry.ofLists, List.mem_singleton,
        exists_eq_left, SortedSet.mem_ofList]
      constructor
      · rintro ⟨home, rfl⟩
        exact ⟨home.symm, rfl⟩
      · rintro ⟨home, rfl⟩
        exact ⟨home.symm, rfl⟩
  | field recorded => simp [additions, Records, TypeEntry.ofLists]
  | type touched requested names => simp [additions, Records, TypeEntry.ofLists]
  | hint target system asked =>
      rw [additions, Hint.exists_mem_additions_iff (executable ∈ ·.executables)]
      simp only [Records, TypeHint.entry, TypeEntry.ofLists, SortedSet.mem_ofList, List.mem_map]
      constructor
      · rintro ⟨types, listed, here, mem, method, asks, rfl⟩
        exact ⟨TypeHint.declaringType_executable name method, types, listed, here, name, mem,
          method, asks, rfl⟩
      · rintro ⟨rfl, types, listed, here, own, mem, method, asks, rfl⟩
        rw [TypeHint.declaringType_executable]
        exact ⟨types, listed, here, mem, method, asks, rfl⟩

theorem exists_mem_additions_iff_recordsField {field : String} :
    (∃ addition ∈ recording.additions, name = addition.1 ∧ field ∈ addition.2.fields) ↔
      recording.RecordsField ⟨name, field⟩ := by
  cases recording with
  | executable recorded =>
      simp [additions, RecordsField, MemberTable.additionOf, TypeEntry.ofLists]
  | field recorded =>
      cases recorded
      simp [additions, RecordsField, TypeEntry.ofLists, eq_comm]
  | type touched requested names => simp [additions, RecordsField, TypeEntry.ofLists]
  | hint target system asked =>
      rw [additions, Hint.exists_mem_additions_iff (field ∈ ·.fields)]
      simp [RecordsField, TypeHint.entry, TypeEntry.ofLists]

end Recording

namespace MemberTable

/-- Additions to a table merge into it what they make of the empty one. -/
theorem requireAll_eq_merge (table : MemberTable) (additions : List (TypeName × TypeEntry)) :
    table.requireAll additions = table.merge (requireAll .empty additions) := by
  induction additions generalizing table with
  | nil => rfl
  | cons addition additions ih =>
      calc table.requireAll (addition :: additions)
          _ = (table.require addition.1 addition.2).merge (requireAll .empty additions) := ih _
          _ = (table.merge (require .empty addition.1 addition.2)).merge
                (requireAll .empty additions) := by rw [← require_eq_merge]
          _ = table.merge ((require .empty addition.1 addition.2).merge
                (requireAll .empty additions)) := SortedMap.mergeWith_assoc ..
          _ = table.merge (requireAll .empty (addition :: additions)) := by rw [← ih]; rfl

/-- A table is what the additions of its recordings make of the empty one. -/
theorem Recorded.eq_requireAll {table : MemberTable} {history : List Recording}
    (recorded : Recorded table history) :
    table = requireAll .empty (history.flatMap Recording.additions) := by
  induction recorded with
  | empty => rfl
  | executable recorded executable ih =>
      rw [List.flatMap_append, requireAll_append, ← ih]
      rfl
  | field recorded field ih =>
      rw [List.flatMap_append, requireAll_append, ← ih]
      rfl
  | type recorded name access fields ih =>
      rw [List.flatMap_append, requireAll_append, ← ih]
      rfl
  | hint recorded system hint ih =>
      rw [List.flatMap_append, requireAll_append, ← ih, Hint.members_apply,
        List.flatMap_singleton, Recording.additions]
  | merge recorded merged ih ih' =>
      rw [List.flatMap_append, requireAll_append, ← ih, requireAll_eq_merge, ← ih']

theorem isSome_get?_requireAll (table : MemberTable) (additions : List (TypeName × TypeEntry))
    (name : TypeName) :
    ((table.requireAll additions).get? name).isSome ↔
      (table.get? name).isSome ∨ ∃ addition ∈ additions, name = addition.1 := by
  rw [requireAll]
  refine foldl_holds_iff _ (fun table => (table.get? name).isSome)
    (fun addition => name = addition.1) (fun table addition => ?_) additions table
  rw [get?_require]
  by_cases same : name = addition.1
  · simp [same]
  · simp [same]

/-! ### What a recorded table holds -/

theorem exists_mem_flatMap_iff {α β : Type} {items : List α} {parts : α → List β}
    {property : β → Prop} :
    (∃ part ∈ items.flatMap parts, property part) ↔
      ∃ item ∈ items, ∃ part ∈ parts item, property part := by
  simp only [List.mem_flatMap]
  exact ⟨fun ⟨part, ⟨item, mem, here⟩, holds⟩ => ⟨item, mem, part, here, holds⟩,
    fun ⟨item, mem, part, here, holds⟩ => ⟨part, ⟨item, mem, here⟩, holds⟩⟩

namespace Recorded

variable {table : MemberTable} {history : List Recording}

theorem isSome_get?_iff (recorded : Recorded table history) (name : TypeName) :
    (table.get? name).isSome ↔ ∃ recording ∈ history, recording.Touches name := by
  simp only [← Recording.exists_mem_additions_iff_touches]
  rw [recorded.eq_requireAll, isSome_get?_requireAll, exists_mem_flatMap_iff]
  simp

/-- An entry has a property that passes to unions exactly if some recording adds it. -/
theorem getD_iff (recorded : Recorded table history) (name : TypeName) (property : TypeEntry → Prop)
    (union : ∀ left right, property (left ∪ right) ↔ property left ∨ property right)
    (empty : ¬ property .empty) :
    property ((table.get? name).getD .empty) ↔ ∃ recording ∈ history,
      ∃ addition ∈ recording.additions, name = addition.1 ∧ property addition.2 := by
  rw [recorded.eq_requireAll, getD_requireAll_iff property union, exists_mem_flatMap_iff]
  simp [empty]

theorem mem_access_iff (recorded : Recorded table history) (name : TypeName) {access : Access}
    (flag : access.isReflectionFlag) :
    access ∈ ((table.get? name).getD .empty).access ↔
      ∃ recording ∈ history, recording.Requests name access := by
  simp only [← Recording.exists_mem_additions_iff_requests flag]
  exact recorded.getD_iff name (access ∈ ·.access)
    (fun left right => SortedSet.mem_union) (SortedSet.not_mem_empty access)

theorem mem_executables_iff (recorded : Recorded table history) (name : TypeName)
    (executable : Executable) :
    executable ∈ ((table.get? name).getD .empty).executables ↔
      executable.declaringType = name ∧ ∃ recording ∈ history, recording.Records executable := by
  have added := recorded.getD_iff name (executable ∈ ·.executables)
    (fun left right => SortedSet.mem_union) (SortedSet.not_mem_empty executable)
  simp only [Recording.exists_mem_additions_iff_records] at added
  rw [added]
  exact ⟨fun ⟨recording, mem, home, records⟩ => ⟨home, recording, mem, records⟩,
    fun ⟨home, recording, mem, records⟩ => ⟨recording, mem, home, records⟩⟩

theorem mem_fields_iff (recorded : Recorded table history) (name : TypeName) (field : String) :
    field ∈ ((table.get? name).getD .empty).fields ↔
      ∃ recording ∈ history, recording.RecordsField ⟨name, field⟩ := by
  simp only [← Recording.exists_mem_additions_iff_recordsField]
  exact recorded.getD_iff name (field ∈ ·.fields)
    (fun left right => SortedSet.mem_union) (SortedSet.not_mem_empty field)

end Recorded

end MemberTable
end Wiring
