import Wiring.Proofs.Recordings
import Wiring.Proofs.TriggeredHints

/-!
# Routed hints

Three of the kinds of access that a type hint may request are not recorded: one stands for the
access that suits the kind of a type, one selects the section, and one keeps the class file.
`TypeHint.Routes` says what becomes of a registry when a type hint is applied, and what stays as it
was.
-/

namespace Wiring

namespace TypeHint

variable {hint : TypeHint} {system : TypeSystem} {name : TypeName} {access : Access}

/-- Whether an entry of a type is an earlier one enlarged by exactly what a hint asks. -/
structure Enlarges (hint : TypeHint) (system : TypeSystem) (name : TypeName)
    (before after : TypeEntry) : Prop where
  /-- Access that the hint requests as such, or that suits the type if it is to be detected. -/
  access : ∀ access, access ∈ after.access ↔ access ∈ before.access ∨
    (access ∈ hint.access ∧ access ≠ .autoDetect ∧ access ≠ .jni ∧ access ≠ .resource) ∨
      .autoDetect ∈ hint.access ∧ (system.kind name).SuitedBy access
  /-- Executables of the type, those with the name of constructors being constructors. -/
  executables : ∀ executable, executable ∈ after.executables ↔ executable ∈ before.executables ∨
    ∃ method parameters, (method, parameters) ∈ hint.methods ∧
      (method = "<init>" ∧ executable = .ofConstructor name parameters ∨
        method ≠ "<init>" ∧ executable = .ofMethod name method parameters)
  /-- Fields. -/
  fields : ∀ field, field ∈ after.fields ↔ field ∈ before.fields ∨ field ∈ hint.fields

/-- Characters of the path of a type's class file. -/
def classPath (name : TypeName) : List Char :=
  name.text.toList.map (fun char => if char = '.' then '/' else char) ++ ".class".toList

/-- What a hint about types makes of a registry. -/
structure Routes (hint : TypeHint) (system : TypeSystem) (before after : Reachability) :
    Prop where
  /-- In the section of the hint, the entry of each of its types is enlarged. -/
  enlarged : ∀ name ∈ hint.types, ∃ entry,
    (after.members hint.target).get? name = some entry ∧
      hint.Enlarges system name (((before.members hint.target).get? name).getD .empty) entry
  /-- In that section, other types keep their entries, or have none as before. -/
  others : ∀ name ∉ hint.types,
    (after.members hint.target).get? name = (before.members hint.target).get? name
  /-- The other section stays as it was. -/
  other_section : ∀ target ≠ hint.target, after.members target = before.members target
  /-- The class files of the types are added if the hint requests them. -/
  patterns : ∀ text, text ∈ after.resources.patterns ↔ text ∈ before.resources.patterns ∨
    .resource ∈ hint.access ∧ ∃ name ∈ hint.types, text.toList = classPath name
  /-- Bundles stay as they were. -/
  bundles : after.resources.bundles = before.resources.bundles
  /-- Proxies stay as they were. -/
  proxies : after.proxies = before.proxies
  /-- Initialization phases stay as they were. -/
  phases : after.phases = before.phases
  /-- Serializable types stay as they were. -/
  serialization : after.serialization = before.serialization
  /-- Options stay as they were. -/
  options : after.options = before.options

/-! ### Requested access -/

theorem isReflectionFlag_iff :
    access.isReflectionFlag ↔ access ≠ .autoDetect ∧ access ≠ .jni ∧ access ≠ .resource := by
  cases access <;> simp [Access.isReflectionFlag]

/-- Access that suits a type is always a flag of class descriptors. -/
theorem isReflectionFlag_of_suitedBy {kind : TypeKind} (suits : kind.SuitedBy access) :
    access.isReflectionFlag := by
  cases suits <;> rfl

/-- No request that only directs the others is recorded. -/
theorem isReflectionFlag_of_mem_flags {kind : TypeKind} (recorded : access ∈ hint.flags kind) :
    access.isReflectionFlag := by
  simp only [flags, List.mem_filter, List.mem_flatMap, Bool.and_eq_true, bne_iff_ne] at recorded
  obtain ⟨⟨requested, -, means⟩, not_native, not_file⟩ := recorded
  cases requested with
  | autoDetect =>
      have detected := Option.mem_toList.mp means
      exact isReflectionFlag_of_suitedBy (Access.detected_eq_some_iff.mp detected)
  | jni => exact absurd (List.mem_singleton.mp means) not_native
  | resource => exact absurd (List.mem_singleton.mp means) not_file
  | _ =>
      obtain rfl := List.mem_singleton.mp means
      rfl

theorem mem_flags_iff_concrete {kind : TypeKind} :
    access ∈ hint.flags kind ↔
      (access ∈ hint.access ∧ access ≠ .autoDetect ∧ access ≠ .jni ∧ access ≠ .resource) ∨
        .autoDetect ∈ hint.access ∧ kind.SuitedBy access := by
  rw [← isReflectionFlag_iff]
  constructor
  · intro recorded
    have flag := isReflectionFlag_of_mem_flags recorded
    exact ((mem_flags_iff flag).mp recorded).imp_left fun mem => ⟨mem, flag⟩
  · rintro (⟨mem, flag⟩ | ⟨auto, suits⟩)
    · exact (mem_flags_iff flag).mpr (.inl mem)
    · exact (mem_flags_iff (isReflectionFlag_of_suitedBy suits)).mpr (.inr ⟨auto, suits⟩)

theorem enlarges_union (entry : TypeEntry) :
    hint.Enlarges system name entry (entry ∪ hint.entry system name) where
  access access := by
    rw [← mem_flags_iff_concrete, ← SortedSet.mem_ofList]
    exact SortedSet.mem_union
  executables executable := by
    refine SortedSet.mem_union.trans (or_congr_right ?_)
    simp only [TypeHint.entry, TypeEntry.ofLists, SortedSet.mem_ofList, List.mem_map, Prod.exists]
    refine exists_congr fun method => exists_congr fun parameters => and_congr_right fun _ => ?_
    by_cases constructor : method = "<init>"
    · simp [TypeHint.executable, Executable.constructorName, constructor, eq_comm]
    · simp [TypeHint.executable, Executable.constructorName, constructor, eq_comm]
  fields field := by
    rw [← SortedSet.mem_ofList]
    exact SortedSet.mem_union

end TypeHint

namespace MemberTable

/-- Additions of one entry for each type of a list, in which types may be repeated. -/
theorem get?_requireAll_map (table : MemberTable) (entry : TypeName → TypeEntry)
    (names : List TypeName) (name : TypeName) :
    (table.requireAll (names.map fun name => (name, entry name))).get? name =
      if name ∈ names then some ((table.get? name).getD .empty ∪ entry name)
      else table.get? name := by
  induction names generalizing table with
  | nil => rfl
  | cons first names ih =>
      have step : table.requireAll ((first :: names).map fun name => (name, entry name)) =
          (table.require first (entry first)).requireAll
            (names.map fun name => (name, entry name)) := rfl
      rw [step, ih, get?_require]
      by_cases same : name = first
      · subst same
        -- a repeated type takes the same entry again
        simp [TypeEntry.union_assoc]
      · simp [same]

end MemberTable

namespace TypeHint

variable {hint : TypeHint} {system : TypeSystem}

theorem mem_patterns_applyTo {registry : Reachability} {name : TypeName} {text : String} :
    text ∈ (hint.applyTo system registry name).resources.patterns ↔
      text ∈ registry.resources.patterns ∨ .resource ∈ hint.access ∧ text = name.classFile := by
  have kept : (hint.applyTo system registry name).resources =
      if .resource ∈ hint.access then registry.resources.add (.ofClass name)
      else registry.resources := by
    unfold applyTo
    by_cases file : .resource ∈ hint.access <;> by_cases native : .jni ∈ hint.access <;>
      simp [file, native, Reachability.addResource]
  rw [kept]
  split
  next file => simp [file, Resources.add, ResourceEntry.ofClass, or_comm]
  next no_file => simp [no_file]

theorem eq_classFile_iff {name : TypeName} {text : String} :
    text = name.classFile ↔ text.toList = classPath name := by
  rw [← String.toList_inj, TypeName.classFile, TypeName.pathWith, String.toList_append,
    String.toList_ofList]
  rfl

/-- A hint keeps the class files of its types if it requests them. -/
theorem mem_patterns_apply {registry : Reachability} {text : String} :
    text ∈ (hint.apply system registry).resources.patterns ↔ text ∈ registry.resources.patterns ∨
      .resource ∈ hint.access ∧ ∃ name ∈ hint.types, text.toList = classPath name := by
  simp only [← eq_classFile_iff]
  rw [apply, foldl_holds_iff (hint.applyTo system) (text ∈ ·.resources.patterns)
    (fun name => .resource ∈ hint.access ∧ text = name.classFile)
    fun registry name => mem_patterns_applyTo]
  simp only [and_left_comm, exists_and_left]

/-- Applying a hint enlarges the entries of its types in one section, and beside them changes the
kept class files alone. -/
theorem routes_apply (hint : TypeHint) (system : TypeSystem) (registry : Reachability) :
    hint.Routes system registry (hint.apply system registry) := by
  have entry_of (name : TypeName) :
      ((hint.apply system registry).members hint.target).get? name =
        if name ∈ hint.types then
          some (((registry.members hint.target).get? name).getD .empty ∪ hint.entry system name)
        else (registry.members hint.target).get? name := by
    rw [members_apply, if_pos rfl]
    exact MemberTable.get?_requireAll_map ..
  -- the parts that no type of a hint touches
  let rest (registry : Reachability) :=
    (registry.resources.bundles, registry.proxies, registry.phases, registry.serialization,
      registry.options)
  have rest_eq : rest (hint.apply system registry) = rest registry := by
    refine foldl_keeps rest (fun registry name => ?_) hint.types registry
    unfold applyTo
    split <;> split <;> rfl
  simp only [rest, Prod.mk.injEq] at rest_eq
  obtain ⟨bundles, proxies, phases, serialization, options⟩ := rest_eq
  exact {
    enlarged := fun name mem => ⟨_, by rw [entry_of, if_pos mem], enlarges_union _⟩
    others := fun name other => by rw [entry_of, if_neg other]
    other_section := fun target differs => by rw [members_apply, if_neg differs.symm]
    patterns := fun text => mem_patterns_apply
    bundles, proxies, phases, serialization, options }

end TypeHint

/-- Whether no entry of a registry holds a kind of access that only directs the others. -/
def Reachability.IsResolved (registry : Reachability) : Prop :=
  ∀ target name entry, (registry.members target).get? name = some entry →
    ∀ access ∈ entry.access, access ≠ .autoDetect ∧ access ≠ .jni ∧ access ≠ .resource

namespace Hint

theorem isResolved_empty : Reachability.empty.IsResolved := by
  intro target name entry stored
  cases target <;> cases stored

/-- Hints add no access that only directs the others. -/
theorem isResolved_apply {registry : Reachability} (resolved : registry.IsResolved) (hint : Hint)
    (system : TypeSystem) : (hint.apply system registry).IsResolved := by
  intro target name entry stored access mem
  have held : access ∈ ((((hint.apply system registry).members target).get? name).getD
      .empty).access := by rwa [stored]
  rw [members_apply, MemberTable.getD_requireAll_iff (access ∈ ·.access)
    (fun left right => SortedSet.mem_union), exists_mem_additions_iff (access ∈ ·.access)] at held
  rcases held with before | ⟨types, -, -, -, asked⟩
  · cases earlier : (registry.members target).get? name with
    | none =>
        rw [earlier] at before
        exact absurd before (SortedSet.not_mem_empty access)
    | some entry =>
        rw [earlier] at before
        exact resolved target name entry earlier access before
  · have flag := TypeHint.isReflectionFlag_of_mem_flags (SortedSet.mem_ofList.mp asked)
    refine ⟨?_, ?_, ?_⟩ <;> rintro rfl <;> cases flag

/-- Hints applied to the empty registry leave no access that only directs the others, and whatever
the registry, every hint about types changes one entry for each of its types.  What a hint makes of
the member tables, its hints about types make of them one after another. -/
theorem resolves_and_routes (system : TypeSystem) :
    (∀ hints : List Hint, (applyAll hints system .empty).IsResolved) ∧
      (∀ (hint : TypeHint) (registry : Reachability),
        hint.Routes system registry (hint.apply system registry)) ∧
      ∀ (hint : Hint) (registry : Reachability) (target : MemberSection),
        (hint.apply system registry).members target =
          (hint.types.foldl (fun registry types => types.apply system registry)
            registry).members target := by
  refine ⟨fun hints => ?_, fun hint registry => hint.routes_apply system registry,
    fun hint registry target => hint.members_apply_eq_foldl system registry target⟩
  exact List.foldlRecOn hints _ isResolved_empty fun registry resolved hint _ =>
    isResolved_apply resolved hint system

end Hint
end Wiring
