import Wiring.Proofs.Recordings
import Wiring.Reachability.Snapshot

/-!
# Class descriptors of a recorded table

The snapshot of a member table has one descriptor per touched type, and each lists every recorded
member of its type once.  Descriptors name neither the declaring type nor whether an executable is a
constructor, so two executables are told apart only if no method bears the name of constructors.
-/

namespace Wiring

namespace MethodDescriptor

/-- Method name, none for a constructor. -/
def methodName? (descriptor : MethodDescriptor) : Option String :=
  if descriptor.name = Executable.constructorName then none else some descriptor.name

/-- Whether a descriptor is listed ahead of another one: constructors first, then by name, and by
parameter types under one name. -/
def Before (first second : MethodDescriptor) : Prop :=
  compareLex (compareOn methodName?) (compareOn parameterTypes) first second = .lt

/-- Whether a descriptor stands for an executable. -/
structure StandsFor (descriptor : MethodDescriptor) (executable : Executable) : Prop where
  /-- The names agree, constructors having a name of their own. -/
  name : descriptor.name = executable.name
  /-- The parameter types agree in order. -/
  parameterTypes : descriptor.parameterTypes = executable.parameters

theorem standsFor_iff {descriptor : MethodDescriptor} {executable : Executable} :
    descriptor.StandsFor executable ↔ ofExecutable executable = descriptor := by
  cases descriptor
  exact ⟨fun ⟨name, parameters⟩ => by simp_all [ofExecutable],
    fun same => by cases same; exact ⟨rfl, rfl⟩⟩

theorem Before.ne {first second : MethodDescriptor} (before : first.Before second) :
    first ≠ second := by
  rintro rfl
  simp [Before, compareLex, compareOn] at before

/-- The descriptor of an executable that is no method under the name of constructors tells which of
the two it is. -/
theorem methodName?_ofExecutable {executable : Executable}
    (named : executable.kind ≠ .method Executable.constructorName) :
    (ofExecutable executable).methodName? = executable.kind.methodName? := by
  obtain ⟨declaringType, kind, parameters⟩ := executable
  cases kind with
  | constructor => rfl
  | method name =>
      have differs : name ≠ Executable.constructorName := fun same => named (same ▸ rfl)
      simp [methodName?, ofExecutable, Executable.name, ExecutableKind.methodName?, differs]

/-- Executables of one type are listed in their own order. -/
theorem before_ofExecutable {first second : Executable}
    (home : first.declaringType = second.declaringType)
    (named : first.kind ≠ .method Executable.constructorName)
    (named' : second.kind ≠ .method Executable.constructorName)
    (before : compare first second = .lt) :
    (ofExecutable first).Before (ofExecutable second) := by
  have same : compare first.declaringType second.declaringType = .eq := by
    rw [home, Std.compare_self]
  change compareLex _ _ first second = .lt at before
  simp only [compareLex, compareOn, same, Ordering.eq_then] at before
  simp only [Before, compareLex, compareOn, methodName?_ofExecutable named,
    methodName?_ofExecutable named']
  exact before

end MethodDescriptor

namespace ClassDescriptor

/-- Whether a descriptor says what a history of recordings asks for its type. -/
structure Describes (descriptor : ClassDescriptor) (history : List Recording) : Prop where
  /-- The flags are the requested ones. -/
  access : ∀ access, access ∈ descriptor.access ↔ access.isReflectionFlag ∧
    ∃ recording ∈ history, recording.Requests descriptor.name access
  /-- No flag is listed twice. -/
  access_nodup : descriptor.access.Nodup
  /-- The methods are the recorded executables of the type. -/
  methods : ∀ method, (∃ methods, descriptor.methods = some methods ∧ method ∈ methods) ↔
    ∃ executable, executable.declaringType = descriptor.name ∧ method.StandsFor executable ∧
      ∃ recording ∈ history, recording.Records executable
  /-- The methods are listed once each, constructors first, then by name and parameter types. -/
  methods_ordered : ∀ methods, descriptor.methods = some methods →
    methods.Nodup ∧ methods.Pairwise MethodDescriptor.Before
  /-- The list of methods is left out if none was recorded. -/
  methods_none : descriptor.methods = none ↔ ∀ executable : Executable,
    executable.declaringType = descriptor.name →
      ¬ ∃ recording ∈ history, recording.Records executable
  /-- The fields are the recorded ones of the type. -/
  fields : ∀ field, (∃ fields, descriptor.fields = some fields ∧ field ∈ fields) ↔
    ∃ recording ∈ history, recording.RecordsField ⟨descriptor.name, field⟩
  /-- No field is listed twice. -/
  fields_nodup : ∀ fields, descriptor.fields = some fields → fields.Nodup
  /-- The list of fields is left out if none was recorded. -/
  fields_none : descriptor.fields = none ↔
    ∀ field, ¬ ∃ recording ∈ history, recording.RecordsField ⟨descriptor.name, field⟩

theorem exists_listed_iff {α : Type} {items : List α} {item : α} :
    (∃ found, listed items = some found ∧ item ∈ found) ↔ item ∈ items := by
  cases items <;> simp [listed]

theorem eq_of_listed {α : Type} {items found : List α} (some_listed : listed items = some found) :
    found = items := by
  cases items with
  | nil => cases some_listed
  | cons => exact (Option.some.inj some_listed).symm

theorem listed_eq_none_iff {α : Type} {items : List α} :
    listed items = none ↔ ∀ item, item ∉ items := by
  rw [← List.eq_nil_iff_forall_not_mem]
  cases items <;> simp [listed]

end ClassDescriptor

/-- A method recorded under the name of constructors was recorded as such a reference, for hints
turn that name into constructors. -/
theorem Recording.kind_ne_of_records {history : List Recording}
    (named : ∀ executable, .executable executable ∈ history →
      executable.kind ≠ .method Executable.constructorName)
    {recording : Recording} (mem : recording ∈ history) {executable : Executable}
    (records : recording.Records executable) :
    executable.kind ≠ .method Executable.constructorName := by
  cases recording with
  | executable recorded =>
      cases records
      exact named _ mem
  | field recorded => cases records
  | type touched requested names => cases records
  | hint target system asked =>
      obtain ⟨types, -, -, name, -, method, -, rfl⟩ := records
      unfold TypeHint.executable
      split
      next => simp [Executable.ofConstructor]
      next differs => simpa [Executable.ofMethod] using differs

namespace MemberTable

/-- Whether descriptors are exactly what a history of recordings asks. -/
structure Describes (descriptors : List ClassDescriptor) (history : List Recording) : Prop where
  /-- The descriptors are listed by the names of their types, each of them once. -/
  ordered : descriptors.Pairwise fun first second => compare first.name second.name = .lt
  /-- The types are those that were touched. -/
  names : ∀ name, (∃ descriptor ∈ descriptors, descriptor.name = name) ↔
    ∃ recording ∈ history, recording.Touches name
  /-- Each descriptor says what was asked for its type. -/
  each : ∀ descriptor ∈ descriptors, descriptor.Describes history

variable {table : MemberTable} {history : List Recording}

theorem Recorded.describes_ofEntry (recorded : Recorded table history)
    (named : ∀ executable, .executable executable ∈ history →
      executable.kind ≠ .method Executable.constructorName)
    {name : TypeName} {entry : TypeEntry} (stored : table.get? name = some entry) :
    (ClassDescriptor.ofEntry name entry).Describes history := by
  have held : (table.get? name).getD .empty = entry := by simp [stored]
  have access {kind : Access} (flag : kind.isReflectionFlag) :=
    held ▸ recorded.mem_access_iff name flag
  have executables := held ▸ recorded.mem_executables_iff name
  have fields := held ▸ recorded.mem_fields_iff name
  -- executables of one type keep their order when the type is dropped
  have ordered : (entry.executables.items.map MethodDescriptor.ofExecutable).Pairwise
      MethodDescriptor.Before := by
    refine List.pairwise_map.mpr
      (entry.executables.sorted.imp_of_mem fun {first second} mem mem' before => ?_)
    obtain ⟨home, recording, listed, records⟩ := (executables first).mp mem
    obtain ⟨home', recording', listed', records'⟩ := (executables second).mp mem'
    exact MethodDescriptor.before_ofExecutable (home.trans home'.symm)
      (Recording.kind_ne_of_records named listed records)
      (Recording.kind_ne_of_records named listed' records') before
  exact {
    access := fun kind => by
      simp only [ClassDescriptor.ofEntry, List.mem_filter]
      exact ⟨fun ⟨mem, flag⟩ => ⟨flag, (access flag).mp mem⟩,
        fun ⟨flag, requested⟩ => ⟨(access flag).mpr requested, flag⟩⟩
    access_nodup := (KeyOrder.nodup_of_pairwise entry.access.sorted).filter _
    methods := fun method => by
      simp only [ClassDescriptor.ofEntry, ClassDescriptor.exists_listed_iff, List.mem_map,
        MethodDescriptor.standsFor_iff]
      constructor
      · rintro ⟨executable, mem, same⟩
        obtain ⟨home, records⟩ := (executables executable).mp mem
        exact ⟨executable, home, same, records⟩
      · rintro ⟨executable, home, same, records⟩
        exact ⟨executable, (executables executable).mpr ⟨home, records⟩, same⟩
    methods_ordered := fun methods some_listed => by
      obtain rfl := ClassDescriptor.eq_of_listed some_listed
      exact ⟨ordered.imp MethodDescriptor.Before.ne, ordered⟩
    methods_none := by
      simp only [ClassDescriptor.ofEntry, ClassDescriptor.listed_eq_none_iff, List.mem_map]
      constructor
      · exact fun unlisted executable home records =>
          unlisted _ ⟨executable, (executables executable).mpr ⟨home, records⟩, rfl⟩
      · rintro unrecorded _ ⟨executable, mem, rfl⟩
        obtain ⟨home, records⟩ := (executables executable).mp mem
        exact unrecorded executable home records
    fields := fun field => by
      simp only [ClassDescriptor.ofEntry, ClassDescriptor.exists_listed_iff]
      exact fields field
    fields_nodup := fun fields some_listed => by
      obtain rfl := ClassDescriptor.eq_of_listed some_listed
      exact KeyOrder.nodup_of_pairwise entry.fields.sorted
    fields_none := by
      simp only [ClassDescriptor.ofEntry, ClassDescriptor.listed_eq_none_iff]
      exact forall_congr' fun field => not_congr (fields field) }

/-- The snapshot of a recorded table is exactly what its history asks, provided that no method bears
the name of constructors. -/
theorem Recorded.describes_descriptors (recorded : Recorded table history)
    (named : ∀ executable, .executable executable ∈ history →
      executable.kind ≠ .method Executable.constructorName) :
    Describes table.descriptors history := by
  refine ⟨List.pairwise_map.mpr table.sorted, fun name => ?_, fun descriptor mem => ?_⟩
  · rw [← recorded.isSome_get?_iff, Option.isSome_iff_exists]
    simp only [descriptors, List.mem_map]
    constructor
    · rintro ⟨_, ⟨⟨stored, entry⟩, mem, rfl⟩, rfl⟩
      exact ⟨entry, SortedMap.mem_entries_iff.mp mem⟩
    · rintro ⟨entry, stored⟩
      exact ⟨_, ⟨(name, entry), SortedMap.mem_entries_iff.mpr stored, rfl⟩, rfl⟩
  · obtain ⟨⟨name, entry⟩, listed, rfl⟩ := List.mem_map.mp mem
    exact recorded.describes_ofEntry named (SortedMap.mem_entries_iff.mp listed)

end MemberTable

namespace Sample

/-- Type about which something is recorded. -/
def handler : TypeName := ⟨"com.app.Handler"⟩

/-- Hint about a type, with its constructor and a field. -/
def handlerHint : Hint := .ofTypes none [⟨[handler], [.autoDetect], [("<init>", [])], ["port"]⟩]

/-- Registry in which a method of the type is recorded. -/
def startRegistry : Reachability :=
  { Reachability.empty with
    reflection := MemberTable.addExecutable .empty (.ofMethod handler "start" []) }

/-- Table of the method, of what the hint asks and of a field from another table. -/
def handlerTable : MemberTable :=
  MemberTable.merge ((handlerHint.apply .empty startRegistry).members .reflection)
    (MemberTable.addField .empty ⟨handler, "port"⟩)

/-- Recordings of the table. -/
def handlerHistory : List Recording :=
  [.executable (.ofMethod handler "start" []), .hint .reflection .empty handlerHint,
    .field ⟨handler, "port"⟩]

end Sample

theorem MemberTable.describes_descriptors_handler :
    Describes Sample.handlerTable.descriptors Sample.handlerHistory ∧
      Sample.handlerTable.descriptors =
        [⟨Sample.handler, [.declaredConstructors], some [⟨"<init>", []⟩, ⟨"start", []⟩],
          some ["port"]⟩] := by
  have named : ∀ executable, .executable executable ∈ Sample.handlerHistory →
      executable.kind ≠ .method Executable.constructorName := by
    intro executable mem
    obtain rfl : executable = .ofMethod Sample.handler "start" [] := by
      simpa [Sample.handlerHistory] using mem
    decide
  have started : Recorded (Sample.startRegistry.members .reflection)
      [.executable (.ofMethod Sample.handler "start" [])] := .executable .empty _
  have recorded : Recorded Sample.handlerTable Sample.handlerHistory :=
    .merge (.hint started .empty Sample.handlerHint) (.field .empty ⟨Sample.handler, "port"⟩)
  exact ⟨recorded.describes_descriptors named, by decide +kernel⟩

end Wiring
