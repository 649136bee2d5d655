import Mathlib.Data.List.Nodup
import Wiring.Proofs.JsonReader
import Wiring.Reachability.Snapshot

/-!
# Descriptor files

A descriptor file spells a JSON document in which no object has two fields of one key.  What the
snapshot of a registry says in that file is read back from the document, so files with the same text
say the same.
-/

namespace Wiring

namespace Json

/-- Documents in which no object has two fields of one key. -/
inductive HasDistinctKeys : Json → Prop where
  | bool (value : Bool) : HasDistinctKeys (.bool value)
  | string (text : String) : HasDistinctKeys (.string text)
  | array {items : List Json} (each : ∀ item ∈ items, HasDistinctKeys item) :
      HasDistinctKeys (.array items)
  | object {fields : List (String × Json)} (distinct : (fields.map (·.1)).Nodup)
      (each : ∀ field ∈ fields, HasDistinctKeys field.2) : HasDistinctKeys (.object fields)

/-! ### Parts of documents -/

/-- Text of a string. -/
def string? : Json → Option String
  | .string text => some text
  | _ => none

/-- Items of an array, each of them read in one way. -/
def items? {α : Type} (read : Json → Option α) : Json → Option (List α)
  | .array items => items.mapM read
  | _ => none

/-- Value of an object under a key. -/
def value? (key : String) : Json → Option Json
  | .object fields => fields.lookup key
  | _ => none

/-- Value of an object under a key, read in one way. -/
def field? {α : Type} (key : String) (read : Json → Option α) (document : Json) : Option α :=
  (document.value? key).bind read

/-- Value of an object under a key that may be absent. -/
def optionalField? {α : Type} (key : String) (read : Json → Option α) (document : Json) :
    Option (Option α) :=
  match document.value? key with
  | none => some none
  | some value => (read value).map some

/-- Whether an object has the value true under a key. -/
def isSet (key : String) (document : Json) : Bool :=
  match document.value? key with
  | some (.bool value) => value
  | _ => false

/-- Names of types, as an array of strings. -/
def types? (document : Json) : Option (List TypeName) :=
  (items? string? document).map (·.map TypeName.mk)

end Json

open Json

/-- Method descriptor of a document. -/
def MethodDescriptor.ofJson? (document : Json) : Option MethodDescriptor := do
  let name ← field? "name" string? document
  let parameterTypes ← field? "parameterTypes" types? document
  return ⟨name, parameterTypes⟩

/-- Class descriptor of a document, with every kind of access whose key is set. -/
def ClassDescriptor.ofJson? (document : Json) : Option ClassDescriptor := do
  let name ← field? "name" string? document
  let methods ← optionalField? "methods" (items? MethodDescriptor.ofJson?) document
  let fields ← optionalField? "fields" (items? (field? "name" string?)) document
  return ⟨⟨name⟩, Access.all.filter fun access => isSet access.key document, methods, fields⟩

/-- Initialization phases of a document. -/
def PhasesDescriptor.ofJson? (document : Json) : Option PhasesDescriptor := do
  let buildTimeClasses ← field? "buildTimeClasses" (items? string?) document
  let buildTimePackages ← field? "buildTimePackages" (items? string?) document
  let runtimeClasses ← field? "runtimeClasses" (items? string?) document
  let runtimePackages ← field? "runtimePackages" (items? string?) document
  return ⟨buildTimeClasses, buildTimePackages, runtimeClasses, runtimePackages⟩

/-- What a snapshot says in one descriptor file. -/
inductive DescriptorContent where
  /-- Types with their members. -/
  | classes (descriptors : List ClassDescriptor)
  /-- Resource patterns and bundles. -/
  | resources (patterns bundles : List String)
  /-- Interfaces of each proxy. -/
  | proxies (interfaces : List (List TypeName))
  /-- Initialization phases. -/
  | phases (phases : PhasesDescriptor)
  /-- Types to be serialized. -/
  | types (names : List TypeName)
  deriving DecidableEq

/-- What a snapshot says in a descriptor file. -/
def Snapshot.content (snapshot : Snapshot) : DescriptorKind → DescriptorContent
  | .reflection => .classes snapshot.reflection
  | .resources => .resources snapshot.patterns snapshot.bundles
  | .proxy => .proxies snapshot.proxies
  | .initialization => .phases snapshot.phases
  | .serialization => .types snapshot.serialization
  | .jni => .classes snapshot.jni

/-- What the document of a descriptor file says. -/
def DescriptorContent.ofJson? (kind : DescriptorKind) (document : Json) :
    Option DescriptorContent :=
  match kind with
  | .reflection | .jni => (items? ClassDescriptor.ofJson? document).map .classes
  | .resources => do
      let patterns ←
        field? "resources" (field? "includes" (items? (field? "pattern" string?))) document
      let bundles ← field? "bundles" (items? (field? "name" string?)) document
      return .resources patterns bundles
  | .proxy => (items? (field? "interfaces" types?) document).map .proxies
  | .initialization => (PhasesDescriptor.ofJson? document).map .phases
  | .serialization => (items? (field? "name" string?) document).map fun names =>
      .types (names.map .mk)

/-! ### Documents of snapshots -/

namespace Json

theorem mapM_map_eq_some {α β : Type} {items : List α} {write : α → β} {read : β → Option α}
    (back : ∀ item ∈ items, read (write item) = some item) :
    (items.map write).mapM read = some items := by
  induction items with
  | nil => rfl
  | cons item items ih =>
      rw [List.map_cons, List.mapM_cons, back item List.mem_cons_self,
        ih fun other mem => back other (List.mem_cons_of_mem _ mem)]
      rfl

/-- An array of written items is read back if every item is. -/
theorem items?_array_map {α : Type} {items : List α} {write : α → Json} {read : Json → Option α}
    (back : ∀ item ∈ items, read (write item) = some item) :
    items? read (.array (items.map write)) = some items :=
  mapM_map_eq_some back

theorem items?_strings (texts : List String) : items? string? (strings texts) = some texts :=
  items?_array_map fun _ _ => rfl

theorem types?_strings (names : List TypeName) :
    types? (strings (names.map TypeName.text)) = some names := by
  rw [types?, items?_strings, Option.map_some, List.map_map]
  exact congrArg some (List.map_id names)

theorem items?_named (texts : List String) :
    items? (field? "name" string?) (.array (texts.map named)) = some texts :=
  items?_array_map fun _ _ => rfl

theorem ofJson?_ofMethod (method : MethodDescriptor) :
    MethodDescriptor.ofJson? (ofMethod method) = some method := by
  have parameterTypes : field? "parameterTypes" types? (ofMethod method) =
      some method.parameterTypes := types?_strings method.parameterTypes
  rw [MethodDescriptor.ofJson?, parameterTypes]
  rfl

/-! ### Documents of classes -/

/-- Fields of the flags of a class. -/
def flagFields (access : List Access) : List (String × Json) :=
  access.map fun access => (access.key, .bool true)

theorem key_injective : Function.Injective Access.key := fun first second same =>
  Option.some.inj <| by rw [← Access.ofKey?_key first, same, Access.ofKey?_key]

theorem key_not_mem (access : Access) : access.key ∉ ["name", "methods", "fields"] := by
  cases access <;> decide

theorem not_mem_map_key (access : List Access) {key : String}
    (own : key ∈ ["name", "methods", "fields"]) : key ∉ access.map Access.key := by
  intro mem
  obtain ⟨kind, -, rfl⟩ := List.mem_map.mp mem
  exact key_not_mem kind own

theorem lookup_flagFields (access : List Access) (key : String) :
    (flagFields access).lookup key =
      if key ∈ access.map Access.key then some (.bool true) else none := by
  induction access with
  | nil => rfl
  | cons first access ih =>
      change List.lookup key ((first.key, .bool true) :: flagFields access) = _
      rw [List.lookup_cons, ih]
      by_cases same : key = first.key
      · simp [same]
      · simp only [beq_false_of_ne same, List.map_cons, List.mem_cons, same, false_or]

theorem lookup_optional {α : Type} (key name : String) (value? : Option α) (write : α → Json) :
    (value?.map fun value => (name, write value)).toList.lookup key =
      if key = name then value?.map write else none := by
  cases value? with
  | none => simp
  | some value =>
      by_cases same : key = name
      · simp [same]
      · simp [List.lookup_cons, same, beq_false_of_ne same]

/-- Value of the document of a class under a key. -/
theorem value?_ofClass (descriptor : ClassDescriptor) (key : String) :
    value? key (ofClass descriptor) =
      if key = "name" then some (.string descriptor.name.text)
      else if key ∈ descriptor.access.map Access.key then some (.bool true)
      else if key = "methods" then
        descriptor.methods.map fun methods => .array (methods.map ofMethod)
      else if key = "fields" then descriptor.fields.map fun fields => .array (fields.map named)
      else none := by
  have parts : value? key (ofClass descriptor) =
      List.lookup key (("name", .string descriptor.name.text) :: (flagFields descriptor.access ++
        (descriptor.methods.map fun methods =>
          ("methods", Json.array (methods.map ofMethod))).toList ++
        (descriptor.fields.map fun fields => ("fields", Json.array (fields.map named))).toList)) :=
    rfl
  rw [parts, List.lookup_cons, List.lookup_append, List.lookup_append, lookup_flagFields,
    lookup_optional, lookup_optional]
  by_cases name : key = "name"
  · simp [name]
  rw [beq_false_of_ne name, if_neg name]
  by_cases flag : key ∈ descriptor.access.map Access.key
  · simp [flag]
  rw [if_neg flag, if_neg flag]
  by_cases methods : key = "methods"
  · simp [methods]
  · simp [methods]

theorem isSet_ofClass (descriptor : ClassDescriptor) (access : Access) :
    isSet access.key (ofClass descriptor) = decide (access ∈ descriptor.access) := by
  have other := key_not_mem access
  simp only [List.mem_cons, List.not_mem_nil, or_false, not_or] at other
  have listed : access.key ∈ descriptor.access.map Access.key ↔ access ∈ descriptor.access :=
    List.mem_map_of_injective key_injective
  rw [isSet, value?_ofClass, if_neg other.1, if_neg other.2.1, if_neg other.2.2]
  by_cases mem : access ∈ descriptor.access
  · simp [listed, mem]
  · simp [listed, mem]

/-- Flags in order are those of all kinds of access that are among them. -/
theorem filter_all_eq {access : List Access}
    (ordered : access.Pairwise fun first second => compare first second = .lt) :
    Access.all.filter (fun kind => decide (kind ∈ access)) = access := by
  have all_ordered : Access.all.Pairwise fun first second => compare first second = .lt := by
    decide
  refine KeyOrder.eq_of_mem_iff (fun kind => kind) (all_ordered.filter _) ordered fun kind => ?_
  have listed : kind ∈ Access.all := by cases kind <;> decide
  simp [listed]

/-- A class descriptor is read back from its document if its flags are in order. -/
theorem ofJson?_ofClass {descriptor : ClassDescriptor}
    (ordered : descriptor.access.Pairwise fun first second => compare first second = .lt) :
    ClassDescriptor.ofJson? (ofClass descriptor) = some descriptor := by
  have name : field? "name" string? (ofClass descriptor) = some descriptor.name.text := by
    rw [field?, value?_ofClass, if_pos rfl]
    rfl
  have methods : optionalField? "methods" (items? MethodDescriptor.ofJson?) (ofClass descriptor) =
      some descriptor.methods := by
    rw [optionalField?, value?_ofClass, if_neg (by decide), if_neg (not_mem_map_key _ (by decide)),
      if_pos rfl]
    cases descriptor.methods with
    | none => rfl
    | some methods =>
        have back := items?_array_map fun method (_ : method ∈ methods) => ofJson?_ofMethod method
        simp only [Option.map_some, back]
  have fields : optionalField? "fields" (items? (field? "name" string?)) (ofClass descriptor) =
      some descriptor.fields := by
    rw [optionalField?, value?_ofClass, if_neg (by decide), if_neg (not_mem_map_key _ (by decide)),
      if_neg (by decide), if_pos rfl]
    cases descriptor.fields with
    | none => rfl
    | some fields => simp only [Option.map_some, items?_named]
  simp only [ClassDescriptor.ofJson?, name, methods, fields, isSet_ofClass, filter_all_eq ordered]
  rfl

/-! ### Distinct keys -/

theorem hasDistinctKeys_array_map {α : Type} {items : List α} {write : α → Json}
    (each : ∀ item ∈ items, (write item).HasDistinctKeys) :
    HasDistinctKeys (.array (items.map write)) := by
  refine .array fun document mem => ?_
  obtain ⟨item, listed, rfl⟩ := List.mem_map.mp mem
  exact each item listed

theorem hasDistinctKeys_strings (texts : List String) : (strings texts).HasDistinctKeys :=
  hasDistinctKeys_array_map fun text _ => .string text

/-- An object of a single field has distinct keys if the value has. -/
theorem hasDistinctKeys_single {key : String} {value : Json} (distinct : value.HasDistinctKeys) :
    HasDistinctKeys (.object [(key, value)]) := by
  refine .object (by simp) fun field mem => ?_
  obtain rfl := List.mem_singleton.mp mem
  exact distinct

theorem hasDistinctKeys_named (text : String) : (named text).HasDistinctKeys :=
  hasDistinctKeys_single (.string text)

theorem hasDistinctKeys_ofMethod (method : MethodDescriptor) :
    (ofMethod method).HasDistinctKeys := by
  refine .object (by simp) fun field mem => ?_
  simp only [List.mem_cons, List.not_mem_nil, or_false] at mem
  rcases mem with rfl | rfl
  · exact .string _
  · exact hasDistinctKeys_strings _

theorem nodup_keys {access : List Access} (distinct : access.Nodup) :
    ("name" :: access.map Access.key ++ ["methods", "fields"]).Nodup := by
  have name : "name" ∉ access.map Access.key := not_mem_map_key access (by decide)
  refine List.nodup_append.mpr
    ⟨List.nodup_cons.mpr ⟨name, distinct.map key_injective⟩, by decide, fun key mem other own => ?_⟩
  rintro rfl
  rcases List.mem_cons.mp mem with rfl | mem
  · exact absurd own (by decide)
  · exact not_mem_map_key access (List.mem_cons_of_mem _ own) mem

theorem hasDistinctKeys_ofClass {descriptor : ClassDescriptor}
    (distinct : descriptor.access.Nodup) : (ofClass descriptor).HasDistinctKeys := by
  obtain ⟨name, access, methods, fields⟩ := descriptor
  refine .object ((nodup_keys distinct).sublist ?_) fun field mem => ?_
  · cases methods <;> cases fields <;> simp [Function.comp_def]
  · simp only [List.cons_append, List.mem_cons, List.mem_append, List.mem_map, Option.mem_toList,
      Option.map_eq_some_iff] at mem
    rcases mem with rfl | (⟨kind, -, rfl⟩ | ⟨methods, -, rfl⟩) | ⟨fields, -, rfl⟩
    · exact .string name.text
    · exact .bool true
    · exact hasDistinctKeys_array_map fun method _ => hasDistinctKeys_ofMethod method
    · exact hasDistinctKeys_array_map fun text _ => hasDistinctKeys_named text

end Json

/-- Whether the flags of every class of a snapshot are in order. -/
structure Snapshot.IsOrdered (snapshot : Snapshot) : Prop where
  /-- Those of types used through reflection. -/
  reflection : ∀ descriptor ∈ snapshot.reflection,
    descriptor.access.Pairwise fun first second => compare first second = .lt
  /-- Those of types used from native code. -/
  jni : ∀ descriptor ∈ snapshot.jni,
    descriptor.access.Pairwise fun first second => compare first second = .lt

theorem Reachability.isOrdered_snapshot (registry : Reachability) :
    registry.snapshot.IsOrdered := by
  have ordered (table : MemberTable) : ∀ descriptor ∈ table.descriptors,
      descriptor.access.Pairwise fun first second => compare first second = .lt := by
    intro descriptor mem
    obtain ⟨⟨name, entry⟩, -, rfl⟩ := List.mem_map.mp mem
    exact entry.access.sorted.filter _
  exact ⟨ordered registry.reflection, ordered registry.jni⟩

namespace Snapshot

variable {snapshot : Snapshot}

theorem hasDistinctKeys_document (ordered : snapshot.IsOrdered) (kind : DescriptorKind) :
    (snapshot.document kind).HasDistinctKeys := by
  cases kind with
  | reflection =>
      exact hasDistinctKeys_array_map fun descriptor mem =>
        hasDistinctKeys_ofClass (KeyOrder.nodup_of_pairwise (ordered.reflection descriptor mem))
  | resources =>
      refine .object (by simp) fun field mem => ?_
      simp only [List.mem_cons, List.not_mem_nil, or_false] at mem
      rcases mem with rfl | rfl
      · exact hasDistinctKeys_single
          (hasDistinctKeys_array_map fun text _ => hasDistinctKeys_single (.string text))
      · exact hasDistinctKeys_array_map fun text _ => hasDistinctKeys_named text
  | proxy =>
      exact hasDistinctKeys_array_map fun interfaces _ =>
        hasDistinctKeys_single (hasDistinctKeys_strings (interfaces.map TypeName.text))
  | initialization =>
      refine .object (by simp) fun field mem => ?_
      simp only [List.mem_cons, List.not_mem_nil, or_false] at mem
      rcases mem with rfl | rfl | rfl | rfl <;> exact hasDistinctKeys_strings _
  | serialization =>
      exact hasDistinctKeys_array_map fun name _ => hasDistinctKeys_named name.text
  | jni =>
      exact hasDistinctKeys_array_map fun descriptor mem =>
        hasDistinctKeys_ofClass (KeyOrder.nodup_of_pairwise (ordered.jni descriptor mem))

/-- The content of a descriptor file is read back from its document. -/
theorem ofJson?_document (ordered : snapshot.IsOrdered) (kind : DescriptorKind) :
    DescriptorContent.ofJson? kind (snapshot.document kind) = some (snapshot.content kind) := by
  cases kind with
  | reflection =>
      have back := items?_array_map fun descriptor mem =>
        ofJson?_ofClass (ordered.reflection descriptor mem)
      exact congrArg (Option.map DescriptorContent.classes) back
  | resources =>
      have patterns : field? "resources" (field? "includes" (items? (field? "pattern" string?)))
          (snapshot.document .resources) = some snapshot.patterns :=
        items?_array_map fun _ _ => rfl
      have bundles : field? "bundles" (items? (field? "name" string?))
          (snapshot.document .resources) = some snapshot.bundles := items?_named snapshot.bundles
      rw [DescriptorContent.ofJson?, patterns, bundles]
      rfl
  | proxy =>
      have back : items? (field? "interfaces" types?) (snapshot.document .proxy) =
          some snapshot.proxies := items?_array_map fun interfaces _ => types?_strings interfaces
      exact congrArg (Option.map DescriptorContent.proxies) back
  | initialization =>
      have buildTimeClasses : field? "buildTimeClasses" (items? string?)
          (snapshot.document .initialization) = some snapshot.phases.buildTimeClasses :=
        items?_strings _
      have buildTimePackages : field? "buildTimePackages" (items? string?)
          (snapshot.document .initialization) = some snapshot.phases.buildTimePackages :=
        items?_strings _
      have runtimeClasses : field? "runtimeClasses" (items? string?)
          (snapshot.document .initialization) = some snapshot.phases.runtimeClasses :=
        items?_strings _
      have runtimePackages : field? "runtimePackages" (items? string?)
          (snapshot.document .initialization) = some snapshot.phases.runtimePackages :=
        items?_strings _
      rw [DescriptorContent.ofJson?, PhasesDescriptor.ofJson?, buildTimeClasses, buildTimePackages,
        runtimeClasses, runtimePackages]
      rfl
  | serialization =>
      have back := items?_named (snapshot.serialization.map TypeName.text)
      rw [List.map_map] at back
      have names : (items? (field? "name" string?) (snapshot.document .serialization)).map
          (fun names => DescriptorContent.types (names.map TypeName.mk)) =
            some (.types ((snapshot.serialization.map TypeName.text).map TypeName.mk)) :=
        congrArg (Option.map fun names => DescriptorContent.types (names.map TypeName.mk)) back
      rw [List.map_map] at names
      exact names.trans (congrArg (some ∘ DescriptorContent.types) (List.map_id _))
  | jni =>
      have back := items?_array_map fun descriptor mem =>
        ofJson?_ofClass (ordered.jni descriptor mem)
      exact congrArg (Option.map DescriptorContent.classes) back

end Snapshot

/-- Every descriptor file of a registry spells exactly one JSON document, which has distinct keys,
which the reader of JSON texts yields and from which the content of the file is read back.  Two
registries with the same file have the same content in it. -/
theorem Reachability.exists_spells_text (registry : Reachability) (kind : DescriptorKind) :
    (∃ document, Json.Spells (registry.snapshot.text kind) document ∧
      (∀ other, Json.Spells (registry.snapshot.text kind) other → other = document) ∧
      document.HasDistinctKeys ∧
      Json.read? (registry.snapshot.text kind) = some document ∧
      DescriptorContent.ofJson? kind document = some (registry.snapshot.content kind)) ∧
    ∀ other : Reachability, other.snapshot.text kind = registry.snapshot.text kind →
      other.snapshot.content kind = registry.snapshot.content kind := by
  have spells (registry : Reachability) :
      Json.Spells (registry.snapshot.text kind) (registry.snapshot.document kind) :=
    Json.spells_pretty _
  refine ⟨⟨registry.snapshot.document kind, spells registry,
    fun other spells' => spells'.eq (spells registry),
    Snapshot.hasDistinctKeys_document registry.isOrdered_snapshot kind,
    Json.read?_of_spells (spells registry),
    Snapshot.ofJson?_document registry.isOrdered_snapshot kind⟩, fun other same => ?_⟩
  have documents : other.snapshot.document kind = registry.snapshot.document kind :=
    (same ▸ spells other).eq (spells registry)
  have back := Snapshot.ofJson?_document other.isOrdered_snapshot kind
  rw [documents, Snapshot.ofJson?_document registry.isOrdered_snapshot kind] at back
  exact (Option.some.inj back).symm

end Wiring
