import Wiring.Proofs.BinaryNames

/-!
# Unambiguous imports

A file writes a class by its simple names unless another top-level class of the same simple name is
around, and then with its package; only the class of the file itself never needs its package.  When
packages and classes are named apart, every text that is written for a type belongs to one type
only, and every simple name can be found: in the file, by an import, in the package of the file or
in `java.lang`.
-/

namespace Wiring

namespace SortedSet

variable {α : Type} [Ord α] [Std.ReflOrd α]

theorem nodup_items (set : SortedSet α) : set.items.Nodup := by
  refine set.sorted.imp ?_
  rintro item _ before rfl
  rw [Std.ReflOrd.compare_self] at before
  cases before

/-- A set with a given member has a second one exactly when it has several. -/
theorem one_lt_size_iff {set : SortedSet α} {item : α} (mem : item ∈ set) :
    1 < set.size ↔ ∃ other ∈ set, other ≠ item := by
  have distinct := set.nodup_items
  rw [mem_def] at mem
  simp only [size, mem_def]
  revert distinct mem
  generalize set.items = items
  intro mem distinct
  match items with
  | [] => cases mem
  | [only] =>
      obtain rfl := List.mem_singleton.mp mem
      simp
  | first :: second :: others =>
      refine ⟨fun _ => ?_, fun _ => by simp⟩
      have apart : first ≠ second := fun same => (List.nodup_cons.mp distinct).1 (by simp [same])
      by_cases same : first = item
      · exact ⟨second, by simp, fun same' => apart (same.trans same'.symm)⟩
      · exact ⟨first, by simp, same⟩

end SortedSet

/-- Lists whose beginnings and ends share nothing are put together in one way. -/
theorem append_inj_of_disjoint {α : Type} {first rest first' rest' : List α}
    (same : first ++ rest = first' ++ rest') (apart : ∀ item ∈ first, item ∉ rest')
    (apart' : ∀ item ∈ first', item ∉ rest) : first = first' ∧ rest = rest' := by
  rcases List.append_eq_append_iff.mp same with ⟨middle, rfl, rfl⟩ | ⟨middle, rfl, rfl⟩
  · have none_between : middle = [] := List.eq_nil_iff_forall_not_mem.mpr fun item mem =>
      apart' item (List.mem_append_right _ mem) (List.mem_append_left _ mem)
    simp [none_between]
  · have none_between : middle = [] := List.eq_nil_iff_forall_not_mem.mpr fun item mem =>
      apart item (List.mem_append_right _ mem) (List.mem_append_left _ mem)
    simp [none_between]

namespace Imports

/-! ### Groups of top-level types -/

/-- The own type and the top-level types of the referenced non-primitive ones. -/
def tops (own : TypeName) (referenced : List TypeName) : List TypeName :=
  own :: (referenced.filter fun name => !name.element.isPrimitive).map TypeName.topLevel

/-- Whether a top-level type is grouped under a simple name. -/
def Groups.Holds (groups : Groups) (simpleName : String) (top : TypeName) : Prop :=
  ∃ stored, groups.get? simpleName = some stored ∧ top ∈ stored

/-- Whether another top-level type has the simple name of a given one. -/
def Shares (own : TypeName) (referenced : List TypeName) (top : TypeName) : Prop :=
  ∃ other ∈ tops own referenced, other ≠ top ∧ other.simpleName = top.simpleName

variable {file text key : String} {own top : TypeName} {referenced : List TypeName}

theorem holds_addTo {groups : Groups} {simpleName : String} {added : TypeName} :
    (addTo groups simpleName added).Holds key top ↔
      (top = added ∧ key = simpleName) ∨ groups.Holds key top := by
  rw [Groups.Holds, Groups.Holds, addTo, SortedMap.get?_update]
  by_cases same : key = simpleName
  · subst same
    cases groups.get? key <;> simp [SortedSet.mem_insert]
  · simp [same]

theorem holds_foldl_addTo {groups : Groups} {names : List TypeName} :
    Groups.Holds (names.foldl (fun groups name => addTo groups name.simpleName name) groups)
        key top ↔
      (top ∈ names ∧ top.simpleName = key) ∨ groups.Holds key top := by
  induction names generalizing groups with
  | nil => simp
  | cons name names ih =>
      rw [List.foldl_cons, ih, holds_addTo]
      constructor
      · rintro (⟨mem, named⟩ | ⟨rfl, named⟩ | held)
        · exact .inl ⟨List.mem_cons_of_mem _ mem, named⟩
        · exact .inl ⟨List.mem_cons_self, named.symm⟩
        · exact .inr held
      · rintro (⟨mem, named⟩ | held)
        · rcases List.mem_cons.mp mem with rfl | mem
          · exact .inr (.inl ⟨rfl, named.symm⟩)
          · exact .inl ⟨mem, named⟩
        · exact .inr (.inr held)

/-- Top-level types are grouped by their simple names. -/
theorem holds_group :
    (group own referenced).Holds key top ↔
      top ∈ tops own referenced ∧ top.simpleName = key := by
  have folded : group own referenced = (tops own referenced).foldl
      (fun groups name => addTo groups name.simpleName name) .empty := by
    rw [group, tops, List.foldl_cons, List.foldl_map]
  have none_yet : ¬ Groups.Holds .empty key top := by
    rintro ⟨stored, found, -⟩
    cases found
  rw [folded, holds_foldl_addTo]
  exact or_iff_left none_yet

theorem one_lt_size_iff_shares {stored : SortedSet TypeName}
    (found : (group own referenced).get? key = some stored) (mem : top ∈ stored) :
    1 < stored.size ↔ Shares own referenced top := by
  obtain ⟨-, named⟩ := holds_group.mp ⟨stored, found, mem⟩
  rw [SortedSet.one_lt_size_iff mem]
  constructor
  · rintro ⟨other, listed, apart⟩
    obtain ⟨around, named'⟩ := holds_group.mp ⟨stored, found, listed⟩
    exact ⟨other, around, apart, named'.trans named.symm⟩
  · rintro ⟨other, around, apart, same⟩
    obtain ⟨stored', found', listed⟩ := holds_group.mpr ⟨around, same.trans named⟩
    obtain rfl := Option.some.inj (found.symm.trans found')
    exact ⟨other, listed, apart⟩

/-- Groups of a kind that depends on whether a simple name is shared. -/
theorem mem_groups_iff (kind : Prop → Prop) {keep : SortedSet TypeName → Bool}
    (kept : ∀ stored : SortedSet TypeName, keep stored = true ↔ kind (1 < stored.size)) :
    top ∈ ((group own referenced).values.filter keep).flatMap (·.items) ↔
      top ∈ tops own referenced ∧ kind (Shares own referenced top) := by
  simp only [List.mem_flatMap, List.mem_filter, SortedMap.values, List.mem_map, Prod.exists,
    exists_eq_right, SortedMap.mem_entries_iff, kept]
  constructor
  · rintro ⟨stored, ⟨⟨key, found⟩, kind⟩, mem⟩
    rw [one_lt_size_iff_shares found mem] at kind
    exact ⟨(holds_group.mp ⟨stored, found, mem⟩).1, kind⟩
  · rintro ⟨around, kind⟩
    obtain ⟨stored, found, mem⟩ := holds_group.mpr ⟨around, rfl⟩
    rw [← one_lt_size_iff_shares found mem] at kind
    exact ⟨stored, ⟨⟨_, found⟩, kind⟩, mem⟩

theorem mem_clashing_iff :
    top ∈ ((group own referenced).values.filter fun stored => 1 < stored.size).flatMap (·.items) ↔
      top ∈ tops own referenced ∧ Shares own referenced top :=
  mem_groups_iff id (by simp)

theorem mem_alone_iff :
    top ∈ ((group own referenced).values.filter fun stored => stored.size ≤ 1).flatMap (·.items) ↔
      top ∈ tops own referenced ∧ ¬ Shares own referenced top :=
  mem_groups_iff Not (by simp)

theorem mem_qualified_iff {referenced : SortedSet TypeName} :
    top ∈ (resolve file own referenced).qualified ↔
      (top ∈ tops own referenced.items ∧ Shares own referenced.items top) ∧ top ≠ own := by
  rw [resolve, SortedSet.mem_ofList, List.mem_filter, mem_clashing_iff, bne_iff_ne]

theorem mem_imported_iff {referenced : SortedSet TypeName} :
    text ∈ (resolve file own referenced).imported ↔
      ∃ top, ((top ∈ tops own referenced.items ∧ ¬ Shares own referenced.items top) ∧
        needsImport file top.package = true) ∧ top.text = text := by
  simp only [resolve, SortedSet.mem_ofList, List.mem_map, List.mem_filter, mem_alone_iff]

/-! ### Files that mention spelled names -/

/-- Whether a file mentions a class: the class is its own, or an array of it is referenced. -/
def Mentions (own : BinaryName) (referenced : SortedSet TypeName) (name : BinaryName) : Prop :=
  name = own ∨ ∃ dimensions, name.array dimensions ∈ referenced

/-- Whether the outermost class of a name is not the own one and there is another outermost class of
its simple name. -/
def Clashes (own : BinaryName) (referenced : SortedSet TypeName) (name : BinaryName) : Prop :=
  name.outermost ≠ own ∧ ∃ other, Mentions own referenced other ∧
    other.outermost ≠ name.outermost ∧ other.top = name.top

/-- Whether a name is that of a primitive type, of a class in a package, or of an array of these. -/
def IsSpelled (name : TypeName) : Prop :=
  (∃ keyword ∈ TypeName.primitives, ∃ dimensions, name = ⟨keyword ++ brackets dimensions⟩) ∨
    ∃ cls : BinaryName, cls.package ≠ "" ∧ ∃ dimensions, name = cls.array dimensions

/-- Names of a file that are spelled, with no text for both a part of a package and a class. -/
structure IsSpelledApart (own : BinaryName) (referenced : SortedSet TypeName) : Prop where
  /-- The own class is not nested. -/
  outermost : own.nested = []
  /-- Referenced names are spelled. -/
  spelled : ∀ name ∈ referenced, IsSpelled name
  /-- Packages and classes are named apart, throughout the file. -/
  apart : ∀ first second, Mentions own referenced first → Mentions own referenced second →
    ∀ part ∈ first.packageSegments, ∀ segment ∈ second.path, part ≠ segment.toList

variable {own : BinaryName} {referenced : SortedSet TypeName} {name : BinaryName}
  {keyword : String}

theorem element_keyword (primitive : keyword ∈ TypeName.primitives) (dimensions : Nat) :
    (⟨keyword ++ brackets dimensions⟩ : TypeName).element = ⟨keyword⟩ :=
  TypeName.element_brackets (TypeName.plain_of_mem_primitives primitive).2.2 dimensions

theorem isPrimitive_keyword (primitive : keyword ∈ TypeName.primitives) :
    (⟨keyword⟩ : TypeName).isPrimitive = true :=
  List.contains_iff_mem.mpr primitive

theorem array_ne_keyword (primitive : keyword ∈ TypeName.primitives) (name : BinaryName)
    (dimensions dimensions' : Nat) :
    name.array dimensions ≠ ⟨keyword ++ brackets dimensions'⟩ := by
  intro same
  have element := name.element_array dimensions
  have class_name := name.isPrimitive_typeName
  rw [same, element_keyword primitive] at element
  rw [← element, isPrimitive_keyword primitive] at class_name
  cases class_name

namespace IsSpelledApart

theorem own_eq (apart : IsSpelledApart own referenced) : own.outermost = own :=
  BinaryName.eq_of_path_eq rfl (by simp [BinaryName.path, BinaryName.outermost, apart.outermost])

theorem package_ne (apart : IsSpelledApart own referenced) {dimensions : Nat}
    (mem : name.array dimensions ∈ referenced) : name.package ≠ "" := by
  rcases apart.spelled _ mem with ⟨keyword, primitive, dimensions', same⟩ |
    ⟨cls, named, dimensions', same⟩
  · exact absurd same (array_ne_keyword primitive name dimensions dimensions')
  · rwa [(BinaryName.eq_of_array_eq same).1]

theorem mem_tops_iff (apart : IsSpelledApart own referenced) {top : TypeName} :
    top ∈ tops own.typeName referenced.items ↔
      ∃ name, Mentions own referenced name ∧ top = name.outermost.typeName := by
  simp only [tops, List.mem_cons, List.mem_map, List.mem_filter]
  constructor
  · rintro (rfl | ⟨name, ⟨mem, not_primitive⟩, rfl⟩)
    · exact ⟨own, .inl rfl, by rw [apart.own_eq]⟩
    · rcases apart.spelled name mem with ⟨keyword, primitive, dimensions, rfl⟩ |
        ⟨cls, -, dimensions, rfl⟩
      · rw [element_keyword primitive, isPrimitive_keyword primitive] at not_primitive
        cases not_primitive
      · exact ⟨cls, .inr ⟨dimensions, mem⟩, cls.topLevel_array dimensions⟩
  · rintro ⟨name, rfl | ⟨dimensions, mem⟩, rfl⟩
    · exact .inl (by rw [apart.own_eq])
    · refine .inr ⟨_, ⟨mem, ?_⟩, name.topLevel_array dimensions⟩
      rw [name.element_array, name.isPrimitive_typeName]
      rfl

theorem shares_iff (apart : IsSpelledApart own referenced) :
    Shares own.typeName referenced.items name.outermost.typeName ↔
      ∃ other, Mentions own referenced other ∧ other.outermost ≠ name.outermost ∧
        other.top = name.top := by
  constructor
  · rintro ⟨top, around, different, same⟩
    obtain ⟨other, mentioned, rfl⟩ := apart.mem_tops_iff.mp around
    rw [BinaryName.simpleName_outermost, BinaryName.simpleName_outermost] at same
    exact ⟨other, mentioned, fun equal => different (by rw [equal]), same⟩
  · rintro ⟨other, mentioned, different, same⟩
    refine ⟨_, apart.mem_tops_iff.mpr ⟨other, mentioned, rfl⟩,
      fun equal => different (BinaryName.eq_of_typeName_eq equal), ?_⟩
    rw [BinaryName.simpleName_outermost, BinaryName.simpleName_outermost, same]

theorem mem_qualified_iff (apart : IsSpelledApart own referenced)
    (mentioned : Mentions own referenced name) :
    name.outermost.typeName ∈ (resolve file own.typeName referenced).qualified ↔
      Clashes own referenced name := by
  have around := apart.mem_tops_iff.mpr ⟨name, mentioned, rfl⟩
  have other : name.outermost.typeName ≠ own.typeName ↔ name.outermost ≠ own :=
    not_congr ⟨BinaryName.eq_of_typeName_eq, fun same => by rw [same]⟩
  rw [Imports.mem_qualified_iff, apart.shares_iff, other, Clashes, and_comm,
    and_iff_right around]

theorem mem_imported_iff (apart : IsSpelledApart own referenced) :
    text ∈ (resolve file own.typeName referenced).imported ↔
      ∃ name, Mentions own referenced name ∧ name.outermost.typeName.text = text ∧
        needsImport file name.package = true ∧
        ∀ other, Mentions own referenced other → other.top = name.top →
          other.outermost = name.outermost := by
  rw [Imports.mem_imported_iff]
  constructor
  · rintro ⟨top, ⟨⟨around, alone⟩, needed⟩, rfl⟩
    obtain ⟨name, mentioned, rfl⟩ := apart.mem_tops_iff.mp around
    rw [BinaryName.package_typeName] at needed
    rw [apart.shares_iff] at alone
    exact ⟨name, mentioned, rfl, needed, fun other mentioned' same =>
      Decidable.byContradiction fun different => alone ⟨other, mentioned', different, same⟩⟩
  · rintro ⟨name, mentioned, rfl, needed, alone⟩
    refine ⟨_, ⟨⟨apart.mem_tops_iff.mpr ⟨name, mentioned, rfl⟩, ?_⟩, ?_⟩, rfl⟩
    · rw [apart.shares_iff]
      rintro ⟨other, mentioned', different, same⟩
      exact different (alone other mentioned' same)
    · rwa [BinaryName.package_typeName]

end IsSpelledApart

/-! ### Written types -/

/-- Two classes written by their simple names have the same outermost class. -/
theorem eq_of_dotted_eq {other : BinaryName} (mentioned : Mentions own referenced name)
    (mentioned' : Mentions own referenced other)
    (alone : ¬ Clashes own referenced name) (alone' : ¬ Clashes own referenced other)
    (same : name.dotted = other.dotted) : name = other := by
  rw [← String.toList_inj, BinaryName.toList_dotted, BinaryName.toList_dotted] at same
  have paths := BinaryName.path_eq_of_joined_eq (by simp) same
  have tops : name.top = other.top := (List.cons.inj paths).1
  by_cases outermost : name.outermost = other.outermost
  · have packages : name.outermost.package = other.outermost.package := by rw [outermost]
    exact BinaryName.eq_of_path_eq packages paths
  · by_cases own_type : name.outermost = own
    · have other_type : other.outermost ≠ own := fun equal => outermost (own_type.trans equal.symm)
      exact absurd ⟨other_type, name, mentioned, outermost, tops⟩ alone'
    · exact absurd ⟨own_type, other, mentioned', Ne.symm outermost, tops.symm⟩ alone

theorem typeText_keyword (imports : Imports) (primitive : keyword ∈ TypeName.primitives)
    (dimensions : Nat) :
    imports.typeText ⟨keyword ++ brackets dimensions⟩ = keyword ++ brackets dimensions := by
  obtain ⟨no_dollar, -, plain⟩ := TypeName.plain_of_mem_primitives primitive
  rw [typeText, element_keyword primitive, TypeName.dimensions_brackets plain,
    isPrimitive_keyword primitive, Bool.true_or, if_pos rfl, TypeName.canonicalName,
    Text.substitute_of_not_mem _ no_dollar, String.ofList_toList]

theorem typeText_array (imports : Imports) (name : BinaryName) (dimensions : Nat) :
    imports.typeText (name.array dimensions) =
      (if name.outermost.typeName ∈ imports.qualified then name.canonical else name.dotted) ++
        brackets dimensions := by
  have topLevel : name.typeName.topLevel = name.outermost.typeName := by
    rw [← name.array_zero, name.topLevel_array]
  rw [typeText, name.element_array, name.dimensions_array, name.isPrimitive_typeName, topLevel,
    name.canonicalName_typeName, name.substitute_binarySimpleChars]
  simp

namespace IsSpelledApart

variable {dimensions : Nat}

theorem typeText_of_clashes (apart : IsSpelledApart own referenced)
    (mentioned : Mentions own referenced name) (clashes : Clashes own referenced name) :
    (resolve file own.typeName referenced).typeText (name.array dimensions) =
      name.canonical ++ brackets dimensions := by
  rw [typeText_array, if_pos ((apart.mem_qualified_iff mentioned).mpr clashes)]

theorem typeText_of_not_clashes (apart : IsSpelledApart own referenced)
    (mentioned : Mentions own referenced name) (alone : ¬ Clashes own referenced name) :
    (resolve file own.typeName referenced).typeText (name.array dimensions) =
      name.dotted ++ brackets dimensions := by
  rw [typeText_array, if_neg fun mem => alone ((apart.mem_qualified_iff mentioned).mp mem)]

theorem package_ne_of_clashes (apart : IsSpelledApart own referenced)
    (mentioned : Mentions own referenced name) (clashes : Clashes own referenced name) :
    name.package ≠ "" := by
  rcases mentioned with rfl | ⟨dimensions, mem⟩
  · exact absurd apart.own_eq clashes.1
  · exact apart.package_ne mem

theorem not_mem_path (apart : IsSpelledApart own referenced) {other : BinaryName}
    (mentioned : Mentions own referenced name) (mentioned' : Mentions own referenced other)
    {part : List Char} (mem : part ∈ name.packageSegments) :
    part ∉ other.path.map String.toList := by
  intro listed
  obtain ⟨segment, found, same⟩ := List.mem_map.mp listed
  exact apart.apart name other mentioned mentioned' part mem segment found same.symm

/-- Canonical names are divided into a package and a path in one way. -/
theorem eq_of_canonical_eq (apart : IsSpelledApart own referenced) {other : BinaryName}
    (mentioned : Mentions own referenced name) (mentioned' : Mentions own referenced other)
    (named : name.package ≠ "") (named' : other.package ≠ "")
    (same : name.canonical = other.canonical) : name = other := by
  have divided := BinaryName.splitOn_canonical named
  rw [same, BinaryName.splitOn_canonical named'] at divided
  obtain ⟨packages, paths⟩ := append_inj_of_disjoint divided
    (fun part mem => apart.not_mem_path mentioned' mentioned mem)
    (fun part mem => apart.not_mem_path mentioned mentioned' mem)
  exact (BinaryName.eq_of_path_eq (BinaryName.eq_of_packageSegments_eq packages)
    ((List.map_inj_right fun _ _ => String.toList_inj.mp).mp paths)).symm

/-- A canonical name begins with a package and a simple one does not. -/
theorem canonical_ne_dotted (apart : IsSpelledApart own referenced) {other : BinaryName}
    (mentioned : Mentions own referenced name) (mentioned' : Mentions own referenced other)
    (named : name.package ≠ "") : name.canonical ≠ other.dotted := by
  intro same
  have divided := BinaryName.splitOn_canonical named
  rw [same, BinaryName.toList_dotted, BinaryName.splitOn_joined other (by simp)] at divided
  obtain ⟨part, listed⟩ := List.exists_mem_of_ne_nil name.packageSegments
    (List.splitOn_ne_nil '.' _)
  apply apart.not_mem_path mentioned mentioned' listed
  rw [divided]
  exact List.mem_append_left _ listed

end IsSpelledApart

/-- Text in which a file writes an element type that it mentions. -/
inductive Written (own : BinaryName) (referenced : SortedSet TypeName) : TypeName → String → Prop
  | keyword {keyword : String} (primitive : keyword ∈ TypeName.primitives) :
      Written own referenced ⟨keyword⟩ keyword
  | qualified {name : BinaryName} (mentioned : Mentions own referenced name)
      (clashes : Clashes own referenced name) :
      Written own referenced name.typeName name.canonical
  | simple {name : BinaryName} (mentioned : Mentions own referenced name)
      (alone : ¬ Clashes own referenced name) : Written own referenced name.typeName name.dotted

namespace IsSpelledApart

variable {element element' : TypeName} {base base' : String}

/-- No written element type ends in a bracket. -/
theorem getLast?_ne_of_written (written : Written own referenced element base) :
    base.toList.getLast? ≠ some ']' := by
  cases written with
  | keyword primitive => exact (TypeName.plain_of_mem_primitives primitive).2.2
  | qualified =>
      rw [BinaryName.toList_canonical]
      exact BinaryName.getLast?_append_joined _ (by decide)
  | simple =>
      rw [BinaryName.toList_dotted, ← List.nil_append (BinaryName.joined _ _)]
      exact BinaryName.getLast?_append_joined _ (by decide)

/-- Every mentioned type is written as its element type with its dimensions. -/
theorem exists_written (apart : IsSpelledApart own referenced) (file : String) {type : TypeName}
    (mem : type = own.typeName ∨ type ∈ referenced) :
    ∃ element base dimensions, Written own referenced element base ∧
      type = ⟨element.text ++ brackets dimensions⟩ ∧
      (resolve file own.typeName referenced).typeText type = base ++ brackets dimensions := by
  have classes : ∀ name dimensions, Mentions own referenced name →
      type = name.array dimensions → ∃ element base dimensions,
        Written own referenced element base ∧ type = ⟨element.text ++ brackets dimensions⟩ ∧
        (resolve file own.typeName referenced).typeText type = base ++ brackets dimensions := by
    rintro name dimensions mentioned rfl
    by_cases clashes : Clashes own referenced name
    · exact ⟨_, _, dimensions, .qualified mentioned clashes, rfl,
        apart.typeText_of_clashes mentioned clashes⟩
    · exact ⟨_, _, dimensions, .simple mentioned clashes, rfl,
        apart.typeText_of_not_clashes mentioned clashes⟩
  rcases mem with own_type | mem
  · exact classes own 0 (.inl rfl) (own_type.trans own.array_zero.symm)
  · rcases apart.spelled type mem with ⟨keyword, primitive, dimensions, rfl⟩ |
      ⟨name, -, dimensions, rfl⟩
    · exact ⟨_, _, dimensions, .keyword primitive, rfl, typeText_keyword _ primitive dimensions⟩
    · exact classes name dimensions (.inr ⟨dimensions, mem⟩) rfl

/-- Element types that are written alike are the same. -/
theorem element_eq_of_written (apart : IsSpelledApart own referenced)
    (written : Written own referenced element base)
    (written' : Written own referenced element' base') (same : base = base') :
    element = element' := by
  cases written with
  | keyword primitive =>
      cases written' with
      | keyword => rw [same]
      | qualified => exact absurd same.symm (BinaryName.canonical_ne_keyword _ primitive)
      | simple => exact absurd same.symm (BinaryName.dotted_ne_keyword _ primitive)
  | qualified mentioned clashes =>
      have named := apart.package_ne_of_clashes mentioned clashes
      cases written' with
      | keyword primitive => exact absurd same (BinaryName.canonical_ne_keyword _ primitive)
      | qualified mentioned' clashes' =>
          have named' := apart.package_ne_of_clashes mentioned' clashes'
          rw [apart.eq_of_canonical_eq mentioned mentioned' named named' same]
      | simple mentioned' =>
          exact absurd same (apart.canonical_ne_dotted mentioned mentioned' named)
  | simple mentioned alone =>
      cases written' with
      | keyword primitive => exact absurd same (BinaryName.dotted_ne_keyword _ primitive)
      | qualified mentioned' clashes' =>
          have named' := apart.package_ne_of_clashes mentioned' clashes'
          exact absurd same.symm (apart.canonical_ne_dotted mentioned' mentioned named')
      | simple mentioned' alone' => rw [eq_of_dotted_eq mentioned mentioned' alone alone' same]

/-- Every text belongs to one type. -/
theorem typeText_inj (apart : IsSpelledApart own referenced) {first second : TypeName}
    (mem : first = own.typeName ∨ first ∈ referenced)
    (mem' : second = own.typeName ∨ second ∈ referenced)
    (same : (resolve file own.typeName referenced).typeText first =
      (resolve file own.typeName referenced).typeText second) : first = second := by
  obtain ⟨element, base, dimensions, written, rfl, text⟩ := apart.exists_written file mem
  obtain ⟨element', base', dimensions', written', rfl, text'⟩ := apart.exists_written file mem'
  rw [text, text'] at same
  obtain ⟨bases, rfl⟩ := TypeName.eq_of_append_brackets_eq (getLast?_ne_of_written written)
    (getLast?_ne_of_written written') same
  rw [apart.element_eq_of_written written written' bases]

end IsSpelledApart

/-- How the imports of a file write the types that it mentions. -/
structure Unambiguous (own : BinaryName) (referenced : SortedSet TypeName) (imports : Imports) :
    Prop where
  /-- Primitive types and their arrays are written as they are. -/
  primitive : ∀ keyword ∈ TypeName.primitives, ∀ dimensions,
    imports.typeText ⟨keyword ++ brackets dimensions⟩ = keyword ++ brackets dimensions
  /-- Imports are outermost classes of referenced ones, from elsewhere and named otherwise than the
  own class. -/
  imported : ∀ text ∈ imports.imported, ∃ (name : BinaryName) (dimensions : Nat),
    name.array dimensions ∈ referenced ∧ text = name.outermost.typeName.text ∧
      name.top ≠ own.top ∧ name.package ≠ own.package ∧ name.package ≠ "java.lang"
  /-- Imports have different simple names. -/
  distinct : ∀ first second : BinaryName, first.outermost.typeName.text ∈ imports.imported →
    second.outermost.typeName.text ∈ imports.imported → first.top = second.top →
      first.outermost = second.outermost
  /-- A class is written with its package exactly when its outermost class clashes. -/
  qualified : ∀ (name : BinaryName) (dimensions : Nat), name.array dimensions ∈ referenced →
    (imports.typeText (name.array dimensions) = name.canonical ++ brackets dimensions ↔
      Clashes own referenced name)
  /-- A class is written along its path alone exactly when its outermost class does not clash. -/
  simple : ∀ (name : BinaryName) (dimensions : Nat), name.array dimensions ∈ referenced →
    (imports.typeText (name.array dimensions) = name.dotted ++ brackets dimensions ↔
      ¬ Clashes own referenced name)
  /-- An outermost class that does not clash is seen by its simple name. -/
  visible : ∀ (name : BinaryName) (dimensions : Nat), name.array dimensions ∈ referenced →
    ¬ Clashes own referenced name →
      name.outermost = own ∨ name.outermost.typeName.text ∈ imports.imported ∨
        name.package = own.package ∨ name.package = "java.lang"
  /-- No two types are written alike. -/
  injective : ∀ first second : TypeName, first = own.typeName ∨ first ∈ referenced →
    second = own.typeName ∨ second ∈ referenced →
      imports.typeText first = imports.typeText second → first = second

theorem needsImport_iff {package : String} :
    needsImport file package = true ↔
      package ≠ file ∧ package ≠ "java.lang" ∧ package ≠ "" := by
  simp [needsImport, and_assoc]

namespace IsSpelledApart

/-- Imports come from elsewhere, and no mentioned class takes their simple names. -/
theorem exists_of_mem_imported (apart : IsSpelledApart own referenced) {text : String}
    (mem : text ∈ (resolve own.package own.typeName referenced).imported) :
    ∃ (name : BinaryName) (dimensions : Nat), name.array dimensions ∈ referenced ∧
      text = name.outermost.typeName.text ∧ name.top ≠ own.top ∧ name.package ≠ own.package ∧
      name.package ≠ "java.lang" := by
  obtain ⟨name, mentioned, spelled, needed, alone⟩ := apart.mem_imported_iff.mp mem
  obtain ⟨other_package, not_lang, -⟩ := needsImport_iff.mp needed
  have other : name ≠ own := fun same => other_package (by rw [same])
  obtain ⟨dimensions, listed⟩ := mentioned.resolve_left other
  refine ⟨name, dimensions, listed, spelled.symm, fun same => ?_, other_package, not_lang⟩
  have outermost := alone own (.inl rfl) same.symm
  have packages : own.outermost.package = name.outermost.package := by rw [outermost]
  exact other_package packages.symm

theorem outermost_eq_of_mem_imported (apart : IsSpelledApart own referenced)
    {first second : BinaryName}
    (mem : first.outermost.typeName.text ∈ (resolve file own.typeName referenced).imported)
    (mem' : second.outermost.typeName.text ∈ (resolve file own.typeName referenced).imported)
    (same : first.top = second.top) : first.outermost = second.outermost := by
  obtain ⟨name, -, spelled, -, alone⟩ := apart.mem_imported_iff.mp mem
  obtain ⟨other, mentioned, spelled', -, -⟩ := apart.mem_imported_iff.mp mem'
  have first_eq := BinaryName.eq_of_typeName_eq (congrArg TypeName.mk spelled)
  have second_eq := BinaryName.eq_of_typeName_eq (congrArg TypeName.mk spelled')
  have first_top : name.outermost.top = first.outermost.top := by rw [first_eq]
  have second_top : other.outermost.top = second.outermost.top := by rw [second_eq]
  have tops : other.top = name.top := (second_top.trans same.symm).trans first_top.symm
  rw [← first_eq, ← second_eq, alone other mentioned tops]

/-- A class that does not clash needs an import, or is seen without. -/
theorem visible_of_not_clashes (apart : IsSpelledApart own referenced) {dimensions : Nat}
    (mem : name.array dimensions ∈ referenced) (alone : ¬ Clashes own referenced name) :
    name.outermost = own ∨
      name.outermost.typeName.text ∈ (resolve own.package own.typeName referenced).imported ∨
      name.package = own.package ∨ name.package = "java.lang" := by
  by_cases own_type : name.outermost = own
  · exact .inl own_type
  by_cases near : name.package = own.package
  · exact .inr (.inr (.inl near))
  by_cases lang : name.package = "java.lang"
  · exact .inr (.inr (.inr lang))
  refine .inr (.inl (apart.mem_imported_iff.mpr ⟨name, .inr ⟨dimensions, mem⟩, rfl,
    needsImport_iff.mpr ⟨near, lang, apart.package_ne mem⟩, fun other mentioned same => ?_⟩))
  exact Decidable.byContradiction fun different =>
    alone ⟨own_type, other, mentioned, different, same⟩

/-- With packages and classes named apart, the imports of a file are unambiguous. -/
theorem unambiguous_resolve (apart : IsSpelledApart own referenced) :
    Unambiguous own referenced (resolve own.package own.typeName referenced) := by
  have written {name : BinaryName} {dimensions : Nat} (mem : name.array dimensions ∈ referenced) :
      name.canonical ++ brackets dimensions ≠ name.dotted ++ brackets dimensions := by
    have mentioned : Mentions own referenced name := .inr ⟨dimensions, mem⟩
    intro same
    exact apart.canonical_ne_dotted mentioned mentioned (apart.package_ne mem)
      (String.append_left_inj _ |>.mp same)
  constructor
  · exact fun keyword primitive dimensions => typeText_keyword _ primitive dimensions
  · exact fun text mem => apart.exists_of_mem_imported mem
  · exact fun first second mem mem' same => apart.outermost_eq_of_mem_imported mem mem' same
  · intro name dimensions mem
    have mentioned : Mentions own referenced name := .inr ⟨dimensions, mem⟩
    refine ⟨fun text => ?_, apart.typeText_of_clashes mentioned⟩
    by_cases clashes : Clashes own referenced name
    · exact clashes
    · rw [apart.typeText_of_not_clashes mentioned clashes] at text
      exact absurd text.symm (written mem)
  · intro name dimensions mem
    have mentioned : Mentions own referenced name := .inr ⟨dimensions, mem⟩
    refine ⟨fun text clashes => ?_, apart.typeText_of_not_clashes mentioned⟩
    rw [apart.typeText_of_clashes mentioned clashes] at text
    exact absurd text (written mem)
  · exact fun name dimensions mem => apart.visible_of_not_clashes mem
  · exact fun first second mem mem' => apart.typeText_inj mem mem'

end IsSpelledApart

/-- Types given by primitive types and classes with their array dimensions. -/
def typesOf (keywords : List (String × Nat)) (classes : List (BinaryName × Nat)) :
    SortedSet TypeName :=
  .ofList (keywords.map (fun keyword => ⟨keyword.1 ++ brackets keyword.2⟩) ++
    classes.map fun cls => cls.1.array cls.2)

theorem mem_typesOf {keywords : List (String × Nat)} {classes : List (BinaryName × Nat)}
    {type : TypeName} :
    type ∈ typesOf keywords classes ↔
      (∃ keyword ∈ keywords, ⟨keyword.1 ++ brackets keyword.2⟩ = type) ∨
        ∃ cls ∈ classes, cls.1.array cls.2 = type := by
  rw [typesOf, SortedSet.mem_ofList, List.mem_append, List.mem_map, List.mem_map]

/-- Whether names are spelled apart can be checked class by class. -/
theorem isSpelledApart_typesOf {keywords : List (String × Nat)}
    {classes : List (BinaryName × Nat)} (outermost : own.nested = [])
    (primitive : ∀ keyword ∈ keywords, keyword.1 ∈ TypeName.primitives)
    (named : ∀ cls ∈ classes, cls.1.package ≠ "")
    (apart : ∀ first ∈ own :: classes.map Prod.fst, ∀ second ∈ own :: classes.map Prod.fst,
      ∀ part ∈ first.packageSegments, ∀ segment ∈ second.path, part ≠ segment.toList) :
    IsSpelledApart own (typesOf keywords classes) := by
  have listed : ∀ name, Mentions own (typesOf keywords classes) name →
      name ∈ own :: classes.map Prod.fst := by
    rintro name (rfl | ⟨dimensions, mem⟩)
    · exact List.mem_cons_self
    · rcases mem_typesOf.mp mem with ⟨keyword, listed, same⟩ | ⟨cls, listed, same⟩
      · exact absurd same.symm (array_ne_keyword (primitive keyword listed) name _ _)
      · rw [← (BinaryName.eq_of_array_eq same).1]
        exact List.mem_cons_of_mem _ (List.mem_map_of_mem listed)
  constructor
  · exact outermost
  · intro type mem
    rcases mem_typesOf.mp mem with ⟨keyword, listed, rfl⟩ | ⟨cls, listed, rfl⟩
    · exact .inl ⟨keyword.1, primitive keyword listed, keyword.2, rfl⟩
    · exact .inr ⟨cls.1, named cls listed, cls.2, rfl⟩
  · exact fun first second mentioned mentioned' =>
      apart first (listed first mentioned) second (listed second mentioned')

end Imports

namespace Sample

/-- Class of a file. -/
def boot : BinaryName := ⟨"com.app", "Boot", [], by decide, by decide⟩

/-- Classes of which two clash with each other and one with the class of the file. -/
def classes : List (BinaryName × Nat) :=
  [(⟨"java.lang", "String", [], by decide, by decide⟩, 1),
    (⟨"com.app", "Near", ["Inner"], by decide, by decide⟩, 0),
    (⟨"org.other", "Boot", [], by decide, by decide⟩, 0),
    (⟨"org.other", "Foo", ["Bar", "Baz"], by decide, by decide⟩, 2),
    (⟨"org.more", "Foo", [], by decide, by decide⟩, 0),
    (⟨"org.more", "Lone", ["Foo"], by decide, by decide⟩, 0)]

/-- Types that a file refers to. -/
def mentioned : SortedSet TypeName := Imports.typesOf [("int", 1), ("void", 0)] classes

end Sample

theorem Imports.unambiguous_resolve_sample :
    Imports.Unambiguous Sample.boot Sample.mentioned
      (Imports.resolve "com.app" ⟨"com.app.Boot"⟩ Sample.mentioned) :=
  Imports.IsSpelledApart.unambiguous_resolve
    (Imports.isSpelledApart_typesOf rfl (by decide) (by decide +kernel) (by decide +kernel))

example :
    let imports := Imports.resolve "com.app" ⟨"com.app.Boot"⟩ Sample.mentioned
    imports.imported.items = ["org.more.Lone"] ∧
      Sample.mentioned.items.map imports.typeText =
        ["Near.Inner", "int[]", "String[]", "org.more.Foo", "Lone.Foo", "org.other.Boot",
          "org.other.Foo.Bar.Baz[][]", "void"] := by
  decide +kernel

end Wiring
