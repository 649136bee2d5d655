import Wiring.Proofs.CleanNames

/-!
# Spelling of binary names

A class is found in its package along a path of simple names that starts at the outermost class.
The binary name of a class joins this path by `$`, and its canonical name joins it by dots.  Every
part that is read off a binary name, with or without array dimensions, is the one it was spelled
from; so different classes have different binary names.
-/

namespace Wiring

namespace Text

variable {mark separator : Char} {chars before after : List Char}

theorem beforeLast_of_not_mem (absent : mark ∉ chars) : beforeLast mark chars = [] := by
  rw [beforeLast, cutLast?_eq_none_iff.mpr absent]

theorem afterLast_of_not_mem (absent : mark ∉ chars) : afterLast mark chars = chars := by
  rw [afterLast, cutLast?_eq_none_iff.mpr absent]

theorem beforeLast_append (absent : mark ∉ after) :
    beforeLast mark (before ++ mark :: after) = before := by
  rw [beforeLast, cutLast?_eq_some_iff.mpr ⟨rfl, absent⟩]

theorem afterLast_append (absent : mark ∉ after) :
    afterLast mark (before ++ mark :: after) = after := by
  rw [afterLast, cutLast?_eq_some_iff.mpr ⟨rfl, absent⟩]

theorem beforeFirst_append (absent : mark ∉ before) (rest : List Char) :
    beforeFirst mark (before ++ rest) = before ++ beforeFirst mark rest := by
  apply List.takeWhile_append_of_pos
  intro char mem
  exact bne_iff_ne.mpr fun same => absent (same ▸ mem)

theorem beforeFirst_intercalate {first : List Char} (absent : mark ∉ first)
    (others : List (List Char)) :
    beforeFirst mark ([mark].intercalate (first :: others)) = first := by
  cases others with
  | nil =>
      have whole := beforeFirst_append absent []
      simpa [beforeFirst] using whole
  | cons second others =>
      rw [List.intercalate_cons_cons, List.append_assoc, beforeFirst_append absent]
      simp [beforeFirst]

theorem getLast?_append_ne (before : List Char) (nonempty : chars ≠ []) (absent : mark ∉ chars) :
    (before ++ chars).getLast? ≠ some mark := by
  intro last
  rw [List.getLast?_append, List.getLast?_eq_some_getLast nonempty, Option.some_or,
    Option.some.injEq] at last
  exact absent (last ▸ List.getLast_mem nonempty)

theorem substitute_append (replacement : Char) (first second : List Char) :
    substitute mark replacement (first ++ second) =
      substitute mark replacement first ++ substitute mark replacement second :=
  List.map_append

theorem substitute_of_not_mem (replacement : Char) (absent : mark ∉ chars) :
    substitute mark replacement chars = chars := by
  rw [substitute]
  conv => rhs; rw [← List.map_id chars]
  apply List.map_congr_left
  intro char mem
  have other : char ≠ mark := fun same => absent (same ▸ mem)
  exact if_neg other

theorem substitute_intercalate (replacement : Char) {parts : List (List Char)}
    (absent : ∀ part ∈ parts, mark ∉ part) :
    substitute mark replacement ([mark].intercalate parts) = [replacement].intercalate parts := by
  induction parts with
  | nil => rfl
  | cons first others ih =>
      obtain ⟨first_absent, others_absent⟩ := List.forall_mem_cons.mp absent
      cases others with
      | nil => simp [substitute_of_not_mem replacement first_absent]
      | cons second others =>
          rw [List.intercalate_cons_cons, List.intercalate_cons_cons, substitute_append,
            substitute_append, ih others_absent, substitute_of_not_mem replacement first_absent]
          simp [substitute]

end Text

/-! ### Array dimensions -/

namespace TypeName

theorem stripDimensions_replicate (dimensions : Nat) {chars : List Char}
    (plain : chars.head? ≠ some ']') :
    stripDimensions ((List.replicate dimensions [']', '[']).flatten ++ chars) =
      (dimensions, chars) := by
  induction dimensions with
  | zero =>
      rw [List.replicate_zero, List.flatten_nil, List.nil_append]
      unfold stripDimensions
      split
      next rest => exact absurd rfl plain
      next => rfl
  | succ dimensions ih =>
      rw [List.replicate_succ, List.flatten_cons, List.append_assoc, List.cons_append,
        List.cons_append, List.nil_append, stripDimensions, ih]

theorem stripDimensions_brackets {base : String} (plain : base.toList.getLast? ≠ some ']')
    (dimensions : Nat) :
    stripDimensions (base ++ Imports.brackets dimensions).toList.reverse =
      (dimensions, base.toList.reverse) := by
  have reversed : (Imports.brackets dimensions).toList.reverse =
      (List.replicate dimensions [']', '[']).flatten := by
    simp [Imports.brackets, String.toList_join, List.flatMap_replicate, List.reverse_flatten]
  rw [String.toList_append, List.reverse_append, reversed]
  exact stripDimensions_replicate dimensions (by rwa [List.head?_reverse])

variable {base : String}

theorem elementChars_brackets (plain : base.toList.getLast? ≠ some ']') (dimensions : Nat) :
    (⟨base ++ Imports.brackets dimensions⟩ : TypeName).elementChars = base.toList := by
  rw [elementChars, stripDimensions_brackets plain, List.reverse_reverse]

theorem element_brackets (plain : base.toList.getLast? ≠ some ']') (dimensions : Nat) :
    (⟨base ++ Imports.brackets dimensions⟩ : TypeName).element = ⟨base⟩ := by
  rw [element, elementChars_brackets plain, String.ofList_toList]

theorem dimensions_brackets (plain : base.toList.getLast? ≠ some ']') (dimensions : Nat) :
    (⟨base ++ Imports.brackets dimensions⟩ : TypeName).dimensions = dimensions := by
  rw [TypeName.dimensions, stripDimensions_brackets plain]

/-- Texts that do not end in a bracket are told apart from their array dimensions. -/
theorem eq_of_append_brackets_eq {base' : String} {dimensions dimensions' : Nat}
    (plain : base.toList.getLast? ≠ some ']') (plain' : base'.toList.getLast? ≠ some ']')
    (same : base ++ Imports.brackets dimensions = base' ++ Imports.brackets dimensions') :
    base = base' ∧ dimensions = dimensions' := by
  have elements := element_brackets plain dimensions
  have counts := dimensions_brackets plain dimensions
  rw [same] at elements counts
  rw [element_brackets plain'] at elements
  rw [dimensions_brackets plain'] at counts
  exact ⟨congrArg TypeName.text elements.symm, counts.symm⟩

theorem afterLast_qualifier_append (package : String) {chars : List Char} (absent : '.' ∉ chars) :
    Text.afterLast '.' (qualifier package ++ chars) = chars := by
  rw [qualifier]
  split
  next default => rw [List.nil_append, Text.afterLast_of_not_mem absent]
  next named => rw [List.append_assoc, List.singleton_append, Text.afterLast_append absent]

theorem plain_of_mem_primitives {keyword : String} (mem : keyword ∈ primitives) :
    '$' ∉ keyword.toList ∧ '.' ∉ keyword.toList ∧ keyword.toList.getLast? ≠ some ']' := by
  revert keyword
  decide

end TypeName

/-! ### Classes -/

/-- Whether a text may name one class of a path. -/
def IsClassSegment (segment : String) : Prop :=
  segment ≠ "" ∧ segment.toList.all (fun char => ['$', '.', '[', ']'].all (· != char)) = true ∧
    segment ∉ TypeName.primitives

instance (segment : String) : Decidable (IsClassSegment segment) :=
  inferInstanceAs (Decidable (_ ∧ _ ∧ _))

/-- Class in a package, along a path of enclosing classes. -/
structure BinaryName where
  /-- Package of the class; the default package is empty. -/
  package : String
  /-- Outermost class of the path. -/
  top : String
  /-- Other classes of the path, from the outside in. -/
  nested : List String
  /-- The package does not look like a path of classes. -/
  package_plain : '$' ∉ package.toList
  /-- Every class of the path has a name. -/
  segments : ∀ segment ∈ top :: nested, IsClassSegment segment
  deriving DecidableEq

theorem IsClassSegment.not_mem {segment : String} (named : IsClassSegment segment) {mark : Char}
    (special : mark ∈ ['$', '.', '[', ']']) : mark ∉ segment.toList := by
  intro mem
  have plain := List.all_eq_true.mp (List.all_eq_true.mp named.2.1 mark mem) mark special
  exact bne_iff_ne.mp plain rfl

namespace BinaryName

variable (name : BinaryName)

/-- Simple names that lead to the class. -/
def path : List String := name.top :: name.nested

/-- The path as one text. -/
def joined (separator : Char) : List Char := [separator].intercalate (name.path.map String.toList)

/-- Name of the class in its package, as written in a source file. -/
def dotted : String := ".".intercalate name.path

/-- Name of the class as written in a source file anywhere. -/
def canonical : String := (TypeName.qualify name.package name.dotted).text

/-- Binary name of the class. -/
def typeName : TypeName := .qualify name.package ("$".intercalate name.path)

/-- Array of the class with the given number of dimensions. -/
def array (dimensions : Nat) : TypeName := ⟨name.typeName.text ++ Imports.brackets dimensions⟩

/-- Outermost class of the path. -/
def outermost : BinaryName where
  package := name.package
  top := name.top
  nested := []
  package_plain := name.package_plain
  segments segment mem := name.segments segment (by simp_all)

/-- Parts of the package. -/
def packageSegments : List (List Char) := name.package.toList.splitOn '.'

/-- Text in front of the path. -/
def qualifier : List Char := if name.package = "" then [] else name.package.toList ++ ['.']

theorem toList_qualify (simpleName : String) :
    (TypeName.qualify name.package simpleName).text.toList =
      name.qualifier ++ simpleName.toList :=
  TypeName.toList_qualify name.package simpleName

theorem toList_typeName : name.typeName.text.toList = name.qualifier ++ name.joined '$' := by
  rw [typeName, toList_qualify, String.toList_intercalate]
  rfl

theorem toList_dotted : name.dotted.toList = name.joined '.' := by
  rw [dotted, String.toList_intercalate]
  rfl

theorem toList_canonical : name.canonical.toList = name.qualifier ++ name.joined '.' := by
  rw [canonical, toList_qualify, toList_dotted]

variable {name} {separator mark : Char} {dimensions : Nat}

theorem isClassSegment_of_mem_path {segment : String} (mem : segment ∈ name.path) :
    IsClassSegment segment :=
  name.segments segment mem

theorem not_mem_part {part : List Char} (special : mark ∈ ['$', '.', '[', ']'])
    (mem : part ∈ name.path.map String.toList) : mark ∉ part := by
  obtain ⟨segment, listed, rfl⟩ := List.mem_map.mp mem
  exact (isClassSegment_of_mem_path listed).not_mem special

theorem isClassSegment_top (name : BinaryName) : IsClassSegment name.top :=
  isClassSegment_of_mem_path List.mem_cons_self

theorem not_mem_top (name : BinaryName) (special : mark ∈ ['$', '.', '[', ']']) :
    mark ∉ name.top.toList :=
  name.isClassSegment_top.not_mem special

theorem not_mem_joined (special : mark ∈ ['$', '.', '[', ']']) (other : mark ≠ separator) :
    mark ∉ name.joined separator := by
  intro mem
  rcases Text.mem_intercalate mem with mem | ⟨part, listed, mem⟩
  · exact other (List.mem_singleton.mp mem)
  · exact not_mem_part special listed mem

theorem joined_eq (name : BinaryName) (separator : Char) :
    name.joined separator = name.top.toList ∨ separator ∈ name.joined separator := by
  rw [joined, path]
  cases name.nested with
  | nil => exact .inl (by simp)
  | cons next others => exact .inr (by simp)

theorem joined_ne_nil (name : BinaryName) (separator : Char) : name.joined separator ≠ [] := by
  intro none_left
  rcases joined_eq name separator with whole | mem
  · rw [whole, String.toList_eq_nil_iff] at none_left
    exact name.isClassSegment_top.1 none_left
  · rw [none_left] at mem
    cases mem

theorem getLast?_append_joined (before : List Char) (separated : separator ≠ ']') :
    (before ++ name.joined separator).getLast? ≠ some ']' :=
  Text.getLast?_append_ne before (joined_ne_nil name separator)
    (not_mem_joined (by simp) separated.symm)

theorem joined_ne_keyword (separates : separator = '$' ∨ separator = '.') {keyword : String}
    (mem : keyword ∈ TypeName.primitives) : name.joined separator ≠ keyword.toList := by
  obtain ⟨no_dollar, no_dot, -⟩ := TypeName.plain_of_mem_primitives mem
  intro same
  rcases joined_eq name separator with whole | found
  · rw [same, String.toList_inj] at whole
    exact name.isClassSegment_top.2.2 (whole ▸ mem)
  · rw [same] at found
    rcases separates with rfl | rfl
    · exact no_dollar found
    · exact no_dot found

theorem not_mem_qualifier : '$' ∉ name.qualifier := by
  rw [qualifier]
  split
  · exact List.not_mem_nil
  · simpa using name.package_plain

theorem qualifier_ne_nil (named : name.package ≠ "") : '.' ∈ name.qualifier := by
  rw [qualifier, if_neg named]
  simp

/-! ### Parts of a spelled name -/

theorem elementChars_array (name : BinaryName) (dimensions : Nat) :
    (name.array dimensions).elementChars = name.qualifier ++ name.joined '$' := by
  rw [array, TypeName.elementChars_brackets, toList_typeName]
  rw [toList_typeName]
  exact getLast?_append_joined _ (by decide)

theorem element_array (name : BinaryName) (dimensions : Nat) :
    (name.array dimensions).element = name.typeName := by
  rw [TypeName.element, elementChars_array, ← toList_typeName, String.ofList_toList]

theorem dimensions_array (name : BinaryName) (dimensions : Nat) :
    (name.array dimensions).dimensions = dimensions := by
  apply TypeName.dimensions_brackets
  rw [toList_typeName]
  exact getLast?_append_joined _ (by decide)

theorem array_zero (name : BinaryName) : name.array 0 = name.typeName := by
  simp [array, Imports.brackets]

theorem package_array (name : BinaryName) (dimensions : Nat) :
    (name.array dimensions).package = name.package := by
  have absent : '.' ∉ name.joined '$' := not_mem_joined (by simp) (by decide)
  rw [TypeName.package, elementChars_array, qualifier]
  split
  next default => rw [List.nil_append, Text.beforeLast_of_not_mem absent, default]
  next named =>
    rw [List.append_assoc, List.singleton_append, Text.beforeLast_append absent,
      String.ofList_toList]

theorem binarySimpleChars_array (name : BinaryName) (dimensions : Nat) :
    (name.array dimensions).binarySimpleChars = name.joined '$' := by
  rw [TypeName.binarySimpleChars, elementChars_array]
  exact TypeName.afterLast_qualifier_append name.package (not_mem_joined (by simp) (by decide))

theorem toList_outermost (name : BinaryName) :
    name.outermost.typeName.text.toList = name.qualifier ++ name.top.toList := by
  have outside : name.outermost.qualifier = name.qualifier := rfl
  rw [toList_typeName, outside, joined, path]
  simp [outermost]

theorem topLevel_array (name : BinaryName) (dimensions : Nat) :
    (name.array dimensions).topLevel = name.outermost.typeName := by
  have absent : '$' ∉ name.top.toList := name.not_mem_top (by simp)
  rw [TypeName.topLevel, elementChars_array, Text.beforeFirst_append not_mem_qualifier, joined,
    path, List.map_cons, Text.beforeFirst_intercalate absent, ← toList_outermost,
    String.ofList_toList]

theorem package_typeName (name : BinaryName) : name.typeName.package = name.package := by
  rw [← array_zero, package_array]

theorem simpleName_outermost (name : BinaryName) :
    name.outermost.typeName.simpleName = name.top := by
  have absent : '$' ∉ name.top.toList := name.not_mem_top (by simp)
  rw [← array_zero, TypeName.simpleName, binarySimpleChars_array]
  simp [joined, path, outermost, Text.afterLast_of_not_mem absent]

theorem canonicalName_typeName (name : BinaryName) :
    name.typeName.canonicalName = name.canonical := by
  rw [TypeName.canonicalName, toList_typeName, Text.substitute_append,
    Text.substitute_of_not_mem _ not_mem_qualifier, joined,
    Text.substitute_intercalate _ fun part => not_mem_part (by simp), ← joined,
    ← toList_canonical, String.ofList_toList]

theorem substitute_binarySimpleChars (name : BinaryName) :
    String.ofList (Text.substitute '$' '.' name.typeName.binarySimpleChars) = name.dotted := by
  rw [← array_zero, binarySimpleChars_array, joined,
    Text.substitute_intercalate _ fun part => not_mem_part (by simp), ← joined, ← toList_dotted,
    String.ofList_toList]

/-- No spelling of a class is that of a primitive type. -/
theorem qualifier_append_joined_ne (name : BinaryName)
    (separates : separator = '$' ∨ separator = '.') {keyword : String}
    (primitive : keyword ∈ TypeName.primitives) :
    name.qualifier ++ name.joined separator ≠ keyword.toList := by
  intro same
  by_cases default : name.package = ""
  · rw [qualifier, if_pos default, List.nil_append] at same
    exact joined_ne_keyword separates primitive same
  · apply (TypeName.plain_of_mem_primitives primitive).2.1
    rw [← same]
    exact List.mem_append_left _ (qualifier_ne_nil default)

theorem isPrimitive_typeName (name : BinaryName) : name.typeName.isPrimitive = false := by
  rw [TypeName.isPrimitive, Bool.eq_false_iff, ne_eq, List.contains_iff_mem]
  exact fun primitive =>
    name.qualifier_append_joined_ne (.inl rfl) primitive name.toList_typeName.symm

theorem canonical_ne_keyword (name : BinaryName) {keyword : String}
    (primitive : keyword ∈ TypeName.primitives) : name.canonical ≠ keyword := by
  rintro rfl
  exact name.qualifier_append_joined_ne (.inr rfl) primitive name.toList_canonical.symm

theorem dotted_ne_keyword (name : BinaryName) {keyword : String}
    (primitive : keyword ∈ TypeName.primitives) : name.dotted ≠ keyword := by
  rintro rfl
  exact joined_ne_keyword (.inr rfl) primitive name.toList_dotted.symm

/-! ### Reading a spelled name back -/

theorem splitOn_joined (name : BinaryName) (special : separator ∈ ['$', '.', '[', ']']) :
    (name.joined separator).splitOn separator = name.path.map String.toList :=
  List.splitOn_intercalate separator (fun _ => not_mem_part special) (by simp [path])

theorem path_eq_of_joined_eq {other : BinaryName} (special : separator ∈ ['$', '.', '[', ']'])
    (same : name.joined separator = other.joined separator) : name.path = other.path := by
  have parts := splitOn_joined name special
  rw [same, splitOn_joined other special] at parts
  exact ((List.map_inj_right fun _ _ => String.toList_inj.mp).mp parts).symm

theorem eq_of_path_eq {other : BinaryName} (packages : name.package = other.package)
    (paths : name.path = other.path) : name = other := by
  cases name
  cases other
  obtain ⟨rfl, rfl⟩ := List.cons.inj paths
  cases packages
  rfl

/-- Different arrays of classes have different names. -/
theorem eq_of_array_eq {other : BinaryName} {dimensions' : Nat}
    (same : name.array dimensions = other.array dimensions') :
    name = other ∧ dimensions = dimensions' := by
  have packages := package_array name dimensions
  have counts := dimensions_array name dimensions
  have paths := binarySimpleChars_array name dimensions
  rw [same] at packages counts paths
  rw [package_array] at packages
  rw [dimensions_array] at counts
  rw [binarySimpleChars_array] at paths
  exact ⟨eq_of_path_eq packages.symm (path_eq_of_joined_eq (by simp) paths.symm), counts.symm⟩

theorem eq_of_typeName_eq {other : BinaryName} (same : name.typeName = other.typeName) :
    name = other := by
  rw [← array_zero, ← array_zero] at same
  exact (eq_of_array_eq same).1

theorem eq_of_packageSegments_eq {other : BinaryName}
    (same : name.packageSegments = other.packageSegments) : name.package = other.package := by
  have joined (cls : BinaryName) : ['.'].intercalate cls.packageSegments = cls.package.toList :=
    List.intercalate_splitOn '.'
  rw [← String.toList_inj, ← joined name, same, joined other]

theorem splitOn_canonical (named : name.package ≠ "") :
    name.canonical.toList.splitOn '.' = name.packageSegments ++ name.path.map String.toList := by
  rw [toList_canonical, qualifier, if_neg named, List.append_assoc, List.singleton_append,
    List.splitOn_append_cons_self, splitOn_joined name (by simp), packageSegments]

end BinaryName
end Wiring
