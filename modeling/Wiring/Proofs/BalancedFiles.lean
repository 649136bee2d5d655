import Wiring.Bootstrap.Class
import Wiring.Proofs.BalancedBlocks

/-!
# Brackets of source files

A class with clean names and balanced methods is written as a file in which everything is closed:
the preamble names clean packages and types, and every header opens one brace that the last line of
its body closes.
-/

namespace Wiring

open Scanner

/-- Whether a method has clean names and a balanced body. -/
structure Method.IsClean (method : Method) : Prop where
  /-- The name is clean. -/
  name : IsCleanText method.name
  /-- Annotations are clean. -/
  annotations : ∀ annotation ∈ method.annotations, annotation.IsClean
  /-- The type of the result is clean. -/
  returnType : ∀ type ∈ method.returnType.toList, type.IsClean
  /-- Types of parameters are clean. -/
  parameterTypes : ∀ parameter ∈ method.parameters, parameter.type.IsClean
  /-- Names of parameters are clean. -/
  parameterNames : ∀ parameter ∈ method.parameters, IsCleanText parameter.name
  /-- The body is balanced. -/
  body : method.body.Balanced

theorem Modifier.balanced_render (modifiers : List Modifier) :
    Balanced (Modifier.render modifiers).toList := by
  have keywords : ∀ modifier : Modifier, Balanced (modifier.keyword ++ " ").toList := by
    intro modifier
    cases modifier <;> decide
  rw [Modifier.render, String.toList_join, List.flatMap_map]
  exact balanced_flatMap fun modifier _ => keywords modifier

namespace Method

variable {typeText : TypeName → String} {method : Method}

/-- The header of a method opens one brace. -/
theorem IsClean.moves_header (clean : method.IsClean) (writes : WritesBalanced typeText) :
    Moves (method.header typeText).toList [] ['\x7d'] := by
  have result : Balanced ((method.returnType.map typeText).getD "void").toList := by
    cases returned : method.returnType with
    | none =>
        have fixed : Balanced "void".toList := by decide
        exact fixed
    | some type => exact writes type (clean.returnType type (by simp [returned]))
  have space : Balanced " ".toList := by decide
  have comma : Balanced ", ".toList := by decide
  have opening : Moves "(".toList [] [')'] := by decide
  have closing : Moves ") \x7b".toList [')'] ['\x7d'] := by decide
  have parameters : Balanced (", ".intercalate (method.parameters.map fun parameter =>
      typeText parameter.type ++ " " ++ parameter.name)).toList := by
    rw [String.toList_intercalate, List.map_map]
    apply balanced_intercalate comma
    intro text mem
    obtain ⟨parameter, listed, rfl⟩ := List.mem_map.mp mem
    simp only [Function.comp_apply, String.toList_append]
    exact ((writes _ (clean.parameterTypes parameter listed)).append space).append
      (clean.parameterNames parameter listed).balanced
  have named := (((Modifier.balanced_render method.modifiers).append result).append space).append
    clean.name.balanced
  simp only [Method.header, String.toList_append]
  exact ((Moves.append named opening).append (parameters.moves _)).append closing

/-- A clean method leaves the expected brackets of the page as they are. -/
theorem IsClean.reads_print (clean : method.IsClean) (writes : WritesBalanced typeText)
    {page : Page} {pending : List Char} (reads : page.Reads pending) :
    (method.print typeText page).Reads pending := by
  have annotated : ∀ annotations : List TypeName,
      (∀ annotation ∈ annotations, annotation.IsClean) → ∀ page : Page, page.Reads pending →
        (annotations.foldl (fun page name => page.line ("@" ++ typeText name)) page).Reads
          pending := by
    intro annotations
    induction annotations with
    | nil => exact fun _ _ reads => reads
    | cons annotation annotations ih =>
        intro clean page reads
        have mark : Balanced "@".toList := by decide
        refine ih (fun other mem => clean other (by simp [mem])) _ (reads.codeLine ?_)
        rw [String.toList_append]
        exact (mark.append (writes annotation (clean annotation (by simp)))).moves pending
  have header := (clean.moves_header writes).within pending
  have brace : Moves "\x7d".toList ['\x7d'] [] := by decide
  have opened := ((annotated _ clean.annotations page reads).codeLine header).indent
  have body := (clean.body.moves ['\x7d']).reads typeText writes _ pending opened
  exact body.unindent.codeLine (brace.within pending)

/-- Types that a clean method refers to are clean. -/
theorem IsClean.types (clean : method.IsClean) {name : TypeName} (mem : name ∈ method.types) :
    name.IsClean := by
  simp only [Method.types, Block.types, SortedSet.mem_insertAll, SortedSet.mem_ofList,
    List.mem_append, List.mem_flatMap, List.mem_map] at mem
  rcases mem with ((annotated | result) | ⟨parameter, listed, rfl⟩) | ⟨line, listed, referred⟩
  · exact clean.annotations name annotated
  · exact clean.returnType name result
  · exact clean.parameterTypes parameter listed
  · exact clean.body.types line listed name referred

end Method

/-- Whether a class has a clean name and clean methods. -/
structure BootstrapClass.IsClean (cls : BootstrapClass) : Prop where
  /-- The name is clean. -/
  typeName : cls.typeName.IsClean
  /-- The methods are clean. -/
  methods : ∀ method ∈ cls.methods, method.IsClean

namespace Imports

/-- Whether all grouped types are clean. -/
def Groups.IsClean (groups : Groups) : Prop :=
  ∀ key tops, groups.get? key = some tops → ∀ top ∈ tops, IsCleanText top.text

theorem isClean_addTo {groups : Groups} (clean : groups.IsClean) (simpleName : String)
    {top : TypeName} (clean_top : IsCleanText top.text) :
    (addTo groups simpleName top).IsClean := by
  intro key tops stored other mem
  rw [addTo, SortedMap.get?_update] at stored
  split at stored
  next same =>
    obtain rfl := Option.some.inj stored
    rcases SortedSet.mem_insert.mp mem with rfl | mem
    · exact clean_top
    · cases known : groups.get? simpleName with
      | none => simp [known] at mem
      | some tops => exact clean simpleName tops known other (by simpa [known] using mem)
  next => exact clean key tops stored other mem

theorem isClean_group {own : TypeName} (clean : IsCleanText own.text) {referenced : List TypeName}
    (clean_referenced : ∀ name ∈ referenced, name.IsClean) : (group own referenced).IsClean := by
  have none_yet : Groups.IsClean .empty := by
    intro key tops stored
    cases stored
  have started : (addTo .empty own.simpleName own).IsClean :=
    isClean_addTo none_yet own.simpleName clean
  unfold group
  revert started
  generalize addTo .empty own.simpleName own = groups
  intro started
  have remaining : ∀ name ∈ referenced.filter fun name => !name.element.isPrimitive,
      name.IsClean := fun name mem => clean_referenced name (List.mem_filter.mp mem).1
  revert remaining
  generalize (referenced.filter fun name => !name.element.isPrimitive) = names
  intro remaining
  induction names generalizing groups with
  | nil => exact started
  | cons name names ih =>
      exact ih _ (isClean_addTo started _ (remaining name (by simp)).topLevel)
        fun other mem => remaining other (by simp [mem])

/-- Imported types are clean if the own type and the referenced ones are. -/
theorem isCleanText_of_mem_imported {file : String} {own : TypeName}
    (clean : IsCleanText own.text) {referenced : SortedSet TypeName}
    (clean_referenced : ∀ name ∈ referenced, name.IsClean) {imported : String}
    (mem : imported ∈ (resolve file own referenced).imported) : IsCleanText imported := by
  simp only [resolve, SortedSet.mem_ofList, List.mem_map, List.mem_filter, List.mem_flatMap]
    at mem
  obtain ⟨top, ⟨⟨tops, ⟨grouped, -⟩, listed⟩, -⟩, rfl⟩ := mem
  obtain ⟨⟨key, _⟩, entry, rfl⟩ := List.mem_map.mp grouped
  exact isClean_group clean clean_referenced key _ (SortedMap.mem_entries_iff.mp entry) top listed

end Imports

namespace SourceFile

/-- The preamble names clean packages and types only. -/
theorem reads_printPreamble {package : String} (clean : IsCleanText package) {imports : Imports}
    (clean_imports : ∀ imported ∈ imports.imported, IsCleanText imported) {page : Page}
    (reads : page.Reads []) : (printPreamble package imports page).Reads [] := by
  have keyword : Balanced "package ".toList := by decide
  have importing : Balanced "import ".toList := by decide
  have semicolon : Balanced ";".toList := by decide
  have packaged : (if package = "" then page
      else (page.line ("package " ++ package ++ ";")).blank).Reads [] := by
    split
    · exact reads
    · refine (reads.codeLine ?_).blank
      rw [String.toList_append, String.toList_append]
      exact (keyword.append clean.balanced).append semicolon
  have imported : ∀ names : List String, (∀ name ∈ names, IsCleanText name) → ∀ page : Page,
      page.Reads [] →
        (names.foldl (fun page name => page.line ("import " ++ name ++ ";")) page).Reads [] := by
    intro names
    induction names with
    | nil => exact fun _ _ reads => reads
    | cons name names ih =>
        intro clean page reads
        refine ih (fun other mem => clean other (by simp [mem])) _ (reads.codeLine ?_)
        rw [String.toList_append, String.toList_append]
        exact (importing.append (clean name (by simp)).balanced).append semicolon
  unfold printPreamble
  dsimp only
  split
  · exact packaged
  · exact (imported _ clean_imports _ packaged).blank

theorem reads_printMethods {typeText : TypeName → String} (writes : WritesBalanced typeText)
    {methods : List Method} (clean : ∀ method ∈ methods, method.IsClean) {page : Page}
    {pending : List Char} (reads : page.Reads pending) :
    (printMethods typeText page methods).Reads pending := by
  induction methods generalizing page with
  | nil => exact reads
  | cons first others ih =>
      have printed := (clean first (by simp)).reads_print writes reads
      cases others with
      | nil => exact printed
      | cons second others =>
          exact ih (fun other mem => clean other (by simp [mem])) printed.blank

theorem balanced_entryInterface : BootstrapClass.entryInterface.Balanced :=
  Fragment.moves_format [.type, .type] (by decide)
    ⟨Fragment.balanced_type (by decide), Fragment.balanced_type (by decide),
      trivial⟩

/-- The header of a clean class opens one brace. -/
theorem moves_typeHeader {typeText : TypeName → String} (writes : WritesBalanced typeText)
    {cls : BootstrapClass} (clean : cls.IsClean) :
    Moves (typeHeader typeText cls.toSpec).toList [] ['\x7d'] := by
  have keyword : Balanced "class ".toList := by decide
  have implementing : Balanced " implements ".toList := by decide
  have comma : Balanced ", ".toList := by decide
  have opening : Moves " \x7b".toList [] ['\x7d'] := by decide
  have interfaces : ∀ fragment ∈ cls.toSpec.superinterfaces, fragment.Balanced := by
    intro fragment mem
    unfold BootstrapClass.toSpec at mem
    dsimp only at mem
    split at mem
    · obtain rfl := List.mem_singleton.mp mem
      exact balanced_entryInterface
    · cases mem
  have supertypes : Balanced (if cls.toSpec.superinterfaces.isEmpty then ""
      else " implements " ++
        ", ".intercalate (cls.toSpec.superinterfaces.map (·.render typeText))).toList := by
    split
    · exact balanced_nil
    · rw [String.toList_append, String.toList_intercalate, List.map_map]
      refine implementing.append (balanced_intercalate comma fun text mem => ?_)
      obtain ⟨fragment, listed, rfl⟩ := List.mem_map.mp mem
      rw [Function.comp_apply, Fragment.toList_render]
      exact (interfaces fragment listed).chars typeText writes
  have named := ((Modifier.balanced_render cls.toSpec.modifiers).append keyword).append
    clean.typeName.simpleName.balanced
  simp only [typeHeader, String.toList_append]
  exact Moves.append (named.append supertypes) opening

theorem isClean_toSpec_types {cls : BootstrapClass} (clean : cls.IsClean) {name : TypeName}
    (mem : name ∈ cls.toSpec.types) : name.IsClean := by
  simp only [TypeSpec.types, SortedSet.mem_ofList, List.mem_append, List.mem_flatMap] at mem
  rcases mem with ⟨fragment, listed, referred⟩ | ⟨method, listed, referred⟩
  · unfold BootstrapClass.toSpec at listed
    dsimp only at listed
    split at listed
    · obtain rfl := List.mem_singleton.mp listed
      exact balanced_entryInterface.types name referred
    · cases listed
  · exact (clean.methods method listed).types referred

/-- In the file of a clean class every literal ends on its line and every bracket is closed. -/
theorem balanced_ofSpec {package : String} (clean_package : IsCleanText package)
    {cls : BootstrapClass} (clean : cls.IsClean) :
    Balanced (ofSpec package cls.toSpec).content.toList := by
  let imports := Imports.resolve package (.qualify package cls.toSpec.name) cls.toSpec.types
  have own : IsCleanText (TypeName.qualify package cls.toSpec.name).text :=
    TypeName.isCleanText_qualify clean_package clean.typeName.simpleName
  have imported : ∀ imported ∈ imports.imported, IsCleanText imported := fun imported mem =>
    Imports.isCleanText_of_mem_imported own (fun name mem => isClean_toSpec_types clean mem) mem
  have writes := imports.writesBalanced_typeText
  have brace : Moves "\x7d".toList ['\x7d'] [] := by decide
  have preamble := reads_printPreamble clean_package imported Page.reads_standard
  have header := (preamble.codeLine (moves_typeHeader writes clean)).indent
  have methods := (reads_printMethods writes clean.methods header).unindent
  exact (methods.codeLine brace).text

end SourceFile
end Wiring
