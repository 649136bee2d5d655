import Wiring.Proofs.BinaryNames
import Wiring.Proofs.EntryMethod

/-!
# Names of generated classes

The class of a package is named by qualifying the class name of the settings, and its file by what
is innermost in that name.  File, path and declaration therefore agree with one another, and they
agree with the calls of helper methods exactly when the class name has no nesting mark.
-/

namespace Wiring

/-! ### Simple names -/

namespace Text

variable {mark : Char} {chars : List Char}

theorem not_mem_afterLast (mark : Char) (chars : List Char) : mark ∉ afterLast mark chars := by
  unfold afterLast
  split
  next before after cut => exact (cutLast?_eq_some_iff.mp cut).2
  next whole => exact cutLast?_eq_none_iff.mp whole

theorem not_mem_of_isIdentifier (identifier : isIdentifier chars = true)
    (excluded : continuesIdentifier mark = false) : mark ∉ chars := by
  intro mem
  cases chars with
  | nil => cases mem
  | cons first rest =>
      simp only [isIdentifier, Bool.and_eq_true] at identifier
      simp only [continuesIdentifier, Char.isAlphanum, Bool.or_eq_false_iff] at excluded
      rcases List.mem_cons.mp mem with rfl | mem
      · simp [startsIdentifier, excluded] at identifier
      · have continues := List.all_eq_true.mp identifier.2 mark mem
        simp [continuesIdentifier, Char.isAlphanum, excluded] at continues

end Text

namespace TypeName

variable {name : String}

/-- Part of a simple name behind its last nesting mark. -/
def innermost (name : String) : String := String.ofList (Text.afterLast '$' name.toList)

theorem not_mem_innermost (name : String) : '$' ∉ (innermost name).toList := by
  rw [innermost, String.toList_ofList]
  exact Text.not_mem_afterLast '$' name.toList

theorem innermost_eq_iff : innermost name = name ↔ '$' ∉ name.toList := by
  constructor
  · intro same
    rw [← same]
    exact not_mem_innermost name
  · intro absent
    rw [innermost, Text.afterLast_of_not_mem absent, String.ofList_toList]

theorem qualify_right_injective (package : String) :
    Function.Injective (qualify package) := by
  intro first second same
  have texts := congrArg (fun type => type.text.toList) same
  simp only [toList_qualify, List.append_cancel_left_eq] at texts
  exact String.toList_inj.mp texts

/-- A type that is named in a package by an identifier has the innermost part as its simple name. -/
theorem simpleName_qualify (package : String) (identifier : Text.isIdentifier name.toList = true) :
    (qualify package name).simpleName = innermost name := by
  have no_dot : '.' ∉ name.toList := Text.not_mem_of_isIdentifier identifier (by decide)
  have no_bracket : ']' ∉ name.toList := Text.not_mem_of_isIdentifier identifier (by decide)
  have nonempty : name.toList ≠ [] := by
    intro none_left
    simp [none_left, Text.isIdentifier] at identifier
  have plain : (qualify package name).text.toList.getLast? ≠ some ']' := by
    rw [toList_qualify]
    exact Text.getLast?_append_ne _ nonempty no_bracket
  have element : (qualify package name).elementChars = qualifier package ++ name.toList := by
    have whole := elementChars_brackets plain 0
    rwa [Imports.brackets, List.replicate_zero, String.join_nil, String.append_empty,
      toList_qualify] at whole
  rw [simpleName, binarySimpleChars, element, afterLast_qualifier_append package no_dot, innermost]

/-- Folder of a package below a source root. -/
def folder (package : String) : String :=
  if package = "" then "" else String.ofList (Text.substitute '.' '/' package.toList) ++ "/"

theorem pathWith_qualify (package : String) (no_dot : '.' ∉ name.toList) (ending : String) :
    (qualify package name).pathWith ending = folder package ++ name ++ ending := by
  have spelled : String.ofList (Text.substitute '.' '/' (qualify package name).text.toList) =
      folder package ++ name := by
    rw [toList_qualify, Text.substitute_append, Text.substitute_of_not_mem _ no_dot, qualifier,
      folder]
    by_cases default : package = ""
    · simp [default, Text.substitute]
    · simp [default, Text.substitute, String.append_assoc]
  rw [pathWith, spelled]

end TypeName

/-! ### First lines of a file -/

namespace Page

/-- Whether a page was written on from an earlier one. -/
def Extends (page earlier : Page) : Prop := ∃ rest, page.text = earlier.text ++ rest

variable {page earlier : Page}

theorem Extends.refl (page : Page) : page.Extends page := ⟨"", by simp⟩

theorem Extends.trans {later : Page} (extended : later.Extends page)
    (extends' : page.Extends earlier) : later.Extends earlier := by
  obtain ⟨last, later_text⟩ := extended
  obtain ⟨rest, page_text⟩ := extends'
  exact ⟨rest ++ last, by rw [later_text, page_text, String.append_assoc]⟩

theorem extends_line (page : Page) (content : String) : (page.line content).Extends page := by
  unfold line
  split
  · exact ⟨"\n", rfl⟩
  · exact ⟨page.margin ++ content ++ "\n", by simp only [String.append_assoc]⟩

/-- Steps that write on make a fold that writes on. -/
theorem extends_foldl {α : Type} {step : Page → α → Page}
    (each : ∀ page item, (step page item).Extends page) (items : List α) (page : Page) :
    (items.foldl step page).Extends page :=
  List.foldlRecOn items step (motive := (·.Extends page)) (.refl page)
    fun later extends_start item _ => (each later item).trans extends_start

theorem depth_line (page : Page) (content : String) : (page.line content).depth = page.depth := by
  unfold line
  split <;> rfl

end Page

theorem Line.extends_print (typeText : TypeName → String) (page : Page) (line : Line) :
    (line.print typeText page).Extends page := by
  cases line with
  | code fragment => exact page.extends_line _
  | statement fragment => exact page.extends_line _
  | comment text => exact page.extends_line _
  | blank => exact ⟨"\n", rfl⟩
  | indent => exact .refl page
  | unindent => exact .refl page

theorem Method.extends_print (typeText : TypeName → String) (page : Page) (method : Method) :
    (method.print typeText page).Extends page := by
  let annotated := method.annotations.foldl
    (fun page name => page.line ("@" ++ typeText name)) page
  let opened := (annotated.line (method.header typeText)).indent
  have header : opened.Extends page := (annotated.extends_line _).trans
    (Page.extends_foldl (fun page name => page.extends_line _) method.annotations page)
  have body : (method.body.print typeText opened).unindent.Extends opened :=
    Page.extends_foldl (Line.extends_print typeText) method.body opened
  exact ((Page.extends_line _ "\x7d").trans body).trans header

namespace SourceFile

theorem extends_printMethods (typeText : TypeName → String) (page : Page)
    (methods : List Method) : (printMethods typeText page methods).Extends page := by
  fun_induction printMethods typeText page methods with
  | case1 page => exact .refl page
  | case2 page last => exact last.extends_print typeText page
  | case3 page first others nonempty ih =>
      have separated : (first.print typeText page).blank.Extends (first.print typeText page) :=
        ⟨"\n", rfl⟩
      exact (ih.trans separated).trans (first.extends_print typeText page)

/-- Whether the first line behind the package and the imports of a file declares a class. -/
def Declares (file : SourceFile) (name : String) : Prop :=
  ∃ referenced modifiers interfaces rest,
    (interfaces = "" ∨ ∃ listed, interfaces = " implements " ++ listed) ∧
    file.content =
      (printPreamble file.package (.resolve file.package file.typeName referenced)
          .standard).text ++
        (Modifier.render modifiers ++ "class " ++ name ++ interfaces ++ " \x7b") ++ "\n" ++ rest

theorem depth_printPreamble (package : String) (imports : Imports) :
    (printPreamble package imports .standard).depth = 0 := by
  have listed (names : List String) (page : Page) :
      (names.foldl (fun page name => page.line ("import " ++ name ++ ";")) page).depth =
        page.depth :=
    List.foldlRecOn names _ (motive := fun later : Page => later.depth = page.depth) rfl
      fun later kept name _ => (later.depth_line _).trans kept
  have packaged : (if package = "" then Page.standard
      else (Page.standard.line ("package " ++ package ++ ";")).blank).depth = 0 := by
    split
    · rfl
    · exact Page.depth_line ..
  by_cases none_imported : imports.imported.isEmpty
  · simpa only [printPreamble, none_imported, if_true] using packaged
  · have imported := (listed imports.imported.items _).trans packaged
    simpa only [printPreamble, none_imported, Bool.false_eq_true, if_false, Page.blank]
      using imported

/-- The file of a type declares it. -/
theorem declares_ofSpec (package : String) (spec : TypeSpec) :
    (ofSpec package spec).Declares spec.name := by
  let imports := Imports.resolve package (.qualify package spec.name) spec.types
  let preamble := printPreamble package imports .standard
  let opened := (preamble.line (typeHeader imports.typeText spec)).indent
  have margin : preamble.margin = "" := by
    rw [Page.margin, depth_printPreamble]
    rfl
  have nonempty : typeHeader imports.typeText spec ≠ "" := by
    simp [typeHeader]
  have opened_text : opened.text = preamble.text ++ typeHeader imports.typeText spec ++ "\n" := by
    simp [opened, Page.indent, Page.line, nonempty, margin]
  have body := extends_printMethods imports.typeText opened spec.methods
  obtain ⟨rest, written⟩ := (Page.extends_line (printMethods imports.typeText opened
    spec.methods).unindent "\x7d").trans body
  refine ⟨spec.types, spec.modifiers, if spec.superinterfaces.isEmpty then "" else " implements " ++
    ", ".intercalate (spec.superinterfaces.map (·.render imports.typeText)), rest, ?_, ?_⟩
  · split
    · exact .inl rfl
    · exact .inr ⟨_, rfl⟩
  · rw [opened_text] at written
    exact written

/-- Whether a file bears a class name in its type, its path and its declaration. -/
structure Bears (file : SourceFile) (name : String) : Prop where
  /-- The type of the file has the name in the package of the file. -/
  typeName : file.typeName = .qualify file.package name
  /-- The path leads to the name through the folder of the package. -/
  path : file.path = TypeName.folder file.package ++ name ++ ".java"
  /-- The class that the file declares has the name. -/
  declares : file.Declares name

theorem bears_ofSpec (package : String) {spec : TypeSpec} (no_dot : '.' ∉ spec.name.toList) :
    (ofSpec package spec).Bears spec.name where
  typeName := rfl
  path := TypeName.pathWith_qualify package no_dot ".java"
  declares := declares_ofSpec package spec

/-- A file bears one class name only. -/
theorem Bears.unique {file : SourceFile} {first second : String} (bears : file.Bears first)
    (bears' : file.Bears second) : first = second :=
  TypeName.qualify_right_injective file.package (bears.typeName.symm.trans bears'.typeName)

end SourceFile

/-! ### Files of a run -/

/-- Whether the entry method of a result calls every helper method of a package under a type. -/
def Progress.CallsUnder (result : Progress) (package : String) (type : TypeName) : Prop :=
  ∀ cls, result.draft.helpers.get? package = some cls → cls.typeName = type ∧
    ∀ method ∈ cls.methods,
      Block.CallsOnce (result.draft.main.methods.flatMap Method.body) type method.name

namespace Generator

variable {generator : Generator} {container : Container} {package : String} {result : Progress}
  {outcomes : List Outcome} {placements : List Placement} {file : SourceFile}

/-- Every file of a result holds the class of its package. -/
theorem Produces.exists_class_of_mem
    (run : generator.Produces container package result outcomes placements)
    (mem : file ∈ result.sources) :
    ∃ cls : BootstrapClass, file = .ofSpec file.package cls.toSpec ∧
      cls.typeName = .qualify file.package generator.settings.className := by
  rcases List.mem_cons.mp mem with rfl | helper
  · refine ⟨result.draft.main, rfl, ?_⟩
    rw [run.main_eq, run.package_eq]
    rfl
  · obtain ⟨⟨other, cls⟩, listed, rfl⟩ := List.mem_map.mp helper
    obtain ⟨-, rfl⟩ := run.mem_helpers (SortedMap.mem_entries_iff.mp listed)
    exact ⟨_, rfl, rfl⟩

theorem Produces.bears_innermost
    (run : generator.Produces container package result outcomes placements)
    (mem : file ∈ result.sources) :
    file.Bears (TypeName.innermost generator.settings.className) := by
  have identifier := (Settings.names_of_faultFor? run.valid).1
  obtain ⟨cls, held, named⟩ := run.exists_class_of_mem mem
  have simple : cls.toSpec.name = TypeName.innermost generator.settings.className := by
    rw [← TypeName.simpleName_qualify file.package identifier, ← named]
    rfl
  have no_dot : '.' ∉ cls.toSpec.name.toList := by
    rw [simple, TypeName.innermost, String.toList_ofList]
    exact fun mem => Text.not_mem_of_isIdentifier identifier (by decide)
      (Text.mem_of_mem_afterLast mem)
  rw [held, ← simple]
  exact SourceFile.bears_ofSpec file.package no_dot

theorem Produces.callsUnder
    (run : generator.Produces container package result outcomes placements) (other : String) :
    result.CallsUnder other (.qualify other generator.settings.className) := by
  intro cls stored
  have named := (run.arranges.helper_class other cls stored).2.1
  refine ⟨named, fun method mem => ?_⟩
  rw [← named]
  exact run.arranges.called_once other cls stored method mem

/-- If the files bear the class name, nothing is nested in it. -/
theorem Produces.not_mem_of_bears
    (run : generator.Produces container package result outcomes placements)
    (agree : ∀ file ∈ result.sources, file.Bears generator.settings.className) :
    '$' ∉ generator.settings.className.toList := by
  have main : SourceFile.ofSpec result.draft.package result.draft.main.toSpec ∈ result.sources :=
    List.mem_cons_self
  exact TypeName.innermost_eq_iff.mp ((run.bears_innermost main).unique (agree _ main))

/-- Files of a run bear the innermost part of the class name, and helper methods are called under
the whole of it, so both agree exactly when nothing is nested in the class name. -/
theorem bears_className_iff_of_generate
    (run : generator.generate container package = .ok result) :
    (∀ file ∈ result.sources, file.Bears (TypeName.innermost generator.settings.className) ∧
        result.CallsUnder file.package (.qualify file.package generator.settings.className)) ∧
      ((∀ file ∈ result.sources, file.Bears generator.settings.className ∧
          result.CallsUnder file.package file.typeName) ↔
        '$' ∉ generator.settings.className.toList) := by
  obtain ⟨outcomes, placements, produces⟩ := exists_produces run
  refine ⟨fun file mem => ⟨produces.bears_innermost mem, produces.callsUnder file.package⟩,
    fun agree => produces.not_mem_of_bears fun file mem => (agree file mem).1,
    fun flat file mem => ?_⟩
  have bears := produces.bears_innermost mem
  rw [TypeName.innermost_eq_iff.mpr flat] at bears
  refine ⟨bears, ?_⟩
  rw [bears.typeName]
  exact produces.callsUnder file.package

end Generator

namespace Sample

/-- Generator whose class name has a nesting mark. -/
def nestedGenerator : Generator := .ofSettings { Settings.standard with className := "Good$Name" }

end Sample

theorem Generator.bears_className_sample :
    ∃ result, Sample.generator.generate Sample.container "com.app" = .ok result ∧
      ∀ file ∈ result.sources, file.Bears "ContextBootstrapInitializer" := by
  obtain ⟨result, run⟩ := Sample.generates
  exact ⟨result, run, fun file mem =>
    ((Generator.bears_className_iff_of_generate run).2.mpr (by decide) file mem).1⟩

/-- A class name in order need not be the one that the files bear. -/
theorem Generator.not_forall_bears_className :
    ¬ ∀ (generator : Generator) (container : Container) (package : String) (result : Progress),
      generator.generate container package = .ok result →
        ∀ file ∈ result.sources, file.Bears generator.settings.className ∧
          result.CallsUnder file.package file.typeName := by
  intro agree
  obtain ⟨result, run⟩ := Except.exists_eq_ok
    (by decide +kernel : (Sample.nestedGenerator.generate Sample.container "com.app").isOk = true)
  obtain ⟨outcomes, placements, produces⟩ := Generator.exists_produces run
  exact produces.not_mem_of_bears
    (fun file mem => (agree _ _ _ result run file mem).1) (by decide)

end Wiring
