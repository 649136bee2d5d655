import Mathlib.Data.List.Basic
import Wiring.Proofs.Rendering
import Wiring.Source.File

/-!
# Types that are printed

The types that a fragment, a block, a method or a class references are all that its text depends on:
however the other types are written, the text is the same.  A source file therefore prints no type
that its imports were not resolved for, and it prints all of those.
-/

namespace Wiring

/-! ### Texts that agree -/

section Agreement

variable {typeText typeText' : TypeName → String}

theorem Fragment.mem_types_iff {fragment : Fragment} {name : TypeName} :
    name ∈ fragment.types ↔ .type name ∈ fragment.parts := by
  rw [types, List.mem_filterMap]
  constructor
  · rintro ⟨part, mem, referred⟩
    cases part with
    | text content => cases referred
    | type other =>
        obtain rfl := Option.some.inj referred
        exact mem
  · exact fun mem => ⟨.type name, mem, rfl⟩

/-- The text of a fragment depends on the types that it references. -/
theorem Fragment.render_congr {fragment : Fragment}
    (agree : ∀ name ∈ fragment.types, typeText name = typeText' name) :
    fragment.render typeText = fragment.render typeText' := by
  have parts : ∀ part ∈ fragment.parts, part.render typeText = part.render typeText' := by
    intro part mem
    cases part with
    | text content => rfl
    | type name => exact agree name (mem_types_iff.mpr mem)
  rw [render, render, List.map_congr_left parts]

theorem Line.print_congr {line : Line}
    (agree : ∀ name ∈ line.types, typeText name = typeText' name) (page : Page) :
    line.print typeText page = line.print typeText' page := by
  cases line with
  | code fragment => rw [print, print, fragment.render_congr agree]
  | statement fragment => rw [print, print, fragment.render_congr agree]
  | comment text => rfl
  | blank => rfl
  | indent => rfl
  | unindent => rfl

theorem Block.mem_types_iff {block : Block} {name : TypeName} :
    name ∈ block.types ↔ ∃ line ∈ block, name ∈ line.types := by
  rw [types, SortedSet.mem_ofList, List.mem_flatMap]

/-- The text of a block depends on the types that it references. -/
theorem Block.print_congr {block : Block}
    (agree : ∀ name ∈ block.types, typeText name = typeText' name) (page : Page) :
    block.print typeText page = block.print typeText' page :=
  List.foldl_ext _ _ page fun page line mem =>
    line.print_congr
      (fun name referred => agree name (mem_types_iff.mpr ⟨line, mem, referred⟩)) page

theorem Method.mem_types_iff {method : Method} {name : TypeName} :
    name ∈ method.types ↔ name ∈ method.annotations ∨ name ∈ method.returnType ∨
      (∃ parameter ∈ method.parameters, parameter.type = name) ∨ name ∈ method.body.types := by
  simp only [types, SortedSet.mem_insertAll, List.mem_append, List.mem_map, Option.mem_toList,
    Option.mem_def, or_assoc]

theorem Method.header_congr {method : Method}
    (agree : ∀ name ∈ method.types, typeText name = typeText' name) :
    method.header typeText = method.header typeText' := by
  have result : method.returnType.map typeText = method.returnType.map typeText' := by
    cases returned : method.returnType with
    | none => rfl
    | some name => rw [Option.map_some, Option.map_some,
        agree name (mem_types_iff.mpr (.inr (.inl returned)))]
  have parameters : ∀ parameter ∈ method.parameters,
      typeText parameter.type ++ " " ++ parameter.name =
        typeText' parameter.type ++ " " ++ parameter.name := by
    intro parameter mem
    rw [agree _ (mem_types_iff.mpr (.inr (.inr (.inl ⟨parameter, mem, rfl⟩))))]
  rw [header, header, result, List.map_congr_left parameters]

/-- The text of a method depends on the types that it references. -/
theorem Method.print_congr {method : Method}
    (agree : ∀ name ∈ method.types, typeText name = typeText' name) (page : Page) :
    method.print typeText page = method.print typeText' page := by
  have annotated : ∀ page : Page, ∀ name ∈ method.annotations,
      page.line ("@" ++ typeText name) = page.line ("@" ++ typeText' name) := by
    intro page name mem
    rw [agree name (mem_types_iff.mpr (.inl mem))]
  have body : ∀ name ∈ method.body.types, typeText name = typeText' name :=
    fun name mem => agree name (mem_types_iff.mpr (.inr (.inr (.inr mem))))
  rw [print, print, List.foldl_ext _ _ page annotated, header_congr agree, Block.print_congr body]

theorem TypeSpec.mem_types_iff {spec : TypeSpec} {name : TypeName} :
    name ∈ spec.types ↔ (∃ interface ∈ spec.superinterfaces, name ∈ interface.types) ∨
      ∃ method ∈ spec.methods, name ∈ method.types := by
  rw [types, SortedSet.mem_ofList, List.mem_append, List.mem_flatMap, List.mem_flatMap]
  rfl

/-- The texts of interfaces depend on the types that the interfaces reference. -/
theorem Fragment.map_render_congr {fragments : List Fragment}
    (agree : ∀ name ∈ fragments.flatMap types, typeText name = typeText' name) :
    fragments.map (·.render typeText) = fragments.map (·.render typeText') :=
  List.map_congr_left fun fragment mem =>
    fragment.render_congr fun name referred =>
      agree name (List.mem_flatMap.mpr ⟨fragment, mem, referred⟩)

namespace SourceFile

theorem printMethods_congr {methods : List Method}
    (agree : ∀ method ∈ methods, ∀ name ∈ method.types, typeText name = typeText' name)
    (page : Page) :
    printMethods typeText page methods = printMethods typeText' page methods := by
  induction methods generalizing page with
  | nil => rfl
  | cons first others ih =>
      have first_same := first.print_congr (agree first (by simp)) page
      cases others with
      | nil => exact first_same
      | cons second others =>
          show printMethods typeText (first.print typeText page).blank (second :: others) =
            printMethods typeText' (first.print typeText' page).blank (second :: others)
          rw [first_same]
          exact ih (fun method mem => agree method (by simp [mem])) _

/-- Text of a file with the given imports, under a choice of type texts. -/
def textWith (typeText : TypeName → String) (package : String) (imports : Imports)
    (spec : TypeSpec) : String :=
  let opened := (printPreamble package imports .standard).line (typeHeader typeText spec)
  ((printMethods typeText opened.indent spec.methods).unindent.line "\x7d").text

theorem textWith_congr {spec : TypeSpec}
    (agree : ∀ name ∈ spec.types, typeText name = typeText' name) (package : String)
    (imports : Imports) :
    textWith typeText package imports spec = textWith typeText' package imports spec := by
  have interfaces := Fragment.map_render_congr fun name mem =>
    agree name (TypeSpec.mem_types_iff.mpr (.inl (List.mem_flatMap.mp mem)))
  have methods : ∀ method ∈ spec.methods, ∀ name ∈ method.types,
      typeText name = typeText' name :=
    fun method mem name referred =>
      agree name (TypeSpec.mem_types_iff.mpr (.inr ⟨method, mem, referred⟩))
  rw [textWith, textWith, typeHeader, typeHeader, interfaces, printMethods_congr methods]

end SourceFile
end Agreement

/-! ### Types that are mentioned -/

/-- Types that a method mentions in order, with repetitions. -/
def Method.mentions (method : Method) : List TypeName :=
  method.annotations ++ method.returnType.toList ++ method.parameters.map Parameter.type ++
    method.body.flatMap Line.types

/-- Types that a class mentions in order, with repetitions. -/
def TypeSpec.mentions (spec : TypeSpec) : List TypeName :=
  spec.superinterfaces.flatMap Fragment.types ++ spec.methods.flatMap Method.mentions

theorem Method.mem_mentions_iff {method : Method} {name : TypeName} :
    name ∈ method.mentions ↔ name ∈ method.types := by
  simp only [mentions, types, Block.types, SortedSet.mem_insertAll, SortedSet.mem_ofList,
    List.mem_append]

theorem TypeSpec.mem_mentions_iff {spec : TypeSpec} {name : TypeName} :
    name ∈ spec.mentions ↔ name ∈ spec.types := by
  simp only [mentions, mem_types_iff, List.mem_append, List.mem_flatMap, Method.mem_mentions_iff]

/-! ### Texts of different lengths -/

/-- Text that is the same for all types. -/
def evenText : TypeName → String := fun _ => "T"

/-- Text that is one character longer for one type. -/
def longerText (name : TypeName) : TypeName → String := Function.update evenText name "TT"

theorem length_longerText (name other : TypeName) :
    (longerText name other).length = (evenText other).length + [other].count name := by
  by_cases same : other = name
  · subst same
    rw [longerText, Function.update_self, List.count_singleton_self]
    show "TT".length = "T".length + 1
    decide
  · simp [longerText, same]

/-- Separated items grow together as much as they grow one by one. -/
theorem length_intercalate_eq_add {α : Type} {name : TypeName} {text text' : α → String}
    {types : α → List TypeName}
    (each : ∀ item, (text' item).length = (text item).length + (types item).count name)
    (separator : String) (items : List α) :
    (separator.intercalate (items.map text')).length =
      (separator.intercalate (items.map text)).length + (items.flatMap types).count name := by
  induction items with
  | nil => rfl
  | cons first others ih =>
      rw [List.flatMap_cons, List.count_append]
      cases others with
      | nil => simp [each]
      | cons second others =>
          simp only [List.map_cons, String.intercalate_cons_cons, String.length_append] at ih ⊢
          rw [ih, each]
          omega

/-- Whether a page is like another one but for a number of additional characters. -/
structure Page.Exceeds (longer page : Page) (extra : Nat) : Prop where
  /-- The unit of indentation is the same. -/
  unit : longer.unit = page.unit
  /-- The depth is the same. -/
  depth : longer.depth = page.depth
  /-- The text is longer by the given number. -/
  length : longer.text.length = page.text.length + extra

namespace Page

variable {longer page : Page} {extra : Nat}

theorem Exceeds.indent (exceeds : longer.Exceeds page extra) :
    longer.indent.Exceeds page.indent extra :=
  ⟨exceeds.unit, congrArg (· + 1) exceeds.depth, exceeds.length⟩

theorem Exceeds.unindent (exceeds : longer.Exceeds page extra) :
    longer.unindent.Exceeds page.unindent extra :=
  ⟨exceeds.unit, congrArg (· - 1) exceeds.depth, exceeds.length⟩

theorem Exceeds.blank (exceeds : longer.Exceeds page extra) :
    longer.blank.Exceeds page.blank extra :=
  ⟨exceeds.unit, exceeds.depth, by simp [Page.blank, exceeds.length, Nat.add_right_comm]⟩

/-- A longer line makes a longer page, as long as no line is empty without the other. -/
theorem Exceeds.line (exceeds : longer.Exceeds page extra) {content content' : String} {more : Nat}
    (length : content'.length = content.length + more) (empty : content = "" → more = 0) :
    (longer.line content').Exceeds (page.line content) (extra + more) := by
  have margin : longer.margin = page.margin := by
    rw [margin, margin, exceeds.unit, exceeds.depth]
  by_cases none : content = ""
  · have none' : content' = "" := by
      rw [none, empty none] at length
      exact String.length_eq_zero_iff.mp length
    rw [Page.line, Page.line, if_pos none, if_pos none', empty none]
    exact exceeds.blank
  · have some' : content' ≠ "" := by
      rintro rfl
      have positive : content.length ≠ 0 := fun zero => none (String.length_eq_zero_iff.mp zero)
      rw [String.length_empty] at length
      omega
    rw [Page.line, Page.line, if_neg none, if_neg some']
    refine ⟨exceeds.unit, exceeds.depth, ?_⟩
    simp only [String.length_append, margin, exceeds.length, length]
    omega

end Page

section Lengths

variable (name : TypeName) {longer page : Page} {extra : Nat}

theorem Fragment.length_render_longerText (fragment : Fragment) :
    (fragment.render (longerText name)).length =
      (fragment.render evenText).length + fragment.types.count name := by
  rw [render, render, types, String.length_join, String.length_join]
  induction fragment.parts with
  | nil => rfl
  | cons part parts ih =>
      simp only [List.map_cons, List.sum_cons] at ih ⊢
      cases part with
      | text content =>
          rw [ih, List.filterMap_cons_none rfl, Nat.add_assoc]
          rfl
      | type other =>
          have first : (Part.type other).type? = some other := rfl
          have one : ((Part.type other).render (longerText name)).length =
              ((Part.type other).render evenText).length + [other].count name :=
            length_longerText name other
          have counted : (other :: parts.filterMap Part.type?).count name =
              [other].count name + (parts.filterMap Part.type?).count name := by
            rw [← List.count_append, List.singleton_append]
          rw [ih, one, List.filterMap_cons_some first, counted]
          omega

/-- A fragment that is written as nothing mentions no type. -/
theorem Fragment.count_types_of_render_eq_empty {fragment : Fragment}
    (empty : fragment.render evenText = "") : fragment.types.count name = 0 := by
  rw [List.count_eq_zero]
  intro mem
  have written : 'T' ∈ (fragment.render evenText).toList := by
    rw [toList_render, chars, List.mem_flatMap]
    exact ⟨_, mem_types_iff.mp mem, by simp [Part.chars, Part.render, evenText]⟩
  rw [empty] at written
  cases written

theorem Line.exceeds_print (exceeds : longer.Exceeds page extra) (line : Line) :
    (line.print (longerText name) longer).Exceeds (line.print evenText page)
      (extra + line.types.count name) := by
  cases line with
  | code fragment =>
      exact exceeds.line (fragment.length_render_longerText name)
        (Fragment.count_types_of_render_eq_empty name)
  | statement fragment =>
      refine exceeds.line ?_ fun none => absurd none (by simp)
      rw [String.length_append, String.length_append, fragment.length_render_longerText name,
        Nat.add_right_comm]
      rfl
  | comment text => exact exceeds.line rfl fun _ => rfl
  | blank => exact exceeds.blank
  | indent => exact exceeds.indent
  | unindent => exact exceeds.unindent

theorem Block.exceeds_print (exceeds : longer.Exceeds page extra) (block : Block) :
    (block.print (longerText name) longer).Exceeds (block.print evenText page)
      (extra + (block.flatMap Line.types).count name) := by
  induction block generalizing longer page extra with
  | nil => exact exceeds
  | cons line block ih =>
      rw [List.flatMap_cons, List.count_append, ← Nat.add_assoc]
      exact ih (line.exceeds_print name exceeds)

theorem Method.length_header_longerText (method : Method) :
    (method.header (longerText name)).length = (method.header evenText).length +
      (method.returnType.toList ++ method.parameters.map Parameter.type).count name := by
  have result : ((method.returnType.map (longerText name)).getD "void").length =
      ((method.returnType.map evenText).getD "void").length +
        method.returnType.toList.count name := by
    cases method.returnType with
    | none => rfl
    | some type => exact length_longerText name type
  have parameter : ∀ parameter : Parameter,
      (longerText name parameter.type ++ " " ++ parameter.name).length =
        (evenText parameter.type ++ " " ++ parameter.name).length +
          [parameter.type].count name := by
    intro parameter
    simp only [String.length_append, length_longerText]
    omega
  have parameters := length_intercalate_eq_add parameter ", " method.parameters
  rw [← List.map_eq_flatMap] at parameters
  simp only [header, String.length_append, result, parameters, List.count_append]
  omega

theorem Method.exceeds_annotations (exceeds : longer.Exceeds page extra)
    (annotations : List TypeName) :
    (annotations.foldl (fun page other => page.line ("@" ++ longerText name other)) longer).Exceeds
      (annotations.foldl (fun page other => page.line ("@" ++ evenText other)) page)
      (extra + annotations.count name) := by
  induction annotations generalizing longer page extra with
  | nil => exact exceeds
  | cons first others ih =>
      have length : ("@" ++ longerText name first).length =
          ("@" ++ evenText first).length + [first].count name := by
        rw [String.length_append, String.length_append, length_longerText, Nat.add_assoc]
      have longer_others := ih (exceeds.line length fun none => absurd none (by simp))
      rwa [Nat.add_assoc, ← List.count_append] at longer_others

theorem Method.exceeds_print (exceeds : longer.Exceeds page extra) (method : Method) :
    (method.print (longerText name) longer).Exceeds (method.print evenText page)
      (extra + method.mentions.count name) := by
  have header := ((exceeds_annotations name exceeds method.annotations).line
    (method.length_header_longerText name) fun none => absurd none (by simp [Method.header])).indent
  have body := (Block.exceeds_print name header method.body).unindent
  rw [mentions, List.append_assoc method.annotations, List.count_append, List.count_append,
    ← Nat.add_assoc, ← Nat.add_assoc]
  exact body.line rfl fun _ => rfl

namespace SourceFile

theorem exceeds_printMethods (exceeds : longer.Exceeds page extra) (methods : List Method) :
    (printMethods (longerText name) longer methods).Exceeds (printMethods evenText page methods)
      (extra + (methods.flatMap Method.mentions).count name) := by
  induction methods generalizing longer page extra with
  | nil => exact exceeds
  | cons first others ih =>
      have first_exceeds := first.exceeds_print name exceeds
      rw [List.flatMap_cons, List.count_append, ← Nat.add_assoc]
      cases others with
      | nil => exact first_exceeds
      | cons second others => exact ih first_exceeds.blank

theorem length_textWith_longerText (package : String) (imports : Imports)
    (spec : TypeSpec) :
    (textWith (longerText name) package imports spec).length =
      (textWith evenText package imports spec).length + spec.mentions.count name := by
  have header : (typeHeader (longerText name) spec).length = (typeHeader evenText spec).length +
      (spec.superinterfaces.flatMap Fragment.types).count name := by
    have interfaces :
        (", ".intercalate (spec.superinterfaces.map (·.render (longerText name)))).length =
          (", ".intercalate (spec.superinterfaces.map (·.render evenText))).length +
            (spec.superinterfaces.flatMap Fragment.types).count name :=
      length_intercalate_eq_add (Fragment.length_render_longerText name) ", " spec.superinterfaces
    rw [typeHeader, typeHeader]
    split
    next none => simp [List.isEmpty_iff.mp none]
    next some =>
      simp only [String.length_append, interfaces]
      omega
  let preamble := printPreamble package imports .standard
  have unchanged : preamble.Exceeds preamble 0 := ⟨rfl, rfl, rfl⟩
  have opened := (unchanged.line header (fun none => absurd none (by simp [typeHeader]))).indent
  have methods := (exceeds_printMethods name opened spec.methods).unindent
  have braces : "\x7d".length = "\x7d".length + 0 := rfl
  have closed := (methods.line braces fun _ => rfl).length
  rwa [Nat.zero_add, Nat.add_zero, ← List.count_append] at closed

end SourceFile
end Lengths

/-! ### Printed types -/

/-- Whether a text depends on how a type is written. -/
def Prints (text : (TypeName → String) → String) (name : TypeName) : Prop :=
  ∃ typeText written, text (Function.update typeText name written) ≠ text typeText

namespace SourceFile

/-- Imports of the file of a class. -/
def importsOf (package : String) (spec : TypeSpec) : Imports :=
  .resolve package (.qualify package spec.name) spec.types

theorem content_ofSpec (package : String) (spec : TypeSpec) :
    (ofSpec package spec).content =
      textWith (importsOf package spec).typeText package (importsOf package spec) spec :=
  rfl

/-- A file prints the types that its class references, and no others. -/
theorem prints_textWith_iff {package : String} {imports : Imports} {spec : TypeSpec}
    {name : TypeName} :
    Prints (textWith · package imports spec) name ↔ name ∈ spec.types := by
  constructor
  · rintro ⟨typeText, written, differ⟩
    by_contra absent
    refine differ (textWith_congr (fun other mem => ?_) package imports)
    have apart : other ≠ name := by
      rintro rfl
      exact absent mem
    rw [Function.update_of_ne apart]
  · intro mem
    refine ⟨evenText, "TT", fun same => ?_⟩
    have lengths := length_textWith_longerText name package imports spec
    have same_length : (textWith (longerText name) package imports spec).length =
        (textWith evenText package imports spec).length := congrArg String.length same
    have counted : 0 < spec.mentions.count name :=
      List.count_pos_iff.mpr (TypeSpec.mem_mentions_iff.mpr mem)
    omega

/-- Blocks, methods and interfaces are the same text under any two choices of type texts that agree
on the types they reference, and a file prints through its imports exactly the types that the
imports were resolved for. -/
theorem prints_referenced_types (typeText typeText' : TypeName → String) :
    (∀ block : Block, (∀ name ∈ block.types, typeText name = typeText' name) →
        ∀ page, block.print typeText page = block.print typeText' page) ∧
      (∀ method : Method, (∀ name ∈ method.types, typeText name = typeText' name) →
        ∀ page, method.print typeText page = method.print typeText' page) ∧
      (∀ spec : TypeSpec,
        (∀ name ∈ spec.superinterfaces.flatMap Fragment.types, typeText name = typeText' name) →
          spec.superinterfaces.map (·.render typeText) =
            spec.superinterfaces.map (·.render typeText')) ∧
      ∀ package spec,
        (ofSpec package spec).content =
            textWith (importsOf package spec).typeText package (importsOf package spec) spec ∧
          ∀ name, Prints (textWith · package (importsOf package spec) spec) name ↔
            name ∈ spec.types :=
  ⟨fun block agree page => block.print_congr agree page,
    fun method agree page => method.print_congr agree page,
    fun _ agree => Fragment.map_render_congr agree,
    fun package spec => ⟨content_ofSpec package spec, fun _ => prints_textWith_iff⟩⟩

/-- Method that mentions one type in every place. -/
def parseMethod : Method where
  name := "parse"
  modifiers := [.publicMember, .staticMember]
  annotations := [⟨"a.B"⟩]
  returnType := some ⟨"a.B"⟩
  parameters := [⟨⟨"a.B"⟩, "value"⟩]
  body := .statement "return $T.of($L)" [.type ⟨"a.B"⟩, .code (.type ⟨"a.B"⟩)]

/-- Class with this method and an interface of the same type. -/
def parserClass : TypeSpec where
  name := "Parser"
  modifiers := []
  superinterfaces := [.type ⟨"a.B"⟩]
  methods := [parseMethod]

/-- Writing another type differently leaves the texts as they are, and the file prints the type that
its class references alone. -/
theorem prints_referenced_types_sample :
    ((∀ name ∈ parseMethod.body.types,
          name.canonicalName = Function.update TypeName.canonicalName ⟨"c.D"⟩ "?" name) ∧
        parseMethod.body.print TypeName.canonicalName .standard =
          parseMethod.body.print (Function.update TypeName.canonicalName ⟨"c.D"⟩ "?") .standard) ∧
      ((∀ name ∈ parseMethod.types,
          name.canonicalName = Function.update TypeName.canonicalName ⟨"c.D"⟩ "?" name) ∧
        parseMethod.print TypeName.canonicalName .standard =
          parseMethod.print (Function.update TypeName.canonicalName ⟨"c.D"⟩ "?") .standard) ∧
      ((∀ name ∈ parserClass.superinterfaces.flatMap Fragment.types,
          name.canonicalName = Function.update TypeName.canonicalName ⟨"c.D"⟩ "?" name) ∧
        parserClass.superinterfaces.map (·.render TypeName.canonicalName) =
          parserClass.superinterfaces.map
            (·.render (Function.update TypeName.canonicalName ⟨"c.D"⟩ "?"))) ∧
      Prints (textWith · "c" (importsOf "c" parserClass) parserClass) ⟨"a.B"⟩ ∧
      ¬ Prints (textWith · "c" (importsOf "c" parserClass) parserClass) ⟨"c.D"⟩ := by
  obtain ⟨blocks, methods, interfaces, files⟩ := prints_referenced_types TypeName.canonicalName
    (Function.update TypeName.canonicalName ⟨"c.D"⟩ "?")
  have agree : ∀ name : TypeName, name = ⟨"a.B"⟩ →
      name.canonicalName = Function.update TypeName.canonicalName ⟨"c.D"⟩ "?" name := by
    rintro name rfl
    decide
  have block_agree : ∀ name ∈ parseMethod.body.types, name.canonicalName =
      Function.update TypeName.canonicalName ⟨"c.D"⟩ "?" name := by
    intro name mem
    have items : parseMethod.body.types.items = [⟨"a.B"⟩] := by decide
    exact agree name (List.mem_singleton.mp (items ▸ SortedSet.mem_def.mp mem))
  have method_agree : ∀ name ∈ parseMethod.types, name.canonicalName =
      Function.update TypeName.canonicalName ⟨"c.D"⟩ "?" name := by
    intro name mem
    have items : parseMethod.types.items = [⟨"a.B"⟩] := by decide
    exact agree name (List.mem_singleton.mp (items ▸ SortedSet.mem_def.mp mem))
  have interface_agree : ∀ name ∈ parserClass.superinterfaces.flatMap Fragment.types,
      name.canonicalName = Function.update TypeName.canonicalName ⟨"c.D"⟩ "?" name := by
    intro name mem
    exact agree name (List.mem_singleton.mp mem)
  obtain ⟨-, printed⟩ := files "c" parserClass
  refine ⟨⟨block_agree, blocks _ block_agree _⟩, ⟨method_agree, methods _ method_agree _⟩,
    ⟨interface_agree, interfaces _ interface_agree⟩, (printed _).mpr (by decide), ?_⟩
  exact fun prints => absurd ((printed _).mp prints) (by decide)

end SourceFile
end Wiring
