import Wiring.Proofs.Indentation
import Wiring.Proofs.PrintedTypes

/-!
# Lines of source files

A class whose methods have level bodies is written as a list of lines, in which every method stands
at depth one and the rows of its body at depth two.  A block between level blocks of such a body is
therefore shown by the same rows in every class, and only the texts of types depend on the file.
-/

/-- Every joined list stands in the joined one. -/
theorem List.infix_intercalate {α : Type} (separator : List α) {items : List (List α)}
    {item : List α} (mem : item ∈ items) : item <:+: separator.intercalate items := by
  obtain ⟨index, bound, rfl⟩ := List.mem_iff_getElem.mp mem
  rw [List.getElem_eq_getElem_intersperse_two_mul]
  exact List.infix_of_mem_flatten (List.getElem_mem _)

namespace Wiring

namespace Page

/-- Items written one per line. -/
theorem foldl_line_eq {α : Type} (content : α → String) (items : List α) (page : Page) :
    items.foldl (fun page item => page.line (content item)) page =
      { page with
        text := page.text ++
          textOf (items.map fun item => shift page.unit page.depth (content item)) } := by
  induction items generalizing page with
  | nil => simp
  | cons item items ih =>
      rw [List.foldl_cons, ih, line_eq]
      simp only [String.append_assoc, ← textOf_append, List.map_cons, List.cons_append,
        List.nil_append]

end Page

namespace Method

/-- Lines of a method at a depth. -/
def lines (typeText : TypeName → String) (unit : String) (depth : Nat) (method : Method) :
    List String :=
  (method.annotations.map fun name => Page.shift unit depth ("@" ++ typeText name)) ++
    Page.shift unit depth (method.header typeText) ::
      (method.body.rows (depth + 1)).map (Row.text typeText unit) ++
    [Page.shift unit depth "\x7d"]

/-- A method with a level body is written line by line. -/
theorem print_eq {method : Method} (level : method.body.IsLevel) (typeText : TypeName → String)
    (page : Page) :
    method.print typeText page =
      { page with
        text := page.text ++ Page.textOf (method.lines typeText page.unit page.depth) } := by
  have behind := (level (page.depth + 1)).endDepth_eq
  rw [Method.print, Page.foldl_line_eq]
  simp only [Page.line_eq, Page.indent, Page.unindent, Block.print_eq, behind,
    Nat.add_sub_cancel, lines, String.append_assoc, ← Page.textOf_append]
  simp

theorem infix_lines (typeText : TypeName → String) (unit : String) (depth : Nat)
    (method : Method) :
    (method.body.rows (depth + 1)).map (Row.text typeText unit) <:+:
      method.lines typeText unit depth := by
  refine ⟨(method.annotations.map fun name => Page.shift unit depth ("@" ++ typeText name)) ++
    [Page.shift unit depth (method.header typeText)], [Page.shift unit depth "\x7d"], ?_⟩
  simp [lines]

end Method

namespace SourceFile

/-- Lines of the package and the imports of a file. -/
def preamble (package : String) (imports : Imports) : List String :=
  (if package = "" then [] else ["package " ++ package ++ ";", ""]) ++
    if imports.imported.isEmpty then []
    else imports.imported.items.map (fun name => "import " ++ name ++ ";") ++ [""]

theorem printPreamble_eq (package : String) (imports : Imports) :
    printPreamble package imports .standard =
      { Page.standard with text := Page.textOf (preamble package imports) } := by
  have declared :
      (if package = "" then Page.standard
        else (Page.standard.line ("package " ++ package ++ ";")).blank) =
        { Page.standard with
          text := Page.textOf (if package = "" then [] else ["package " ++ package ++ ";", ""]) } := by
    split
    · rfl
    · simp only [Page.line_eq, Page.blank_eq, Page.standard, Page.blankPage, Page.shift_zero,
        String.append_assoc, ← Page.textOf_append]
      simp
  unfold printPreamble preamble
  rw [declared]
  dsimp only
  split
  · rw [List.append_nil]
  · rw [Page.foldl_line_eq, Page.blank_eq]
    simp only [Page.standard, Page.blankPage, Page.shift_zero, String.append_assoc,
      ← Page.textOf_append, List.append_assoc]

/-- Methods with level bodies are written with a blank line between neighbours. -/
theorem printMethods_eq (typeText : TypeName → String) {methods : List Method}
    (levels : ∀ method ∈ methods, method.body.IsLevel) (page : Page) :
    printMethods typeText page methods =
      { page with
        text := page.text ++ Page.textOf
          ([""].intercalate (methods.map (Method.lines typeText page.unit page.depth))) } := by
  induction methods generalizing page with
  | nil => simp [printMethods, List.intercalate]
  | cons first others ih =>
      have first_eq := first.print_eq (levels first (by simp)) typeText page
      cases others with
      | nil => simpa [printMethods, List.intercalate] using first_eq
      | cons second others =>
          have step : printMethods typeText page (first :: second :: others) =
            printMethods typeText (first.print typeText page).blank (second :: others) := rfl
          rw [step, ih fun other mem => levels other (by simp [mem]), first_eq, Page.blank_eq]
          simp only [List.map_cons, List.intercalate_cons_cons, String.append_assoc,
            ← Page.textOf_append, List.append_assoc]

/-- Lines of the file of a class. -/
def lines (package : String) (spec : TypeSpec) : List String :=
  let typeText := (importsOf package spec).typeText
  preamble package (importsOf package spec) ++
    typeHeader typeText spec ::
      [""].intercalate (spec.methods.map (Method.lines typeText Page.standard.unit 1)) ++ ["\x7d"]

/-- A class whose methods have level bodies is written line by line. -/
theorem content_eq_textOf_lines (package : String) {spec : TypeSpec}
    (levels : ∀ method ∈ spec.methods, method.body.IsLevel) :
    (ofSpec package spec).content = Page.textOf (lines package spec) := by
  rw [content_ofSpec, textWith, printPreamble_eq, printMethods_eq _ levels]
  simp only [Page.line_eq, Page.indent, Page.unindent, Page.standard, Page.blankPage,
    Page.shift_zero, ← Page.textOf_append, lines, Nat.zero_add, Nat.sub_self,
    List.append_assoc, List.cons_append, List.nil_append]

/-- Whether the file of a class shows rows as consecutive lines. -/
def Shows (package : String) (spec : TypeSpec) (rows : List Row) : Prop :=
  ∃ lines, (ofSpec package spec).content = Page.textOf lines ∧
    rows.map (Row.text (importsOf package spec).typeText Page.standard.unit) <:+: lines

/-- A file shows what stands behind a level block in a method body. -/
theorem shows_of_body_eq (package : String) {spec : TypeSpec}
    (levels : ∀ method ∈ spec.methods, method.body.IsLevel) {method : Method}
    (mem : method ∈ spec.methods) {front block back : Block} (level : front.IsLevel)
    (body_eq : method.body = front ++ block ++ back) :
    Shows package spec (block.rows 2) := by
  have within : block.rows 2 <:+: method.body.rows 2 := by
    rw [body_eq, Block.rows_append, Block.rows_append, (level 2).endDepth_eq]
    exact List.infix_append ..
  have joined := List.infix_intercalate [""] (List.mem_map_of_mem
    (f := Method.lines (importsOf package spec).typeText Page.standard.unit 1) mem)
  have shown : method.lines (importsOf package spec).typeText Page.standard.unit 1 <:+:
      lines package spec :=
    joined.trans ⟨preamble package (importsOf package spec) ++
      [typeHeader (importsOf package spec).typeText spec], ["\x7d"], by simp [lines]⟩
  exact ⟨lines package spec, content_eq_textOf_lines package levels,
    (within.map _).trans ((method.infix_lines _ _ 1).trans shown)⟩

end SourceFile
end Wiring
