import Mathlib.Data.List.Infix
import Wiring.Source.Block

/-!
# Indentation of blocks

A block writes rows: lines with the depths that the changes of indentation before them lead to.
What it writes depends on a page through the unit and the depth of the page alone.  Where a block
takes back no more indentation than it gave, its rows move with the depth it starts from.
-/

namespace Wiring

namespace Page

/-- Empty page at a depth. -/
def startAt (unit : String) (depth : Nat) : Page := ⟨unit, depth, ""⟩

/-- Text of lines, each with its end. -/
def textOf (lines : List String) : String := String.join (lines.map (· ++ "\n"))

@[simp]
theorem textOf_nil : textOf [] = "" := rfl

theorem textOf_append (first second : List String) :
    textOf (first ++ second) = textOf first ++ textOf second := by
  simp [textOf]

/-- Line behind a number of units of indentation; an empty line stays empty. -/
def shift (unit : String) (depth : Nat) (content : String) : String :=
  if content = "" then "" else String.join (List.replicate depth unit) ++ content

theorem shift_zero (unit content : String) : shift unit 0 content = content := by
  by_cases empty : content = ""
  · simp [shift, empty]
  · simp [shift, empty]

/-- Units of indentation add up. -/
theorem shift_shift (unit : String) (extra depth : Nat) (content : String) :
    shift unit extra (shift unit depth content) = shift unit (depth + extra) content := by
  by_cases empty : content = ""
  · simp [shift, empty]
  · have nonempty : String.join (List.replicate depth unit) ++ content ≠ "" := by simp [empty]
    simp only [shift, empty, nonempty, if_false]
    rw [Nat.add_comm depth, List.replicate_add, String.join_append, String.append_assoc]

theorem blank_eq (page : Page) : page.blank = { page with text := page.text ++ textOf [""] } := rfl

/-- A line is written behind the text of the page, at its depth. -/
theorem line_eq (page : Page) (content : String) :
    page.line content =
      { page with text := page.text ++ textOf [shift page.unit page.depth content] } := by
  by_cases empty : content = ""
  · rw [line, if_pos empty, shift, if_pos empty, blank_eq]
  · rw [line, if_neg empty, shift, if_neg empty]
    simp [textOf, margin, String.append_assoc]

end Page

namespace Line

/-- Text of a line without its indentation; changes of indentation have none. -/
def content (typeText : TypeName → String) : Line → String
  | code fragment => fragment.render typeText
  | statement fragment => fragment.render typeText ++ ";"
  | comment text => "// " ++ text
  | blank | indent | unindent => ""

/-- Whether a line is no change of indentation. -/
def writes : Line → Bool
  | indent | unindent => false
  | code _ | statement _ | comment _ | blank => true

end Line

/-- Line of a block with the depth at which it is written. -/
structure Row where
  /-- Depth of the line. -/
  depth : Nat
  /-- The line. -/
  line : Line
  deriving DecidableEq

namespace Row

/-- Text of a row with its indentation. -/
def text (typeText : TypeName → String) (unit : String) (row : Row) : String :=
  Page.shift unit row.depth (row.line.content typeText)

/-- Row at a greater depth. -/
def deeper (extra : Nat) (row : Row) : Row := { row with depth := row.depth + extra }

theorem text_deeper (typeText : TypeName → String) (unit : String) (extra : Nat) (row : Row) :
    (row.deeper extra).text typeText unit = Page.shift unit extra (row.text typeText unit) :=
  (Page.shift_shift unit extra row.depth _).symm

end Row

namespace Block

/-- Rows that a block writes from a depth on. -/
def rows : Nat → Block → List Row
  | _, [] => []
  | depth, .indent :: rest => rows (depth + 1) rest
  | depth, .unindent :: rest => rows (depth - 1) rest
  | depth, line :: rest => ⟨depth, line⟩ :: rows depth rest

/-- Depth at which a block leaves a page that it begins at a given depth. -/
def endDepth : Nat → Block → Nat
  | depth, [] => depth
  | depth, .indent :: rest => endDepth (depth + 1) rest
  | depth, .unindent :: rest => endDepth (depth - 1) rest
  | depth, _ :: rest => endDepth depth rest

theorem rows_append (depth : Nat) (first second : Block) :
    rows depth (first ++ second) = rows depth first ++ rows (endDepth depth first) second := by
  induction first generalizing depth with
  | nil => rfl
  | cons line rest ih =>
      cases line with
      | indent => exact ih (depth + 1)
      | unindent => exact ih (depth - 1)
      | code | statement | comment | blank => exact congrArg (List.cons _) (ih depth)

theorem endDepth_append (depth : Nat) (first second : Block) :
    endDepth depth (first ++ second) = endDepth (endDepth depth first) second := by
  induction first generalizing depth with
  | nil => rfl
  | cons line rest ih =>
      cases line with
      | indent => exact ih (depth + 1)
      | unindent => exact ih (depth - 1)
      | code | statement | comment | blank => exact ih depth

/-- A block adds its rows to a page and changes nothing else but the depth. -/
theorem print_eq (typeText : TypeName → String) (block : Block) (page : Page) :
    block.print typeText page =
      { page with
        depth := block.endDepth page.depth
        text := page.text ++
          Page.textOf ((block.rows page.depth).map (Row.text typeText page.unit)) } := by
  induction block generalizing page with
  | nil => simp [print, endDepth, rows]
  | cons line rest ih =>
      have step : print typeText page (line :: rest) = print typeText (line.print typeText page) rest :=
        rfl
      cases line with
      | indent => exact ih page.indent
      | unindent => exact ih page.unindent
      | code | statement | comment | blank =>
          rw [step, ih, Line.print]
          simp only [Page.line_eq, Page.blank_eq, endDepth, rows, List.map_cons,
            String.append_assoc, ← Page.textOf_append, List.cons_append, List.nil_append]
          rfl

/-- The rows hold the lines of a block in order. -/
theorem map_line_rows (depth : Nat) (block : Block) :
    (block.rows depth).map Row.line = block.filter Line.writes := by
  induction block generalizing depth with
  | nil => rfl
  | cons line rest ih =>
      cases line with
      | indent => exact ih (depth + 1)
      | unindent => exact ih (depth - 1)
      | code | statement | comment | blank => exact congrArg (List.cons _) (ih depth)

/-- What follows a block is printed from the depth that the block leaves behind. -/
theorem print_append_startAt (typeText : TypeName → String) (unit : String) (depth : Nat)
    (first second : Block) :
    (first ++ second).print typeText (.startAt unit depth) =
      let left := first.print typeText (.startAt unit depth)
      let right := second.print typeText (.startAt unit left.depth)
      { right with text := left.text ++ right.text } := by
  rw [print_append]
  simp only [print_eq, Page.startAt, String.empty_append]

/-! ### Blocks that take back what they gave -/

/-- Indentation that a block gives, less what it takes back. -/
def netIndentation (block : Block) : Int := block.count .indent - block.count .unindent

theorem count_cons_of_writes {line : Line} (writes : line.writes = true) (rest : Block) :
    (line :: rest).count .indent = rest.count .indent ∧
      (line :: rest).count .unindent = rest.count .unindent := by
  have no_indent : line ≠ .indent := by
    rintro rfl
    cases writes
  have no_unindent : line ≠ .unindent := by
    rintro rfl
    cases writes
  exact ⟨List.count_cons_of_ne no_indent, List.count_cons_of_ne no_unindent⟩

/-- Whether no beginning of a block takes back more indentation than it gave. -/
def IsNested (block : Block) : Prop :=
  ∀ front, front <+: block → front.count .unindent ≤ front.count .indent

/-- How a block leads from one depth to another without going up from depth zero. -/
inductive Climbs : Nat → Block → Nat → Prop where
  | nil (depth : Nat) : Climbs depth [] depth
  | indent {depth after : Nat} {rest : Block} (climbs : Climbs (depth + 1) rest after) :
      Climbs depth (.indent :: rest) after
  | unindent {depth after : Nat} {rest : Block} (climbs : Climbs depth rest after) :
      Climbs (depth + 1) (.unindent :: rest) after
  | line {depth after : Nat} {line : Line} {rest : Block} (writes : line.writes = true)
      (climbs : Climbs depth rest after) : Climbs depth (line :: rest) after

namespace Climbs

variable {depth middle after : Nat} {block : Block}

theorem append {first second : Block} (climbs : first.Climbs depth middle)
    (climbs' : second.Climbs middle after) : Climbs depth (first ++ second) after := by
  induction climbs with
  | nil depth => exact climbs'
  | indent _ ih => exact .indent (ih climbs')
  | unindent _ ih => exact .unindent (ih climbs')
  | line writes _ ih => exact .line writes (ih climbs')

/-- A block climbs in the same way from a greater depth. -/
theorem add (climbs : block.Climbs depth after) (extra : Nat) :
    block.Climbs (depth + extra) (after + extra) := by
  induction climbs with
  | nil depth => exact .nil _
  | @indent depth _ _ _ ih =>
      rw [Nat.add_right_comm] at ih
      exact .indent ih
  | @unindent depth _ _ _ ih =>
      rw [Nat.add_right_comm]
      exact .unindent ih
  | line writes _ ih => exact .line writes ih

theorem endDepth_eq (climbs : block.Climbs depth after) : block.endDepth depth = after := by
  induction climbs with
  | nil depth => rfl
  | indent _ ih => exact ih
  | unindent _ ih => exact ih
  | @line _ _ line _ writes _ ih =>
      cases line with
      | indent | unindent => cases writes
      | code | statement | comment | blank => exact ih

/-- From a greater depth, the rows are deeper by as much. -/
theorem rows_add (climbs : block.Climbs depth after) (extra : Nat) :
    block.rows (depth + extra) = (block.rows depth).map (Row.deeper extra) := by
  induction climbs with
  | nil depth => rfl
  | @indent depth _ _ _ ih =>
      rw [Nat.add_right_comm] at ih
      exact ih
  | @unindent depth _ _ _ ih =>
      rw [Nat.add_right_comm]
      exact ih
  | @line _ _ line _ writes _ ih =>
      cases line with
      | indent | unindent => cases writes
      | code | statement | comment | blank => exact congrArg (List.cons _) ih

/-- The depth changes by the difference between the changes of indentation. -/
theorem count_eq (climbs : block.Climbs depth after) :
    after + block.count .unindent = depth + block.count .indent := by
  induction climbs with
  | nil depth => rfl
  | indent _ ih =>
      rw [List.count_cons_self, List.count_cons_of_ne (by simp)]
      omega
  | unindent _ ih =>
      rw [List.count_cons_self, List.count_cons_of_ne (by simp)]
      omega
  | line writes _ ih =>
      obtain ⟨indents, unindents⟩ := count_cons_of_writes writes _
      rw [indents, unindents]
      exact ih

theorem exists_of_append {first second : Block} (climbs : Climbs depth (first ++ second) after) :
    ∃ middle, first.Climbs depth middle ∧ second.Climbs middle after := by
  induction first generalizing depth with
  | nil => exact ⟨depth, .nil depth, climbs⟩
  | cons line first ih =>
      cases climbs with
      | indent climbs =>
          obtain ⟨middle, front, back⟩ := ih climbs
          exact ⟨middle, .indent front, back⟩
      | unindent climbs =>
          obtain ⟨middle, front, back⟩ := ih climbs
          exact ⟨middle, .unindent front, back⟩
      | line writes climbs =>
          obtain ⟨middle, front, back⟩ := ih climbs
          exact ⟨middle, .line writes front, back⟩

end Climbs

/-- A block climbs from a depth on when none of its beginnings takes back more indentation than the
depth and the block gave. -/
theorem exists_climbs_iff {depth : Nat} {block : Block} :
    (∃ after, block.Climbs depth after) ↔
      ∀ front, front <+: block → front.count .unindent ≤ depth + front.count .indent := by
  constructor
  · rintro ⟨after, climbs⟩ front ⟨back, rfl⟩
    obtain ⟨middle, climbs, -⟩ := climbs.exists_of_append
    have count := climbs.count_eq
    omega
  · intro within
    induction block generalizing depth with
    | nil => exact ⟨depth, .nil depth⟩
    | cons line rest ih =>
        have behind (front : Block) (begins : front <+: rest) :=
          within (line :: front) (List.cons_prefix_cons.mpr ⟨rfl, begins⟩)
        have of_writes (writes : line.writes = true) : ∃ after, Climbs depth (line :: rest) after := by
          obtain ⟨after, climbs⟩ := ih fun front begins => by
            obtain ⟨indents, unindents⟩ := count_cons_of_writes writes front
            rw [← indents, ← unindents]
            exact behind front begins
          exact ⟨after, .line writes climbs⟩
        cases line with
        | indent =>
            obtain ⟨after, climbs⟩ := @ih (depth + 1) fun front begins => by
              have count := behind front begins
              rw [List.count_cons_self, List.count_cons_of_ne (by simp)] at count
              omega
            exact ⟨after, .indent climbs⟩
        | unindent =>
            -- The beginning that ends here gives nothing back unless the depth is positive.
            have positive : 1 ≤ depth := behind [] (List.nil_prefix)
            obtain ⟨depth, rfl⟩ := Nat.exists_eq_add_of_le' positive
            obtain ⟨after, climbs⟩ := @ih depth fun front begins => by
              have count := behind front begins
              rw [List.count_cons_self, List.count_cons_of_ne (by simp)] at count
              omega
            exact ⟨after, .unindent climbs⟩
        | code | statement | comment | blank => exact of_writes rfl

theorem isNested_iff {block : Block} : block.IsNested ↔ ∃ after, block.Climbs 0 after := by
  simp only [IsNested, exists_climbs_iff, Nat.zero_add]

/-- How what a block prints from a depth on is related to its rows from depth zero on. -/
structure ShiftsTo (block : Block) (typeText : TypeName → String) (unit : String) (depth : Nat) :
    Prop where
  /-- The rows hold the lines of the block in order, without its changes of indentation. -/
  lines_eq : (block.rows 0).map Row.line = block.filter Line.writes
  /-- From depth zero on, the block prints its rows. -/
  text_zero : (block.print typeText (.startAt unit 0)).text =
    Page.textOf ((block.rows 0).map (Row.text typeText unit))
  /-- From the depth on, each row stands behind as many more units, unless it is empty. -/
  text_eq : (block.print typeText (.startAt unit depth)).text =
    Page.textOf ((block.rows 0).map fun row => Page.shift unit depth (row.text typeText unit))
  /-- The block ends at the depth with its net indentation. -/
  depth_eq : ((block.print typeText (.startAt unit depth)).depth : Int) =
    depth + block.netIndentation

/-- What a nested block prints moves with the depth. -/
theorem IsNested.shiftsTo {block : Block} (nested : block.IsNested)
    (typeText : TypeName → String) (unit : String) (depth : Nat) :
    block.ShiftsTo typeText unit depth := by
  obtain ⟨after, climbs⟩ := isNested_iff.mp nested
  have climbs_depth := climbs.add depth
  have rows := climbs.rows_add depth
  rw [Nat.zero_add] at climbs_depth rows
  constructor
  · exact map_line_rows 0 block
  · rw [print_eq]
    exact String.empty_append
  · rw [print_eq]
    simp only [Page.startAt, rows, List.map_map, String.empty_append]
    congr 2
    funext row
    exact row.text_deeper typeText unit depth
  · have behind := climbs_depth.endDepth_eq
    have count := climbs_depth.count_eq
    rw [print_eq]
    simp only [Page.startAt, behind, netIndentation]
    omega

/-- Depths that stay at zero only raise the depth at the end. -/
theorem le_endDepth (depth : Nat) (block : Block) :
    depth + block.count .indent ≤ block.endDepth depth + block.count .unindent := by
  induction block generalizing depth with
  | nil => exact le_rfl
  | cons line rest ih =>
      have of_writes (writes : line.writes = true) (same : endDepth depth (line :: rest) =
          endDepth depth rest) : depth + (line :: rest).count .indent ≤
            endDepth depth (line :: rest) + (line :: rest).count .unindent := by
        obtain ⟨indents, unindents⟩ := count_cons_of_writes writes rest
        rw [same, indents, unindents]
        exact ih depth
      cases line with
      | indent =>
          have behind := ih (depth + 1)
          rw [List.count_cons_self, List.count_cons_of_ne (by simp), endDepth]
          omega
      | unindent =>
          have behind := ih (depth - 1)
          rw [List.count_cons_self, List.count_cons_of_ne (by simp), endDepth]
          omega
      | code | statement | comment | blank => exact of_writes rfl rfl

/-- A block that ends at the depth with its net indentation has not stayed at zero on its way. -/
theorem exists_climbs_of_endDepth_eq {depth : Nat} {block : Block}
    (ends : block.endDepth depth + block.count .unindent = depth + block.count .indent) :
    ∃ after, block.Climbs depth after := by
  rw [exists_climbs_iff]
  rintro front ⟨back, rfl⟩
  have front_end := le_endDepth depth front
  have back_end := le_endDepth (endDepth depth front) back
  rw [endDepth_append, List.count_append, List.count_append] at ends
  omega

/-- What a block prints moves with the depth for nested blocks and for no others. -/
theorem isNested_iff_forall_shiftsTo {block : Block} (typeText : TypeName → String)
    (unit : String) : block.IsNested ↔ ∀ depth, block.ShiftsTo typeText unit depth := by
  refine ⟨fun nested depth => nested.shiftsTo typeText unit depth, fun shifts => ?_⟩
  have ends := (shifts 0).depth_eq
  rw [print_eq] at ends
  simp only [Page.startAt, netIndentation] at ends
  exact isNested_iff.mpr (exists_climbs_of_endDepth_eq (by omega))

/-- Whether a block leads from every depth back to it without going up from depth zero. -/
def IsLevel (block : Block) : Prop := ∀ depth, block.Climbs depth depth

theorem isLevel_iff {block : Block} :
    block.IsLevel ↔ block.IsNested ∧ block.netIndentation = 0 := by
  unfold netIndentation
  constructor
  · intro level
    have count := (level 0).count_eq
    exact ⟨isNested_iff.mpr ⟨0, level 0⟩, by omega⟩
  · rintro ⟨nested, balanced⟩ depth
    obtain ⟨after, climbs⟩ := isNested_iff.mp nested
    obtain rfl : after = 0 := by
      have count := climbs.count_eq
      omega
    have climbs_depth := climbs.add depth
    rwa [Nat.zero_add] at climbs_depth

theorem isLevel_nil : IsLevel [] := .nil

theorem IsLevel.append {first second : Block} (level : first.IsLevel) (level' : second.IsLevel) :
    IsLevel (first ++ second) :=
  fun depth => (level depth).append (level' depth)

theorem isLevel_of_writes {block : Block} (each : ∀ line ∈ block, line.writes = true) :
    block.IsLevel := by
  intro depth
  induction block with
  | nil => exact .nil depth
  | cons line rest ih =>
      exact .line (each line (by simp)) (ih fun other mem => each other (by simp [mem]))

theorem isLevel_flatMap {α : Type} {items : List α} {block : α → Block}
    (each : ∀ item ∈ items, (block item).IsLevel) : IsLevel (items.flatMap block) := by
  induction items with
  | nil => exact isLevel_nil
  | cons item items ih =>
      rw [List.flatMap_cons]
      exact (each item (by simp)).append (ih fun other mem => each other (by simp [mem]))

theorem IsLevel.depth_print {block : Block} (level : block.IsLevel)
    (typeText : TypeName → String) (page : Page) :
    (block.print typeText page).depth = page.depth := by
  rw [print_eq]
  exact (level page.depth).endDepth_eq

end Block
end Wiring
