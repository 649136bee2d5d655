import Wiring.Proofs.BalancedCode

/-!
# Brackets of blocks

A block moves the expected brackets of every page it is written on, whatever the indentation.  A
braced block is opened and closed in different lines, and the moves of the lines say so.
-/

namespace Wiring

namespace Page

/-- Whether the text of a page is read as code with the given brackets expected. -/
structure Reads (page : Page) (pending : List Char) : Prop where
  /-- Indentation is balanced. -/
  unit : Scanner.Balanced page.unit.toList
  /-- The text leads to code with the given brackets expected. -/
  text : Scanner.Moves page.text.toList [] pending

theorem reads_standard : standard.Reads [] := ⟨rfl, rfl⟩

variable {page : Page} {before after : List Char}

theorem Reads.blank (reads : page.Reads before) : page.blank.Reads before where
  unit := reads.unit
  text := by
    have newline : Scanner.Balanced "\n".toList := rfl
    rw [Page.blank, String.toList_append]
    exact reads.text.append (newline.moves before)

theorem Reads.indent (reads : page.Reads before) : page.indent.Reads before :=
  ⟨reads.unit, reads.text⟩

theorem Reads.unindent (reads : page.Reads before) : page.unindent.Reads before :=
  ⟨reads.unit, reads.text⟩

theorem Reads.balanced_margin (reads : page.Reads before) :
    Scanner.Balanced page.margin.toList := by
  rw [margin, String.toList_join]
  apply Scanner.balanced_flatMap
  intro text mem
  rw [(List.mem_replicate.mp mem).2]
  exact reads.unit

/-- A line with its end moves the brackets of the page. -/
theorem Reads.line (reads : page.Reads before) {content : String}
    (moves : Scanner.Moves (content.toList ++ ['\n']) before after) :
    (page.line content).Reads after := by
  unfold Page.line
  split
  next empty =>
    subst empty
    refine ⟨reads.unit, ?_⟩
    rw [Page.blank, String.toList_append]
    exact reads.text.append moves
  next =>
    refine ⟨reads.unit, ?_⟩
    simp only [String.toList_append, List.append_assoc]
    exact reads.text.append ((reads.balanced_margin.moves before).append moves)

/-- A line of code moves the brackets of the page. -/
theorem Reads.codeLine (reads : page.Reads before) {content : String}
    (moves : Scanner.Moves content.toList before after) : (page.line content).Reads after := by
  have newline : Scanner.Balanced ['\n'] := rfl
  exact reads.line (moves.append (newline.moves after))

end Page

namespace Block

/-- Whether a block refers to clean types only, and moves pages with some expected brackets to pages
with others. -/
structure Moves (block : Block) (before after : List Char) : Prop where
  /-- Referenced types are clean. -/
  types : ∀ line ∈ block, ∀ name ∈ line.types, name.IsClean
  /-- Writing the block moves the expected brackets, whatever is expected outside. -/
  reads : ∀ typeText, WritesBalanced typeText → ∀ page : Page, ∀ outer,
    page.Reads (before ++ outer) → (block.print typeText page).Reads (after ++ outer)

/-- Whether a block leaves the expected brackets as they are. -/
abbrev Balanced (block : Block) : Prop := block.Moves [] []

variable {before middle after : List Char}

theorem moves_nil (pending : List Char) : Moves [] pending pending :=
  ⟨nofun, fun _ _ _ _ reads => reads⟩

theorem Moves.append {first second : Block} (moves : first.Moves before middle)
    (moves' : second.Moves middle after) : Moves (first ++ second) before after where
  types line mem := (List.mem_append.mp mem).elim (moves.types line) (moves'.types line)
  reads typeText writes page outer reads := by
    rw [print_append]
    exact moves'.reads typeText writes _ outer (moves.reads typeText writes page outer reads)

theorem Moves.within {block : Block} (moves : block.Moves before after) (pending : List Char) :
    block.Moves (before ++ pending) (after ++ pending) where
  types := moves.types
  reads typeText writes page outer reads := by
    rw [List.append_assoc] at reads ⊢
    exact moves.reads typeText writes page (pending ++ outer) reads

theorem Balanced.moves {block : Block} (balanced : block.Balanced) (pending : List Char) :
    block.Moves pending pending :=
  balanced.within pending

theorem balanced_of_lines {block : Block} (each : ∀ line ∈ block, Balanced [line]) :
    block.Balanced := by
  induction block with
  | nil => exact moves_nil []
  | cons line block ih =>
      exact Moves.append (each line (by simp)) (ih fun other mem => each other (by simp [mem]))

theorem balanced_flatMap {α : Type} {items : List α} {block : α → Block}
    (each : ∀ item ∈ items, (block item).Balanced) : Balanced (items.flatMap block) := by
  induction items with
  | nil => exact moves_nil []
  | cons item items ih =>
      rw [List.flatMap_cons]
      exact (each item (by simp)).append (ih fun other mem => each other (by simp [mem]))

theorem balanced_ite {condition : Prop} [Decidable condition] {first second : Block}
    (balanced : first.Balanced) (balanced' : second.Balanced) :
    Balanced (if condition then first else second) := by
  split
  · exact balanced
  · exact balanced'

theorem moves_code {fragment : Fragment} (moves : fragment.Moves before after) :
    Moves [.code fragment] before after where
  types line mem name := by
    obtain rfl := List.mem_singleton.mp mem
    exact moves.types name
  reads typeText writes page outer reads := by
    apply reads.codeLine
    rw [Fragment.toList_render]
    exact (moves.chars typeText writes).within outer

theorem moves_statementLine {fragment : Fragment} (moves : fragment.Moves before after) :
    Moves [.statement fragment] before after where
  types line mem name := by
    obtain rfl := List.mem_singleton.mp mem
    exact moves.types name
  reads typeText writes page outer reads := by
    have semicolon : Scanner.Balanced ";".toList := rfl
    apply reads.codeLine
    rw [String.toList_append, Fragment.toList_render]
    exact ((moves.chars typeText writes).within outer).append (semicolon.moves _)

theorem balanced_comment {text : String}
    (one_line : text.toList.all (!Scanner.endsLine ·) = true) : Balanced [.comment text] where
  types line mem name := by
    obtain rfl := List.mem_singleton.mp mem
    exact nofun
  reads typeText writes page outer reads := by
    have same_line : ∀ char ∈ ' ' :: text.toList, Scanner.endsLine char = false := by
      intro char mem
      rcases List.mem_cons.mp mem with rfl | mem
      · rfl
      · simpa using List.all_eq_true.mp one_line char mem
    have moves : Scanner.Balanced (("// " ++ text).toList ++ ['\n']) := by
      rw [String.toList_append]
      exact Scanner.balanced_comment same_line
    exact reads.line (moves.moves _)

theorem balanced_blank : Balanced [.blank] :=
  ⟨by simp [Line.types], fun _ _ _ _ reads => reads.blank⟩

theorem balanced_indent : Balanced [.indent] :=
  ⟨by simp [Line.types], fun _ _ _ _ reads => reads.indent⟩

theorem balanced_unindent : Balanced [.unindent] :=
  ⟨by simp [Line.types], fun _ _ _ _ reads => reads.unindent⟩

section Formats

variable {format : String} (kinds : List Placeholder) {arguments : List Argument}

theorem balanced_statement (outlined : Fragment.HasOutline format kinds [] [])
    (fills : Fragment.FillsBalanced kinds arguments) : Balanced (statement format arguments) :=
  moves_statementLine (Fragment.moves_format kinds outlined fills)

/-- An opened block expects its closing brace. -/
theorem moves_openBrace (outlined : Fragment.HasOutline format kinds before after)
    (fills : Fragment.FillsBalanced kinds arguments) :
    Moves (openBrace format arguments) before ('\x7d' :: after) := by
  have brace : Scanner.Moves " \x7b".toList [] ['\x7d'] := rfl
  have opened := (Fragment.moves_format kinds outlined fills).append
    (Fragment.moves_text (brace.within after))
  exact (moves_code opened).append (balanced_indent.moves _)

/-- The next block expects its closing brace in place of the last one. -/
theorem moves_nextBrace (outlined : Fragment.HasOutline format kinds [] [])
    (fills : Fragment.FillsBalanced kinds arguments) :
    Moves (nextBrace format arguments) ['\x7d'] ['\x7d'] := by
  have opening : Scanner.Moves " \x7b".toList [] ['\x7d'] := rfl
  have closing : Scanner.Moves "\x7d".toList ['\x7d'] [] := rfl
  have turned := ((Fragment.moves_text closing).append
    (Fragment.moves_format kinds outlined fills)).append (Fragment.moves_text opening)
  exact (balanced_unindent.moves _).append ((moves_code turned).append (balanced_indent.moves _))

/-- A block that is closed expects what its format string leaves. -/
theorem moves_closeStatement (outlined : Fragment.HasOutline format kinds before after)
    (fills : Fragment.FillsBalanced kinds arguments) :
    Moves (closeStatement format arguments) ('\x7d' :: before) after := by
  have brace : Scanner.Moves "\x7d".toList ['\x7d'] [] := rfl
  have closed := (Fragment.moves_text (brace.within before)).append
    (Fragment.moves_format kinds outlined fills)
  exact (balanced_unindent.moves _).append (moves_statementLine closed)

end Formats
end Block
end Wiring
