/-!
# Pages

A page is text written line by line at a current indentation depth.  Empty lines carry no
indentation, and the depth never falls below zero.
-/

namespace Wiring

/-- Text under construction with its indentation. -/
structure Page where
  /-- Text of one level of indentation. -/
  unit : String
  /-- Current depth. -/
  depth : Nat
  /-- Text written so far. -/
  text : String
  deriving DecidableEq, Repr

namespace Page

/-- Empty page with a given unit of indentation. -/
def blankPage (unit : String) : Page := ⟨unit, 0, ""⟩

/-- Empty page that indents by two spaces. -/
def standard : Page := blankPage "  "

/-- Indentation of the current depth. -/
def margin (page : Page) : String := String.join (List.replicate page.depth page.unit)

/-- Go one level deeper. -/
def indent (page : Page) : Page := { page with depth := page.depth + 1 }

/-- Go one level up, staying at depth zero there. -/
def unindent (page : Page) : Page := { page with depth := page.depth - 1 }

/-- Write a blank line. -/
def blank (page : Page) : Page := { page with text := page.text ++ "\n" }

/-- Write one line at the current depth. -/
def line (page : Page) (content : String) : Page :=
  if content = "" then page.blank
  else { page with text := page.text ++ page.margin ++ content ++ "\n" }

/-- Whether nothing was written. -/
def isEmpty (page : Page) : Bool := page.text.isEmpty

/-- Whether the text is empty or ends with a blank line. -/
def endsWithBlankLine (page : Page) : Bool :=
  match page.text.toList.reverse with
  | [] => true
  | '\n' :: '\n' :: _ => true
  | _ => false

end Page
end Wiring
