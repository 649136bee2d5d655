import Wiring.Source.Format
import Wiring.Source.Page
import Wiring.SortedSet

/-!
# Blocks of code

A block is a list of lines and changes of indentation.  Blocks are put together with `++`; the
functions below make the blocks of a single statement or of one step of control flow.
-/

namespace Wiring

/-- Line of a block, or a change of its indentation. -/
inductive Line where
  /-- Code as it stands. -/
  | code (fragment : Fragment)
  /-- Code that ends with a semicolon. -/
  | statement (fragment : Fragment)
  /-- Comment of one line. -/
  | comment (text : String)
  | blank
  | indent
  | unindent
  deriving DecidableEq

namespace Line

/-- Types referenced by a line. -/
def types : Line → List TypeName
  | code fragment | statement fragment => fragment.types
  | _ => []

/-- Write a line. -/
def print (typeText : TypeName → String) (page : Page) : Line → Page
  | code fragment => page.line (fragment.render typeText)
  | statement fragment => page.line (fragment.render typeText ++ ";")
  | comment text => page.line ("// " ++ text)
  | blank => page.blank
  | indent => page.indent
  | unindent => page.unindent

end Line

/-- Lines of a method body. -/
abbrev Block := List Line

namespace Block

/-- A statement. -/
def statement (format : String) (arguments : List Argument) : Block :=
  [.statement (.format format arguments)]

/-- A line without semicolon. -/
def line (format : String) (arguments : List Argument) : Block :=
  [.code (.format format arguments)]

/-- Beginning of a braced block. -/
def openBrace (format : String) (arguments : List Argument) : Block :=
  [.code (.format format arguments ++ .text " \x7b"), .indent]

/-- End of one braced block and beginning of the next. -/
def nextBrace (format : String) (arguments : List Argument) : Block :=
  [.unindent, .code (.text "\x7d" ++ .format format arguments ++ .text " \x7b"), .indent]

/-- End of a braced block. -/
def closeBrace : Block := [.unindent, .code (.text "\x7d")]

/-- End of a braced block that completes a statement. -/
def closeStatement (format : String) (arguments : List Argument) : Block :=
  [.unindent, .statement (.text "\x7d" ++ .format format arguments)]

/-- Types referenced by a block. -/
def types (block : Block) : SortedSet TypeName := .ofList (block.flatMap Line.types)

/-- Write a block. -/
def print (typeText : TypeName → String) (page : Page) (block : Block) : Page :=
  block.foldl (Line.print typeText) page

/-- Text of a block under a choice of type texts. -/
def render (typeText : TypeName → String) (unit : String) (block : Block) : String :=
  (print typeText (.blankPage unit) block).text

theorem print_append (typeText : TypeName → String) (page : Page) (first second : Block) :
    print typeText page (first ++ second) = print typeText (print typeText page first) second :=
  List.foldl_append

end Block
end Wiring
