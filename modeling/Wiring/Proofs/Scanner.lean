/-!
# Scanning source text

A scanner reads source text from left to right.  It tells code from string literals, character
literals and line comments, and in code it keeps the closing brackets that are still expected.  A
line that ends inside a literal, or a closing bracket that is not expected, stops it.
-/

namespace Wiring

/-- Part of a source text that a scanner is in. -/
inductive ScanMode where
  | code
  /-- Code, right after a slash. -/
  | slash
  | comment
  /-- A literal between two equal marks. -/
  | literal (mark : Char)
  /-- A literal, right after a backslash. -/
  | escape (mark : Char)
  deriving DecidableEq, Repr

/-- Mode of a scanner, and the closing brackets it expects, innermost first. -/
structure Scanner where
  /-- Part of the text the scanner is in. -/
  mode : ScanMode
  /-- Closing brackets still expected. -/
  pending : List Char
  deriving DecidableEq, Repr

namespace Scanner

/-- Scanner at the start of a text, and after a text in which everything is closed. -/
def start : Scanner := ⟨.code, []⟩

/-- Closing bracket that answers an opening one. -/
def closing? : Char → Option Char
  | '(' => some ')'
  | '[' => some ']'
  | '\x7b' => some '\x7d'
  | _ => none

/-- Whether a character is a closing bracket. -/
def isClosing (char : Char) : Bool := char == ')' || char == ']' || char == '\x7d'

/-- Whether a character begins and ends literals. -/
def isMark (char : Char) : Bool := char == '"' || char == '\''

/-- Whether a character ends a line. -/
def endsLine (char : Char) : Bool := char == '\n' || char == '\r'

/-- Close the innermost bracket. -/
def close (char : Char) : List Char → Option Scanner
  | expected :: outer => if expected = char then some ⟨.code, outer⟩ else none
  | [] => none

/-- Read one character of code. -/
def readCode (pending : List Char) (char : Char) : Option Scanner :=
  if isMark char then some ⟨.literal char, pending⟩
  else if char = '/' then some ⟨.slash, pending⟩
  else if isClosing char then close char pending
  else some ⟨.code, (closing? char).toList ++ pending⟩

/-- Read one character. -/
def read (scanner : Scanner) (char : Char) : Option Scanner :=
  match scanner.mode with
  | .code => readCode scanner.pending char
  | .slash =>
      if char = '/' then some ⟨.comment, scanner.pending⟩ else readCode scanner.pending char
  | .comment => some ⟨if endsLine char then .code else .comment, scanner.pending⟩
  | .literal mark =>
      if endsLine char then none
      else if char = '\\' then some ⟨.escape mark, scanner.pending⟩
      else some ⟨if char = mark then .code else .literal mark, scanner.pending⟩
  | .escape mark => if endsLine char then none else some ⟨.literal mark, scanner.pending⟩

/-- Read a text. -/
def readAll (scanner : Scanner) (chars : List Char) : Option Scanner := chars.foldlM read scanner

theorem readAll_cons (scanner : Scanner) (char : Char) (chars : List Char) :
    scanner.readAll (char :: chars) = (scanner.read char).bind (·.readAll chars) := rfl

theorem readAll_append (scanner : Scanner) (first second : List Char) :
    scanner.readAll (first ++ second) = (scanner.readAll first).bind (·.readAll second) :=
  List.foldlM_append

/-- The scanner with more brackets expected outside. -/
def within (scanner : Scanner) (outer : List Char) : Scanner :=
  ⟨scanner.mode, scanner.pending ++ outer⟩

theorem close_within {char : Char} {pending outer : List Char} {next : Scanner}
    (closed : close char pending = some next) :
    close char (pending ++ outer) = some (next.within outer) := by
  cases pending with
  | nil => cases closed
  | cons expected pending =>
      simp only [close] at closed
      split at closed
      next same =>
        cases closed
        simp [close, same, within]
      next => cases closed

theorem readCode_within {char : Char} {pending outer : List Char} {next : Scanner}
    (done : readCode pending char = some next) :
    readCode (pending ++ outer) char = some (next.within outer) := by
  unfold readCode at done ⊢
  split
  next mark =>
    rw [if_pos mark] at done
    cases done
    rfl
  next no_mark =>
    rw [if_neg no_mark] at done
    split
    next slash =>
      rw [if_pos slash] at done
      cases done
      rfl
    next no_slash =>
      rw [if_neg no_slash] at done
      split
      next closes =>
        rw [if_pos closes] at done
        exact close_within done
      next keeps =>
        rw [if_neg keeps] at done
        cases done
        simp [within]

/-- Brackets outside do not change how a character is read. -/
theorem read_within {scanner next : Scanner} {char : Char} (outer : List Char)
    (done : scanner.read char = some next) :
    (scanner.within outer).read char = some (next.within outer) := by
  obtain ⟨mode, pending⟩ := scanner
  cases mode with
  | code => exact readCode_within done
  | slash =>
      simp only [read, within] at done ⊢
      split
      next comment =>
        rw [if_pos comment] at done
        cases done
        rfl
      next code =>
        rw [if_neg code] at done
        exact readCode_within done
  | comment =>
      cases done
      rfl
  | literal mark =>
      simp only [read, within] at done ⊢
      split at done
      next => cases done
      next inside =>
        rw [if_neg inside]
        split at done
        next backslash =>
          cases done
          rw [if_pos backslash]
        next plain =>
          cases done
          rw [if_neg plain]
  | escape mark =>
      simp only [read, within] at done ⊢
      split at done
      next => cases done
      next inside =>
        cases done
        rw [if_neg inside]

theorem readAll_within {scanner next : Scanner} {chars : List Char} (outer : List Char)
    (done : scanner.readAll chars = some next) :
    (scanner.within outer).readAll chars = some (next.within outer) := by
  induction chars generalizing scanner with
  | nil =>
      cases done
      rfl
  | cons char chars ih =>
      rw [readAll_cons] at done ⊢
      obtain ⟨middle, first, rest⟩ := Option.bind_eq_some_iff.mp done
      rw [read_within outer first]
      exact ih rest

end Scanner
end Wiring
