import Wiring.Proofs.Scanner
import Wiring.Text.Quoted

/-!
# Balanced pieces of source text

A piece of text moves a scanner of code from some expected brackets to others, whatever is expected
outside; a balanced piece moves it nowhere.  Quoted texts and character literals are balanced for
all characters, and other texts as long as their characters have no meaning for the scanner.
-/

namespace Wiring
namespace Scanner

/-- Whether a text moves code with some expected brackets to code with others. -/
def Moves (chars before after : List Char) : Prop :=
  readAll ⟨.code, before⟩ chars = some ⟨.code, after⟩

instance (chars before after : List Char) : Decidable (Moves chars before after) :=
  inferInstanceAs (Decidable (_ = _))

/-- Whether a text leaves the expected brackets as they are. -/
def Balanced (chars : List Char) : Prop := Moves chars [] []

instance (chars : List Char) : Decidable (Balanced chars) := inferInstanceAs (Decidable (Moves ..))

theorem Moves.within {chars before after : List Char} (moves : Moves chars before after)
    (outer : List Char) : Moves chars (before ++ outer) (after ++ outer) :=
  readAll_within outer moves

theorem Moves.append {first second before middle after : List Char}
    (moves : Moves first before middle) (moves' : Moves second middle after) :
    Moves (first ++ second) before after := by
  rw [Moves, readAll_append, moves]
  exact moves'

theorem Balanced.moves {chars : List Char} (balanced : Balanced chars) (pending : List Char) :
    Moves chars pending pending :=
  Moves.within balanced pending

@[simp]
theorem balanced_nil : Balanced [] := rfl

theorem Balanced.append {first second : List Char} (balanced : Balanced first)
    (balanced' : Balanced second) : Balanced (first ++ second) :=
  Moves.append balanced balanced'

theorem balanced_flatMap {α : Type} {items : List α} {text : α → List Char}
    (each : ∀ item ∈ items, Balanced (text item)) : Balanced (items.flatMap text) := by
  induction items with
  | nil => exact balanced_nil
  | cons item items ih =>
      rw [List.flatMap_cons]
      exact (each item (by simp)).append (ih fun other mem => each other (by simp [mem]))

theorem balanced_intercalate {separator : List Char} (balanced : Balanced separator)
    {texts : List (List Char)} (each : ∀ text ∈ texts, Balanced text) :
    Balanced (separator.intercalate texts) := by
  induction texts with
  | nil => exact balanced_nil
  | cons first others ih =>
      cases others with
      | nil =>
          rw [List.intercalate_singleton]
          exact each first (by simp)
      | cons second others =>
          rw [List.intercalate_cons_cons]
          exact ((each first (by simp)).append balanced).append
            (ih fun other mem => each other (by simp [mem]))

/-- Whether a character of code has no meaning for the scanner. -/
def isPlain (char : Char) : Bool :=
  !isMark char && char != '/' && !isClosing char && (closing? char).isNone

theorem balanced_of_plain {chars : List Char} (plain : ∀ char ∈ chars, isPlain char = true) :
    Balanced chars := by
  induction chars with
  | nil => exact balanced_nil
  | cons char chars ih =>
      have first := plain char (by simp)
      simp only [isPlain, Bool.and_eq_true, Bool.not_eq_true', bne_iff_ne,
        Option.isNone_iff_eq_none] at first
      obtain ⟨⟨⟨no_mark, no_slash⟩, keeps⟩, opens⟩ := first
      have step : read start char = some start := by
        simp [read, start, readCode, no_mark, no_slash, keeps, opens]
      rw [Balanced, Moves, readAll_cons]
      change (read start char).bind _ = _
      rw [step]
      exact ih fun other mem => plain other (by simp [mem])

theorem readAll_literal_inert {mark : Char} {pending chars : List Char}
    (inert : ∀ char ∈ chars, endsLine char = false ∧ char ≠ '\\' ∧ char ≠ mark) :
    readAll ⟨.literal mark, pending⟩ chars = some ⟨.literal mark, pending⟩ := by
  induction chars with
  | nil => rfl
  | cons char chars ih =>
      obtain ⟨same_line, no_backslash, inside⟩ := inert char (by simp)
      rw [readAll_cons]
      simp only [read, same_line, no_backslash, inside, Bool.false_eq_true, if_false,
        Option.bind_some]
      exact ih fun other mem => inert other (by simp [mem])

/-- A text that stays inside a literal is balanced between its marks. -/
theorem balanced_literal {mark : Char} {body : List Char} (marks : isMark mark = true)
    (inside : readAll ⟨.literal mark, []⟩ body = some ⟨.literal mark, []⟩) :
    Balanced (mark :: body ++ [mark]) := by
  have opened : read start mark = some ⟨.literal mark, []⟩ := by
    simp [read, start, readCode, marks]
  have closed : read ⟨.literal mark, []⟩ mark = some start := by
    rcases Bool.or_eq_true_iff.mp marks with same | same
    · obtain rfl := beq_iff_eq.mp same
      rfl
    · obtain rfl := beq_iff_eq.mp same
      rfl
  rw [Balanced, Moves, List.cons_append, readAll_cons]
  change (read start mark).bind _ = _
  rw [opened, Option.bind_some, readAll_append, inside, Option.bind_some, readAll_cons, closed]
  rfl

theorem readAll_quotedChar (char : Char) :
    readAll ⟨.literal '"', []⟩ (Text.quotedChar char) = some ⟨.literal '"', []⟩ := by
  unfold Text.quotedChar
  split
  · rfl
  · rfl
  · rfl
  · rfl
  · rfl
  next quote backslash newline carriage tab =>
    apply readAll_literal_inert
    intro other mem
    obtain rfl := List.mem_singleton.mp mem
    exact ⟨by simpa [endsLine] using ⟨newline, carriage⟩, backslash, quote⟩

/-- A string literal is balanced, whatever text it denotes. -/
theorem balanced_quote (text : String) : Balanced (Text.quote text).toList := by
  have inside : ∀ chars : List Char, readAll ⟨.literal '"', []⟩ (chars.flatMap Text.quotedChar) =
      some ⟨.literal '"', []⟩ := by
    intro chars
    induction chars with
    | nil => rfl
    | cons char chars ih =>
        rw [List.flatMap_cons, readAll_append, readAll_quotedChar, Option.bind_some, ih]
  rw [Text.quote, String.toList_ofList]
  exact balanced_literal rfl (inside text.toList)

theorem readAll_octal :
    ∀ code < 0xa0, readAll ⟨.literal '\'', []⟩ ('\\' :: Nat.toDigits 8 code) =
      some ⟨.literal '\'', []⟩ := by
  decide +kernel

theorem readAll_charLiteralBody (char : Char) :
    readAll ⟨.literal '\'', []⟩ (Text.charLiteralBody char) = some ⟨.literal '\'', []⟩ := by
  unfold Text.charLiteralBody
  split
  · rfl
  · rfl
  · rfl
  · rfl
  · rfl
  next quote backslash newline carriage tab =>
    split
    next control =>
      have small : char.toNat < 0xa0 := by
        simp only [Text.isControl, Bool.or_eq_true, Bool.and_eq_true, decide_eq_true_eq] at control
        omega
      exact readAll_octal char.toNat small
    next =>
      apply readAll_literal_inert
      intro other mem
      obtain rfl := List.mem_singleton.mp mem
      exact ⟨by simpa [endsLine] using ⟨newline, carriage⟩, backslash, quote⟩

/-- A character literal is balanced, whatever character it denotes. -/
theorem balanced_charLiteral {text literal : List Char}
    (denoted : Text.charLiteral? text = some literal) : Balanced literal := by
  unfold Text.charLiteral? at denoted
  split at denoted
  next char =>
    split at denoted
    · obtain rfl := Option.some.inj denoted
      exact balanced_literal rfl (readAll_charLiteralBody char)
    · cases denoted
  next => cases denoted

/-- A line comment is closed by the end of its line. -/
theorem balanced_comment {text : List Char}
    (one_line : ∀ char ∈ text, endsLine char = false) :
    Balanced ('/' :: '/' :: text ++ ['\n']) := by
  have inside : readAll ⟨.comment, []⟩ text = some ⟨.comment, []⟩ := by
    induction text with
    | nil => rfl
    | cons char text ih =>
        rw [readAll_cons]
        simp only [read, one_line char (by simp), Bool.false_eq_true, if_false, Option.bind_some]
        exact ih fun other mem => one_line other (by simp [mem])
  have opened : readAll ⟨.code, []⟩ ['/', '/'] = some ⟨.comment, []⟩ := rfl
  have split : '/' :: '/' :: text ++ ['\n'] = ['/', '/'] ++ (text ++ ['\n']) := rfl
  rw [Balanced, Moves, split, readAll_append, opened, Option.bind_some, readAll_append, inside]
  rfl

end Scanner
end Wiring
