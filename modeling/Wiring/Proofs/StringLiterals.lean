import Mathlib.Data.List.TakeWhile
import Wiring.Text.Quoted

/-!
# Reading string literals

A reader takes the characters of a string literal one by one, escapes included, and stops behind the
closing quote.  It reads every quoted text back and is left with exactly what follows the literal,
so quoted texts can be told apart at the beginning of any text.  No backslash inside a quoted text
begins a Unicode escape, which would be replaced before literals are read.
-/

namespace Wiring
namespace Text

/-! ### The reader -/

/-- Letters behind a backslash, with the characters they stand for in a string literal. -/
def stringEscapes : List (Char × Char) :=
  [('"', '"'), ('\\', '\\'), ('n', '\n'), ('r', '\r'), ('t', '\t')]

/-- Read the rest of a string literal: the characters up to its closing quote, and what follows. -/
def readStringRest? : List Char → Option (List Char × List Char)
  | [] => none
  | '"' :: rest => some ([], rest)
  | '\\' :: letter :: rest =>
      (stringEscapes.lookup letter).bind fun char =>
        (readStringRest? rest).map (Prod.map (char :: ·) id)
  | char :: rest =>
      if char ∈ ['\\', '\n', '\r'] then none
      else (readStringRest? rest).map (Prod.map (char :: ·) id)

/-- Read a string literal at the beginning of a text. -/
def readString? : List Char → Option (List Char × List Char)
  | '"' :: rest => readStringRest? rest
  | _ => none

theorem readStringRest?_plain {char : Char} (plain : char ∉ ['"', '\\', '\n', '\r'])
    (rest : List Char) :
    readStringRest? (char :: rest) = (readStringRest? rest).map (Prod.map (char :: ·) id) := by
  simp only [List.mem_cons, List.not_mem_nil, or_false, not_or] at plain
  obtain ⟨quote, backslash, newline, carriage⟩ := plain
  rw [readStringRest?]
  · rw [if_neg (by simp [backslash, newline, carriage])]
  · exact quote
  · exact fun letter others same => absurd same backslash

/-- The quoted form of a character is read as that character. -/
theorem readStringRest?_quotedChar (char : Char) (rest : List Char) :
    readStringRest? (quotedChar char ++ rest) =
      (readStringRest? rest).map (Prod.map (char :: ·) id) := by
  unfold quotedChar
  split
  · rfl
  · rfl
  · rfl
  · rfl
  · rfl
  next quote backslash newline carriage tab =>
    exact readStringRest?_plain (by simpa using ⟨quote, backslash, newline, carriage⟩) rest

theorem readStringRest?_flatMap (chars rest : List Char) :
    readStringRest? (chars.flatMap quotedChar ++ '"' :: rest) = some (chars, rest) := by
  induction chars with
  | nil => rfl
  | cons char chars ih =>
      rw [List.flatMap_cons, List.append_assoc, readStringRest?_quotedChar, ih]
      rfl

/-- The reader stops right behind a quoted text, whatever follows. -/
theorem readString?_quote_append (text : String) (rest : List Char) :
    readString? ((quote text).toList ++ rest) = some (text.toList, rest) := by
  have shape : (quote text).toList ++ rest =
      '"' :: (text.toList.flatMap quotedChar ++ '"' :: rest) := by
    simp [quote, quoteChars]
  rw [shape]
  exact readStringRest?_flatMap text.toList rest

theorem eq_of_quote_append_eq {text other after after' : String}
    (same : quote text ++ after = quote other ++ after') : text = other ∧ after = after' := by
  have lists := congrArg String.toList same
  simp only [String.toList_append] at lists
  have read := readString?_quote_append text after.toList
  rw [lists, readString?_quote_append] at read
  obtain ⟨texts, rests⟩ := Prod.mk.inj (Option.some.inj read)
  exact ⟨(String.toList_injective texts).symm, (String.toList_injective rests).symm⟩

/-! ### Line ends -/

theorem not_mem_quotedChar {mark : Char} (ends : mark = '\n' ∨ mark = '\r') (char : Char) :
    mark ∉ quotedChar char := by
  unfold quotedChar
  split
  case h_6 _ _ newline carriage _ =>
    rw [List.mem_singleton]
    rintro rfl
    exact ends.elim newline carriage
  all_goals rcases ends with rfl | rfl <;> decide

/-- A quoted text stays on its line. -/
theorem not_mem_quote {mark : Char} (ends : mark = '\n' ∨ mark = '\r') (text : String) :
    mark ∉ (quote text).toList := by
  have not_quote : mark ≠ '"' := by
    rcases ends with rfl | rfl <;> decide
  simp [quote, quoteChars, not_quote, not_mem_quotedChar ends]

/-! ### Unicode escapes -/

/-- Number of backslashes at the end of a text. -/
def trailingBackslashes (chars : List Char) : Nat := (chars.reverse.takeWhile (· == '\\')).length

/-- Whether no Unicode escape begins in a text: every backslash before a `u` stands right behind an
odd number of other backslashes. -/
def HasNoUnicodeEscape (chars : List Char) : Prop :=
  ∀ before after, chars = before ++ '\\' :: 'u' :: after → trailingBackslashes before % 2 = 1

/-- Backslashes in front of another character do not count. -/
theorem trailingBackslashes_append {char : Char} (other : char ≠ '\\') (front chars : List Char) :
    trailingBackslashes (front ++ char :: chars) = trailingBackslashes chars := by
  have stop : (char :: front.reverse).takeWhile (· == '\\') = [] :=
    List.takeWhile_cons_of_neg (by simpa using other)
  rw [trailingBackslashes, List.reverse_append, List.reverse_cons, List.append_assoc,
    List.singleton_append, List.takeWhile_append, stop]
  split
  next all => simp [trailingBackslashes, all]
  next => rfl

theorem trailingBackslashes_pair (chars : List Char) :
    trailingBackslashes ('\\' :: '\\' :: chars) % 2 = trailingBackslashes chars % 2 := by
  simp only [trailingBackslashes, List.reverse_cons, List.append_assoc, List.takeWhile_append]
  split
  next all => simp [all]
  next => rfl

section HasNoUnicodeEscape

variable {chars : List Char}

theorem hasNoUnicodeEscape_nil : HasNoUnicodeEscape [] := by
  intro before after split
  simp at split

theorem HasNoUnicodeEscape.cons (none : HasNoUnicodeEscape chars) {char : Char}
    (other : char ≠ '\\') : HasNoUnicodeEscape (char :: chars) := by
  intro before after shape
  cases before with
  | nil => exact absurd (List.cons.inj shape).1 other
  | cons first before =>
      obtain ⟨rfl, behind⟩ := List.cons.inj shape
      exact (congrArg (· % 2) (trailingBackslashes_append other [] before)).trans
        (none before after behind)

theorem HasNoUnicodeEscape.pair (none : HasNoUnicodeEscape chars) :
    HasNoUnicodeEscape ('\\' :: '\\' :: chars) := by
  intro before after shape
  match before with
  | [] => simp at shape
  | [first] =>
      obtain rfl : '\\' = first := (List.cons.inj shape).1
      rfl
  | first :: second :: before =>
      simp only [List.cons_append, List.cons.injEq] at shape
      obtain ⟨rfl, rfl, behind⟩ := shape
      rw [trailingBackslashes_pair]
      exact none before after behind

theorem HasNoUnicodeEscape.escape (none : HasNoUnicodeEscape chars) {letter : Char}
    (other : letter ≠ '\\') (not_u : letter ≠ 'u') :
    HasNoUnicodeEscape ('\\' :: letter :: chars) := by
  intro before after shape
  match before with
  | [] =>
      simp only [List.nil_append, List.cons.injEq] at shape
      exact absurd shape.2.1 not_u
  | [first] =>
      simp only [List.cons_append, List.nil_append, List.cons.injEq] at shape
      exact absurd shape.2.1 other
  | first :: second :: before =>
      simp only [List.cons_append, List.cons.injEq] at shape
      obtain ⟨rfl, rfl, behind⟩ := shape
      exact (congrArg (· % 2) (trailingBackslashes_append other ['\\'] before)).trans
        (none before after behind)

/-- The quoted form of a character begins no Unicode escape, whatever stands behind it. -/
theorem HasNoUnicodeEscape.quotedChar_append (none : HasNoUnicodeEscape chars) (char : Char) :
    HasNoUnicodeEscape (quotedChar char ++ chars) := by
  unfold quotedChar
  split
  · exact none.escape (by decide) (by decide)
  · exact none.pair
  · exact none.escape (by decide) (by decide)
  · exact none.escape (by decide) (by decide)
  · exact none.escape (by decide) (by decide)
  next _ backslash _ _ _ => exact none.cons backslash

theorem hasNoUnicodeEscape_quote (text : String) : HasNoUnicodeEscape (quote text).toList := by
  have body : ∀ chars : List Char, HasNoUnicodeEscape (chars.flatMap quotedChar ++ ['"']) := by
    intro chars
    induction chars with
    | nil => exact hasNoUnicodeEscape_nil.cons (by decide)
    | cons char chars ih =>
        rw [List.flatMap_cons, List.append_assoc]
        exact ih.quotedChar_append char
  rw [quote, String.toList_ofList]
  exact (body text.toList).cons (by decide)

end HasNoUnicodeEscape

/-! ### Unique decoding -/

/-- A quoted text stays on its line, is read back exactly up to its last character whatever follows,
holds no Unicode escape, and cannot be mistaken for another quoted text at the beginning of a
text. -/
theorem quote_uniquely_decodable (text : String) :
    ('\n' ∉ (quote text).toList ∧ '\r' ∉ (quote text).toList) ∧
      (∀ rest, readString? ((quote text).toList ++ rest) = some (text.toList, rest)) ∧
      HasNoUnicodeEscape (quote text).toList ∧
      ∀ other after after',
        quote text ++ after = quote other ++ after' ↔ text = other ∧ after = after' := by
  refine ⟨⟨not_mem_quote (.inl rfl) text, not_mem_quote (.inr rfl) text⟩,
    readString?_quote_append text, hasNoUnicodeEscape_quote text, fun other after after' => ?_⟩
  constructor
  · exact eq_of_quote_append_eq
  · rintro ⟨rfl, rfl⟩
    rfl

end Text
end Wiring
