import Wiring.Proofs.CleanNames
import Wiring.Proofs.Rendering

/-!
# Brackets of code

A fragment moves the expected brackets if its text does in every file that writes clean names as
balanced text.  The brackets of an expanded format string are those of the format alone, as long as
balanced code is filled in, and blocks put the moves of their lines together.
-/

namespace Wiring

namespace Fragment

/-- Whether a fragment refers to clean types only, and moves code with some expected brackets to
code with others. -/
structure Moves (fragment : Fragment) (before after : List Char) : Prop where
  /-- Referenced types are clean. -/
  types : ∀ name ∈ fragment.types, name.IsClean
  /-- The text moves the expected brackets. -/
  chars : ∀ typeText, WritesBalanced typeText →
    Scanner.Moves (fragment.chars typeText) before after

/-- Whether a fragment leaves the expected brackets as they are. -/
abbrev Balanced (fragment : Fragment) : Prop := fragment.Moves [] []

theorem filterMap_consText (content : String) (parts : List Part) :
    (Part.consText content parts).filterMap Part.type? = parts.filterMap Part.type? := by
  unfold Part.consText
  split
  · rfl
  · split
    · rfl
    · rfl

theorem types_append (left right : Fragment) :
    (left ++ right).types = left.types ++ right.types := by
  show (left.parts.foldr Part.cons right.parts).filterMap Part.type? = _
  unfold types
  induction left.parts with
  | nil => rfl
  | cons part parts ih =>
      cases part with
      | text content => rw [List.foldr_cons, Part.cons, filterMap_consText, ih]; rfl
      | type name => simp [Part.cons, Part.type?, ih]

theorem types_text (content : String) : (text content).types = [] :=
  filterMap_consText content []

theorem Moves.append {first second : Fragment} {before middle after : List Char}
    (moves : first.Moves before middle) (moves' : second.Moves middle after) :
    (first ++ second).Moves before after where
  types name mem := by
    rw [types_append] at mem
    exact (List.mem_append.mp mem).elim (moves.types name) (moves'.types name)
  chars typeText writes := by
    rw [chars_append]
    exact (moves.chars typeText writes).append (moves'.chars typeText writes)

theorem Balanced.moves {fragment : Fragment} (balanced : fragment.Balanced)
    (pending : List Char) : fragment.Moves pending pending where
  types := balanced.types
  chars typeText writes := Scanner.Balanced.moves (balanced.chars typeText writes) pending

theorem moves_text {content : String} {before after : List Char}
    (moves : Scanner.Moves content.toList before after) : (text content).Moves before after where
  types name mem := by
    rw [types_text] at mem
    cases mem
  chars typeText _ := by
    rw [chars_text]
    exact moves

theorem balanced_empty : empty.Balanced := ⟨nofun, fun _ _ => Scanner.balanced_nil⟩

/-- A quoted text is balanced, whatever it says. -/
theorem balanced_quoted (content : String) : (text (Text.quote content)).Balanced :=
  moves_text (Scanner.balanced_quote content)

theorem balanced_clean {content : String} (clean : IsCleanText content) :
    (text content).Balanced :=
  moves_text clean.balanced

theorem balanced_type {name : TypeName} (clean : name.IsClean) : (type name).Balanced where
  types other mem := by
    obtain rfl : other = name := by simpa [type, types, Part.type?] using mem
    exact clean
  chars typeText writes := by
    rw [chars_type]
    exact writes name clean

theorem balanced_concat {fragments : List Fragment}
    (each : ∀ fragment ∈ fragments, fragment.Balanced) : (concat fragments).Balanced := by
  induction fragments with
  | nil => exact balanced_empty
  | cons first others ih =>
      exact (each first (by simp)).append (ih fun other mem => each other (by simp [mem]))

theorem balanced_join {separator : String} (plain : Scanner.Balanced separator.toList)
    {fragments : List Fragment} (each : ∀ fragment ∈ fragments, fragment.Balanced) :
    (join separator fragments).Balanced := by
  induction fragments with
  | nil => exact balanced_empty
  | cons first others ih =>
      cases others with
      | nil => exact each first (by simp)
      | cons second others =>
          have rest := ih fun other mem => each other (by simp [mem])
          exact ((each first (by simp)).append (moves_text plain)).append rest

/-- Characters of a format string that stand for themselves. -/
def outline : List Char → List Char
  | '$' :: _ :: rest => outline rest
  | char :: rest => char :: outline rest
  | [] => []

/-- Placeholders of a format string. -/
def placeholders : List Char → List (Option Placeholder)
  | '$' :: letter :: rest => Placeholder.ofChar? letter :: placeholders rest
  | _ :: rest => placeholders rest
  | [] => []

/-- Whether a character of code stays code. -/
def staysCode (char : Char) : Bool := !Scanner.isMark char && char != '/'

/-- Whether a format string has the given placeholders, no literals and comments of its own, and
brackets that move the expected ones. -/
def HasOutline (format : String) (kinds : List Placeholder) (before after : List Char) : Prop :=
  format.toList.all staysCode = true ∧ placeholders format.toList = kinds.map some ∧
    Scanner.Moves (outline format.toList) before after

instance (format : String) (kinds : List Placeholder) (before after : List Char) :
    Decidable (HasOutline format kinds before after) := inferInstanceAs (Decidable (_ ∧ _ ∧ _))

/-- Whether the arguments of placeholders are balanced code. -/
def FillsBalanced : List Placeholder → List Argument → Prop
  | [], [] => True
  | placeholder :: kinds, argument :: arguments =>
      (placeholder.fill argument).Balanced ∧ FillsBalanced kinds arguments
  | _, _ => False

/-- A character that stays code is read before the rest of the code. -/
theorem exists_moves_cons {char : Char} (code : staysCode char = true)
    {chars before after : List Char} (moves : Scanner.Moves (char :: chars) before after) :
    ∃ middle, Scanner.Moves [char] before middle ∧ Scanner.Moves chars middle after := by
  simp only [staysCode, Bool.and_eq_true, Bool.not_eq_true', bne_iff_ne] at code
  rw [Scanner.Moves, Scanner.readAll_cons] at moves
  obtain ⟨⟨mode, middle⟩, first, rest⟩ := Option.bind_eq_some_iff.mp moves
  have stays : mode = .code := by
    simp only [Scanner.read, Scanner.readCode, code, Bool.false_eq_true, if_false] at first
    split at first
    · unfold Scanner.close at first
      split at first
      · split at first
        · cases first
          rfl
        · cases first
      · cases first
    · cases first
      rfl
  subst stays
  refine ⟨middle, ?_, rest⟩
  rw [Scanner.Moves, Scanner.readAll_cons, first]
  rfl

theorem moves_char {char : Char} {before after : List Char}
    (moves : Scanner.Moves [char] before after) : (Fragment.char char).Moves before after :=
  moves_text (by rwa [String.toList_singleton])

/-- An expansion with balanced code moves the brackets of the format string. -/
theorem moves_expand {chars : List Char} {kinds : List Placeholder} {arguments : List Argument}
    {before after : List Char} (code : chars.all staysCode = true)
    (placed : placeholders chars = kinds.map some) (fills : FillsBalanced kinds arguments)
    (moves : Scanner.Moves (outline chars) before after) :
    (expand chars arguments).Moves before after := by
  induction chars using outline.induct generalizing kinds arguments before with
  | case1 letter rest ih =>
      cases kinds with
      | nil => cases placed
      | cons kind kinds =>
          cases arguments with
          | nil => exact fills.elim
          | cons argument arguments =>
              simp only [placeholders, List.map_cons, List.cons.injEq] at placed
              simp only [List.all_cons, Bool.and_eq_true] at code
              rw [expand_fill placed.1]
              exact (fills.1.moves before).append (ih code.2.2 placed.2 fills.2 moves)
  | case2 char rest no_placeholder ih =>
      have outlined : outline (char :: rest) = char :: outline rest := by
        rw [outline]
        exact no_placeholder
      have unplaced : placeholders (char :: rest) = placeholders rest := by
        rw [placeholders]
        exact no_placeholder
      simp only [List.all_cons, Bool.and_eq_true] at code
      rw [outlined] at moves
      rw [unplaced] at placed
      obtain ⟨middle, first, others⟩ := exists_moves_cons code.1 moves
      rw [expand_other no_placeholder]
      exact (moves_char first).append (ih code.2 placed fills others)
  | case3 =>
      rw [expand]
      obtain rfl : before = after := (Scanner.mk.inj (Option.some.inj moves)).2
      exact balanced_empty.moves before

/-- Code of a format string moves the brackets of the format string. -/
theorem moves_format {format : String} (kinds : List Placeholder) {arguments : List Argument}
    {before after : List Char} (outlined : HasOutline format kinds before after)
    (fills : FillsBalanced kinds arguments) :
    (Fragment.format format arguments).Moves before after :=
  moves_expand outlined.1 outlined.2.1 fills outlined.2.2

end Fragment
end Wiring
