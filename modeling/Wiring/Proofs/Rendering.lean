import Wiring.Source.Block

/-!
# Characters of fragments

The characters of a fragment under a choice of type texts.  They turn the operations on fragments
into concatenation, and the expansion of a format string into a walk over its characters.
-/

namespace Wiring

/-- Characters of a piece. -/
def Part.chars (typeText : TypeName → String) (part : Part) : List Char :=
  (part.render typeText).toList

namespace Fragment

variable (typeText : TypeName → String)

/-- Characters of a fragment. -/
def chars (fragment : Fragment) : List Char := fragment.parts.flatMap (Part.chars typeText)

theorem toList_render (fragment : Fragment) :
    (fragment.render typeText).toList = fragment.chars typeText := by
  rw [render, String.toList_join, List.flatMap_map]
  rfl

theorem flatMap_consText (content : String) (parts : List Part) :
    (Part.consText content parts).flatMap (Part.chars typeText) =
      content.toList ++ parts.flatMap (Part.chars typeText) := by
  unfold Part.consText
  split
  next empty => simp [empty]
  next nonempty =>
    split
    next next rest => simp [Part.chars, Part.render]
    next no_text => simp [Part.chars, Part.render]

theorem flatMap_cons (part : Part) (parts : List Part) :
    (part.cons parts).flatMap (Part.chars typeText) =
      part.chars typeText ++ parts.flatMap (Part.chars typeText) := by
  cases part with
  | text content => exact flatMap_consText typeText content parts
  | type name => rfl

@[simp]
theorem chars_empty : empty.chars typeText = [] := rfl

@[simp]
theorem chars_text (content : String) : (text content).chars typeText = content.toList := by
  exact (flatMap_consText typeText content []).trans (List.append_nil _)

@[simp]
theorem chars_type (name : TypeName) : (type name).chars typeText = (typeText name).toList := by
  simp [type, chars, Part.chars, Part.render]

@[simp]
theorem chars_append (left right : Fragment) :
    (left ++ right).chars typeText = left.chars typeText ++ right.chars typeText := by
  show (left.parts.foldr Part.cons right.parts).flatMap (Part.chars typeText) = _
  unfold chars
  induction left.parts with
  | nil => rfl
  | cons part parts ih =>
      rw [List.foldr_cons, flatMap_cons, ih]
      simp

theorem chars_join (separator : String) (fragments : List Fragment) :
    (join separator fragments).chars typeText =
      separator.toList.intercalate (fragments.map (chars typeText)) := by
  induction fragments with
  | nil => rfl
  | cons first others ih =>
      cases others with
      | nil => simp [join]
      | cons second others =>
          have step : join separator (first :: second :: others) =
              first ++ text separator ++ join separator (second :: others) := rfl
          rw [step, chars_append, chars_append, chars_text, ih]
          simp only [List.map_cons, List.intercalate_cons_cons]

theorem chars_concat (fragments : List Fragment) :
    (concat fragments).chars typeText = fragments.flatMap (chars typeText) := by
  induction fragments with
  | nil => rfl
  | cons first others ih =>
      have step : concat (first :: others) = first ++ concat others := rfl
      rw [step, chars_append, ih, List.flatMap_cons]

@[simp]
theorem chars_char (char : Char) : (Fragment.char char).chars typeText = [char] := by
  simp [Fragment.char]

@[simp]
theorem chars_expand_nil (arguments : List Argument) :
    (expand [] arguments).chars typeText = [] := by
  simp [expand]

/-- A character that begins no placeholder stands for itself. -/
theorem expand_other {char : Char} {rest : List Char}
    (no_placeholder : ∀ letter others, char = '$' → rest = letter :: others → False)
    (arguments : List Argument) :
    expand (char :: rest) arguments = Fragment.char char ++ expand rest arguments := by
  rw [expand]
  · exact fun others => no_placeholder '$' others
  · exact no_placeholder

theorem expand_fill {letter : Char} {placeholder : Placeholder}
    (known : Placeholder.ofChar? letter = some placeholder) (rest : List Char)
    (argument : Argument) (others : List Argument) :
    expand ('$' :: letter :: rest) (argument :: others) =
      placeholder.fill argument ++ expand rest others := by
  have letter_ne : letter ≠ '$' := by
    rintro rfl
    cases known
  exact expand.eq_5 letter rest placeholder argument others letter_ne known

/-- A character other than the dollar sign stands for itself. -/
@[simp]
theorem chars_expand_plain {char : Char} (plain : char ≠ '$') (rest : List Char)
    (arguments : List Argument) :
    (expand (char :: rest) arguments).chars typeText =
      char :: (expand rest arguments).chars typeText := by
  rw [expand_other (fun letter others same => absurd same plain), chars_append, chars_char]
  rfl

/-- A placeholder stands for what it makes of its argument. -/
theorem chars_expand_fill {letter : Char} {placeholder : Placeholder}
    (known : Placeholder.ofChar? letter = some placeholder) (rest : List Char)
    (argument : Argument) (others : List Argument) :
    (expand ('$' :: letter :: rest) (argument :: others)).chars typeText =
      (placeholder.fill argument).chars typeText ++ (expand rest others).chars typeText := by
  rw [expand_fill known, chars_append]

@[simp]
theorem chars_expand_type (rest : List Char) (argument : Argument) (others : List Argument) :
    (expand ('$' :: 'T' :: rest) (argument :: others)).chars typeText =
      (Placeholder.type.fill argument).chars typeText ++ (expand rest others).chars typeText :=
  chars_expand_fill typeText rfl rest argument others

@[simp]
theorem chars_expand_string (rest : List Char) (argument : Argument) (others : List Argument) :
    (expand ('$' :: 'S' :: rest) (argument :: others)).chars typeText =
      (Placeholder.string.fill argument).chars typeText ++ (expand rest others).chars typeText :=
  chars_expand_fill typeText rfl rest argument others

@[simp]
theorem chars_expand_literal (rest : List Char) (argument : Argument) (others : List Argument) :
    (expand ('$' :: 'L' :: rest) (argument :: others)).chars typeText =
      (Placeholder.literal.fill argument).chars typeText ++ (expand rest others).chars typeText :=
  chars_expand_fill typeText rfl rest argument others

@[simp]
theorem chars_expand_name (rest : List Char) (argument : Argument) (others : List Argument) :
    (expand ('$' :: 'N' :: rest) (argument :: others)).chars typeText =
      (Placeholder.name.fill argument).chars typeText ++ (expand rest others).chars typeText :=
  chars_expand_fill typeText rfl rest argument others

end Fragment
end Wiring
