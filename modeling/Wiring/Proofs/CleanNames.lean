import Wiring.DeclaredType
import Wiring.Framework
import Wiring.Proofs.Balance
import Wiring.Source.Imports
import Wiring.Text.Identifier

/-!
# Clean names

A name is clean if it consists of letters, digits, underscores, dollar signs and dots, and the name
of an array type may end in brackets.  Everything that generated code makes of a clean name is
balanced: its parts, its spelling in a file and the methods named after it.
-/

namespace Wiring

/-- Whether a character may stand in a clean name. -/
def isNameChar (char : Char) : Bool :=
  char.isAlphanum || char == '_' || char == '$' || char == '.'

theorem isPlain_of_isNameChar {char : Char} (named : isNameChar char = true) :
    Scanner.isPlain char = true := by
  have other : ∀ special, isNameChar special = false → char ≠ special := by
    rintro special excluded rfl
    rw [excluded] at named
    cases named
  have opens : Scanner.closing? char = none := by
    unfold Scanner.closing?
    split
    · exact absurd rfl (other '(' rfl)
    · exact absurd rfl (other '[' rfl)
    · exact absurd rfl (other '\x7b' rfl)
    · rfl
  simp [Scanner.isPlain, Scanner.isMark, Scanner.isClosing, opens, other '"' rfl, other '\'' rfl,
    other '/' rfl, other ')' rfl, other ']' rfl, other '\x7d' rfl]

theorem toNat_lt_of_isNameChar {char : Char} (named : isNameChar char = true) :
    char.toNat < 128 := by
  simp only [isNameChar, Char.isAlphanum, Bool.or_eq_true, beq_iff_eq] at named
  rcases named with (((letter | digit) | rfl) | rfl) | rfl
  · rcases Bool.or_eq_true_iff.mp letter with upper | lower
    · have bound := (of_decide_eq_true upper).2
      exact Nat.lt_of_le_of_lt (UInt32.le_iff_toNat_le.mp bound) (by decide)
    · have bound := of_decide_eq_true (Bool.and_eq_true_iff.mp lower).2
      exact Nat.lt_of_le_of_lt (UInt32.le_iff_toNat_le.mp bound) (by decide)
  · have bound := of_decide_eq_true (Bool.and_eq_true_iff.mp digit).2
    exact Nat.lt_of_le_of_lt (UInt32.le_iff_toNat_le.mp bound) (by decide)
  · decide
  · decide
  · decide

/-- Whether a text consists of name characters. -/
def IsCleanText (text : String) : Prop := text.toList.all isNameChar = true

instance (text : String) : Decidable (IsCleanText text) := inferInstanceAs (Decidable (_ = _))

theorem balanced_of_isNameChar {chars : List Char}
    (named : ∀ char ∈ chars, isNameChar char = true) : Scanner.Balanced chars :=
  Scanner.balanced_of_plain fun char mem => isPlain_of_isNameChar (named char mem)

theorem IsCleanText.balanced {text : String} (clean : IsCleanText text) :
    Scanner.Balanced text.toList :=
  balanced_of_isNameChar (List.all_eq_true.mp clean)

namespace Text

theorem mem_of_mem_cutLast? {mark char : Char} {chars before after : List Char}
    (cut : cutLast? mark chars = some (before, after)) (mem : char ∈ before ∨ char ∈ after) :
    char ∈ chars := by
  rw [(cutLast?_eq_some_iff.mp cut).1]
  rcases mem with mem | mem
  · exact List.mem_append_left _ mem
  · exact List.mem_append_right _ (List.mem_cons_of_mem _ mem)

theorem mem_of_mem_beforeLast {mark char : Char} {chars : List Char}
    (mem : char ∈ beforeLast mark chars) : char ∈ chars := by
  unfold beforeLast at mem
  split at mem
  next before after cut => exact mem_of_mem_cutLast? cut (.inl mem)
  next => cases mem

theorem mem_of_mem_afterLast {mark char : Char} {chars : List Char}
    (mem : char ∈ afterLast mark chars) : char ∈ chars := by
  unfold afterLast at mem
  split at mem
  next before after cut => exact mem_of_mem_cutLast? cut (.inr mem)
  next => exact mem

theorem isNameChar_of_mem_substitute {mark replacement char : Char} {chars : List Char}
    (replaced : isNameChar replacement = true)
    (named : ∀ char ∈ chars, isNameChar char = true)
    (mem : char ∈ substitute mark replacement chars) : isNameChar char = true := by
  obtain ⟨original, original_mem, rfl⟩ := List.mem_map.mp mem
  split
  · exact replaced
  · exact named original original_mem

theorem isNameChar_uppercase_ascii :
    ∀ code < 128, isNameChar (Char.ofNat code) = true →
      (uppercase (Char.ofNat code)).all isNameChar = true := by
  decide +kernel

/-- A name in uppercase is a name. -/
theorem isNameChar_of_mem_capitalize {char : Char} {chars : List Char}
    (named : ∀ char ∈ chars, isNameChar char = true) (mem : char ∈ capitalize chars) :
    isNameChar char = true := by
  cases chars with
  | nil => cases mem
  | cons first rest =>
      rcases List.mem_append.mp mem with mem | mem
      · have first_named := named first (by simp)
        have spelled := isNameChar_uppercase_ascii first.toNat (toNat_lt_of_isNameChar first_named)
        rw [Char.ofNat_toNat] at spelled
        exact List.all_eq_true.mp (spelled first_named) char mem
      · exact named char (by simp [mem])

theorem isNameChar_of_mem_identifier {chars : List Char} (identifier : isIdentifier chars = true)
    {char : Char} (mem : char ∈ chars) : isNameChar char = true := by
  have widened : ∀ char, continuesIdentifier char = true → isNameChar char = true := by
    intro char continues
    simp only [continuesIdentifier, isNameChar, Bool.or_eq_true] at continues ⊢
    exact .inl continues
  cases chars with
  | nil => cases mem
  | cons first rest =>
      simp only [isIdentifier, Bool.and_eq_true] at identifier
      rcases List.mem_cons.mp mem with rfl | mem
      · apply widened
        simp only [startsIdentifier, continuesIdentifier, Char.isAlphanum, Bool.or_eq_true]
          at identifier ⊢
        rcases identifier.1 with (letter | underscore) | dollar
        · exact .inl (.inl (.inl letter))
        · exact .inl (.inr underscore)
        · exact .inr dollar
      · exact widened char (List.all_eq_true.mp identifier.2 char mem)

theorem mem_intercalate {separator : List Char} {char : Char} {texts : List (List Char)}
    (mem : char ∈ separator.intercalate texts) :
    char ∈ separator ∨ ∃ text ∈ texts, char ∈ text := by
  induction texts with
  | nil => cases mem
  | cons first others ih =>
      cases others with
      | nil =>
          rw [List.intercalate_singleton] at mem
          exact .inr ⟨first, by simp, mem⟩
      | cons second others =>
          rw [List.intercalate_cons_cons] at mem
          rcases List.mem_append.mp mem with mem | mem
          · rcases List.mem_append.mp mem with mem | mem
            · exact .inr ⟨first, by simp, mem⟩
            · exact .inl mem
          · rcases ih mem with mem | ⟨text, listed, mem⟩
            · exact .inl mem
            · exact .inr ⟨text, List.mem_cons_of_mem _ listed, mem⟩

/-- Package names are clean. -/
theorem isNameChar_of_mem_packageName {chars : List Char} (named : isPackageName chars = true)
    {char : Char} (mem : char ∈ chars) : isNameChar char = true := by
  rcases Bool.or_eq_true_iff.mp named with empty | identifiers
  · rw [List.isEmpty_iff.mp empty] at mem
    cases mem
  · have joined : ['.'].intercalate (chars.splitOn '.') = chars := List.intercalate_splitOn '.'
    rw [← joined] at mem
    rcases mem_intercalate mem with mem | ⟨part, listed, mem⟩
    · obtain rfl := List.mem_singleton.mp mem
      rfl
    · exact isNameChar_of_mem_identifier (List.all_eq_true.mp identifiers part listed) mem

end Text

/-- Property names make clean method names. -/
theorem IsCleanText.setterName {property : String} (clean : IsCleanText property) :
    IsCleanText (setterName property) := by
  have named := List.all_eq_true.mp clean
  apply List.all_eq_true.mpr
  intro char mem
  rw [Wiring.setterName, String.toList_append] at mem
  rcases List.mem_append.mp mem with mem | mem
  · have fixed : "set".toList.all isNameChar = true := by decide
    exact List.all_eq_true.mp fixed char mem
  · rw [String.toList_ofList] at mem
    exact Text.isNameChar_of_mem_capitalize named mem

namespace TypeName

/-- Whether a type name is clean, up to its array dimensions. -/
def IsClean (name : TypeName) : Prop := name.elementChars.all isNameChar = true

instance (name : TypeName) : Decidable name.IsClean := inferInstanceAs (Decidable (_ = _))

theorem mem_of_mem_stripDimensions {char : Char} {chars : List Char}
    (mem : char ∈ (stripDimensions chars).2) : char ∈ chars := by
  induction chars using stripDimensions.induct with
  | case1 rest ih => exact List.mem_cons_of_mem _ (List.mem_cons_of_mem _ (ih mem))
  | case2 chars no_dimension =>
      unfold stripDimensions at mem
      split at mem
      next rest => exact absurd rfl (no_dimension rest)
      next => exact mem

theorem mem_of_mem_elementChars {char : Char} {name : TypeName}
    (mem : char ∈ name.elementChars) : char ∈ name.text.toList :=
  List.mem_reverse.mp (mem_of_mem_stripDimensions (List.mem_reverse.mp mem))

variable {name : TypeName}

/-- A name without array dimensions is clean if its characters are. -/
theorem isClean_of_text (clean : IsCleanText name.text) : name.IsClean :=
  List.all_eq_true.mpr fun char mem =>
    List.all_eq_true.mp clean char (mem_of_mem_elementChars mem)

theorem IsClean.package (clean : name.IsClean) : IsCleanText name.package := by
  rw [IsCleanText, TypeName.package, String.toList_ofList]
  exact List.all_eq_true.mpr fun char mem =>
    List.all_eq_true.mp clean char (Text.mem_of_mem_beforeLast mem)

theorem IsClean.simpleName (clean : name.IsClean) : IsCleanText name.simpleName := by
  rw [IsCleanText, TypeName.simpleName, String.toList_ofList]
  exact List.all_eq_true.mpr fun char mem =>
    List.all_eq_true.mp clean char (Text.mem_of_mem_afterLast (Text.mem_of_mem_afterLast mem))

theorem IsClean.topLevel (clean : name.IsClean) : IsCleanText name.topLevel.text := by
  rw [IsCleanText, TypeName.topLevel, String.toList_ofList]
  exact List.all_eq_true.mpr fun char mem =>
    List.all_eq_true.mp clean char (List.takeWhile_subset _ mem)

theorem IsClean.element (clean : name.IsClean) : IsCleanText name.element.text := by
  rw [IsCleanText, TypeName.element, String.toList_ofList]
  exact clean

theorem isCleanText_qualify {package simpleName : String} (clean : IsCleanText package)
    (clean' : IsCleanText simpleName) : IsCleanText (qualify package simpleName).text := by
  unfold qualify
  split
  · exact clean'
  · rw [IsCleanText, String.toList_append, String.toList_append, List.all_append, List.all_append,
      clean, clean']
    rfl

end TypeName

/-- Whether clean names are written as balanced text. -/
def WritesBalanced (typeText : TypeName → String) : Prop :=
  ∀ name : TypeName, name.IsClean → Scanner.Balanced (typeText name).toList

namespace Imports

theorem balanced_brackets (dimensions : Nat) : Scanner.Balanced (brackets dimensions).toList := by
  rw [brackets, String.toList_join]
  apply Scanner.balanced_flatMap
  intro text mem
  rw [(List.mem_replicate.mp mem).2]
  rfl

/-- Every file writes clean names as balanced text. -/
theorem writesBalanced_typeText (imports : Imports) : WritesBalanced imports.typeText := by
  intro name clean
  have named := List.all_eq_true.mp clean.element
  rw [typeText, String.toList_append]
  refine Scanner.Balanced.append ?_ (balanced_brackets name.dimensions)
  split
  · rw [TypeName.canonicalName, String.toList_ofList]
    exact balanced_of_isNameChar fun char mem =>
      Text.isNameChar_of_mem_substitute rfl named mem
  · rw [String.toList_ofList]
    apply balanced_of_isNameChar
    intro char mem
    refine Text.isNameChar_of_mem_substitute rfl (fun char mem => ?_) mem
    exact named char (TypeName.mem_of_mem_elementChars (Text.mem_of_mem_afterLast mem))

end Imports
end Wiring
